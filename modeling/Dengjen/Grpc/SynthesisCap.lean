import Dengjen.General.Semaphore

/-!
# The cap on concurrent synthesis

A voice load or a synthesis takes a permit of the server's semaphore and moves it
into a task of the blocking pool, which drops it when it returns. A realtime
synthesis also has a producer, a job of its own on the synthesis pool, whose
chunks the task passes on to the client. The task returns at the first error
chunk and when the client is gone; the producer notices neither before it sends
again.

## Implementation notes

Of a chunk only whether it is an error is kept. A task that waits in
`blocking_send` or `rx.recv` is one that takes no step.
-/

namespace Dengjen.Grpc.SynthesisCap

open Semaphore TransitionSystem

/-- The requests that take a permit. -/
inductive Request
  | loadVoice
  | synthesizeUtterance
  | synthesizeUtteranceRealtime
  deriving DecidableEq

/-- What a producer sends. -/
inductive Chunk
  | audio
  | error
  deriving DecidableEq

/-- The closure on the blocking pool: waiting for a thread, loading or creating the stream,
in the loop of `drain_stream_into_channel`, in its `blocking_send`, or dropped. -/
inductive Task
  | queued
  | opening
  | draining
  | sending (chunk : Chunk)
  | returned
  deriving DecidableEq

/-- Where the producer of a realtime job is. -/
inductive Producer
  | unspawned
  | queued
  | running
  | finished
  deriving DecidableEq

/-- A request that was given a permit. `channel` holds what the producer has sent. -/
structure Job where
  request : Request
  task : Task
  producer : Producer
  channel : List Chunk
  connected : Bool
  deriving DecidableEq

/-- What may happen to a job. -/
inductive JobAction
  | start
  | opened (success : Bool)
  | startProducer
  | produce (chunk : Chunk)
  | finishProducer
  | next (chunk : Option Chunk)
  | send
  | disconnect
  deriving DecidableEq

namespace Job

/-- A job that has its permit and waits for a thread. -/
def new (request : Request) : Job := ⟨request, .queued, .unspawned, [], true⟩

/-- The task owns the permit until it returns. -/
def ownsPermit (job : Job) : Bool := job.task ≠ .returned

/-- What `next` gives the loop: a realtime stream ends when its channel is empty and no
producer is left. -/
def yields (job : Job) (chunk : Option Chunk) : Bool :=
  match job.request with
  | .synthesizeUtteranceRealtime =>
      chunk = job.channel.head? ∧ (chunk = none → job.producer = .finished)
  | _ => true

/-- A job goes on where its lines let it. -/
def step (job : Job) : JobAction → Option Job
  | .start => if job.task = .queued then some { job with task := .opening } else none
  | .opened success =>
      if job.task = .opening then
        match success, job.request with
        | false, _ | true, .loadVoice => some { job with task := .returned }
        | true, .synthesizeUtterance => some { job with task := .draining }
        | true, .synthesizeUtteranceRealtime =>
            some { job with task := .draining, producer := .queued }
      else none
  | .startProducer =>
      if job.producer = .queued then some { job with producer := .running } else none
  | .produce chunk =>
      if job.producer = .running then
        -- The receiver is dropped with the task's stream.
        if job.task = .returned then some { job with producer := .finished }
        else some { job with channel := job.channel ++ [chunk] }
      else none
  | .finishProducer =>
      if job.producer = .running then some { job with producer := .finished } else none
  | .next chunk =>
      if job.task = .draining ∧ job.yields chunk then
        match chunk with
        | none => some { job with task := .returned }
        | some chunk => some { job with task := .sending chunk, channel := job.channel.tail }
      else none
  | .send =>
      match job.task with
      | .sending chunk =>
          if job.connected ∧ chunk = .audio then some { job with task := .draining }
          else some { job with task := .returned }
      | _ => none
  | .disconnect => some { job with connected := false }

/-- The model works on the request: in its task, or in a producer that still runs. -/
def inProgress (job : Job) : Bool :=
  (job.task ≠ .queued ∧ job.task ≠ .returned) ∨ job.producer = .running

/-- A task that ends early, on an error chunk or because the client is gone, does not leave a
running producer behind. -/
def OutlivesProducer (job : Job) : JobAction → Prop
  | .send => (job.task = .sending .error ∨ job.connected = false) → job.producer ≠ .running
  | _ => True

end Job

/-- What a job can do. -/
inductive Stepped (job : Job) : JobAction → Job → Prop
  | start (htask : job.task = .queued) : Stepped job .start { job with task := .opening }
  | failed (htask : job.task = .opening) :
      Stepped job (.opened false) { job with task := .returned }
  | loaded (htask : job.task = .opening) (hrequest : job.request = .loadVoice) :
      Stepped job (.opened true) { job with task := .returned }
  | opened (htask : job.task = .opening) (hrequest : job.request = .synthesizeUtterance) :
      Stepped job (.opened true) { job with task := .draining }
  | spawned (htask : job.task = .opening)
      (hrequest : job.request = .synthesizeUtteranceRealtime) :
      Stepped job (.opened true) { job with task := .draining, producer := .queued }
  | startProducer (hproducer : job.producer = .queued) :
      Stepped job .startProducer { job with producer := .running }
  | unheard (chunk : Chunk) (hproducer : job.producer = .running)
      (htask : job.task = .returned) :
      Stepped job (.produce chunk) { job with producer := .finished }
  | produced (chunk : Chunk) (hproducer : job.producer = .running)
      (htask : job.task ≠ .returned) :
      Stepped job (.produce chunk) { job with channel := job.channel ++ [chunk] }
  | finishProducer (hproducer : job.producer = .running) :
      Stepped job .finishProducer { job with producer := .finished }
  | drained (htask : job.task = .draining) (hyields : job.yields none) :
      Stepped job (.next none) { job with task := .returned }
  | next (chunk : Chunk) (htask : job.task = .draining) (hyields : job.yields (some chunk)) :
      Stepped job (.next (some chunk))
        { job with task := .sending chunk, channel := job.channel.tail }
  | sent (htask : job.task = .sending .audio) (hconnected : job.connected) :
      Stepped job .send { job with task := .draining }
  | stopped (chunk : Chunk) (htask : job.task = .sending chunk)
      (hstop : chunk = .error ∨ job.connected = false) :
      Stepped job .send { job with task := .returned }
  | disconnect : Stepped job .disconnect { job with connected := false }

theorem stepped_of_step {job job' : Job} {action : JobAction} (h : job.step action = some job') :
    Stepped job action job' := by
  cases action with
  | start =>
      obtain ⟨htask, heq⟩ := Option.ite_none_right_eq_some.mp h
      exact Option.some.inj heq ▸ .start htask
  | opened success =>
      obtain ⟨htask, heq⟩ := Option.ite_none_right_eq_some.mp h
      split at heq
      · exact Option.some.inj heq ▸ .failed htask
      · next hrequest => exact Option.some.inj heq ▸ .loaded htask hrequest
      · next hrequest => exact Option.some.inj heq ▸ .opened htask hrequest
      · next hrequest => exact Option.some.inj heq ▸ .spawned htask hrequest
  | startProducer =>
      obtain ⟨hproducer, heq⟩ := Option.ite_none_right_eq_some.mp h
      exact Option.some.inj heq ▸ .startProducer hproducer
  | produce chunk =>
      obtain ⟨hproducer, heq⟩ := Option.ite_none_right_eq_some.mp h
      split at heq
      · next htask => exact Option.some.inj heq ▸ .unheard chunk hproducer htask
      · next htask => exact Option.some.inj heq ▸ .produced chunk hproducer htask
  | finishProducer =>
      obtain ⟨hproducer, heq⟩ := Option.ite_none_right_eq_some.mp h
      exact Option.some.inj heq ▸ .finishProducer hproducer
  | next chunk =>
      obtain ⟨⟨htask, hyields⟩, heq⟩ := Option.ite_none_right_eq_some.mp h
      cases chunk with
      | none => exact Option.some.inj heq ▸ .drained htask hyields
      | some chunk => exact Option.some.inj heq ▸ .next chunk htask hyields
  | send =>
      rw [Job.step] at h
      split at h
      · next chunk htask =>
          split at h
          · next hgoes => exact Option.some.inj h ▸ .sent (hgoes.2 ▸ htask) hgoes.1
          · next hstops =>
              have hstop : chunk = .error ∨ job.connected = false := by
                cases chunk with
                | error => exact .inl rfl
                | audio => exact .inr (by simpa using hstops)
              exact Option.some.inj h ▸ .stopped chunk htask hstop
      · cases h
  | disconnect => exact Option.some.inj h ▸ .disconnect

theorem ownsPermit_of_step (job : Job) (action : JobAction) (job' : Job)
    (h : job.step action = some job') (howns : job'.ownsPermit) : job.ownsPermit := by
  have hreturned : job.task = .returned → job'.task = .returned := by
    intro htask
    cases stepped_of_step h <;> simp_all
  simp only [Job.ownsPermit, ne_eq, decide_eq_true_eq] at howns ⊢
  exact fun htask => howns (hreturned htask)

/-- The server's semaphore and the requests it has admitted. -/
def jobs : Tasks Request Job JobAction where
  new := Job.new
  owns := Job.ownsPermit
  next := Job.step
  owns_new _ := rfl
  owns_of_next := ownsPermit_of_step

/-! ## Below the cap -/

/-- What the parts of a job have to do with each other. -/
structure JobInv (job : Job) : Prop where
  unopened : job.task = .queued ∨ job.task = .opening →
    job.producer = .unspawned ∧ job.channel = []
  unstarted : job.producer = .queued → job.task = .draining ∧ job.channel = []
  plain : job.request ≠ .synthesizeUtteranceRealtime → job.producer = .unspawned
  returned : job.task = .returned → job.producer ≠ .running

theorem JobInv.new (request : Request) : JobInv (.new request) where
  unopened _ := ⟨rfl, rfl⟩
  unstarted := nofun
  plain _ := rfl
  returned := nofun

/-- What the loop is given by a realtime stream comes from a producer that was started. -/
theorem JobInv.started_of_yields {job : Job} {chunk : Option Chunk} (hi : JobInv job)
    (hyields : job.yields chunk) :
    job.producer ≠ .queued ∧ (chunk = none → job.producer ≠ .running) := by
  cases hrequest : job.request with
  | loadVoice | synthesizeUtterance =>
      have hplain : job.producer = .unspawned := hi.plain (by rw [hrequest]; nofun)
      rw [hplain]
      exact ⟨nofun, fun _ => nofun⟩
  | synthesizeUtteranceRealtime =>
      simp only [Job.yields, hrequest, decide_eq_true_eq] at hyields
      constructor
      · intro hqueued
        have hempty := (hi.unstarted hqueued).2
        rw [hempty] at hyields
        rw [hyields.2 hyields.1] at hqueued
        cases hqueued
      · intro hnone
        rw [hyields.2 hnone]
        nofun

/-- Before its stream is there, a task that returns leaves no producer behind. -/
theorem JobInv.return_unopened {job : Job} (hi : JobInv job) (htask : job.task = .opening) :
    JobInv { job with task := .returned } := by
  obtain ⟨hproducer, hchannel⟩ := hi.unopened (.inr htask)
  constructor
  · intro _
    exact ⟨hproducer, hchannel⟩
  · intro hqueued
    exact absurd (hproducer.symm.trans hqueued) nofun
  · exact hi.plain
  · intro _ hrunning
    exact absurd (hproducer.symm.trans hrunning) nofun

/-- A producer that was started goes on without regard to the task. -/
theorem JobInv.started {job : Job} (hi : JobInv job) {producer : Producer}
    (hstarted : job.producer ≠ .unspawned) (hnext : producer ≠ .unspawned ∧ producer ≠ .queued)
    (hreturned : job.task = .returned → producer ≠ .running) (channel : List Chunk) :
    JobInv { job with producer, channel } := by
  constructor
  · intro htask
    exact absurd (hi.unopened htask).1 hstarted
  · intro hqueued
    exact absurd hqueued hnext.2
  · intro hrequest
    exact absurd (hi.plain hrequest) hstarted
  · exact hreturned

/-- A task with a stream moves in its loop, or returns from it when no producer runs. -/
theorem JobInv.moved {job : Job} (hi : JobInv job) {task : Task}
    (hopened : task ≠ .queued ∧ task ≠ .opening)
    (hunstarted : job.producer = .queued → task = .draining)
    (hreturned : task = .returned → job.producer ≠ .running) {channel : List Chunk}
    (hchannel : job.channel = [] → channel = []) :
    JobInv { job with task, channel } := by
  constructor
  · intro htask
    exact absurd htask (not_or.mpr hopened)
  · intro hqueued
    exact ⟨hunstarted hqueued, hchannel (hi.unstarted hqueued).2⟩
  · exact hi.plain
  · exact hreturned

theorem JobInv.step {job job' : Job} {action : JobAction} (hi : JobInv job)
    (hmay : job.OutlivesProducer action) (h : job.step action = some job') : JobInv job' := by
  cases stepped_of_step h with
  | start htask =>
      obtain ⟨hproducer, hchannel⟩ := hi.unopened (.inl htask)
      exact ⟨fun _ => ⟨hproducer, hchannel⟩, fun hqueued => absurd (hproducer.symm.trans hqueued) nofun,
        hi.plain, nofun⟩
  | failed htask | loaded htask _ => exact hi.return_unopened htask
  | opened htask hrequest => exact hi.moved (by decide) (fun _ => rfl) (fun h => by cases h) id
  | spawned htask hrequest =>
      have hchannel := (hi.unopened (.inr htask)).2
      exact ⟨nofun, fun _ => ⟨rfl, hchannel⟩, fun hplain => absurd hrequest hplain, nofun⟩
  | startProducer hproducer =>
      have htask := (hi.unstarted hproducer).1
      refine hi.started (by rw [hproducer]; decide) (by decide) ?_ job.channel
      intro hreturned
      exact absurd (htask.symm.trans hreturned) (by decide)
  | unheard chunk hproducer htask | finishProducer hproducer =>
      exact hi.started (by rw [hproducer]; decide) (by decide) (fun _ => by decide) job.channel
  | produced chunk hproducer htask =>
      exact hi.started (by rw [hproducer]; decide) (by rw [hproducer]; decide)
        (fun hreturned => absurd hreturned htask) _
  | drained htask hyields =>
      obtain ⟨hqueued, hrunning⟩ := hi.started_of_yields hyields
      exact hi.moved (by decide) (fun h => absurd h hqueued) (fun _ => hrunning rfl) id
  | next chunk htask hyields =>
      obtain ⟨hqueued, -⟩ := hi.started_of_yields hyields
      refine hi.moved (by simp) (fun h => absurd h hqueued) (fun h => by cases h) ?_
      intro hempty
      rw [hempty, List.tail_nil]
  | sent htask hconnected =>
      exact hi.moved (by decide) (fun _ => rfl) (fun h => by cases h) id
  | stopped chunk htask hstop =>
      have hqueued : job.producer ≠ .queued := fun hqueued =>
        absurd (htask.symm.trans (hi.unstarted hqueued).1) nofun
      refine hi.moved (by decide) (fun h => absurd h hqueued) ?_ id
      intro _
      apply hmay
      rcases hstop with rfl | hgone
      · exact .inl htask
      · exact .inr hgone
  | disconnect => exact ⟨hi.unopened, hi.unstarted, hi.plain, hi.returned⟩

/-- The steps in which no task that ends early leaves a running producer behind. -/
def outlivingSteps : State Job → Action Request JobAction → State Job → Prop :=
  restrict (Tasks.allowed Job.OutlivesProducer) (steps jobs.step)

/-- The model jobs in progress. -/
def inProgress (s : State Job) : Nat := s.tasks.countP Job.inProgress

/-- A server with all its permits. -/
def server (maxConcurrentSynthesis : Nat) : State Job := Tasks.initial maxConcurrentSynthesis

theorem JobInv.ownsPermit {job : Job} (hi : JobInv job) (h : job.inProgress) : job.ownsPermit := by
  simp only [Job.inProgress, Job.ownsPermit, ne_eq, decide_eq_true_eq] at h ⊢
  intro hreturned
  rcases h with ⟨-, hopen⟩ | hrunning
  · exact hopen hreturned
  · exact hi.returned hreturned hrunning

theorem inProgress_le {maxConcurrentSynthesis : Nat} {s : State Job}
    (hs : Reachable (· = server maxConcurrentSynthesis) outlivingSteps s) :
    inProgress s ≤ maxConcurrentSynthesis := by
  have hbalanced : jobs.Balanced maxConcurrentSynthesis s :=
    Tasks.balanced_of_reachable (hs.mono fun _ _ _ h => h.2)
  have hall : Tasks.All JobInv s :=
    Tasks.all_of_reachable JobInv.new (fun _ _ _ hi hmay h => hi.step hmay h) hs
  exact Tasks.countP_le_capacity hbalanced fun job hjob => (hall job hjob).ownsPermit

/-! ## Above the cap -/

section Exceeded

variable {maxConcurrentSynthesis : Nat} {s t : State Job}

/-- The producer runs on without a permit. -/
def Job.orphaned (job : Job) : Prop := job.task = .returned ∧ job.producer = .running

/-- No permit is left, and every task that owns one has been started. -/
def Saturated (s : State Job) : Prop :=
  s.permits = 0 ∧ ∀ job ∈ s.tasks, job.task ≠ .queued

/-- The permits and the tasks that can still be turned into running ones. -/
def idleRank (s : State Job) : Nat :=
  2 * s.permits + s.tasks.countP fun job => job.task = .queued

/-- A saturated server with an orphaned producer is above its cap. -/
theorem lt_inProgress_of_saturated (hs : jobs.Balanced maxConcurrentSynthesis s)
    (hsaturated : Saturated s) (horphan : ∃ job ∈ s.tasks, job.orphaned) :
    maxConcurrentSynthesis < inProgress s := by
  obtain ⟨hpermits, hstarted⟩ := hsaturated
  obtain ⟨orphan, hmem, hreturned, hrunning⟩ := horphan
  rw [Tasks.Balanced, hpermits, Nat.zero_add] at hs
  have howner : ∀ job ∈ s.tasks, job.ownsPermit → job.inProgress := by
    intro job hjob howns
    simp only [Job.inProgress, Job.ownsPermit, ne_eq, decide_eq_true_eq] at howns ⊢
    exact .inl ⟨hstarted job hjob, howns⟩
  have horphan : orphan.inProgress ∧ ¬ orphan.ownsPermit := by
    simp [Job.inProgress, Job.ownsPermit, hreturned, hrunning]
  obtain ⟨before, after, hsplit⟩ := List.append_of_mem hmem
  rw [hsplit] at howner
  have hbefore : before.countP Job.ownsPermit ≤ before.countP Job.inProgress :=
    List.countP_mono_left fun job hjob => howner job (List.mem_append_left _ hjob)
  have hafter : after.countP Job.ownsPermit ≤ after.countP Job.inProgress :=
    List.countP_mono_left fun job hjob =>
      howner job (List.mem_append_right _ (List.mem_cons_of_mem _ hjob))
  calc maxConcurrentSynthesis
      = s.tasks.countP Job.ownsPermit := hs.symm
    _ = before.countP Job.ownsPermit + after.countP Job.ownsPermit := by
        rw [hsplit, List.countP_append, List.countP_cons_of_neg horphan.2]
    _ < before.countP Job.inProgress + (after.countP Job.inProgress + 1) := by omega
    _ = inProgress s := by
        rw [inProgress, hsplit, List.countP_append, List.countP_cons_of_pos horphan.1]

/-- The server's way up: a request is admitted, or a queued task is started. -/
def Fills (_ : State Job) : Action Request JobAction → Prop
  | .spawn _ => True
  | .act _ action => action = .start

theorem fills_progress (s : State Job) :
    Saturated s ∨ ∃ action t, restrict Fills (steps jobs.step) s action t := by
  by_cases hpermits : 0 < s.permits
  · exact .inr ⟨.spawn .loadVoice, _, trivial, Tasks.step_spawn _ hpermits⟩
  by_cases hqueued : ∃ job ∈ s.tasks, job.task = .queued
  · obtain ⟨job, hmem, htask⟩ := hqueued
    obtain ⟨index, hget⟩ := List.mem_iff_getElem?.mp hmem
    have hstart : jobs.next job .start = some { job with task := .opening } := if_pos htask
    exact .inr ⟨.act index .start, _, rfl, Tasks.step_act hget hstart⟩
  · refine .inl ⟨Nat.eq_zero_of_not_pos hpermits, fun job hmem htask => ?_⟩
    exact hqueued ⟨job, hmem, htask⟩

/-- An orphaned producer is left alone on the way, and the way ends. -/
theorem fills_step {action : Action Request JobAction}
    (horphan : ∃ job ∈ s.tasks, job.orphaned) (h : restrict Fills (steps jobs.step) s action t) :
    (∃ job ∈ t.tasks, job.orphaned) ∧ idleRank t < idleRank s := by
  obtain ⟨orphan, hmem, hreturned, hrunning⟩ := horphan
  obtain ⟨hfills, hstep⟩ := h
  rcases Tasks.step_cases hstep with
    ⟨kind, -, hpermits, rfl⟩ | ⟨index, inner, job, job', rfl, hget, hnext, rfl⟩
  · constructor
    · exact ⟨orphan, List.mem_append_left _ hmem, hreturned, hrunning⟩
    · have hnew : (jobs.new kind).task = .queued := rfl
      simp only [idleRank, List.countP_append, List.countP_singleton, hnew, decide_true, if_true]
      omega
  · cases hfills
    obtain ⟨htask, heq⟩ := Option.ite_none_right_eq_some.mp hnext
    cases Option.some.inj heq
    obtain ⟨hindex, hjob⟩ := List.getElem?_eq_some_iff.mp hget
    constructor
    · obtain ⟨other, hother⟩ := List.mem_iff_getElem?.mp hmem
      have hne : index ≠ other := by
        rintro rfl
        cases Option.some.inj (hget.symm.trans hother)
        exact absurd (htask.symm.trans hreturned) nofun
      refine ⟨orphan, List.mem_of_getElem? (i := other) ?_, hreturned, hrunning⟩
      exact (List.getElem?_set_ne hne).trans hother
    · have hreleased : jobs.released job { job with task := .opening } = 0 := by
        simp [Tasks.released, jobs, Job.ownsPermit]
      have hqueued : 0 < s.tasks.countP fun job => job.task = .queued :=
        List.countP_pos_iff.mpr ⟨job, List.mem_of_getElem? hget, by simp [htask]⟩
      simp only [idleRank, hreleased, List.countP_set hindex, hjob, htask, Nat.add_zero,
        decide_true, if_true, reduceCtorEq, decide_false, Bool.false_eq_true, if_false]
      omega

/-- A producer runs on without a permit, and all permits are accounted for. -/
def Orphaning (maxConcurrentSynthesis : Nat) (s : State Job) : Prop :=
  jobs.Balanced maxConcurrentSynthesis s ∧ ∃ job ∈ s.tasks, job.orphaned

/-- Permits that are left can be taken, and tasks that are queued be started. -/
theorem exists_exceeded (hs : jobs.Balanced maxConcurrentSynthesis s)
    (horphan : ∃ job ∈ s.tasks, job.orphaned) :
    ∃ actions t, Run (steps jobs.step) s actions t ∧ maxConcurrentSynthesis < inProgress t := by
  have hprogress : ∀ s, Orphaning maxConcurrentSynthesis s →
      Saturated s ∨ ∃ action t, restrict Fills (steps jobs.step) s action t :=
    fun s _ => fills_progress s
  have hstep : ∀ s action t, Orphaning maxConcurrentSynthesis s →
      restrict Fills (steps jobs.step) s action t →
      Orphaning maxConcurrentSynthesis t ∧ idleRank t < idleRank s := by
    intro s action t hi h
    obtain ⟨horphaned, hrank⟩ := fills_step hi.2 h
    exact ⟨⟨hi.1.step h.2, horphaned⟩, hrank⟩
  obtain ⟨actions, t, run, ⟨hbalanced, horphaned⟩, hsaturated⟩ :=
    exists_run_to_goal hprogress hstep s ⟨hs, horphan⟩
  exact ⟨actions, t, run.mono fun _ _ _ h => h.2,
    lt_inProgress_of_saturated hbalanced hsaturated horphaned⟩

/-- A task that returns before its producer leaves it orphaned. -/
theorem orphaned_of_send {index : Nat} {job : Job} (hget : s.tasks[index]? = some job)
    (hsending : ∃ chunk, job.task = .sending chunk)
    (hmay : ¬ job.OutlivesProducer .send) :
    ∃ t, steps jobs.step s (.act index .send) t ∧ ∃ job ∈ t.tasks, job.orphaned := by
  obtain ⟨chunk, htask⟩ := hsending
  rw [Job.OutlivesProducer, Classical.not_imp, not_not] at hmay
  obtain ⟨hstop, hrunning⟩ := hmay
  have hsend : jobs.next job .send = some { job with task := .returned } := by
    have hstops : ¬ (job.connected ∧ chunk = .audio) := by
      rintro ⟨hconnected, rfl⟩
      rcases hstop with herror | hgone
      · exact absurd (htask.symm.trans herror) nofun
      · exact absurd (hconnected.symm.trans hgone) nofun
    have hstep : job.step .send = if job.connected ∧ chunk = .audio then
        some { job with task := .draining } else some { job with task := .returned } := by
      rw [Job.step, htask]
    exact hstep.trans (if_neg hstops)
  refine ⟨_, Tasks.step_act hget hsend, { job with task := .returned }, ?_, rfl, hrunning⟩
  obtain ⟨hindex, -⟩ := List.getElem?_eq_some_iff.mp hget
  exact List.mem_of_getElem? (List.getElem?_set_self hindex)

end Exceeded

/-- While no task that ends early leaves a running producer behind, the jobs in progress are
never more than the cap; where a task can, they can exceed it. -/
theorem concurrency_cap (maxConcurrentSynthesis : Nat) :
    (∀ s, Reachable (· = server maxConcurrentSynthesis) outlivingSteps s →
      inProgress s ≤ maxConcurrentSynthesis) ∧
    ∀ s, Reachable (· = server maxConcurrentSynthesis) (steps jobs.step) s →
      ∀ (index : Nat) (job : Job), s.tasks[index]? = some job → (∃ chunk, job.task = .sending chunk) →
        ¬ job.OutlivesProducer .send →
          ∃ actions t, Run (steps jobs.step) s actions t ∧
            maxConcurrentSynthesis < inProgress t := by
  constructor
  · exact fun s hs => inProgress_le hs
  · intro s hs index job hget hsending hmay
    obtain ⟨t, hsend, horphaned⟩ := orphaned_of_send hget hsending hmay
    have hbalanced : jobs.Balanced maxConcurrentSynthesis t :=
      Tasks.balanced_of_reachable (hs.next hsend)
    obtain ⟨actions, u, run, hexceeded⟩ := exists_exceeded hbalanced horphaned
    exact ⟨_, u, .cons hsend run, hexceeded⟩

/-- A client that goes away after the first chunk of a realtime synthesis, and one that asks for
another synthesis then. -/
def disconnectRun : List (Action Request JobAction) :=
  [.spawn .synthesizeUtteranceRealtime, .act 0 .start, .act 0 (.opened true),
    .act 0 .startProducer, .act 0 (.produce .audio), .act 0 (.next (some .audio)),
    .act 0 .disconnect, .act 0 .send, .spawn .synthesizeUtterance, .act 1 .start]

/-- Two jobs are in progress on a server for one. -/
theorem cap_exceeded_after_disconnect :
    ∃ s, Reachable (· = server 1) (steps jobs.step) s ∧ inProgress s = 2 := by
  have run : Run (steps jobs.step) (server 1) disconnectRun _ := run_of_replay rfl
  exact ⟨_, ⟨_, _, rfl, run⟩, by decide⟩

/-- A realtime client that goes away only once the producer has finished, and a client after it. -/
theorem cap_kept_after_disconnect :
    ∃ s, Reachable (· = server 1) outlivingSteps s ∧ s.tasks.length = 2 ∧ inProgress s ≤ 1 := by
  have run : Run outlivingSteps (server 1)
      [.spawn .synthesizeUtteranceRealtime, .act 0 .start, .act 0 (.opened true),
        .act 0 .startProducer, .act 0 (.produce .audio), .act 0 .finishProducer,
        .act 0 (.next (some .audio)), .act 0 .disconnect, .act 0 .send,
        .spawn .synthesizeUtterance, .act 1 .start] _ :=
    .cons ⟨trivial, rfl⟩ <| .cons ⟨fun _ _ => trivial, rfl⟩ <| .cons ⟨fun _ _ => trivial, rfl⟩ <|
    .cons ⟨fun _ _ => trivial, rfl⟩ <| .cons ⟨fun _ _ => trivial, rfl⟩ <|
    .cons ⟨fun _ _ => trivial, rfl⟩ <| .cons ⟨fun _ _ => trivial, rfl⟩ <|
    .cons ⟨fun _ _ => trivial, rfl⟩ <|
    .cons ⟨fun job hget _ => by cases Option.some.inj hget; decide, rfl⟩ <|
    .cons ⟨trivial, rfl⟩ <| .single ⟨fun _ _ => trivial, rfl⟩
  have hreachable : Reachable (· = server 1) outlivingSteps _ := ⟨_, _, rfl, run⟩
  exact ⟨_, hreachable, rfl, (concurrency_cap 1).1 _ hreachable⟩

end Dengjen.Grpc.SynthesisCap

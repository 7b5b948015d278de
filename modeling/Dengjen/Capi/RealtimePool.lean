import Dengjen.General.TransitionSystem
import Mathlib.Data.PNat.Basic
import Mathlib.Data.Fintype.Card

/-!
# Nonblocking realtime calls on the synthesis pool

A nonblocking `libdengjenSpeak` in realtime mode spawns a worker on the pool of
`N` threads. The worker creates the stream, which spawns the producer job on the
same pool, and then blocks its thread in `rx.recv` whenever the channel is empty
and connected. A state is the list of the calls made so far, each with its two
jobs; an idle thread may take any queued job.

## Implementation notes

Only what decides who blocks is kept: the items of a channel are counted, and a
worker's exits (an error item, a callback that answers nonzero, a closing voice)
are one step. `libdengjenCancel` reaches a call from the moment its worker runs.
-/

namespace Dengjen.Capi.RealtimePool

open TransitionSystem

variable {N : ℕ+}

/-- Where a running worker is: before the producer is spawned, before the check of the token
in `next`, in `rx.recv`, or in the callback. -/
inductive Stage
  | starting
  | polling
  | receiving
  | calling
  deriving DecidableEq

/-- Where the worker of a call is. -/
inductive Worker (N : ℕ+)
  | queued
  | running (thread : Fin N) (stage : Stage)
  | done
  deriving DecidableEq

/-- Where the producer of a call is. -/
inductive Producer (N : ℕ+)
  | unspawned
  | queued
  | running (thread : Fin N)
  | finished
  deriving DecidableEq

/-- A call with the items that wait in its channel. -/
structure Call (N : ℕ+) where
  worker : Worker N
  producer : Producer N
  cancelled : Bool
  items : Nat
  deriving DecidableEq

/-- The calls that have been made. -/
abbrev State (N : ℕ+) := List (Call N)

/-- What may happen to a call. -/
inductive CallAction (N : ℕ+)
  | startWorker (thread : Fin N)
  | openStream
  | failToOpen
  | next
  | receive
  | ended
  | more
  | stop
  | startProducer (thread : Fin N)
  | send
  | finish
  | cancel

/-- A call is made, or one goes on. -/
inductive Action (N : ℕ+)
  | speak
  | act (index : Nat) (action : CallAction N)

/-- The thread that has to be idle for an action. -/
def CallAction.thread? : CallAction N → Option (Fin N)
  | startWorker thread => some thread
  | startProducer thread => some thread
  | _ => none

namespace Call

/-- A call as `_synthesize` leaves it: its worker is spawned. -/
def new : Call N := ⟨.queued, .unspawned, false, 0⟩

/-- A call goes on where its lines let it. -/
def step (call : Call N) : CallAction N → Option (Call N)
  | .startWorker thread =>
      match call.worker with
      | .queued => some { call with worker := .running thread .starting }
      | _ => none
  | .openStream =>
      match call.worker with
      | .running thread .starting =>
          some { call with worker := .running thread .polling, producer := .queued }
      | _ => none
  | .failToOpen =>
      match call.worker with
      | .running _ .starting => some { call with worker := .done }
      | _ => none
  | .next =>
      match call.worker with
      | .running thread .polling =>
          if call.cancelled then some { call with worker := .done }
          else some { call with worker := .running thread .receiving }
      | _ => none
  | .receive =>
      match call.worker, call.items with
      | .running thread .receiving, items + 1 =>
          some { call with worker := .running thread .calling, items }
      | _, _ => none
  | .ended =>
      match call.worker, call.items, call.producer with
      | .running _ .receiving, 0, .finished => some { call with worker := .done }
      | _, _, _ => none
  | .more =>
      match call.worker with
      | .running thread .calling => some { call with worker := .running thread .polling }
      | _ => none
  | .stop =>
      match call.worker with
      | .running _ .calling => some { call with worker := .done }
      | _ => none
  | .startProducer thread =>
      match call.producer with
      | .queued => some { call with producer := .running thread }
      | _ => none
  | .send =>
      match call.producer with
      | .running _ => some { call with items := call.items + 1 }
      | _ => none
  | .finish =>
      match call.producer with
      | .running _ => some { call with producer := .finished }
      | _ => none
  | .cancel =>
      match call.worker with
      | .running _ _ => some { call with cancelled := true }
      | _ => none

/-- The thread that a call's worker runs on. -/
def workerThread (call : Call N) : Option (Fin N) :=
  match call.worker with
  | .running thread _ => some thread
  | _ => none

/-- The thread that a call's producer runs on. -/
def producerThread (call : Call N) : Option (Fin N) :=
  match call.producer with
  | .running thread => some thread
  | _ => none

/-- The worker sits in `rx.recv` and the job it waits for is still queued. -/
def BlockedOn (call : Call N) (thread : Fin N) : Prop :=
  call.worker = .running thread .receiving ∧ call.producer = .queued

/-- The worker still has to receive from a producer that has not started. -/
def atRisk (call : Call N) : Bool :=
  match call.worker with
  | .queued => !call.cancelled
  | .running _ .starting => !call.cancelled
  | .running _ .polling => !call.cancelled && call.producer = .queued
  | .running _ .receiving => call.producer = .queued
  | .running _ .calling => false
  | .done => false

end Call

/-- The threads that run a job. -/
def occupied (s : State N) : List (Fin N) :=
  s.filterMap Call.workerThread ++ s.filterMap Call.producerThread

/-- A step of one call, on a thread that no other job has. -/
def step (s : State N) : Action N → Option (State N)
  | .speak => some (s ++ [Call.new])
  | .act index action =>
      s[index]?.bind fun call =>
        if ∃ thread ∈ occupied s, action.thread? = some thread then none
        else (call.step action).map fun call' => s.set index call'

/-- Every thread of the pool waits for a job that is queued on the pool. -/
def Deadlocked (s : State N) : Prop := ∀ thread, ∃ call ∈ s, call.BlockedOn thread

/-- The calls whose worker can still come to wait for a queued producer. -/
def risk (s : State N) : Nat := s.countP Call.atRisk

/-- A call is made only while fewer than `N - 1` others are at risk. -/
def Restrained (s : State N) : Action N → Prop
  | .speak => risk s + 1 < N
  | .act _ _ => True

namespace Call

/-- The transitions of one call, in the fields they read and write. -/
inductive Stepped : Call N → CallAction N → Call N → Prop
  | startWorker {p c i} (t) : Stepped ⟨.queued, p, c, i⟩ (.startWorker t) ⟨.running t .starting, p, c, i⟩
  | openStream {p c i t} :
      Stepped ⟨.running t .starting, p, c, i⟩ .openStream ⟨.running t .polling, .queued, c, i⟩
  | failToOpen {p c i t} : Stepped ⟨.running t .starting, p, c, i⟩ .failToOpen ⟨.done, p, c, i⟩
  | refused {p i t} : Stepped ⟨.running t .polling, p, true, i⟩ .next ⟨.done, p, true, i⟩
  | next {p i t} :
      Stepped ⟨.running t .polling, p, false, i⟩ .next ⟨.running t .receiving, p, false, i⟩
  | receive {p c i t} :
      Stepped ⟨.running t .receiving, p, c, i + 1⟩ .receive ⟨.running t .calling, p, c, i⟩
  | ended {c t} :
      Stepped ⟨.running t .receiving, .finished, c, 0⟩ .ended ⟨.done, .finished, c, 0⟩
  | more {p c i t} : Stepped ⟨.running t .calling, p, c, i⟩ .more ⟨.running t .polling, p, c, i⟩
  | stop {p c i t} : Stepped ⟨.running t .calling, p, c, i⟩ .stop ⟨.done, p, c, i⟩
  | startProducer {w c i} (t) : Stepped ⟨w, .queued, c, i⟩ (.startProducer t) ⟨w, .running t, c, i⟩
  | send {w c i t} : Stepped ⟨w, .running t, c, i⟩ .send ⟨w, .running t, c, i + 1⟩
  | finish {w c i t} : Stepped ⟨w, .running t, c, i⟩ .finish ⟨w, .finished, c, i⟩
  | cancel {p c i t g} : Stepped ⟨.running t g, p, c, i⟩ .cancel ⟨.running t g, p, true, i⟩

theorem stepped_of_step {call call' : Call N} {action : CallAction N}
    (h : call.step action = some call') : Stepped call action call' := by
  obtain ⟨worker, producer, cancelled, items⟩ := call
  cases action with
  | next =>
      simp only [step] at h
      split at h
      · cases cancelled <;> cases h
        · exact .next
        · exact .refused
      · cases h
  | _ =>
      simp only [step] at h
      split at h <;> cases h
      constructor

/-- How the two jobs of a call keep step. -/
structure WF (call : Call N) : Prop where
  fresh : (call.worker = .queued ∨ ∃ thread, call.worker = .running thread .starting) →
    call.producer = .unspawned
  opened : ∀ thread stage, call.worker = .running thread stage → stage ≠ .starting →
    call.producer ≠ .unspawned
  unstarted : call.producer = .unspawned ∨ call.producer = .queued →
    call.items = 0 ∧ ∀ thread, call.worker ≠ .running thread .calling

theorem new_wf : (new : Call N).WF := ⟨fun _ => rfl, nofun, fun _ => ⟨rfl, nofun⟩⟩

theorem WF.step {call call' : Call N} {action : CallAction N} (hwf : call.WF)
    (h : call.step action = some call') : call'.WF := by
  obtain ⟨hfresh, hopened, hunstarted⟩ := hwf
  cases stepped_of_step h <;> constructor <;> simp_all

theorem step_atRisk {call call' : Call N} {action : CallAction N} (hwf : call.WF)
    (h : call.step action = some call') (hrisk : call'.atRisk) : call.atRisk := by
  obtain ⟨hfresh, hopened, hunstarted⟩ := hwf
  cases stepped_of_step h with
  | @startProducer worker =>
      rcases worker with _ | ⟨_, stage⟩ | _
      · simpa [atRisk] using hrisk
      · cases stage <;> simp_all [atRisk]
      · simp [atRisk] at hrisk
  | @cancel _ _ _ _ stage => cases stage <;> simp_all [atRisk]
  | _ => simp_all [atRisk]

/-- A worker only moves to another thread when it is taken from the queue. -/
theorem step_workerThread {call call' : Call N} {action : CallAction N}
    (h : call.step action = some call') :
    call'.workerThread = call.workerThread ∨ call'.workerThread = none ∨
      ∃ thread, action.thread? = some thread ∧ call.workerThread = none ∧
        call'.workerThread = some thread := by
  cases stepped_of_step h with
  | startWorker thread => exact .inr (.inr ⟨thread, rfl, rfl, rfl⟩)
  | failToOpen | refused | ended | stop => exact .inr (.inl rfl)
  | _ => exact .inl rfl

end Call

/-- One action changes one call, or appends a new one. -/
theorem act_cases {s s' : State N} {index : Nat} {action : CallAction N}
    (h : step s (.act index action) = some s') :
    ∃ before call after call', s = before ++ call :: after ∧ s' = before ++ call' :: after ∧
      call.step action = some call' ∧
      ∀ thread, action.thread? = some thread → thread ∉ occupied s := by
  obtain ⟨call, hcall, h⟩ := Option.bind_eq_some_iff.mp h
  split at h
  · cases h
  · next hidle =>
      obtain ⟨call', hstep, rfl⟩ := Option.map_eq_some_iff.mp h
      obtain ⟨hindex, rfl⟩ := List.getElem?_eq_some_iff.mp hcall
      obtain ⟨before, after, hs, -, hset⟩ := @List.exists_of_set _ index call' _ hindex
      exact ⟨before, _, after, call', hs, hset, hstep, fun thread hthread hmem =>
        hidle ⟨thread, hmem, hthread⟩⟩

/-! ## The restrained pool never deadlocks -/

/-- What keeps threads apart. -/
structure Inv (s : State N) : Prop where
  wf : ∀ call ∈ s, call.WF
  /-- No thread runs two workers. -/
  exclusive : (s.filterMap Call.workerThread).Nodup

theorem initial_inv : Inv ([] : State N) := ⟨nofun, List.nodup_nil⟩

theorem Inv.step {s s' : State N} {action : Action N} (hi : Inv s)
    (h : step s action = some s') : Inv s' := by
  cases action with
  | speak =>
      cases h
      refine ⟨?_, ?_⟩
      · intro call hmem
        rcases List.mem_append.mp hmem with hmem | hmem
        · exact hi.wf call hmem
        · rw [List.mem_singleton.mp hmem]
          exact Call.new_wf
      · have hnew : [Call.new].filterMap Call.workerThread = ([] : List (Fin N)) := rfl
        rw [List.filterMap_append, hnew, List.append_nil]
        exact hi.exclusive
  | act index action =>
      obtain ⟨before, call, after, call', rfl, rfl, hstep, hidle⟩ := act_cases h
      refine ⟨?_, ?_⟩
      · intro other hmem
        rcases List.mem_append.mp hmem with hmem | hmem
        · exact hi.wf other (List.mem_append_left _ hmem)
        · rcases List.mem_cons.mp hmem with rfl | hmem
          · exact (hi.wf call (by simp)).step hstep
          · exact hi.wf other (List.mem_append_right _ (List.mem_cons_of_mem _ hmem))
      · have hexclusive := hi.exclusive
        rw [List.filterMap_append, List.filterMap_cons] at hexclusive ⊢
        rcases Call.step_workerThread hstep with hsame | hnone | ⟨thread, hthread, hnone, hsome⟩
        · rwa [hsame]
        · rw [hnone]
          refine hexclusive.sublist (List.Sublist.append_left ?_ _)
          cases call.workerThread with
          | none => exact List.Sublist.refl _
          | some thread => exact List.sublist_cons_self _ _
        · have hfree := hidle thread hthread
          simp only [occupied, List.filterMap_append, List.filterMap_cons, hnone,
            List.mem_append, not_or] at hfree
          rw [hnone] at hexclusive
          rw [hsome, List.nodup_middle, List.nodup_cons]
          exact ⟨by simpa [not_or] using hfree.1, hexclusive⟩

theorem risk_append (before after : State N) (call : Call N) :
    risk (before ++ call :: after) = risk before + (risk [call] + risk after) := by
  simp only [risk, List.countP_append, List.countP_cons, List.countP_nil]
  omega

/-- Only a new call raises the risk. -/
theorem risk_step {s s' : State N} {action : Action N} (hi : Inv s)
    (h : step s action = some s') :
    risk s' ≤ risk s ∨ (action = .speak ∧ risk s' = risk s + 1) := by
  cases action with
  | speak =>
      cases h
      exact .inr ⟨rfl, by simp [risk, Call.new, Call.atRisk]⟩
  | act index action =>
      obtain ⟨before, call, after, call', rfl, rfl, hstep, -⟩ := act_cases h
      have hcall : risk [call'] ≤ risk [call] := by
        have hrisk := Call.step_atRisk (hi.wf call (by simp)) hstep
        by_cases hcall' : call'.atRisk
        · simp [risk, hcall', hrisk hcall']
        · simp [risk, hcall']
      simp only [risk_append]
      omega

theorem BlockedOn_atRisk {call : Call N} {thread : Fin N} (h : call.BlockedOn thread) :
    call.atRisk ∧ call.workerThread = some thread := by
  obtain ⟨hworker, hproducer⟩ := h
  simp [Call.atRisk, Call.workerThread, hworker, hproducer]

/-- A deadlock takes as many calls at risk as the pool has threads. -/
theorem Deadlocked.le_risk {s : State N} (h : Deadlocked s) : N ≤ risk s := by
  have hall : ∀ thread, thread ∈ (s.filter Call.atRisk).filterMap Call.workerThread := by
    intro thread
    obtain ⟨call, hmem, hblocked⟩ := h thread
    obtain ⟨hrisk, hthread⟩ := BlockedOn_atRisk hblocked
    exact List.mem_filterMap.mpr ⟨call, List.mem_filter.mpr ⟨hmem, hrisk⟩, hthread⟩
  have hcard : N ≤ ((s.filter Call.atRisk).filterMap Call.workerThread).toFinset.card := by
    rw [Finset.eq_univ_of_forall fun thread => List.mem_toFinset.mpr (hall thread),
      Finset.card_univ, Fintype.card_fin]
  calc (N : Nat) ≤ ((s.filter Call.atRisk).filterMap Call.workerThread).toFinset.card := hcard
    _ ≤ ((s.filter Call.atRisk).filterMap Call.workerThread).length := List.toFinset_card_le _
    _ ≤ (s.filter Call.atRisk).length := List.length_filterMap_le _ _
    _ = risk s := List.countP_eq_length_filter.symm

/-- The states of the pool's runs. -/
abbrev Reaches (s : State N) : Prop := Reachable (· = []) (steps step) s

theorem Reaches.inv {s : State N} (hs : Reaches s) : Inv s :=
  hs.invariant (fun _ h => h ▸ initial_inv) fun _ _ _ hi h => hi.step h

/-- In a run of restrained calls there are always fewer calls at risk than threads. -/
structure RestrainedInv (s : State N) : Prop extends Inv s where
  low : risk s < N

theorem RestrainedInv.step {s s' : State N} {action : Action N} (hi : RestrainedInv s)
    (hrestrained : Restrained s action) (h : step s action = some s') : RestrainedInv s' := by
  refine ⟨hi.toInv.step h, ?_⟩
  rcases risk_step hi.toInv h with hle | ⟨rfl, heq⟩
  · exact hle.trans_lt hi.low
  · exact heq ▸ hrestrained

theorem restrainedInv_of_reachable {s : State N}
    (hs : Reachable (· = []) (restrict Restrained (steps step)) s) : RestrainedInv s :=
  hs.invariant (fun _ h => h ▸ ⟨initial_inv, N.pos⟩) fun _ _ _ hi h => hi.step h.1 h.2

/-! ## An unrestrained pool can be driven into a deadlock -/

/-- The actions of a schedule that lets no queued producer start. -/
def CallAction.Hostile : CallAction N → Prop
  | startWorker _ | openStream | next | receive | ended | stop | finish => True
  | failToOpen | more | startProducer _ | send | cancel => False

/-- A step of such a schedule. -/
def hostile (s : State N) (action : Action N) (s' : State N) : Prop :=
  ∃ index callAction, action = .act index callAction ∧ callAction.Hostile ∧
    step s action = some s'

/-- The hostile steps a call can still take. -/
def Call.rank (call : Call N) : Nat :=
  (match call.worker with
    | .queued => 5
    | .running _ .starting => 4
    | .running _ .polling => 3
    | .running _ .receiving => 2
    | .running _ .calling => 1
    | .done => 0) +
  (match call.producer with
    | .running _ => 1
    | _ => 0)

theorem Call.step_hostile {call call' : Call N} {action : CallAction N} (hwf : call.WF)
    (h : call.step action = some call') (hhostile : action.Hostile) :
    call'.atRisk = call.atRisk ∧ call'.rank < call.rank := by
  obtain ⟨hfresh, hopened, hunstarted⟩ := hwf
  cases stepped_of_step h with
  | @finish worker => rcases worker with _ | ⟨_, _ | _ | _ | _⟩ | _ <;> simp [atRisk, rank]
  | failToOpen | more | startProducer _ | send | cancel => cases hhostile
  | @receive producer => cases producer <;> simp_all [atRisk, rank]
  | _ => simp_all [atRisk, rank]

theorem hostile_step {s s' : State N} {action : Action N} (hi : Inv s ∧ N ≤ risk s)
    (h : hostile s action s') :
    (Inv s' ∧ N ≤ risk s') ∧ (s'.map Call.rank).sum < (s.map Call.rank).sum := by
  obtain ⟨index, callAction, rfl, hhostile, hstep⟩ := h
  have hi' := hi.1.step hstep
  obtain ⟨before, call, after, call', rfl, rfl, hcall, -⟩ := act_cases hstep
  obtain ⟨hrisk, hrank⟩ := Call.step_hostile (hi.1.wf call (by simp)) hcall hhostile
  have hsame : risk [call'] = risk [call] := by simp [risk, hrisk]
  refine ⟨⟨hi', ?_⟩, ?_⟩
  · rw [risk_append, hsame, ← risk_append]
    exact hi.2
  · simp only [List.map_append, List.map_cons, List.sum_append, List.sum_cons]
    omega

theorem exists_hostile {s : State N} {call call' : Call N} (action : CallAction N)
    (hmem : call ∈ s) (hhostile : action.Hostile) (hstep : call.step action = some call')
    (hidle : ∀ thread, action.thread? = some thread → thread ∉ occupied s) :
    ∃ action' s', hostile s action' s' := by
  obtain ⟨index, hindex⟩ := List.mem_iff_getElem?.mp hmem
  have hfree : ¬ ∃ thread ∈ occupied s, action.thread? = some thread :=
    fun ⟨thread, hthread, haction⟩ => hidle thread haction hthread
  refine ⟨.act index action, s.set index call', index, action, rfl, hhostile, ?_⟩
  simp only [step, hindex, Option.bind_some, if_neg hfree, hstep, Option.map_some]

/-- A call with no hostile step but the start of its worker. -/
inductive Call.Settled : Call N → Prop
  | queued {call} (hworker : call.worker = .queued) (hidle : call.producerThread = none) :
      Call.Settled call
  | blocked {call} (thread) (h : call.BlockedOn thread) : Call.Settled call
  | done {call} (hworker : call.worker = .done) (hidle : call.producerThread = none) :
      Call.Settled call

theorem settled_or_hostile {call : Call N} (hwf : call.WF) :
    call.Settled ∨ ∃ action call', CallAction.Hostile action ∧ action.thread? = none ∧
      call.step action = some call' := by
  obtain ⟨worker, producer, cancelled, items⟩ := call
  by_cases hproducer : ∃ thread, producer = .running thread
  · obtain ⟨thread, rfl⟩ := hproducer
    exact .inr ⟨.finish, _, trivial, rfl, rfl⟩
  · have hidle : Call.producerThread ⟨worker, producer, cancelled, items⟩ = none := by
      cases producer with
      | running thread => exact absurd ⟨thread, rfl⟩ hproducer
      | _ => rfl
    rcases worker with _ | ⟨thread, stage⟩ | _
    · exact .inl (.queued rfl hidle)
    · cases stage with
      | starting => exact .inr ⟨.openStream, _, trivial, rfl, rfl⟩
      | polling => cases cancelled <;> exact .inr ⟨.next, _, trivial, rfl, rfl⟩
      | receiving =>
          cases items with
          | succ items => exact .inr ⟨.receive, _, trivial, rfl, rfl⟩
          | zero =>
              cases producer with
              | unspawned => exact absurd rfl (hwf.opened thread .receiving rfl nofun)
              | queued => exact .inl (.blocked thread ⟨rfl, rfl⟩)
              | running thread => exact absurd ⟨thread, rfl⟩ hproducer
              | finished => exact .inr ⟨.ended, _, trivial, rfl, rfl⟩
      | calling => exact .inr ⟨.stop, _, trivial, rfl, rfl⟩
    · exact .inl (.done rfl hidle)

/-- When every call is settled, a thread with a worker is a blocked thread. -/
theorem deadlocked_of_settled {s : State N} (hsettled : ∀ call ∈ s, call.Settled)
    (hall : ∀ thread, thread ∈ s.filterMap Call.workerThread) : Deadlocked s := by
  intro thread
  obtain ⟨call, hmem, hthread⟩ := List.mem_filterMap.mp (hall thread)
  refine ⟨call, hmem, ?_⟩
  cases hsettled call hmem with
  | queued hworker _ => simp [Call.workerThread, hworker] at hthread
  | done hworker _ => simp [Call.workerThread, hworker] at hthread
  | blocked thread' h =>
      obtain rfl : thread' = thread := by simpa [Call.workerThread, h.1] using hthread
      exact h

/-- With as many calls at risk as threads, a hostile schedule only stops in a deadlock. -/
theorem deadlocked_or_hostile {s : State N} (hi : Inv s ∧ N ≤ risk s) :
    Deadlocked s ∨ ∃ action s', hostile s action s' := by
  by_cases hsettled : ∀ call ∈ s, call.Settled
  · have hproducers : s.filterMap Call.producerThread = [] := by
      apply List.filterMap_eq_nil_iff.mpr
      intro call hmem
      cases hsettled call hmem with
      | queued _ hidle => exact hidle
      | done _ hidle => exact hidle
      | blocked _ h => simp [Call.producerThread, h.2]
    by_cases hqueued : ∃ call ∈ s, call.worker = .queued
    · -- Either some thread is idle and takes the queued worker, or all of them are blocked.
      obtain ⟨call, hmem, hworker⟩ := hqueued
      by_cases hidle : ∃ thread, thread ∉ occupied s
      · obtain ⟨thread, hthread⟩ := hidle
        right
        have hstep : call.step (.startWorker thread) =
            some { call with worker := .running thread .starting } := by
          simp only [Call.step, hworker]
        apply exists_hostile (.startWorker thread) hmem trivial hstep
        intro thread' hthread'
        cases hthread'
        exact hthread
      · left
        apply deadlocked_of_settled hsettled
        intro thread
        have hbusy : thread ∈ occupied s := by
          by_contra hthread
          exact hidle ⟨thread, hthread⟩
        simpa [occupied, hproducers] using hbusy
    · -- No worker is queued, so the calls at risk are on distinct threads.
      left
      apply deadlocked_of_settled hsettled
      intro thread
      have hrunning : risk s ≤ (s.filterMap Call.workerThread).length := by
        rw [List.length_filterMap_eq_countP]
        apply List.countP_mono_left
        intro call hmem hrisk
        cases hsettled call hmem with
        | queued hworker _ => exact absurd ⟨call, hmem, hworker⟩ hqueued
        | done hworker _ => simp [Call.atRisk, hworker] at hrisk
        | blocked thread h => simp [(BlockedOn_atRisk h).2]
      have hcard : Fintype.card (Fin N) ≤ (s.filterMap Call.workerThread).toFinset.card := by
        rw [Fintype.card_fin, List.toFinset_card_of_nodup hi.1.exclusive]
        exact hi.2.trans hrunning
      have huniv := Finset.eq_univ_of_card _ (le_antisymm (Finset.card_le_univ _) hcard)
      exact List.mem_toFinset.mp (huniv ▸ Finset.mem_univ thread)
  · right
    simp only [not_forall] at hsettled
    obtain ⟨call, hmem, hcall⟩ := hsettled
    obtain ⟨action, call', hhostile, hthread, hstep⟩ :=
      (settled_or_hostile (hi.1.wf call hmem)).resolve_left hcall
    apply exists_hostile action hmem hhostile hstep
    simp [hthread]

/-- As many calls at risk as threads are enough for a deadlock to be within reach. -/
theorem deadlock_of_le_risk {s : State N} (hi : Inv s) (hrisk : N ≤ risk s) :
    ∃ actions s', Run (steps step) s actions s' ∧ Deadlocked s' := by
  obtain ⟨actions, s', run, -, hdead⟩ :=
    exists_run_to_goal (fun _ => deadlocked_or_hostile)
      (fun _ _ _ hi h => hostile_step hi h) s ⟨hi, hrisk⟩
  refine ⟨actions, s', run.mono ?_, hdead⟩
  rintro s action s' ⟨-, -, -, -, hstep⟩
  exact hstep

variable (N)

/-- Restrained calls never deadlock the pool, and the condition is exact: from every reachable
state in which it has been broken a deadlock can be reached. -/
theorem restrained_calls_never_deadlock :
    (∀ s : State N, Reachable (· = []) (restrict Restrained (steps step)) s → ¬ Deadlocked s) ∧
    (∀ s : State N, Reaches s → N ≤ risk s →
      ∃ actions s', Run (steps step) s actions s' ∧ Deadlocked s') := by
  constructor
  · intro s hs hdead
    have hlt := (restrainedInv_of_reachable hs).low
    have hle := hdead.le_risk
    omega
  · intro s hs hrisk
    exact deadlock_of_le_risk hs.inv hrisk

/-- Four calls whose workers take the four threads of a pool. -/
def fourCalls : List (Action 4) :=
  List.replicate 4 .speak ++ (List.finRange 4).flatMap fun thread =>
    [.act thread (.startWorker thread), .act thread .openStream, .act thread .next]

/-- Four workers that wait for producers, on the four threads there are. -/
def fourBlocked : State 4 :=
  (List.finRange 4).map fun thread => ⟨.running thread .receiving, .queued, false, 0⟩

theorem fourCalls_deadlock : Reaches fourBlocked ∧ Deadlocked fourBlocked :=
  ⟨⟨[], fourCalls, rfl, run_of_replay rfl⟩, fun thread =>
    ⟨_, List.mem_map.mpr ⟨thread, List.mem_finRange thread, rfl⟩, rfl, rfl⟩⟩

/-- One call on two threads is restrained, two calls are not. -/
theorem two_threads_restrained :
    ¬ Deadlocked ([Call.new] : State 2) ∧
      ∃ actions s', Run (steps step) ([Call.new, Call.new] : State 2) actions s' ∧ Deadlocked s' :=
  ⟨(restrained_calls_never_deadlock 2).1 _
      ⟨[], [.speak], rfl, .single ⟨Nat.lt_add_one 1, rfl⟩⟩,
    (restrained_calls_never_deadlock 2).2 _
      ⟨[], [.speak, .speak], rfl, run_of_replay rfl⟩ (le_refl 2)⟩

end Dengjen.Capi.RealtimePool

import Dengjen.Capi.Voices.ThreadLocal
import Dengjen.General.ThreadTotals

/-!
# Guards and unloads

The counter of a voice is the number of its live guards, those of queued workers
and those on the stacks. An unload that returns to a caller outside the voice's
callbacks has seen the counter at zero, so no worker of the voice is left to call
back.
-/

namespace Dengjen.Capi.Voices

open TransitionSystem ThreadTotals

variable {T V : Type*}

/-! ## The counter and the guards -/

section Guards

variable [DecidableEq V]

/-- The guards of a voice on one stack. -/
def frameGuards (voice : V) (stack : List (Frame V)) : Nat := stack.countP (Frame.guards voice)

@[simp] theorem frameGuards_cons (voice : V) (frame : Frame V) (below : List (Frame V)) :
    frameGuards voice (frame :: below) =
      frameGuards voice below + (frame.guards voice).toNat := by
  rw [frameGuards, frameGuards, List.countP_cons]
  cases frame.guards voice <;> rfl

/-- The guards of a voice that queued workers hold. -/
def queueGuards (voice : V) (queue : List (Job V)) : Nat := queue.countP (·.voice = voice)

@[simp] theorem queueGuards_cons (voice : V) (job : Job V) (queue : List (Job V)) :
    queueGuards voice (job :: queue) =
      queueGuards voice queue + (decide (job.voice = voice)).toNat := by
  rw [queueGuards, queueGuards, List.countP_cons]
  cases decide (job.voice = voice) <;> rfl

/-- The guards of a voice that are alive: those of queued workers and those on the stacks. -/
def liveGuards [Fintype T] (s : State T V) (voice : V) : Nat :=
  queueGuards voice s.queue + total (frameGuards voice) s.stack

theorem Moves.guards_eq {active : Option V} {frame frame' : Frame V}
    (h : Moves active frame frame') (voice : V) : frame'.guards voice = frame.guards voice := by
  cases h <;> rfl

theorem frameGuards_pos {voice : V} {frame : Frame V} {stack : List (Frame V)}
    (hmem : frame ∈ stack) (hguards : frame.guards voice) : 0 < frameGuards voice stack :=
  List.countP_pos_iff.mpr ⟨frame, hmem, hguards⟩

variable [Fintype T]

theorem liveGuards_pos {s : State T V} {t : T} {voice : V} {frame : Frame V}
    (hmem : frame ∈ s.stack t) (hguards : frame.guards voice) : 0 < liveGuards s voice := by
  have hstack := frameGuards_pos hmem hguards
  have htotal := units_le_total (frameGuards voice) s.stack t
  simp only [liveGuards]
  omega

/-- The counter of every voice counts its guards. -/
def Counted (s : State T V) : Prop := ∀ voice, s.running voice = liveGuards s voice

theorem initial_counted : Counted (initial : State T V) := by
  intro voice
  simp [initial, liveGuards, queueGuards, total, frameGuards]

variable [DecidableEq T] {pool : T → Bool}

/-- One thread's stack changes, the counter and the queue change by as much. -/
theorem Counted.setStack {s : State T V} (hi : Counted s) {t : T} {stack : List (Frame V)}
    {voice : V} {queued running : Nat}
    (h : running + frameGuards voice (s.stack t) + queueGuards voice s.queue =
      s.running voice + frameGuards voice stack + queued) :
    running = queued + total (frameGuards voice) (Function.update s.stack t stack) := by
  have hv := hi voice
  have htotal := total_update (frameGuards voice) s.stack t stack
  simp only [liveGuards] at hv
  omega

theorem Counted.step {s s' : State T V} {t : T} {act : Act V} (hi : Counted s)
    (h : step pool s (t, act) = some s') : Counted s' := by
  intro voice
  cases stepped_of_step h with
  | @enter job _ _ =>
      apply hi.setStack
      rw [frameGuards_cons]
      by_cases hj : job.voice = voice
      · subst hj
        simp only [Frame.guards, State.setStack, Function.update_self, decide_true, Bool.toNat_true]
        omega
      · simp only [Frame.guards, State.setStack, Function.update_of_ne (Ne.symm hj),
          decide_eq_false hj, Bool.toNat_false]
        omega
  | @spawn job below hstack =>
      apply hi.setStack
      have hperm := (List.perm_append_singleton job s.queue).countP_eq (·.voice = voice)
      have hqueue : queueGuards voice (s.queue ++ [job]) =
          queueGuards voice s.queue + (decide (job.voice = voice)).toNat :=
        hperm.trans (queueGuards_cons voice job s.queue)
      simp only [hstack, frameGuards_cons, Frame.guards, State.setStack, hqueue]
      omega
  | @takeWorker job _ hmem =>
      apply hi.setStack
      have hperm := (List.perm_cons_erase hmem).countP_eq (·.voice = voice)
      have hqueue : queueGuards voice s.queue =
          queueGuards voice (s.queue.erase job) + (decide (job.voice = voice)).toNat :=
        hperm.trans (queueGuards_cons voice job (s.queue.erase job))
      simp only [frameGuards_cons, Frame.guards, State.setStack, hqueue]
      omega
  | move hstack hmoves _ _ _ =>
      apply hi.setStack
      simp only [hstack, frameGuards_cons, hmoves.guards_eq, State.setStack]
  | restore hstack =>
      apply hi.setStack
      rw [hstack]
      rfl
  | @drop _ frame job below hstack hframe =>
      have hguards : frame.guards voice = decide (job.voice = voice) := by
        rcases hframe with rfl | ⟨previous, rfl⟩ <;> rfl
      apply hi.setStack
      simp only [hstack, frameGuards_cons, hguards, State.setStack, State.leave]
      by_cases hj : job.voice = voice
      · subst hj
        have hpos : 0 < s.running job.voice := by
          rw [hi job.voice]
          exact liveGuards_pos (hstack ▸ List.mem_cons_self) (by simp [hguards])
        simp only [Function.update_self, decide_true, Bool.toNat_true]
        omega
      · simp only [Function.update_of_ne (Ne.symm hj), decide_eq_false hj, Bool.toNat_false]
        rfl
  | beginSpeak _ => exact hi.setStack rfl
  | takeTask _ => exact hi.setStack rfl
  | finish hstack hframe =>
      apply hi.setStack
      rw [hstack]
      rcases hframe with ⟨job, rfl⟩ | rfl <;> rfl
  | beginUnload _ _ => exact hi.setStack rfl
  | unloadReturns hstack _ =>
      apply hi.setStack
      rw [hstack]
      rfl

end Guards

/-! ## After an unload -/

section Unloaded

variable [DecidableEq V]

/-- User code on top of a worker of the voice is one of its callbacks. -/
theorem callsBack_of_innermost {voice : V} {top : Frame V} {below : List (Frame V)}
    (htop : ∀ frame, top.On frame → frame.inCallback)
    (hplaced : (top :: below).IsChain Frame.On) (hinnermost : innermost below = some voice) :
    below.any (Frame.callsBack voice) := by
  induction below generalizing top with
  | nil => cases hinnermost
  | cons frame rest ih =>
      obtain ⟨hon, hrest⟩ := List.isChain_cons_cons.mp hplaced
      have hcallback := htop frame hon
      cases frame with
      | worker job previous phase =>
          cases phase with
          | callback event =>
              have hvoice : job.voice = voice := Option.some.inj hinnermost
              simp [Frame.callsBack, hvoice]
          | _ => cases hcallback
      | speak job phase =>
          have hany := @ih (.speak job phase) (fun _ hon => hon) hrest hinnermost
          simp only [List.any_cons, hany, Bool.or_true]
      | _ => cases hcallback

/-- The voices being unloaded can no longer be used. -/
def UnloadingInv (s : State T V) : Prop :=
  ∀ t voice phase below, s.stack t = .unload voice phase :: below → s.loaded voice = false

section Live

variable [Fintype T]

/-- What the threads and the unloads have to do with each other. -/
structure Inv (s : State T V) : Prop where
  threads : ThreadsInv s
  counted : Counted s
  unloading : UnloadingInv s
  /-- An unloaded voice has no guard left and gets none. -/
  unloaded : ∀ voice, s.unloaded voice → s.running voice = 0 ∧ s.loaded voice = false

theorem initial_inv : Inv (initial : State T V) where
  threads := initial_threadsInv
  counted := initial_counted
  unloading := nofun
  unloaded := nofun

theorem Inv.running_pos {s : State T V} {t : T} {voice : V} {frame : Frame V} (hi : Inv s)
    (hmem : frame ∈ s.stack t) (hguards : frame.guards voice) : 0 < s.running voice := by
  rw [hi.counted voice]
  exact liveGuards_pos hmem hguards

/-- An unload that returns to a caller outside the voice's callbacks has seen no guard left. -/
theorem Inv.unloaded_return {s : State T V} {t : T} {voice : V} {phase : UnloadPhase}
    {below : List (Frame V)} (hi : Inv s) (hstack : s.stack t = .unload voice phase :: below)
    (hreturns : s.activeWorkerVoice t = some voice ∨ s.running voice = 0)
    (houtside : below.any (Frame.callsBack voice) = false) :
    s.running voice = 0 := by
  rcases hreturns with hactive | hidle
  · have ht := hi.threads t
    rw [hstack] at ht
    have htop : ∀ frame, (Frame.unload voice phase).On frame → frame.inCallback := fun _ h => h
    have hany := callsBack_of_innermost htop ht.placed (ht.active_eq.symm.trans hactive)
    rw [houtside] at hany
    cases hany
  · exact hidle

end Live

variable [DecidableEq T] {pool : T → Bool}

omit [DecidableEq V] in
theorem UnloadingInv.setStack {s : State T V} (hi : UnloadingInv s) {t : T}
    {stack : List (Frame V)} {loaded : V → Bool}
    (hloaded : ∀ voice, s.loaded voice = false → loaded voice = false)
    (h : ∀ voice phase below, stack = .unload voice phase :: below → loaded voice = false)
    (u : T) (voice : V) (phase : UnloadPhase) (below : List (Frame V))
    (hu : Function.update s.stack t stack u = .unload voice phase :: below) :
    loaded voice = false := by
  by_cases hut : u = t
  · subst hut
    exact h voice phase below (by simpa using hu)
  · exact hloaded voice (hi u voice phase below (by simpa [hut] using hu))

theorem UnloadingInv.step {s s' : State T V} {t : T} {act : Act V} (hi : UnloadingInv s)
    (hthreads : ThreadsInv s) (h : step pool s (t, act) = some s') : UnloadingInv s' := by
  have ht := hthreads t
  cases stepped_of_step h with
  | enter _ _ => exact hi.setStack (fun _ h => h) nofun
  | takeWorker _ _ => exact hi.setStack (fun _ h => h) nofun
  | restore _ => exact hi.setStack (fun _ h => h) nofun
  | beginSpeak _ => exact hi.setStack (fun _ h => h) nofun
  | takeTask _ => exact hi.setStack (fun _ h => h) nofun
  | spawn hstack | drop hstack _ | finish hstack _ | unloadReturns hstack _ =>
      rw [hstack] at ht
      apply hi.setStack (fun _ h => h)
      rintro voice phase rest rfl
      exact absurd (List.isChain_cons_cons.mp ht.placed).1 (not_on_unload _ voice phase)
  | @move _ frame frame' below hstack hmoves _ _ _ =>
      apply hi.setStack (fun _ h => h)
      rintro voice phase rest ⟨⟩
      cases hmoves <;> exact hi t _ _ _ hstack
  | @beginUnload voice _ _ =>
      refine hi.setStack (fun other h => ?_) ?_
      · by_cases hother : other = voice
        · simp [hother]
        · simpa [hother] using h
      · rintro other _ _ ⟨⟩
        simp

variable [Fintype T]

theorem Inv.step {s s' : State T V} {t : T} {act : Act V} (hi : Inv s)
    (h : step pool s (t, act) = some s') : Inv s' := by
  refine ⟨hi.threads.step h, hi.counted.step h, hi.unloading.step hi.threads h, ?_⟩
  intro voice hunloaded
  cases stepped_of_step h with
  | @enter job _ hloaded =>
      obtain ⟨hidle, hgone⟩ := hi.unloaded voice hunloaded
      have hne : voice ≠ job.voice := by
        rintro rfl
        rw [hgone] at hloaded
        cases hloaded
      exact ⟨by simpa [State.setStack, Function.update_of_ne hne] using hidle, hgone⟩
  | @drop _ frame job below hstack hframe =>
      obtain ⟨hidle, hgone⟩ := hi.unloaded voice hunloaded
      refine ⟨?_, hgone⟩
      simp only [State.leave, State.setStack]
      by_cases hv : voice = job.voice
      · subst hv
        simp [hidle]
      · simpa [Function.update_of_ne hv] using hidle
  | @beginUnload other _ _ =>
      obtain ⟨hidle, hgone⟩ := hi.unloaded voice hunloaded
      refine ⟨hidle, ?_⟩
      by_cases hv : voice = other
      · simp [hv]
      · simpa [State.setStack, Function.update_of_ne hv] using hgone
  | @unloadReturns _ other phase below hstack hreturns =>
      by_cases hv : voice = other
      · subst hv
        simp only [State.returnFromUnload, State.setStack, Function.update_self, Bool.or_eq_true,
          Bool.not_eq_true'] at hunloaded
        rcases hunloaded with hunloaded | houtside
        · exact hi.unloaded voice hunloaded
        · exact ⟨hi.unloaded_return hstack hreturns houtside,
            hi.unloading t voice phase below hstack⟩
      · simp only [State.returnFromUnload, State.setStack, Function.update_of_ne hv] at hunloaded
        exact hi.unloaded voice hunloaded
  | _ => exact hi.unloaded voice hunloaded

theorem Reaches.inv {s : State T V} (hs : Reaches pool s) : Inv s :=
  hs.invariant (fun _ h => h ▸ initial_inv) fun _ _ _ hi h => hi.step h

/-- A voice that is unloaded stays so, and its callbacks are over. -/
theorem unloaded_step {s s' : State T V} {t : T} {act : Act V} {voice : V} (hi : Inv s)
    (hunloaded : s.unloaded voice) (h : step pool s (t, act) = some s') :
    s'.unloaded voice ∧ s'.log.filter (·.1 = voice) = s.log.filter (·.1 = voice) := by
  cases stepped_of_step h with
  | @move _ frame _ _ hstack _ _ log hlog =>
      refine ⟨hunloaded, (hlog voice).resolve_right fun hguards => ?_⟩
      have hpos := hi.running_pos (hstack ▸ List.mem_cons_self) hguards
      have hidle := (hi.unloaded voice hunloaded).1
      omega
  | @unloadReturns _ other _ _ _ _ =>
      refine ⟨?_, rfl⟩
      by_cases hv : voice = other
      · subst hv
        simp [State.returnFromUnload, State.setStack, hunloaded]
      · simpa [State.returnFromUnload, State.setStack, Function.update_of_ne hv] using hunloaded
  | _ => exact ⟨hunloaded, rfl⟩

theorem unloaded_run {s s' : State T V} {actions : List (T × Act V)} {voice : V}
    (run : Run (steps (step pool)) s actions s') (hi : Inv s) (hunloaded : s.unloaded voice) :
    s'.log.filter (·.1 = voice) = s.log.filter (·.1 = voice) := by
  induction run with
  | nil => rfl
  | @cons s action _ _ _ head _ ih =>
      obtain ⟨hstay, hlog⟩ := unloaded_step hi hunloaded head
      exact (ih (hi.step head) hstay).trans hlog

/-- At every reachable state the counter of a voice is the number of its live guards, and once
an unload has returned to a caller outside the voice's callbacks no worker calls back. -/
theorem no_callback_after_unload (pool : T → Bool) :
    ∀ s : State T V, Reaches pool s →
      (∀ voice, s.running voice = liveGuards s voice) ∧
      ∀ voice, s.unloaded voice → ∀ actions s', Run (steps (step pool)) s actions s' →
        s'.log.filter (·.1 = voice) = s.log.filter (·.1 = voice) := by
  intro s hs
  exact ⟨hs.inv.counted, fun voice hunloaded _ _ run => unloaded_run run hs.inv hunloaded⟩

/-- Thread `0` is the pool's, thread `1` the application's. -/
def onePoolThread (t : Fin 2) : Bool := t = 0

/-- A worker calls back, an unload waits for it, the worker sees the closing flag and leaves. -/
def drainedRun : List (Fin 2 × Act (Fin 2)) :=
  [(1, .enter ⟨0, false⟩), (1, .spawn), (0, .takeWorker ⟨0, false⟩),
    (0, .advance (.yieldItem false)), (0, .advance .check), (0, .invoke),
    (1, .beginUnload 0), (1, .close), (1, .checkActive), (1, .look),
    (0, .advance (.answer true)), (0, .advance (.yieldItem false)), (0, .advance .check),
    (0, .invoke), (0, .advance (.answer true)), (0, .restore), (0, .release), (1, .look)]

/-- A voice has been drained and unloaded. -/
def drainedState : State (Fin 2) (Fin 2) :=
  (replay (step onePoolThread) initial drainedRun).getD initial

theorem drainedState_unloaded :
    drainedState.unloaded 0 = true ∧ drainedState.running 0 = liveGuards drainedState 0 ∧
      (drainedState.setStack 0 [.task false]).log.filter (·.1 = 0) =
        drainedState.log.filter (·.1 = 0) := by
  have hs : Reaches onePoolThread drainedState := ⟨initial, drainedRun, rfl, run_of_replay rfl⟩
  have hafter := no_callback_after_unload onePoolThread drainedState hs
  exact ⟨rfl, hafter.1 0, hafter.2 0 rfl [(0, .takeTask)] _ (run_of_replay rfl)⟩

/-- An unload on a stack that is not aligned goes to sleep, as its own guard is never dropped. -/
theorem unaligned_unload_selfWaits {s : State T V} {t : T} {voice : V} (hi : Inv s)
    (huser : runsUserCode (pool t) (s.stack t)) (hloaded : s.loaded voice)
    (hunaligned : ¬ Aligned voice (s.stack t)) :
    ∃ actions s', Run (steps (step pool)) s ((t, .beginUnload voice) :: actions) s' ∧
      SelfWaiting s' t := by
  obtain ⟨⟨frame, hmem, hguards⟩, hinnermost⟩ := Classical.not_imp.mp hunaligned
  have hactive : s.activeWorkerVoice t ≠ some voice := (hi.threads t).active_eq ▸ hinnermost
  have hrunning : 0 < s.running voice := hi.running_pos hmem hguards
  let begun : State T V := { s.setStack t (.unload voice .closing :: s.stack t) with
    loaded := Function.update s.loaded voice false }
  let closed : State T V := { begun.setStack t (.unload voice .checkingActive :: s.stack t) with
    closing := Function.update s.closing voice true }
  let locking := closed.setStack t (.unload voice .locking :: s.stack t)
  let asleep := locking.setStack t (.unload voice .asleep :: s.stack t)
  have hbegin : step pool s (t, .beginUnload voice) = some begun := by
    simp only [step, huser, hloaded, and_self, if_true, begun]
  have hclose : step pool begun (t, .close) = some closed := by
    have htop : begun.stack t = .unload voice .closing :: s.stack t := Function.update_self ..
    simp only [step, htop]
    rfl
  have hcheck : step pool closed (t, .checkActive) = some locking := by
    have htop : closed.stack t = .unload voice .checkingActive :: s.stack t :=
      Function.update_self ..
    have hother : ¬ closed.activeWorkerVoice t = some voice := hactive
    simp only [step, htop, if_neg hother]
    rfl
  have hlook : step pool locking (t, .look) = some asleep := by
    have htop : locking.stack t = .unload voice .locking :: s.stack t := Function.update_self ..
    have hbusy : 0 < locking.running voice := hrunning
    simp only [step, htop, if_pos hbusy]
    rfl
  refine ⟨[(t, .close), (t, .checkActive), (t, .look)], asleep,
    .cons hbegin (.cons hclose (.cons hcheck (.single hlook))), voice, s.stack t, ?_, frame, hmem,
    hguards⟩
  exact Function.update_self ..

/-- Aligned unloads never wait for their own stack, and the condition is exact: every other
unload from a reachable state can end up asleep above the guard it waits for. -/
theorem aligned_unload_never_selfWaits (pool : T → Bool) :
    (∀ s : State T V, Reachable (· = initial) (restrict AlignedUnload (steps (step pool))) s →
      ∀ t, ¬ SelfWaiting s t) ∧
    (∀ (s : State T V) t voice, Reaches pool s → runsUserCode (pool t) (s.stack t) →
      s.loaded voice → ¬ Aligned voice (s.stack t) →
      ∃ actions s', Run (steps (step pool)) s ((t, .beginUnload voice) :: actions) s' ∧
        SelfWaiting s' t) := by
  constructor
  · intro s hs t
    exact ((unloadsInv_of_reachable hs).unloads t).not_selfWaiting
  · intro s t voice hs huser hloaded hunaligned
    exact unaligned_unload_selfWaits hs.inv huser hloaded hunaligned

/-- The worker of voice `0` waits in its `par_iter` and its thread runs the worker of voice `1`
up to a callback. -/
def nestedRun : List (Fin 2 × Act (Fin 2)) :=
  [(1, .enter ⟨0, true⟩), (1, .spawn), (1, .enter ⟨1, false⟩), (1, .spawn),
    (0, .takeWorker ⟨0, true⟩), (0, .advance .beginWait), (0, .takeWorker ⟨1, false⟩),
    (0, .advance (.yieldItem false)), (0, .advance .check), (0, .invoke)]

/-- A worker of one voice on top of one of another. -/
def nestedState : State (Fin 2) (Fin 2) :=
  (replay (step onePoolThread) initial nestedRun).getD initial

theorem nestedState_reaches : Reaches onePoolThread nestedState :=
  ⟨initial, nestedRun, rfl, run_of_replay rfl⟩

theorem nestedState_not_aligned : ¬ Aligned 0 (nestedState.stack 0) := by
  intro haligned
  have hinnermost : innermost (nestedState.stack 0) = some 1 := rfl
  have hguard : ∃ frame ∈ nestedState.stack 0, frame.guards 0 :=
    ⟨.worker ⟨0, true⟩ none .waiting, List.mem_cons_of_mem _ List.mem_cons_self, rfl⟩
  rw [haligned hguard] at hinnermost
  exact absurd hinnermost (by decide)

/-- The callback of voice `1` unloads voice `0` and never gets out of it. -/
theorem nested_unload_selfWaits :
    ∃ s : State (Fin 2) (Fin 2), Reaches onePoolThread s ∧ SelfWaiting s 0 := by
  obtain ⟨actions, s, run, hself⟩ :=
    unaligned_unload_selfWaits nestedState_reaches.inv rfl rfl nestedState_not_aligned
  exact ⟨s, nestedState_reaches.trans run, hself⟩

/-- An unload has begun. -/
def unloadingState : State (Fin 2) (Fin 2) :=
  (replay (step onePoolThread) initial [(1, .beginUnload 0)]).getD initial

/-- An unload by the application is aligned, the unload by the nested callback is not. -/
theorem aligned_and_nested_unload :
    (∀ t, ¬ SelfWaiting unloadingState t) ∧
    ∃ actions s, Run (steps (step onePoolThread)) nestedState ((0, .beginUnload 0) :: actions) s ∧
      SelfWaiting s 0 := by
  constructor
  · refine (aligned_unload_never_selfWaits onePoolThread).1 _
      ⟨initial, [(1, .beginUnload 0)], rfl, .single ⟨?_, rfl⟩⟩
    rintro ⟨_, hmem, _⟩
    cases hmem
  · exact (aligned_unload_never_selfWaits onePoolThread).2 _ 0 0 nestedState_reaches rfl rfl
      nestedState_not_aligned

end Unloaded

end Dengjen.Capi.Voices

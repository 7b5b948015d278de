import Dengjen.Capi.Voices.Model
import Mathlib.Data.List.Chain

/-!
# The thread local and the stack

`ACTIVE_WORKER_VOICE` is one value per thread, and it always is the voice of the
innermost worker on the thread's stack. An unload therefore returns at once when
its voice is that innermost one, and otherwise waits, also for a worker of its
voice that is further down.
-/

namespace Dengjen.Capi.Voices

open TransitionSystem

variable {T V : Type*}

/-- The voice of the innermost worker whose thread local is still in force. -/
def innermost : List (Frame V) → Option V
  | [] => none
  | .worker _ _ .releasing :: below => innermost below
  | .worker job _ _ :: _ => some job.voice
  | _ :: below => innermost below

/-- Each worker remembers what the thread local was below it. -/
def Chained : List (Frame V) → Prop
  | [] => True
  | .worker _ previous _ :: below => previous = innermost below ∧ Chained below
  | _ :: below => Chained below

/-- What may be run on top of a frame: pool jobs while it waits, user code in its callback. -/
def Frame.On : Frame V → Frame V → Prop
  | worker _ _ _, below | task _, below => below.isWaiting
  | entering _, below | speak _ _, below | unload _ _, below => below.inCallback

theorem innermost_worker (job : Job V) (previous : Option V) {phase : Phase}
    (h : phase ≠ .releasing) (below : List (Frame V)) :
    innermost (.worker job previous phase :: below) = some job.voice := by
  cases phase with
  | releasing => exact absurd rfl h
  | _ => rfl

/-- Nothing runs on top of an unload. -/
theorem not_on_unload (top : Frame V) (voice : V) (phase : UnloadPhase) :
    ¬ top.On (.unload voice phase) := by
  cases top <;> simp [Frame.On, Frame.isWaiting, Frame.inCallback]

/-- What the thread local and the stack of a thread have to do with each other. -/
structure ThreadInv (active : Option V) (stack : List (Frame V)) : Prop where
  active_eq : active = innermost stack
  chained : Chained stack
  placed : stack.IsChain Frame.On

theorem ThreadInv.empty : ThreadInv (none : Option V) [] := ⟨rfl, trivial, .nil⟩

theorem isChain_cons_of_head {frame : Frame V} {stack : List (Frame V)}
    (hplaced : stack.IsChain Frame.On) (hon : ∀ below ∈ stack.head?, frame.On below) :
    (frame :: stack).IsChain Frame.On :=
  List.isChain_cons.mpr ⟨hon, hplaced⟩

theorem on_of_runsUserCode {frame : Frame V} {pool : Bool} {stack : List (Frame V)}
    (huser : runsUserCode pool stack) (hon : ∀ below : Frame V, below.inCallback → frame.On below) :
    ∀ below ∈ stack.head?, frame.On below := by
  cases stack with
  | nil => exact nofun
  | cons below rest =>
      intro other hother
      cases hother
      exact hon below huser

theorem on_of_takesJobs {frame : Frame V} {pool : Bool} {stack : List (Frame V)}
    (hjobs : takesJobs pool stack) (hon : ∀ below : Frame V, below.isWaiting → frame.On below) :
    ∀ below ∈ stack.head?, frame.On below := by
  cases stack with
  | nil => exact nofun
  | cons below rest =>
      intro other hother
      cases hother
      exact hon below (Bool.and_eq_true_iff.mp hjobs).2

/-- A frame that holds no thread local comes and goes without a trace. -/
theorem ThreadInv.push {active : Option V} {stack : List (Frame V)} {frame : Frame V}
    (hi : ThreadInv active stack) (hframe : ∀ job previous phase, frame ≠ .worker job previous phase)
    (hon : ∀ below ∈ stack.head?, frame.On below) : ThreadInv active (frame :: stack) := by
  cases frame with
  | worker job previous phase => exact absurd rfl (hframe job previous phase)
  | _ => exact ⟨hi.active_eq, hi.chained, isChain_cons_of_head hi.placed hon⟩

theorem ThreadInv.pop {active : Option V} {frame : Frame V} {below : List (Frame V)}
    (hi : ThreadInv active (frame :: below))
    (hframe : ∀ job previous phase, frame = .worker job previous phase → phase = .releasing) :
    ThreadInv active below := by
  cases frame with
  | worker job previous phase =>
      obtain rfl := hframe job previous phase rfl
      exact ⟨hi.active_eq, hi.chained.2, hi.placed.tail⟩
  | _ => exact ⟨hi.active_eq, hi.chained, hi.placed.tail⟩

theorem ThreadInv.move {active : Option V} {frame frame' : Frame V} {below : List (Frame V)}
    (hi : ThreadInv active (frame :: below)) (hmoves : Moves active frame frame') :
    ThreadInv active (frame' :: below) := by
  obtain ⟨hhead, htail⟩ := List.isChain_cons.mp hi.placed
  cases hmoves with
  | worker h h' =>
      refine ⟨?_, hi.chained, isChain_cons_of_head htail hhead⟩
      rw [innermost_worker _ _ h']
      exact (innermost_worker _ _ h _) ▸ hi.active_eq
  | _ => exact ⟨hi.active_eq, hi.chained, isChain_cons_of_head htail hhead⟩

theorem ThreadInv.takeWorker {active : Option V} {stack : List (Frame V)} {pool : Bool}
    (hi : ThreadInv active stack) (job : Job V) (hjobs : takesJobs pool stack) :
    ThreadInv (some job.voice) (.worker job active .synthesizing :: stack) :=
  ⟨rfl, ⟨hi.active_eq, hi.chained⟩,
    isChain_cons_of_head hi.placed (on_of_takesJobs hjobs fun _ h => h)⟩

theorem ThreadInv.restore {active previous : Option V} {job : Job V} {below : List (Frame V)}
    (hi : ThreadInv active (.worker job previous .leaving :: below)) :
    ThreadInv previous (.worker job previous .releasing :: below) := by
  obtain ⟨hhead, htail⟩ := List.isChain_cons.mp hi.placed
  exact ⟨hi.chained.1, hi.chained, isChain_cons_of_head htail hhead⟩

section Threads

/-- Every thread has a stack that agrees with its thread local. -/
def ThreadsInv (s : State T V) : Prop := ∀ t, ThreadInv (s.activeWorkerVoice t) (s.stack t)

theorem initial_threadsInv : ThreadsInv (initial : State T V) := fun _ => ThreadInv.empty

variable [DecidableEq T] {pool : T → Bool}

theorem ThreadsInv.setStack {s : State T V} {t : T} {stack : List (Frame V)} (hi : ThreadsInv s)
    (h : ThreadInv (s.activeWorkerVoice t) stack) (u : T) :
    ThreadInv (s.activeWorkerVoice u) (Function.update s.stack t stack u) :=
  (Function.forall_update_iff s.stack fun u stack =>
    ThreadInv (s.activeWorkerVoice u) stack).mpr ⟨h, fun u _ => hi u⟩ u

theorem ThreadsInv.setThread {s : State T V} {t : T} {active : Option V} {stack : List (Frame V)}
    (hi : ThreadsInv s) (h : ThreadInv active stack) (u : T) :
    ThreadInv (Function.update s.activeWorkerVoice t active u)
      (Function.update s.stack t stack u) := by
  by_cases hu : u = t
  · subst hu
    simpa using h
  · simpa [hu] using hi u

theorem ThreadsInv.step [DecidableEq V] {s s' : State T V} {t : T} {act : Act V}
    (hi : ThreadsInv s) (h : step pool s (t, act) = some s') : ThreadsInv s' := by
  have ht := hi t
  cases stepped_of_step h with
  | enter huser _ => exact hi.setStack (ht.push nofun (on_of_runsUserCode huser fun _ h => h))
  | spawn hstack =>
      rw [hstack] at ht
      exact hi.setStack (ht.pop nofun)
  | takeWorker hjobs _ => exact hi.setThread (ht.takeWorker _ hjobs)
  | move hstack hmoves _ _ _ =>
      rw [hstack] at ht
      exact hi.setStack (ht.move hmoves)
  | restore hstack =>
      rw [hstack] at ht
      exact hi.setThread ht.restore
  | drop hstack hframe =>
      rw [hstack] at ht
      rcases hframe with rfl | ⟨previous, rfl⟩
      · exact hi.setStack (ht.pop nofun)
      · exact hi.setStack (ht.pop fun _ _ _ h => by cases h; rfl)
  | beginSpeak huser => exact hi.setStack (ht.push nofun (on_of_runsUserCode huser fun _ h => h))
  | takeTask hjobs => exact hi.setStack (ht.push nofun (on_of_takesJobs hjobs fun _ h => h))
  | finish hstack hframe =>
      rw [hstack] at ht
      rcases hframe with ⟨job, rfl⟩ | rfl <;> exact hi.setStack (ht.pop nofun)
  | beginUnload huser _ =>
      exact hi.setStack (ht.push nofun (on_of_runsUserCode huser fun _ h => h))
  | unloadReturns hstack _ =>
      rw [hstack] at ht
      exact hi.setStack (ht.pop nofun)

/-- The states of the pool's runs. -/
abbrev Reaches [DecidableEq V] (pool : T → Bool) (s : State T V) : Prop :=
  Reachable (· = initial) (steps (step pool)) s

end Threads

/-! ## Unloading inside a worker -/

section SelfWait

variable [DecidableEq V]

/-- When the stack has a worker of the voice, that worker is the innermost one. -/
def Aligned (voice : V) (stack : List (Frame V)) : Prop :=
  (∃ frame ∈ stack, frame.guards voice) → innermost stack = some voice

/-- An unload of a voice was begun on an aligned stack, and waits only on one without the voice. -/
structure UnloadInv (stack : List (Frame V)) : Prop where
  aligned : ∀ voice phase below, stack = .unload voice phase :: below → Aligned voice below
  waits : ∀ voice phase below, stack = .unload voice phase :: below →
    phase = .locking ∨ phase = .asleep → innermost below ≠ some voice

/-- The thread sleeps in an unload while a frame lower on its own stack holds a guard of the
voice. -/
def SelfWaiting (s : State T V) (t : T) : Prop :=
  ∃ voice below, s.stack t = .unload voice .asleep :: below ∧ ∃ frame ∈ below, frame.guards voice

theorem UnloadInv.of_not_unload {stack : List (Frame V)}
    (h : ∀ voice phase below, stack ≠ .unload voice phase :: below) : UnloadInv stack :=
  ⟨fun voice phase below heq => absurd heq (h voice phase below),
    fun voice phase below heq => absurd heq (h voice phase below)⟩

theorem UnloadInv.not_selfWaiting {s : State T V} {t : T} (hi : UnloadInv (s.stack t)) :
    ¬ SelfWaiting s t := by
  rintro ⟨voice, below, hstack, hguards⟩
  exact hi.waits voice .asleep below hstack (.inr rfl) (hi.aligned voice .asleep below hstack hguards)

/-- What is left after the top frame is popped is not an unload. -/
theorem ThreadInv.unloadInv_below {active : Option V} {frame : Frame V} {below : List (Frame V)}
    (hi : ThreadInv active (frame :: below)) : UnloadInv below := by
  apply UnloadInv.of_not_unload
  rintro voice phase rest rfl
  exact not_on_unload frame voice phase (List.isChain_cons_cons.mp hi.placed).1

theorem UnloadInv.move {active : Option V} {frame frame' : Frame V} {below : List (Frame V)}
    (hi : UnloadInv (frame :: below)) (hthread : ThreadInv active (frame :: below))
    (hmoves : Moves active frame frame') : UnloadInv (frame' :: below) := by
  cases hmoves with
  | worker _ _ => exact .of_not_unload nofun
  | speak => exact .of_not_unload nofun
  | task => exact .of_not_unload nofun
  | @close voice =>
      refine ⟨?_, ?_⟩ <;> rintro _ _ _ ⟨⟩
      · exact hi.aligned voice .closing below rfl
      · rintro (h | h) <;> cases h
  | @lock voice hactive =>
      refine ⟨?_, ?_⟩ <;> rintro _ _ _ ⟨⟩
      · exact hi.aligned voice .checkingActive below rfl
      · intro _ hinnermost
        exact hactive (hthread.active_eq.trans hinnermost)
  | @sleep voice phase hphase =>
      refine ⟨?_, ?_⟩ <;> rintro _ _ _ ⟨⟩
      · exact hi.aligned voice phase below rfl
      · intro _
        exact hi.waits voice phase below rfl hphase

variable [DecidableEq T] {pool : T → Bool}

/-- A voice is unloaded only where its worker, if the thread has one, is the innermost. -/
def AlignedUnload (s : State T V) : T × Act V → Prop
  | (t, .beginUnload voice) => Aligned voice (s.stack t)
  | _ => True

/-- Every thread has a stack of aligned unloads. -/
structure UnloadsInv (s : State T V) : Prop where
  threads : ThreadsInv s
  unloads : ∀ t, UnloadInv (s.stack t)

theorem UnloadsInv.step {s s' : State T V} {t : T} {act : Act V}
    (hi : UnloadsInv s) (haligned : AlignedUnload s (t, act))
    (h : step pool s (t, act) = some s') : UnloadsInv s' := by
  obtain ⟨hthreads, hunloads⟩ := hi
  refine ⟨hthreads.step h, ?_⟩
  have hupdate : ∀ stack, UnloadInv stack → ∀ u, UnloadInv (Function.update s.stack t stack u) :=
    fun stack hstack => (Function.forall_update_iff s.stack fun _ stack => UnloadInv stack).mpr
      ⟨hstack, fun u _ => hunloads u⟩
  have ht := hthreads t
  have hu := hunloads t
  cases stepped_of_step h with
  | enter _ _ => exact hupdate _ (.of_not_unload nofun)
  | takeWorker _ _ => exact hupdate _ (.of_not_unload nofun)
  | beginSpeak _ => exact hupdate _ (.of_not_unload nofun)
  | takeTask _ => exact hupdate _ (.of_not_unload nofun)
  | restore _ => exact hupdate _ (.of_not_unload nofun)
  | spawn hstack | drop hstack _ | finish hstack _ | unloadReturns hstack _ =>
      rw [hstack] at ht
      exact hupdate _ ht.unloadInv_below
  | move hstack hmoves _ _ _ =>
      rw [hstack] at ht hu
      exact hupdate _ (hu.move ht hmoves)
  | beginUnload _ _ =>
      refine hupdate _ ⟨?_, ?_⟩ <;> rintro _ _ _ ⟨⟩
      · exact haligned
      · rintro (h | h) <;> cases h

/-- A run of aligned unloads keeps every stack so. -/
theorem unloadsInv_of_reachable {s : State T V}
    (hs : Reachable (· = initial) (restrict AlignedUnload (steps (step pool))) s) :
    UnloadsInv s :=
  hs.invariant (fun _ h => h ▸ ⟨initial_threadsInv, fun _ => .of_not_unload nofun⟩)
    fun _ _ _ hi h => hi.step h.1 h.2

end SelfWait

end Dengjen.Capi.Voices

import Dengjen.General.TransitionSystem
import Mathlib.Logic.Function.Basic

/-!
# Workers and unloads of the C API's voices

A nonblocking speak takes an in-flight guard and spawns a worker on the pool.
Unloading a voice sets its closing flag and waits until its guards are gone,
except on a thread whose `ACTIVE_WORKER_VOICE` is that voice. A thread is a
stack of frames: a worker inside the parallel mode's `par_iter` lets its thread
run other jobs on top of it, and a callback may speak and unload.

## Implementation notes

`Condvar::wait` may wake up at any time and the loop around it looks at the
counter again, so a sleeping unload may look again at any time here and a
notification has no effect of its own. A voice is identified by the address of
its `InFlight`, which a guard keeps alive. The log has the callbacks of the
nonblocking workers.
-/

namespace Dengjen.Capi.Voices

variable {T V : Type*}

/-- What a callback is called with. -/
inductive Event
  | speech
  | finished
  | error
  deriving DecidableEq

/-- Where a worker is. `pending` is just before a callback, `leaving` before
`ACTIVE_WORKER_VOICE` is set back, `releasing` before the guard is dropped. -/
inductive Phase
  | synthesizing
  | waiting
  | gotItem (failed : Bool)
  | pending (event : Event)
  | callback (event : Event)
  | leaving
  | releasing
  deriving DecidableEq

/-- Where a blocking speak is. -/
inductive SpeakPhase
  | synthesizing
  | waiting
  | callback
  deriving DecidableEq

/-- Where an unload is in `close_and_wait`. -/
inductive UnloadPhase
  | closing
  | checkingActive
  | locking
  | asleep
  deriving DecidableEq

/-- A nonblocking speak, and whether its mode synthesizes on the pool. -/
structure Job (V : Type*) where
  voice : V
  parallel : Bool
  deriving DecidableEq

/-- What a thread is in the middle of. -/
inductive Frame (V : Type*)
  /-- The body of a nonblocking worker; `previous` is what it replaced in the thread local. -/
  | worker (job : Job V) (previous : Option V) (phase : Phase)
  /-- A nonblocking speak between `enter` and `spawn`. -/
  | entering (job : Job V)
  /-- A blocking speak. -/
  | speak (job : Job V) (phase : SpeakPhase)
  /-- Another job of the pool, such as a piece of a `par_iter`. -/
  | task (waiting : Bool)
  | unload (voice : V) (phase : UnloadPhase)
  deriving DecidableEq

/-- What the threads, the pool and the voices hold. -/
structure State (T V : Type*) where
  stack : T → List (Frame V)
  activeWorkerVoice : T → Option V
  queue : List (Job V)
  closing : V → Bool
  running : V → Nat
  loaded : V → Bool
  log : List (V × Event)
  /-- The unloads that have returned to a caller outside the voice's own callbacks. -/
  unloaded : V → Bool

/-- What may happen to a nonblocking worker. -/
inductive PhaseAction
  | beginWait
  | endWait
  | yieldItem (failed : Bool)
  | exhaust
  | fail
  | check
  | answer (wantsMore : Bool)

/-- What may happen to a blocking speak. -/
inductive SpeakAction
  | beginWait
  | endWait
  | call
  | answer
  | finish

/-- What may happen on a thread. -/
inductive Act (V : Type*)
  | enter (job : Job V)
  | spawn
  | failToSpawn
  | takeWorker (job : Job V)
  | advance (action : PhaseAction)
  | invoke
  | restore
  | release
  | beginSpeak (job : Job V)
  | speak (action : SpeakAction)
  | takeTask
  | waitTask (waiting : Bool)
  | finishTask
  | beginUnload (voice : V)
  | close
  | checkActive
  | look

namespace Phase

/-- The steps of a worker that only move it on. -/
def step (parallel closing : Bool) : PhaseAction → Phase → Option Phase
  | .beginWait, synthesizing => if parallel then some waiting else none
  | .endWait, waiting => some synthesizing
  | .yieldItem failed, synthesizing => some (gotItem failed)
  | .exhaust, synthesizing => some (pending .finished)
  | .fail, synthesizing => some (pending .error)
  | .check, gotItem failed =>
      some (pending (if closing then .finished else if failed then .error else .speech))
  | .answer wantsMore, callback .speech => some (if wantsMore then synthesizing else leaving)
  | .answer _, callback _ => some leaving
  | _, _ => none

end Phase

/-- A blocking speak, whose events are not tracked. -/
def SpeakPhase.step (parallel : Bool) : SpeakAction → SpeakPhase → Option SpeakPhase
  | .beginWait, synthesizing => if parallel then some waiting else none
  | .endWait, waiting => some synthesizing
  | .call, synthesizing => some callback
  | .answer, callback => some synthesizing
  | _, _ => none

namespace Frame

/-- The frame runs user code. -/
def inCallback : Frame V → Bool
  | worker _ _ (.callback _) => true
  | speak _ .callback => true
  | _ => false

/-- The frame is a pool job that waits for others of its `par_iter`. -/
def isWaiting : Frame V → Bool
  | worker _ _ .waiting => true
  | speak _ .waiting => true
  | task waiting => waiting
  | _ => false

variable [DecidableEq V]

/-- The frame holds an in-flight guard of the voice. -/
def guards (voice : V) : Frame V → Bool
  | worker job _ _ => job.voice = voice
  | entering job => job.voice = voice
  | _ => false

/-- The frame runs a callback of the voice. -/
def callsBack (voice : V) : Frame V → Bool
  | worker job _ (.callback _) => job.voice = voice
  | _ => false

end Frame

/-- User code runs on an application thread and inside callbacks. -/
def runsUserCode (pool : Bool) : List (Frame V) → Bool
  | [] => !pool
  | frame :: _ => frame.inCallback

/-- A pool thread takes jobs when it has none, or inside a `par_iter`. -/
def takesJobs (pool : Bool) : List (Frame V) → Bool
  | [] => pool
  | frame :: _ => pool && frame.isWaiting

section Steps

variable [DecidableEq T] [DecidableEq V] (pool : T → Bool)

namespace State

/-- A thread has another stack. -/
def setStack (s : State T V) (t : T) (stack : List (Frame V)) : State T V :=
  { s with stack := Function.update s.stack t stack }

/-- Drop a guard. -/
def leave (s : State T V) (voice : V) : State T V :=
  { s with running := Function.update s.running voice (s.running voice - 1) }

/-- Return from an unload to the frames below it. -/
def returnFromUnload (s : State T V) (t : T) (voice : V) (below : List (Frame V)) : State T V :=
  { s.setStack t below with
    unloaded := Function.update s.unloaded voice
      (s.unloaded voice || !below.any (Frame.callsBack voice)) }

end State

/-- A thread does what its stack lets it. -/
def step (s : State T V) : T × Act V → Option (State T V)
  | (t, .enter job) =>
      if runsUserCode (pool t) (s.stack t) ∧ s.loaded job.voice then
        some { s.setStack t (.entering job :: s.stack t) with
          running := Function.update s.running job.voice (s.running job.voice + 1) }
      else none
  | (t, .spawn) =>
      match s.stack t with
      | .entering job :: below => some { s.setStack t below with queue := s.queue ++ [job] }
      | _ => none
  | (t, .failToSpawn) =>
      match s.stack t with
      | .entering job :: below => some ((s.setStack t below).leave job.voice)
      | _ => none
  | (t, .takeWorker job) =>
      if takesJobs (pool t) (s.stack t) ∧ job ∈ s.queue then
        some { s.setStack t
            (.worker job (s.activeWorkerVoice t) .synthesizing :: s.stack t) with
          queue := s.queue.erase job
          activeWorkerVoice := Function.update s.activeWorkerVoice t (some job.voice) }
      else none
  | (t, .advance action) =>
      match s.stack t with
      | .worker job previous phase :: below =>
          (phase.step job.parallel (s.closing job.voice) action).map fun phase =>
            s.setStack t (.worker job previous phase :: below)
      | _ => none
  | (t, .invoke) =>
      match s.stack t with
      | .worker job previous (.pending event) :: below =>
          some { s.setStack t (.worker job previous (.callback event) :: below) with
            log := s.log ++ [(job.voice, event)] }
      | _ => none
  | (t, .restore) =>
      match s.stack t with
      | .worker job previous .leaving :: below =>
          some { s.setStack t (.worker job previous .releasing :: below) with
            activeWorkerVoice := Function.update s.activeWorkerVoice t previous }
      | _ => none
  | (t, .release) =>
      match s.stack t with
      | .worker job _ .releasing :: below => some ((s.setStack t below).leave job.voice)
      | _ => none
  | (t, .beginSpeak job) =>
      if runsUserCode (pool t) (s.stack t) ∧ s.loaded job.voice then
        some (s.setStack t (.speak job .synthesizing :: s.stack t))
      else none
  | (t, .speak .finish) =>
      match s.stack t with
      | .speak _ .synthesizing :: below => some (s.setStack t below)
      | _ => none
  | (t, .speak action) =>
      match s.stack t with
      | .speak job phase :: below =>
          (phase.step job.parallel action).map fun phase =>
            s.setStack t (.speak job phase :: below)
      | _ => none
  | (t, .takeTask) =>
      if takesJobs (pool t) (s.stack t) then some (s.setStack t (.task false :: s.stack t))
      else none
  | (t, .waitTask waiting) =>
      match s.stack t with
      | .task _ :: below => some (s.setStack t (.task waiting :: below))
      | _ => none
  | (t, .finishTask) =>
      match s.stack t with
      | .task false :: below => some (s.setStack t below)
      | _ => none
  | (t, .beginUnload voice) =>
      if runsUserCode (pool t) (s.stack t) ∧ s.loaded voice then
        some { s.setStack t (.unload voice .closing :: s.stack t) with
          loaded := Function.update s.loaded voice false }
      else none
  | (t, .close) =>
      match s.stack t with
      | .unload voice .closing :: below =>
          some { s.setStack t (.unload voice .checkingActive :: below) with
            closing := Function.update s.closing voice true }
      | _ => none
  | (t, .checkActive) =>
      match s.stack t with
      | .unload voice .checkingActive :: below =>
          if s.activeWorkerVoice t = some voice then some (s.returnFromUnload t voice below)
          else some (s.setStack t (.unload voice .locking :: below))
      | _ => none
  | (t, .look) =>
      match s.stack t with
      | .unload voice .locking :: below | .unload voice .asleep :: below =>
          if 0 < s.running voice then some (s.setStack t (.unload voice .asleep :: below))
          else some (s.returnFromUnload t voice below)
      | _ => none

/-- No thread has anything to do yet. A voice that is loaded later is one nobody uses before. -/
def initial : State T V where
  stack := fun _ => []
  activeWorkerVoice := fun _ => none
  queue := []
  closing := fun _ => false
  running := fun _ => 0
  loaded := fun _ => true
  log := []
  unloaded := fun _ => false

end Steps

/-! ## What a step does -/

section Stepped

/-- A change of the top frame that keeps its kind, its job and its guard. -/
inductive Moves (active : Option V) : Frame V → Frame V → Prop
  | worker {job previous phase phase'} (h : phase ≠ .releasing) (h' : phase' ≠ .releasing) :
      Moves active (.worker job previous phase) (.worker job previous phase')
  | speak {job phase phase'} : Moves active (.speak job phase) (.speak job phase')
  | task {waiting waiting'} : Moves active (.task waiting) (.task waiting')
  | close {voice} : Moves active (.unload voice .closing) (.unload voice .checkingActive)
  | lock {voice} (h : active ≠ some voice) :
      Moves active (.unload voice .checkingActive) (.unload voice .locking)
  | sleep {voice phase} (h : phase = .locking ∨ phase = .asleep) :
      Moves active (.unload voice phase) (.unload voice .asleep)

variable [DecidableEq T] [DecidableEq V] {pool : T → Bool}

/-- The steps, as the cases that their proofs are made in. -/
inductive Stepped (pool : T → Bool) (s : State T V) (t : T) : Act V → State T V → Prop
  | enter {job} (huser : runsUserCode (pool t) (s.stack t)) (hloaded : s.loaded job.voice) :
      Stepped pool s t (.enter job) { s.setStack t (.entering job :: s.stack t) with
        running := Function.update s.running job.voice (s.running job.voice + 1) }
  | spawn {job below} (h : s.stack t = .entering job :: below) :
      Stepped pool s t .spawn { s.setStack t below with queue := s.queue ++ [job] }
  | takeWorker {job} (hjobs : takesJobs (pool t) (s.stack t)) (hmem : job ∈ s.queue) :
      Stepped pool s t (.takeWorker job) { s.setStack t
          (.worker job (s.activeWorkerVoice t) .synthesizing :: s.stack t) with
        queue := s.queue.erase job
        activeWorkerVoice := Function.update s.activeWorkerVoice t (some job.voice) }
  | move {act frame frame' below} (h : s.stack t = frame :: below)
      (hmoves : Moves (s.activeWorkerVoice t) frame frame') (closing : V → Bool)
      (log : List (V × Event))
      (hlog : ∀ v, log.filter (·.1 = v) = s.log.filter (·.1 = v) ∨ frame.guards v) :
      Stepped pool s t act { s.setStack t (frame' :: below) with closing, log }
  | restore {job previous below} (h : s.stack t = .worker job previous .leaving :: below) :
      Stepped pool s t .restore { s.setStack t (.worker job previous .releasing :: below) with
        activeWorkerVoice := Function.update s.activeWorkerVoice t previous }
  | drop {act frame job below} (h : s.stack t = frame :: below)
      (hframe : frame = .entering job ∨ ∃ previous, frame = .worker job previous .releasing) :
      Stepped pool s t act ((s.setStack t below).leave job.voice)
  | beginSpeak {job} (huser : runsUserCode (pool t) (s.stack t)) :
      Stepped pool s t (.beginSpeak job) (s.setStack t (.speak job .synthesizing :: s.stack t))
  | takeTask (hjobs : takesJobs (pool t) (s.stack t)) :
      Stepped pool s t .takeTask (s.setStack t (.task false :: s.stack t))
  | finish {act frame below} (h : s.stack t = frame :: below)
      (hframe : (∃ job, frame = .speak job .synthesizing) ∨ frame = .task false) :
      Stepped pool s t act (s.setStack t below)
  | beginUnload {voice} (huser : runsUserCode (pool t) (s.stack t)) (hloaded : s.loaded voice) :
      Stepped pool s t (.beginUnload voice) { s.setStack t (.unload voice .closing :: s.stack t) with
        loaded := Function.update s.loaded voice false }
  | unloadReturns {act voice phase below} (h : s.stack t = .unload voice phase :: below)
      (hreturns : s.activeWorkerVoice t = some voice ∨ s.running voice = 0) :
      Stepped pool s t act (s.returnFromUnload t voice below)

theorem Phase.step_ne_releasing {parallel closing : Bool} {action : PhaseAction}
    {phase phase' : Phase} (h : phase.step parallel closing action = some phase') :
    phase ≠ .releasing ∧ phase' ≠ .releasing := by
  unfold Phase.step at h
  split at h <;> (try split at h) <;> cases h <;> exact ⟨nofun, nofun⟩

theorem stepped_of_step {s s' : State T V} {t : T} {act : Act V}
    (h : step pool s (t, act) = some s') : Stepped pool s t act s' := by
  cases act with
  | enter job =>
      simp only [step] at h
      split at h
      · next huser =>
          cases h
          exact .enter huser.1 huser.2
      · cases h
  | spawn =>
      simp only [step] at h
      split at h <;> cases h
      exact .spawn ‹_›
  | failToSpawn =>
      simp only [step] at h
      split at h <;> cases h
      exact .drop ‹_› (.inl rfl)
  | takeWorker job =>
      simp only [step] at h
      split at h
      · next hjobs =>
          cases h
          exact .takeWorker hjobs.1 hjobs.2
      · cases h
  | advance action =>
      simp only [step] at h
      split at h
      · next job previous phase below hstack =>
          obtain ⟨phase', hphase, rfl⟩ := Option.map_eq_some_iff.mp h
          obtain ⟨hne, hne'⟩ := Phase.step_ne_releasing hphase
          exact .move hstack (.worker hne hne') s.closing s.log fun _ => .inl rfl
      · cases h
  | invoke =>
      simp only [step] at h
      split at h
      · next job previous event below hstack =>
          cases h
          have hmoves : Moves (s.activeWorkerVoice t) (.worker job previous (.pending event))
              (.worker job previous (.callback event)) := .worker nofun nofun
          apply Stepped.move hstack hmoves s.closing _
          intro v
          by_cases hv : job.voice = v
          · exact .inr (by simp [Frame.guards, hv])
          · exact .inl (by simp [hv])
      · cases h
  | restore =>
      simp only [step] at h
      split at h <;> cases h
      exact .restore ‹_›
  | release =>
      simp only [step] at h
      split at h <;> cases h
      exact .drop ‹_› (.inr ⟨_, rfl⟩)
  | beginSpeak job =>
      simp only [step] at h
      split at h
      · next huser =>
          cases h
          exact .beginSpeak huser.1
      · cases h
  | speak action =>
      cases action with
      | finish =>
          simp only [step] at h
          split at h <;> cases h
          exact .finish ‹_› (.inl ⟨_, rfl⟩)
      | _ =>
          simp only [step] at h
          split at h
          · next hstack =>
              obtain ⟨phase', -, rfl⟩ := Option.map_eq_some_iff.mp h
              exact .move hstack .speak s.closing s.log fun _ => .inl rfl
          · cases h
  | takeTask =>
      simp only [step] at h
      split at h
      · next hjobs =>
          cases h
          exact .takeTask hjobs
      · cases h
  | waitTask waiting =>
      simp only [step] at h
      split at h
      · next hstack =>
          cases h
          exact .move hstack .task s.closing s.log fun _ => .inl rfl
      · cases h
  | finishTask =>
      simp only [step] at h
      split at h <;> cases h
      exact .finish ‹_› (.inr rfl)
  | beginUnload voice =>
      simp only [step] at h
      split at h
      · next huser =>
          cases h
          exact .beginUnload huser.1 huser.2
      · cases h
  | close =>
      simp only [step] at h
      split at h
      · next hstack =>
          cases h
          exact .move hstack .close _ s.log fun _ => .inl rfl
      · cases h
  | checkActive =>
      simp only [step] at h
      split at h
      · next hstack =>
          split at h
          · next hactive =>
              cases h
              exact .unloadReturns hstack (.inl hactive)
          · next hactive =>
              cases h
              exact .move hstack (.lock hactive) s.closing s.log fun _ => .inl rfl
      · cases h
  | look =>
      simp only [step] at h
      split at h
      · next hstack =>
          split at h
          · cases h
            exact .move hstack (.sleep (.inl rfl)) s.closing s.log fun _ => .inl rfl
          · next hidle =>
              cases h
              exact .unloadReturns hstack (.inr (by omega))
      · next hstack =>
          split at h
          · cases h
            exact .move hstack (.sleep (.inr rfl)) s.closing s.log fun _ => .inl rfl
          · next hidle =>
              cases h
              exact .unloadReturns hstack (.inr (by omega))
      · cases h

end Stepped

end Dengjen.Capi.Voices

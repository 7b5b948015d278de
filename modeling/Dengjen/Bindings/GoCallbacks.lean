import Dengjen.Bindings.SpeakCalls

/-!
# The callback registry of the Go binding

`Speak` pins a token and registers its `func` under it. The library calls
`goDengjenSpeechCallback` with the token, which frees the event it was given
before the `func` sees a copy. The token is unpinned when it is released.

## Implementation notes

A `func` may be nil. It is then asked for nothing, and every event is freed.
-/

namespace Dengjen.Bindings.Go

open Capi Capi.SpeakEvents Registrations TransitionSystem

/-- The `SynthesisEvent` of the binding. -/
structure Event where
  type : Int
  data : List UInt8
  err : Option DengjenFFIError
  deriving DecidableEq

/-- A callback, which may be nil. -/
abbrev Func := Option (Nat → Reply)

/-- The copy of an event, with its bytes or its error as its kind has them. -/
def goEvent (event : SynthesisEvent) : Event :=
  let goEvent : Event := ⟨event.eventType, [], none⟩
  if event.eventType = synthEventSpeech then
    if event.data.length > 0 then { goEvent with data := event.data } else goEvent
  else if event.eventType = synthEventError then { goEvent with err := event.errorPtr }
  else goEvent

/-- A panic of the `func` is recovered. -/
def invokeCallback (fn : Nat → Reply) (i : Nat) : Bool :=
  match fn i with
  | .more => true
  | .stop | .raised => false

/-- The callback asks for more; a nil one always does. -/
def wantsMore (onEvent : Func) (i : Nat) : Bool :=
  match onEvent with
  | none => true
  | some fn => invokeCallback fn i

/-- One upcall: the callback under the handle is given the event and says whether to go on. -/
def goDengjenSpeechCallback (entry : Option Func) (i : Nat) (event : SynthesisEvent) :
    Dispatch Event :=
  let onEvent : Func := entry.getD none
  let wantsMore := wantsMore onEvent i
  let terminal := event.eventType = synthEventFinished || event.eventType = synthEventError
  ⟨onEvent.map fun _ => goEvent event, wantsMore, terminal || !wantsMore⟩

/-- What the exported function does, as the calls of both bindings share it. -/
def trampoline : Trampoline Func Event where
  invoke := goDengjenSpeechCallback
  wantsMore := wantsMore
  invoke_speech _ _ _ := rfl
  releases_eq _ _ _ := rfl

/-- The copy has what the event has. -/
theorem goEvent_eq (event : SynthesisEvent) :
    goEvent event = ⟨event.eventType, event.data, event.errorPtr⟩ := by
  cases event with
  | finished | error => rfl
  | speech bytes =>
      cases bytes with
      | nil => rfl
      | cons byte bytes => rfl

theorem handed_eq {call : SpeakRequest Func} {fn : Nat → Reply} (h : call.handler = some fn)
    (i : Nat) (events : List SynthesisEvent) :
    call.handed trampoline i events = events.map goEvent := by
  induction events generalizing i with
  | nil => rfl
  | cons event events ih =>
      rw [SpeakRequest.handed, ih, SpeakRequest.handedAt, h]
      rfl

variable {C : Type*} [DecidableEq C] {calls : C → SpeakRequest Func}
  {r : Shared C Func (CallState Func Event)}

/-- A blocking call whose stream has no result. -/
def silentCall : SpeakRequest Func where
  handler := some fun _ => .more
  nonblocking := false
  refused := none
  synthesis :=
    { text := ""
      params := ⟨0, 50, 50, 50, 0⟩
      synthesizeSamples := fun _ _ _ => .returned (.ok [])
      defaultBatchSize := ⟨1, Nat.one_pos⟩
      asWaveBytes := fun _ => []
      answer := fun _ => 0
      isClosing := fun _ => false }
  panicError := fun message => ⟨-1, message⟩

theorem silentCall_complete : ∃ r : Shared Unit Func (CallState Func Event),
    CallsReachable trampoline (fun _ => silentCall) r ∧ (r.client ()).Complete := by
  have start : CallsReachable trampoline (fun _ : Unit => silentCall)
      (Shared.initial fun _ => CallState.initial) := Reachable.of_init rfl
  have registered := start.next (.register (c := ()) rfl (.register rfl))
  have found := registered.next (.lookup (c := ()) rfl (.lookup _ rfl rfl))
  have answered := found.next (.internal (c := ()) (.invoke rfl))
  have released := answered.next (.remove (c := ()) rfl (.release _ rfl))
  have returned := released.next (.internal (c := ()) (.leave rfl rfl (.inr ⟨rfl, rfl⟩)))
  exact ⟨_, returned, rfl, rfl, rfl⟩

end Dengjen.Bindings.Go

import Dengjen.Bindings.SpeakCalls

/-!
# The trampolines of the Java binding

`Voice.speak` makes a `SpeakTrampoline`, registers it under a fresh id and passes
the id as `user_data`. One upcall stub serves all of them: `invoke` finds the
trampoline by the id, decodes the event, frees it, and calls the handler. What is
thrown on the way releases the trampoline and stops the call.

## Implementation notes

Decoding copies the bytes of the event into an array, which may fail. It fails
also on a type it does not know; the library sends none. The downcall that frees
an event does not throw.
-/

namespace Dengjen.Bindings.Java

open Capi Capi.SpeakEvents Registrations TransitionSystem

/-- The kinds of an event, as the binding names them. -/
inductive EventType
  | speech
  | finished
  | error
  deriving DecidableEq

/-- The number that the library uses for a kind. -/
def EventType.value : EventType → Int
  | speech => 0
  | finished => 1
  | error => 2

/-- All kinds, in the order of the enumeration. -/
def EventType.values : List EventType := [speech, finished, error]

/-- The kind with a number, where there is one. -/
def EventType.fromValue (value : Int) : Option EventType :=
  EventType.values.find? fun type => type.value = value

/-- The failures that the binding tells apart. -/
inductive ErrorCode
  | panic
  | invalidHandle
  | invalidSynthesisMode
  | failedToLoadResource
  | phonemizationError
  | operationError
  | invalidUtf8Sequence
  | unknownError
  | nullPointer
  | inferenceError
  | invalidConfiguration
  | unsupportedOperation
  deriving DecidableEq

namespace ErrorCode

/-- The number that the library uses for a failure. -/
def code : ErrorCode → Int
  | panic => -1
  | invalidHandle => -1000
  | invalidSynthesisMode => 16
  | failedToLoadResource => 17
  | phonemizationError => 18
  | operationError => 19
  | invalidUtf8Sequence => 20
  | unknownError => 21
  | nullPointer => 22
  | inferenceError => 23
  | invalidConfiguration => 24
  | unsupportedOperation => 25

/-- All failures, in the order of the enumeration. -/
def values : List ErrorCode :=
  [panic, invalidHandle, invalidSynthesisMode, failedToLoadResource, phonemizationError,
    operationError, invalidUtf8Sequence, unknownError, nullPointer, inferenceError,
    invalidConfiguration, unsupportedOperation]

/-- The failure with a number; an unknown number is an unknown failure. -/
def fromCode (code : Int) : ErrorCode :=
  (values.find? fun value => value.code = code).getD unknownError

end ErrorCode

/-- A failure of the library, as it is thrown or handed to a handler. -/
structure DengjenException where
  code : ErrorCode
  message : String
  deriving DecidableEq

/-- An event with the memory of the library copied. -/
structure DecodedEvent where
  type : EventType
  data : List UInt8
  error : Option DengjenException
  deriving DecidableEq

/-- A handler, with the events whose bytes cannot be copied. -/
structure Handler where
  copyFails : Nat → Bool
  onEvent : Nat → Reply

/-- The copy of an event, with its bytes or its error as its kind has them. -/
def decodeEvent (event : SynthesisEvent) : Option DecodedEvent :=
  (EventType.fromValue event.eventType).map fun type =>
    { type
      data := if type = .speech ∧ event.data.length > 0 then event.data else []
      error :=
        if type = .error then
          event.errorPtr.map fun err => ⟨ErrorCode.fromCode err.code, err.message⟩
        else none }

/-- Decode the event with `i` events before it, or throw. -/
def Handler.decode (handler : Handler) (i : Nat) (event : SynthesisEvent) : Option DecodedEvent :=
  if handler.copyFails i then none else decodeEvent event

/-- One upcall: the trampoline under the id, if any, is given the event and says whether to
go on. -/
def invoke (trampoline : Option Handler) (i : Nat) (event : SynthesisEvent) :
    Dispatch DecodedEvent :=
  match trampoline with
  | none => ⟨none, false, false⟩
  | some handler =>
      match handler.decode i event with
      | none => ⟨none, false, true⟩
      | some decoded =>
          match handler.onEvent i with
          | .raised => ⟨some decoded, false, true⟩
          | .more => ⟨some decoded, true, decoded.type = .finished || decoded.type = .error⟩
          | .stop => ⟨some decoded, false, true⟩

/-- The handler has the event and asks for more. -/
def wantsMore (handler : Handler) (i : Nat) : Bool :=
  !handler.copyFails i && handler.onEvent i = .more

/-- The library sends no event that decoding throws on. -/
theorem decodeEvent_type (event : SynthesisEvent) : ∃ decoded, decodeEvent event = some decoded ∧
    (decoded.type = .finished || decoded.type = .error) = event.terminal := by
  cases event <;> exact ⟨_, rfl, rfl⟩

theorem invoke_some (handler : Handler) (i : Nat) (event : SynthesisEvent) :
    (invoke (some handler) i event).wantsMore = wantsMore handler i ∧
      (invoke (some handler) i event).releases =
        (event.terminal || !(invoke (some handler) i event).wantsMore) := by
  obtain ⟨decoded, hdecoded, hterminal⟩ := decodeEvent_type event
  rw [invoke, wantsMore, Handler.decode]
  cases handler.copyFails i with
  | true => simp
  | false =>
      simp only [Bool.false_eq_true, if_false, hdecoded]
      cases handler.onEvent i with
      | more => simpa using hterminal
      | stop | raised => simp

/-- What the upcall stub does, as the calls of both bindings share it. -/
def trampoline : Trampoline Handler DecodedEvent where
  invoke := invoke
  wantsMore := wantsMore
  invoke_speech handler i bytes := (invoke_some handler i (.speech bytes)).1
  releases_eq handler i event := (invoke_some handler i event).2

/-- The handler is called with the events whose bytes could be copied. -/
theorem handed_eq {call : SpeakRequest Handler} (i : Nat) (events : List SynthesisEvent)
    (h : ∀ j < events.length, call.handler.copyFails (i + j) = false) :
    call.handed trampoline i events = events.filterMap decodeEvent := by
  induction events generalizing i with
  | nil => rfl
  | cons event events ih =>
      obtain ⟨decoded, hdecoded, -⟩ := decodeEvent_type event
      have hfirst := h 0 (by simp)
      rw [Nat.add_zero] at hfirst
      rw [SpeakRequest.handed, ih, List.filterMap_cons, hdecoded, SpeakRequest.handedAt]
      · simp only [trampoline, invoke, Handler.decode, hfirst, Bool.false_eq_true, if_false,
          hdecoded]
        cases call.handler.onEvent i <;> rfl
      · intro j hj
        have := h (j + 1) (by simpa using hj)
        rwa [Nat.add_comm j, ← Nat.add_assoc] at this

theorem handedAt_eq_nil {call : SpeakRequest Handler} {i : Nat}
    (h : call.handler.copyFails i = true) (event : SynthesisEvent) :
    call.handedAt trampoline i event = [] := by
  simp only [SpeakRequest.handedAt, trampoline, invoke, Handler.decode, h, if_true,
    Option.toList_none]

/-- The handler sees every event that was freed, but for a last one that could not be copied. -/
theorem handed_of_callSafe {call : SpeakRequest Handler} {slot : Slot Handler}
    {s : CallState Handler DecodedEvent} (h : CallSafe trampoline call slot s) :
    ∃ seen failed, s.freed = seen ++ failed ∧ s.handed = seen.filterMap decodeEvent ∧
      failed.length ≤ 1 ∧ (failed ≠ [] → call.handler.copyFails seen.length = true) := by
  have hcopied (i : Nat) (hlt : i + 1 < s.freed.length) : call.handler.copyFails i = false := by
    have hmore := (h.last i s.freed[i] (List.getElem?_eq_getElem _) hlt).2
    simp only [trampoline, wantsMore, Bool.and_eq_true, Bool.not_eq_true'] at hmore
    exact hmore.1
  rw [h.handed]
  rcases List.eq_nil_or_concat s.freed with hnil | ⟨init, last, hfreed⟩
  · exact ⟨[], [], by simp [hnil], by simp [hnil, SpeakRequest.handed], by simp, by simp⟩
  · rw [hfreed, List.concat_eq_append] at hcopied ⊢
    have hinit : call.handed trampoline 0 init = init.filterMap decodeEvent :=
      handed_eq 0 init fun j hj => by
        rw [Nat.zero_add]
        exact hcopied j (by simp; omega)
    cases hlast : call.handler.copyFails init.length with
    | true =>
        refine ⟨init, [last], rfl, ?_, by simp, fun _ => hlast⟩
        rw [handed_concat, hinit, Nat.zero_add, handedAt_eq_nil hlast, List.append_nil]
    | false =>
        refine ⟨init ++ [last], [], by simp, handed_eq 0 _ fun j hj => ?_, by simp, by simp⟩
        rw [Nat.zero_add]
        rw [List.length_append, List.length_singleton] at hj
        rcases Nat.lt_succ_iff_lt_or_eq.mp hj with hlt | rfl
        · exact hcopied j (by simp; omega)
        · exact hlast

variable {C : Type*} [DecidableEq C] {calls : C → SpeakRequest Handler}
  {r : Shared C Handler (CallState Handler DecodedEvent)}

/-- In any interleaving of any number of `speak` calls, each is safe, its handler is called with
the events that were freed, and the registry has the ids of the calls that hold one. -/
theorem trampolines_safe (h : CallsReachable trampoline calls r) :
    (∀ c, CallSafe trampoline (calls c) (r.slot c) (r.client c) ∧
      ∃ seen failed, (r.client c).freed = seen ++ failed ∧
        (r.client c).handed = seen.filterMap decodeEvent ∧ failed.length ≤ 1 ∧
        (failed ≠ [] → (calls c).handler.copyFails seen.length = true)) ∧
    (∀ id handler, r.entries id = some handler ↔
      ∃ c, r.token c = some id ∧ r.slot c = .held handler) ∧
    ((∀ c, (r.client c).phase ≠ .before → (r.client c).Complete) →
      ∀ id, r.entries id = none) := by
  refine ⟨fun c => ?_, entries_iff_of_reachable h, entries_eq_none_of_complete h⟩
  have hsafe := callSafe_of_reachable h c
  exact ⟨hsafe, handed_of_callSafe hsafe⟩

/-- A nonblocking call that the library refuses. -/
def refusedCall : SpeakRequest Handler where
  handler := ⟨fun _ => false, fun _ => .more⟩
  nonblocking := true
  refused := some .invalidUtf8
  synthesis :=
    { text := ""
      params := ⟨0, 50, 50, 50, 0⟩
      synthesizeSamples := fun _ _ _ => .returned (.ok [])
      defaultBatchSize := ⟨1, Nat.one_pos⟩
      asWaveBytes := fun _ => []
      answer := fun _ => 0
      isClosing := fun _ => false }
  panicError := fun message => ⟨-1, message⟩

theorem trampolines_safe_refusedCall : ∃ r : Shared Unit Handler (CallState Handler DecodedEvent),
    CallsReachable trampoline (fun _ => refusedCall) r ∧ (r.client ()).Complete ∧
      ∀ id, r.entries id = none := by
  have start : CallsReachable trampoline (fun _ : Unit => refusedCall)
      (Shared.initial fun _ => CallState.initial) := Reachable.of_init rfl
  have registered := start.next (.register (c := ()) rfl (.register rfl))
  have failed := registered.next (.remove (c := ()) rfl (.fail _ rfl rfl ⟨rfl, rfl⟩))
  exact ⟨_, failed, ⟨rfl, rfl, rfl⟩, (trampolines_safe failed).2.2 fun _ _ => ⟨rfl, rfl, rfl⟩⟩

end Dengjen.Bindings.Java

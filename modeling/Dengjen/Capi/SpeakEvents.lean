import Dengjen.Capi.FfiError
import Dengjen.Synth.AudioOutputConfig
import Mathlib.Data.PNat.Basic

/-!
# The events of a speak call

`libdengjenSpeak` hands the results of a stream to the caller's callback, one
SPEECH event each, and ends with FINISHED, with ERROR, or with a callback that
answers nonzero. A nonblocking call does so in a worker that reports its own
failure as an event; a blocking call returns it instead.

## Implementation notes

The stream is the list of its results, which a panic may end. The answers of the
callback and the moments at which the voice is seen closing are arbitrary, by
the number of SPEECH events before them.
-/

namespace Dengjen.Capi.SpeakEvents

open Synth

/-- What a callback is called with. -/
inductive SynthesisEvent
  | speech (bytes : List UInt8)
  | finished
  | error (error : DengjenFFIError)
  deriving DecidableEq

/-- The modes of a call. -/
inductive StreamMode
  | lazy
  | parallel
  | realtime (chunkSize chunkPadding : Nat)
  | batched (batchSize : ℕ+)

/-- The parameters of a call that the synthesis depends on. -/
structure SynthesisParams where
  mode : Int
  rate : UInt8
  volume : UInt8
  pitch : UInt8
  appendedSilenceMs : Nat

/-- The prosody of a call; no field is left to the voice. -/
def SynthesisParams.asSynthOutputConfig (params : SynthesisParams) : AudioOutputConfig where
  rate := some params.rate
  volume := some params.volume
  pitch := some params.pitch
  appendedSilenceMs := some params.appendedSilenceMs

/-- A call, and everything outside it that its events depend on. -/
structure SpeakCall where
  text : String
  params : SynthesisParams
  synthesizeSamples :
    String → Option AudioOutputConfig → StreamMode → Outcome (DengjenResult AudioStream)
  defaultBatchSize : ℕ+
  asWaveBytes : AudioSamples → List UInt8
  /-- The answer of the callback to a SPEECH event. -/
  answer : Nat → UInt8
  /-- Whether the voice is closing when a result is looked at. -/
  isClosing : Nat → Bool

/-- The chunk size of a realtime call. -/
def realtimeChunkSize : Nat := 72
/-- The chunk padding of a realtime call. -/
def realtimeChunkPadding : Nat := 3

namespace SpeakCall

variable (call : SpeakCall)

/-- The mode of a call, which has to be a known one. -/
def streamMode : Option StreamMode :=
  if call.params.mode = 0 then some .lazy
  else if call.params.mode = 1 then some .parallel
  else if call.params.mode = 3 then some (.batched call.defaultBatchSize)
  else if call.params.mode = 2 then some (.realtime realtimeChunkSize realtimeChunkPadding)
  else none

/-- The stream of the call, the error that prevents it, or a panic. -/
def createStream : Outcome (DengjenFFIResult AudioStream) :=
  match call.streamMode with
  | none => .returned (.error .invalidSynthesisMode)
  | some mode =>
      match call.synthesizeSamples call.text (some call.params.asSynthOutputConfig) mode with
      | .panicked message => .panicked message
      | .returned (.error error) => .returned (.error (.ofDengjenError error))
      | .returned (.ok stream) => .returned (.ok stream)

/-- The events of a stream after `sent` SPEECH events, and how the loop ends. -/
def iterateStream : Nat → AudioStream → List SynthesisEvent × Outcome (DengjenFFIResult Unit)
  | _, [] => ([.finished], .returned (.ok ()))
  | _, .panicked message :: _ => ([], .panicked message)
  | sent, .returned item :: stream =>
      if call.isClosing sent then ([.finished], .returned (.ok ()))
      else
        match item with
        | .error error => ([.error (.ofDengjenError error)], .returned (.ok ()))
        | .ok audio =>
            if call.answer sent = 0 then
              let (events, outcome) := iterateStream (sent + 1) stream
              (.speech (call.asWaveBytes audio) :: events, outcome)
            else ([.speech (call.asWaveBytes audio)], .returned (.ok ()))

/-- A call whose stream cannot be created has no event. -/
def doSynthesize : List SynthesisEvent × Outcome (DengjenFFIResult Unit) :=
  match call.createStream with
  | .panicked message => ([], .panicked message)
  | .returned (.error error) => ([], .returned (.error error))
  | .returned (.ok stream) => call.iterateStream 0 stream

/-- The events a nonblocking worker delivers. -/
def worker : List SynthesisEvent :=
  match call.doSynthesize with
  | (events, .returned (.ok ())) => events
  | (events, .returned (.error error)) => events ++ [.error error]
  | (events, .panicked message) => events ++ [.error (.ofDengjenError (workerPanic message))]

/-- The events and the result of a blocking call. `call_with_result` makes an error of a panic. -/
def blocking (panicError : String → DengjenFFIError) :
    List SynthesisEvent × DengjenFFIResult Unit :=
  match call.doSynthesize with
  | (events, .returned result) => (events, result)
  | (events, .panicked message) => (events, .error (panicError message))

/-- The loop over the stream, after `sent` SPEECH events, comes to this result: everything before
it was spoken, the voice was not closing and the callback wanted more. -/
inductive Reaches : Nat → AudioStream → Outcome (DengjenResult AudioSamples) → Prop
  | here (sent item stream) : Reaches sent (item :: stream) item
  | later {sent audio stream item} (hopen : call.isClosing sent = false)
      (hmore : call.answer sent = 0) (tail : Reaches (sent + 1) stream item) :
      Reaches sent (.returned (.ok audio) :: stream) item

/-- The synthesis failed: there is no stream, or the loop comes to an error or a panic. -/
def Failed : Prop :=
  match call.createStream with
  | .returned (.ok stream) =>
      (∃ error, call.Reaches 0 stream (.returned (.error error))) ∨
        ∃ message, call.Reaches 0 stream (.panicked message)
  | _ => True

end SpeakCall

/-- The events after `sent` SPEECH events: any number of SPEECH events answered with zero, then
one terminal event or a SPEECH event answered with nonzero. -/
inductive Grammar (answer : Nat → UInt8) : Nat → List SynthesisEvent → Prop
  | finished (sent) : Grammar answer sent [.finished]
  | error (sent error) : Grammar answer sent [.error error]
  | stopped {sent} (bytes) (h : answer sent ≠ 0) : Grammar answer sent [.speech bytes]
  | speech {sent events} (bytes) (h : answer sent = 0) (tail : Grammar answer (sent + 1) events) :
      Grammar answer sent (.speech bytes :: events)

/-- Only SPEECH events, all answered with zero. -/
inductive Unterminated (answer : Nat → UInt8) : Nat → List SynthesisEvent → Prop
  | nil (sent) : Unterminated answer sent []
  | speech {sent events} (bytes) (h : answer sent = 0)
      (tail : Unterminated answer (sent + 1) events) :
      Unterminated answer sent (.speech bytes :: events)

section Grammar

variable {answer : Nat → UInt8} {sent : Nat} {events : List SynthesisEvent}

/-- An unfinished sequence may end with an error. -/
theorem Unterminated.append_error (h : Unterminated answer sent events)
    (error : DengjenFFIError) : Grammar answer sent (events ++ [.error error]) := by
  induction h with
  | nil sent => exact .error sent error
  | speech bytes h _ ih => exact .speech bytes h ih

theorem Unterminated.no_error (h : Unterminated answer sent events) (error : DengjenFFIError) :
    .error error ∉ events := by
  induction h with
  | nil => exact List.not_mem_nil
  | speech _ _ _ ih => simpa using ih

/-- The loop over a stream that it comes to no panic of delivers a complete sequence, and one
before a panic an unfinished one. -/
theorem iterateStream_events (call : SpeakCall) (sent : Nat) (stream : AudioStream) :
    (∃ events, call.iterateStream sent stream = (events, .returned (.ok ())) ∧
      Grammar call.answer sent events ∧ (∀ message, ¬call.Reaches sent stream (.panicked message)) ∧
      ∀ error, .error error ∈ events →
        ∃ cause, call.Reaches sent stream (.returned (.error cause))) ∨
    ∃ events message, call.iterateStream sent stream = (events, .panicked message) ∧
      Unterminated call.answer sent events ∧ call.Reaches sent stream (.panicked message) := by
  induction stream generalizing sent with
  | nil => exact .inl ⟨_, rfl, .finished sent, nofun, by simp⟩
  | cons item stream ih =>
      cases item with
      | panicked message => exact .inr ⟨_, message, rfl, .nil sent, .here sent _ stream⟩
      | returned item =>
          by_cases hclosing : call.isClosing sent
          · have hnone : ∀ message,
                ¬call.Reaches sent (.returned item :: stream) (.panicked message) := by
              intro message hreaches
              cases hreaches with
              | later hopen => exact absurd hclosing (Bool.eq_false_iff.mp hopen)
            refine .inl ⟨[.finished], ?_, .finished sent, hnone, by simp⟩
            simp only [SpeakCall.iterateStream, hclosing, if_true]
          · cases item with
            | error error =>
                refine .inl ⟨[.error (.ofDengjenError error)], ?_, .error sent _, nofun, ?_⟩
                · simp only [SpeakCall.iterateStream, hclosing, Bool.false_eq_true, if_false]
                · exact fun _ _ => ⟨error, .here sent _ stream⟩
            | ok audio =>
                have hopen : call.isClosing sent = false := Bool.eq_false_iff.mpr hclosing
                by_cases hmore : call.answer sent = 0
                · have hstep : call.iterateStream sent (.returned (.ok audio) :: stream) =
                      (.speech (call.asWaveBytes audio) ::
                        (call.iterateStream (sent + 1) stream).1,
                        (call.iterateStream (sent + 1) stream).2) := by
                    simp only [SpeakCall.iterateStream, hclosing, hmore, Bool.false_eq_true,
                      if_false, if_true]
                  rw [hstep]
                  rcases ih (sent + 1) with ⟨events, hevents, hgrammar, hnone, herror⟩ |
                    ⟨events, message, hevents, hunterminated, hpanic⟩
                  · rw [hevents]
                    refine .inl ⟨_, rfl, .speech _ hmore hgrammar, ?_, fun error hmem => ?_⟩
                    · intro message hreaches
                      cases hreaches with
                      | later _ _ tail => exact hnone message tail
                    · obtain ⟨cause, hcause⟩ := herror error (by simpa using hmem)
                      exact ⟨cause, .later hopen hmore hcause⟩
                  · rw [hevents]
                    exact .inr ⟨_, message, rfl, .speech _ hmore hunterminated,
                      .later hopen hmore hpanic⟩
                · have hnone : ∀ message,
                      ¬call.Reaches sent (.returned (.ok audio) :: stream) (.panicked message) := by
                    intro message hreaches
                    cases hreaches with
                    | later _ hanswer => exact hmore hanswer
                  refine .inl ⟨[.speech (call.asWaveBytes audio)], ?_, .stopped _ hmore, hnone,
                    by simp⟩
                  simp only [SpeakCall.iterateStream, hclosing, hmore, Bool.false_eq_true,
                    if_false]

/-- No more than one panic is come to. -/
theorem reaches_panicked_unique (call : SpeakCall) {stream : AudioStream} {message other : String}
    (h : call.Reaches sent stream (.panicked message))
    (hother : call.Reaches sent stream (.panicked other)) : message = other := by
  induction stream generalizing sent with
  | nil => cases h
  | cons item stream ih =>
      cases h with
      | here =>
          cases hother
          rfl
      | later _ _ tail =>
          cases hother with
          | later _ _ hother => exact ih tail hother

end Grammar

section Speak

variable (call : SpeakCall)

/-- A call has no stream, drains one, or meets a panic on the way. -/
inductive Synthesized : List SynthesisEvent → Outcome (DengjenFFIResult Unit) → Prop
  | refused {error} (hcreate : call.createStream = .returned (.error error)) :
      Synthesized [] (.returned (.error error))
  | panickedAtOnce {message} (hcreate : call.createStream = .panicked message) :
      Synthesized [] (.panicked message)
  | drained {stream events} (hcreate : call.createStream = .returned (.ok stream))
      (hnone : ∀ message, ¬call.Reaches 0 stream (.panicked message))
      (hgrammar : Grammar call.answer 0 events)
      (herror : ∀ error, .error error ∈ events →
        ∃ cause, call.Reaches 0 stream (.returned (.error cause))) :
      Synthesized events (.returned (.ok ()))
  | panicked {stream events message} (hcreate : call.createStream = .returned (.ok stream))
      (hpanic : call.Reaches 0 stream (.panicked message))
      (hevents : Unterminated call.answer 0 events) : Synthesized events (.panicked message)

theorem synthesized_doSynthesize :
    Synthesized call call.doSynthesize.1 call.doSynthesize.2 := by
  rw [SpeakCall.doSynthesize]
  cases hcreate : call.createStream with
  | panicked message => exact .panickedAtOnce hcreate
  | returned created =>
      cases created with
      | error error => exact .refused hcreate
      | ok stream =>
          dsimp only
          rcases iterateStream_events call 0 stream with
            ⟨events, hevents, hgrammar, hnone, herror⟩ | ⟨events, message, hevents, hun, hpanic⟩
          · rw [hevents]
            exact .drained hcreate hnone hgrammar herror
          · rw [hevents]
            exact .panicked hcreate hpanic hun

theorem worker_grammar : Grammar call.answer 0 call.worker ∧
    ∀ error, .error error ∈ call.worker → call.Failed := by
  have h := synthesized_doSynthesize call
  rw [SpeakCall.worker]
  generalize call.doSynthesize = done at h
  obtain ⟨events, outcome⟩ := done
  cases h with
  | @refused error hcreate =>
      exact ⟨.error 0 error, fun _ _ => by simp only [SpeakCall.Failed, hcreate]⟩
  | panickedAtOnce hcreate =>
      exact ⟨.error 0 _, fun _ _ => by simp only [SpeakCall.Failed, hcreate]⟩
  | drained hcreate _ hgrammar herror =>
      refine ⟨hgrammar, fun error hmem => ?_⟩
      simp only [SpeakCall.Failed, hcreate]
      exact .inl (herror error hmem)
  | panicked hcreate hpanic hevents =>
      refine ⟨hevents.append_error _, fun _ _ => ?_⟩
      simp only [SpeakCall.Failed, hcreate]
      exact .inr ⟨_, hpanic⟩

/-- A blocking call, case by case. -/
structure BlockingCall (panicError : String → DengjenFFIError) (events : List SynthesisEvent)
    (result : DengjenFFIResult Unit) : Prop where
  /-- A failure before the stream exists is the call's error, and there is no event. -/
  refused : ∀ error, call.createStream = .returned (.error error) →
    events = [] ∧ result = .error error
  /-- So is a panic before the stream exists. -/
  panickedAtOnce : ∀ message, call.createStream = .panicked message →
    events = [] ∧ result = .error (panicError message)
  /-- A panic between the results ends the SPEECH events, and is the call's error. -/
  panicked : ∀ stream message, call.createStream = .returned (.ok stream) →
    call.Reaches 0 stream (.panicked message) →
      Unterminated call.answer 0 events ∧ result = .error (panicError message)
  /-- Any other call succeeds with the events of a nonblocking one. -/
  drained : ∀ stream, call.createStream = .returned (.ok stream) →
    (∀ message, ¬call.Reaches 0 stream (.panicked message)) →
      events = call.worker ∧ Grammar call.answer 0 events ∧ result = .ok ()
  /-- An ERROR event is of a result that is an error. -/
  failed : ∀ error, .error error ∈ events → ∃ stream cause,
    call.createStream = .returned (.ok stream) ∧
      call.Reaches 0 stream (.returned (.error cause))

theorem blockingCall_blocking (panicError : String → DengjenFFIError) :
    BlockingCall call panicError (call.blocking panicError).1 (call.blocking panicError).2 := by
  have h := synthesized_doSynthesize call
  have hworker : ∀ {events}, call.doSynthesize = (events, .returned (.ok ())) →
      events = call.worker := by
    intro events hdone
    rw [SpeakCall.worker, hdone]
  rw [SpeakCall.blocking]
  generalize call.doSynthesize = done at h hworker
  obtain ⟨events, outcome⟩ := done
  cases h with
  | refused hcreate => constructor <;> simp [hcreate]
  | panickedAtOnce hcreate => constructor <;> simp [hcreate]
  | drained hcreate hnone hgrammar herror =>
      constructor
      · simp [hcreate]
      · simp [hcreate]
      · intro stream message hother hreaches
        cases hcreate.symm.trans hother
        exact absurd hreaches (hnone message)
      · exact fun _ _ _ => ⟨hworker rfl, hgrammar, rfl⟩
      · intro error hmem
        obtain ⟨cause, hcause⟩ := herror error hmem
        exact ⟨_, cause, hcreate, hcause⟩
  | @panicked _ _ message hcreate hpanic hevents =>
      constructor
      · simp [hcreate]
      · simp [hcreate]
      · intro stream other hother hreaches
        cases hcreate.symm.trans hother
        cases reaches_panicked_unique call hpanic hreaches
        exact ⟨hevents, rfl⟩
      · intro stream hother hnone
        cases hcreate.symm.trans hother
        exact absurd hpanic (hnone message)
      · exact fun error hmem => absurd hmem (hevents.no_error error)

/-- The events of a nonblocking worker, and those of a blocking call with its result. -/
theorem speak_event_grammar (panicError : String → DengjenFFIError) :
    (Grammar call.answer 0 call.worker ∧
      ∀ error, .error error ∈ call.worker → call.Failed) ∧
    BlockingCall call panicError (call.blocking panicError).1 (call.blocking panicError).2 :=
  ⟨worker_grammar call, blockingCall_blocking call panicError⟩

end Speak

end Dengjen.Capi.SpeakEvents

import Dengjen.Audio.Samples
import Dengjen.General.BoundedChannel
import Dengjen.Grpc.Registry
import Dengjen.Synth.Realtime
import Dengjen.Synth.SpeechStreams

/-!
# The delivery of a synthesis

`SynthesizeUtterance` checks its request and hands the synthesis to a task of the
blocking pool, which sends what the stream of the requested mode yields into a
bounded channel that the response of the request takes its messages from. The
client may read slowly, and may go away.

## Implementation notes

The options of the voice stay as they are while the request is served. The wall-clock
time in a chunk's real-time factor is a parameter.
-/

namespace Dengjen.Grpc.Delivery

open Synth Iteration TransitionSystem BoundedChannel

/-! ## The status of an error -/

/-- The codes of a status that the server answers with. -/
inductive Code
  | aborted
  | internal
  | invalidArgument
  | unimplemented
  | unknown
  | notFound
  | resourceExhausted
  deriving DecidableEq, Repr

/-- A code and its message. -/
structure Status where
  code : Code
  message : String
  deriving DecidableEq, Repr

/-- `impl From<DengjenGrpcError> for Status`: a client gets the message of the category only. -/
def Status.ofError : DengjenGrpcError → Status
  | .dengjenError error =>
      match error.kind with
      | .failedToLoadResource _ => ⟨.aborted, error.message⟩
      | .phonemizationError _ => ⟨.aborted, error.message⟩
      | .inferenceError _ => ⟨.internal, error.message⟩
      | .invalidConfiguration _ => ⟨.invalidArgument, error.message⟩
      | .unsupportedOperation _ => ⟨.unimplemented, error.message⟩
      | _ => ⟨.unknown, error.message⟩
  | .voiceNotFound msg => ⟨.notFound, msg⟩
  | .invalidArgument msg => ⟨.invalidArgument, msg⟩
  | .resourceExhausted msg => ⟨.resourceExhausted, msg⟩

/-- What the server answers: a message or a status. -/
abbrev Response (α : Type*) := Except Status α

/-- The conversion that `?` makes in a handler. -/
def respond {α : Type*} (result : DengjenGrpcResult α) : Response α :=
  result.mapError Status.ofError

/-! ## The request -/

/-- The prosody that a request may ask for. -/
structure ProsodyControls where
  rate : Option UInt32
  volume : Option UInt32
  pitch : Option UInt32
  appendedSilenceMs : Option UInt32

/-- The modes of a request. -/
inductive SynthesisMode
  | modeUnspecified
  | modeLazy
  | modeParallel
  | modeBatched
  deriving DecidableEq, Repr

/-- A request to synthesize an utterance. -/
structure SynthesisRequest where
  voiceKey : String
  text : String
  prosody : Option ProsodyControls
  synthesisMode : Int
  batchSize : Option UInt32

/-- A value of the prosody, which has to be at most 100. -/
def narrowProsodyValue (name : String) (value : UInt32) : Except String UInt8 :=
  if value ≤ 100 then .ok value.toUInt8
  else .error s!"`{name}` must be in the range 0-100, got {value}"

/-- The prosody of a request as the synthesizer takes it. -/
def outputConfigFromProsody : Option ProsodyControls → Except String (Option AudioOutputConfig)
  | none => .ok none
  | some args => do
      let rate ← args.rate.mapM (narrowProsodyValue "rate")
      let volume ← args.volume.mapM (narrowProsodyValue "volume")
      let pitch ← args.pitch.mapM (narrowProsodyValue "pitch")
      pure (some ⟨rate, volume, pitch, args.appendedSilenceMs.map UInt32.toNat⟩)

/-- `SynthesisMode::try_from` -/
def SynthesisMode.tryFrom (value : Int) : Option SynthesisMode :=
  if value = 0 then some .modeUnspecified
  else if value = 1 then some .modeLazy
  else if value = 2 then some .modeParallel
  else if value = 3 then some .modeBatched
  else none

/-- The batch size of a request, or the default one. -/
def resolveBatchSize (defaultBatchSize : ℕ+) : Option UInt32 → DengjenGrpcResult ℕ+
  | none => .ok defaultBatchSize
  | some n =>
      if h : 0 < n.toNat then .ok ⟨n.toNat, h⟩
      else .error (.dengjenError (.invalidConfiguration "batch_size must be greater than zero"))

/-- The mode of a request, which has to be a known one. -/
def recognizedMode (value : Int) : Response SynthesisMode :=
  match SynthesisMode.tryFrom value with
  | some mode => .ok mode
  | none => .error ⟨.invalidArgument, s!"Unrecognized synthesis_mode value: {value}"⟩

/-- The server, as one request finds it. -/
structure Service where
  voices : Voices
  maxTextBytes : Nat
  maxConcurrentSynthesis : Nat
  availablePermits : Nat

/-- A text may have only so many bytes. -/
def Service.checkTextSize (service : Service) (text : String) : DengjenGrpcResult Unit :=
  if text.utf8ByteSize > service.maxTextBytes then
    .error (.invalidArgument
      (s!"Request text is {text.utf8ByteSize} bytes; " ++
        s!"the limit is {service.maxTextBytes} bytes"))
  else .ok ()

/-- A task needs one of the permits. -/
def Service.acquireSynthesisPermit (service : Service) : DengjenGrpcResult Unit :=
  if 0 < service.availablePermits then .ok ()
  else .error (Registry.tooManySynthesisTasks service.maxConcurrentSynthesis)

/-- What the task on the blocking pool was given. -/
structure Job where
  voice : Voice
  text : String
  outputConfig : Option AudioOutputConfig
  mode : SynthesisMode
  batchSize : Option UInt32

/-- What a synthesis uses that is no part of the request. -/
structure Host where
  ops : AudioOps
  synthesisThreadPool : ThreadPool
  defaultBatchSize : ℕ+
  realTimeFactor : Audio → Option F32

/-- Accepts a request, as a job for a task, or refuses it with a status. -/
def Host.synthesizeUtterance (host : Host) (service : Service) (req : SynthesisRequest) :
    Response Job := do
  let outputConfig ← (outputConfigFromProsody req.prosody).mapError (Status.mk .invalidArgument)
  let mode ← recognizedMode req.synthesisMode
  -- A batch size that is refused is refused before there is a stream to answer with.
  (if mode = .modeBatched then
    respond ((resolveBatchSize host.defaultBatchSize req.batchSize).map fun _ => ())
  else .ok ())
  respond (service.checkTextSize req.text)
  let voice ← respond (findVoice service.voices req.voiceKey)
  respond service.acquireSynthesisPermit
  pure ⟨voice, req.text, outputConfig, mode, req.batchSize⟩

/-! ## The streams of the three modes -/

/-- The stream of the mode that was asked for. -/
inductive SynthesisStream (σ : Type*)
  | lazy (stream : DengjenSpeechStreamLazy σ)
  | parallel (stream : DengjenSpeechStreamParallel)
  | batched (stream : DengjenSpeechStreamBatched σ)

namespace SynthesisStream

variable {σ : Type*}

/-- One pull of whatever stream it is. -/
def next (pool : ThreadPool) :
    SynthesisStream σ → Option (DengjenResult Audio) × SynthesisStream σ
  | lazy stream => stream.next.map id lazy
  | parallel stream => stream.next.map id parallel
  | batched stream => (stream.next pool).map id batched

end SynthesisStream

/-- What the streams of a job work on. -/
def Job.provider (host : Host) (job : Job) : SpeechSynthesisTaskProvider job.voice.backend.State :=
  ⟨host.ops, job.voice.backend.model, job.voice.state, job.text, job.outputConfig⟩

/-- The stream of a job, in the mode of its request. -/
def Job.buildSynthesisStream (host : Host) (job : Job) :
    DengjenGrpcResult (SynthesisStream job.voice.backend.State) :=
  match job.mode with
  | .modeUnspecified | .modeLazy =>
      ofModel ((DengjenSpeechStreamLazy.new (job.provider host)).map .lazy)
  | .modeParallel =>
      ofModel ((DengjenSpeechStreamParallel.new host.synthesisThreadPool (job.provider host)).map
        .parallel)
  | .modeBatched =>
      match resolveBatchSize host.defaultBatchSize job.batchSize with
      | .error error => .error error
      | .ok batchSize =>
          ofModel ((DengjenSpeechStreamBatched.new (job.provider host) batchSize).map .batched)

/-! ## The task -/

/-- Where the task is: before its stream is built, in the loop of `drain_stream_into_channel`, or
done. -/
inductive Task (S : Type*)
  | building
  | draining (stream : S)
  | returned

section Task

variable {S Chunk Message : Type*} (built : DengjenGrpcResult S)
  (pull : S → Option (DengjenResult Chunk) × S) (toMessage : Chunk → Message)

/-- One round of the loop of `drain_stream_into_channel`, up to its `blocking_send`. -/
def drainStreamIntoChannel (stream : S) : Option (Response Message) × Task S :=
  match pull stream with
  | (none, _) => (none, .returned)
  | (some (.ok chunk), stream) => (some (.ok (toMessage chunk)), .draining stream)
  | (some (.error error), _) => (some (.error (.ofError (.dengjenError error))), .returned)

/-- The message the task sends next. -/
def Task.next : Task S → Option (Response Message) × Task S
  | building =>
      match built with
      | .error error => (some (.error (.ofError error)), .returned)
      | .ok stream => drainStreamIntoChannel pull toMessage stream
  | draining stream => drainStreamIntoChannel pull toMessage stream
  | returned => (none, .returned)

/-- The messages for what a stream yields: there is none after an error. -/
def messages : List (DengjenResult Chunk) → List (Response Message)
  | [] => []
  | .ok chunk :: rest => .ok (toMessage chunk) :: messages rest
  | .error error :: _ => [.error (.ofError (.dengjenError error))]

variable {pull toMessage}

theorem drains_returned : Drains (Task.next built pull toMessage) .returned [] := .done rfl

theorem drains_draining {stream : S} {results : List (DengjenResult Chunk)}
    (h : Drains pull stream results) :
    Drains (Task.next built pull toMessage) (.draining stream) (messages toMessage results) := by
  induction h with
  | @done stream hnone =>
      refine .done ?_
      rw [Task.next, drainStreamIntoChannel]
      cases hnext : pull stream with
      | mk item stream' =>
          rw [hnext] at hnone
          cases hnone
          rfl
  | @yield stream result stream' results hnext _ ih =>
      cases result with
      | ok chunk =>
          refine .yield ?_ ih
          rw [Task.next, drainStreamIntoChannel, hnext]
      | error error =>
          refine .yield ?_ (drains_returned built)
          rw [Task.next, drainStreamIntoChannel, hnext]

/-- A stream that was built is drained from the first call on. -/
theorem drains_built {stream : S} {results : List (DengjenResult Chunk)}
    (h : Drains pull stream results) :
    Drains (Task.next (.ok stream) pull toMessage) .building (messages toMessage results) :=
  (drains_draining _ h).of_next_eq rfl

theorem drains_unbuilt (error : DengjenGrpcError) :
    Drains (Task.next (.error error) pull toMessage) .building [.error (.ofError error)] :=
  .yield rfl (drains_returned _)

end Task

/-! ## What a client is to get -/

/-- A message: the bytes of a chunk and how long its synthesis took. -/
structure SynthesisChunk where
  audioBytes : List UInt8
  realTimeFactor : F32
  deriving DecidableEq, Repr

/-- The message of a chunk. -/
def Host.synthesisChunk (host : Host) (wav : Audio) : SynthesisChunk :=
  ⟨AudioSamples.asWaveBytes wav.samples, (host.realTimeFactor wav).getD ⟨0⟩⟩

/-- One step of a job's task, which builds its stream and then pulls it. -/
def Job.next (host : Host) (job : Job) :=
  Task.next (job.buildSynthesisStream host) (SynthesisStream.next host.synthesisThreadPool)
    host.synthesisChunk

/-- The chunks of the sentences in order, up to the first error. -/
def Job.answer (host : Host) (job : Job) : List (Response SynthesisChunk) :=
  match (job.provider host).getPhonemes with
  | .error error => [.error (.ofError (.dengjenError error))]
  | .ok sentences => messages host.synthesisChunk (sequentialResults (job.provider host) sentences)

variable {host : Host} {service : Service} {req : SynthesisRequest} {job : Job}

/-- The batch size of a request that was let through is not refused later. -/
theorem batchSize_of_accepted (h : host.synthesizeUtterance service req = .ok job)
    (hmode : job.mode = .modeBatched) :
    ∃ batchSize, resolveBatchSize host.defaultBatchSize job.batchSize = .ok batchSize := by
  obtain ⟨outputConfig, -, h⟩ := exists_of_bind_eq_ok h
  obtain ⟨mode, -, h⟩ := exists_of_bind_eq_ok h
  obtain ⟨_, hchecked, h⟩ := exists_of_bind_eq_ok h
  obtain ⟨_, -, h⟩ := exists_of_bind_eq_ok h
  obtain ⟨voice, -, h⟩ := exists_of_bind_eq_ok h
  obtain ⟨_, -, h⟩ := exists_of_bind_eq_ok h
  cases h
  rw [if_pos hmode] at hchecked
  dsimp only
  cases hresolved : resolveBatchSize host.defaultBatchSize req.batchSize with
  | ok batchSize => exact ⟨batchSize, rfl⟩
  | error error =>
      rw [hresolved] at hchecked
      cases hchecked

/-- Every mode of an accepted request streams the results of its sentences in order. -/
theorem buildSynthesisStream_of_accepted (hpool : host.synthesisThreadPool = .ok ())
    (h : host.synthesizeUtterance service req = .ok job) :
    (∃ error, (job.provider host).getPhonemes = .error error ∧
      job.buildSynthesisStream host = .error (.dengjenError error)) ∨
    ∃ sentences stream, (job.provider host).getPhonemes = .ok sentences ∧
      job.buildSynthesisStream host = .ok stream ∧
      Drains (SynthesisStream.next host.synthesisThreadPool) stream
        (sequentialResults (job.provider host) sentences) := by
  rw [Job.buildSynthesisStream, hpool]
  cases hphonemes : (job.provider host).getPhonemes with
  | error error =>
      refine .inl ⟨error, rfl, ?_⟩
      cases hmode : job.mode with
      | modeUnspecified | modeLazy =>
          simp only [DengjenSpeechStreamLazy.new, hphonemes]
          rfl
      | modeParallel =>
          simp only [DengjenSpeechStreamParallel.new, hphonemes]
          rfl
      | modeBatched =>
          obtain ⟨batchSize, hbatchSize⟩ := batchSize_of_accepted h hmode
          simp only [hbatchSize, DengjenSpeechStreamBatched.new, hphonemes]
          rfl
  | ok sentences =>
      refine .inr ⟨sentences, ?_⟩
      cases hmode : job.mode with
      | modeUnspecified | modeLazy =>
          have hlazy := drains_lazy ⟨job.provider host, sentences, 0⟩
          simp only [DengjenSpeechStreamLazy.new, hphonemes]
          exact ⟨_, trivial, rfl, Drains.wrap (f := SynthesisStream.lazy) (fun _ => rfl) hlazy⟩
      | modeParallel =>
          have hparallel := drains_parallel (sequentialResults (job.provider host) sentences)
          simp only [DengjenSpeechStreamParallel.new, hphonemes]
          exact ⟨_, trivial, rfl, Drains.wrap (f := SynthesisStream.parallel) (fun _ => rfl) hparallel⟩
      | modeBatched =>
          obtain ⟨batchSize, hbatchSize⟩ := batchSize_of_accepted h hmode
          have hbatched := drains_batched ⟨job.provider host, sentences, batchSize, [], 0⟩
          simp only [hbatchSize, DengjenSpeechStreamBatched.new, hphonemes]
          exact ⟨_, trivial, rfl, Drains.wrap (f := SynthesisStream.batched) (fun _ => rfl) hbatched⟩

theorem drains_answer (hpool : host.synthesisThreadPool = .ok ())
    (h : host.synthesizeUtterance service req = .ok job) :
    Drains (job.next host) .building (job.answer host) := by
  rw [Job.next, Job.answer]
  rcases buildSynthesisStream_of_accepted hpool h with
    ⟨error, hphonemes, hbuilt⟩ | ⟨sentences, stream, hphonemes, hbuilt, hdrains⟩
  · rw [hphonemes, hbuilt]
    exact drains_unbuilt _
  · rw [hphonemes, hbuilt]
    exact drains_built hdrains

/-! ## Its delivery -/

/-- The room of the channel between the task and the response. -/
def channelCapacity : Nat := 512

/-- Nothing is built, and nothing waits in the channel. -/
def Job.initial (job : Job) :
    State (Task (SynthesisStream job.voice.backend.State)) (Response SynthesisChunk) :=
  BoundedChannel.initial .building

/-- A step of a job's task or of its client. -/
def Job.Step (host : Host) (job : Job) :=
  BoundedChannel.Step (job.next host) channelCapacity

/-- What is so of a delivery at any time. -/
structure Delivers (host : Host) (job : Job)
    (s : State (Task (SynthesisStream job.voice.backend.State)) (Response SynthesisChunk)) :
    Prop where
  /-- The client has received the first messages of the answer, in order. -/
  received : s.received <+: job.answer host
  held : s.queue.length ≤ channelCapacity
  /-- A slow client holds the task back: the messages that it is ahead fit in the channel and in
  the task's hands. -/
  ahead : s.connected = true → ∀ task, s.sender.iterator = some task →
    ∃ ahead rest, s.received ++ ahead ++ rest = job.answer host ∧
      Drains (job.next host) task rest ∧ ahead.length ≤ channelCapacity + 1
  /-- Where a client that stays has nothing to wait for, it has it all. -/
  complete : s.connected = true →
    (∀ action t, job.Step host s action t → action = .disconnect) →
      s.sender = .closed ∧ s.received = job.answer host
  /-- Once the client has gone away, the task takes one more message at most, and sends none. -/
  abandoned : s.connected = false → ∀ actions t, Run (job.Step host) s actions t →
    actions <+: [.pull, .refuse] ∨ actions <+: [.refuse] ∨ actions <+: [.finish]

/-- Where the pool can be built, and however its task and its client take turns, an accepted
request is answered with the chunks of its sentences in order up to the first error, whatever the
mode, and in finitely many steps. -/
theorem synthesis_delivered (hpool : host.synthesisThreadPool = .ok ())
    (h : host.synthesizeUtterance service req = .ok job) :
    (∀ s, Reachable (· = job.initial) (job.Step host) s → Delivers host job s) ∧
      ∀ actions s, Run (job.Step host) job.initial actions s →
        actions.length ≤ 3 * (job.answer host).length + 2 := by
  have hdrains := drains_answer hpool h
  constructor
  · intro s hs
    have hcarries : Carries (job.next host) (job.answer host) s := by
      refine hs.invariant ?_ fun _ _ _ => Carries.step
      rintro _ rfl
      exact carries_initial hdrains
    have hfits : Fits channelCapacity s := by
      refine hs.invariant ?_ fun _ _ _ h hstep => Fits.step h hstep
      rintro _ rfl
      exact Nat.zero_le _
    refine ⟨hcarries.received_begins, hfits, ?_, ?_, ?_⟩
    · intro hconnected task htask
      exact hcarries.ahead hfits hconnected htask
    · intro hconnected hstuck
      rcases hcarries.progress (Nat.succ_pos 511) with hfinished | ⟨action, t, hne, hstep⟩
      · exact ⟨hfinished.closed, hcarries.complete hconnected hfinished.closed hfinished.taken⟩
      · exact absurd (hstuck action t hstep) hne
    · intro hgone actions t run
      exact actions_of_gone hgone run
  · intro actions s run
    exact (left_initial hdrains).length_le run

/-- A server whose voices say nothing. -/
def idleHost : Host where
  ops := Realtime.oneChunkJob.provider.ops
  synthesisThreadPool := .ok ()
  defaultBatchSize := ⟨1, Nat.one_pos⟩
  realTimeFactor _ := none

/-- A service with permits left. -/
def idleService : Service := ⟨secondSpeakerServer, 65536, 4, 4⟩

/-- A request for batches of two. -/
def pairsRequest : SynthesisRequest := ⟨"en", "hi", some ⟨some 50, none, none, none⟩, 3, some 2⟩

theorem synthesis_delivered_pairs : ∃ job : Job,
    idleHost.synthesizeUtterance idleService pairsRequest = .ok job ∧
      (∀ s, Reachable (· = job.initial) (job.Step idleHost) s → Delivers idleHost job s) ∧
      ∀ actions s, Run (job.Step idleHost) job.initial actions s →
        actions.length ≤ 3 * (job.answer idleHost).length + 2 := by
  obtain ⟨job, haccepted⟩ : ∃ job,
      idleHost.synthesizeUtterance idleService pairsRequest = .ok job := ⟨_, rfl⟩
  exact ⟨job, haccepted, synthesis_delivered rfl haccepted⟩

end Dengjen.Grpc.Delivery

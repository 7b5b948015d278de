import Dengjen.Audio.Samples
import Dengjen.Audio.WaveWriter
import Dengjen.Backends.EffectiveParameters
import Dengjen.Synth.Realtime
import Dengjen.Synth.Wrapper

/-!
# Requests to the command line frontend

The frontend reads one request a line. A request patches the voice's default
configuration with its own fields and stores the result before its text is
synthesized; nothing else writes the configuration. What is outside the
repository, or not part of the voice, is the `Host`. The first failure ends the
program, a line that is no request is skipped.
-/

namespace Dengjen.Frontends.Cli

open Iteration Synth TransitionSystem

/-- The modes of a request. -/
inductive SynthesisMode
  | lazy
  | parallel
  | batched
  | realtime
  deriving DecidableEq

/-- What a line of the input asks for. -/
structure SynthesisRequest where
  text : String
  mode : Option SynthesisMode
  speakerId : Option UInt32
  lengthScale : Option F32
  noiseScale : Option F32
  noiseW : Option F32
  rate : Option UInt8
  pitch : Option UInt8
  volume : Option UInt8
  appendedSilenceMs : Option Nat
  chunkSize : Option Nat
  chunkPadding : Option Nat
  batchSize : Option Nat
  parameters : List (String × F32)

/-- An `anyhow::Error`. -/
inductive CliError
  | dengjen (error : DengjenError)
  | message (text : String)

/-- The result of a step of the program. -/
abbrev CliResult (α : Type*) := Except CliError α

/-- A path by the parts that `enumerate_output_path` takes it into. -/
structure OutputPath where
  parent : String
  fileStem : Option String
  extension : Option String

/-- The sample operations, the pool, the number of cores and the two ways out for samples. -/
structure Host where
  ops : AudioOps
  synthesisThreadPool : ThreadPool
  availableParallelism : ℕ+
  WaveWriter : Type
  riffWave : Audio.RiffWave (List UInt8) WaveWriter
  /-- What comes of a temporary file with these bytes and its new name. -/
  replaceFile : OutputPath → List UInt8 → Except Audio.WaveWriterError Unit
  writeWaveBytes : AudioSamples → CliResult Unit

/-- The samples are encoded in memory before there is a file. -/
def Host.writeWaveSamplesToFile (host : Host) (path : OutputPath) (samples : List Int16)
    (sampleRate numChannels sampleWidth : Nat) : Except Audio.WaveWriterError Unit := do
  let encoded ← Audio.writeWaveSamplesToBuffer host.riffWave [] samples sampleRate numChannels
    sampleWidth
  host.replaceFile path encoded

/-- `impl From<WaveWriterError> for DengjenError` -/
def ofWaveWriterError (error : Audio.WaveWriterError) : DengjenError :=
  .operationError error.message

namespace SynthesisRequest

variable (req : SynthesisRequest)

/-- Insert a value that is set. -/
def insertSet (key : String) (value : Option F32) (parameters : HashMap String F32) :
    HashMap String F32 :=
  value.elim parameters fun value => parameters.insert key value

/-- The configuration of a request, over the one of the voice. -/
def asSynthesisConfig (defaultConfig : SynthesisConfig) : SynthesisConfig where
  speaker := (req.speakerId.map fun id => (id.toNat : Int)).or defaultConfig.speaker
  parameters :=
    let parameters := req.parameters.foldl (fun parameters (key, value) =>
      parameters.insert key value) defaultConfig.parameters
    let parameters := insertSet Piper.SynthConfig.lengthScale req.lengthScale parameters
    let parameters := insertSet Piper.SynthConfig.noiseScale req.noiseScale parameters
    insertSet Piper.SynthConfig.noiseW req.noiseW parameters

/-- The prosody of a request. -/
def asAudioOutputConfig : AudioOutputConfig where
  rate := req.rate
  pitch := req.pitch
  volume := req.volume
  appendedSilenceMs := req.appendedSilenceMs

end SynthesisRequest

/-- A realtime request of the frontend keeps its cancellation token to itself. -/
inductive StreamMode
  | lazy
  | parallel
  | batched (batchSize : ℕ+)
  | realtime (chunkSize chunkPadding : Nat)

/-- Four sentences at once, or as many as the machine has threads for. -/
def defaultBatchSize (host : Host) : ℕ+ := min host.availableParallelism ⟨4, by decide⟩

/-- The mode of a request, whose batch size has to be positive. -/
def streamMode (host : Host) (req : SynthesisRequest) : CliResult StreamMode :=
  match req.mode.getD .lazy with
  | .lazy => .ok .lazy
  | .parallel => .ok .parallel
  | .batched =>
      match req.batchSize with
      | none => .ok (.batched (defaultBatchSize host))
      | some n =>
          if h : 0 < n then .ok (.batched ⟨n, h⟩)
          else .error (.message "batch_size must be greater than zero")
  | .realtime => .ok (.realtime (req.chunkSize.getD 100) (req.chunkPadding.getD 3))

/-- The stream of the mode that was asked for. -/
inductive AudioChunkStream (σ : Type*)
  | lazy (stream : DengjenSpeechStreamLazy σ)
  | parallel (stream : DengjenSpeechStreamParallel)
  | batched (stream : DengjenSpeechStreamBatched σ)
  | realtime (job : Realtime.Job σ)

section Synthesis

variable {σ : Type*} (host : Host) (model : DengjenModel σ) (state : σ)

/-- What the streams of a text work on. -/
def taskProvider (text : String) (outputConfig : Option AudioOutputConfig) :
    SpeechSynthesisTaskProvider σ :=
  ⟨host.ops, model, state, text, outputConfig⟩

/-- The realtime stream of a text. -/
def synthesizeStreamed (text : String) (outputConfig : Option AudioOutputConfig)
    (chunkSize chunkPadding : Nat) : DengjenResult (Realtime.Job σ) :=
  let provider := taskProvider host model state text outputConfig
  let opened := do
    let info ← model.audioOutputInfo state
    let sentences ← provider.getPhonemes
    host.synthesisThreadPool
    pure (info, sentences)
  opened.map fun (info, sentences) =>
    ⟨provider, sentences, chunkSize, chunkPadding, info.sampleRate, info.numChannels⟩

/-- The stream of a text in one of the modes. -/
def synthesizeSamples (text : String) (outputConfig : Option AudioOutputConfig) :
    StreamMode → DengjenResult (AudioChunkStream σ)
  | .lazy =>
      (DengjenSpeechStreamLazy.new (taskProvider host model state text outputConfig)).map .lazy
  | .parallel =>
      (DengjenSpeechStreamParallel.new host.synthesisThreadPool
        (taskProvider host model state text outputConfig)).map .parallel
  | .batched batchSize =>
      (DengjenSpeechStreamBatched.new (taskProvider host model state text outputConfig)
        batchSize).map .batched
  | .realtime chunkSize chunkPadding =>
      (synthesizeStreamed host model state text outputConfig chunkSize chunkPadding).map .realtime

/-- What a loop over the stream sees until its `next` first returns `None`. -/
def AudioChunkStream.Drained : AudioChunkStream σ → List (DengjenResult AudioSamples) → Prop
  | lazy stream, items => ∃ audios, Drains DengjenSpeechStreamLazy.next stream audios ∧
      items = audios.map (Except.map fun audio => audio.samples)
  | parallel stream, items => ∃ audios, Drains DengjenSpeechStreamParallel.next stream audios ∧
      items = audios.map (Except.map fun audio => audio.samples)
  | batched stream, items => ∃ audios,
      Drains (DengjenSpeechStreamBatched.next host.synthesisThreadPool) stream audios ∧
      items = audios.map (Except.map fun audio => audio.samples)
  | realtime job, items => ∃ s, Realtime.Reaches job s ∧ s.cancelled = false ∧
      s.returned = items.map some ++ [none]

/-- The loop ends at the first error. -/
def consumeStream (items : List (DengjenResult AudioSamples)) : CliResult Unit :=
  items.forM fun chunk => do
    let audio ← chunk.mapError .dengjen
    host.writeWaveBytes audio

/-- A number that a header has 32 bits for. -/
def toU32 (value : Nat) (what : String) : DengjenResult Nat :=
  if value < 2 ^ 32 then .ok value
  else .error (.operationError s!"{what} {value} is out of range")

/-- Speaks a text into a file, which it has to have samples for. -/
def synthesizeToFile (filename : OutputPath) (text : String)
    (outputConfig : Option AudioOutputConfig) : DengjenResult Unit := do
  let stream ← DengjenSpeechStreamParallel.new host.synthesisThreadPool
    (taskProvider host model state text outputConfig)
  let audios ← stream.finished.mapM id
  let collected := audios.flatMap fun audio => audio.samples
  if collected.isEmpty then
    throw (.operationError "No speech data to write")
  let info ← model.audioOutputInfo state
  let sampleRate ← toU32 info.sampleRate "sample rate"
  let numChannels ← toU32 info.numChannels "channel count"
  let sampleWidth ← toU32 info.sampleWidth "sample width"
  (host.writeWaveSamplesToFile filename (AudioSamples.toI16Vec collected) sampleRate numChannels
    sampleWidth).mapError ofWaveWriterError

end Synthesis

/-- The voice behind the synthesizer that the frontend builds around it. -/
def synthesizer (backend : Backend) : DengjenModel backend.State :=
  (DengjenSpeechSynthesizer.mk backend.model).toDengjenModel

section Requests

variable (host : Host) (backend : Backend)

/-- How one request ends, and the state it leaves: that in which its text was synthesized. -/
def ProcessesSynthesisRequest (outputFile : Option OutputPath) (defaultSynthConfig : SynthesisConfig)
    (state : backend.State) (req : SynthesisRequest) (result : CliResult Unit)
    (state' : backend.State) : Prop :=
  match (synthesizer backend).setFallbackSynthesisConfig state
      (req.asSynthesisConfig defaultSynthConfig) with
  | (.error error, refused) => result = .error (.dengjen error) ∧ state' = refused
  | (.ok (), stored) => state' = stored ∧
      let outputConfig := some req.asAudioOutputConfig
      match outputFile with
      | some path =>
          result = (synthesizeToFile host backend.model stored path req.text outputConfig).mapError
            .dengjen
      | none =>
          match streamMode host req with
          | .error error => result = .error error
          | .ok mode =>
              match synthesizeSamples host backend.model stored req.text outputConfig mode with
              | .error error => result = .error (.dengjen error)
              | .ok stream => ∃ items, stream.Drained host items ∧
                  result = consumeStream host items

/-- The configuration that requests are read over. -/
def resolveDefaultSynthesisConfig : DengjenResult SynthesisConfig := do
  let config ← (synthesizer backend).getDefaultSynthesisConfig backend.initialState
  pure (config.getD .default)

/-- The path of a later request's file. -/
def enumerateOutputPath (path : OutputPath) (suffix : Nat) : OutputPath :=
  { path with fileStem := path.fileStem.map fun stem => s!"{stem}-{suffix}" }

/-- A line of the input, with the error of the parser where it is no request. -/
abbrev InputLine := Except String SynthesisRequest

/-- The program between two lines of its input. -/
structure Session where
  requestCount : Nat
  state : backend.State

/-- One turn of `synthesize_from_stdin_forever` that goes on to the next. -/
def turn (outputFile : Option OutputPath) (defaultSynthConfig : SynthesisConfig)
    (s : Session backend) (line : InputLine) (t : Session backend) : Prop :=
  t.requestCount = s.requestCount + 1 ∧
    match line with
    | .error _ => t.state = s.state
    | .ok req =>
        ProcessesSynthesisRequest host backend
          (outputFile.map fun path => enumerateOutputPath path t.requestCount)
          defaultSynthConfig s.state req (.ok ()) t.state

/-- The frontend has read these lines, processed every request among them with success, and
left the voice in this state. -/
def Processed (outputFile : Option OutputPath) (lines : List InputLine)
    (state : backend.State) : Prop :=
  ∃ defaultSynthConfig requestCount,
    resolveDefaultSynthesisConfig backend = .ok defaultSynthConfig ∧
    Run (turn host backend outputFile defaultSynthConfig) ⟨0, backend.initialState⟩ lines
      ⟨requestCount, state⟩

end Requests

section LastRequest

variable {host : Host} {backend : Backend} {outputFile : Option OutputPath}
  {defaultSynthConfig : SynthesisConfig} {state state' : backend.State}

@[simp] theorem resolveDefaultSynthesisConfig_eq (backend : Backend) :
    resolveDefaultSynthesisConfig backend = .ok backend.defaultConfig := by
  rw [resolveDefaultSynthesisConfig]
  have hdefault : (synthesizer backend).getDefaultSynthesisConfig backend.initialState =
      .ok (some backend.defaultConfig) := backend.getDefault_eq _
  rw [hdefault]
  rfl

/-- A request that succeeds has stored its configuration. -/
theorem stored_of_processes {req : SynthesisRequest}
    (h : ProcessesSynthesisRequest host backend outputFile defaultSynthConfig state req (.ok ())
      state') :
    state' = backend.stored state (req.asSynthesisConfig defaultSynthConfig) := by
  rw [ProcessesSynthesisRequest] at h
  split at h
  · cases h.1
  · next stored hset => exact h.1.trans (Backend.setFallback_of_ok hset).2

/-- A default that names a speaker is patched to a configuration that does. -/
theorem asSynthesisConfig_speaker_isSome {req : SynthesisRequest}
    (h : defaultSynthConfig.speaker.isSome) :
    (req.asSynthesisConfig defaultSynthConfig).speaker.isSome := by
  rw [SynthesisRequest.asSynthesisConfig, Option.isSome_or, h, Bool.or_true]

/-- The default of a multi-speaker Piper voice names a speaker. -/
theorem defaultConfig_speaker_isSome (hkeeps : backend.KeepsSpeaker)
    (hpasses : backend.PassesSpeaker) : backend.defaultConfig.speaker.isSome := by
  cases backend with
  | piper voice | piperStreaming voice =>
      exact Option.isSome_of_eq_some (if_pos hpasses)
  | melo _ | kokoro _ => exact hkeeps.elim

/-- The parameters of a request on a voice that has just been loaded. -/
def requestParameters (backend : Backend) (req : SynthesisRequest) : EffectiveParameters :=
  backend.effectiveParameters
    (backend.stored backend.initialState (req.asSynthesisConfig backend.defaultConfig))

theorem Processed.effectiveParameters_eq {history : List InputLine} {last : SynthesisRequest}
    (h : Processed host backend outputFile (history ++ [.ok last]) state) :
    backend.effectiveParameters state = requestParameters backend last := by
  obtain ⟨defaultSynthConfig, requestCount, hdefault, run⟩ := h
  rw [resolveDefaultSynthesisConfig_eq, Except.ok.injEq] at hdefault
  subst hdefault
  obtain ⟨before, -, final⟩ := run.of_append
  have hstored : state = backend.stored before.state (last.asSynthesisConfig backend.defaultConfig) :=
    stored_of_processes final.of_single.2
  rw [hstored, requestParameters]
  apply Backend.effectiveParameters_stored
  intro hkeeps hpasses
  exact asSynthesisConfig_speaker_isSome (defaultConfig_speaker_isSome hkeeps hpasses)

end LastRequest

/-- After any two inputs whose requests were all processed, the last of them the same, the voice
has the parameters of that request alone, and phonemizes and speaks alike. -/
theorem requests_do_not_leak (host : Host) (backend : Backend) (outputFile : Option OutputPath)
    (history history' : List InputLine) (last : SynthesisRequest) (state state' : backend.State)
    (h : Processed host backend outputFile (history ++ [.ok last]) state)
    (h' : Processed host backend outputFile (history' ++ [.ok last]) state') :
    backend.effectiveParameters state = requestParameters backend last ∧
      backend.effectiveParameters state = backend.effectiveParameters state' ∧
      backend.SpeaksAlike state state' := by
  have heq : backend.effectiveParameters state = backend.effectiveParameters state' :=
    h.effectiveParameters_eq.trans h'.effectiveParameters_eq.symm
  exact ⟨h.effectiveParameters_eq, heq, Backend.speaksAlike_of_eq heq⟩

section Turns

variable {host : Host} {backend : Backend} {outputFile : Option OutputPath}
  {defaultSynthConfig : SynthesisConfig}

theorem turn_request {s : Session backend} {req : SynthesisRequest} {state : backend.State}
    (h : ProcessesSynthesisRequest host backend
      (outputFile.map fun path => enumerateOutputPath path (s.requestCount + 1))
      defaultSynthConfig s.state req (.ok ()) state) :
    turn host backend outputFile defaultSynthConfig s (.ok req) ⟨s.requestCount + 1, state⟩ :=
  ⟨rfl, h⟩

theorem turn_skip (s : Session backend) (error : String) :
    turn host backend outputFile defaultSynthConfig s (.error error)
      ⟨s.requestCount + 1, s.state⟩ := ⟨rfl, rfl⟩

end Turns

/-- A lazy request to the standard output succeeds when its speech can be written. -/
theorem processes_lazy {host : Host} {backend : Backend} {defaultSynthConfig : SynthesisConfig}
    {state : backend.State} {req : SynthesisRequest}
    {stream : DengjenSpeechStreamLazy backend.State}
    (haccepts : backend.Accepts (req.asSynthesisConfig defaultSynthConfig))
    (hmode : req.mode = none)
    (hstream : DengjenSpeechStreamLazy.new (taskProvider host backend.model
      (backend.stored state (req.asSynthesisConfig defaultSynthConfig)) req.text
      (some req.asAudioOutputConfig)) = .ok stream)
    (hconsume : consumeStream host ((sequentialResults stream.provider stream.pendingSentences).map
      (Except.map fun audio => audio.samples)) = .ok ()) :
    ProcessesSynthesisRequest host backend none defaultSynthConfig state req (.ok ())
      (backend.stored state (req.asSynthesisConfig defaultSynthConfig)) := by
  have hset : (synthesizer backend).setFallbackSynthesisConfig state
      (req.asSynthesisConfig defaultSynthConfig) =
        (.ok (), backend.stored state (req.asSynthesisConfig defaultSynthConfig)) :=
    Backend.setFallback_of_accepts haccepts
  rw [ProcessesSynthesisRequest, hset]
  refine ⟨rfl, ?_⟩
  simp only [streamMode, hmode, Option.getD_none, synthesizeSamples, hstream, Except.map]
  exact ⟨_, ⟨_, drains_lazy stream, rfl⟩, hconsume.symm⟩

/-- A host that writes everything, without the header of a file. -/
def writingHost : Host where
  ops := Realtime.oneChunkJob.provider.ops
  synthesisThreadPool := .ok ()
  availableParallelism := 8
  WaveWriter := List UInt8
  riffWave :=
    { new := fun _ _ _ buffer => some buffer
      writeSampleI16 := fun buffer sample => some (buffer ++ AudioSamples.toLeBytes sample)
      syncHeader := some }
  replaceFile _ _ := .ok ()
  writeWaveBytes _ := .ok ()

/-- A voice of two speakers. -/
def twoSpeakers : Backend :=
  .piper (Backend.speakersVoice 2 (HashMap.fromIter [("ann", 0), ("bob", 1)]))

/-- A request that leaves everything to the voice. -/
def plainRequest : SynthesisRequest where
  text := "a"
  mode := none
  speakerId := none
  lengthScale := none
  noiseScale := none
  noiseW := none
  rate := none
  pitch := none
  volume := none
  appendedSilenceMs := none
  chunkSize := none
  chunkPadding := none
  batchSize := none
  parameters := []

/-- A request for the second speaker at half the speed. -/
def bobsRequest : SynthesisRequest :=
  { plainRequest with
    speakerId := some 1
    lengthScale := some ⟨0x40000000⟩ }

theorem plainRequest_after_bobs :
    ∃ state state' : twoSpeakers.State,
      Processed writingHost twoSpeakers none ([] ++ [.ok plainRequest]) state ∧
      Processed writingHost twoSpeakers none
        ([.ok bobsRequest, .error "expected value"] ++ [.ok plainRequest]) state' ∧
      twoSpeakers.effectiveParameters state = twoSpeakers.effectiveParameters state' := by
  have hplain (state : twoSpeakers.State) :
      ProcessesSynthesisRequest writingHost twoSpeakers none twoSpeakers.defaultConfig state
        plainRequest (.ok ())
        (twoSpeakers.stored state (plainRequest.asSynthesisConfig twoSpeakers.defaultConfig)) :=
    processes_lazy (by decide) rfl rfl rfl
  have hbobs (state : twoSpeakers.State) :
      ProcessesSynthesisRequest writingHost twoSpeakers none twoSpeakers.defaultConfig state
        bobsRequest (.ok ())
        (twoSpeakers.stored state (bobsRequest.asSynthesisConfig twoSpeakers.defaultConfig)) :=
    processes_lazy (by decide) rfl rfl rfl
  have hfirst : Processed writingHost twoSpeakers none ([] ++ [.ok plainRequest]) _ :=
    ⟨_, 1, resolveDefaultSynthesisConfig_eq _, .single (turn_request (hplain _))⟩
  have hsecond : Processed writingHost twoSpeakers none
      ([.ok bobsRequest, .error "expected value"] ++ [.ok plainRequest]) _ :=
    ⟨_, 3, resolveDefaultSynthesisConfig_eq _,
      .cons (turn_request (hbobs _)) (.cons (turn_skip _ _) (.single (turn_request (hplain _))))⟩
  exact ⟨_, _, hfirst, hsecond,
    (requests_do_not_leak _ _ _ _ _ _ _ _ hfirst hsecond).2.1⟩

end Dengjen.Frontends.Cli

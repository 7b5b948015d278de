import Dengjen.Bindings.SpeakCalls
import Dengjen.Frontends.Cli
import Dengjen.General.FirstError
import Dengjen.Grpc.Delivery

/-!
# One sound for all frontends

A text may reach a voice through a speak call of the C API, through the server, or to
be written to a file. Each frontend has its own loop over the stream of the synthesis,
in the mode that it was asked for, and its own way to hand over the samples. What they
hand over is the audio of the sentences up to the first error.

## Implementation notes

A realtime stream is left out: its chunks are those of another synthesis. The voice and
its options are the same for the frontends, no synthesis panics and the synthesis pool
can be built. The callback of the speak call wants every event.
-/

namespace Dengjen.Frontends

open Capi Capi.SpeakEvents FirstError Grpc.Delivery Iteration Synth

section Heard

variable {σ : Type*} (provider : SpeechSynthesisTaskProvider σ)

/-- The audio of the sentences of a text, up to the first error. -/
def heard : List Audio × Option DengjenError :=
  match provider.getPhonemes with
  | .error error => ([], some error)
  | .ok sentences => upToError (sequentialResults provider sentences)

/-- The samples before the first error. -/
def heardSamples : AudioSamples := ((heard provider).1.map Audio.samples).flatten

variable {provider}

theorem heard_error {error : DengjenError} (h : provider.getPhonemes = .error error) :
    heard provider = ([], some error) := by
  rw [heard, h]

theorem heard_ok {sentences : List String} (h : provider.getPhonemes = .ok sentences) :
    heard provider = upToError (sequentialResults provider sentences) := by
  rw [heard, h]

end Heard

/-! ## The speak call -/

/-- The mode as the synthesizer is asked for it. -/
def synthMode : StreamMode → Cli.StreamMode
  | .lazy => .lazy
  | .parallel => .parallel
  | .realtime chunkSize chunkPadding => .realtime chunkSize chunkPadding
  | .batched batchSize => .batched batchSize

section Samples

variable {σ : Type*} {host : Cli.Host} (model : DengjenModel σ) (state : σ) (text : String)
  (outputConfig : Option AudioOutputConfig)

/-- Every other stream is that of the sentences in order. -/
theorem synthesizeSamples_cases (hpool : host.synthesisThreadPool = .ok ()) {mode : StreamMode}
    (hmode : ∀ chunkSize chunkPadding, mode ≠ .realtime chunkSize chunkPadding) :
    (∃ error, (Cli.taskProvider host model state text outputConfig).getPhonemes = .error error ∧
      Cli.synthesizeSamples host model state text outputConfig (synthMode mode) = .error error) ∨
    ∃ sentences stream,
      (Cli.taskProvider host model state text outputConfig).getPhonemes = .ok sentences ∧
      Cli.synthesizeSamples host model state text outputConfig (synthMode mode) = .ok stream ∧
      ∀ items, stream.Drained host items ↔ items =
        (sequentialResults (Cli.taskProvider host model state text outputConfig) sentences).map
          (Except.map fun audio => audio.samples) := by
  cases hphonemes : (Cli.taskProvider host model state text outputConfig).getPhonemes with
  | error error =>
      refine .inl ⟨error, rfl, ?_⟩
      cases mode with
      | «lazy» =>
          simp only [synthMode, Cli.synthesizeSamples, DengjenSpeechStreamLazy.new, hphonemes]
          rfl
      | parallel =>
          simp only [synthMode, Cli.synthesizeSamples, DengjenSpeechStreamParallel.new, hphonemes]
          rfl
      | batched batchSize =>
          simp only [synthMode, Cli.synthesizeSamples, DengjenSpeechStreamBatched.new, hphonemes]
          rfl
      | realtime chunkSize chunkPadding => exact absurd rfl (hmode chunkSize chunkPadding)
  | ok sentences =>
      refine .inr ⟨sentences, ?_⟩
      cases mode with
      | «lazy» =>
          have hlazy := drains_lazy
            ⟨Cli.taskProvider host model state text outputConfig, sentences, 0⟩
          simp only [synthMode, Cli.synthesizeSamples, DengjenSpeechStreamLazy.new, hphonemes]
          refine ⟨_, trivial, rfl, fun items => ⟨?_, fun hitems => ⟨_, hlazy, hitems⟩⟩⟩
          rintro ⟨audios, hdrains, rfl⟩
          rw [hdrains.deterministic hlazy]
      | parallel =>
          have hparallel := drains_parallel
            (sequentialResults (Cli.taskProvider host model state text outputConfig) sentences)
          simp only [synthMode, Cli.synthesizeSamples, DengjenSpeechStreamParallel.new, hphonemes,
            hpool]
          refine ⟨_, trivial, rfl, fun items => ⟨?_, fun hitems => ⟨_, hparallel, hitems⟩⟩⟩
          rintro ⟨audios, hdrains, rfl⟩
          rw [hdrains.deterministic hparallel]
      | batched batchSize =>
          have hbatched := drains_batched
            ⟨Cli.taskProvider host model state text outputConfig, sentences, batchSize, [], 0⟩
          simp only [synthMode, Cli.synthesizeSamples, DengjenSpeechStreamBatched.new, hphonemes]
          refine ⟨_, trivial, rfl, fun items => ?_⟩
          simp only [Cli.AudioChunkStream.Drained, hpool]
          refine ⟨?_, fun hitems => ⟨_, hbatched, hitems⟩⟩
          rintro ⟨audios, hdrains, rfl⟩
          rw [hdrains.deterministic hbatched]
          rfl
      | realtime chunkSize chunkPadding => exact absurd rfl (hmode chunkSize chunkPadding)

end Samples

/-- A speak call on a voice: its callback wants every event, and nobody unloads the voice. -/
structure SpeaksWith {σ : Type*} (host : Cli.Host) (model : DengjenModel σ) (state : σ)
    (call : SpeakCall) : Prop where
  asWaveBytes : call.asWaveBytes = AudioSamples.asWaveBytes
  answer : ∀ sent, call.answer sent = 0
  isClosing : ∀ sent, call.isClosing sent = false
  synthesizes : ∀ mode, call.streamMode = some mode →
    match Cli.synthesizeSamples host model state call.text (some call.params.asSynthOutputConfig)
      (synthMode mode) with
    | .error error => call.synthesizeSamples call.text (some call.params.asSynthOutputConfig) mode =
        .returned (.error error)
    | .ok stream => ∃ items, stream.Drained host items ∧
        call.synthesizeSamples call.text (some call.params.asSynthOutputConfig) mode =
          .returned (.ok (items.map .returned))

theorem exists_streamMode (call : SpeakCall)
    (h : call.params.mode = 0 ∨ call.params.mode = 1 ∨ call.params.mode = 3) :
    ∃ mode, call.streamMode = some mode ∧
      ∀ chunkSize chunkPadding, mode ≠ .realtime chunkSize chunkPadding := by
  rcases h with h | h | h
  · refine ⟨.lazy, ?_, fun _ _ hne => by cases hne⟩
    rw [SpeakCall.streamMode, h]
    rfl
  · refine ⟨.parallel, ?_, fun _ _ hne => by cases hne⟩
    rw [SpeakCall.streamMode, h]
    rfl
  · refine ⟨.batched call.defaultBatchSize, ?_, fun _ _ hne => by cases hne⟩
    rw [SpeakCall.streamMode, h]
    rfl

/-- The call of a client that wants every event. -/
def speakCall {σ : Type*} (host : Cli.Host) (model : DengjenModel σ) (state : σ) (text : String)
    (params : SynthesisParams) : SpeakCall where
  text := text
  params := params
  synthesizeSamples text outputConfig _ :=
    let provider := Cli.taskProvider host model state text outputConfig
    .returned (provider.getPhonemes.map fun sentences =>
      ((sequentialResults provider sentences).map
        (Except.map fun audio => audio.samples)).map .returned)
  defaultBatchSize := ⟨1, Nat.one_pos⟩
  asWaveBytes := AudioSamples.asWaveBytes
  answer _ := 0
  isClosing _ := false

/-- There is such a call for every text. -/
theorem speaksWith_speakCall {σ : Type*} {host : Cli.Host}
    (hpool : host.synthesisThreadPool = .ok ()) (model : DengjenModel σ) (state : σ) (text : String)
    {params : SynthesisParams}
    (hmode : params.mode = 0 ∨ params.mode = 1 ∨ params.mode = 3) :
    SpeaksWith host model state (speakCall host model state text params) where
  asWaveBytes := rfl
  answer _ := rfl
  isClosing _ := rfl
  synthesizes mode hstreamMode := by
    obtain ⟨mode', hmode', hnot⟩ :=
      exists_streamMode (speakCall host model state text params) hmode
    obtain rfl := Option.some.inj (hmode'.symm.trans hstreamMode)
    rcases synthesizeSamples_cases model state text (some params.asSynthOutputConfig) hpool hnot
      with ⟨error, hphonemes, hstream⟩ | ⟨sentences, stream, hphonemes, hstream, hdrained⟩
    · simp only [speakCall, hstream, hphonemes]
      rfl
    · simp only [speakCall, hstream, hphonemes]
      exact ⟨_, (hdrained _).mpr rfl, rfl⟩

/-- The terminal event of a call that ends so. -/
def terminalEvent (failure : Option DengjenError) : SynthesisEvent :=
  failure.elim .finished fun error => .error (.ofDengjenError error)

/-- The event of a chunk of samples. -/
def speechEvent (samples : AudioSamples) : SynthesisEvent :=
  .speech (AudioSamples.asWaveBytes samples)

/-- The events for what is heard. -/
def speechEvents (heard : List Audio × Option DengjenError) : List SynthesisEvent :=
  heard.1.map (fun audio => speechEvent audio.samples) ++ [terminalEvent heard.2]

section Worker

variable {σ : Type*} {host : Cli.Host} {model : DengjenModel σ} {state : σ} {call : SpeakCall}

omit σ in
/-- The results of a synthesis are no panics. -/
theorem not_reaches_panicked (call : SpeakCall) (items : List (DengjenResult AudioSamples))
    (sent : Nat) (message : String) :
    ¬call.Reaches sent (items.map .returned) (.panicked message) := by
  intro hreaches
  induction items generalizing sent with
  | nil => cases hreaches
  | cons item items ih =>
      cases hreaches with
      | later _ _ tail => exact ih (sent + 1) tail

/-- Every sample that arrives before an error is sent. -/
theorem iterateStream_eq (h : SpeaksWith host model state call)
    (items : List (DengjenResult AudioSamples)) :
    call.iterateStream 0 (items.map .returned) =
      ((upToError items).1.map speechEvent ++ [terminalEvent (upToError items).2],
        .returned (.ok ())) := by
  have hevents : (call.iterateStream 0 (items.map .returned)).1 =
      (upToError items).1.map speechEvent ++ [terminalEvent (upToError items).2] := by
    apply loop_eq (fun sent items => (call.iterateStream sent (items.map .returned)).1) speechEvent
      fun failure => [terminalEvent failure]
    · intro sent
      rfl
    · intro sent samples rest
      refine ⟨sent + 1, ?_⟩
      simp only [List.map_cons, SpeakCall.iterateStream, h.isClosing, h.answer, h.asWaveBytes,
        Bool.false_eq_true, if_false, if_true, speechEvent]
    · intro sent error rest
      simp only [List.map_cons, SpeakCall.iterateStream, h.isClosing, Bool.false_eq_true, if_false]
      rfl
  refine Prod.ext hevents ?_
  rcases iterateStream_events call 0 (items.map .returned) with
    ⟨events, heq, -⟩ | ⟨events, message, -, -, hpanicked⟩
  · rw [heq]
  · exact absurd hpanicked (not_reaches_panicked call items 0 message)

/-- The events of a speak call, and its result where the library returns it. -/
def speakOutcome {σ : Type*} (provider : SpeechSynthesisTaskProvider σ) :
    List SynthesisEvent × DengjenFFIResult Unit :=
  match provider.getPhonemes with
  | .error error => ([], .error (.ofDengjenError error))
  | .ok _ => (speechEvents (heard provider), .ok ())

/-- What a call sends and returns. -/
theorem doSynthesize_eq (hpool : host.synthesisThreadPool = .ok ())
    (h : SpeaksWith host model state call) {mode : StreamMode}
    (hstreamMode : call.streamMode = some mode)
    (hmode : ∀ chunkSize chunkPadding, mode ≠ .realtime chunkSize chunkPadding) :
    call.doSynthesize = (speakOutcome (Cli.taskProvider host model state call.text
      (some call.params.asSynthOutputConfig))).map id .returned := by
  have hsynthesizes := h.synthesizes mode hstreamMode
  rcases synthesizeSamples_cases model state call.text (some call.params.asSynthOutputConfig) hpool
      hmode with
    ⟨error, hphonemes, hstream⟩ | ⟨sentences, stream, hphonemes, hstream, hdrained⟩
  · rw [hstream] at hsynthesizes
    simp only [speakOutcome, SpeakCall.doSynthesize, SpeakCall.createStream, hstreamMode,
      hsynthesizes, hphonemes]
    rfl
  · rw [hstream] at hsynthesizes
    obtain ⟨items, hitems, hsynthesizes⟩ := hsynthesizes
    obtain rfl := (hdrained items).mp hitems
    simp only [speakOutcome, SpeakCall.doSynthesize, SpeakCall.createStream, hstreamMode,
      hsynthesizes, iterateStream_eq h, upToError_map, hphonemes, heard_ok hphonemes]
    rw [List.map_map]
    rfl

/-- A worker reports a stream that could not be created as an event. -/
theorem worker_eq {provider : SpeechSynthesisTaskProvider σ}
    (h : call.doSynthesize = (speakOutcome provider).map id .returned) :
    call.worker = speechEvents (heard provider) := by
  rw [SpeakCall.worker, h, speakOutcome]
  cases hphonemes : provider.getPhonemes with
  | error error =>
      rw [heard_error hphonemes]
      rfl
  | ok sentences => rfl

/-- A blocking call returns it instead. -/
theorem blocking_eq {provider : SpeechSynthesisTaskProvider σ}
    (h : call.doSynthesize = (speakOutcome provider).map id .returned)
    (panicError : String → DengjenFFIError) :
    call.blocking panicError = speakOutcome provider := by
  rw [SpeakCall.blocking, h]
  rfl

end Worker

/-! ## The response of the server -/

/-- The messages for what is heard. -/
def responses {Chunk Message : Type*} (toMessage : Chunk → Message)
    (heard : List Chunk × Option DengjenError) : List (Response Message) :=
  heard.1.map (fun chunk => .ok (toMessage chunk)) ++
    heard.2.toList.map fun error => .error (.ofError (.dengjenError error))

theorem messages_eq {Chunk Message : Type*} (toMessage : Chunk → Message)
    (results : List (DengjenResult Chunk)) :
    messages toMessage results = responses toMessage (upToError results) := by
  apply loop_eq (fun (_ : Unit) results => messages toMessage results)
    (fun chunk => .ok (toMessage chunk))
    (fun failure => failure.toList.map fun error => .error (.ofError (.dengjenError error)))
  · intro _
    rfl
  · intro _ chunk rest
    exact ⟨(), rfl⟩
  · intro _ error rest
    rfl
  · exact ()

theorem answer_eq (host : Host) (job : Job) :
    job.answer host = responses host.synthesisChunk (heard (job.provider host)) := by
  rw [Job.answer]
  cases hphonemes : (job.provider host).getPhonemes with
  | error error =>
      rw [heard_error hphonemes]
      rfl
  | ok sentences =>
      rw [heard_ok hphonemes]
      exact messages_eq host.synthesisChunk _

/-! ## The file -/

section File

variable {σ : Type*} {host : Cli.Host} {model : DengjenModel σ} {state : σ} {text : String}
  {outputConfig : Option AudioOutputConfig}

/-- The numbers of a format that a file can hold. -/
structure FitsHeader (info : AudioInfo) : Prop where
  sampleRate : info.sampleRate < 2 ^ 32
  numChannels : info.numChannels < 2 ^ 32
  sampleWidth : info.sampleWidth < 2 ^ 32

theorem parallel_new {provider : SpeechSynthesisTaskProvider σ} {sentences : List String}
    (h : provider.getPhonemes = .ok sentences) :
    DengjenSpeechStreamParallel.new (.ok ()) provider =
      .ok ⟨sequentialResults provider sentences⟩ := by
  rw [DengjenSpeechStreamParallel.new, h]
  rfl

/-- No file is written of a text whose synthesis fails. -/
theorem synthesizeToFile_error (hpool : host.synthesisThreadPool = .ok ()) {error : DengjenError}
    (h : (heard (Cli.taskProvider host model state text outputConfig)).2 = some error)
    (path : Cli.OutputPath) :
    Cli.synthesizeToFile host model state path text outputConfig = .error error := by
  cases hphonemes : (Cli.taskProvider host model state text outputConfig).getPhonemes with
  | error error' =>
      rw [heard_error hphonemes] at h
      cases h
      rw [Cli.synthesizeToFile, DengjenSpeechStreamParallel.new, hphonemes]
      rfl
  | ok sentences =>
      rw [heard_ok hphonemes] at h
      have hcollected := mapM_id_eq
        (sequentialResults (Cli.taskProvider host model state text outputConfig) sentences)
      rw [h] at hcollected
      rw [Cli.synthesizeToFile, hpool, parallel_new hphonemes]
      simp only [bind, Except.bind, hcollected, Option.elim]

/-- The file has what is heard. -/
theorem synthesizeToFile_eq (hpool : host.synthesisThreadPool = .ok ())
    (h : (heard (Cli.taskProvider host model state text outputConfig)).2 = none)
    (hspoken : heardSamples (Cli.taskProvider host model state text outputConfig) ≠ [])
    {info : AudioInfo} (hinfo : model.audioOutputInfo state = .ok info) (hfits : FitsHeader info)
    (path : Cli.OutputPath) :
    Cli.synthesizeToFile host model state path text outputConfig =
      (host.writeWaveSamplesToFile path
        (AudioSamples.toI16Vec (heardSamples (Cli.taskProvider host model state text outputConfig)))
        info.sampleRate info.numChannels info.sampleWidth).mapError Cli.ofWaveWriterError := by
  cases hphonemes : (Cli.taskProvider host model state text outputConfig).getPhonemes with
  | error error =>
      rw [heard_error hphonemes] at h
      cases h
  | ok sentences =>
      rw [heardSamples, heard_ok hphonemes, ← List.flatMap_def] at hspoken ⊢
      rw [heard_ok hphonemes] at h
      have hcollected := mapM_id_eq
        (sequentialResults (Cli.taskProvider host model state text outputConfig) sentences)
      rw [h] at hcollected
      rw [Cli.synthesizeToFile, hpool, parallel_new hphonemes]
      simp only [bind, Except.bind, hcollected, Option.elim]
      rw [if_neg (mt List.isEmpty_iff.mp hspoken), hinfo]
      simp only [Cli.toU32, if_pos hfits.sampleRate, if_pos hfits.numChannels,
        if_pos hfits.sampleWidth]

/-- No file is written of a text of which nothing is heard. -/
theorem synthesizeToFile_silent (hpool : host.synthesisThreadPool = .ok ())
    (h : (heard (Cli.taskProvider host model state text outputConfig)).2 = none)
    (hsilent : heardSamples (Cli.taskProvider host model state text outputConfig) = [])
    (path : Cli.OutputPath) :
    Cli.synthesizeToFile host model state path text outputConfig =
      .error (.operationError "No speech data to write") := by
  cases hphonemes : (Cli.taskProvider host model state text outputConfig).getPhonemes with
  | error error =>
      rw [heard_error hphonemes] at h
      cases h
  | ok sentences =>
      rw [heardSamples, heard_ok hphonemes, ← List.flatMap_def] at hsilent
      rw [heard_ok hphonemes] at h
      have hcollected := mapM_id_eq
        (sequentialResults (Cli.taskProvider host model state text outputConfig) sentences)
      rw [h] at hcollected
      rw [Cli.synthesizeToFile, hpool, parallel_new hphonemes]
      simp only [bind, Except.bind, hcollected, Option.elim]
      rw [if_pos (List.isEmpty_iff.mpr hsilent)]
      rfl

end File

/-! ## The same samples -/

/-- What the frontends make of a text, in whatever mode each of them is asked for. -/
structure OneSound (cli : Cli.Host) (host : Host) (job : Job) (call : SpeakCall) : Prop where
  /-- A nonblocking call ends with FINISHED or with the first error as ERROR. -/
  events : call.worker = speechEvents (heard (job.provider host))
  /-- So does a blocking one, but for a text that has no phonemes: that is its own error. -/
  blocking : ∀ panicError, call.blocking panicError = speakOutcome (job.provider host)
  /-- The task of the request sends these, and then nothing. -/
  messages : Drains (job.next host) .building
    (responses host.synthesisChunk (heard (job.provider host)))
  written : (heard (job.provider host)).2 = none → heardSamples (job.provider host) ≠ [] →
    ∀ info, job.voice.backend.model.audioOutputInfo job.voice.state = .ok info → FitsHeader info →
      ∀ path, Cli.synthesizeToFile cli job.voice.backend.model job.voice.state path job.text
          job.outputConfig =
        (cli.writeWaveSamplesToFile path (AudioSamples.toI16Vec (heardSamples (job.provider host)))
          info.sampleRate info.numChannels info.sampleWidth).mapError Cli.ofWaveWriterError
  /-- Where there are no samples, the events end with FINISHED, and there is no file. -/
  silent : (heard (job.provider host)).2 = none → heardSamples (job.provider host) = [] →
    ∀ path, Cli.synthesizeToFile cli job.voice.backend.model job.voice.state path job.text
      job.outputConfig = .error (.operationError "No speech data to write")
  unwritten : ∀ error, (heard (job.provider host)).2 = some error →
    ∀ path, Cli.synthesizeToFile cli job.voice.backend.model job.voice.state path job.text
      job.outputConfig = .error error
  /-- The bytes of the events are those of the chunks: the samples that the file is made of, in
  two bytes each. -/
  eventBytes : call.worker.flatMap SynthesisEvent.data =
    (AudioSamples.toI16Vec (heardSamples (job.provider host))).flatMap AudioSamples.toLeBytes
  chunkBytes : ((heard (job.provider host)).1.map host.synthesisChunk).flatMap
      SynthesisChunk.audioBytes =
    (AudioSamples.toI16Vec (heardSamples (job.provider host))).flatMap AudioSamples.toLeBytes

theorem data_terminalEvent (failure : Option DengjenError) : (terminalEvent failure).data = [] := by
  cases failure with
  | none => rfl
  | some error => rfl

theorem asWaveBytes_heardSamples {σ : Type*} (provider : SpeechSynthesisTaskProvider σ) :
    AudioSamples.asWaveBytes (heardSamples provider) =
      (heard provider).1.flatMap fun audio => AudioSamples.asWaveBytes audio.samples := by
  rw [heardSamples, AudioSamples.asWaveBytes_flatten, List.flatMap_map]

variable {cli : Cli.Host} {host : Host} {service : Service} {req : SynthesisRequest} {job : Job}
  {call : SpeakCall}

/-- A request to the server, a speak call and a file, on one voice, with one text and the same
prosody: whatever mode each of them is in, they have the same samples and end in the same way. -/
theorem one_sound (hops : cli.ops = host.ops) (hcli : cli.synthesisThreadPool = .ok ())
    (hpool : host.synthesisThreadPool = .ok ())
    (haccepted : host.synthesizeUtterance service req = .ok job)
    (hspeaks : SpeaksWith cli job.voice.backend.model job.voice.state call)
    (hmode : call.params.mode = 0 ∨ call.params.mode = 1 ∨ call.params.mode = 3)
    (htext : call.text = job.text)
    (hconfig : some call.params.asSynthOutputConfig = job.outputConfig) :
    OneSound cli host job call := by
  have hprovider : Cli.taskProvider cli job.voice.backend.model job.voice.state job.text
      job.outputConfig = job.provider host := by
    rw [Cli.taskProvider, hops]
    rfl
  obtain ⟨mode, hstreamMode, hnot⟩ := exists_streamMode call hmode
  have hsynthesized := doSynthesize_eq hcli hspeaks hstreamMode hnot
  rw [htext, hconfig, hprovider] at hsynthesized
  have hevents := worker_eq hsynthesized
  have hbytes := asWaveBytes_heardSamples (job.provider host)
  rw [AudioSamples.asWaveBytes] at hbytes
  have hchunks : Drains (job.next host) .building (job.answer host) := drains_answer hpool haccepted
  rw [answer_eq] at hchunks
  refine ⟨hevents, blocking_eq hsynthesized, hchunks, ?_, ?_, ?_, ?_, ?_⟩
  · intro hheard hspoken info hinfo hfits path
    rw [← hprovider] at hheard hspoken ⊢
    exact synthesizeToFile_eq hcli hheard hspoken hinfo hfits path
  · intro hheard hsilent path
    rw [← hprovider] at hheard hsilent
    exact synthesizeToFile_silent hcli hheard hsilent path
  · intro error hheard path
    rw [← hprovider] at hheard
    exact synthesizeToFile_error hcli hheard path
  · rw [hevents, speechEvents, List.flatMap_append, List.flatMap_map, List.flatMap_singleton,
      data_terminalEvent, List.append_nil, hbytes]
    rfl
  · rw [List.flatMap_map, hbytes]
    rfl

/-- A request that sets all of the prosody, for batches of two. -/
def quietRequest : SynthesisRequest :=
  ⟨"en", "hi", some ⟨some 50, some 20, some 50, some 100⟩, 3, some 2⟩

theorem one_sound_quiet : ∃ job : Job,
    idleHost.synthesizeUtterance idleService quietRequest = .ok job ∧
      OneSound Cli.writingHost idleHost job
        (speakCall Cli.writingHost job.voice.backend.model job.voice.state job.text
          ⟨1, 50, 20, 50, 100⟩) := by
  obtain ⟨job, haccepted, hconfig⟩ : ∃ job,
      idleHost.synthesizeUtterance idleService quietRequest = .ok job ∧
        some (SynthesisParams.asSynthOutputConfig ⟨1, 50, 20, 50, 100⟩) = job.outputConfig :=
    ⟨_, rfl, rfl⟩
  have hmode : (1 : Int) = 0 ∨ (1 : Int) = 1 ∨ (1 : Int) = 3 := .inr (.inl rfl)
  exact ⟨job, haccepted, one_sound rfl rfl rfl haccepted
    (speaksWith_speakCall rfl _ _ _ hmode) hmode rfl hconfig⟩

end Dengjen.Frontends

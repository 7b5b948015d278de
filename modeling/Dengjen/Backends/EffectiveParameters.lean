import Dengjen.Backends.ConfigHistory

/-!
# The parameters that reach inference

Of a voice's state, inference sees the speaker id or the preset and the scales
that the backend uses. Two states with the same effective parameters are alike
to every method that phonemizes or synthesizes, and a stored configuration
leaves nothing of the state before it in them, unless it names no speaker to a
voice that keeps the one it has.
-/

namespace Dengjen

/-- The scales are those of noise, of length and of noise w. -/
structure EffectiveParameters where
  speaker : Option Int
  voiceName : Option String
  scales : Option (F32 × F32 × F32)
  deriving DecidableEq

namespace Backend

/-- What the two Piper models put into the tensors of an inference. -/
def piperParameters (voice : Piper.VitsModelCommons) (state : Piper.PiperSynthesisConfig) :
    EffectiveParameters :=
  let snapshot := Piper.snapshotScalesAndSpeaker state voice.config.numSpeakers
    (Piper.resolveDefaultSpeakerId voice.config)
  ⟨snapshot.2, none, some snapshot.1⟩

/-- What a sentence is spoken with. -/
def effectiveParameters : (backend : Backend) → backend.State → EffectiveParameters
  | piper voice, state => piperParameters voice.toVitsModelCommons state
  | piperStreaming voice, state => piperParameters voice.toVitsModelCommons state
  | melo voice, fallback =>
      let synth := voice.synthesisConfig fallback
      ⟨some (synth.speaker.getD 0), none,
        some (synth.noiseScale, synth.lengthScale, synth.noiseScaleW)⟩
  | kokoro voice, synthConfig => ⟨none, some (voice.voiceName synthConfig), none⟩

/-- No method that phonemizes or synthesizes tells the states apart. -/
structure SpeaksAlike (backend : Backend) (state state' : backend.State) : Prop where
  phonemizeText : backend.model.phonemizeText state = backend.model.phonemizeText state'
  speakBatch : backend.model.speakBatch state = backend.model.speakBatch state'
  speakOneSentence : backend.model.speakOneSentence state = backend.model.speakOneSentence state'
  streamSynthesis : backend.model.streamSynthesis state = backend.model.streamSynthesis state'

section Observations

variable {backend : Backend} {state state' : backend.State}

theorem inferenceInputs_congr {voice : Piper.VitsModelCommons}
    {state state' : Piper.PiperSynthesisConfig}
    (h : piperParameters voice state = piperParameters voice state') :
    voice.inferenceInputs state = voice.inferenceInputs state' := by
  obtain ⟨hspeaker, -, hscales⟩ := EffectiveParameters.mk.inj h
  have hsnapshot : Piper.snapshotScalesAndSpeaker state voice.config.numSpeakers
        (Piper.resolveDefaultSpeakerId voice.config) =
      Piper.snapshotScalesAndSpeaker state' voice.config.numSpeakers
        (Piper.resolveDefaultSpeakerId voice.config) :=
    Prod.ext (Option.some.inj hscales) hspeaker
  funext ids
  rw [Piper.VitsModelCommons.inferenceInputs, hsnapshot]
  rfl

/-- The methods of both Piper models see the state through the inference of ids alone. -/
theorem piperMethods_congr (voice : Piper.VitsModelCommons)
    {infer : Piper.PiperSynthesisConfig → List Int → DengjenResult Audio}
    {state state' : Piper.PiperSynthesisConfig} (h : infer state = infer state') :
    (voice.toDengjenModel infer).speakBatch state = (voice.toDengjenModel infer).speakBatch state' ∧
      (voice.toDengjenModel infer).speakOneSentence state =
        (voice.toDengjenModel infer).speakOneSentence state' := by
  simp only [Piper.VitsModelCommons.toDengjenModel, h, and_self]

theorem speaksAlike_piper {voice : Piper.VitsModel} {state state' : Piper.PiperSynthesisConfig}
    (h : piperParameters voice.toVitsModelCommons state =
      piperParameters voice.toVitsModelCommons state') :
    (piper voice).SpeaksAlike state state' := by
  have hinfer : voice.inferWithValues state = voice.inferWithValues state' := by
    funext ids
    rw [Piper.VitsModel.inferWithValues, inferenceInputs_congr h]
    rfl
  obtain ⟨hbatch, hsentence⟩ := piperMethods_congr voice.toVitsModelCommons hinfer
  exact ⟨rfl, hbatch, hsentence, rfl⟩

theorem speaksAlike_piperStreaming {voice : Piper.VitsStreamingModel}
    {state state' : Piper.PiperSynthesisConfig}
    (h : piperParameters voice.toVitsModelCommons state =
      piperParameters voice.toVitsModelCommons state') :
    (piperStreaming voice).SpeaksAlike state state' := by
  have hencoder : voice.inferEncoder state = voice.inferEncoder state' := by
    funext ids
    rw [Piper.VitsStreamingModel.inferEncoder, inferenceInputs_congr h]
    rfl
  have hinfer : voice.inferWithValues state = voice.inferWithValues state' := by
    funext ids
    rw [Piper.VitsStreamingModel.inferWithValues, hencoder]
    rfl
  have hstream : voice.streamSynthesis state = voice.streamSynthesis state' := by
    funext phonemes chunkSize chunkPadding
    rw [Piper.VitsStreamingModel.streamSynthesis, hencoder]
    rfl
  obtain ⟨hbatch, hsentence⟩ := piperMethods_congr voice.toVitsModelCommons hinfer
  exact ⟨rfl, hbatch, hsentence, hstream⟩

/-- Speaker 0 stands in for a speaker that is not set. -/
theorem speaksAlike_melo {voice : Melo.MeloTTSModel} {state state' : Option SynthesisConfig}
    (h : (melo voice).effectiveParameters state = (melo voice).effectiveParameters state') :
    (melo voice).SpeaksAlike state state' := by
  obtain ⟨hspeaker, -, hscales⟩ := EffectiveParameters.mk.inj h
  simp only [Option.some.injEq, Prod.mk.injEq] at hspeaker hscales
  obtain ⟨hnoise, hlength, hnoiseW⟩ := hscales
  have hsentence : voice.speakOneSentence state = voice.speakOneSentence state' := by
    funext phonemes
    simp only [Melo.MeloTTSModel.speakOneSentence, Melo.MeloTTSModel.synthesizePhoneTonePairs,
      Melo.MeloTTSModel.inferenceInputs, hspeaker, hnoise, hlength, hnoiseW]
  refine ⟨rfl, ?_, hsentence, rfl⟩
  funext batches
  exact congrArg (fun speak => batches.mapM speak) hsentence

theorem speaksAlike_kokoro {voice : Kokoro.KokoroModel} {state state' : SynthesisConfig}
    (h : voice.voiceName state = voice.voiceName state') :
    (kokoro voice).SpeaksAlike state state' := by
  have hchunk : voice.synthesizeTokenChunk state = voice.synthesizeTokenChunk state' := by
    funext tokens
    rw [Kokoro.KokoroModel.synthesizeTokenChunk, h]
    rfl
  have hsentence : voice.synthesizePhonemes state = voice.synthesizePhonemes state' := by
    funext phonemes
    rw [Kokoro.KokoroModel.synthesizePhonemes, hchunk]
    rfl
  refine ⟨?_, ?_, hsentence, ?_⟩
  · funext text
    simp only [model, Kokoro.KokoroModel.toDengjenModel, Kokoro.KokoroModel.phonemizeText, h]
  · funext batches
    exact congrArg (fun speak => batches.mapM speak) hsentence
  · funext phonemes chunkSize chunkPadding
    simp only [model, Kokoro.KokoroModel.toDengjenModel, Kokoro.KokoroModel.streamSynthesis,
      hsentence]

/-- Nothing of the state but the effective parameters is heard. -/
theorem speaksAlike_of_eq
    (h : backend.effectiveParameters state = backend.effectiveParameters state') :
    backend.SpeaksAlike state state' := by
  cases backend with
  | piper voice => exact speaksAlike_piper h
  | piperStreaming voice => exact speaksAlike_piperStreaming h
  | melo voice => exact speaksAlike_melo h
  | kokoro voice =>
      exact speaksAlike_kokoro (Option.some.inj (EffectiveParameters.mk.inj h).2.1)

/-- What was stored before is forgotten, where the configuration names a speaker that the voice
would otherwise keep. -/
theorem effectiveParameters_stored {config : SynthesisConfig}
    (h : backend.KeepsSpeaker → backend.PassesSpeaker → config.speaker.isSome) :
    backend.effectiveParameters (backend.stored state config) =
      backend.effectiveParameters (backend.stored state' config) := by
  cases backend with
  | piper voice | piperStreaming voice =>
      simp only [effectiveParameters, piperParameters, Piper.snapshotScalesAndSpeaker, stored]
      by_cases hpasses : voice.config.numSpeakers > 1
      · obtain ⟨speaker, hspeaker⟩ := Option.isSome_iff_exists.mp (h trivial hpasses)
        rw [hspeaker, Option.some_or, Option.some_or]
      · simp only [if_neg hpasses]
  | melo _ | kokoro _ => rfl

end Observations

end Backend

end Dengjen

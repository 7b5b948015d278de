import Dengjen.Core.Integers
import Dengjen.Piper.Config

/-!
# Piper voices

`VitsModelCommons` is what the two Piper models share: the parsed configuration,
the speaker map read off it backwards, and the parameters behind the lock, which
are the state of the model. The phonemizers and the sessions are parameters.
-/

namespace Dengjen.Piper

/-- The tensors of one inference; the length tensor is the number of ids. -/
structure VitsInputs where
  ids : List Int
  lengths : List Int
  scales : F32 × F32 × F32
  speaker : Option Int
  deriving DecidableEq

/-- The inputs of a sentence's inference. -/
def buildVitsInputs (phonemeIds : List Int) (scales : F32 × F32 × F32) (speaker : Option Int) :
    VitsInputs :=
  ⟨phonemeIds, [phonemeIds.length], scales, speaker⟩

/-- Only a multi-speaker voice passes a speaker on, by default the voice's own. -/
def snapshotScalesAndSpeaker (synthConfig : PiperSynthesisConfig) (numSpeakers : Nat)
    (defaultSpeakerId : Int) : (F32 × F32 × F32) × Option Int :=
  ((synthConfig.noiseScale, synthConfig.lengthScale, synthConfig.noiseW),
    if numSpeakers > 1 then some (synthConfig.speaker.getD defaultSpeakerId) else none)

/-- The speakers of ids, from the ids of speakers. -/
def reversedMapping (input : HashMap String Int) : SpeakerMap := input.reversed

/-- What the voices of one model file and of two have in common. -/
structure VitsModelCommons where
  config : ModelConfig
  doPhonemizeText : String → DengjenResult (List String)

namespace VitsModelCommons

variable (voice : VitsModelCommons)

/-- The names of a voice's speakers. -/
def speakerMap : SpeakerMap := reversedMapping voice.config.speakerIdMap

/-- The id that a voice has to have for a marker. -/
def firstId (token : String) : DengjenResult Int :=
  match firstPhonemeId voice.config.phonemeIdMap token with
  | some id => .ok id
  | none => .error (.invalidConfiguration
      s!"Voice config's `phoneme_id_map` has no id for the required token `{token}`")

/-- The ids of the padding, the start and the end of a sentence. -/
def getMetaIds : DengjenResult (Int × Int × Int) := do
  let padId ← voice.firstId "_"
  let bosId ← voice.firstId "^"
  let eosId ← voice.firstId "$"
  pure (padId, bosId, eosId)

/-- The language of a voice. -/
def language : Option String :=
  match voice.config.language with
  | some lang => some lang.code
  | none => some voice.config.espeakVoice

/-- The properties of a voice, of which its quality is the only one. -/
def getProperties : HashMap String String :=
  AList.singleton "quality" (voice.config.audio.quality.getD "unknown")

/-- The configuration that a voice is made with. -/
def factorySynthesisConfig : PiperSynthesisConfig where
  speaker :=
    if voice.config.numSpeakers > 1 then some (resolveDefaultSpeakerId voice.config) else none
  lengthScale := voice.config.inference.lengthScale
  noiseScale := voice.config.inference.noiseScale
  noiseW := voice.config.inference.noiseW

/-- The speaker that is set stays when the new parameters name none. -/
def doSetDefaultSynthConfig (synthConfig newConfig : PiperSynthesisConfig) :
    DengjenResult Unit × PiperSynthesisConfig :=
  match ensureKnownSpeaker voice.speakerMap newConfig.speaker with
  | .error error => (.error error, synthConfig)
  | .ok () =>
      (.ok (),
        { lengthScale := newConfig.lengthScale
          noiseScale := newConfig.noiseScale
          noiseW := newConfig.noiseW
          speaker := newConfig.speaker.or synthConfig.speaker })

/-- The ids of a sentence's phonemes in its frame. -/
def phonemesToInputIds (phonemes : String) (padId bosId eosId : Int) : List Int :=
  mapPhonemesToIds voice.config.phonemeIdMap phonemes padId bosId eosId

/-- The format of a voice's samples. -/
def getAudioOutputInfo : DengjenResult AudioInfo := .ok ⟨voice.config.audio.sampleRate, 1, 2⟩

/-- What an inference on the phoneme ids is run with under the current parameters. -/
def inferenceInputs (synthConfig : PiperSynthesisConfig) (inputPhonemes : List Int) : VitsInputs :=
  let (scales, speaker) := snapshotScalesAndSpeaker synthConfig voice.config.numSpeakers
    (resolveDefaultSpeakerId voice.config)
  buildVitsInputs inputPhonemes scales speaker

/-- The speaker that goes into every inference under the current parameters. -/
def inferenceSpeaker (synthConfig : PiperSynthesisConfig) : Option Int :=
  (snapshotScalesAndSpeaker synthConfig voice.config.numSpeakers
    (resolveDefaultSpeakerId voice.config)).2

@[simp] theorem inferenceInputs_speaker (synthConfig : PiperSynthesisConfig)
    (inputPhonemes : List Int) :
    (voice.inferenceInputs synthConfig inputPhonemes).speaker =
      voice.inferenceSpeaker synthConfig := rfl

/-- A sentence's phoneme ids, framed by the ids of its start and end. -/
def sentenceIds (phonemes : String) : DengjenResult (List Int) := do
  let (padId, bosId, eosId) ← voice.getMetaIds
  pure (voice.phonemesToInputIds phonemes padId bosId eosId)

/-- The methods of both Piper models, over the inference of one sentence's ids. -/
def toDengjenModel (inferWithValues : PiperSynthesisConfig → List Int → DengjenResult Audio) :
    DengjenModel PiperSynthesisConfig where
  phonemizeText _ text := voice.doPhonemizeText text
  speakBatch synthConfig phonemeBatches := do
    let (padId, bosId, eosId) ← voice.getMetaIds
    phonemeBatches.mapM fun phonemes =>
      inferWithValues synthConfig (voice.phonemesToInputIds phonemes padId bosId eosId)
  speakOneSentence synthConfig phonemes := do
    let ids ← voice.sentenceIds phonemes
    inferWithValues synthConfig ids
  getDefaultSynthesisConfig _ := .ok (some voice.factorySynthesisConfig.toSynthesisConfig)
  getFallbackSynthesisConfig synthConfig := .ok (some synthConfig.toSynthesisConfig)
  setFallbackSynthesisConfig synthConfig synthesisConfig :=
    voice.doSetDefaultSynthConfig synthConfig (.ofSynthesisConfig synthesisConfig)
  getLanguage _ := .ok voice.language
  getSpeakers _ := .ok (some voice.speakerMap)
  speakerNameToId _ name := .ok (voice.config.speakerIdMap.lookup name)
  properties _ := .ok voice.getProperties
  audioOutputInfo _ := voice.getAudioOutputInfo

end VitsModelCommons

/-- The model that runs one session on a whole sentence. -/
structure VitsModel extends VitsModelCommons where
  session : VitsInputs → DengjenResult AudioSamples

namespace VitsModel

variable (voice : VitsModel)

/-- Speaks the ids of a sentence. -/
def inferWithValues (synthConfig : PiperSynthesisConfig) (inputPhonemes : List Int) :
    DengjenResult Audio := do
  let samples ← voice.session (voice.inferenceInputs synthConfig inputPhonemes)
  pure (Audio.new samples voice.config.audio.sampleRate)

/-- The voice as the crates share it. -/
def toDengjenModel : DengjenModel PiperSynthesisConfig :=
  voice.toVitsModelCommons.toDengjenModel voice.inferWithValues

end VitsModel

/-- An array of floats with its shape. -/
structure Tensor where
  shape : List Nat
  data : List F32
  deriving DecidableEq

/-- What the encoder hands to the decoder. -/
structure EncoderOutputs where
  z : Tensor
  yMask : Tensor
  g : Tensor
  deriving DecidableEq

/-- The samples of a frame, where a voice does not say. -/
def defaultHopLength : Nat := 256

/-- The model whose decoder runs apart from its encoder. `speechStreamer` is the stream of
decoded chunks for encoder outputs, a chunk size, a chunk padding and a hop length. -/
structure VitsStreamingModel extends VitsModelCommons where
  encoderModel : VitsInputs → DengjenResult EncoderOutputs
  decoderModel : EncoderOutputs → DengjenResult AudioSamples
  speechStreamer : EncoderOutputs → Nat → Nat → Nat → Outcome (DengjenResult AudioStream)

namespace VitsStreamingModel

variable (voice : VitsStreamingModel)

/-- The encoder's answer to the ids of a sentence. -/
def inferEncoder (synthConfig : PiperSynthesisConfig) (inputPhonemes : List Int) :
    DengjenResult EncoderOutputs :=
  voice.encoderModel (voice.inferenceInputs synthConfig inputPhonemes)

/-- Speaks the ids of a sentence in one piece. -/
def inferWithValues (synthConfig : PiperSynthesisConfig) (inputPhonemes : List Int) :
    DengjenResult Audio := do
  let encoderOutputs ← voice.inferEncoder synthConfig inputPhonemes
  let samples ← voice.decoderModel encoderOutputs
  pure (Audio.new samples voice.config.audio.sampleRate)

/-- `stream_synthesis` with a token that is not cancelled yet. -/
def streamSynthesis (synthConfig : PiperSynthesisConfig) (phonemes : String)
    (chunkSize chunkPadding : Nat) : Outcome (DengjenResult AudioStream) :=
  let encoded := do
    let ids ← voice.sentenceIds phonemes
    voice.inferEncoder synthConfig ids
  match encoded with
  | .error error => .returned (.error error)
  | .ok encoderOutputs =>
      voice.speechStreamer encoderOutputs chunkSize chunkPadding
        (voice.config.hopLength.getD defaultHopLength)

/-- The voice as the crates share it, with streams of its own. -/
def toDengjenModel : DengjenModel PiperSynthesisConfig :=
  { voice.toVitsModelCommons.toDengjenModel voice.inferWithValues with
    supportsStreamingOutput := fun _ => true
    streamSynthesis := voice.streamSynthesis }

end VitsStreamingModel

end Dengjen.Piper

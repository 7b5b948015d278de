import Dengjen.Melo.Config

/-!
# MeloTTS voices

The state is the stored configuration, which is missing until the first one is
set. What it does not hold comes from the voice's own configuration.
-/

namespace Dengjen.Melo

/-- The tensors of one inference. -/
structure MeloInputs where
  x : List Int
  xLengths : List Int
  tones : List Int
  sid : List Int
  noiseScale : F32
  lengthScale : F32
  noiseScaleW : F32
  deriving DecidableEq

/-- The speakers of ids, from the ids of speakers. -/
def reversedSpeakerMap (speakerIdMap : HashMap String Int) : SpeakerMap := speakerIdMap.reversed

/-- `phoneTonePairs` is the phonemizer backend and `session` runs the model. -/
structure MeloTTSModel where
  config : MeloVoiceConfig
  phoneTonePairs : String → DengjenResult (List (List (String × String)))
  session : MeloInputs → DengjenResult AudioSamples

namespace MeloTTSModel

variable (voice : MeloTTSModel)

/-- The names of a voice's speakers. -/
def speakerMap : SpeakerMap := reversedSpeakerMap voice.config.speakerIdMap

/-- A text as the sentences that are spoken, each a list of pairs in lines. -/
def phonemizeText (text : String) : DengjenResult (List String) := do
  let sentences ← voice.phoneTonePairs text
  pure (sentences.map encodePairs)

/-- The parameters of the next synthesis. -/
def synthesisConfig (fallback : Option SynthesisConfig) : MeloSynthesisConfig where
  speaker := (fallback.bind fun c => c.speaker).or voice.config.defaultSpeakerId
  noiseScale := (fallback.bind fun c => c.parameters.lookup SynthConfig.noiseScale).getD
    voice.config.inference.noiseScale
  lengthScale := (fallback.bind fun c => c.parameters.lookup SynthConfig.lengthScale).getD
    voice.config.inference.lengthScale
  noiseScaleW := (fallback.bind fun c => c.parameters.lookup SynthConfig.noiseScaleW).getD
    voice.config.inference.noiseScaleW

/-- A voice without a speaker to use is run with speaker 0. -/
def inferenceInputs (pairs : List (String × String)) (synth : MeloSynthesisConfig) :
    MeloInputs :=
  let (phoneIds, toneIds) :=
    mapPhoneTonePairsToIds voice.config.phoneIdMap voice.config.toneIdMap pairs
  { x := phoneIds
    xLengths := [phoneIds.length]
    tones := toneIds
    sid := [synth.speaker.getD 0]
    noiseScale := synth.noiseScale
    lengthScale := synth.lengthScale
    noiseScaleW := synth.noiseScaleW }

/-- The speaker that goes into every inference under the stored configuration. -/
def inferenceSpeaker (fallback : Option SynthesisConfig) : Int :=
  (voice.synthesisConfig fallback).speaker.getD 0

@[simp] theorem inferenceInputs_sid (pairs : List (String × String))
    (fallback : Option SynthesisConfig) :
    (voice.inferenceInputs pairs (voice.synthesisConfig fallback)).sid =
      [voice.inferenceSpeaker fallback] := rfl

/-- Speaks the pairs of a sentence. -/
def synthesizePhoneTonePairs (pairs : List (String × String)) (synth : MeloSynthesisConfig) :
    DengjenResult Audio := do
  let samples ← voice.session (voice.inferenceInputs pairs synth)
  pure (Audio.new samples voice.config.sampleRate)

/-- Speaks a sentence with the configuration that is stored. -/
def speakOneSentence (fallback : Option SynthesisConfig) (phonemes : String) :
    DengjenResult Audio :=
  voice.synthesizePhoneTonePairs (decodePairs phonemes) (voice.synthesisConfig fallback)

/-- The configuration that a voice is made with. -/
def defaultSynthesisConfig : MeloSynthesisConfig where
  speaker := voice.config.defaultSpeakerId
  noiseScale := voice.config.inference.noiseScale
  lengthScale := voice.config.inference.lengthScale
  noiseScaleW := voice.config.inference.noiseScaleW

/-- Stores a configuration, unless its speaker is unknown. -/
def setFallbackSynthesisConfig (fallback : Option SynthesisConfig)
    (synthesisConfig : SynthesisConfig) : DengjenResult Unit × Option SynthesisConfig :=
  match ensureKnownSpeaker voice.speakerMap synthesisConfig.speaker with
  | .error error => (.error error, fallback)
  | .ok () => (.ok (), some synthesisConfig)

/-- The voice as the crates share it. -/
def toDengjenModel : DengjenModel (Option SynthesisConfig) where
  audioOutputInfo _ := .ok ⟨voice.config.sampleRate, 1, 2⟩
  phonemizeText _ text := voice.phonemizeText text
  speakBatch fallback phonemeBatches := phonemeBatches.mapM (voice.speakOneSentence fallback)
  speakOneSentence := voice.speakOneSentence
  getDefaultSynthesisConfig _ := .ok (some voice.defaultSynthesisConfig.toSynthesisConfig)
  getFallbackSynthesisConfig fallback := .ok fallback
  setFallbackSynthesisConfig := voice.setFallbackSynthesisConfig
  getSpeakers _ := .ok (some voice.speakerMap)

end MeloTTSModel

end Dengjen.Melo

import Dengjen.Core.Error
import Dengjen.Core.Speakers

/-!
# The model interface

`DengjenModel σ` is the trait every voice backend implements, over the state
`σ` that its methods read behind their locks. The fields with a default value
are the trait's default methods.
-/

namespace Dengjen

/-- An `f32`, by its bits. No arithmetic is done on it here. -/
structure F32 where
  bits : BitVec 32
  deriving DecidableEq, Repr

/-- The samples of an audio. -/
abbrev AudioSamples := List F32

/-- The format of an audio. -/
structure AudioInfo where
  sampleRate : Nat
  numChannels : Nat
  sampleWidth : Nat
  deriving DecidableEq, Repr

/-- Samples with their format. -/
structure Audio where
  samples : AudioSamples
  info : AudioInfo
  deriving DecidableEq, Repr

/-- `Audio::new`: one channel of 16-bit samples. -/
def Audio.new (samples : AudioSamples) (sampleRate : Nat) : Audio :=
  ⟨samples, ⟨sampleRate, 1, 2⟩⟩

/-- The configuration that the backends share. -/
structure SynthesisConfig where
  speaker : Option Int
  parameters : HashMap String F32
  deriving DecidableEq

/-- `SynthesisConfig::default`. -/
def SynthesisConfig.default : SynthesisConfig := ⟨none, ∅⟩

/-- The items an uncancelled drain of a stream meets; it ends early at a panic. -/
abbrev AudioStream := List (Outcome (DengjenResult AudioSamples))

/-- What a backend offers, over the state that its calls change. -/
structure DengjenModel (σ : Type*) where
  audioOutputInfo : σ → DengjenResult AudioInfo
  phonemizeText : σ → String → DengjenResult (List String)
  speakBatch : σ → List String → DengjenResult (List Audio)
  speakOneSentence : σ → String → DengjenResult Audio
  getDefaultSynthesisConfig : σ → DengjenResult (Option SynthesisConfig)
  getFallbackSynthesisConfig : σ → DengjenResult (Option SynthesisConfig)
  setFallbackSynthesisConfig : σ → SynthesisConfig → DengjenResult Unit × σ
  getLanguage : σ → DengjenResult (Option String) := fun _ => .ok none
  getSpeakers : σ → DengjenResult (Option (HashMap Int String)) := fun _ => .ok none
  speakerIdToName : σ → Int → DengjenResult (Option String) := fun state sid =>
    defaultSpeakerIdToName (getSpeakers state) sid
  speakerNameToId : σ → String → DengjenResult (Option Int) := fun state name =>
    defaultSpeakerNameToId (getSpeakers state) name
  properties : σ → DengjenResult (HashMap String String) := fun _ => .ok ∅
  supportsStreamingOutput : σ → Bool := fun _ => false
  streamSynthesis : σ → String → Nat → Nat → Outcome (DengjenResult AudioStream) :=
    fun _ _ _ _ => .returned (.error (.unsupportedOperation
      "Streaming synthesis is not supported for this model"))

end Dengjen

import Dengjen.Capi.FfiError
import Dengjen.Piper.Voice
import Dengjen.Synth.Wrapper

/-!
# The default configuration of the C API

A `PiperSynthConfig` of the C API has 32 bits for its speaker, of which one value
stands for no speaker. The ids of a voice's configuration are 64-bit integers.
-/

namespace Dengjen.Capi

open Piper Synth

/-- The number that stands for no speaker. -/
def piperSynthConfigNoSpeaker : BitVec 32 := BitVec.allOnes 32

/-- The settings as the C API has them. -/
structure PiperSynthConfig where
  speaker : BitVec 32
  lengthScale : F32
  noiseScale : F32
  noiseW : F32
  deriving DecidableEq

/-- The settings of the C API as Piper has them. -/
def PiperSynthConfig.asPiperSynthConfig (config : PiperSynthConfig) : PiperSynthesisConfig where
  speaker :=
    if config.speaker ≠ piperSynthConfigNoSpeaker then some config.speaker.toNat else none
  lengthScale := config.lengthScale
  noiseScale := config.noiseScale
  noiseW := config.noiseW

/-- `sid as u32`, or the value for no speaker. -/
def speakerField (speaker : Option Int) : BitVec 32 :=
  match speaker with
  | some sid => BitVec.ofInt 32 sid
  | none => piperSynthConfigNoSpeaker

/-- A null pointer is no voice. -/
def libdengjenGetPiperDefaultSynthConfig {σ : Type*}
    (voice : Option (DengjenSpeechSynthesizer σ × σ)) : DengjenFFIResult PiperSynthConfig :=
  match voice with
  | none => .error (.nullPointer "voice_ptr")
  | some (synth, state) =>
      match synth.toDengjenModel.getDefaultSynthesisConfig state with
      | .error error => .error (.ofDengjenError error)
      | .ok none =>
          .error ⟨ErrorCodes.invalidConfiguration,
            "voice has no default Piper synthesis config to return"⟩
      | .ok (some config) =>
          let piperConfig := PiperSynthesisConfig.ofSynthesisConfig config
          .ok
            { speaker := speakerField piperConfig.speaker
              lengthScale := piperConfig.lengthScale
              noiseScale := piperConfig.noiseScale
              noiseW := piperConfig.noiseW }

/-! ## The trip to C and back -/

/-- The configuration that comes back: the scales are kept, and so are the speakers that the field
can tell from no speaker. -/
def throughC (config : PiperSynthesisConfig) : PiperSynthesisConfig :=
  { config with
    speaker :=
      if speakerField config.speaker ≠ piperSynthConfigNoSpeaker then
        some (speakerField config.speaker).toNat
      else none }

/-- The ids that a field of 32 bits holds and that are not the value for no speaker. -/
def FitsField (sid : Int) : Prop := 0 ≤ sid ∧ sid < piperSynthConfigNoSpeaker.toNat

instance : DecidablePred FitsField := fun _ => inferInstanceAs (Decidable (_ ∧ _))

theorem throughC_speaker_eq_iff (config : PiperSynthesisConfig) :
    (throughC config).speaker = config.speaker ↔ ∀ sid ∈ config.speaker, FitsField sid := by
  cases hspeaker : config.speaker with
  | none => simp [throughC, hspeaker, speakerField]
  | some sid =>
      have hmod : ((BitVec.ofInt 32 sid).toNat : Int) = sid % 2 ^ 32 := by
        rw [BitVec.toNat_ofInt]
        exact Int.toNat_of_nonneg (Int.emod_nonneg _ (by decide))
      have hsentinel : piperSynthConfigNoSpeaker.toNat = 2 ^ 32 - 1 := by decide
      simp only [throughC, hspeaker, speakerField, Option.mem_def, Option.some.injEq, forall_eq',
        FitsField, hsentinel]
      have hne : BitVec.ofInt 32 sid ≠ piperSynthConfigNoSpeaker ↔ sid % 2 ^ 32 ≠ 2 ^ 32 - 1 := by
        rw [ne_eq, ← BitVec.toNat_inj, hsentinel]
        omega
      split
      · next h =>
          rw [hne] at h
          rw [Option.some.injEq, hmod]
          omega
      · next h =>
          rw [hne, not_not] at h
          simp only [reduceCtorEq, false_iff]
          omega

/-- The voice's factory configuration crosses over. -/
theorem getPiperDefaultSynthConfig_eq (voice : VitsModelCommons)
    (inferWithValues : PiperSynthesisConfig → List Int → DengjenResult Audio)
    (state : PiperSynthesisConfig) :
    ∃ config, libdengjenGetPiperDefaultSynthConfig
        (some (⟨voice.toDengjenModel inferWithValues⟩, state)) = .ok config ∧
      config.asPiperSynthConfig = throughC voice.factorySynthesisConfig := by
  refine ⟨_, rfl, ?_⟩
  rw [PiperSynthesisConfig.ofSynthesisConfig_toSynthesisConfig]
  rfl

/-- The default speaker of a voice comes back from C exactly when the voice has only one speaker, or
its default id fits into the field. -/
theorem default_speaker_round_trips_iff (voice : VitsModelCommons)
    (inferWithValues : PiperSynthesisConfig → List Int → DengjenResult Audio)
    (state : PiperSynthesisConfig) :
    (∃ config, libdengjenGetPiperDefaultSynthConfig
        (some (⟨voice.toDengjenModel inferWithValues⟩, state)) = .ok config ∧
      config.asPiperSynthConfig.speaker = voice.factorySynthesisConfig.speaker) ↔
      (voice.config.numSpeakers > 1 → FitsField (resolveDefaultSpeakerId voice.config)) := by
  obtain ⟨config, hconfig, hthrough⟩ := getPiperDefaultSynthConfig_eq voice inferWithValues state
  have hspeaker : (∀ sid ∈ voice.factorySynthesisConfig.speaker, FitsField sid) ↔
      (voice.config.numSpeakers > 1 → FitsField (resolveDefaultSpeakerId voice.config)) := by
    rw [VitsModelCommons.factorySynthesisConfig]
    split <;> simp_all
  rw [← hspeaker, ← throughC_speaker_eq_iff, ← hthrough]
  constructor
  · rintro ⟨config', hconfig', hkept⟩
    rw [hconfig] at hconfig'
    cases hconfig'
    exact hkept
  · exact fun hkept => ⟨config, hconfig, hkept⟩

/-- A voice of two speakers with a default id of its own. -/
def twoSpeakers (defaultSpeakerId : Int) : VitsModelCommons where
  config :=
    { language := none
      audio := ⟨22050, none⟩
      numSpeakers := 2
      speakerIdMap := HashMap.fromIter [("alice", defaultSpeakerId), ("bob", 0)]
      streaming := none
      espeakVoice := "en-us"
      inference := ⟨⟨0⟩, ⟨0⟩, ⟨0⟩⟩
      phonemeIdMap := ∅
      defaultSpeakerId := some defaultSpeakerId
      hopLength := none }
  doPhonemizeText text := .ok [text]

/-- The default id -1 is taken for no speaker, and the id 2 ^ 32 comes back as bob's. -/
theorem default_speaker_lost :
    ¬ (∃ config, libdengjenGetPiperDefaultSynthConfig
        (some (⟨(twoSpeakers (-1)).toDengjenModel fun _ _ => .ok (Audio.new [] 22050)⟩,
          (twoSpeakers (-1)).factorySynthesisConfig)) = .ok config ∧
      config.asPiperSynthConfig.speaker = (twoSpeakers (-1)).factorySynthesisConfig.speaker) ∧
    ∃ config, libdengjenGetPiperDefaultSynthConfig
        (some (⟨(twoSpeakers (2 ^ 32)).toDengjenModel fun _ _ => .ok (Audio.new [] 22050)⟩,
          (twoSpeakers (2 ^ 32)).factorySynthesisConfig)) = .ok config ∧
      config.asPiperSynthConfig.speaker = some 0 := by
  constructor
  · rintro ⟨config, hconfig, hspeaker⟩
    cases hconfig
    exact absurd hspeaker (by decide)
  · exact ⟨_, rfl, by decide⟩

end Dengjen.Capi

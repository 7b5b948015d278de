import Dengjen.Grpc.Registry

/-!
# Registrations that fail

`register_voice` inserts the new voice and then asks it for the reply. Any model
may be registered, and each of its methods may fail: when one that the reply
needs does, the call fails and the voice stays.
-/

namespace Dengjen.Grpc.Registry

open Synth

/-! ## Any model -/

/-- `Arc<dyn DengjenModel>` with the state behind its locks. -/
structure DynModel where
  State : Type
  model : DengjenModel State
  state : State

/-- A voice around a model. -/
structure DynVoice where
  State : Type
  synth : DengjenSpeechSynthesizer State
  state : State

namespace DynVoice

/-- Wraps a model, which has to answer for its audio format. -/
def new (model : DynModel) : DengjenResult DynVoice :=
  (DengjenSpeechSynthesizer.new model.model).map fun synth => ⟨model.State, synth, model.state⟩

/-- The description of a voice, from what its model answers. -/
def info (voice : DynVoice) (voiceKey : String) : DengjenGrpcResult VoiceDescriptor :=
  buildVoiceInfo voice.synth.toDengjenModel voice.state voiceKey

end DynVoice

section Register

variable {V : Type*} (info : V → String → DengjenGrpcResult VoiceDescriptor)

/-- The critical section of `register_voice`, over voices of any kind. -/
def registerCandidate (maxVoices : Nat) (voices : HashMap String V) (voiceKey : String)
    (candidate : V) : DengjenGrpcResult VoiceDescriptor × HashMap String V :=
  match voices.lookup voiceKey with
  | some voice => (info voice voiceKey, voices)
  | none =>
      if voices.keys.length ≥ maxVoices then
        (.error (.resourceExhausted s!"Too many loaded voices; the limit is {maxVoices}"), voices)
      else (info candidate voiceKey, voices.insert voiceKey candidate)

theorem registerVoice_eq_registerCandidate (maxVoices : Nat) (voices : RegisteredVoices)
    (voiceKey : String) (candidate : Registered) :
    registerVoice maxVoices voices voiceKey candidate =
      registerCandidate Registered.info maxVoices voices voiceKey candidate := by
  rw [registerVoice, registerCandidate]
  cases voices.lookup voiceKey <;> rfl

end Register

/-- `register_voice` with a model of any kind. -/
def registerModel (maxVoices : Nat) (voices : HashMap String DynVoice) (voiceKey : String)
    (model : DynModel) : DengjenGrpcResult VoiceDescriptor × HashMap String DynVoice :=
  match DynVoice.new model with
  | .error error => (.error (.dengjenError error), voices)
  | .ok candidate => registerCandidate DynVoice.info maxVoices voices voiceKey candidate

/-! ## When the reply can be built -/

/-- The methods that the reply of a new voice needs do not fail. -/
structure Describable {σ : Type*} (model : DengjenModel σ) (state : σ) : Prop where
  audioOutputInfo : (model.audioOutputInfo state).isOk
  getSpeakers : (model.getSpeakers state).isOk
  getLanguage : (model.getLanguage state).isOk
  getDefaultSynthesisConfig : (model.getDefaultSynthesisConfig state).isOk

section Reply

theorem isOk_iff_exists {ε α : Type*} {result : Except ε α} :
    result.isOk ↔ ∃ a, result = .ok a := by
  cases result with
  | error error => simp [Except.isOk, Except.toBool]
  | ok a => simp [Except.isOk, Except.toBool]

theorem isOk_bind_iff.{u} {ε : Type*} {α β : Type u} {result : Except ε α} {f : α → Except ε β} :
    (result >>= f).isOk ↔ ∃ a, result = .ok a ∧ (f a).isOk := by
  cases result with
  | error error => simp [bind, Except.bind, Except.isOk, Except.toBool]
  | ok a => simp [bind, Except.bind]

theorem ofModel_eq_ok_iff {α : Type*} {result : DengjenResult α} {a : α} :
    ofModel result = .ok a ↔ result = .ok a := by
  cases result with
  | error error => simp [ofModel, Except.mapError]
  | ok a => simp [ofModel, Except.mapError]

variable {σ : Type} {model : DengjenModel σ} {state : σ}

/-- The default speaker of a voice is looked up among its speakers, so that nothing else of the
model is asked for the settings. -/
theorem isOk_synthOptionsFromDefaultConfig (hspeakers : (model.getSpeakers state).isOk) :
    (synthOptionsFromDefaultConfig (DengjenSpeechSynthesizer.mk model).toDengjenModel state).isOk =
      (model.getDefaultSynthesisConfig state).isOk := by
  have hdefault : (DengjenSpeechSynthesizer.mk model).toDengjenModel.getDefaultSynthesisConfig state =
      model.getDefaultSynthesisConfig state := rfl
  have hname (sid : Int) : (DengjenSpeechSynthesizer.mk model).toDengjenModel.speakerIdToName state sid =
      defaultSpeakerIdToName (model.getSpeakers state) sid := rfl
  rw [synthOptionsFromDefaultConfig, hdefault]
  cases model.getDefaultSynthesisConfig state with
  | error error => rfl
  | ok config =>
      cases config with
      | none => rfl
      | some config =>
          change (synthOptionsFromSynthesisConfig _ _ config _).isOk = true
          rw [synthOptionsFromSynthesisConfig]
          cases config.speaker with
          | none => rfl
          | some sid =>
              dsimp only
              rw [hname]
              cases hmap : model.getSpeakers state with
              | error error =>
                  rw [hmap] at hspeakers
                  cases hspeakers
              | ok speakers => rfl

/-- The reply can be built exactly when none of the four methods fails. -/
theorem isOk_buildVoiceInfo_iff (voiceKey : String) :
    (buildVoiceInfo (DengjenSpeechSynthesizer.mk model).toDengjenModel state voiceKey).isOk ↔
      Describable model state := by
  have haudio : (DengjenSpeechSynthesizer.mk model).toDengjenModel.audioOutputInfo state =
      model.audioOutputInfo state := rfl
  have hspeakers : (DengjenSpeechSynthesizer.mk model).toDengjenModel.getSpeakers state =
      model.getSpeakers state := rfl
  have hlanguage : (DengjenSpeechSynthesizer.mk model).toDengjenModel.getLanguage state =
      model.getLanguage state := rfl
  simp only [buildVoiceInfo, isOk_bind_iff, ofModel_eq_ok_iff, haudio, hspeakers, hlanguage]
  constructor
  · rintro ⟨audioInfo, haudio', speakers, hspeakers', language, hlanguage', options, hoptions, -⟩
    have hfound : (model.getSpeakers state).isOk := isOk_iff_exists.mpr ⟨speakers, hspeakers'⟩
    refine ⟨isOk_iff_exists.mpr ⟨audioInfo, haudio'⟩, hfound,
      isOk_iff_exists.mpr ⟨language, hlanguage'⟩, ?_⟩
    rw [← isOk_synthOptionsFromDefaultConfig hfound]
    exact isOk_iff_exists.mpr ⟨options, hoptions⟩
  · rintro ⟨haudio', hspeakers', hlanguage', hdefault⟩
    rw [← isOk_synthOptionsFromDefaultConfig hspeakers'] at hdefault
    obtain ⟨audioInfo, haudio'⟩ := isOk_iff_exists.mp haudio'
    obtain ⟨speakers, hspeakers'⟩ := isOk_iff_exists.mp hspeakers'
    obtain ⟨language, hlanguage'⟩ := isOk_iff_exists.mp hlanguage'
    obtain ⟨options, hoptions⟩ := isOk_iff_exists.mp hdefault
    exact ⟨audioInfo, haudio', speakers, hspeakers', language, hlanguage', options, hoptions, rfl⟩

end Reply

/-! ## Failures that leave the registry alone -/

/-- When the call fails, the registry is as before it. -/
def Atomic {V : Type*} (voices : HashMap String V)
    (outcome : DengjenGrpcResult VoiceDescriptor × HashMap String V) : Prop :=
  ∀ error, outcome.1 = .error error → outcome.2 = voices

theorem insert_ne_of_lookup_eq_none {V : Type*} {voices : HashMap String V} {voiceKey : String}
    (h : voices.lookup voiceKey = none) (candidate : V) :
    voices.insert voiceKey candidate ≠ voices := by
  intro heq
  have hlookup := @AList.lookup_insert _ _ _ voiceKey candidate voices
  rw [heq, h] at hlookup
  cases hlookup

section Register

variable {V : Type*} {info : V → String → DengjenGrpcResult VoiceDescriptor} {maxVoices : Nat}
  {voices : HashMap String V} {voiceKey : String} {candidate : V}

/-- Only an inserted voice that cannot be described is left behind. -/
theorem atomic_registerCandidate_iff :
    Atomic voices (registerCandidate info maxVoices voices voiceKey candidate) ↔
      (voices.lookup voiceKey).isSome ∨ voices.keys.length ≥ maxVoices ∨
        (info candidate voiceKey).isOk := by
  cases hlookup : voices.lookup voiceKey with
  | some voice => simp [Atomic, registerCandidate, hlookup]
  | none =>
      by_cases hfull : voices.keys.length ≥ maxVoices
      · simp [Atomic, registerCandidate, hlookup, hfull]
      · have hinsert := insert_ne_of_lookup_eq_none hlookup candidate
        simp only [Atomic, registerCandidate, hlookup, hfull, if_false, hinsert, Option.isSome_none,
          Bool.false_eq_true, false_or]
        cases info candidate voiceKey with
        | error error => simp [Except.isOk, Except.toBool]
        | ok descriptor => simp [Except.isOk, Except.toBool]

end Register

/-- A registration that fails leaves the registry alone exactly when the key is registered already,
the registry is full, or the methods that the reply needs do not fail on the new model. -/
theorem registration_atomic_iff (maxVoices : Nat) (voices : HashMap String DynVoice)
    (voiceKey : String) (model : DynModel) :
    Atomic voices (registerModel maxVoices voices voiceKey model) ↔
      (voices.lookup voiceKey).isSome ∨ voices.keys.length ≥ maxVoices ∨
        Describable model.model model.state := by
  have hregister : registerModel maxVoices voices voiceKey model =
      registerCandidate DynVoice.info maxVoices voices voiceKey
        ⟨model.State, ⟨model.model⟩, model.state⟩ := rfl
  rw [hregister, atomic_registerCandidate_iff, DynVoice.info, isOk_buildVoiceInfo_iff]

/-- No voice that `load_voice` returns fails there. -/
theorem atomic_registerVoice (maxVoices : Nat) (voices : RegisteredVoices) (voiceKey : String)
    (candidate : Registered) :
    Atomic voices (registerVoice maxVoices voices voiceKey candidate) := by
  rw [registerVoice_eq_registerCandidate, atomic_registerCandidate_iff]
  refine .inr (.inr ?_)
  have hdescribable : Describable candidate.voice.backend.model candidate.voice.state := by
    obtain ⟨arc, backend, state⟩ := candidate
    cases backend <;> exact ⟨rfl, rfl, rfl, rfl⟩
  exact (isOk_buildVoiceInfo_iff voiceKey).mpr hdescribable

/-- A model with one of its methods failing, or none. -/
def mute (language : DengjenResult (Option String)) : DynModel where
  State := Unit
  model :=
    { audioOutputInfo := fun _ => .ok ⟨22050, 1, 2⟩
      phonemizeText := fun _ text => .ok [text]
      speakBatch := fun _ _ => .ok []
      speakOneSentence := fun _ _ => .ok (Audio.new [] 22050)
      getDefaultSynthesisConfig := fun _ => .ok none
      getFallbackSynthesisConfig := fun _ => .ok none
      setFallbackSynthesisConfig := fun _ _ => (.ok (), ())
      getLanguage := fun _ => language }
  state := ()

/-- The call fails, the voice stays, and the next one finds no room. -/
theorem failed_voice_takes_slot :
    let outcome := registerModel 1 ∅ "v1" (mute (.error (.operationError "no language")))
    ¬ Atomic ∅ outcome ∧ (outcome.2.lookup "v1").isSome ∧
      (registerModel 1 outcome.2 "v2" (mute (.ok none))).1 =
        .error (.resourceExhausted "Too many loaded voices; the limit is 1") := by
  refine ⟨?_, rfl, rfl⟩
  intro hatomic
  have hempty := congrArg (AList.lookup "v1") (hatomic _ rfl)
  cases hempty

end Dengjen.Grpc.Registry

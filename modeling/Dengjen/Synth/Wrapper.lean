import Dengjen.Backends

/-!
# The synthesizer around a model

`DengjenSpeechSynthesizer` implements the model interface by handing each call
to the model it wraps. The two speaker lookups are not among the methods it
forwards, so that it answers them with the trait's default methods.
-/

namespace Dengjen.Synth

variable {σ : Type*}

/-- A model behind the synthesizer. -/
structure DengjenSpeechSynthesizer (σ : Type*) where
  backend : DengjenModel σ

namespace DengjenSpeechSynthesizer

/-- Wraps a model. -/
def new (model : DengjenModel σ) : DengjenResult (DengjenSpeechSynthesizer σ) := .ok ⟨model⟩

/-- What the synthesizer forwards to its model. -/
def toDengjenModel (synth : DengjenSpeechSynthesizer σ) : DengjenModel σ where
  audioOutputInfo := synth.backend.audioOutputInfo
  phonemizeText := synth.backend.phonemizeText
  speakBatch := synth.backend.speakBatch
  speakOneSentence := synth.backend.speakOneSentence
  getDefaultSynthesisConfig := synth.backend.getDefaultSynthesisConfig
  getFallbackSynthesisConfig := synth.backend.getFallbackSynthesisConfig
  setFallbackSynthesisConfig := synth.backend.setFallbackSynthesisConfig
  getLanguage := synth.backend.getLanguage
  getSpeakers := synth.backend.getSpeakers
  properties := synth.backend.properties
  supportsStreamingOutput := synth.backend.supportsStreamingOutput
  streamSynthesis := synth.backend.streamSynthesis

end DengjenSpeechSynthesizer

/-- Every call on `outer` in the state returns, and does, what it does on `inner`. -/
structure AgreesAt (outer inner : DengjenModel σ) (state : σ) : Prop where
  audioOutputInfo : outer.audioOutputInfo state = inner.audioOutputInfo state
  phonemizeText : ∀ text, outer.phonemizeText state text = inner.phonemizeText state text
  speakBatch : ∀ batches, outer.speakBatch state batches = inner.speakBatch state batches
  speakOneSentence : ∀ phonemes,
    outer.speakOneSentence state phonemes = inner.speakOneSentence state phonemes
  getDefaultSynthesisConfig :
    outer.getDefaultSynthesisConfig state = inner.getDefaultSynthesisConfig state
  getFallbackSynthesisConfig :
    outer.getFallbackSynthesisConfig state = inner.getFallbackSynthesisConfig state
  setFallbackSynthesisConfig : ∀ config,
    outer.setFallbackSynthesisConfig state config = inner.setFallbackSynthesisConfig state config
  getLanguage : outer.getLanguage state = inner.getLanguage state
  getSpeakers : outer.getSpeakers state = inner.getSpeakers state
  speakerIdToName : ∀ sid, outer.speakerIdToName state sid = inner.speakerIdToName state sid
  speakerNameToId : ∀ name, outer.speakerNameToId state name = inner.speakerNameToId state name
  properties : outer.properties state = inner.properties state
  supportsStreamingOutput :
    outer.supportsStreamingOutput state = inner.supportsStreamingOutput state
  streamSynthesis : ∀ phonemes chunkSize chunkPadding,
    outer.streamSynthesis state phonemes chunkSize chunkPadding =
      inner.streamSynthesis state phonemes chunkSize chunkPadding

/-- The model answers both speaker lookups the way the trait does by default. -/
structure UsesDefaultLookups (model : DengjenModel σ) (state : σ) : Prop where
  speakerIdToName : ∀ sid,
    model.speakerIdToName state sid = defaultSpeakerIdToName (model.getSpeakers state) sid
  speakerNameToId : ∀ name,
    model.speakerNameToId state name = defaultSpeakerNameToId (model.getSpeakers state) name

/-- A wrapped model is seen unchanged exactly when it keeps to the default lookups. -/
theorem agreesAt_iff_usesDefaultLookups (backend : DengjenModel σ) (state : σ) :
    AgreesAt (DengjenSpeechSynthesizer.mk backend).toDengjenModel backend state ↔
      UsesDefaultLookups backend state := by
  constructor
  · intro agrees
    exact ⟨fun sid => (agrees.speakerIdToName sid).symm,
      fun name => (agrees.speakerNameToId name).symm⟩
  · intro defaults
    exact
      { audioOutputInfo := rfl
        phonemizeText := fun _ => rfl
        speakBatch := fun _ => rfl
        speakOneSentence := fun _ => rfl
        getDefaultSynthesisConfig := rfl
        getFallbackSynthesisConfig := rfl
        setFallbackSynthesisConfig := fun _ => rfl
        getLanguage := rfl
        getSpeakers := rfl
        speakerIdToName := fun sid => (defaults.speakerIdToName sid).symm
        speakerNameToId := fun name => (defaults.speakerNameToId name).symm
        properties := rfl
        supportsStreamingOutput := rfl
        streamSynthesis := fun _ _ _ => rfl }

/-- Only Piper looks a name up in its own configuration rather than among the speakers. -/
def NamesUnaliased : Backend → Prop
  | .piper voice => SpeakerMap.OneNamePerId voice.config.speakerIdMap
  | .piperStreaming voice => SpeakerMap.OneNamePerId voice.config.speakerIdMap
  | .melo _ | .kokoro _ => True

theorem usesDefaultLookups_iff (backend : Backend) (state : backend.State) :
    UsesDefaultLookups backend.model state ↔ NamesUnaliased backend := by
  have hlookup : UsesDefaultLookups backend.model state ↔
      ∀ name, backend.model.speakerNameToId state name = .ok (backend.speakers.findId name) := by
    constructor
    · intro defaults name
      simpa using defaults.speakerNameToId name
    · intro h
      exact ⟨fun sid => by simp, fun name => by simpa using h name⟩
  rw [hlookup]
  cases backend with
  | piper voice | piperStreaming voice =>
      rw [NamesUnaliased, ← SpeakerMap.findId_reversed_iff]
      exact forall_congr' fun name => ⟨fun h => (Except.ok.inj h).symm, fun h => congrArg _ h.symm⟩
  | melo _ | kokoro _ =>
      exact iff_of_true (fun _ => rfl) trivial

/-- The wrapper shows a model unchanged exactly when the model keeps to the default speaker
lookups; a Piper voice does so when no two of its names stand for one id, and the other
backends always do. -/
theorem wrapper_agreesAt_iff (model : DengjenModel σ) (state : σ) :
    (AgreesAt (DengjenSpeechSynthesizer.mk model).toDengjenModel model state ↔
      UsesDefaultLookups model state) ∧
    ∀ (backend : Backend) (state : backend.State),
      AgreesAt (DengjenSpeechSynthesizer.mk backend.model).toDengjenModel backend.model state ↔
        NamesUnaliased backend := by
  refine ⟨agreesAt_iff_usesDefaultLookups model state, fun backend state => ?_⟩
  exact (agreesAt_iff_usesDefaultLookups backend.model state).trans
    (usesDefaultLookups_iff backend state)

/-- A voice with two names for speaker 0. -/
def aliasedVoice : Piper.VitsModel where
  config :=
    { language := none
      audio := ⟨22050, none⟩
      numSpeakers := 2
      speakerIdMap := HashMap.fromIter [("amy", 0), ("ann", 0), ("bob", 1)]
      streaming := none
      espeakVoice := "en-us"
      inference := ⟨⟨0x3F2AC083⟩, ⟨0x3F800000⟩, ⟨0x3F4CCCCD⟩⟩
      phonemeIdMap := HashMap.fromIter [("_", [0]), ("^", [1]), ("$", [2])]
      defaultSpeakerId := none
      hopLength := none }
  doPhonemizeText text := .ok [text]
  session _ := .ok []

theorem aliasedVoice_not_agreesAt :
    ¬ AgreesAt (DengjenSpeechSynthesizer.mk (Backend.piper aliasedVoice).model).toDengjenModel
      (Backend.piper aliasedVoice).model (Backend.piper aliasedVoice).initialState := by
  intro agrees
  have hlost : (Except.ok none : DengjenResult (Option Int)) = .ok (some 0) :=
    agrees.speakerNameToId "ann"
  cases hlost

end Dengjen.Synth

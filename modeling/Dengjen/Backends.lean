import Dengjen.Kokoro.Voice
import Dengjen.Melo.Voice
import Dengjen.Piper.Voice

/-!
# The loaded voices

`Backend` is a voice of any of the models that `load_voice` can return, with its
interface and the state its methods share. The lemmas say what every voice does
with its configuration: it reads one off its state, it refuses an unknown
speaker without any effect, and it stores every other configuration.
-/

namespace Dengjen

/-- A voice of one of the backends. -/
inductive Backend
  | piper (voice : Piper.VitsModel)
  | piperStreaming (voice : Piper.VitsStreamingModel)
  | melo (voice : Melo.MeloTTSModel)
  | kokoro (voice : Kokoro.KokoroModel)

namespace Backend

/-- What the calls of a voice change. -/
abbrev State : Backend → Type
  | piper _ | piperStreaming _ => Piper.PiperSynthesisConfig
  | melo _ => Option SynthesisConfig
  | kokoro _ => SynthesisConfig

/-- A voice as the crates share it. -/
def model : (backend : Backend) → DengjenModel backend.State
  | piper voice => voice.toDengjenModel
  | piperStreaming voice => voice.toDengjenModel
  | melo voice => voice.toDengjenModel
  | kokoro voice => voice.toDengjenModel

/-- The state of a voice that has just been loaded. -/
def initialState : (backend : Backend) → backend.State
  | piper voice => (Piper.loadModelConfig voice.config).2
  | piperStreaming voice => (Piper.loadModelConfig voice.config).2
  | melo _ => none
  | kokoro _ => Kokoro.KokoroModel.initialSynthConfig

/-- The names of a voice's speakers. -/
def speakers : Backend → SpeakerMap
  | piper voice => voice.speakerMap
  | piperStreaming voice => voice.speakerMap
  | melo voice => voice.speakerMap
  | kokoro voice => voice.speakerMap

/-- What `get_fallback_synthesis_config` reads off the state. -/
def fallback : (backend : Backend) → backend.State → Option SynthesisConfig
  | piper _, state | piperStreaming _, state => some state.toSynthesisConfig
  | melo _, state => state
  | kokoro _, state => some state

/-- The state that an accepted configuration leaves behind. -/
def stored : (backend : Backend) → backend.State → SynthesisConfig → backend.State
  | piper _, state, config | piperStreaming _, state, config =>
      { Piper.PiperSynthesisConfig.ofSynthesisConfig config with
        speaker := config.speaker.or state.speaker }
  | melo _, _, config => some config
  | kokoro _, _, config => config

@[simp] theorem getSpeakers_eq (backend : Backend) (state : backend.State) :
    backend.model.getSpeakers state = .ok (some backend.speakers) := by
  cases backend <;> rfl

@[simp] theorem getFallback_eq (backend : Backend) (state : backend.State) :
    backend.model.getFallbackSynthesisConfig state = .ok (backend.fallback state) := by
  cases backend <;> rfl

/-- No backend replaces the lookup of a speaker's name. -/
@[simp] theorem speakerIdToName_eq (backend : Backend) (state : backend.State) (sid : Int) :
    backend.model.speakerIdToName state sid = .ok (backend.speakers.lookup sid) := by
  cases backend <;> rfl

theorem setFallback_eq (backend : Backend) (state : backend.State) (config : SynthesisConfig) :
    backend.model.setFallbackSynthesisConfig state config =
      match ensureKnownSpeaker backend.speakers config.speaker with
      | .error error => (.error error, state)
      | .ok () => (.ok (), backend.stored state config) := by
  cases backend <;> rfl

/-- A configuration without an unknown speaker is accepted. -/
theorem setFallback_of_known {backend : Backend} {state : backend.State}
    {config : SynthesisConfig} (h : ∀ sid, config.speaker = some sid → sid ∈ backend.speakers) :
    backend.model.setFallbackSynthesisConfig state config =
      (.ok (), backend.stored state config) := by
  rw [setFallback_eq, ensureKnownSpeaker_eq_ok_iff.mpr h]

/-- A refused configuration leaves the voice as it was. -/
theorem setFallback_of_error {backend : Backend} {state state' : backend.State}
    {config : SynthesisConfig} {error : DengjenError}
    (h : backend.model.setFallbackSynthesisConfig state config = (.error error, state')) :
    state' = state := by
  rw [setFallback_eq] at h
  split at h
  · exact (Prod.ext_iff.mp h).2.symm
  · cases (Prod.ext_iff.mp h).1

/-- An accepted configuration names no unknown speaker and is stored. -/
theorem setFallback_of_ok {backend : Backend} {state state' : backend.State}
    {config : SynthesisConfig}
    (h : backend.model.setFallbackSynthesisConfig state config = (.ok (), state')) :
    (∀ sid, config.speaker = some sid → sid ∈ backend.speakers) ∧
      state' = backend.stored state config := by
  rw [setFallback_eq] at h
  split at h
  · cases (Prod.ext_iff.mp h).1
  · next hknown => exact ⟨ensureKnownSpeaker_eq_ok_iff.mp hknown, (Prod.ext_iff.mp h).2.symm⟩

/-- The speaker that is set, if any. -/
def currentSpeaker (backend : Backend) (state : backend.State) : Option Int :=
  (backend.fallback state).bind fun config => config.speaker

/-- The configuration an update starts from: the default one while none is stored. -/
def readConfig (backend : Backend) (state : backend.State) : SynthesisConfig :=
  (backend.fallback state).getD .default

@[simp] theorem readConfig_speaker (backend : Backend) (state : backend.State) :
    (backend.readConfig state).speaker = backend.currentSpeaker state := by
  rw [readConfig, currentSpeaker]
  cases backend.fallback state <;> rfl

/-- Of the states of a voice, those in which it has the speaker that is set, if any. -/
def SpeakerKnown (backend : Backend) (state : backend.State) : Prop :=
  ∀ sid, backend.currentSpeaker state = some sid → sid ∈ backend.speakers

/-- No speaker is set on a voice that has just been loaded. -/
theorem currentSpeaker_initialState (backend : Backend) :
    backend.currentSpeaker backend.initialState = none := by
  cases backend <;> rfl

/-- A configuration that keeps the speaker where it names no other one is stored with it. -/
theorem currentSpeaker_stored {backend : Backend} {state : backend.State}
    {config : SynthesisConfig} {speaker : Option Int}
    (h : config.speaker = speaker.or (backend.currentSpeaker state)) :
    backend.currentSpeaker (backend.stored state config) = config.speaker := by
  cases backend with
  | piper _ | piperStreaming _ =>
      have hstate : config.speaker = speaker.or state.speaker := h
      change config.speaker.or state.speaker = config.speaker
      rw [hstate, Option.or_assoc, Option.or_self]
  | melo _ | kokoro _ => rfl

/-- The speaker a voice is to speak with while none is set. -/
def defaultSpeaker : Backend → Int
  | piper voice => Piper.resolveDefaultSpeakerId voice.config
  | piperStreaming voice => Piper.resolveDefaultSpeakerId voice.config
  | melo voice => voice.config.defaultSpeakerId.getD 0
  | kokoro _ => 0

/-- A single-speaker Piper voice is run without a speaker. -/
def PassesSpeaker : Backend → Prop
  | piper voice => voice.config.numSpeakers > 1
  | piperStreaming voice => voice.config.numSpeakers > 1
  | melo _ | kokoro _ => True

/-- The name of the speaker, or of the preset, that the next synthesis passes to inference. -/
def spokenSpeaker : (backend : Backend) → backend.State → Option String
  | piper voice, state => (voice.inferenceSpeaker state).bind fun sid => voice.speakerMap.lookup sid
  | piperStreaming voice, state =>
      (voice.inferenceSpeaker state).bind fun sid => voice.speakerMap.lookup sid
  | melo voice, state => voice.speakerMap.lookup (voice.inferenceSpeaker state)
  | kokoro voice, state => some (voice.voiceName state)

/-- Every voice that passes a speaker on speaks as the one that is set, by default its own. -/
theorem spokenSpeaker_eq {backend : Backend} {state : backend.State}
    (hpasses : backend.PassesSpeaker)
    (hknown : backend.SpeakerKnown state) :
    backend.spokenSpeaker state =
      backend.speakers.lookup ((backend.currentSpeaker state).getD backend.defaultSpeaker) := by
  cases backend with
  | piper voice | piperStreaming voice =>
      have hspeaker : voice.inferenceSpeaker state =
          some (state.speaker.getD (Piper.resolveDefaultSpeakerId voice.config)) :=
        if_pos hpasses
      rw [spokenSpeaker, hspeaker]
      rfl
  | melo voice =>
      have hspeaker : voice.inferenceSpeaker state = ((state.bind fun c => c.speaker).getD
          (voice.config.defaultSpeakerId.getD 0)) := by
        rw [Melo.MeloTTSModel.inferenceSpeaker, Melo.MeloTTSModel.synthesisConfig,
          Option.getD_or]
      rw [spokenSpeaker, hspeaker]
      rfl
  | kokoro voice =>
      cases hspeaker : state.speaker with
      | none =>
          have hnone : (Backend.kokoro voice).currentSpeaker state = none := hspeaker
          rw [hnone, spokenSpeaker, Kokoro.KokoroModel.voiceName, Kokoro.resolveVoiceName, hspeaker]
          exact voice.speakerMap_zero.symm
      | some sid =>
          have hsome : (Backend.kokoro voice).currentSpeaker state = some sid := hspeaker
          obtain ⟨name, hname⟩ :=
            Option.isSome_iff_exists.mp (AList.lookup_isSome.mpr (hknown sid hsome))
          have hname' : voice.speakerMap.lookup sid = some name := hname
          rw [hsome, spokenSpeaker, Kokoro.KokoroModel.voiceName, Kokoro.resolveVoiceName, hspeaker,
            Option.bind_some, hname']
          exact hname.symm

end Backend

end Dengjen

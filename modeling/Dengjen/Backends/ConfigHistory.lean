import Dengjen.Backends
import Mathlib.Data.List.Induction

/-!
# Histories of configurations

`configure` is the state of a voice after a sequence of calls to
`set_fallback_synthesis_config`. Whether a configuration is accepted is no matter
of the state. A Piper voice keeps the speaker that is set when it stores a
configuration without one; the other voices store what they are given.
-/

namespace Dengjen.Backend

/-- The state after one call for each configuration. -/
def configure (backend : Backend) (configs : List SynthesisConfig) : backend.State :=
  configs.foldl (fun state config => (backend.model.setFallbackSynthesisConfig state config).2)
    backend.initialState

/-- The configuration names no speaker that the voice lacks. -/
def Accepts (backend : Backend) (config : SynthesisConfig) : Prop :=
  ∀ sid ∈ config.speaker, sid ∈ backend.speakers

instance (backend : Backend) : DecidablePred backend.Accepts := fun config =>
  inferInstanceAs (Decidable (∀ sid ∈ config.speaker, sid ∈ backend.speakers))

/-- Piper's voices keep the speaker that is set. -/
def KeepsSpeaker : Backend → Prop
  | piper _ | piperStreaming _ => True
  | melo _ | kokoro _ => False

/-- After these calls a speaker is set: where it is kept, since some call named a speaker the
voice has, and otherwise since the last accepted call named one. -/
def SetsSpeaker (backend : Backend) (configs : List SynthesisConfig) : Prop :=
  (backend.KeepsSpeaker ∧ ∃ config ∈ configs, ∃ sid ∈ config.speaker, sid ∈ backend.speakers) ∨
    (¬ backend.KeepsSpeaker ∧
      ∃ config ∈ (configs.filter backend.Accepts).getLast?, config.speaker.isSome)

section Steps

variable {backend : Backend} {state : backend.State} {config : SynthesisConfig}

theorem setFallback_of_accepts (h : backend.Accepts config) :
    backend.model.setFallbackSynthesisConfig state config =
      (.ok (), backend.stored state config) :=
  setFallback_of_known h

theorem setFallback_of_not_accepts (h : ¬ backend.Accepts config) :
    (backend.model.setFallbackSynthesisConfig state config).1 ≠ .ok () ∧
      (backend.model.setFallbackSynthesisConfig state config).2 = state := by
  have hrefused : ensureKnownSpeaker backend.speakers config.speaker ≠ .ok () :=
    fun hok => h (ensureKnownSpeaker_eq_ok_iff.mp hok)
  rw [setFallback_eq]
  split
  · exact ⟨nofun, rfl⟩
  · next hok => exact absurd hok hrefused

theorem currentSpeaker_stored_keeps (h : backend.KeepsSpeaker) :
    backend.currentSpeaker (backend.stored state config) =
      config.speaker.or (backend.currentSpeaker state) := by
  cases backend with
  | piper _ | piperStreaming _ => rfl
  | melo _ | kokoro _ => cases h

theorem currentSpeaker_stored_replaces (h : ¬ backend.KeepsSpeaker) :
    backend.currentSpeaker (backend.stored state config) = config.speaker := by
  cases backend with
  | piper _ | piperStreaming _ => exact absurd trivial h
  | melo _ | kokoro _ => rfl

theorem SpeakerKnown.stored (hknown : backend.SpeakerKnown state) (h : backend.Accepts config) :
    backend.SpeakerKnown (backend.stored state config) := by
  intro sid hsid
  by_cases hkeeps : backend.KeepsSpeaker
  · rw [currentSpeaker_stored_keeps hkeeps, Option.or_eq_some_iff] at hsid
    rcases hsid with hnew | ⟨-, hold⟩
    · exact h sid hnew
    · exact hknown sid hold
  · rw [currentSpeaker_stored_replaces hkeeps] at hsid
    exact h sid hsid

end Steps

section Histories

variable (backend : Backend)

theorem configure_concat (configs : List SynthesisConfig) (config : SynthesisConfig) :
    backend.configure (configs ++ [config]) =
      if backend.Accepts config then backend.stored (backend.configure configs) config
      else backend.configure configs := by
  have hlast : backend.configure (configs ++ [config]) =
      (backend.model.setFallbackSynthesisConfig (backend.configure configs) config).2 := by
    rw [configure, List.foldl_concat]
    rfl
  rw [hlast]
  by_cases h : backend.Accepts config
  · rw [if_pos h, setFallback_of_accepts h]
  · rw [if_neg h, (setFallback_of_not_accepts h).2]

/-- Every speaker that is set is one of the voice. -/
theorem speakerKnown_configure (configs : List SynthesisConfig) :
    backend.SpeakerKnown (backend.configure configs) := by
  induction configs using List.reverseRecOn with
  | nil =>
      intro sid hsid
      have hnone : backend.currentSpeaker (backend.configure []) = none :=
        backend.currentSpeaker_initialState
      rw [hnone] at hsid
      cases hsid
  | append_singleton configs config ih =>
      rw [configure_concat]
      split
      · next haccepts => exact ih.stored haccepts
      · exact ih

theorem setsSpeaker_concat_of_accepts {configs : List SynthesisConfig} {config : SynthesisConfig}
    (h : backend.Accepts config) :
    backend.SetsSpeaker (configs ++ [config]) ↔
      config.speaker.isSome ∨ (backend.KeepsSpeaker ∧ backend.SetsSpeaker configs) := by
  have hnamed : (∃ sid ∈ config.speaker, sid ∈ backend.speakers) ↔ config.speaker.isSome := by
    rw [Option.isSome_iff_exists]
    exact ⟨fun ⟨sid, hsid, _⟩ => ⟨sid, hsid⟩, fun ⟨sid, hsid⟩ => ⟨sid, hsid, h sid hsid⟩⟩
  by_cases hkeeps : backend.KeepsSpeaker
  · simp only [SetsSpeaker, hkeeps, true_and, not_true_eq_false, false_and, or_false,
      List.mem_append, List.mem_singleton, or_and_right, exists_or, exists_eq_left, hnamed]
    exact or_comm
  · have hlast : (configs ++ [config]).filter backend.Accepts =
        configs.filter backend.Accepts ++ [config] := by
      rw [List.filter_append, List.filter_singleton, decide_eq_true h]
      rfl
    simp [SetsSpeaker, hkeeps, hlast]

theorem setsSpeaker_concat_of_not_accepts {configs : List SynthesisConfig}
    {config : SynthesisConfig} (h : ¬ backend.Accepts config) :
    backend.SetsSpeaker (configs ++ [config]) ↔ backend.SetsSpeaker configs := by
  have hunknown : ¬ ∃ sid ∈ config.speaker, sid ∈ backend.speakers := by
    rintro ⟨sid, hsid, hmem⟩
    apply h
    intro other hother
    rwa [Option.mem_unique hother hsid]
  have hlast : (configs ++ [config]).filter backend.Accepts =
      configs.filter backend.Accepts := by
    rw [List.filter_append, List.filter_singleton, decide_eq_false h]
    exact List.append_nil _
  simp only [SetsSpeaker, hlast, List.mem_append, List.mem_singleton, or_and_right, exists_or,
    exists_eq_left, hunknown, or_false]

/-- Whether a speaker is set can be read off the calls. -/
theorem currentSpeaker_isSome_iff (configs : List SynthesisConfig) :
    (backend.currentSpeaker (backend.configure configs)).isSome ↔
      backend.SetsSpeaker configs := by
  induction configs using List.reverseRecOn with
  | nil =>
      have hnone : backend.currentSpeaker (backend.configure []) = none :=
        backend.currentSpeaker_initialState
      simp [hnone, SetsSpeaker]
  | append_singleton configs config ih =>
      rw [configure_concat]
      by_cases haccepts : backend.Accepts config
      · rw [if_pos haccepts, setsSpeaker_concat_of_accepts backend haccepts, ← ih]
        by_cases hkeeps : backend.KeepsSpeaker
        · simp [currentSpeaker_stored_keeps hkeeps, hkeeps]
        · simp [currentSpeaker_stored_replaces hkeeps, hkeeps]
      · rw [if_neg haccepts, setsSpeaker_concat_of_not_accepts backend haccepts, ih]

end Histories

section Default

/-- The voice's default configuration is accepted and is the one that is read back. -/
def RestoresDefault (backend : Backend) (state : backend.State) : Prop :=
  ∃ config state',
    backend.model.getDefaultSynthesisConfig state = .ok (some config) ∧
    backend.model.setFallbackSynthesisConfig state config = (.ok (), state') ∧
    backend.model.getFallbackSynthesisConfig state' = .ok (some config)

/-- The default speaker of a multi-speaker voice is one of its own; to a single-speaker voice
no call has named a speaker it has. -/
def PiperDefaultRestorable (voice : Piper.VitsModelCommons) (configs : List SynthesisConfig) :
    Prop :=
  if voice.config.numSpeakers > 1 then
    Piper.resolveDefaultSpeakerId voice.config ∈ voice.speakerMap
  else ∀ config ∈ configs, ¬ ∃ sid ∈ config.speaker, sid ∈ voice.speakerMap

/-- The backend's default configuration can be stored once these have been. -/
def DefaultRestorable : Backend → List SynthesisConfig → Prop
  | piper voice, configs => PiperDefaultRestorable voice.toVitsModelCommons configs
  | piperStreaming voice, configs => PiperDefaultRestorable voice.toVitsModelCommons configs
  | melo voice, _ => ∀ sid ∈ voice.config.defaultSpeakerId, sid ∈ voice.speakerMap
  | kokoro _, _ => True

/-- The configuration that a voice is made with. -/
def defaultConfig : Backend → SynthesisConfig
  | piper voice => voice.factorySynthesisConfig.toSynthesisConfig
  | piperStreaming voice => voice.factorySynthesisConfig.toSynthesisConfig
  | melo voice => voice.defaultSynthesisConfig.toSynthesisConfig
  | kokoro _ => ⟨some 0, ∅⟩

@[simp] theorem getDefault_eq (backend : Backend) (state : backend.State) :
    backend.model.getDefaultSynthesisConfig state = .ok (some backend.defaultConfig) := by
  cases backend <;> rfl

variable {backend : Backend} {state : backend.State}

/-- The scales survive the trip through Piper's own parameters; only the speaker may differ. -/
theorem fallback_stored_defaultConfig :
    backend.fallback (backend.stored state backend.defaultConfig) = some backend.defaultConfig ↔
      (backend.KeepsSpeaker → backend.defaultConfig.speaker = none →
        backend.currentSpeaker state = none) := by
  have hpiper (factory : Piper.PiperSynthesisConfig) (speaker : Option Int) :
      Piper.PiperSynthesisConfig.toSynthesisConfig
          { Piper.PiperSynthesisConfig.ofSynthesisConfig factory.toSynthesisConfig with
            speaker := factory.toSynthesisConfig.speaker.or speaker } =
        factory.toSynthesisConfig ↔ (factory.speaker = none → speaker = none) := by
    rw [Piper.PiperSynthesisConfig.ofSynthesisConfig_toSynthesisConfig]
    simp only [Piper.PiperSynthesisConfig.toSynthesisConfig, SynthesisConfig.mk.injEq, and_true]
    cases factory.speaker <;> simp
  cases backend with
  | piper voice | piperStreaming voice =>
      have hstored := hpiper voice.factorySynthesisConfig state.speaker
      rw [fallback, stored, Option.some.injEq, defaultConfig, hstored]
      exact ⟨fun h _ => h, fun h => h trivial⟩
  | melo _ | kokoro _ => exact ⟨fun _ hkeeps => hkeeps.elim, fun _ => rfl⟩

theorem restoresDefault_iff :
    backend.RestoresDefault state ↔
      backend.Accepts backend.defaultConfig ∧
        (backend.KeepsSpeaker → backend.defaultConfig.speaker = none →
          backend.currentSpeaker state = none) := by
  rw [← fallback_stored_defaultConfig]
  constructor
  · rintro ⟨config, state', hdefault, hset, hget⟩
    rw [getDefault_eq, Except.ok.injEq, Option.some.injEq] at hdefault
    subst hdefault
    obtain ⟨haccepts, rfl⟩ := setFallback_of_ok hset
    rw [getFallback_eq, Except.ok.injEq] at hget
    exact ⟨haccepts, hget⟩
  · rintro ⟨haccepts, hstored⟩
    refine ⟨_, _, getDefault_eq backend state, setFallback_of_accepts haccepts, ?_⟩
    rw [getFallback_eq, hstored]

theorem restoresDefault_of_speaker_some {speaker : Int}
    (h : backend.defaultConfig.speaker = some speaker) :
    backend.RestoresDefault state ↔ speaker ∈ backend.speakers := by
  rw [restoresDefault_iff]
  simp [Accepts, h]

/-- A default without a speaker is accepted, but does not clear a speaker that is kept. -/
theorem restoresDefault_of_speaker_none (h : backend.defaultConfig.speaker = none)
    (configs : List SynthesisConfig) :
    backend.RestoresDefault (backend.configure configs) ↔
      (backend.KeepsSpeaker →
        ∀ config ∈ configs, ¬ ∃ sid ∈ config.speaker, sid ∈ backend.speakers) := by
  have haccepts : backend.Accepts backend.defaultConfig := by
    intro sid hsid
    rw [h] at hsid
    cases hsid
  rw [restoresDefault_iff, and_iff_right haccepts]
  apply forall_congr'
  intro hkeeps
  rw [← Option.not_isSome_iff_eq_none (o := backend.currentSpeaker _), currentSpeaker_isSome_iff,
    SetsSpeaker]
  simp [hkeeps, h]

end Default

/-- After any sequence of calls, the default configuration can be restored exactly when it
passes the voice's check and, on a single-speaker Piper voice, no speaker has been set. -/
theorem default_restored_iff (backend : Backend) (configs : List SynthesisConfig) :
    backend.RestoresDefault (backend.configure configs) ↔ backend.DefaultRestorable configs := by
  cases backend with
  | piper voice | piperStreaming voice =>
      rw [DefaultRestorable, PiperDefaultRestorable]
      split
      · next hmulti => exact restoresDefault_of_speaker_some (if_pos hmulti)
      · next hsingle =>
          refine (restoresDefault_of_speaker_none ?_ configs).trans ?_
          · exact if_neg hsingle
          · exact ⟨fun h => h trivial, fun h _ => h⟩
  | melo voice =>
      rw [DefaultRestorable]
      cases hdefault : voice.config.defaultSpeakerId with
      | none =>
          have hspeaker : (melo voice).defaultConfig.speaker = none := hdefault
          rw [restoresDefault_of_speaker_none hspeaker]
          exact ⟨fun _ => nofun, fun _ hkeeps => hkeeps.elim⟩
      | some speaker =>
          have hspeaker : (melo voice).defaultConfig.speaker = some speaker := hdefault
          rw [restoresDefault_of_speaker_some hspeaker]
          simp [speakers]
  | kokoro voice =>
      refine (restoresDefault_of_speaker_some rfl).trans ?_
      rw [← AList.lookup_isSome]
      exact iff_of_true (Option.isSome_of_eq_some voice.speakerMap_zero) trivial

/-- A Piper voice with these speakers and without a default one. -/
def speakersVoice (numSpeakers : Nat) (speakerIdMap : HashMap String Int) : Piper.VitsModel where
  config :=
    { language := none
      audio := ⟨22050, none⟩
      numSpeakers := numSpeakers
      speakerIdMap := speakerIdMap
      streaming := none
      espeakVoice := "en-us"
      inference := ⟨⟨0x3F2AC083⟩, ⟨0x3F800000⟩, ⟨0x3F4CCCCD⟩⟩
      phonemeIdMap := HashMap.fromIter [("_", [0]), ("^", [1]), ("$", [2])]
      defaultSpeakerId := none
      hopLength := none }
  doPhonemizeText text := .ok [text]
  session _ := .ok []

/-- A voice with the single speaker 0. -/
def singleVoice : Backend := piper (speakersVoice 1 (AList.singleton "default" 0))

/-- A voice with two speakers, of which none has the id 0. -/
def countedVoice : Backend := piper (speakersVoice 2 (HashMap.fromIter [("ann", 1), ("bob", 2)]))

/-- A speaker that was set stays in the way of the default, and a default speaker that the voice
lacks is refused. -/
theorem default_not_restored :
    ¬ singleVoice.RestoresDefault (singleVoice.configure [⟨some 0, ∅⟩]) ∧
      ¬ countedVoice.RestoresDefault (countedVoice.configure []) := by
  constructor
  · intro h
    rw [singleVoice, restoresDefault_of_speaker_none rfl] at h
    exact h trivial ⟨some 0, ∅⟩ (List.mem_singleton.mpr rfl) ⟨0, rfl, by decide⟩
  · intro h
    have hspeaker : countedVoice.defaultConfig.speaker = some 0 := rfl
    rw [restoresDefault_of_speaker_some hspeaker] at h
    exact absurd h (by decide)

section Inference

/-- The speaker id that goes into every inference; Kokoro's sessions take a style instead. -/
def passedSpeaker : (backend : Backend) → backend.State → Option Int
  | piper voice, state => voice.inferenceSpeaker state
  | piperStreaming voice, state => voice.inferenceSpeaker state
  | melo voice, state => some (voice.inferenceSpeaker state)
  | kokoro _, _ => none

variable {backend : Backend} {state : backend.State}

/-- Of the calls since the voice was loaded one has set a speaker, or its default is its own. -/
def SpeaksDeclared (backend : Backend) (configs : List SynthesisConfig) : Prop :=
  backend.PassesSpeaker →
    backend.SetsSpeaker configs ∨ backend.defaultSpeaker ∈ backend.speakers

/-- Where a voice passes the speaker that is set or its default one, all that it can pass are
its own speakers exactly when one is set or the default is its own. -/
theorem declared_iff (hknown : backend.SpeakerKnown state)
    (hpassed : ∀ sid, backend.passedSpeaker state = some sid ↔ backend.PassesSpeaker ∧
      sid = (backend.currentSpeaker state).getD backend.defaultSpeaker) :
    (∀ sid, backend.passedSpeaker state = some sid → sid ∈ backend.speakers) ↔
      (backend.PassesSpeaker → (backend.currentSpeaker state).isSome ∨
        backend.defaultSpeaker ∈ backend.speakers) := by
  constructor
  · intro h hpasses
    have hmem := h _ ((hpassed _).mpr ⟨hpasses, rfl⟩)
    cases hcurrent : backend.currentSpeaker state with
    | none => exact .inr (by rwa [hcurrent] at hmem)
    | some speaker => exact .inl rfl
  · intro h sid hsid
    obtain ⟨hpasses, rfl⟩ := (hpassed sid).mp hsid
    cases hcurrent : backend.currentSpeaker state with
    | none => simpa [hcurrent] using h hpasses
    | some speaker => exact hknown speaker hcurrent

end Inference

/-- After any sequence of calls, the speaker id that reaches inference is one of the voice's
exactly when a call has set a speaker or the default speaker is one of the voice's. -/
theorem declared_speaker_iff (backend : Backend) (configs : List SynthesisConfig) :
    (∀ sid, backend.passedSpeaker (backend.configure configs) = some sid →
        sid ∈ backend.speakers) ↔
      backend.SpeaksDeclared configs := by
  rw [SpeaksDeclared, ← currentSpeaker_isSome_iff]
  cases backend with
  | piper voice | piperStreaming voice =>
      apply declared_iff (speakerKnown_configure _ configs)
      intro sid
      refine Option.ite_none_right_eq_some.trans (and_congr_right fun _ => ?_)
      exact Option.some_inj.trans eq_comm
  | melo voice =>
      apply declared_iff (speakerKnown_configure _ configs)
      intro sid
      have hspeaker : voice.inferenceSpeaker ((melo voice).configure configs) =
          ((melo voice).currentSpeaker ((melo voice).configure configs)).getD
            (melo voice).defaultSpeaker := Option.getD_or
      rw [passedSpeaker, hspeaker, Option.some_inj, eq_comm]
      exact (and_iff_right trivial).symm
  | kokoro voice =>
      refine iff_of_true nofun fun _ => Or.inr ?_
      exact AList.lookup_isSome.mp (Option.isSome_of_eq_some voice.speakerMap_zero)

/-- A voice whose configuration names no default speaker passes on an id it does not have. -/
theorem undeclared_speaker_passed :
    countedVoice.PassesSpeaker ∧
      countedVoice.passedSpeaker (countedVoice.configure []) = some 0 ∧
      (0 : Int) ∉ countedVoice.speakers := by
  refine ⟨?_, rfl, by decide⟩
  exact Nat.lt_succ_self 1

end Dengjen.Backend

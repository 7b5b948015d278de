import Dengjen.Synth.Wrapper

/-!
# The synthesis options of the gRPC server

`GetSynthesisOptions` and `SetSynthesisOptions` on the registry of loaded
voices. An update reads the stored configuration, changes the fields its request
names, stores the result and answers with what it reads back.
-/

namespace Dengjen.Grpc

open Synth Piper

/-- The errors of the server. -/
inductive DengjenGrpcError
  | dengjenError (error : DengjenError)
  | voiceNotFound (msg : String)
  | invalidArgument (msg : String)
  | resourceExhausted (msg : String)
  deriving DecidableEq, Repr

/-- The result of a function of the server. -/
abbrev DengjenGrpcResult (α : Type*) := Except DengjenGrpcError α

/-- The conversion that `?` makes of a model's error. -/
def ofModel {α : Type*} (result : DengjenResult α) : DengjenGrpcResult α :=
  result.mapError .dengjenError

/-- The settings that clients read and write. -/
structure SynthesisSettings where
  speaker : Option String
  lengthScale : Option F32
  noiseScale : Option F32
  noiseW : Option F32
  parameters : HashMap String F32
  deriving DecidableEq

section Model

variable {σ : Type*} (model : DengjenModel σ) (state : σ)

/-- The parameters that have a field of their own. -/
def namedKeys : List String :=
  [SynthConfig.lengthScale, SynthConfig.noiseScale, SynthConfig.noiseW]

/-- A scale is reported where its parameter is set. -/
def scaleIfSet (config : SynthesisConfig) (key : String) (value : F32) : Option F32 :=
  if key ∈ config.parameters then some value else none

/-- A configuration as settings, with the name of its speaker. -/
def synthOptionsFromSynthesisConfig (config : SynthesisConfig)
    (onUnsetSpeaker : DengjenGrpcResult (Option String)) :
    DengjenGrpcResult SynthesisSettings := do
  let speaker ← match config.speaker with
    | some speakerId => ofModel (model.speakerIdToName state speakerId)
    | none => onUnsetSpeaker
  let piperConfig := PiperSynthesisConfig.ofSynthesisConfig config
  pure
    { speaker := speaker
      lengthScale := scaleIfSet config SynthConfig.lengthScale piperConfig.lengthScale
      noiseScale := scaleIfSet config SynthConfig.noiseScale piperConfig.noiseScale
      noiseW := scaleIfSet config SynthConfig.noiseW piperConfig.noiseW
      parameters := HashMap.fromIter
        (config.parameters.iter.filter fun entry => entry.1 ∉ namedKeys) }

/-- The settings of a model that has no configuration. -/
def synthOptionsForConfiglessBackend (onUnsetSpeaker : DengjenGrpcResult (Option String)) :
    DengjenGrpcResult SynthesisSettings := do
  let speaker ← onUnsetSpeaker
  pure ⟨speaker, none, none, none, ∅⟩

/-- The settings a voice is spoken with. -/
def synthOptionsFromModel : DengjenGrpcResult SynthesisSettings := do
  let fallback ← ofModel (model.getFallbackSynthesisConfig state)
  let onUnsetSpeaker := ofModel (model.speakerIdToName state 0)
  match fallback with
  | some config => synthOptionsFromSynthesisConfig model state config onUnsetSpeaker
  | none => synthOptionsForConfiglessBackend onUnsetSpeaker

/-- The speaker of the settings is the configured one, or what stands in for it. -/
theorem synthOptionsFromSynthesisConfig_speaker (config : SynthesisConfig)
    (onUnsetSpeaker : DengjenGrpcResult (Option String)) :
    (synthOptionsFromSynthesisConfig model state config onUnsetSpeaker).map
        (fun settings => settings.speaker) =
      match config.speaker with
      | some speakerId => ofModel (model.speakerIdToName state speakerId)
      | none => onUnsetSpeaker := by
  rw [synthOptionsFromSynthesisConfig]
  cases config.speaker with
  | some speakerId =>
      dsimp only
      cases ofModel (model.speakerIdToName state speakerId) <;> rfl
  | none => cases onUnsetSpeaker <;> rfl

/-- A parameter is written where it is set. -/
def insertIfSet (key : String) (value : Option F32) (parameters : HashMap String F32) :
    HashMap String F32 :=
  match value with
  | some value => parameters.insert key value
  | none => parameters

@[simp] theorem lookup_insertIfSet (key key' : String) (value : Option F32)
    (parameters : HashMap String F32) :
    (insertIfSet key value parameters).lookup key' =
      (if key' = key then value else none).or (parameters.lookup key') := by
  by_cases h : key' = key
  · subst h
    cases value with
    | none => simp [insertIfSet]
    | some value => simp [insertIfSet]
  · cases value with
    | none => simp [insertIfSet]
    | some value => simp [insertIfSet, h, AList.lookup_insert_ne h]

/-- The value that a request gives to a parameter: that of the named field if it is set. -/
def SynthesisSettings.parameter (synthOpts : SynthesisSettings) (key : String) : Option F32 :=
  (if key = SynthConfig.noiseW then synthOpts.noiseW else none).or
    ((if key = SynthConfig.noiseScale then synthOpts.noiseScale else none).or
      ((if key = SynthConfig.lengthScale then synthOpts.lengthScale else none).or
        (synthOpts.parameters.lookup key)))

/-- The configuration an update makes of the one it reads; it ignores an unknown speaker. -/
def updatedConfig (synthOpts : SynthesisSettings) : DengjenResult SynthesisConfig := do
  let fallback ← model.getFallbackSynthesisConfig state
  let newConfig := fallback.getD .default
  let speaker ← match synthOpts.speaker with
    | some speakerName => model.speakerNameToId state speakerName
    | none => pure none
  pure
    { speaker := speaker.or newConfig.speaker
      parameters := insertIfSet SynthConfig.noiseW synthOpts.noiseW
        (insertIfSet SynthConfig.noiseScale synthOpts.noiseScale
          (insertIfSet SynthConfig.lengthScale synthOpts.lengthScale
            (newConfig.parameters.extend synthOpts.parameters))) }

end Model

/-- A loaded voice: a synthesizer around a backend, and the backend's state. -/
structure Voice where
  backend : Backend
  state : backend.State

namespace Voice

/-- A voice as it is loaded. -/
def new (backend : Backend) : Voice := ⟨backend, backend.initialState⟩

/-- The model as the synthesizer presents it. -/
def modelRef (voice : Voice) : DengjenModel voice.backend.State :=
  (DengjenSpeechSynthesizer.mk voice.backend.model).toDengjenModel

@[simp] theorem modelRef_getFallback (backend : Backend) (state : backend.State) :
    (modelRef ⟨backend, state⟩).getFallbackSynthesisConfig state =
      .ok (backend.fallback state) :=
  Backend.getFallback_eq backend state

@[simp] theorem modelRef_setFallback (backend : Backend) (state : backend.State)
    (config : SynthesisConfig) :
    (modelRef ⟨backend, state⟩).setFallbackSynthesisConfig state config =
      backend.model.setFallbackSynthesisConfig state config := rfl

@[simp] theorem modelRef_speakerIdToName (backend : Backend) (state : backend.State) (sid : Int) :
    (modelRef ⟨backend, state⟩).speakerIdToName state sid =
      .ok (backend.speakers.lookup sid) :=
  congrArg (defaultSpeakerIdToName · sid) (Backend.getSpeakers_eq backend state)

@[simp] theorem modelRef_speakerNameToId (backend : Backend) (state : backend.State)
    (name : String) :
    (modelRef ⟨backend, state⟩).speakerNameToId state name =
      .ok (backend.speakers.findId name) :=
  congrArg (defaultSpeakerNameToId · name) (Backend.getSpeakers_eq backend state)

end Voice

/-- The voices of the server, by their keys. -/
abbrev Voices := HashMap String Voice

/-- The voice of a key, which has to be loaded. -/
def findVoice (voices : Voices) (voiceKey : String) : DengjenGrpcResult Voice :=
  match voices.lookup voiceKey with
  | some voice => .ok voice
  | none => .error (.voiceNotFound s!"A voice with the key `{voiceKey}` has not been loaded")

/-- Answers with a voice's settings. -/
def lookupSynthOptions (voices : Voices) (voiceKey : String) :
    DengjenGrpcResult SynthesisSettings := do
  let voice ← findVoice voices voiceKey
  synthOptionsFromModel voice.modelRef voice.state

/-- Writes settings to a voice and answers with what they are then. -/
def applySynthOptions (voices : Voices) (voiceKey : String) (synthOpts : SynthesisSettings) :
    DengjenGrpcResult SynthesisSettings × Voices :=
  match findVoice voices voiceKey with
  | .error error => (.error error, voices)
  | .ok voice =>
      match updatedConfig voice.modelRef voice.state synthOpts with
      | .error error => (.error (.dengjenError error), voices)
      | .ok newConfig =>
          match voice.modelRef.setFallbackSynthesisConfig voice.state newConfig with
          | (.error error, state) =>
              (.error (.dengjenError error), voices.insert voiceKey ⟨voice.backend, state⟩)
          | (.ok (), state) =>
              (synthOptionsFromModel voice.modelRef state,
                voices.insert voiceKey ⟨voice.backend, state⟩)

/-- The registry after a sequence of requests, each for one voice. -/
def applyAll (voices : Voices) (updates : List (String × SynthesisSettings)) : Voices :=
  updates.foldl (fun voices update => (applySynthOptions voices update.1 update.2).2) voices

/-- The speaker that `GetSynthesisOptions` reports for a voice. -/
def reportedSpeaker (voices : Voices) (voiceKey : String) : DengjenGrpcResult (Option String) :=
  (lookupSynthOptions voices voiceKey).map fun settings => settings.speaker

section Backend

variable {backend : Backend} {state : backend.State}

/-- An update sets the speaker its request names, if there is one of that name, and the
parameters its request has; it keeps all else of the configuration. -/
theorem updatedConfig_eq (synthOpts : SynthesisSettings) :
    updatedConfig (Voice.modelRef ⟨backend, state⟩) state synthOpts = .ok
      { speaker := (synthOpts.speaker.bind fun name => backend.speakers.findId name).or
          (backend.currentSpeaker state)
        parameters := insertIfSet SynthConfig.noiseW synthOpts.noiseW
          (insertIfSet SynthConfig.noiseScale synthOpts.noiseScale
            (insertIfSet SynthConfig.lengthScale synthOpts.lengthScale
              ((backend.readConfig state).parameters.extend synthOpts.parameters))) } := by
  rw [updatedConfig, Voice.modelRef_getFallback, ← Backend.readConfig_speaker]
  cases hspeaker : synthOpts.speaker with
  | none => rfl
  | some name =>
      simp only [Voice.modelRef_speakerNameToId]
      rfl

/-- The report is the name of the speaker that is set, and of speaker 0 while none is. -/
theorem synthOptionsFromModel_speaker :
    (synthOptionsFromModel (Voice.modelRef ⟨backend, state⟩) state).map
        (fun settings => settings.speaker) =
      .ok (backend.speakers.lookup ((backend.currentSpeaker state).getD 0)) := by
  rw [synthOptionsFromModel, Voice.modelRef_getFallback, Voice.modelRef_speakerIdToName,
    Backend.currentSpeaker]
  cases backend.fallback state with
  | none => rfl
  | some config =>
      apply (synthOptionsFromSynthesisConfig_speaker _ _ config _).trans
      rw [Option.bind_some]
      cases config.speaker with
      | none => rfl
      | some sid => exact congrArg ofModel (Voice.modelRef_speakerIdToName backend state sid)

variable {voices : Voices} {voiceKey : String}

/-- On a loaded voice an update stores what it makes of the configuration, and answers with
the options it then reads. -/
theorem applySynthOptions_eq (h : voices.lookup voiceKey = some ⟨backend, state⟩)
    (hknown : backend.SpeakerKnown state) (synthOpts : SynthesisSettings) :
    ∃ config : SynthesisConfig,
      config.speaker = (synthOpts.speaker.bind fun name => backend.speakers.findId name).or
        (backend.currentSpeaker state) ∧
      (∀ sid, config.speaker = some sid → sid ∈ backend.speakers) ∧
      applySynthOptions voices voiceKey synthOpts =
        (synthOptionsFromModel (Voice.modelRef ⟨backend, backend.stored state config⟩)
            (backend.stored state config),
          voices.insert voiceKey ⟨backend, backend.stored state config⟩) := by
  obtain ⟨config, hconfig, hspeaker⟩ : ∃ config : SynthesisConfig,
      updatedConfig (Voice.modelRef ⟨backend, state⟩) state synthOpts = .ok config ∧
        config.speaker = (synthOpts.speaker.bind fun name => backend.speakers.findId name).or
          (backend.currentSpeaker state) := ⟨_, updatedConfig_eq synthOpts, rfl⟩
  have hconfigKnown : ∀ sid, config.speaker = some sid → sid ∈ backend.speakers := by
    intro sid hsid
    rw [hspeaker, Option.or_eq_some_iff] at hsid
    rcases hsid with hnamed | ⟨-, hcurrent⟩
    · obtain ⟨name, -, hfound⟩ := Option.bind_eq_some_iff.mp hnamed
      rw [← AList.lookup_isSome, SpeakerMap.lookup_of_findId hfound]
      rfl
    · exact hknown sid hcurrent
  refine ⟨config, hspeaker, hconfigKnown, ?_⟩
  rw [applySynthOptions, findVoice, h]
  simp only [hconfig, Voice.modelRef_setFallback, Backend.setFallback_of_known hconfigKnown]
  rfl

/-- No update of a loaded voice is refused. -/
theorem applySynthOptions_accepted (h : voices.lookup voiceKey = some ⟨backend, state⟩)
    (hknown : backend.SpeakerKnown state) (synthOpts : SynthesisSettings) :
    ∃ settings, (applySynthOptions voices voiceKey synthOpts).1 = .ok settings := by
  obtain ⟨config, -, -, heq⟩ := applySynthOptions_eq h hknown synthOpts
  rw [heq]
  have hreport := @synthOptionsFromModel_speaker backend (backend.stored state config)
  cases hresult : synthOptionsFromModel (Voice.modelRef ⟨backend, backend.stored state config⟩)
      (backend.stored state config) with
  | ok settings => exact ⟨settings, rfl⟩
  | error error =>
      rw [hresult] at hreport
      cases hreport

/-- An update of the voice sets the speaker it names and keeps the voice's speaker known. -/
theorem applySynthOptions_own (h : voices.lookup voiceKey = some ⟨backend, state⟩)
    (hknown : backend.SpeakerKnown state) (synthOpts : SynthesisSettings) :
    ∃ state', (applySynthOptions voices voiceKey synthOpts).2.lookup voiceKey =
        some ⟨backend, state'⟩ ∧ backend.SpeakerKnown state' ∧
      backend.currentSpeaker state' =
        (synthOpts.speaker.bind fun name => backend.speakers.findId name).or
          (backend.currentSpeaker state) := by
  obtain ⟨config, hspeaker, hconfigKnown, heq⟩ := applySynthOptions_eq h hknown synthOpts
  have hstored := Backend.currentSpeaker_stored hspeaker
  refine ⟨backend.stored state config, ?_, ?_, hstored.trans hspeaker⟩
  · rw [heq, AList.lookup_insert]
  · intro sid hsid
    exact hconfigKnown sid (hstored.symm.trans hsid)

/-- An update of another voice leaves this one alone. -/
theorem applySynthOptions_other {otherKey : String} (hne : voiceKey ≠ otherKey)
    (synthOpts : SynthesisSettings) :
    (applySynthOptions voices otherKey synthOpts).2.lookup voiceKey =
      voices.lookup voiceKey := by
  rw [applySynthOptions]
  split
  · rfl
  · split
    · rfl
    · split
      · exact AList.lookup_insert_ne hne
      · exact AList.lookup_insert_ne hne

/-- The request is for the voice and names a speaker that the voice has. -/
def NamesSpeaker (backend : Backend) (voiceKey : String) (update : String × SynthesisSettings) :
    Prop :=
  update.1 = voiceKey ∧ ∃ name, update.2.speaker = some name ∧
    ∃ sid, backend.speakers.lookup sid = some name

/-- A run of requests leaves a speaker set exactly when one was set before or one of the
requests names one. -/
theorem applyAll_voice (h : voices.lookup voiceKey = some ⟨backend, state⟩)
    (hknown : backend.SpeakerKnown state) (updates : List (String × SynthesisSettings)) :
    ∃ state', (applyAll voices updates).lookup voiceKey = some ⟨backend, state'⟩ ∧
      backend.SpeakerKnown state' ∧
      ((∃ sid, backend.currentSpeaker state' = some sid) ↔
        (∃ sid, backend.currentSpeaker state = some sid) ∨
          ∃ update ∈ updates, NamesSpeaker backend voiceKey update) := by
  induction updates generalizing voices state with
  | nil => exact ⟨state, h, hknown, by simp⟩
  | cons update updates ih =>
      by_cases hkey : voiceKey = update.1
      · subst hkey
        obtain ⟨state₁, h₁, hknown₁, hspeaker₁⟩ := applySynthOptions_own h hknown update.2
        obtain ⟨state', h', hknown', hset⟩ := ih h₁ hknown₁
        refine ⟨state', h', hknown', hset.trans ?_⟩
        have hfirst : (∃ sid, backend.currentSpeaker state₁ = some sid) ↔
            (∃ sid, backend.currentSpeaker state = some sid) ∨
              NamesSpeaker backend update.1 update := by
          simp only [hspeaker₁, ← Option.isSome_iff_exists, Option.isSome_or, Bool.or_eq_true]
          rw [or_comm]
          apply or_congr_right
          simp only [NamesSpeaker, true_and, ← SpeakerMap.exists_findId_iff,
            Option.isSome_iff_exists, Option.bind_eq_some_iff]
          exact ⟨fun ⟨sid, name, hname, hsid⟩ => ⟨name, hname, sid, hsid⟩,
            fun ⟨name, hname, sid, hsid⟩ => ⟨sid, name, hname, hsid⟩⟩
        rw [hfirst, List.exists_mem_cons_iff, or_assoc]
      · obtain ⟨state', h', hknown', hset⟩ :=
          ih ((applySynthOptions_other hkey update.2).trans h) hknown
        refine ⟨state', h', hknown', hset.trans ?_⟩
        have hfirst : ¬ NamesSpeaker backend voiceKey update := fun hnames => hkey hnames.1.symm
        rw [List.exists_mem_cons_iff]
        simp only [hfirst, false_or]

end Backend

/-- After any sequence of requests, the speaker reported for a voice that passes one on is the
one it speaks as exactly when a request for it named a speaker it has, or its default speaker
has the name of speaker 0. -/
theorem reportedSpeaker_eq_spokenSpeaker_iff (backend : Backend) (hpasses : backend.PassesSpeaker)
    (voices : Voices) (voiceKey : String)
    (hloaded : voices.lookup voiceKey = some (Voice.new backend))
    (updates : List (String × SynthesisSettings)) :
    ∃ state, (applyAll voices updates).lookup voiceKey = some ⟨backend, state⟩ ∧
      (reportedSpeaker (applyAll voices updates) voiceKey = .ok (backend.spokenSpeaker state) ↔
        (∃ update ∈ updates, NamesSpeaker backend voiceKey update) ∨
          backend.speakers.lookup 0 = backend.speakers.lookup backend.defaultSpeaker) := by
  have hinitial := backend.currentSpeaker_initialState
  have hknown : backend.SpeakerKnown backend.initialState := by
    intro sid hsid
    rw [hinitial] at hsid
    cases hsid
  obtain ⟨state, hvoice, hknown', hset⟩ := applyAll_voice hloaded hknown updates
  rw [hinitial] at hset
  simp only [reduceCtorEq, exists_false, false_or] at hset
  refine ⟨state, hvoice, ?_⟩
  have hreported : reportedSpeaker (applyAll voices updates) voiceKey =
      .ok (backend.speakers.lookup ((backend.currentSpeaker state).getD 0)) := by
    rw [reportedSpeaker, lookupSynthOptions, findVoice, hvoice]
    exact synthOptionsFromModel_speaker
  rw [hreported, Backend.spokenSpeaker_eq hpasses hknown', ← hset]
  cases hcurrent : backend.currentSpeaker state with
  | none => simp
  | some sid => simp

/-- A voice with two speakers, of which the second is its default. -/
def secondSpeakerVoice : Piper.VitsModel where
  config :=
    { language := none
      audio := ⟨22050, none⟩
      numSpeakers := 2
      speakerIdMap := HashMap.fromIter [("alice", 0), ("bob", 1)]
      streaming := none
      espeakVoice := "en-us"
      inference := ⟨⟨0x3F2AC083⟩, ⟨0x3F800000⟩, ⟨0x3F4CCCCD⟩⟩
      phonemeIdMap := HashMap.fromIter [("_", [0]), ("^", [1]), ("$", [2])]
      defaultSpeakerId := some 1
      hopLength := none }
  doPhonemizeText text := .ok [text]
  session _ := .ok []

/-- A server with the second speaker's voice. -/
def secondSpeakerServer : Voices :=
  AList.singleton "en" (Voice.new (.piper secondSpeakerVoice))

theorem bob_reported_after_his_update :
    ∃ state, (applyAll secondSpeakerServer
        [("en", ⟨some "bob", none, none, none, ∅⟩)]).lookup "en" =
      some ⟨.piper secondSpeakerVoice, state⟩ ∧
      reportedSpeaker (applyAll secondSpeakerServer
          [("en", ⟨some "bob", none, none, none, ∅⟩)]) "en" =
        .ok ((Backend.piper secondSpeakerVoice).spokenSpeaker state) := by
  have hpasses : (Backend.piper secondSpeakerVoice).PassesSpeaker := (by decide : 2 > 1)
  obtain ⟨state, hvoice, hiff⟩ := reportedSpeaker_eq_spokenSpeaker_iff _ hpasses
    secondSpeakerServer "en" rfl [("en", ⟨some "bob", none, none, none, ∅⟩)]
  refine ⟨state, hvoice, hiff.mpr (Or.inl ?_)⟩
  exact ⟨_, List.mem_singleton_self _, rfl, "bob", rfl, 1, rfl⟩

theorem alice_reported_while_bob_speaks :
    reportedSpeaker (applyAll secondSpeakerServer []) "en" = .ok (some "alice") ∧
      (Backend.piper secondSpeakerVoice).spokenSpeaker
        (Backend.piper secondSpeakerVoice).initialState = some "bob" ∧
      reportedSpeaker (applyAll secondSpeakerServer []) "en" ≠
        .ok ((Backend.piper secondSpeakerVoice).spokenSpeaker
          (Backend.piper secondSpeakerVoice).initialState) := by
  have hreported : reportedSpeaker (applyAll secondSpeakerServer []) "en" =
      .ok (some "alice") := rfl
  have hspoken : (Backend.piper secondSpeakerVoice).spokenSpeaker
      (Backend.piper secondSpeakerVoice).initialState = some "bob" := rfl
  refine ⟨hreported, hspoken, ?_⟩
  rw [hreported, hspoken]
  decide

end Dengjen.Grpc

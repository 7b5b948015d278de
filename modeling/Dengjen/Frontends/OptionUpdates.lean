import Dengjen.Capi.FfiError
import Dengjen.General.ReadModifyWrite
import Dengjen.Grpc.SynthOptions

/-!
# Concurrent updates of a voice's options

The three front ends change a voice's stored configuration in the same way: they
read it, change some fields and write the result back, each of the two behind
the voice's lock but not both together. The gRPC server and the C API let two
calls overlap. A Python call holds the interpreter's lock from its start to its
end. The error types of the front ends all wrap a `DengjenError`, which stands
for them here.
-/

namespace Dengjen.Frontends

open Piper ReadModifyWrite TransitionSystem

section Model

variable {σ : Type} (model : DengjenModel σ) (state : σ)

/-- The configuration that `libdengjenSetSynthesisParameter` writes back. -/
def parameterConfig (key : String) (value : F32) : DengjenResult SynthesisConfig := do
  let fallback ← model.getFallbackSynthesisConfig state
  let config := fallback.getD .default
  pure { config with parameters := config.parameters.insert key value }

/-- The configuration that an update starts from. -/
def genericConfigOrErr : DengjenResult SynthesisConfig := do
  match ← model.getFallbackSynthesisConfig state with
  | some config => pure config
  | none => throw (.invalidConfiguration
      "this model has no Piper synthesis config to read or update")

/-- The configuration that Python's `set_speaker` writes back. -/
def speakerConfig (name : String) : DengjenResult SynthesisConfig := do
  match ← model.speakerNameToId state name with
  | some speakerId =>
      let config ← genericConfigOrErr model state
      pure { config with speaker := some speakerId }
  | none => throw (.operationError s!"no speaker named '{name}'")

/-- The configuration that Python's `set_scales` writes back. -/
def scalesConfig (lengthScale noiseScale noiseW : F32) : DengjenResult SynthesisConfig := do
  let config ← genericConfigOrErr model state
  pure
    { config with
      parameters := ((config.parameters.insert SynthConfig.lengthScale lengthScale).insert
        SynthConfig.noiseScale noiseScale).insert SynthConfig.noiseW noiseW }

/-- The configuration that Python's `set_parameters` writes back. -/
def parametersConfig (parameters : HashMap String F32) : DengjenResult SynthesisConfig := do
  let fallback ← model.getFallbackSynthesisConfig state
  let config := fallback.getD .default
  pure { config with parameters := config.parameters.extend parameters }

/-- How a call ends: it writes back the configuration it has computed. -/
def storeConfig (newConfig : DengjenResult SynthesisConfig) : DengjenResult Unit × σ :=
  match newConfig with
  | .error error => (.error error, state)
  | .ok config => model.setFallbackSynthesisConfig state config

/-- A key that is not valid UTF-8 is `none`. -/
def libdengjenSetSynthesisParameter (key : Option String) (value : F32) :
    Capi.DengjenFFIResult Unit × σ :=
  match key with
  | none => (.error .invalidUtf8, state)
  | some key =>
      (storeConfig model state (parameterConfig model state key value)).map
        (Except.mapError .ofDengjenError) id

/-- Stores the configuration with a speaker of a name. -/
def setSpeaker (name : String) : DengjenResult Unit × σ :=
  storeConfig model state (speakerConfig model state name)

/-- Stores the configuration with other scales. -/
def setScales (lengthScale noiseScale noiseW : F32) : DengjenResult Unit × σ :=
  storeConfig model state (scalesConfig model state lengthScale noiseScale noiseW)

/-- Stores the configuration with other parameters. -/
def setParameters (parameters : HashMap String F32) : DengjenResult Unit × σ :=
  storeConfig model state (parametersConfig model state parameters)

end Model

/-- A call that updates some of a voice's options. -/
inductive OptionUpdate
  /-- gRPC's `SetSynthesisOptions`. -/
  | setSynthesisOptions (synthOpts : Grpc.SynthesisSettings)
  /-- The C API's `libdengjenSetSynthesisParameter`. -/
  | setSynthesisParameter (key : String) (value : F32)
  /-- Python's `PiperModel.speaker`, `set_scales` and `set_parameters`. -/
  | setSpeaker (name : String)
  | setScales (lengthScale noiseScale noiseW : F32)
  | setParameters (parameters : HashMap String F32)

namespace OptionUpdate

/-- The gRPC server and the C API hold the synthesizer, Python holds the model itself. -/
def newConfig (backend : Backend) (update : OptionUpdate) (state : backend.State) :
    DengjenResult SynthesisConfig :=
  let synth := Grpc.Voice.modelRef ⟨backend, state⟩
  match update with
  | setSynthesisOptions synthOpts => Grpc.updatedConfig synth state synthOpts
  | setSynthesisParameter key value => parameterConfig synth state key value
  | setSpeaker name => speakerConfig backend.model state name
  | setScales lengthScale noiseScale noiseW =>
      scalesConfig backend.model state lengthScale noiseScale noiseW
  | setParameters parameters => parametersConfig backend.model state parameters

/-- The call when nothing comes between its read and its write. -/
def call (backend : Backend) (update : OptionUpdate) (state : backend.State) :
    DengjenResult Unit × backend.State :=
  let synth := Grpc.Voice.modelRef ⟨backend, state⟩
  match update with
  | setSynthesisOptions synthOpts =>
      storeConfig synth state (Grpc.updatedConfig synth state synthOpts)
  | setSynthesisParameter key value =>
      storeConfig synth state (parameterConfig synth state key value)
  | setSpeaker name => Frontends.setSpeaker backend.model state name
  | setScales lengthScale noiseScale noiseW =>
      Frontends.setScales backend.model state lengthScale noiseScale noiseW
  | setParameters parameters => Frontends.setParameters backend.model state parameters

/-- Every front end writes back the configuration it has computed, or fails with its error. -/
theorem call_eq (backend : Backend) (update : OptionUpdate) (state : backend.State) :
    update.call backend state = storeConfig backend.model state (update.newConfig backend state) := by
  cases update <;> rfl

/-- Python's calls do not give up the interpreter's lock. -/
def holdsGil : OptionUpdate → Prop
  | setSynthesisOptions _ | setSynthesisParameter _ _ => False
  | setSpeaker _ | setScales _ _ _ | setParameters _ => True

end OptionUpdate

variable {ι : Type*}

/-- The updates of one voice as clients of its stored configuration. -/
def updates (backend : Backend) (update : ι → OptionUpdate) :
    System ι backend.State SynthesisConfig DengjenError where
  prepare client state := (update client).newConfig backend state
  commit state config := backend.model.setFallbackSynthesisConfig state config
  excludes client other := (update client).holdsGil ∧ (update other).holdsGil

/-- A field of the generic configuration. -/
inductive Field
  | speaker
  | parameter (key : String)
  deriving DecidableEq

/-- What a configuration holds in a field: a speaker id, or the value of a parameter. -/
def Field.read (config : SynthesisConfig) : Field → Option (Int ⊕ F32)
  | speaker => config.speaker.map .inl
  | parameter key => (config.parameters.lookup key).map .inr

/-- What the voice's stored configuration holds in a field. -/
def storedField (backend : Backend) (field : Field) (state : backend.State) :
    Option (Int ⊕ F32) :=
  (backend.fallback state).bind field.read

/-- The configuration an update starts from holds the stored fields. -/
theorem read_readConfig (backend : Backend) (state : backend.State) (field : Field) :
    field.read (backend.readConfig state) = storedField backend field state := by
  rw [Backend.readConfig, storedField]
  cases backend.fallback state with
  | none => cases field <;> rfl
  | some config => rfl

/-- The fields a backend stores: Piper keeps the speaker and its three scales. -/
def Keeps : Backend → Field → Prop
  | .piper _, .parameter key | .piperStreaming _, .parameter key => key ∈ Grpc.namedKeys
  | _, _ => True

/-- Piper's parameters always hold a value under each of their keys. -/
theorem exists_lookup_namedKey {key : String} (hkey : key ∈ Grpc.namedKeys)
    (config : PiperSynthesisConfig) :
    ∃ value, config.toSynthesisConfig.parameters.lookup key = some value := by
  simp only [Grpc.namedKeys, List.mem_cons, List.not_mem_nil, or_false] at hkey
  rcases hkey with rfl | rfl | rfl <;> exact ⟨_, rfl⟩

/-- A value under one of Piper's keys survives the trip through Piper's parameters. -/
theorem lookup_ofSynthesisConfig {key : String} (hkey : key ∈ Grpc.namedKeys)
    {config : SynthesisConfig} {value : F32} (h : config.parameters.lookup key = some value) :
    (PiperSynthesisConfig.ofSynthesisConfig config).toSynthesisConfig.parameters.lookup key =
      some value := by
  simp only [Grpc.namedKeys, List.mem_cons, List.not_mem_nil, or_false] at hkey
  rcases hkey with rfl | rfl | rfl
  · change some ((config.parameters.lookup SynthConfig.lengthScale).getD _) = some value
    rw [h, Option.getD_some]
  · change some ((config.parameters.lookup SynthConfig.noiseScale).getD _) = some value
    rw [h, Option.getD_some]
  · change some ((config.parameters.lookup SynthConfig.noiseW).getD _) = some value
    rw [h, Option.getD_some]

/-- A configuration that keeps what it does not assign to is stored as it is, in the fields
that the backend stores. -/
theorem storedField_stored {backend : Backend} {field : Field} (hkeeps : Keeps backend field)
    {state : backend.State} {config : SynthesisConfig} {assigned : Option (Int ⊕ F32)}
    (h : field.read config = assigned.or (storedField backend field state)) :
    storedField backend field (backend.stored state config) = field.read config := by
  cases backend with
  | melo _ | kokoro _ => rfl
  | piper voice | piperStreaming voice =>
      cases field with
      | speaker =>
          have hread : config.speaker.map Sum.inl =
              assigned.or (state.speaker.map (Sum.inl : Int → Int ⊕ F32)) := h
          change (config.speaker.or state.speaker).map Sum.inl = config.speaker.map Sum.inl
          cases hspeaker : config.speaker with
          | some sid => rfl
          | none =>
              rw [hspeaker, Option.map_none, eq_comm, Option.or_eq_none_iff] at hread
              exact hread.2
      | parameter key =>
          obtain ⟨old, hold⟩ := exists_lookup_namedKey hkeeps state
          have hread : (config.parameters.lookup key).map Sum.inr =
              assigned.or (some (Sum.inr old)) := by
            refine h.trans (congrArg _ ?_)
            exact congrArg (Option.map Sum.inr) hold
          obtain ⟨value, hvalue⟩ : ∃ value, config.parameters.lookup key = some value := by
            cases hlookup : config.parameters.lookup key with
            | some value => exact ⟨value, rfl⟩
            | none =>
                rw [hlookup, Option.map_none, eq_comm, Option.or_eq_none_iff] at hread
                cases hread.2
          have hstored := lookup_ofSynthesisConfig hkeeps hvalue
          exact congrArg (Option.map Sum.inr) (hstored.trans hvalue.symm)

/-- The id under which Python's `set_speaker` looks a name up. -/
def nameToId : Backend → String → Option Int
  | .piper voice, name => voice.config.speakerIdMap.lookup name
  | .piperStreaming voice, name => voice.config.speakerIdMap.lookup name
  | .melo voice, name => voice.speakerMap.findId name
  | .kokoro voice, name => voice.speakerMap.findId name

theorem speakerNameToId_eq (backend : Backend) (state : backend.State) (name : String) :
    backend.model.speakerNameToId state name = .ok (nameToId backend name) := by
  cases backend <;> rfl

/-- What an update is to put into a field, if anything. -/
def OptionUpdate.assigned (backend : Backend) : OptionUpdate → Field → Option (Int ⊕ F32)
  | setSynthesisOptions synthOpts, .speaker =>
      (synthOpts.speaker.bind fun name => backend.speakers.findId name).map .inl
  | setSynthesisOptions synthOpts, .parameter key => (synthOpts.parameter key).map .inr
  | setSynthesisParameter key value, .parameter key' =>
      if key' = key then some (.inr value) else none
  | setSpeaker name, .speaker => (nameToId backend name).map .inl
  | setScales lengthScale noiseScale noiseW, .parameter key =>
      (Grpc.SynthesisSettings.parameter ⟨none, some lengthScale, some noiseScale, some noiseW, ∅⟩
        key).map .inr
  | setParameters parameters, .parameter key => (parameters.lookup key).map .inr
  | _, _ => none

section NewConfig

variable {backend : Backend} {state : backend.State} {config : SynthesisConfig}

theorem genericConfigOrErr_ok (h : genericConfigOrErr backend.model state = .ok config) :
    config = backend.readConfig state := by
  rw [genericConfigOrErr, Backend.getFallback_eq] at h
  cases hfallback : backend.fallback state with
  | none =>
      rw [hfallback] at h
      cases h
  | some stored =>
      rw [hfallback] at h
      rw [Backend.readConfig, hfallback]
      exact (Except.ok.inj h).symm

theorem setSynthesisParameter_newConfig (key : String) (value : F32) :
    (OptionUpdate.setSynthesisParameter key value).newConfig backend state =
      .ok { backend.readConfig state with
        parameters := (backend.readConfig state).parameters.insert key value } := by
  change parameterConfig (Grpc.Voice.modelRef ⟨backend, state⟩) state key value = _
  rw [parameterConfig, Grpc.Voice.modelRef_getFallback]
  rfl

theorem setParameters_newConfig (parameters : HashMap String F32) :
    (OptionUpdate.setParameters parameters).newConfig backend state =
      .ok { backend.readConfig state with
        parameters := (backend.readConfig state).parameters.extend parameters } := by
  change parametersConfig backend.model state parameters = _
  rw [parametersConfig, Backend.getFallback_eq]
  rfl

theorem setSpeaker_newConfig {name : String}
    (h : (OptionUpdate.setSpeaker name).newConfig backend state = .ok config) :
    ∃ sid, nameToId backend name = some sid ∧
      config = { backend.readConfig state with speaker := some sid } := by
  change speakerConfig backend.model state name = _ at h
  rw [speakerConfig, speakerNameToId_eq] at h
  cases hname : nameToId backend name with
  | none =>
      rw [hname] at h
      cases h
  | some sid =>
      rw [hname] at h
      cases hconfig : genericConfigOrErr backend.model state with
      | error error =>
          simp only [hconfig] at h
          cases h
      | ok base =>
          simp only [hconfig] at h
          refine ⟨sid, rfl, ?_⟩
          rw [← genericConfigOrErr_ok hconfig]
          exact (Except.ok.inj h).symm

theorem setScales_newConfig {lengthScale noiseScale noiseW : F32}
    (h : (OptionUpdate.setScales lengthScale noiseScale noiseW).newConfig backend state =
      .ok config) :
    config = { backend.readConfig state with
      parameters := (((backend.readConfig state).parameters.insert SynthConfig.lengthScale
        lengthScale).insert SynthConfig.noiseScale noiseScale).insert SynthConfig.noiseW
          noiseW } := by
  change scalesConfig backend.model state lengthScale noiseScale noiseW = _ at h
  rw [scalesConfig] at h
  cases hconfig : genericConfigOrErr backend.model state with
  | error error =>
      rw [hconfig] at h
      cases h
  | ok base =>
      rw [hconfig] at h
      rw [← genericConfigOrErr_ok hconfig]
      exact (Except.ok.inj h).symm

/-- The configuration that an update writes back has what it assigns, and in every other
field what is stored. -/
theorem newConfig_read (update : OptionUpdate) (h : update.newConfig backend state = .ok config)
    (field : Field) :
    field.read config = (update.assigned backend field).or (storedField backend field state) := by
  rw [← read_readConfig]
  cases update with
  | setSynthesisOptions synthOpts =>
      have heq := Except.ok.inj ((Grpc.updatedConfig_eq synthOpts).symm.trans h)
      subst heq
      cases field with
      | speaker =>
          simp only [Field.read, OptionUpdate.assigned, Backend.readConfig_speaker, Option.map_or]
      | parameter key =>
          simp only [Field.read, OptionUpdate.assigned, Grpc.SynthesisSettings.parameter,
            Grpc.lookup_insertIfSet, HashMap.lookup_extend, Option.map_or, Option.or_assoc]
  | setSynthesisParameter key value =>
      have heq := Except.ok.inj ((setSynthesisParameter_newConfig key value).symm.trans h)
      subst heq
      cases field with
      | speaker => rfl
      | parameter key' =>
          by_cases hkey : key' = key
          · subst hkey
            simp [Field.read, OptionUpdate.assigned]
          · simp [Field.read, OptionUpdate.assigned, hkey, AList.lookup_insert_ne hkey]
  | setSpeaker name =>
      obtain ⟨sid, hname, rfl⟩ := setSpeaker_newConfig h
      cases field with
      | speaker => simp [Field.read, OptionUpdate.assigned, hname]
      | parameter key => rfl
  | setScales lengthScale noiseScale noiseW =>
      obtain rfl := setScales_newConfig h
      cases field with
      | speaker => rfl
      | parameter key =>
          have hinsert (k : String) (value : F32) (parameters : HashMap String F32) :
              parameters.insert k value = Grpc.insertIfSet k (some value) parameters := rfl
          simp only [Field.read, OptionUpdate.assigned, Grpc.SynthesisSettings.parameter, hinsert,
            Grpc.lookup_insertIfSet, Option.map_or, Option.or_assoc, AList.lookup_empty,
            Option.map_none, Option.none_or]
  | setParameters parameters =>
      have heq := Except.ok.inj ((setParameters_newConfig parameters).symm.trans h)
      subst heq
      cases field with
      | speaker => rfl
      | parameter key =>
          simp only [Field.read, OptionUpdate.assigned, HashMap.lookup_extend, Option.map_or]

end NewConfig

section Call

variable {backend : Backend} {state : backend.State}

/-- A client whose update nothing comes between makes the call of its front end. -/
theorem atomic_eq_call (update : ι → OptionUpdate) (client : ι) :
    (updates backend update).atomic client state = (update client).call backend state := by
  have hprepare : (updates backend update).prepare client state =
      (update client).newConfig backend state := rfl
  rw [OptionUpdate.call_eq, System.atomic, hprepare]
  cases (update client).newConfig backend state <;> rfl

/-- A call that is accepted has computed a configuration, and the voice has stored it. -/
theorem call_ok {update : OptionUpdate} (h : (update.call backend state).1 = .ok ()) :
    ∃ config, update.newConfig backend state = .ok config ∧
      (update.call backend state).2 = backend.stored state config := by
  rw [OptionUpdate.call_eq] at h ⊢
  cases hconfig : update.newConfig backend state with
  | error error =>
      rw [hconfig] at h
      cases h
  | ok config =>
      rw [hconfig] at h
      exact ⟨config, rfl, (Backend.setFallback_of_ok (Prod.ext h rfl)).2⟩

/-- A call that is refused has left the voice as it was. -/
theorem call_error {update : OptionUpdate} {error : DengjenError}
    (h : (update.call backend state).1 = .error error) : (update.call backend state).2 = state := by
  rw [OptionUpdate.call_eq] at h ⊢
  cases hconfig : update.newConfig backend state with
  | error error => rfl
  | ok config =>
      rw [hconfig] at h
      exact Backend.setFallback_of_error (Prod.ext h rfl)

theorem libdengjenSetSynthesisParameter_eq_call (key : String) (value : F32) :
    libdengjenSetSynthesisParameter (Grpc.Voice.modelRef ⟨backend, state⟩) state (some key) value =
      ((OptionUpdate.setSynthesisParameter key value).call backend state).map
        (Except.mapError .ofDengjenError) id := rfl

/-- gRPC's update leaves in the registry what its call leaves in the voice. -/
theorem applySynthOptions_eq_call {voices : Grpc.Voices} {voiceKey : String}
    (h : voices.lookup voiceKey = some ⟨backend, state⟩) (synthOpts : Grpc.SynthesisSettings) :
    (Grpc.applySynthOptions voices voiceKey synthOpts).2.lookup voiceKey =
      some ⟨backend, ((OptionUpdate.setSynthesisOptions synthOpts).call backend state).2⟩ := by
  obtain ⟨config, hconfig⟩ : ∃ config, Grpc.updatedConfig (Grpc.Voice.modelRef ⟨backend, state⟩)
      state synthOpts = .ok config := ⟨_, Grpc.updatedConfig_eq synthOpts⟩
  have hnew : (OptionUpdate.setSynthesisOptions synthOpts).newConfig backend state = .ok config :=
    hconfig
  rw [OptionUpdate.call_eq, hnew, storeConfig, Grpc.applySynthOptions, Grpc.findVoice, h]
  simp only [hconfig, Grpc.Voice.modelRef_setFallback]
  cases backend.model.setFallbackSynthesisConfig state config with
  | mk result state' => cases result <;> exact AList.lookup_insert _

end Call

section Updates

variable {backend : Backend} {update : ι → OptionUpdate}

/-- The updates assign to the stored fields what they say. -/
theorem updates_assigns {field : Field} (hkeeps : Keeps backend field) :
    System.Assigns (updates backend update) (storedField backend field)
      fun client => (update client).assigned backend field where
  accepted client state h := by
    rw [atomic_eq_call] at h ⊢
    obtain ⟨config, hconfig, hstored⟩ := call_ok h
    have hread := newConfig_read (update client) hconfig field
    rw [hstored, storedField_stored hkeeps hread, hread]
  refused client state error h := by
    rw [atomic_eq_call] at h ⊢
    rw [call_error h]

/-- Python's calls never overlap, whatever the schedule. -/
theorem isolated_of_holdsGil (h : ∀ client, (update client).holdsGil)
    (s : State ι backend.State SynthesisConfig DengjenError) (label : Label ι) :
    (updates backend update).Isolated s label :=
  fun client _ other _ _ => ⟨h client, h other⟩

variable [DecidableEq ι]

/-- In a run in which no update reads the stored configuration while another one that the
interpreter's lock does not hold off is about to write, the voice is as the finished updates
leave it when they run one after another, and it has what an accepted update put into a field
that no other finished update assigns to. -/
theorem isolated_updates_never_lost (backend : Backend) (update : ι → OptionUpdate)
    (state₀ : backend.State) (s : State ι backend.State SynthesisConfig DengjenError)
    (hs : Reachable (Init state₀)
      (restrict (updates backend update).Isolated (updates backend update).Step) s) :
    (s.store = (updates backend update).serial state₀ s.log ∧ s.log.Nodup ∧
      ∀ client, client ∈ s.log ↔ ∃ result, s.phase client = .finished result) ∧
    ∀ client field value, s.phase client = .finished (.ok ()) → Keeps backend field →
      (update client).assigned backend field = some value →
      (∀ other ∈ s.log, other ≠ client → (update other).assigned backend field = none) →
      storedField backend field s.store = some value := by
  have hi := System.Invariant.of_reachable hs
  refine ⟨⟨hi.store, hi.nodup, fun client => ⟨hi.logged client, ?_⟩⟩, ?_⟩
  · rintro ⟨result, hresult⟩
    obtain ⟨before, after, hlog, -⟩ := hi.finished client result hresult
    rw [hlog]
    exact List.mem_append_right _ List.mem_cons_self
  · intro client field value hphase hkeeps hassigned hothers
    obtain ⟨before, after, hlog, hresult⟩ := hi.finished client _ hphase
    have hnodup := hi.nodup
    rw [hi.store, hlog]
    rw [hlog] at hnodup hothers
    apply (updates_assigns hkeeps).serial_of_some hresult hassigned
    intro other hother
    apply hothers other (List.mem_append_right _ (List.mem_cons_of_mem _ hother))
    rintro rfl
    exact (List.nodup_cons.mp (List.nodup_append.mp hnodup).2.1).1 hother

end Updates

/-- A MeloTTS voice without named speakers. -/
def plainVoice : Backend := .melo
  { config :=
      { sampleRate := 44100
        phoneIdMap := ∅
        toneIdMap := ∅
        speakerIdMap := ∅
        defaultSpeakerId := none
        inference := ⟨⟨0x3F2AC083⟩, ⟨0x3F800000⟩, ⟨0x3F4CCCCD⟩⟩ }
    phoneTonePairs := fun _ => .ok []
    session := fun _ => .ok [] }

/-- One call of the C API sets the noise scale, the other one the length scale. -/
def twoParameters (second : Bool) : OptionUpdate :=
  if second then .setSynthesisParameter SynthConfig.lengthScale ⟨0x40000000⟩
  else .setSynthesisParameter SynthConfig.noiseScale ⟨0x3F000000⟩

theorem twoParameters_isolated :
    ∃ s, Reachable (Init plainVoice.initialState)
        (restrict (updates plainVoice twoParameters).Isolated
          (updates plainVoice twoParameters).Step) s ∧ s.log = [false, true] ∧
      storedField plainVoice (.parameter SynthConfig.noiseScale) s.store =
        some (.inr ⟨0x3F000000⟩) ∧
      storedField plainVoice (.parameter SynthConfig.lengthScale) s.store =
        some (.inr ⟨0x40000000⟩) := by
  obtain ⟨s, hs, hlog, -, -, hfinished⟩ := System.exists_isolated_run
    (updates plainVoice twoParameters) plainVoice.initialState [false, true] (by decide)
  obtain ⟨-, hkept⟩ := isolated_updates_never_lost plainVoice twoParameters _ s hs
  refine ⟨s, hs, hlog, ?_, ?_⟩
  · apply hkept false _ _ (hfinished [] false [true] rfl) trivial rfl
    intro other _ hne
    obtain rfl : other = true := by cases other <;> simp at hne ⊢
    rfl
  · apply hkept true _ _ (hfinished [false] true [] rfl) trivial rfl
    intro other _ hne
    obtain rfl : other = false := by cases other <;> simp at hne ⊢
    rfl

section Overlap

variable {backend : Backend} {update : ι → OptionUpdate}

/-- A stored parameter is the one of the last configuration that was stored. -/
theorem storedField_parameter_stored (state state' : backend.State) (config : SynthesisConfig)
    (key : String) :
    storedField backend (.parameter key) (backend.stored state config) =
      storedField backend (.parameter key) (backend.stored state' config) := by
  cases backend <;> rfl

variable [DecidableEq ι]

/-- Where two accepted updates both read before either writes, a parameter that only the
first writer assigns is afterwards what it was before both. -/
theorem overlapped_parameter_lost {first second : ι} (hne : first ≠ second)
    (hfree : ¬ ((update second).holdsGil ∧ (update first).holdsGil)) {state₀ : backend.State}
    {config config' : SynthesisConfig}
    (hconfig : (update first).newConfig backend state₀ = .ok config)
    (hconfig' : (update second).newConfig backend state₀ = .ok config')
    (hknown : ∀ sid, config.speaker = some sid → sid ∈ backend.speakers)
    (hknown' : ∀ sid, config'.speaker = some sid → sid ∈ backend.speakers) {key : String}
    (hkeeps : Keeps backend (.parameter key))
    (hassigned : (update second).assigned backend (.parameter key) = none) :
    ∃ s, Run (updates backend update).Step (.initial state₀)
        [.read first, .read second, .write first, .write second] s ∧
      s.phase first = .finished (.ok ()) ∧ s.phase second = .finished (.ok ()) ∧
      storedField backend (.parameter key) s.store =
        storedField backend (.parameter key) state₀ := by
  obtain ⟨s, hrun, hstore, hfirst, hsecond⟩ :=
    System.exists_overlapped_run (updates backend update) hne hfree hconfig hconfig'
  have hset : (updates backend update).commit state₀ config =
      (.ok (), backend.stored state₀ config) := Backend.setFallback_of_known hknown
  have hset' : (updates backend update).commit (backend.stored state₀ config) config' =
      (.ok (), backend.stored (backend.stored state₀ config) config') :=
    Backend.setFallback_of_known hknown'
  simp only [hset, hset'] at hstore hfirst hsecond
  refine ⟨s, hrun, hfirst, hsecond, ?_⟩
  have hread := newConfig_read (update second) hconfig' (.parameter key)
  rw [hstore, storedField_parameter_stored _ state₀ config' key, storedField_stored hkeeps hread,
    hread, hassigned, Option.none_or]

end Overlap

theorem overlapping_parameter_calls :
    ∃ s, Run (updates plainVoice twoParameters).Step (.initial plainVoice.initialState)
        [.read false, .read true, .write false, .write true] s ∧
      s.phase false = .finished (.ok ()) ∧ s.phase true = .finished (.ok ()) ∧
      storedField plainVoice (.parameter SynthConfig.noiseScale) s.store = none := by
  refine @overlapped_parameter_lost Bool plainVoice twoParameters _ false true (by decide) ?_
    plainVoice.initialState _ _ rfl rfl ?_ ?_ _ trivial rfl
  · exact fun hgil => hgil.1
  · intro sid hsid
    cases hsid
  · intro sid hsid
    cases hsid

end Dengjen.Frontends

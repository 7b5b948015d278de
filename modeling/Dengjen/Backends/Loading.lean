import Dengjen.General.Traced
import Dengjen.Core.ConfinedPath

/-!
# The files that loading a voice opens

Loading starts from the strings of a parsed config and leaves the paths it opens as
its trace. What the file system and the engines answer is a parameter. Piper joins
its paths onto the directory of the config, MeloTTS takes the directory of its g2pW
model as it is, and all others go through `resolve_within`.
-/

namespace Dengjen.Loading

open Traced LexicalPaths

/-- The cargo features that decide what is opened. -/
structure Features where
  hebrew : Bool
  pinyin : Bool
  tashkeel : Bool
  japanese : Bool

/-- The features of a build, with the one that only phonemizing asks for. -/
structure Build extends Features where
  espeak : Bool

/-- Whether a path was made of a string of the config or of the config's own name. -/
inductive Origin
  | configString
  | configName
  deriving DecidableEq

/-- A file that loading opens, and where its path comes from. -/
structure Opened where
  origin : Origin
  path : Path
  deriving DecidableEq

/-- What opening, reading and parsing the file at a path comes to, and the two engines whose
files no config names. -/
structure Host where
  openFile : Path → DengjenResult Unit
  tashkeelEngine : DengjenResult Unit
  japaneseDictionary : DengjenResult Unit

/-- The path of a config that was read. Its last component is a name, since others lead to
directories. -/
structure ConfigFile where
  text : String
  name : String
  named : (Path.new text).fileName = some name

namespace ConfigFile

/-- The path of a configuration file. -/
def path (file : ConfigFile) : Path := Path.new file.text

/-- The config file's own directory. -/
def dir (file : ConfigFile) : Path := file.path.parent.getD (Path.new ".")

theorem withFileName_eq (file : ConfigFile) (name : Path) :
    file.path.withFileName name = file.dir.join name := by
  rw [dir, path, Path.withFileName_eq_join file.named, Path.parent_of_fileName file.named]
  rfl

end ConfigFile

section Loaders

variable (features : Features) (host : Host) (file : ConfigFile)

/-- Opens a file that a string of the configuration names. -/
def openNamed (path : Path) : Traced Opened DengjenError Unit :=
  emit ⟨.configString, path⟩ (host.openFile path)

/-- Opens a file that lies beside the configuration under a name of its own. -/
def openBeside (path : Path) : Traced Opened DengjenError Unit :=
  emit ⟨.configName, path⟩ (host.openFile path)

/-! ## The g2pW model -/

/-- Opens the three dictionary files. -/
def loadDictionaries (monophonicPath polyphonicPath charBopomofoPath : Path) :
    Traced Opened DengjenError Unit := do
  openNamed host monophonicPath
  openNamed host polyphonicPath
  openNamed host charBopomofoPath

/-- Opens the model and its tokenizer. -/
def createG2pwEngine (onnxModelPath tokenizerPath : Path) : Traced Opened DengjenError Unit := do
  openNamed host onnxModelPath
  openNamed host tokenizerPath

/-- Opens the dictionaries of a model directory and then its model. -/
def createPinyinEngine (modelDir : Path) : Traced Opened DengjenError Unit := do
  loadDictionaries host
    (modelDir.join (.new "MONOPHONIC_CHARS.txt"))
    (modelDir.join (.new "POLYPHONIC_CHARS.txt"))
    (modelDir.join (.new "char_bopomofo_dict.json"))
  createG2pwEngine host
    (modelDir.join (.new "g2pw.onnx"))
    (modelDir.join (.new "tokenizer.json"))
  openNamed host (modelDir.join (.new "bopomofo_to_pinyin_wo_tune_dict.json"))

/-! ## Piper -/

namespace Piper

/-- The phonemizers that a configuration may name. -/
inductive PhonemeType
  | espeak
  | text
  | pinyin
  | hebrew
  deriving DecidableEq

/-- The fields of the config that loading reads. -/
structure ModelConfig where
  streaming : Option Bool
  espeakVoice : String
  phonemeType : Option PhonemeType
  hebrewModelPath : Option String
  pinyinModelDir : Option String

/-- The voice is Arabic and the build has the diacritizer. -/
def shouldDiacritize (voice : String) : Bool := features.tashkeel && voice == "ar"

/-- The engines of a voice, where it has them, by the paths that they were created from. -/
structure Engines where
  tashkeelEngine : Option Unit
  hebrewEngine : Option Path
  pinyinEngine : Option Path

/-- The engine that diacritizes, for a voice that needs it. -/
def createTashkeelEngine (config : ModelConfig) : Traced Opened DengjenError (Option Unit) :=
  if shouldDiacritize features config.espeakVoice then ofExcept (host.tashkeelEngine.map some)
  else pure none

/-- What the two engines of a phoneme type have in common. -/
def createEngine (config : ModelConfig) (feature : Bool) (phonemeType : PhonemeType)
    (configured : Option String) (missing : String) (resolve : Path → Path)
    (create : Path → Traced Opened DengjenError Unit) : Traced Opened DengjenError (Option Path) :=
  if !feature || config.phonemeType != some phonemeType then pure none
  else
    match configured with
    | some value => do
        create (resolve (.new value))
        pure (some (resolve (.new value)))
    | none => ofExcept (.error (.invalidConfiguration missing))

/-- The model path is joined to the directory of the configuration as it is. -/
def resolveHebrewModelPath (configPath modelPath : Path) : Path := configPath.withFileName modelPath

/-- The model of a Hebrew voice. -/
def createHebrewEngine (config : ModelConfig) : Traced Opened DengjenError (Option Path) :=
  createEngine config features.hebrew .hebrew config.hebrewModelPath
    "This voice's phoneme_type is `hebrew` but no Nakdimon model path was configured"
    (resolveHebrewModelPath file.path) (openNamed host)

/-- The model directory is joined to the directory of the configuration as it is. -/
def resolvePinyinModelDir (configPath modelDir : Path) : Path := configPath.withFileName modelDir

/-- The models of a pinyin voice. -/
def createPinyinEngine (config : ModelConfig) : Traced Opened DengjenError (Option Path) :=
  createEngine config features.pinyin .pinyin config.pinyinModelDir
    "This voice's phoneme_type is `pinyin` but no g2pW model directory was configured"
    (resolvePinyinModelDir file.path) (Loading.createPinyinEngine host)

/-- What both `from_config` do behind their sessions. -/
def createEngines (config : ModelConfig) : Traced Opened DengjenError Engines := do
  let tashkeelEngine ← createTashkeelEngine features host config
  let hebrewEngine ← createHebrewEngine features host file config
  let pinyinEngine ← createPinyinEngine features host file config
  pure ⟨tashkeelEngine, hebrewEngine, pinyinEngine⟩

/-- A voice with one model file. -/
def vitsModelFromConfig (config : ModelConfig) (onnxPath : Path) :
    Traced Opened DengjenError Engines := do
  openBeside host onnxPath
  createEngines features host file config

/-- A voice with an encoder and a decoder. -/
def vitsStreamingModelFromConfig (config : ModelConfig) (encoderPath decoderPath : Path) :
    Traced Opened DengjenError Engines := do
  openBeside host encoderPath
  openBeside host decoderPath
  createEngines features host file config

/-- Loads a voice of the kind that its configuration says. -/
def fromConfigPath (config : ModelConfig) : Traced Opened DengjenError Engines :=
  if config.streaming.getD false then
    vitsStreamingModelFromConfig features host file config
      (file.path.withFileName (.new "encoder.onnx"))
      (file.path.withFileName (.new "decoder.onnx"))
  else
    match file.path.fileStem with
    | some stem =>
        vitsModelFromConfig features host file config (file.path.withFileName (.new stem))
    | none => ofExcept (.error (.invalidConfiguration
        s!"Invalid config filename format `{file.text}`"))

end Piper

/-! ## MeloTTS -/

namespace Melo

/-- The phonemizers that a configuration may name. -/
inductive PhonemizerConfig
  | espeak (voice : String)
  | pinyin (modelDir : String)

/-- The fields of the config that loading reads. -/
structure RawMeloVoiceConfig where
  phonemizer : PhonemizerConfig
  modelPath : String

/-- The engine of a pinyin voice, where the build has one. -/
def createPinyinBackend (modelDir : Path) : Traced Opened DengjenError Unit :=
  if features.pinyin then createPinyinEngine host modelDir
  else ofExcept (.error (.phonemizationError
    "MeloTTS pinyin phonemization requires the `pinyin` feature, but it is disabled"))

/-- The engine of a voice; eSpeak-ng has none of its own. -/
def createBackend : PhonemizerConfig → Traced Opened DengjenError Unit
  | .espeak _ => pure ()
  | .pinyin modelDir => createPinyinBackend features host (.new modelDir)

/-- The path of the model, which has to lie below the directory of the configuration. -/
def loadConfig (config : RawMeloVoiceConfig) : DengjenResult Path :=
  ConfigPath.resolveWithin file.dir "model_path" config.modelPath

/-- Loads a voice: its configuration, then its engine, then its model. -/
def fromConfigPath (config : RawMeloVoiceConfig) : Traced Opened DengjenError Unit := do
  let modelPath ← ofExcept (loadConfig file config)
  createBackend features host config.phonemizer
  openNamed host modelPath

end Melo

/-! ## Kokoro -/

namespace Kokoro

/-- The configuration file of a voice. -/
structure RawKokoroVoiceConfig where
  modelType : String
  modelPath : String
  voicesDir : String
  vocabPath : String
  voices : List String

/-- A configuration with its paths resolved. -/
structure KokoroVoiceConfig where
  modelPath : Path
  voicesDir : Path
  vocabPath : Path
  voices : List String

/-- The paths of a configuration, which have to lie below its directory. -/
def loadConfig (raw : RawKokoroVoiceConfig) : DengjenResult KokoroVoiceConfig := do
  if raw.modelType ≠ "kokoro" then
    .error (.failedToLoadResource s!"Expected model_type \"kokoro\", got \"{raw.modelType}\"")
  else
    let modelPath ← ConfigPath.resolveWithin file.dir "model_path" raw.modelPath
    let voicesDir ← ConfigPath.resolveWithin file.dir "voices_dir" raw.voicesDir
    let vocabPath ← ConfigPath.resolveWithin file.dir "vocab_path" raw.vocabPath
    pure ⟨modelPath, voicesDir, vocabPath, raw.voices⟩

/-- A name that is one component of a path and nothing else. -/
def isPlainFileStem (voiceName : String) : Bool :=
  match (Path.new voiceName).components with
  | [.normal name] => name == voiceName
  | _ => false

/-- Opens the file of a preset, where its name is a plain one. -/
def loadVoiceStyle (voicesDir : Path) (voiceName : String) : Traced Opened DengjenError Unit :=
  if isPlainFileStem voiceName then openNamed host (voicesDir.join (.new (voiceName ++ ".bin")))
  else ofExcept (.error (.failedToLoadResource
    s!"Kokoro voice name `{voiceName}` must be a plain file name without path separators"))

/-- Opens the files of all presets. -/
def loadVoiceStyles (voicesDir : Path) (voices : List String) : Traced Opened DengjenError Unit :=
  voices.forM (loadVoiceStyle host voicesDir)

/-- Opens what a voice reads: its model, its vocabulary, its presets and the Japanese dictionary. -/
def kokoroModelFromConfig (config : KokoroVoiceConfig) : Traced Opened DengjenError Unit := do
  openNamed host config.modelPath
  openNamed host config.vocabPath
  loadVoiceStyles host config.voicesDir config.voices
  if config.voices.isEmpty then
    ofExcept (.error (.failedToLoadResource "No voices in config"))
  else if features.japanese && config.voices.any fun voice => voice.toList.head? == some 'j' then
    ofExcept host.japaneseDictionary
  else pure ()

/-- Loads a voice from its configuration. -/
def fromConfigPath (raw : RawKokoroVoiceConfig) : Traced Opened DengjenError Unit := do
  let config ← ofExcept (loadConfig file raw)
  kokoroModelFromConfig features host config

end Kokoro

/-- A configuration file of one of the three backends. -/
inductive VoiceConfig
  | piper (config : Piper.ModelConfig)
  | melo (config : Melo.RawMeloVoiceConfig)
  | kokoro (config : Kokoro.RawKokoroVoiceConfig)

/-- Loads a voice of any backend. -/
def loadVoice : VoiceConfig → Traced Opened DengjenError Unit
  | .piper config => do
      let _ ← Piper.fromConfigPath features host file config
  | .melo config => Melo.fromConfigPath features host file config
  | .kokoro config => Kokoro.fromConfigPath features host file config

/-- The string that an engine of the phoneme type is created from, if one is. -/
def Piper.ModelConfig.inUse (config : Piper.ModelConfig) (feature : Bool)
    (phonemeType : Piper.PhonemeType) (configured : Option String) : List String :=
  if feature && config.phonemeType == some phonemeType then configured.toList else []

/-- The strings of a config that loading makes paths of. -/
def VoiceConfig.pathStrings : VoiceConfig → List String
  | .piper config =>
      config.inUse features.hebrew .hebrew config.hebrewModelPath ++
        config.inUse features.pinyin .pinyin config.pinyinModelDir
  | .melo config =>
      match config.phonemizer with
      | .pinyin modelDir => [config.modelPath, modelDir]
      | .espeak _ => [config.modelPath]
  | .kokoro raw => raw.modelPath :: raw.voicesDir :: raw.vocabPath :: raw.voices

end Loaders

/-! ## Confinement -/

section Confinement

variable (features : Features) (cwd : List String) (host : Host) (file : ConfigFile)

/-- A path made of a string of the config lies in the config file's own directory. -/
def InOwnDir (opened : Opened) : Prop :=
  opened.origin = .configString → Inside cwd file.dir opened.path

/-- Loading opens no path of the config outside of the config file's own directory, and fails
for a string that would leave it. -/
structure Confined (config : VoiceConfig) : Prop where
  inOwnDir : Emits (InOwnDir cwd file) (loadVoice features host file config)
  refuses : ∀ value ∈ config.pathStrings features, Leaves cwd file.dir value →
    (loadVoice features host file config).Fails

/-- The strings that no check looks at name paths in the config file's own directory. -/
def StaysInside : VoiceConfig → Prop
  | .piper config => ∀ value ∈ (VoiceConfig.piper config).pathStrings features,
      ¬ Leaves cwd file.dir value
  | .melo config => ∀ modelDir modelPath, config.phonemizer = .pinyin modelDir → features.pinyin →
      ConfigPath.resolveWithin file.dir "model_path" config.modelPath = .ok modelPath →
        ¬ Leaves cwd file.dir modelDir ∧ Inside cwd file.dir (.new modelDir)
  | .kokoro _ => True

variable {features cwd host file}

theorem emits_openBeside (path : Path) : Emits (InOwnDir cwd file) (openBeside host path) := by
  apply emits_emit
  intro horigin
  cases horigin

theorem emits_openNamed {path : Path} (h : Inside cwd file.dir path) :
    Emits (InOwnDir cwd file) (openNamed host path) :=
  emits_emit (fun _ => h) _

/-- The files of a g2pW model are in its directory. -/
theorem emits_createPinyinEngine {modelDir : Path} (h : Inside cwd file.dir modelDir) :
    Emits (InOwnDir cwd file) (createPinyinEngine host modelDir) := by
  have hfile : ∀ name, (∀ component ∈ (Path.new name).components, component.Descends) →
      Emits (InOwnDir cwd file) (openNamed host (modelDir.join (.new name))) :=
    fun name hname => emits_openNamed (h.trans (inside_join cwd modelDir hname))
  have hdictionaries : Emits (InOwnDir cwd file) (loadDictionaries host
      (modelDir.join (.new "MONOPHONIC_CHARS.txt")) (modelDir.join (.new "POLYPHONIC_CHARS.txt"))
      (modelDir.join (.new "char_bopomofo_dict.json"))) :=
    (hfile _ (by decide)).bind fun _ _ => (hfile _ (by decide)).bind fun _ _ => hfile _ (by decide)
  have hg2pw : Emits (InOwnDir cwd file) (createG2pwEngine host
      (modelDir.join (.new "g2pw.onnx")) (modelDir.join (.new "tokenizer.json"))) :=
    (hfile _ (by decide)).bind fun _ _ => hfile _ (by decide)
  exact hdictionaries.bind fun _ _ => hg2pw.bind fun _ _ => hfile _ (by decide)

/-- A host that has every file. -/
def Host.complete : Host := ⟨fun _ => .ok (), .ok (), .ok ()⟩

/-- A directory whose g2pW files are all in the config's own directory is there itself. -/
theorem inside_of_emits_createPinyinEngine {modelDir : Path}
    (h : Emits (InOwnDir cwd file) (createPinyinEngine .complete modelDir)) :
    Inside cwd file.dir modelDir := by
  have hdictionaries := h.first
  have hmonophonic : Inside cwd file.dir (modelDir.join (.new "MONOPHONIC_CHARS.txt")) :=
    hdictionaries.first _ List.mem_cons_self rfl
  have hpolyphonic : Inside cwd file.dir (modelDir.join (.new "POLYPHONIC_CHARS.txt")) :=
    (hdictionaries.second rfl).first _ List.mem_cons_self rfl
  have hnames : Path.new "MONOPHONIC_CHARS.txt" = ⟨[.normal "MONOPHONIC_CHARS.txt"]⟩ ∧
      Path.new "POLYPHONIC_CHARS.txt" = ⟨[.normal "POLYPHONIC_CHARS.txt"]⟩ := by decide
  rw [Inside, Path.locate_join, hnames.1] at hmonophonic
  rw [Inside, Path.locate_join, hnames.2] at hpolyphonic
  exact prefix_of_prefix_concat _ (by decide) hmonophonic hpolyphonic

theorem inside_of_not_leaves {value : String} (h : ¬ Leaves cwd file.dir value) :
    Inside cwd file.dir (file.path.withFileName (.new value)) := by
  rw [file.withFileName_eq]
  exact not_not.mp (not_or.mp h).2

namespace Piper

variable {config : ModelConfig}

theorem mem_inUse_iff {feature : Bool} {phonemeType : PhonemeType} {configured : Option String}
    {value : String} : value ∈ config.inUse feature phonemeType configured ↔
      feature = true ∧ config.phonemeType = some phonemeType ∧ configured = some value := by
  simp [ModelConfig.inUse, and_assoc]

theorem emits_createEngine {feature : Bool} {phonemeType : PhonemeType}
    {configured : Option String} {missing : String} {resolve : Path → Path}
    {create : Path → Traced Opened DengjenError Unit}
    (h : ∀ value ∈ config.inUse feature phonemeType configured,
      Emits (InOwnDir cwd file) (create (resolve (.new value)))) :
    Emits (InOwnDir cwd file)
      (createEngine config feature phonemeType configured missing resolve create) := by
  rw [createEngine.eq_def]
  split
  · exact emits_pure _
  · next hused =>
      split
      · next value =>
          have hmem : value ∈ config.inUse feature phonemeType (some value) := by
            rw [mem_inUse_iff]
            simpa using hused
          exact (h value hmem).bind fun _ _ => emits_pure _
      · exact emits_ofExcept _

theorem emits_createHebrewEngine (h : StaysInside features cwd file (.piper config)) :
    Emits (InOwnDir cwd file) (createHebrewEngine features host file config) := by
  apply emits_createEngine
  intro modelPath hmem
  apply emits_openNamed
  apply inside_of_not_leaves
  exact h modelPath (List.mem_append_left _ hmem)

theorem emits_createPinyinEngine (h : StaysInside features cwd file (.piper config)) :
    Emits (InOwnDir cwd file) (createPinyinEngine features host file config) := by
  apply emits_createEngine
  intro modelDir hmem
  apply Loading.emits_createPinyinEngine
  apply inside_of_not_leaves
  exact h modelDir (List.mem_append_right _ hmem)

theorem emits_createTashkeelEngine :
    Emits (InOwnDir cwd file) (createTashkeelEngine features host config) := by
  rw [createTashkeelEngine]
  split
  · exact emits_ofExcept _
  · exact emits_pure _

theorem emits_fromConfigPath (h : StaysInside features cwd file (.piper config)) :
    Emits (InOwnDir cwd file) (fromConfigPath features host file config) := by
  have hengines : Emits (InOwnDir cwd file) (createEngines features host file config) :=
    emits_createTashkeelEngine.bind fun _ _ => (emits_createHebrewEngine h).bind fun _ _ =>
      (emits_createPinyinEngine h).bind fun _ _ => emits_pure _
  rw [fromConfigPath]
  split
  · exact (emits_openBeside _).bind fun _ _ => (emits_openBeside _).bind fun _ _ => hengines
  · split
    · exact (emits_openBeside _).bind fun _ _ => hengines
    · exact emits_ofExcept _

theorem result_createTashkeelEngine :
    ∃ created, (createTashkeelEngine features .complete config).result = .ok created := by
  rw [createTashkeelEngine]
  split
  · exact ⟨some (), rfl⟩
  · exact ⟨none, rfl⟩

theorem result_createEngine {feature : Bool} {phonemeType : PhonemeType}
    {configured : Option String} {missing : String} {resolve : Path → Path}
    {create : Path → Traced Opened DengjenError Unit}
    (hcreate : ∀ path, (create path).result = .ok ())
    (h : config.phonemeType = some phonemeType → configured ≠ none) :
    ∃ created, (createEngine config feature phonemeType configured missing resolve create).result =
      .ok created := by
  rw [createEngine.eq_def]
  split
  · exact ⟨none, rfl⟩
  · next hused =>
      split
      · next value =>
          rw [bind_of_ok (hcreate _)]
          exact ⟨some (resolve (.new value)), rfl⟩
      · have htype : feature = true ∧ config.phonemeType = some phonemeType := by
          simpa using hused
        exact absurd rfl (h htype.2)

/-- With every file at hand, loading goes through whatever the path strings are. -/
theorem result_fromConfigPath {value : String}
    (h : value ∈ (VoiceConfig.piper config).pathStrings features) :
    ∃ engines, (fromConfigPath features .complete file config).result = .ok engines := by
  have hengines : ∃ engines, (createEngines features .complete file config).result =
      .ok engines := by
    have hconfigured : (config.phonemeType = some .hebrew → config.hebrewModelPath ≠ none) ∧
        (config.phonemeType = some .pinyin → config.pinyinModelDir ≠ none) := by
      rcases List.mem_append.mp h with hhebrew | hpinyin
      · obtain ⟨-, htype, hpath⟩ := mem_inUse_iff.mp hhebrew
        simp [htype, hpath]
      · obtain ⟨-, htype, hdir⟩ := mem_inUse_iff.mp hpinyin
        simp [htype, hdir]
    obtain ⟨tashkeelEngine, htashkeel⟩ :
        ∃ created, (createTashkeelEngine features .complete config).result = .ok created :=
      result_createTashkeelEngine
    obtain ⟨hebrewEngine, hhebrew⟩ :
        ∃ created, (createHebrewEngine features .complete file config).result = .ok created :=
      result_createEngine (fun _ => rfl) hconfigured.1
    obtain ⟨pinyinEngine, hpinyin⟩ :
        ∃ created, (createPinyinEngine features .complete file config).result = .ok created :=
      result_createEngine (fun _ => rfl) hconfigured.2
    rw [createEngines, bind_of_ok htashkeel, bind_of_ok hhebrew, bind_of_ok hpinyin]
    exact ⟨⟨tashkeelEngine, hebrewEngine, pinyinEngine⟩, rfl⟩
  rw [fromConfigPath]
  split
  · exact hengines
  · split
    · exact hengines
    · next hstem =>
        rw [Path.fileStem, ConfigFile.path, file.named] at hstem
        cases hstem

end Piper

namespace Melo

variable {config : RawMeloVoiceConfig}

theorem emits_fromConfigPath (h : StaysInside features cwd file (.melo config)) :
    Emits (InOwnDir cwd file) (fromConfigPath features host file config) := by
  refine Emits.bind (emits_ofExcept _) fun modelPath hmodel => ?_
  have hbackend : Emits (InOwnDir cwd file) (createBackend features host config.phonemizer) := by
    cases hphonemizer : config.phonemizer with
    | espeak voice => exact emits_pure _
    | pinyin modelDir =>
        rw [createBackend, createPinyinBackend]
        split
        · next hpinyin =>
            exact emits_createPinyinEngine (h modelDir modelPath hphonemizer hpinyin hmodel).2
        · exact emits_ofExcept _
  exact hbackend.bind fun _ _ => emits_openNamed (ConfigPath.inside_of_resolveWithin cwd hmodel)

/-- With every file at hand, loading goes through wherever the g2pW model is. -/
theorem result_fromConfigPath {modelDir : String} {modelPath : Path}
    (hphonemizer : config.phonemizer = .pinyin modelDir) (hpinyin : features.pinyin)
    (hmodel : loadConfig file config = .ok modelPath) :
    (fromConfigPath features .complete file config).result = .ok () := by
  have hbackend : (createBackend features .complete config.phonemizer).result = .ok () := by
    rw [hphonemizer, createBackend, createPinyinBackend, if_pos hpinyin]
    rfl
  rw [fromConfigPath, bind_of_ok hmodel, bind_of_ok hbackend]
  rfl

theorem fails_of_leaves (h : StaysInside features cwd file (.melo config)) {value : String}
    (hvalue : value ∈ (VoiceConfig.melo config).pathStrings features)
    (hleaves : Leaves cwd file.dir value) :
    (fromConfigPath features host file config).Fails := by
  refine fails_bind fun modelPath hmodel => ?_
  cases hphonemizer : config.phonemizer with
  | espeak voice =>
      simp only [VoiceConfig.pathStrings, hphonemizer, List.mem_singleton] at hvalue
      subst hvalue
      exact absurd hleaves (ConfigPath.not_leaves_of_resolveWithin cwd hmodel)
  | pinyin modelDir =>
      simp only [VoiceConfig.pathStrings, hphonemizer, List.mem_pair] at hvalue
      rcases hvalue with rfl | rfl
      · exact absurd hleaves (ConfigPath.not_leaves_of_resolveWithin cwd hmodel)
      · apply Traced.Fails.bind
        rw [createBackend, createPinyinBackend]
        split
        · next hpinyin =>
            exact absurd hleaves (h _ modelPath hphonemizer hpinyin hmodel).1
        · exact ⟨_, rfl⟩

end Melo

namespace Kokoro

variable {raw : RawKokoroVoiceConfig}

theorem new_of_isPlainFileStem {voiceName : String} (h : isPlainFileStem voiceName) :
    Path.new voiceName = ⟨[.normal voiceName]⟩ := by
  rw [isPlainFileStem] at h
  split at h
  · next name hcomponents =>
      have hname : name = voiceName := by simpa using h
      rw [hname] at hcomponents
      exact congrArg Path.mk hcomponents
  · cases h

/-- With its extension a plain name is a plain name. -/
theorem new_append_of_isPlainFileStem {voiceName : String} (h : isPlainFileStem voiceName) :
    Path.new (voiceName ++ ".bin") = ⟨[.normal (voiceName ++ ".bin")]⟩ := by
  have hmem : .normal voiceName ∈ (Path.new voiceName).components := by
    rw [new_of_isPlainFileStem h]
    exact List.mem_singleton_self _
  have hslash : '/' ∉ voiceName.toList := Path.slash_notMem_of_mem_new hmem
  have htoList : (voiceName ++ ".bin").toList = voiceName.toList ++ ['.', 'b', 'i', 'n'] := by
    rw [String.toList_append]
    rfl
  have hlength : 4 ≤ (voiceName ++ ".bin").toList.length := by
    rw [htoList, List.length_append]
    exact Nat.le_add_left 4 _
  apply Path.new_of_slash_notMem
  · rw [htoList]
    simpa using hslash
  · intro hempty
    rw [hempty] at hlength
    contradiction
  · intro hdot
    rw [hdot] at hlength
    contradiction
  · intro hdots
    rw [hdots] at hlength
    contradiction

theorem not_leaves_of_isPlainFileStem {voiceName : String} (h : isPlainFileStem voiceName) :
    ¬ Leaves cwd file.dir voiceName := by
  apply not_leaves
  rw [new_of_isPlainFileStem h]
  exact descends_normal voiceName

/-- What an accepted config makes of its strings. -/
theorem loadConfig_eq_ok {config : KokoroVoiceConfig} (h : loadConfig file raw = .ok config) :
    ConfigPath.resolveWithin file.dir "model_path" raw.modelPath = .ok config.modelPath ∧
      ConfigPath.resolveWithin file.dir "voices_dir" raw.voicesDir = .ok config.voicesDir ∧
      ConfigPath.resolveWithin file.dir "vocab_path" raw.vocabPath = .ok config.vocabPath ∧
      config.voices = raw.voices := by
  rw [loadConfig] at h
  split at h
  · cases h
  · obtain ⟨modelPath, hmodel, h⟩ := exists_of_bind_eq_ok h
    obtain ⟨voicesDir, hvoices, h⟩ := exists_of_bind_eq_ok h
    obtain ⟨vocabPath, hvocab, h⟩ := exists_of_bind_eq_ok h
    cases h
    exact ⟨hmodel, hvoices, hvocab, rfl⟩

theorem emits_loadVoiceStyle {voicesDir : Path} (voiceName : String)
    (h : Inside cwd file.dir voicesDir) :
    Emits (InOwnDir cwd file) (loadVoiceStyle host voicesDir voiceName) := by
  rw [loadVoiceStyle]
  split
  · next hplain =>
      apply emits_openNamed
      apply h.trans
      apply inside_join
      rw [new_append_of_isPlainFileStem hplain]
      exact descends_normal _
  · exact emits_ofExcept _

theorem emits_fromConfigPath :
    Emits (InOwnDir cwd file) (fromConfigPath features host file raw) := by
  refine Emits.bind (emits_ofExcept _) fun config hconfig => ?_
  obtain ⟨hmodel, hvoices, hvocab, -⟩ := loadConfig_eq_ok hconfig
  have hstyles : Emits (InOwnDir cwd file) (loadVoiceStyles host config.voicesDir config.voices) :=
    emits_forM fun voiceName _ =>
      emits_loadVoiceStyle voiceName (ConfigPath.inside_of_resolveWithin cwd hvoices)
  refine (emits_openNamed (ConfigPath.inside_of_resolveWithin cwd hmodel)).bind fun _ _ => ?_
  refine (emits_openNamed (ConfigPath.inside_of_resolveWithin cwd hvocab)).bind fun _ _ => ?_
  refine hstyles.bind fun _ _ => ?_
  split
  · exact emits_ofExcept _
  · split
    · exact emits_ofExcept _
    · exact emits_pure _

theorem fails_of_leaves {value : String}
    (hvalue : value ∈ (VoiceConfig.kokoro raw).pathStrings features)
    (hleaves : Leaves cwd file.dir value) : (fromConfigPath features host file raw).Fails := by
  refine fails_bind fun config hconfig => ?_
  obtain ⟨hmodel, hvoices, hvocab, heq⟩ := loadConfig_eq_ok hconfig
  simp only [VoiceConfig.pathStrings, List.mem_cons] at hvalue
  rcases hvalue with rfl | rfl | rfl | hname
  · exact absurd hleaves (ConfigPath.not_leaves_of_resolveWithin cwd hmodel)
  · exact absurd hleaves (ConfigPath.not_leaves_of_resolveWithin cwd hvoices)
  · exact absurd hleaves (ConfigPath.not_leaves_of_resolveWithin cwd hvocab)
  · refine fails_bind fun _ _ => fails_bind fun _ _ => ?_
    apply Traced.Fails.bind
    rw [← heq] at hname
    apply fails_forM hname
    rw [loadVoiceStyle, if_neg fun hplain => not_leaves_of_isPlainFileStem hplain hleaves]
    exact ⟨_, rfl⟩

end Kokoro

theorem StaysInside.confined {config : VoiceConfig} (h : StaysInside features cwd file config)
    (host : Host) : Confined features cwd host file config := by
  cases config with
  | piper config =>
      refine ⟨(Piper.emits_fromConfigPath h).bind fun _ _ => emits_pure _, ?_⟩
      exact fun value hmem hleaves => absurd hleaves (h value hmem)
  | melo config => exact ⟨Melo.emits_fromConfigPath h, fun _ => Melo.fails_of_leaves h⟩
  | kokoro raw => exact ⟨Kokoro.emits_fromConfigPath, fun _ => Kokoro.fails_of_leaves⟩

/-- A host that has every file shows the strings that nothing refuses. -/
theorem Confined.staysInside {config : VoiceConfig}
    (h : Confined features cwd .complete file config) : StaysInside features cwd file config := by
  cases config with
  | piper config =>
      intro value hmem hleaves
      obtain ⟨error, herror⟩ := h.refuses value hmem hleaves
      obtain ⟨engines, hengines⟩ := Piper.result_fromConfigPath hmem
      rw [loadVoice, bind_of_ok hengines] at herror
      cases herror
  | melo config =>
      intro modelDir modelPath hphonemizer hpinyin hmodel
      constructor
      · intro hleaves
        have hmem : modelDir ∈ (VoiceConfig.melo config).pathStrings features := by
          simp [VoiceConfig.pathStrings, hphonemizer]
        obtain ⟨error, herror⟩ := h.refuses modelDir hmem hleaves
        cases (Melo.result_fromConfigPath hphonemizer hpinyin hmodel).symm.trans herror
      · have hbackend := (h.inOwnDir.second hmodel).first
        rw [hphonemizer, Melo.createBackend, Melo.createPinyinBackend, if_pos hpinyin] at hbackend
        exact inside_of_emits_createPinyinEngine hbackend
  | kokoro raw => trivial

end Confinement

/-- Loading a config keeps to the config file's own directory on every host exactly when the
strings that no check looks at do: Kokoro's never matter, Piper's Hebrew and pinyin paths must
be relative and stay inside, and so must MeloTTS's g2pW directory, seen from the config and from
the current directory. -/
theorem config_paths_confined_iff (features : Features) (cwd : List String) (file : ConfigFile)
    (config : VoiceConfig) :
    (∀ host, Confined features cwd host file config) ↔ StaysInside features cwd file config := by
  constructor
  · intro h
    exact (h .complete).staysInside
  · intro h host
    exact h.confined host

/-- A Hebrew voice whose config asks for a model two directories up. -/
def climbingFile : ConfigFile := ⟨"/voices/he/config.json", "config.json", by decide⟩

/-- A configuration whose Hebrew model lies above its directory. -/
def climbingConfig : VoiceConfig :=
  .piper ⟨none, "he", some .hebrew, some "../../etc/nakdimon.onnx", none⟩

theorem climbingConfig_not_confined :
    ¬ Confined ⟨true, true, true, true⟩ ["srv"] .complete climbingFile climbingConfig := by
  intro h
  have hinside : Inside ["srv"] climbingFile.dir ⟨
      [.rootDir, .normal "voices", .normal "he", .parentDir, .parentDir, .normal "etc",
        .normal "nakdimon.onnx"]⟩ :=
    h.inOwnDir ⟨.configString, _⟩ (by decide) rfl
  exact absurd hinside (by decide)

end Dengjen.Loading

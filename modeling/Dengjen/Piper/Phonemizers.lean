import Dengjen.Backends.Loading
import Dengjen.Espeak.Phonemize
import Dengjen.Pinyin.Resolution
import Dengjen.Pinyin.Syllables
import Dengjen.Hebrew.Engine

/-!
# The phonemizers of a Piper voice

A voice is loaded with the engines that its config asks for, as far as the build has
them. Its texts are phonemized later, by the one phonemizer that the config names.
Each of the engines is optional in the code of the voice, and a text for which one is
missing has an error of its own, or a panic.

## Implementation notes

The engines are those that loading has created. What an engine that was created from a
path answers is a parameter, and so are eSpeak-ng and the diacritizer of Arabic.
-/

namespace Dengjen.Piper.Phonemizers

open Loading (Build ConfigFile)
open Loading.Piper (Engines PhonemeType shouldDiacritize resolveHebrewModelPath
  resolvePinyinModelDir)

/-- The phonemizers, and what the engine of a path is. -/
structure Host where
  nakdimonEngine : Path → OrtSession (List Nat)
  pinyinEngine : Path → Pinyin.PinyinEngine
  doTashkeel : String → Except String String
  textToPhonemes : String → String → Espeak.ESpeakResult (List String)
  unicode : Hebrew.Unicode
  tables : Pinyin.CharTables

section Phonemizers

variable (build : Build) (host : Host) (file : ConfigFile) (config : Loading.Piper.ModelConfig)

/-! ## Phonemizing -/

/-- `text_to_hebrew_phonemes` on the text of a voice. -/
def hebrewPhonemes (engine : OrtSession (List Nat)) (text : String) : DengjenResult (List String) :=
  (Hebrew.textToHebrewPhonemes host.unicode engine text.toList).map fun sentences =>
    sentences.map String.ofList

/-- `text_to_pinyin_phonemes` on the text of a voice. -/
def pinyinPhonemes (engine : Pinyin.PinyinEngine) (text : String) : DengjenResult (List String) :=
  engine.textToPinyinPhonemes host.tables text.toList

/-- eSpeak-ng in the voice of the config, with the error of the model for its own. -/
def espeakPhonemes (source : String) : DengjenResult (List String) :=
  (host.textToPhonemes source config.espeakVoice).mapError fun e =>
    .phonemizationError
      s!"Failed to phonemize given text using espeak-ng. Error: eSpeak-ng Error :{e}"

variable (engines : Engines) (text : String)

/-- The phonemizers other than eSpeak-ng, which gets what is left to it. -/
def phonemizeDispatch : PhonemeType → Option (DengjenResult (List String))
  | .espeak => none
  | .text => some (.ok [text])
  | .hebrew => some (
      if build.hebrew then
        match engines.hebrewEngine with
        | some path => hebrewPhonemes host (host.nakdimonEngine path) text
        | none => .error (.phonemizationError
            "This voice's phoneme_type is `hebrew` but no Hebrew engine was initialized")
      else .error (.phonemizationError
        "Phonemization for phoneme_type `Hebrew` requires the `hebrew` feature"))
  | .pinyin => some (
      if build.pinyin then
        match engines.pinyinEngine with
        | some path => pinyinPhonemes host (host.pinyinEngine path) text
        | none => .error (.phonemizationError
            "This voice's phoneme_type is `pinyin` but no pinyin engine was initialized")
      else .error (.phonemizationError
        "Phonemization for phoneme_type `Pinyin` requires the `pinyin` feature"))

/-- `do_tashkeel`, with the error of the model for its own. -/
def tashkeelText : DengjenResult String :=
  (host.doTashkeel text).mapError fun msg =>
    .inferenceError s!"Failed to diacritize text using libtashkeel. {msg}"

/-- In a build without libtashkeel nobody may call this. -/
def diacritizeText : Outcome (DengjenResult String) :=
  if build.tashkeel then
    match engines.tashkeelEngine with
    | some () => .returned (tashkeelText host text)
    | none => .returned (.error (.phonemizationError
        "tashkeel engine missing for a voice that needs diacritization"))
  else .panicked ("internal error: entered unreachable code: " ++
    "diacritize_text called with the `tashkeel` feature disabled")

/-- A text with the config's phonemizer, or with eSpeak-ng where the build has it. -/
def doPhonemizeText : Outcome (DengjenResult (List String)) :=
  let dispatched := phonemizeDispatch build host engines text (config.phonemeType.getD .espeak)
  if build.espeak then
    match dispatched with
    | some handled => .returned handled
    | none =>
        if shouldDiacritize build.toFeatures config.espeakVoice then
          match diacritizeText build host engines text with
          | .panicked message => .panicked message
          | .returned source => .returned (source >>= espeakPhonemes host config)
        else .returned (espeakPhonemes host config text)
  else .returned (dispatched.getD (.error (.phonemizationError
    ("This voice requires espeak-based phonemization, but the `espeak` feature " ++
      "(GPL-3.0-or-later, via espeak-ng) is disabled"))))

/-! ## What a text is phonemized by -/

/-- The build has the phonemizer of the type. -/
def supports : PhonemeType → Bool
  | .espeak => build.espeak
  | .text => true
  | .hebrew => build.hebrew
  | .pinyin => build.pinyin

/-- The one phonemizer that the config names, with the engine that was created for it. -/
inductive PhonemizedBy : DengjenResult (List String) → Prop
  | text (h : config.phonemeType = some .text) : PhonemizedBy (.ok [text])
  | hebrew {modelPath} (h : config.phonemeType = some .hebrew)
      (hpath : config.hebrewModelPath = some modelPath) :
      PhonemizedBy (hebrewPhonemes host
        (host.nakdimonEngine (resolveHebrewModelPath file.path (.new modelPath))) text)
  | pinyin {modelDir} (h : config.phonemeType = some .pinyin)
      (hdir : config.pinyinModelDir = some modelDir) :
      PhonemizedBy (pinyinPhonemes host
        (host.pinyinEngine (resolvePinyinModelDir file.path (.new modelDir))) text)
  | espeak (h : config.phonemeType.getD .espeak = .espeak)
      (hplain : shouldDiacritize build.toFeatures config.espeakVoice = false) :
      PhonemizedBy (espeakPhonemes host config text)
  | diacritized (h : config.phonemeType.getD .espeak = .espeak) (hvoice : config.espeakVoice = "ar") :
      PhonemizedBy (tashkeelText host text >>= espeakPhonemes host config)
  | unsupported {message}
      (h : supports build (config.phonemeType.getD .espeak) = false) :
      PhonemizedBy (.error (.phonemizationError message))

variable {build host file config engines text} {loading : Loading.Host}

/-! ## What a voice was loaded with -/

/-- An engine that is asked for is created from what the config names. -/
theorem exists_of_createEngine {feature : Bool} {phonemeType : PhonemeType}
    {configured : Option String} {missing : String} {resolve : Path → Path}
    {create : Path → Traced Loading.Opened DengjenError Unit} {created : Option Path}
    (h : (Loading.Piper.createEngine config feature phonemeType configured missing resolve
      create).result = .ok created)
    (hfeature : feature = true) (htype : config.phonemeType = some phonemeType) :
    ∃ value, configured = some value ∧ created = some (resolve (.new value)) := by
  have hwanted : (!feature || config.phonemeType != some phonemeType) = false := by
    rw [hfeature, htype]
    simp
  cases configured with
  | none =>
      rw [Loading.Piper.createEngine, hwanted, if_neg Bool.false_ne_true] at h
      cases h
  | some value =>
      rw [Loading.Piper.createEngine, hwanted, if_neg Bool.false_ne_true] at h
      obtain ⟨_, -, h⟩ := Traced.exists_of_bind_result h
      cases h
      exact ⟨value, rfl, rfl⟩

theorem tashkeelEngine_of_createTashkeelEngine {created : Option Unit}
    (h : (Loading.Piper.createTashkeelEngine build.toFeatures loading config).result = .ok created)
    (hvoice : shouldDiacritize build.toFeatures config.espeakVoice = true) :
    created = some () := by
  rw [Loading.Piper.createTashkeelEngine, if_pos hvoice, Traced.ofExcept] at h
  cases hcreate : loading.tashkeelEngine with
  | error error =>
      rw [hcreate] at h
      cases h
  | ok engine =>
      rw [hcreate] at h
      cases h
      rfl

/-- A voice has the three engines that loading has created. -/
theorem engines_of_fromConfigPath
    (h : (Loading.Piper.fromConfigPath build.toFeatures loading file config).result =
      .ok engines) :
    (Loading.Piper.createEngines build.toFeatures loading file config).result = .ok engines := by
  rw [Loading.Piper.fromConfigPath] at h
  split at h
  · obtain ⟨_, -, h⟩ := Traced.exists_of_bind_result h
    obtain ⟨_, -, h⟩ := Traced.exists_of_bind_result h
    exact h
  · split at h
    · obtain ⟨_, -, h⟩ := Traced.exists_of_bind_result h
      exact h
    · cases h

theorem parts_of_createEngines
    (h : (Loading.Piper.createEngines build.toFeatures loading file config).result =
      .ok engines) :
    (Loading.Piper.createTashkeelEngine build.toFeatures loading config).result =
        .ok engines.tashkeelEngine ∧
      (Loading.Piper.createHebrewEngine build.toFeatures loading file config).result =
        .ok engines.hebrewEngine ∧
      (Loading.Piper.createPinyinEngine build.toFeatures loading file config).result =
        .ok engines.pinyinEngine := by
  obtain ⟨tashkeelEngine, htashkeel, h⟩ := Traced.exists_of_bind_result h
  obtain ⟨hebrewEngine, hhebrew, h⟩ := Traced.exists_of_bind_result h
  obtain ⟨pinyinEngine, hpinyin, h⟩ := Traced.exists_of_bind_result h
  cases h
  exact ⟨htashkeel, hhebrew, hpinyin⟩

/-! ## No engine is missing -/

theorem phonemeType_eq_some {phonemeType : PhonemeType}
    (h : config.phonemeType.getD .espeak = phonemeType) (hne : phonemeType ≠ .espeak) :
    config.phonemeType = some phonemeType := by
  cases hconfig : config.phonemeType with
  | none =>
      rw [hconfig] at h
      exact absurd h.symm hne
  | some phonemeType' =>
      rw [hconfig] at h
      exact congrArg some h

theorem phonemizedBy_of_not_supports {phonemeType : PhonemeType} {message : String}
    (h : config.phonemeType.getD .espeak = phonemeType) (hbuild : ¬supports build phonemeType) :
    PhonemizedBy build host file config text (.error (.phonemizationError message)) := by
  refine .unsupported ?_
  rw [h]
  exact Bool.eq_false_iff.mpr hbuild

/-- What is dispatched has the engine it needs. -/
theorem phonemizedBy_dispatch
    (h : (Loading.Piper.createEngines build.toFeatures loading file config).result =
      .ok engines)
    {handled : DengjenResult (List String)}
    (hhandled : phonemizeDispatch build host engines text (config.phonemeType.getD .espeak) =
      some handled) : PhonemizedBy build host file config text handled := by
  obtain ⟨-, hhebrew, hpinyin⟩ := parts_of_createEngines h
  cases hgetD : config.phonemeType.getD .espeak with
  | espeak =>
      rw [hgetD] at hhandled
      cases hhandled
  | text =>
      rw [hgetD] at hhandled
      cases hhandled
      exact .text (phonemeType_eq_some hgetD (by decide))
  | hebrew =>
      have htype := phonemeType_eq_some hgetD (by decide)
      rw [hgetD, phonemizeDispatch] at hhandled
      obtain rfl := Option.some.inj hhandled
      split
      · next hbuild =>
          obtain ⟨modelPath, hpath, hcreated⟩ := exists_of_createEngine hhebrew hbuild htype
          rw [hcreated]
          exact .hebrew htype hpath
      · next hbuild => exact phonemizedBy_of_not_supports hgetD hbuild
  | pinyin =>
      have htype := phonemeType_eq_some hgetD (by decide)
      rw [hgetD, phonemizeDispatch] at hhandled
      obtain rfl := Option.some.inj hhandled
      split
      · next hbuild =>
          obtain ⟨modelDir, hdir, hcreated⟩ := exists_of_createEngine hpinyin hbuild htype
          rw [hcreated]
          exact .pinyin htype hdir
      · next hbuild => exact phonemizedBy_of_not_supports hgetD hbuild

theorem phonemeType_of_dispatch {phonemeType : PhonemeType}
    (h : phonemizeDispatch build host engines text phonemeType = none) : phonemeType = .espeak := by
  cases phonemeType with
  | espeak => rfl
  | text | hebrew | pinyin => cases h

end Phonemizers

/-- A host with a diacritizer that adds nothing. -/
def arabicHost : Host where
  nakdimonEngine _ := Hebrew.lastClassSession
  pinyinEngine _ := Pinyin.xingEngine
  doTashkeel text := .ok text
  textToPhonemes text _ := .ok [text]
  unicode := Hebrew.Unicode.hebrew
  tables := .dottedI

/-- The configuration of an Arabic voice. -/
def arabicFile : ConfigFile := ⟨"voices/ar.onnx.json", "ar.onnx.json", by decide⟩

end Dengjen.Piper.Phonemizers

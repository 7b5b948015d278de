import Dengjen.Core.ConfinedPath
import Dengjen.Core.Integers
import Dengjen.Core.Model
import Dengjen.Core.Texts
import Dengjen.General.Layouts
import Dengjen.General.Traced

/-!
# The recognizer

`libdengjenSttLoad` checks the hash of a model file before it hands the file to the
engine, and `libdengjenSttRecognize` checks a recording: the engine aborts the process
on a corrupt model and on a recording that is too short for it.

## Implementation notes

The trace has what the engine is asked. The files may change between two looks at
them, so each look is an answer of its own. A C string is null, not UTF-8, or a text;
a `SttConfig` is the bytes of the caller's struct.
-/

namespace Dengjen.Stt

open Layouts Traced

/-! ## The library -/

/-- The file of the model in its directory. -/
def modelFile : String := "model.int8.onnx"
/-- The file of the tokens in the same directory. -/
def tokensFile : String := "tokens.txt"
/-- The rate of the samples that the model reads. -/
def modelRate : Int := 16000
/-- The least number of samples that the engine takes, at the rate of the model. -/
def minModelSamples : Int := 400

/-- What the library refuses, and what of the engine fails. -/
inductive SttError
  | missingModelFile (path : Path)
  | modelLoad (dir : Path)
  | unreadable (path : Path)
  | checksumMismatch (path : Path)
  | invalidAudio (reason : String)
  | decode
  deriving DecidableEq

/-- The text of a failure. -/
def SttError.message (display : Path → String) : SttError → String
  | missingModelFile path => s!"model file not found: {display path}"
  | modelLoad dir => s!"failed to load the model in {display dir}"
  | unreadable path => s!"cannot read {display path}"
  | checksumMismatch path => s!"checksum mismatch for {display path}"
  | invalidAudio reason => s!"invalid audio: {reason}"
  | decode => "recognition produced no result"

/-- What a caller may choose about the engine. -/
structure RecognizerConfig where
  numThreads : Int32

/-- What the engine is asked. -/
inductive Asked
  | create (model tokens : Path) (numThreads : Int32)
  | decode (sampleRate : Int32) (samples : List F32)

/-- The files, the hash and the engine. -/
structure Host (Engine : Type) where
  display : Path → String
  isFile : Path → Bool
  contents : Path → Option (List UInt8)
  sha256 : List UInt8 → List UInt8
  create : Path → Path → Int32 → Option Engine
  decode : Engine → Int32 → List F32 → Option String

section Library

variable {Engine : Type} (host : Host Engine)

/-- The path of a file that must be there. -/
def requireFile (dir : Path) (name : String) : Except SttError Path :=
  let path := dir.join (.new name)
  if host.isFile path then .ok path else .error (.missingModelFile path)

/-- The checks of a recording: its length fits, and it lasts 25 ms at least. -/
def validateLen (len : Nat) (sampleRate : Int32) : Except SttError Unit :=
  if i32Max < len then .error (.invalidAudio "too many samples")
  else if len = 0 then .error (.invalidAudio "no samples")
  else if sampleRate.toInt ≤ 0 then .error (.invalidAudio "sample rate must be positive")
  else if ((len : Int) * modelRate).tdiv sampleRate.toInt < minModelSamples then
    .error (.invalidAudio "shorter than 25 ms")
  else .ok ()

/-- Two texts that differ in nothing but the case of ASCII letters. -/
def eqIgnoreAsciiCase (text text' : List Char) : Bool :=
  text.map Char.toLower = text'.map Char.toLower

/-- The text is the hash of the content, in any case and with blanks around it. -/
def spellsHash (expectedSha256 : String) (content : List UInt8) : Bool :=
  eqIgnoreAsciiCase (hex (host.sha256 content)).toList (trim expectedSha256.toList)

/-- The model file has the hash that the caller expects. -/
def verifyModel (modelDir : Path) (expectedSha256 : String) : Except SttError Unit :=
  let path := modelDir.join (.new modelFile)
  match host.contents path with
  | none => .error (.unreadable path)
  | some content =>
      if spellsHash host expectedSha256 content then .ok () else .error (.checksumMismatch path)

/-- Creates the engine, where both files are there. -/
def Recognizer.new (modelDir : Path) (config : RecognizerConfig) :
    Traced Asked SttError Engine := do
  let model ← ofExcept (requireFile host modelDir modelFile)
  let tokens ← ofExcept (requireFile host modelDir tokensFile)
  emit (.create model tokens config.numThreads)
    ((host.create model tokens config.numThreads).elim (.error (.modelLoad modelDir)) .ok)

/-- Decodes a recording that passes the checks. -/
def recognize (engine : Engine) (samples : List F32) (sampleRate : Int32) :
    Traced Asked SttError String := do
  ofExcept (validateLen samples.length sampleRate)
  emit (.decode sampleRate samples)
    ((host.decode engine sampleRate samples).elim (.error .decode) .ok)

end Library

/-! ## The C API -/

namespace ErrorCodes

/-- The code of a string that is not UTF-8. -/
def invalidUtf8Sequence : Int := 20
/-- The code of an argument that is null. -/
def nullPointer : Int := 22
/-- The code of a configuration that is too small. -/
def invalidConfiguration : Int := 24
/-- The code of a model file that is not there. -/
def missingModelFile : Int := 40
/-- The code of a model file that cannot be read. -/
def unreadableModelFile : Int := 41
/-- The code of a model file with another hash. -/
def checksumMismatch : Int := 42
/-- The code of an engine that cannot be created. -/
def modelLoadFailed : Int := 43
/-- The code of a recording that does not pass the checks. -/
def invalidAudio : Int := 44
/-- The code of a recording that the engine does not recognize. -/
def decodeFailed : Int := 45

end ErrorCodes

/-- An error as the C API hands it out. -/
structure SttFFIError where
  code : Int
  message : String
  deriving DecidableEq

namespace SttFFIError

/-- The error of an argument that must not be null. -/
def nullPointer (paramName : String) : SttFFIError :=
  ⟨ErrorCodes.nullPointer, s!"parameter `{paramName}` must not be null"⟩

/-- The code of a failure of the library. -/
def codeOf : SttError → Int
  | .missingModelFile _ => ErrorCodes.missingModelFile
  | .unreadable _ => ErrorCodes.unreadableModelFile
  | .checksumMismatch _ => ErrorCodes.checksumMismatch
  | .modelLoad _ => ErrorCodes.modelLoadFailed
  | .invalidAudio _ => ErrorCodes.invalidAudio
  | .decode => ErrorCodes.decodeFailed

/-- `impl From<SttError> for SttFFIError` -/
def ofSttError (display : Path → String) (error : SttError) : SttFFIError :=
  ⟨codeOf error, error.message display⟩

end SttFFIError

/-- What a `const char *` points to. -/
inductive CString
  | null
  | notUtf8
  | text (text : String)

/-- The text of an argument that must be a string. -/
def requiredStr (paramName : String) : CString → Except SttFFIError String
  | .null => .error (.nullPointer paramName)
  | .notUtf8 =>
      .error ⟨ErrorCodes.invalidUtf8Sequence, s!"parameter `{paramName}` is not valid UTF-8"⟩
  | .text text => .ok text

/-- The size of the configuration in its first version. -/
def sttConfigV1Size : Nat := 8
/-- The number of threads where the caller does not choose. -/
def defaultNumThreads : Int32 := 2

/-- The configuration of a caller, as far as its declared size goes. -/
def readConfig : Option (List UInt8) → Except SttFFIError RecognizerConfig
  | none => .ok ⟨defaultNumThreads⟩
  | some image =>
      let declared := ofLeBytes (image.take 4)
      if declared < sttConfigV1Size then
        .error ⟨ErrorCodes.invalidConfiguration,
          s!"config.struct_size is {declared}, but at least {sttConfigV1Size} bytes are " ++
            "required; set it to sizeof(SttConfig)"⟩
      else
        let numThreads := (UInt32.ofNat (ofLeBytes ((image.drop 4).take 4))).toInt32
        if numThreads.toInt < 1 then
          .error ⟨ErrorCodes.invalidConfiguration,
            s!"config.num_threads is {numThreads.toInt}, but it must be at least 1"⟩
        else .ok ⟨numThreads⟩

section CApi

variable {Engine : Type} (host : Host Engine)

/-- The conversion that `?` makes. -/
def raised {α : Type} (program : Traced Asked SttError α) : Traced Asked SttFFIError α :=
  ⟨program.trace, program.result.mapError (.ofSttError host.display)⟩

/-- `libdengjenSttLoad`: the arguments are checked, then the model file, then the engine is
created. -/
def load (modelDir : CString) (config : Option (List UInt8)) (expectedSha256 : CString) :
    Traced Asked SttFFIError Engine := do
  let modelDir ← ofExcept (requiredStr "model_dir" modelDir)
  let expectedSha256 ← ofExcept (requiredStr "expected_sha256" expectedSha256)
  let config ← ofExcept (readConfig config)
  raised host (ofExcept (verifyModel host (.new modelDir) expectedSha256))
  raised host (Recognizer.new host (.new modelDir) config)

/-- The slice of the caller's memory. -/
def readSamples (samples : Option (List F32)) (len : Nat) : Except SttFFIError (List F32) :=
  if len = 0 then .ok []
  else
    match samples with
    | none => .error (.nullPointer "samples")
    | some memory => .ok (memory.take len)

/-- `libdengjenSttRecognize`: a recording is checked and then decoded. -/
def libdengjenSttRecognize (recognizer : Option Engine) (samples : Option (List F32)) (len : Nat)
    (sampleRate : Int32) : Traced Asked SttFFIError String :=
  match recognizer with
  | none => ofExcept (.error (.nullPointer "recognizer"))
  | some engine => do
      let samples ← ofExcept (readSamples samples len)
      raised host (recognize host engine samples sampleRate)

end CApi

/-! ## Recordings -/

/-- A recording of at least 25 ms, of a length that the engine can count. -/
structure Recorded (len : Nat) (sampleRate : Int32) : Prop where
  countable : len ≤ i32Max
  rate : 0 < sampleRate.toInt
  long : sampleRate.toInt ≤ 40 * len

theorem tdiv_lt_minModelSamples_iff {len : Nat} {rate : Int} (h : 0 < rate) :
    ((len : Int) * modelRate).tdiv rate < minModelSamples ↔ 40 * (len : Int) < rate := by
  have hnonneg : 0 ≤ (len : Int) * modelRate := by
    rw [modelRate]
    omega
  rw [Int.tdiv_eq_ediv_of_nonneg hnonneg, Int.ediv_lt_iff_lt_mul h, modelRate, minModelSamples]
  omega

/-- A recording is refused if it is not one that the engine takes. -/
theorem validateLen_cases (len : Nat) (sampleRate : Int32) :
    (validateLen len sampleRate = .ok () ∧ Recorded len sampleRate) ∨
      ∃ reason, validateLen len sampleRate = .error (.invalidAudio reason) ∧
        ¬ Recorded len sampleRate := by
  rw [validateLen]
  split
  · next hlen => exact .inr ⟨_, rfl, fun h => Nat.not_lt.mpr h.countable hlen⟩
  · next hlen =>
      split
      · next hempty =>
          refine .inr ⟨_, rfl, fun h => ?_⟩
          have hrate := h.rate
          have hlong := h.long
          omega
      · split
        · next hrate => exact .inr ⟨_, rfl, fun h => Int.not_le.mpr h.rate hrate⟩
        · next hrate =>
            have hpositive := Int.not_le.mp hrate
            split
            · next hshort =>
                have hlt := (tdiv_lt_minModelSamples_iff hpositive).mp hshort
                exact .inr ⟨_, rfl, fun h => Int.not_le.mpr hlt h.long⟩
            · next hlong =>
                have hle := Int.not_lt.mp (mt (tdiv_lt_minModelSamples_iff hpositive).mpr hlong)
                exact .inl ⟨rfl, Nat.le_of_not_lt hlen, hpositive, hle⟩

example : validateLen 399 16000 = .error (.invalidAudio "shorter than 25 ms") := by decide

/-! ## Calls -/

section Calls

variable {Engine : Type} (host : Host Engine)

/-- The model file has the expected hash. -/
def Verified (modelDir : Path) (expectedSha256 : String) : Prop :=
  ∃ content, host.contents (modelDir.join (.new modelFile)) = some content ∧
    spellsHash host expectedSha256 content = true

theorem verifyModel_cases (modelDir : Path) (expectedSha256 : String) :
    (verifyModel host modelDir expectedSha256 =
        .error (.unreadable (modelDir.join (.new modelFile))) ∧
      host.contents (modelDir.join (.new modelFile)) = none) ∨
    (verifyModel host modelDir expectedSha256 =
        .error (.checksumMismatch (modelDir.join (.new modelFile))) ∧
      ∃ content, host.contents (modelDir.join (.new modelFile)) = some content ∧
        spellsHash host expectedSha256 content = false) ∨
    verifyModel host modelDir expectedSha256 = .ok () ∧ Verified host modelDir expectedSha256 := by
  rw [verifyModel]
  cases hcontent : host.contents (modelDir.join (.new modelFile)) with
  | none => exact .inl ⟨rfl, rfl⟩
  | some content =>
      cases hspells : spellsHash host expectedSha256 content with
      | false =>
          refine .inr (.inl ⟨?_, content, rfl, hspells⟩)
          simp only [hspells, Bool.false_eq_true, if_false]
      | true =>
          refine .inr (.inr ⟨?_, content, hcontent, hspells⟩)
          simp only [hspells, if_true]

/-- What comes of a load with these arguments, and what the engine is asked on the way. -/
inductive LoadCase (modelDir : CString) (config : Option (List UInt8)) (expectedSha256 : CString) :
    Traced Asked SttFFIError Engine → Prop
  | refused {error} (h : requiredStr "model_dir" modelDir = .error error ∨
      requiredStr "expected_sha256" expectedSha256 = .error error ∨
        readConfig config = .error error) :
      LoadCase modelDir config expectedSha256 ⟨[], .error error⟩
  | unreadable {dir sha256} (hdir : modelDir = .text dir) (hsha256 : expectedSha256 = .text sha256)
      (h : host.contents ((Path.new dir).join (.new modelFile)) = none) :
      LoadCase modelDir config expectedSha256 ⟨[], .error (.ofSttError host.display
        (.unreadable ((Path.new dir).join (.new modelFile))))⟩
  | mismatch {dir sha256 content} (hdir : modelDir = .text dir)
      (hsha256 : expectedSha256 = .text sha256)
      (hcontent : host.contents ((Path.new dir).join (.new modelFile)) = some content)
      (h : spellsHash host sha256 content = false) :
      LoadCase modelDir config expectedSha256 ⟨[], .error (.ofSttError host.display
        (.checksumMismatch ((Path.new dir).join (.new modelFile))))⟩
  | missing {dir sha256 name} (hdir : modelDir = .text dir)
      (hsha256 : expectedSha256 = .text sha256) (hverified : Verified host (.new dir) sha256)
      (hname : name = modelFile ∨ name = tokensFile)
      (h : host.isFile ((Path.new dir).join (.new name)) = false) :
      LoadCase modelDir config expectedSha256 ⟨[], .error (.ofSttError host.display
        (.missingModelFile ((Path.new dir).join (.new name))))⟩
  | created {dir sha256 threads} (hdir : modelDir = .text dir)
      (hsha256 : expectedSha256 = .text sha256) (hconfig : readConfig config = .ok ⟨threads⟩)
      (hverified : Verified host (.new dir) sha256)
      (htokens : host.isFile ((Path.new dir).join (.new tokensFile)) = true) :
      LoadCase modelDir config expectedSha256
        ⟨[.create ((Path.new dir).join (.new modelFile)) ((Path.new dir).join (.new tokensFile))
            threads],
          (host.create ((Path.new dir).join (.new modelFile))
            ((Path.new dir).join (.new tokensFile)) threads).elim
              (.error (.ofSttError host.display (.modelLoad (.new dir)))) .ok⟩

theorem text_of_requiredStr {paramName text : String} {argument : CString}
    (h : requiredStr paramName argument = .ok text) : argument = .text text := by
  cases argument with
  | null | notUtf8 => cases h
  | text text' =>
      cases h
      rfl

/-- The engine is made of two files that are there, unless one is missing. -/
theorem new_cases (modelDir : Path) (config : RecognizerConfig) :
    (∃ name, (name = modelFile ∨ name = tokensFile) ∧
      host.isFile (modelDir.join (.new name)) = false ∧
      Recognizer.new host modelDir config =
        ⟨[], .error (.missingModelFile (modelDir.join (.new name)))⟩) ∨
    host.isFile (modelDir.join (.new tokensFile)) = true ∧
      Recognizer.new host modelDir config =
        ⟨[.create (modelDir.join (.new modelFile)) (modelDir.join (.new tokensFile))
            config.numThreads],
          (host.create (modelDir.join (.new modelFile)) (modelDir.join (.new tokensFile))
            config.numThreads).elim (.error (.modelLoad modelDir)) .ok⟩ := by
  rw [Recognizer.new, requireFile, requireFile]
  cases hmodel : host.isFile (modelDir.join (.new modelFile)) with
  | false => exact .inl ⟨modelFile, .inl rfl, hmodel, rfl⟩
  | true =>
      cases htokens : host.isFile (modelDir.join (.new tokensFile)) with
      | false => exact .inl ⟨tokensFile, .inr rfl, htokens, rfl⟩
      | true => exact .inr ⟨rfl, rfl⟩

theorem loadCase_load (modelDir : CString) (config : Option (List UInt8))
    (expectedSha256 : CString) :
    LoadCase host modelDir config expectedSha256 (load host modelDir config expectedSha256) := by
  rw [load]
  cases hdir : requiredStr "model_dir" modelDir with
  | error error => exact .refused (.inl hdir)
  | ok dir =>
      cases hsha256 : requiredStr "expected_sha256" expectedSha256 with
      | error error => exact .refused (.inr (.inl hsha256))
      | ok sha256 =>
          cases hconfig : readConfig config with
          | error error => exact .refused (.inr (.inr hconfig))
          | ok recognizerConfig =>
              have hdir := text_of_requiredStr hdir
              have hsha256 := text_of_requiredStr hsha256
              change LoadCase host modelDir config expectedSha256
                (raised host (ofExcept (verifyModel host (.new dir) sha256)) >>= fun _ =>
                  raised host (Recognizer.new host (.new dir) recognizerConfig))
              rcases verifyModel_cases host (.new dir) sha256 with
                ⟨hverify, hcontent⟩ | ⟨hverify, content, hcontent, hspells⟩ | ⟨hverify, hverified⟩
              · rw [hverify]
                exact .unreadable hdir hsha256 hcontent
              · rw [hverify]
                exact .mismatch hdir hsha256 hcontent hspells
              · rw [hverify]
                rcases new_cases host (.new dir) recognizerConfig with
                  ⟨name, hname, hmissing, hnew⟩ | ⟨htokens, hnew⟩
                · rw [hnew]
                  exact .missing hdir hsha256 hverified hname hmissing
                · rw [hnew]
                  have hcreated := LoadCase.created hdir hsha256 hconfig hverified htokens
                  cases hcreate : host.create ((Path.new dir).join (.new modelFile))
                      ((Path.new dir).join (.new tokensFile)) recognizerConfig.numThreads with
                  | none | some engine =>
                      rw [hcreate] at hcreated
                      exact hcreated

/-- What comes of a recognition with these arguments, and what the engine is asked. -/
inductive RecognizeCase (recognizer : Option Engine) (samples : Option (List F32)) (len : Nat)
    (sampleRate : Int32) : Traced Asked SttFFIError String → Prop
  | nullRecognizer (h : recognizer = none) :
      RecognizeCase recognizer samples len sampleRate ⟨[], .error (.nullPointer "recognizer")⟩
  | nullSamples {engine} (hengine : recognizer = some engine) (h : samples = none)
      (hlen : len ≠ 0) :
      RecognizeCase recognizer samples len sampleRate ⟨[], .error (.nullPointer "samples")⟩
  | invalid {engine slice reason} (hengine : recognizer = some engine)
      (hslice : readSamples samples len = .ok slice) (h : ¬ Recorded slice.length sampleRate) :
      RecognizeCase recognizer samples len sampleRate
        ⟨[], .error (.ofSttError host.display (.invalidAudio reason))⟩
  | decoded {engine slice} (hengine : recognizer = some engine)
      (hslice : readSamples samples len = .ok slice) (h : Recorded slice.length sampleRate) :
      RecognizeCase recognizer samples len sampleRate ⟨[.decode sampleRate slice],
        (host.decode engine sampleRate slice).elim (.error (.ofSttError host.display .decode)) .ok⟩

theorem error_of_readSamples {samples : Option (List F32)} {len : Nat} {error : SttFFIError}
    (h : readSamples samples len = .error error) :
    samples = none ∧ len ≠ 0 ∧ error = .nullPointer "samples" := by
  cases samples with
  | none =>
      rw [readSamples] at h
      split at h
      · cases h
      · next hlen =>
          cases h
          exact ⟨rfl, hlen, rfl⟩
  | some memory =>
      rw [readSamples] at h
      split at h
      · cases h
      · cases h

theorem recognizeCase_recognize (recognizer : Option Engine) (samples : Option (List F32))
    (len : Nat) (sampleRate : Int32) : RecognizeCase host recognizer samples len sampleRate
      (libdengjenSttRecognize host recognizer samples len sampleRate) := by
  cases hengine : recognizer with
  | none => exact .nullRecognizer rfl
  | some engine =>
      rw [libdengjenSttRecognize]
      cases hslice : readSamples samples len with
      | error error =>
          obtain ⟨hsamples, hlen, rfl⟩ := error_of_readSamples hslice
          exact .nullSamples rfl hsamples hlen
      | ok slice =>
          change RecognizeCase host (some engine) samples len sampleRate
            (raised host (recognize host engine slice sampleRate))
          rw [recognize]
          rcases validateLen_cases slice.length sampleRate with
            ⟨hvalid, hrecorded⟩ | ⟨reason, hvalid, hrecorded⟩
          · have hdecoded : RecognizeCase host (some engine) samples len sampleRate _ :=
              .decoded rfl hslice hrecorded
            rw [hvalid]
            cases hdecode : host.decode engine sampleRate slice with
            | none | some text =>
                rw [hdecode] at hdecoded
                exact hdecoded
          · rw [hvalid]
            exact .invalid rfl hslice hrecorded

/-! ## What the documentation of the C API says -/

theorem map_toLower_hex (bytes : List UInt8) :
    (hex bytes).toList.map Char.toLower = (hex bytes).toList := by
  have hlower : hexDigits.all (fun c => c.toLower = c) = true := by decide
  have hsame : ∀ c ∈ (hex bytes).toList, c.toLower = id c := fun c hc =>
    of_decide_eq_true (List.all_eq_true.mp hlower c (mem_hexDigits hc))
  rw [List.map_congr_left hsame, List.map_id]

/-- The expected text is that of the hash, in any case. -/
theorem Verified.hash {modelDir : Path} {expectedSha256 : String}
    (h : Verified host modelDir expectedSha256) :
    ∃ content, host.contents (modelDir.join (.new modelFile)) = some content ∧
      (hex (host.sha256 content)).toList =
        (trim expectedSha256.toList).map Char.toLower := by
  obtain ⟨content, hcontent, hspells⟩ := h
  refine ⟨content, hcontent, ?_⟩
  rw [← of_decide_eq_true hspells, map_toLower_hex]

/-- The arguments themselves are refused with a code of their own. -/
theorem code_of_refused {modelDir expectedSha256 : CString} {config : Option (List UInt8)}
    {error : SttFFIError} (h : requiredStr "model_dir" modelDir = .error error ∨
      requiredStr "expected_sha256" expectedSha256 = .error error ∨
        readConfig config = .error error) : error.code < ErrorCodes.missingModelFile := by
  have hnull : ErrorCodes.nullPointer < ErrorCodes.missingModelFile := by decide
  have hutf8 : ErrorCodes.invalidUtf8Sequence < ErrorCodes.missingModelFile := by decide
  have hinvalid : ErrorCodes.invalidConfiguration < ErrorCodes.missingModelFile := by decide
  have hargument : ∀ {paramName} {argument : CString},
      requiredStr paramName argument = .error error → error.code < ErrorCodes.missingModelFile := by
    intro paramName argument hrefused
    cases argument with
    | null =>
        cases hrefused
        exact hnull
    | notUtf8 =>
        cases hrefused
        exact hutf8
    | text text => cases hrefused
  rcases h with hdir | hsha256 | hconfig
  · exact hargument hdir
  · exact hargument hsha256
  · cases config with
    | none => cases hconfig
    | some image =>
        simp only [readConfig] at hconfig
        split at hconfig
        · cases hconfig
          exact hinvalid
        · split at hconfig
          · cases hconfig
            exact hinvalid
          · cases hconfig

/-- The code of what the library reports. -/
theorem code_of_raised {α : Type} {error : SttError} {code : Int} {message : String}
    (h : (.error (.ofSttError host.display error) : Except SttFFIError α) =
      .error ⟨code, message⟩) :
    SttFFIError.codeOf error = code :=
  congrArg SttFFIError.code (Except.error.inj h)

theorem code_of_created {created : Option Engine} {dir : Path} {code : Int} {message : String}
    (h : created.elim (.error (.ofSttError host.display (.modelLoad dir))) .ok =
      (.error ⟨code, message⟩ : Except SttFFIError Engine)) :
    ErrorCodes.modelLoadFailed = code := by
  cases created with
  | none => exact code_of_raised host h
  | some engine => cases h

theorem LoadCase.verified_of_asked {modelDir config expectedSha256}
    {program : Traced Asked SttFFIError Engine}
    (hcase : LoadCase host modelDir config expectedSha256 program) {model tokens : Path} {threads}
    (hasked : .create model tokens threads ∈ program.trace) :
    ∃ dir sha256 content, modelDir = .text dir ∧ expectedSha256 = .text sha256 ∧
      model = (Path.new dir).join (.new modelFile) ∧ host.contents model = some content ∧
      (hex (host.sha256 content)).toList = (trim sha256.toList).map Char.toLower := by
  cases hcase with
  | refused | unreadable | mismatch | missing => cases hasked
  | created hdir hsha256 hconfig hverified htokens =>
      cases List.mem_singleton.mp hasked
      obtain ⟨content, hcontent, hhash⟩ := hverified.hash
      exact ⟨_, _, content, hdir, hsha256, rfl, hcontent, hhash⟩

theorem RecognizeCase.recorded_of_asked {recognizer samples len sampleRate}
    {program : Traced Asked SttFFIError String}
    (hcase : RecognizeCase host recognizer samples len sampleRate program)
    {rate : Int32} {slice : List F32} (hasked : .decode rate slice ∈ program.trace) :
    Recorded slice.length rate := by
  cases hcase with
  | nullRecognizer | nullSamples | invalid => cases hasked
  | decoded hengine hslice hrecorded =>
      cases List.mem_singleton.mp hasked
      exact hrecorded

theorem LoadCase.tokens_absent {modelDir config expectedSha256}
    {program : Traced Asked SttFFIError Engine}
    (hcase : LoadCase host modelDir config expectedSha256 program)
    (hthere : ∀ path content, host.contents path = some content → host.isFile path = true)
    {message : String} (hresult : program.result = .error ⟨ErrorCodes.missingModelFile, message⟩) :
    ∃ dir, modelDir = .text dir ∧
      host.isFile ((Path.new dir).join (.new tokensFile)) = false := by
  have hunreadable : ErrorCodes.unreadableModelFile ≠ ErrorCodes.missingModelFile := by decide
  have hmismatch : ErrorCodes.checksumMismatch ≠ ErrorCodes.missingModelFile := by decide
  have hcreated : ErrorCodes.modelLoadFailed ≠ ErrorCodes.missingModelFile := by decide
  cases hcase with
  | refused hrefused =>
      cases hresult
      exact absurd (code_of_refused hrefused) (Int.lt_irrefl _)
  | unreadable => exact absurd (code_of_raised host hresult) hunreadable
  | mismatch => exact absurd (code_of_raised host hresult) hmismatch
  | created => exact absurd (code_of_created host hresult) hcreated
  | missing hdir hsha256 hverified hname habsent =>
      rcases hname with rfl | rfl
      · obtain ⟨content, hcontent, -⟩ := hverified
        rw [hthere _ content hcontent] at habsent
        cases habsent
      · exact ⟨_, hdir, habsent⟩

theorem LoadCase.model_unreadable {modelDir config expectedSha256}
    {program : Traced Asked SttFFIError Engine}
    (hcase : LoadCase host modelDir config expectedSha256 program) {message : String}
    (hresult : program.result = .error ⟨ErrorCodes.unreadableModelFile, message⟩) :
    ∃ dir, modelDir = .text dir ∧
      host.contents ((Path.new dir).join (.new modelFile)) = none := by
  have hlt : ErrorCodes.missingModelFile < ErrorCodes.unreadableModelFile := by decide
  have hmismatch : ErrorCodes.checksumMismatch ≠ ErrorCodes.unreadableModelFile := by decide
  have hcreated : ErrorCodes.modelLoadFailed ≠ ErrorCodes.unreadableModelFile := by decide
  cases hcase with
  | refused hrefused =>
      cases hresult
      exact absurd (code_of_refused hrefused) (Int.not_lt.mpr (Int.le_of_lt hlt))
  | unreadable hdir hsha256 hcontent => exact ⟨_, hdir, hcontent⟩
  | mismatch => exact absurd (code_of_raised host hresult) hmismatch
  | missing => exact absurd (code_of_raised host hresult) (Int.ne_of_lt hlt)
  | created => exact absurd (code_of_created host hresult) hcreated

/-- What the C API of the recognizer promises. -/
structure Guarded : Prop where
  load : ∀ modelDir config expectedSha256,
    LoadCase host modelDir config expectedSha256 (load host modelDir config expectedSha256)
  recognize : ∀ recognizer samples len sampleRate,
    RecognizeCase host recognizer samples len sampleRate
      (libdengjenSttRecognize host recognizer samples len sampleRate)
  /-- The engine is given no model file without the expected hash. -/
  verified : ∀ modelDir config expectedSha256 model tokens threads,
    .create model tokens threads ∈ (Stt.load host modelDir config expectedSha256).trace →
      ∃ dir sha256 content, modelDir = .text dir ∧ expectedSha256 = .text sha256 ∧
        model = (Path.new dir).join (.new modelFile) ∧ host.contents model = some content ∧
        (hex (host.sha256 content)).toList = (trim sha256.toList).map Char.toLower
  /-- And no recording that is shorter than 25 ms. -/
  recorded : ∀ recognizer samples len sampleRate rate slice,
    .decode rate slice ∈ (libdengjenSttRecognize host recognizer samples len sampleRate).trace →
      Recorded slice.length rate
  /-- Where the files stay as they are, `MISSING_MODEL_FILE` means that of the tokens. -/
  missing : (∀ path content, host.contents path = some content → host.isFile path = true) →
    ∀ modelDir config expectedSha256 message,
      (Stt.load host modelDir config expectedSha256).result =
          .error ⟨ErrorCodes.missingModelFile, message⟩ →
        ∃ dir, modelDir = .text dir ∧
          host.isFile ((Path.new dir).join (.new tokensFile)) = false
  /-- A checksummed file that is absent or cannot be read is `UNREADABLE_MODEL_FILE`. -/
  unreadable : ∀ modelDir config expectedSha256 message,
    (Stt.load host modelDir config expectedSha256).result =
        .error ⟨ErrorCodes.unreadableModelFile, message⟩ →
      ∃ dir, modelDir = .text dir ∧
        host.contents ((Path.new dir).join (.new modelFile)) = none

end Calls

end Dengjen.Stt

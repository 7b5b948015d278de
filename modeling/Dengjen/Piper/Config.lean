import Dengjen.Core.Tokens
import Dengjen.Piper.SynthConfig

/-!
# Piper's voice configuration and its phoneme ids

`ModelConfig` is what `serde` parses from the voice's JSON file. The greedy loop
over the phonemes keeps its cursor as the characters that are left, with the
number of them that the last match still covers.
-/

namespace Dengjen.Piper

/-- The format of a voice's samples, as its configuration has it. -/
structure AudioConfig where
  sampleRate : Nat
  quality : Option String

/-- The scales that a voice is made with. -/
structure InferenceConfig where
  noiseScale : F32
  lengthScale : F32
  noiseW : F32

/-- The language of a voice, as its configuration has it. -/
structure Language where
  code : String

/-- What the synthesis reads of a voice's configuration file. -/
structure ModelConfig where
  language : Option Language
  audio : AudioConfig
  numSpeakers : Nat
  speakerIdMap : HashMap String Int
  streaming : Option Bool
  espeakVoice : String
  inference : InferenceConfig
  phonemeIdMap : HashMap String (List Int)
  defaultSpeakerId : Option Int
  hopLength : Option Nat

/-- The parameters a voice starts with; reading the file is left to `serde`. -/
def loadModelConfig (modelConfig : ModelConfig) : ModelConfig × PiperSynthesisConfig :=
  (modelConfig,
    { speaker := none
      noiseScale := modelConfig.inference.noiseScale
      lengthScale := modelConfig.inference.lengthScale
      noiseW := modelConfig.inference.noiseW })

/-- The speaker of a voice that names none. -/
def resolveDefaultSpeakerId (config : ModelConfig) : Int := config.defaultSpeakerId.getD 0

/-- The length of the longest key that starts with each character. -/
def longestEntryByFirstChar (phonemeIdMap : HashMap String (List Int)) : HashMap Char Nat :=
  phonemeIdMap.keys.foldl (fun longest entry =>
    match entry.toList with
    | [] => longest
    | first :: rest =>
        longest.insert first (max ((longest.lookup first).getD 0) (1 + rest.length))) ∅

/-- The id of a key is the first one of its list. -/
def firstPhonemeId (phonemeIdMap : HashMap String (List Int)) (entry : String) : Option Int :=
  (phonemeIdMap.lookup entry).bind List.head?

/-- The longest symbol at each place is taken; a character that starts none is passed over. -/
def mapPhonemesLoop (phonemeIdMap : HashMap String (List Int)) (longest : HashMap Char Nat)
    (padId : Int) : List Char → Nat → List Int
  | [], _ => []
  | _ :: rest, covered + 1 => mapPhonemesLoop phonemeIdMap longest padId rest covered
  | current :: rest, 0 =>
      let widest := min ((longest.lookup current).getD 0) (rest.length + 1)
      match longestMatch (firstPhonemeId phonemeIdMap) widest (current :: rest) with
      | some (width, id) =>
          id :: padId :: mapPhonemesLoop phonemeIdMap longest padId rest (width - 1)
      | none => mapPhonemesLoop phonemeIdMap longest padId rest 0

/-- The ids of a text with their pads, between the ids of the start and the end. -/
def mapPhonemesToIds (phonemeIdMap : HashMap String (List Int)) (phonemes : String)
    (padId bosId eosId : Int) : List Int :=
  bosId :: mapPhonemesLoop phonemeIdMap (longestEntryByFirstChar phonemeIdMap) padId
    phonemes.toList 0 ++ [eosId]

end Dengjen.Piper

import Dengjen.Core.Model
import Dengjen.Core.Tokens

/-!
# MeloTTS's voice configuration, its parameters and its tokenizer

A sentence travels as text between the phonemizer and the synthesis: one line a
phone, which ends with a colon and the tone.
-/

namespace Dengjen.Melo

namespace SynthConfig

/-- The name of the parameter that scales the noise. -/
def noiseScale : String := "noise_scale"
/-- The name of the parameter that scales the length. -/
def lengthScale : String := "length_scale"
/-- The name of the parameter that scales the noise of the durations. -/
def noiseScaleW : String := "noise_scale_w"

end SynthConfig

/-- The settings a voice is spoken with. -/
structure MeloSynthesisConfig where
  speaker : Option Int
  noiseScale : F32
  lengthScale : F32
  noiseScaleW : F32
  deriving DecidableEq

/-- The settings as the crates share them, with a value for each parameter. -/
def MeloSynthesisConfig.toSynthesisConfig (config : MeloSynthesisConfig) : SynthesisConfig where
  speaker := config.speaker
  parameters := HashMap.fromIter
    [(SynthConfig.noiseScale, config.noiseScale),
     (SynthConfig.lengthScale, config.lengthScale),
     (SynthConfig.noiseScaleW, config.noiseScaleW)]

/-- The scales of a voice's configuration file. -/
structure InferenceConfig where
  noiseScale : F32
  lengthScale : F32
  noiseScaleW : F32

/-- What the synthesis reads of a voice's configuration file. -/
structure MeloVoiceConfig where
  sampleRate : Nat
  phoneIdMap : HashMap String (List Int)
  toneIdMap : HashMap String Int
  speakerIdMap : HashMap String Int
  defaultSpeakerId : Option Int
  inference : InferenceConfig

/-- One sentence's pairs as text. -/
def encodePairs (pairs : List (String × String)) : String :=
  "\n".intercalate (pairs.map fun (phone, tone) => s!"{phone}:{tone}")

/-- `str::rsplit_once` on characters. -/
def rsplitOnce (separator : Char) : List Char → Option (List Char × List Char)
  | [] => none
  | c :: rest =>
      match rsplitOnce separator rest with
      | some (before, after) => some (c :: before, after)
      | none => if c = separator then some ([], rest) else none

/-- A line without a colon is a phone without a tone. -/
def decodeToken (token : List Char) : String × String :=
  match rsplitOnce ':' token with
  | some (phone, tone) => (String.ofList phone, String.ofList tone)
  | none => (String.ofList token, "_")

/-- The pairs of a text of lines; empty lines are passed over. -/
def decodePairs (phonemes : String) : List (String × String) :=
  ((phonemes.toList.splitOn '\n').filter fun line => !line.isEmpty).map decodeToken

/-- The first id that the table has for a symbol. -/
def firstPhoneId (phoneIdMap : HashMap String (List Int)) (entry : String) : Option Int :=
  (phoneIdMap.lookup entry).bind List.head?

/-- The most characters that a symbol of the table has, and 1 for an empty table. -/
def longestEntry (phoneIdMap : HashMap String (List Int)) : Nat :=
  max ((phoneIdMap.keys.map fun entry => entry.toList.length).max?.getD 1) 1

/-- The phones and the tones of one chunk, each followed by a blank. -/
def mapChunkLoop (phoneIdMap : HashMap String (List Int)) (longest : Nat)
    (toneId blankId blankTone : Int) : List Char → Nat → List Int × List Int
  | [], _ => ([], [])
  | _ :: rest, covered + 1 =>
      mapChunkLoop phoneIdMap longest toneId blankId blankTone rest covered
  | current :: rest, 0 =>
      let widest := min longest (rest.length + 1)
      match longestMatch (firstPhoneId phoneIdMap) widest (current :: rest) with
      | some (width, id) =>
          let (phones, tones) :=
            mapChunkLoop phoneIdMap longest toneId blankId blankTone rest (width - 1)
          (id :: blankId :: phones, toneId :: blankTone :: tones)
      | none => mapChunkLoop phoneIdMap longest toneId blankId blankTone rest 0

/-- The ids of pairs and their tones, with blanks between them and the ids of the start and
the end. -/
def mapPhoneTonePairsToIds (phoneIdMap : HashMap String (List Int))
    (toneIdMap : HashMap String Int) (pairs : List (String × String)) : List Int × List Int :=
  let bosId := (firstPhoneId phoneIdMap "^").getD 0
  let eosId := (firstPhoneId phoneIdMap "$").getD 0
  let blankId := (firstPhoneId phoneIdMap "_").getD 0
  let blankTone := (toneIdMap.lookup "_").getD 0
  let chunks := pairs.map fun (chunk, toneSymbol) =>
    mapChunkLoop phoneIdMap (longestEntry phoneIdMap)
      ((toneIdMap.lookup toneSymbol).getD blankTone) blankId blankTone chunk.toList 0
  (bosId :: (chunks.map Prod.fst).flatten ++ [eosId],
    blankTone :: (chunks.map Prod.snd).flatten ++ [blankTone])

end Dengjen.Melo

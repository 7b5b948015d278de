import Dengjen.Core.Integers
import Dengjen.Core.Model
import Dengjen.Core.Tokens
import Mathlib.Data.PNat.Basic

/-!
# Kokoro voices

The state is the stored configuration, of which only the speaker is used: the
speakers are the presets of the voice's configuration, numbered from 0, and the
first of them is used where no known speaker is set.
-/

namespace Dengjen.Kokoro

/-- The tokens of a voice, with the id of the frame and the length of the longest token. -/
structure Vocab where
  map : HashMap String Int
  bosId : Int
  maxTokenChars : Nat

namespace Vocab

/-- A vocabulary, which has to have the frame's token. -/
def load (vocabPath : String) (map : HashMap String Int) : DengjenResult Vocab :=
  match map.lookup "$" with
  | some bosId =>
      .ok ⟨map, bosId, (map.keys.map fun token => token.toList.length).max?.getD 1⟩
  | none => .error (.failedToLoadResource s!"BOS token `$` not found in vocab `{vocabPath}`")

/-- The frame ends with the id it starts with. -/
def eosId (vocab : Vocab) : Int := vocab.bosId

/-- The longest token at each place is taken; a character that starts none is passed over. -/
def tokenizeLoop (vocab : Vocab) : List Char → Nat → List Int
  | [], _ => []
  | _ :: rest, covered + 1 => vocab.tokenizeLoop rest covered
  | current :: rest, 0 =>
      let limit := min vocab.maxTokenChars (rest.length + 1)
      match longestMatch vocab.map.lookup limit (current :: rest) with
      | some (len, id) => id :: vocab.tokenizeLoop rest (len - 1)
      | none => vocab.tokenizeLoop rest 0

/-- The ids of a text's tokens. -/
def tokenize (vocab : Vocab) (phonemes : String) : List Int :=
  vocab.tokenizeLoop phonemes.toList 0

end Vocab

/-- The position of the last element that equals `token`. -/
def rposition (token : Int) (window : List Int) : Option Nat :=
  (window.reverse.idxOf? token).map fun fromEnd => window.length - 1 - fromEnd

/-- Where the next chunk ends: behind the last break in its window, or at full length. -/
def chunkCut (maxLen : ℕ+) (breakId : Option Int) (rest : List Int) : Nat :=
  match breakId.bind fun id => rposition id (rest.take maxLen) with
  | some position => position + 1
  | none => maxLen

theorem chunkCut_pos (maxLen : ℕ+) (breakId : Option Int) (rest : List Int) :
    0 < chunkCut maxLen breakId rest := by
  rw [chunkCut]
  split
  · omega
  · exact maxLen.pos

/-- The loop does not end for a chunk length of 0, which no caller passes. -/
def splitTokens (rest : List Int) (maxLen : ℕ+) (breakId : Option Int) : List (List Int) :=
  if rest.length > maxLen then
    let cut := chunkCut maxLen breakId rest
    rest.take cut :: splitTokens (rest.drop cut) maxLen breakId
  else [rest]
termination_by rest.length
decreasing_by
  have hcut := chunkCut_pos maxLen breakId rest
  rw [List.length_drop]
  omega

/-- The most tokens that the model takes at once. -/
def maxTokenLen : ℕ+ := 510

/-- The vector that makes the voice of a preset. -/
abbrev Style := List F32

/-- The style rows of each preset. -/
structure VoiceStyles where
  perVoice : HashMap String (List Style)

/-- The vector of a preset for a chunk of a length. -/
def VoiceStyles.styleFor (styles : VoiceStyles) (voiceName : String) (tokenLen : Nat) :
    DengjenResult Style :=
  match styles.perVoice.lookup voiceName with
  | none => .error (.operationError s!"Unknown Kokoro voice: `{voiceName}`")
  | some table => .ok (table.getD (min (tokenLen - 1) (maxTokenLen - 1)) [])

/-- The languages of the presets, by the first letters of their names. -/
def presetLanguages : List (Char × String) :=
  [('a', "en-US"), ('b', "en-GB-x-rp"), ('j', "ja"), ('z', "cmn"), ('e', "es"), ('f', "fr"),
   ('h', "hi"), ('i', "it"), ('p', "pt-BR")]

/-- The language of a preset. -/
def espeakLanguageForVoice (voice : String) : DengjenResult String :=
  let language := match voice.toList with
    | letter :: _ :: _ => presetLanguages.lookup letter
    | _ => none
  match language with
  | some language => .ok language
  | none => .error (.phonemizationError
      s!"Kokoro preset `{voice}` has no known language prefix")

/-- The preset of a configuration's speaker, or the default one. -/
def resolveVoiceName (speakerMap : SpeakerMap) (defaultVoice : String)
    (synthConfig : SynthesisConfig) : String :=
  (synthConfig.speaker.bind fun id => speakerMap.lookup id).getD defaultVoice

/-- What the model reads of a voice's configuration file. -/
structure KokoroVoiceConfig where
  sampleRate : Nat
  voices : List String

/-- What is loaded besides the configuration: the vocabulary, the styles, the phonemizer
for a language, and the session on token ids, a style and the fixed speed. -/
structure KokoroResources where
  vocab : Vocab
  voiceStyles : VoiceStyles
  phonemize : String → String → DengjenResult (List String)
  session : List Int → Style → F32 → DengjenResult AudioSamples

/-- A loaded voice. Its default is the preset with id 0. -/
structure KokoroModel extends KokoroResources where
  sampleRate : Nat
  defaultVoice : String
  speakerMap : SpeakerMap
  speakerMap_zero : speakerMap.lookup 0 = some defaultVoice

/-- The presets under their positions. -/
def enumeratedVoices (voices : List String) : SpeakerMap :=
  HashMap.fromIter (voices.zipIdx.map fun (name, index) => (↑index, name))

theorem mem_enumerated {voices : List String} {index : Nat} {name : String} :
    ((index : Int), name) ∈ (voices.zipIdx.map fun (name, index) => ((index : Int), name)) ↔
      voices[index]? = some name := by
  have hzip := List.mem_zipIdx_iff_getElem? (x := (name, index)) (l := voices)
  rw [List.mem_map, ← hzip]
  constructor
  · rintro ⟨⟨preset, position⟩, hmem, heq⟩
    obtain ⟨hindex, rfl⟩ := Prod.ext_iff.mp heq
    rwa [← Int.ofNat_inj.mp hindex]
  · exact fun hmem => ⟨(name, index), hmem, rfl⟩

theorem lookup_enumeratedVoices {voices : List String} {index : Nat} {name : String}
    (h : voices[index]? = some name) : (enumeratedVoices voices).lookup (index : Int) = some name :=
  HashMap.lookup_fromIter_of_unique (mem_enumerated.mpr h) fun _ hother =>
    Option.some.inj ((mem_enumerated.mp hother).symm.trans h)

theorem enumeratedVoices_zero {voices : List String} {first : String}
    (h : voices.head? = some first) : (enumeratedVoices voices).lookup 0 = some first :=
  @lookup_enumeratedVoices voices 0 first (List.head?_eq_getElem?.symm.trans h)

namespace KokoroModel

/-- A voice of at least one preset. -/
def fromConfig (config : KokoroVoiceConfig) (resources : KokoroResources) :
    DengjenResult KokoroModel :=
  match h : config.voices.head? with
  | none => .error (.failedToLoadResource "No voices in config")
  | some defaultVoice =>
      .ok { resources with
        sampleRate := config.sampleRate
        defaultVoice := defaultVoice
        speakerMap := enumeratedVoices config.voices
        speakerMap_zero := enumeratedVoices_zero h }

variable (voice : KokoroModel)

/-- The configuration a voice starts with. -/
def initialSynthConfig : SynthesisConfig := SynthesisConfig.default

/-- `1.0` -/
def speed : F32 := ⟨0x3F800000⟩

/-- The preset that a configuration asks for. -/
def voiceName (synthConfig : SynthesisConfig) : String :=
  resolveVoiceName voice.speakerMap voice.defaultVoice synthConfig

/-- The samples of one chunk, with the vector of the preset. -/
def synthesizeTokenChunk (synthConfig : SynthesisConfig) (tokens : List Int) :
    DengjenResult Audio := do
  let tokenIds := voice.vocab.bosId :: tokens ++ [voice.vocab.eosId]
  let style ← voice.voiceStyles.styleFor (voice.voiceName synthConfig) tokenIds.length
  let data ← voice.session tokenIds style speed
  pure (Audio.new data voice.sampleRate)

/-- A sentence is spoken chunk by chunk and joined. -/
def synthesizePhonemes (synthConfig : SynthesisConfig) (phonemes : String) :
    DengjenResult Audio := do
  let spaceId := (voice.vocab.tokenize " ").head?
  let chunks := splitTokens (voice.vocab.tokenize phonemes) maxTokenLen spaceId
  let audios ← chunks.mapM (voice.synthesizeTokenChunk synthConfig)
  pure (Audio.new (audios.flatMap fun audio => audio.samples) voice.sampleRate)

/-- A text as the sentences that are spoken, in the language of the preset. -/
def phonemizeText (synthConfig : SynthesisConfig) (text : String) :
    DengjenResult (List String) := do
  let language ← espeakLanguageForVoice (voice.voiceName synthConfig)
  voice.phonemize language text

/-- Stores a configuration, unless its speaker is unknown. -/
def setFallbackSynthesisConfig (synthConfig synthesisConfig : SynthesisConfig) :
    DengjenResult Unit × SynthesisConfig :=
  match ensureKnownSpeaker voice.speakerMap synthesisConfig.speaker with
  | .error error => (.error error, synthConfig)
  | .ok () => (.ok (), synthesisConfig)

end KokoroModel

/-- The samples that one unit of a chunk size stands for. -/
def kokoroChunkSizeScale : Nat := 256

/-- Hands out the samples of one sentence chunk by chunk. -/
structure KokoroAudioStreamer where
  samples : AudioSamples
  cursor : Nat
  chunkSize : Nat

namespace KokoroAudioStreamer

/-- `next` while the token is not cancelled. -/
def next (streamer : KokoroAudioStreamer) : Option AudioSamples × KokoroAudioStreamer :=
  if streamer.chunkSize = 0 ∨ streamer.cursor ≥ streamer.samples.length then (none, streamer)
  else
    let stop := min (streamer.cursor + streamer.chunkSize) streamer.samples.length
    (some ((streamer.samples.take stop).drop streamer.cursor), { streamer with cursor := stop })

/-- All that an uncancelled drain yields. -/
def drain (streamer : KokoroAudioStreamer) : List AudioSamples :=
  match _h : streamer.next with
  | (none, _) => []
  | (some chunk, rest) => chunk :: rest.drain
termination_by streamer.samples.length - streamer.cursor
decreasing_by
  rw [next] at _h
  split at _h
  · cases _h
  · cases _h
    dsimp only
    omega

end KokoroAudioStreamer

namespace KokoroModel

variable (voice : KokoroModel)

/-- `stream_synthesis` with a token that is not cancelled. -/
def streamSynthesis (synthConfig : SynthesisConfig) (phonemes : String) (chunkSize : Nat) :
    DengjenResult AudioStream := do
  if chunkSize = 0 then
    throw (.unsupportedOperation "chunk_size must be greater than 0")
  let audio ← voice.synthesizePhonemes synthConfig phonemes
  let scaledChunkSize := saturatingMul chunkSize kokoroChunkSizeScale
  let streamer : KokoroAudioStreamer := ⟨audio.samples, 0, scaledChunkSize⟩
  pure (streamer.drain.map fun chunk => .returned (.ok chunk))

/-- The voice as the crates share it. -/
def toDengjenModel : DengjenModel SynthesisConfig where
  audioOutputInfo _ := .ok ⟨voice.sampleRate, 1, 2⟩
  phonemizeText := voice.phonemizeText
  speakBatch synthConfig phonemeBatches :=
    phonemeBatches.mapM (voice.synthesizePhonemes synthConfig)
  speakOneSentence := voice.synthesizePhonemes
  getDefaultSynthesisConfig _ := .ok (some ⟨some 0, ∅⟩)
  getFallbackSynthesisConfig synthConfig := .ok (some synthConfig)
  setFallbackSynthesisConfig := voice.setFallbackSynthesisConfig
  getSpeakers _ := .ok (some voice.speakerMap)
  supportsStreamingOutput _ := true
  streamSynthesis synthConfig phonemes chunkSize _ :=
    .returned (voice.streamSynthesis synthConfig phonemes chunkSize)

end KokoroModel

end Dengjen.Kokoro

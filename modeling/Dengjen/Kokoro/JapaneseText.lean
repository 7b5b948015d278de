import Dengjen.Backends.Loading
import Dengjen.Espeak.Phonemize
import Dengjen.General.Terminated
import Dengjen.General.Traversals
import Dengjen.Kokoro.Spelling
import Dengjen.Kokoro.Substitutions
import Dengjen.Kokoro.TokenChunks
import Dengjen.Text.Tokenizers

/-!
# Japanese text, down to the tokens of the model

A text is cut behind its terminators, and each sentence is assembled from the words
that the engine reads in it and spelled for the vocabulary, which then drops nothing
of it.

## Implementation notes

The engine is a parameter: the words of a sentence behind `preprocess`, an error, or a
panic. Loading it from a directory is another one, and so is eSpeak-ng. A path is its text.
-/

namespace Dengjen.Kokoro

open GreedySegmentation
open Loading (Build)

/-! ## Sentences -/

/-- The marks and the line break that end a sentence. -/
def endsSentence (c : Char) : Bool := ['。', '！', '？', '!', '?', '\n'].contains c

/-- The sentences of a text, without the blank ones. -/
def splitSentences (text : List Char) : List (List Char) :=
  ((splitInclusive endsSentence text).map trim).filter (!·.isEmpty)

/-! ## The engine -/

/-- What the engine reads in a sentence; nothing where it panics. -/
structure JapaneseG2p where
  textToWords : List Char → Option (Except String (List Word))

/-- A panic becomes an error. -/
def catchPhonemization {α : Type*} (result : Option (DengjenResult α)) : DengjenResult α :=
  result.getD (.error (.phonemizationError "the Japanese phonemizer panicked on this text"))

namespace JapaneseG2p

variable (g2p : JapaneseG2p)

/-- A sentence as it is spelled, with what its spelling panics on left open. -/
def phonemizeSentence (sentence : List Char) : Option (DengjenResult (List Char)) :=
  (g2p.textToWords sentence).map fun
    | .error message => .error (.phonemizationError message)
    | .ok words => .ok (fitToVocab (assemble words))

/-- A sentence, and its error where there is one. -/
def phonemizeGuarded (sentence : List Char) : DengjenResult (List Char) :=
  catchPhonemization (g2p.phonemizeSentence sentence)

/-- Sentences without phonemes are left out. The first error is returned. -/
def phonemize (text : List Char) : DengjenResult (List (List Char)) :=
  (((splitSentences text).map g2p.phonemizeGuarded).filter fun
    | .ok phonemes => !phonemes.isEmpty
    | .error _ => true).mapM id

end JapaneseG2p

/-! ## The dictionary -/

/-- The variable that names the dictionary's directory. -/
def japaneseDictEnv : String := "DENGJEN_JA_DICT_DIR"

/-- What a caller without a dictionary is told. -/
def unsetDictionaryMessage : String :=
  s!"Japanese presets need a jpreprocess dictionary: set {japaneseDictEnv} to its directory"

/-- The error of a dictionary that cannot be loaded. -/
def dictionaryError (path cause : String) : DengjenError :=
  .failedToLoadResource
    s!"Failed to load the Japanese dictionary at `{path}` (set by {japaneseDictEnv}): {cause}"

/-- `loadEngine` opens a dictionary and reads a first word with it; nothing where it panics. -/
def JapaneseG2p.fromEnvValue (loadEngine : String → Option (Except String JapaneseG2p))
    (value : Option String) : DengjenResult JapaneseG2p :=
  match value with
  | none => .error (.failedToLoadResource unsetDictionaryMessage)
  | some dir =>
      ((loadEngine dir).getD
        (.error "the dictionary is corrupt or from another jpreprocess version")).mapError
          (dictionaryError dir)

/-- A voice has a dictionary, or none was set for it. -/
inductive JapaneseDictionary
  | loaded (g2p : JapaneseG2p)
  | unset

namespace JapaneseDictionary

/-- The dictionary of the directory that is set. -/
def fromEnv (loadEngine : String → Option (Except String JapaneseG2p)) (value : Option String) :
    DengjenResult JapaneseDictionary :=
  match value with
  | none => .ok .unset
  | some dir => (JapaneseG2p.fromEnvValue loadEngine (some dir)).map .loaded

/-- A text without a dictionary is refused. -/
def phonemize : JapaneseDictionary → List Char → DengjenResult (List (List Char))
  | loaded g2p, text => g2p.phonemize text
  | unset, _ => .error (.phonemizationError unsetDictionaryMessage)

end JapaneseDictionary

/-! ## The phonemizer of a voice -/

/-- Where the build has Japanese, a voice with a Japanese preset opens the dictionary when it is
loaded. -/
def japaneseOf (build : Build) (voices : List String)
    (dictionary : DengjenResult JapaneseDictionary) : DengjenResult (Option JapaneseDictionary) :=
  if build.japanese && voices.any (·.toList.head? = some 'j') then dictionary.map some
  else .ok none

section Phonemizer

variable (build : Build) (textToPhonemes : String → String → Espeak.ESpeakResult (List String))

/-- `text_to_kokoro_phonemes` -/
def textToKokoroPhonemes (text language : String) : DengjenResult (List String) :=
  if build.espeak then
    match textToPhonemes text language with
    | .error message => .error (.phonemizationError s!"eSpeak-ng Error :{message}")
    | .ok sentences =>
        .ok (sentences.map fun sentence => .ofList (espeakIpaToKokoro sentence.toList))
  else .error (.phonemizationError
    ("Kokoro phonemization requires the `espeak` feature (GPL-3.0-or-later, via espeak-ng), " ++
      "but it is disabled"))

/-- The phonemizer of a voice: Japanese is read by the dictionary, where there is one. -/
def phonemizeWith (japanese : Option JapaneseDictionary) (language text : String) :
    DengjenResult (List String) :=
  match japanese, language with
  | some dictionary, "ja" =>
      (dictionary.phonemize text.toList).map fun sentences => sentences.map String.ofList
  | _, _ => textToKokoroPhonemes build textToPhonemes text language

end Phonemizer

/-! ## The tokens of a sentence -/

/-- What is read as some words is spelled with the symbols of the output, is spelled like nothing
else, and reaches the model completely, as keys of the vocabulary. -/
structure Arrives (vocab : Vocab) (words : List Word) : Prop where
  symbols : ∀ c ∈ fitToVocab (assemble words), c ∈ outputSymbols
  fitted : fitToVocab (fitToVocab (assemble words)) = fitToVocab (assemble words)
  distinct : ∀ others, fitToVocab (assemble others) = fitToVocab (assemble words) →
    assemble others = assemble words
  complete : ∃ keys : List String, (keys.map String.toList).flatten = fitToVocab (assemble words) ∧
    List.Forall₂ (fun key id => vocab.map.lookup key = some id) keys
      (splitTokens (vocab.tokenize (String.ofList (fitToVocab (assemble words)))) maxTokenLen
        (vocab.tokenize " ").head?).flatten

/-- A vocabulary with a key for every symbol of a text drops nothing of it. -/
theorem exists_keys {vocab : Vocab} (hbounded : vocab.Bounded) {text : List Char}
    (h : ∀ c ∈ text, (vocab.map.lookup (String.ofList [c])).isSome) :
    ∃ keys : List String, (keys.map String.toList).flatten = text ∧
      List.Forall₂ (fun key id => vocab.map.lookup key = some id) keys
        (vocab.tokenize (String.ofList text)) := by
  obtain ⟨segments, hsegments⟩ := exists_segments (pieceId vocab.map.lookup) text
  have htext : (String.ofList text).toList = text := String.toList_ofList
  refine ⟨segments.map fun segment => String.ofList segment.1, ?_, ?_⟩
  · rw [List.map_map, ← hsegments.flatten_eq h]
    congr 1
    exact List.map_congr_left fun segment _ => String.toList_ofList
  · rw [Vocab.tokenize_eq hbounded (htext.symm ▸ hsegments), List.forall₂_map_left_iff,
      List.forall₂_map_right_iff, List.forall₂_same]
    exact fun segment hsegment => hsegments.value_of_mem hsegment

theorem arrives {vocab : Vocab} (hbounded : vocab.Bounded)
    (h : ∀ c ∈ outputSymbols, (vocab.map.lookup (String.ofList [c])).isSome) (words : List Word) :
    Arrives vocab words := by
  have hwritten := written_assemble words
  have hsymbols := hwritten.outputSymbols
  constructor
  · exact hsymbols
  · exact fitToVocab_of_outputSymbols hsymbols
  · exact fun others heq => (written_assemble others).fitToVocab_inj hwritten heq
  · obtain ⟨keys, hkeys, htokens⟩ := exists_keys hbounded fun c hc => h c (hsymbols c hc)
    refine ⟨keys, hkeys, ?_⟩
    rwa [(pieces_splitTokens _ maxTokenLen _).flatten_eq]

/-! ## The sentences of a text -/

/-- Without blanks around them, and without those that are blank. -/
theorem exists_splitSentences (text : List Char) : ∃ groups rest,
    Terminated (fun c => endsSentence c) text groups rest ∧
      splitSentences text = ((groups ++ [rest]).map trim).filter (!·.isEmpty) := by
  obtain ⟨groups, rest, hterminated, hsplit⟩ := exists_terminated_splitInclusive endsSentence text
  refine ⟨groups, rest, hterminated, ?_⟩
  rw [splitSentences, hsplit]
  split
  · next hnil =>
      rw [hnil, List.append_nil, List.map_append, List.filter_append]
      exact (List.append_nil _).symm
  · rfl

section Reading

variable {g2p : JapaneseG2p}

theorem phonemizeGuarded_eq_ok_iff {sentence phonemes : List Char} :
    g2p.phonemizeGuarded sentence = .ok phonemes ↔
      ∃ words, g2p.textToWords sentence = some (.ok words) ∧
        fitToVocab (assemble words) = phonemes := by
  rw [JapaneseG2p.phonemizeGuarded, JapaneseG2p.phonemizeSentence]
  rcases g2p.textToWords sentence with - | (message | words)
  · simp [catchPhonemization]
  · simp [catchPhonemization]
  · simp [catchPhonemization]

theorem phonemize_eq (g2p : JapaneseG2p) (text : List Char) :
    g2p.phonemize text = ((splitSentences text).mapM g2p.phonemizeGuarded).map fun sentences =>
      sentences.filter (!·.isEmpty) :=
  mapM_id_filter (fun _ => rfl) (fun _ => rfl) (splitSentences text)

theorem forall₂_phonemizeGuarded_iff {pieces sentences : List (List Char)} :
    List.Forall₂ (fun piece sentence => g2p.phonemizeGuarded piece = .ok sentence) pieces
        sentences ↔
      ∃ readings, List.Forall₂ (fun piece words => g2p.textToWords piece = some (.ok words)) pieces
          readings ∧ (readings.map fun words => fitToVocab (assemble words)) = sentences := by
  constructor
  · intro h
    induction h with
    | nil => exact ⟨[], .nil, rfl⟩
    | cons hpiece _ ih =>
        obtain ⟨words, hwords, rfl⟩ := phonemizeGuarded_eq_ok_iff.mp hpiece
        obtain ⟨readings, hreadings, rfl⟩ := ih
        exact ⟨words :: readings, .cons hwords hreadings, rfl⟩
  · rintro ⟨readings, hreadings, rfl⟩
    rw [List.forall₂_map_right_iff]
    exact hreadings.imp fun _ words hwords => phonemizeGuarded_eq_ok_iff.mpr ⟨words, hwords, rfl⟩

/-- The sentences in which something is heard, as they are read. -/
theorem phonemize_eq_ok_iff {text : List Char} {sentences : List (List Char)} :
    g2p.phonemize text = .ok sentences ↔
      ∃ readings, List.Forall₂ (fun piece words => g2p.textToWords piece = some (.ok words))
          (splitSentences text) readings ∧
        (readings.map fun words => fitToVocab (assemble words)).filter (!·.isEmpty) =
          sentences := by
  rw [phonemize_eq]
  constructor
  · intro h
    cases hpieces : (splitSentences text).mapM g2p.phonemizeGuarded with
    | error error =>
        rw [hpieces] at h
        cases h
    | ok spelled =>
        rw [hpieces] at h
        cases h
        obtain ⟨readings, hreadings, rfl⟩ :=
          forall₂_phonemizeGuarded_iff.mp (mapM_eq_ok_iff.mp hpieces)
        exact ⟨readings, hreadings, rfl⟩
  · rintro ⟨readings, hreadings, rfl⟩
    rw [mapM_eq_ok_iff.mpr (forall₂_phonemizeGuarded_iff.mpr ⟨readings, hreadings, rfl⟩)]
    rfl

/-- The error of the first sentence that the engine does not read. -/
theorem phonemize_eq_error_iff {text : List Char} {error : DengjenError} :
    g2p.phonemize text = .error error ↔
      ∃ before piece after, splitSentences text = before ++ piece :: after ∧
        (∀ earlier ∈ before, ∃ words, g2p.textToWords earlier = some (.ok words)) ∧
        g2p.phonemizeGuarded piece = .error error := by
  have hmap : g2p.phonemize text = .error error ↔
      (splitSentences text).mapM g2p.phonemizeGuarded = .error error := by
    rw [phonemize_eq]
    cases (splitSentences text).mapM g2p.phonemizeGuarded <;> simp [Except.map]
  have hread : ∀ piece, (∃ sentence, g2p.phonemizeGuarded piece = .ok sentence) ↔
      ∃ words, g2p.textToWords piece = some (.ok words) := by
    intro piece
    constructor
    · rintro ⟨sentence, hsentence⟩
      obtain ⟨words, hwords, -⟩ := phonemizeGuarded_eq_ok_iff.mp hsentence
      exact ⟨words, hwords⟩
    · rintro ⟨words, hwords⟩
      exact ⟨_, phonemizeGuarded_eq_ok_iff.mpr ⟨words, hwords, rfl⟩⟩
  rw [hmap, mapM_eq_error_iff]
  simp only [hread]

end Reading

/-! ## Japanese presets -/

section Dictionary

variable {loadEngine : String → Option (Except String JapaneseG2p)} {dir : Option String}

theorem fromEnv_eq_unset (h : JapaneseDictionary.fromEnv loadEngine dir = .ok .unset) :
    dir = none := by
  cases dir with
  | none => rfl
  | some path =>
      rw [JapaneseDictionary.fromEnv] at h
      cases hload : JapaneseG2p.fromEnvValue loadEngine (some path) with
      | error error =>
          rw [hload] at h
          cases h
      | ok g2p =>
          rw [hload] at h
          cases h

theorem fromEnv_eq_loaded {g2p : JapaneseG2p}
    (h : JapaneseDictionary.fromEnv loadEngine dir = .ok (.loaded g2p)) :
    ∃ path, dir = some path ∧ loadEngine path = some (.ok g2p) := by
  cases dir with
  | none => cases h
  | some path =>
      refine ⟨path, rfl, ?_⟩
      rw [JapaneseDictionary.fromEnv, JapaneseG2p.fromEnvValue] at h
      rcases hengine : loadEngine path with - | (cause | engine)
      · rw [hengine] at h
        cases h
      · rw [hengine] at h
        cases h
      · rw [hengine] at h
        cases h
        rfl

end Dictionary

/-- The preset in force is one of the voice's configuration. -/
theorem voiceName_mem {config : KokoroVoiceConfig} {resources : KokoroResources}
    {voice : KokoroModel} (h : KokoroModel.fromConfig config resources = .ok voice)
    (synthConfig : SynthesisConfig) : voice.voiceName synthConfig ∈ config.voices := by
  rw [KokoroModel.fromConfig] at h
  split at h
  · cases h
  · next defaultVoice hfirst =>
      cases h
      rw [KokoroModel.voiceName, resolveVoiceName]
      cases hname : synthConfig.speaker.bind fun id =>
          (enumeratedVoices config.voices).lookup id with
      | none => exact List.mem_of_head? hfirst
      | some name =>
          obtain ⟨id, -, hname⟩ := Option.bind_eq_some_iff.mp hname
          have hmem := HashMap.mem_of_lookup_fromIter hname
          obtain ⟨⟨preset, index⟩, hpreset, heq⟩ := List.mem_map.mp hmem
          cases heq
          exact List.mem_of_getElem? (List.mem_zipIdx_iff_getElem?.mp hpreset)

theorem head_of_japanese {name : String} (h : espeakLanguageForVoice name = .ok "ja") :
    name.toList.head? = some 'j' := by
  rw [espeakLanguageForVoice] at h
  split at h
  · next language hlanguage =>
      cases h
      split at hlanguage
      · next letter second rest hname =>
          obtain ⟨before, after, htable, -⟩ := List.lookup_eq_some_iff.mp hlanguage
          have hmem : (letter, "ja") ∈ presetLanguages :=
            htable ▸ List.mem_append_right before List.mem_cons_self
          have hletters : ∀ entry ∈ presetLanguages, entry.2 = "ja" → entry.1 = 'j' := by decide
          rw [hname, List.head?_cons]
          exact congrArg some (hletters _ hmem rfl)
      · cases hlanguage
  · cases h

/-- A build without Japanese has no dictionary. -/
theorem dictionary_eq_none {build : Build} {voices : List String}
    {dictionary : DengjenResult JapaneseDictionary} {japanese : Option JapaneseDictionary}
    (h : japaneseOf build voices dictionary = .ok japanese) (hbuild : build.japanese = false) :
    japanese = none := by
  rw [japaneseOf, hbuild, Bool.false_and, if_neg Bool.false_ne_true] at h
  exact (Except.ok.inj h).symm

/-- In others, a voice with a Japanese preset has a dictionary. -/
theorem exists_dictionary {build : Build} {voices : List String}
    {dictionary : DengjenResult JapaneseDictionary} {japanese : Option JapaneseDictionary}
    (h : japaneseOf build voices dictionary = .ok japanese) (hbuild : build.japanese = true)
    {name : String} (hname : name ∈ voices) (hjapanese : espeakLanguageForVoice name = .ok "ja") :
    ∃ opened, dictionary = .ok opened ∧ japanese = some opened := by
  have hany : voices.any (·.toList.head? = some 'j') = true :=
    List.any_eq_true.mpr ⟨name, hname, decide_eq_true (head_of_japanese hjapanese)⟩
  rw [japaneseOf, hbuild, hany, Bool.true_and, if_pos rfl] at h
  cases hdictionary : dictionary with
  | error error =>
      rw [hdictionary] at h
      cases h
  | ok opened =>
      rw [hdictionary] at h
      cases h
      exact ⟨opened, rfl, rfl⟩

section Voice

variable {config : KokoroVoiceConfig} {resources : KokoroResources} {voice : KokoroModel}
  {build : Build} {textToPhonemes : String → String → Espeak.ESpeakResult (List String)}
  {dictionary : DengjenResult JapaneseDictionary} {japanese : Option JapaneseDictionary}
  {synthConfig : SynthesisConfig}

theorem resources_of_fromConfig (h : KokoroModel.fromConfig config resources = .ok voice) :
    voice.toKokoroResources = resources := by
  rw [KokoroModel.fromConfig] at h
  split at h
  · cases h
  · cases h
    rfl

/-- Without a dictionary a Japanese preset is read by eSpeak-ng, as every other one. -/
theorem phonemizeText_espeak (hvoice : KokoroModel.fromConfig config resources = .ok voice)
    (hphonemize : resources.phonemize = phonemizeWith build textToPhonemes none)
    (hpreset : espeakLanguageForVoice (voice.voiceName synthConfig) = .ok "ja") (text : String) :
    voice.phonemizeText synthConfig text = textToKokoroPhonemes build textToPhonemes text "ja" := by
  rw [KokoroModel.phonemizeText, hpreset, resources_of_fromConfig hvoice, hphonemize]
  rfl

/-- A Japanese preset is read by the dictionary of the voice. -/
theorem phonemizeText_japanese (hvoice : KokoroModel.fromConfig config resources = .ok voice)
    (hphonemize : resources.phonemize = phonemizeWith build textToPhonemes japanese)
    (hjapanese : japaneseOf build config.voices dictionary = .ok japanese)
    (hbuild : build.japanese = true)
    (hpreset : espeakLanguageForVoice (voice.voiceName synthConfig) = .ok "ja") (text : String) :
    ∃ opened, dictionary = .ok opened ∧
      voice.phonemizeText synthConfig text =
        (opened.phonemize text.toList).map fun sentences => sentences.map String.ofList := by
  obtain ⟨opened, hopened, rfl⟩ :=
    exists_dictionary hjapanese hbuild (voiceName_mem hvoice synthConfig) hpreset
  refine ⟨opened, hopened, ?_⟩
  rw [KokoroModel.phonemizeText, hpreset, resources_of_fromConfig hvoice, hphonemize]
  rfl

end Voice

/-- Where the build has Japanese, a text that is spoken with a Japanese preset is never read by
eSpeak-ng, as it is in any other build. Without a dictionary it is refused. With one it is cut
behind its terminators; the first sentence that the engine does not read, or panics on, gives the
error, and otherwise each sentence in which something is heard arrives as it was read: spelled with
the symbols of the output, like nothing else, and without loss in any vocabulary that has a key for
each of them. -/
theorem japanese_text_arrives {config : KokoroVoiceConfig} {resources : KokoroResources}
    {voice : KokoroModel} {build : Build}
    {textToPhonemes : String → String → Espeak.ESpeakResult (List String)}
    {loadEngine : String → Option (Except String JapaneseG2p)} {dir : Option String}
    {japanese : Option JapaneseDictionary} {vocabPath : String} {map : HashMap String Int}
    {synthConfig : SynthesisConfig}
    (hjapanese : japaneseOf build config.voices (JapaneseDictionary.fromEnv loadEngine dir) =
      .ok japanese)
    (hphonemize : resources.phonemize = phonemizeWith build textToPhonemes japanese)
    (hvocab : Vocab.load vocabPath map = .ok resources.vocab)
    (hsymbols : ∀ c ∈ outputSymbols, (map.lookup (String.ofList [c])).isSome)
    (hvoice : KokoroModel.fromConfig config resources = .ok voice)
    (hpreset : espeakLanguageForVoice (voice.voiceName synthConfig) = .ok "ja") (text : String) :
    (build.japanese = false → voice.phonemizeText synthConfig text =
      textToKokoroPhonemes build textToPhonemes text "ja") ∧
    (build.japanese = true →
      (dir = none ∧ voice.phonemizeText synthConfig text =
        .error (.phonemizationError unsetDictionaryMessage)) ∨
      ∃ path g2p groups rest, dir = some path ∧ loadEngine path = some (.ok g2p) ∧
        Terminated (fun c => endsSentence c) text.toList groups rest ∧
        (∀ error, voice.phonemizeText synthConfig text = .error error ↔
          ∃ before piece after,
            ((groups ++ [rest]).map trim).filter (!·.isEmpty) = before ++ piece :: after ∧
            (∀ earlier ∈ before, ∃ words, g2p.textToWords earlier = some (.ok words)) ∧
            g2p.phonemizeGuarded piece = .error error) ∧
        (∀ sentences, voice.phonemizeText synthConfig text = .ok sentences ↔
          ∃ readings, List.Forall₂ (fun piece words => g2p.textToWords piece = some (.ok words))
              (((groups ++ [rest]).map trim).filter (!·.isEmpty)) readings ∧
            (readings.map fun words => fitToVocab (assemble words)).filter (!·.isEmpty) =
              sentences.map String.toList) ∧
        ∀ words, Arrives voice.vocab words) := by
  constructor
  · intro hbuild
    obtain rfl := dictionary_eq_none hjapanese hbuild
    exact phonemizeText_espeak hvoice hphonemize hpreset text
  intro hbuild
  obtain ⟨opened, hopened, htext⟩ :=
    phonemizeText_japanese hvoice hphonemize hjapanese hbuild hpreset text
  cases opened with
  | unset => exact .inl ⟨fromEnv_eq_unset hopened, htext⟩
  | loaded g2p =>
      obtain ⟨path, hdir, hengine⟩ := fromEnv_eq_loaded hopened
      obtain ⟨groups, rest, hterminated, hsplit⟩ := exists_splitSentences text.toList
      refine .inr ⟨path, g2p, groups, rest, hdir, hengine, hterminated, ?_, ?_, ?_⟩
      · intro error
        rw [htext, ← hsplit, ← phonemize_eq_error_iff, JapaneseDictionary.phonemize]
        cases g2p.phonemize text.toList <;> simp [Except.map]
      · intro sentences
        rw [htext, ← hsplit, ← phonemize_eq_ok_iff, JapaneseDictionary.phonemize]
        cases g2p.phonemize text.toList with
        | error error => simp [Except.map]
        | ok spelled =>
            have htexts : spelled.map String.ofList = sentences ↔
                spelled = sentences.map String.toList := by
              constructor
              · rintro rfl
                simp [Function.comp_def]
              · rintro rfl
                simp [Function.comp_def]
            simp [Except.map, htexts]
      · obtain ⟨rfl, -, hbounded⟩ := Vocab.load_ok hvocab
        rw [← resources_of_fromConfig hvoice] at hbounded hsymbols
        exact arrives hbounded hsymbols

/-- A vocabulary of the symbols of the output and the frame. -/
def outputVocab : HashMap String Int :=
  HashMap.fromIter (('$' :: outputSymbols).map fun c => (String.ofList [c], (c.toNat : Int)))

theorem lookup_outputVocab : ∀ c ∈ '$' :: outputSymbols,
    outputVocab.lookup (String.ofList [c]) = some (c.toNat : Int) := by
  intro c hc
  refine HashMap.lookup_fromIter_of_unique (List.mem_map_of_mem hc) fun id hid => ?_
  obtain ⟨other, -, heq⟩ := List.mem_map.mp hid
  obtain ⟨hother, rfl⟩ := Prod.ext_iff.mp heq
  have hsymbol := congrArg String.toList hother
  rw [String.toList_ofList, String.toList_ofList] at hsymbol
  rw [(List.cons.inj hsymbol).1]

/-- A word and a mark that an engine may read. -/
def hai : List Word := [⟨['は', 'い'], ['ハ', 'イ'], 2, false⟩, ⟨['。'], ['、'], 0, false⟩]

/-- An engine that reads every text as the same two words. -/
def haiG2p : JapaneseG2p := ⟨fun _ => some (.ok hai)⟩

/-- A build with all features. -/
def haiBuild : Build := ⟨⟨true, true, true, true⟩, true⟩

/-- A configuration with one Japanese preset. -/
def haiConfig : KokoroVoiceConfig := ⟨24000, ["jf_alpha"]⟩

/-- A voice that reads with that engine and speaks no samples. -/
def haiResources : KokoroResources where
  vocab := ⟨outputVocab, 36, (outputVocab.keys.map fun token => token.toList.length).max?.getD 1⟩
  voiceStyles := ⟨∅⟩
  phonemize := phonemizeWith haiBuild (fun text _ => .ok [text]) (some (.loaded haiG2p))
  session _ _ _ := .ok []

theorem japanese_text_arrives_hai : ∃ voice, KokoroModel.fromConfig haiConfig haiResources = .ok voice ∧
    (∀ error, voice.phonemizeText .default "はい。" ≠ .error error) ∧ Arrives voice.vocab hai := by
  have hframe : outputVocab.lookup "$" = some 36 := lookup_outputVocab '$' List.mem_cons_self
  have hvocab : Vocab.load "tokenizer.json" outputVocab = .ok haiResources.vocab := by
    rw [Vocab.load, hframe]
    rfl
  have hsymbols : ∀ c ∈ outputSymbols, (outputVocab.lookup (String.ofList [c])).isSome :=
    fun c hc => Option.isSome_of_eq_some (lookup_outputVocab c (List.mem_cons_of_mem _ hc))
  refine ⟨_, rfl, ?_⟩
  obtain ⟨hunset, -⟩ | ⟨path, g2p, groups, rest, -, hengine, -, herror, -, harrives⟩ :=
    (@japanese_text_arrives haiConfig haiResources _ haiBuild (fun text _ => .ok [text])
      (fun _ => some (.ok haiG2p)) (some "/opt/naist-jdic") _ _ _ .default rfl rfl hvocab hsymbols
      rfl rfl "はい。").2 rfl
  · cases hunset
  · cases hengine
    refine ⟨fun error h => ?_, harrives hai⟩
    obtain ⟨before, piece, after, -, -, hpiece⟩ := (herror error).mp h
    cases hpiece

end Dengjen.Kokoro

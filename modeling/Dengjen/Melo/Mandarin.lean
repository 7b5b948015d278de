import Dengjen.General.Traversals
import Dengjen.Melo.Transport
import Dengjen.Pinyin.Syllables

/-!
# Mandarin sentences

A Mandarin text is cut into sentences, and the tokens of each go to the synthesis as
the text of their pairs. That text tells which tokens they were.
-/

namespace Dengjen.Melo

open Pinyin

/-! ## Sentences -/

theorem terminated_foldl_pushSentence {all : List Char} {state : List (List Char) × List Char}
    (h : Terminated (fun c => endsSentence c) all state.1 state.2) (text : List Char) :
    Terminated (fun c => endsSentence c) (all ++ text) (text.foldl pushSentence state).1
      (text.foldl pushSentence state).2 := by
  induction text generalizing all state with
  | nil =>
      rw [List.append_nil]
      exact h
  | cons c rest ih =>
      have hnext : Terminated (fun c => endsSentence c) (all ++ [c]) (pushSentence state c).1
          (pushSentence state c).2 := by
        rw [pushSentence]
        split
        · next hend => exact h.push_end hend
        · next hend => exact h.push hend
      have hrest := ih hnext
      rw [List.append_assoc] at hrest
      exact hrest

/-- The sentences are the text cut behind each terminator, with what follows the last one. -/
theorem exists_terminated (text : List Char) : ∃ groups rest,
    Terminated (fun c => endsSentence c) text groups rest ∧
      splitIntoSentences text = groups ++ if rest = [] then [] else [rest] := by
  have hterminated : Terminated (fun c => endsSentence c) ([] ++ text)
      (text.foldl pushSentence ([], [])).1 (text.foldl pushSentence ([], [])).2 :=
    terminated_foldl_pushSentence (Terminated.nil _) text
  refine ⟨_, _, hterminated, ?_⟩
  rw [splitIntoSentences]
  dsimp only
  split
  · next hnil => rw [if_pos (List.isEmpty_iff.mp hnil), List.append_nil]
  · next hne => rw [if_neg (mt List.isEmpty_iff.mpr hne)]

/-! ## Readings -/

/-- The JSON dictionaries of a model hold no line feed. -/
structure Lineless (dir : ModelDir) : Prop where
  readings : ∀ raw parsed, dir.parseReadings raw = .ok parsed →
    ∀ key values, parsed.lookup key = some values → ∀ value ∈ values, '\n' ∉ value.toList
  pinyin : ∀ raw parsed, dir.parsePinyin raw = .ok parsed →
    ∀ key value, parsed.lookup key = some value → '\n' ∉ value.toList

variable {tables : CharTables} {dir : ModelDir} {engine : PinyinEngine}

theorem newline_notMem_of_readPair {path : String} {line : List Char} {pair : Char × String}
    (hline : '\n' ∉ line) (h : readPair tables path line = .ok pair) : '\n' ∉ pair.2.toList := by
  rw [readPair] at h
  split at h
  · cases h
  · cases h
    rw [String.toList_ofList]
    intro hmem
    exact hline ((List.dropWhile_sublist _).subset (List.mem_of_mem_tail hmem))

theorem newline_notMem_of_read {path : String} {pairs : List (Char × String)}
    (h : readTabSeparatedCharStringPairs tables dir path = .ok pairs) :
    ∀ pair ∈ pairs, '\n' ∉ pair.2.toList := by
  rw [readTabSeparatedCharStringPairs] at h
  obtain ⟨content, -, h⟩ := exists_of_bind_eq_ok h
  intro pair hpair
  obtain ⟨line, hline, hread⟩ := exists_of_forall₂ (mapM_eq_ok_iff.mp h) hpair
  exact newline_notMem_of_readPair (Espeak.newline_notMem_lines (List.mem_of_mem_filter hline)) hread

/-- No reading of an engine has a line feed. -/
structure NoNewlines (dictionaries : Dictionaries) : Prop where
  monophonic : ∀ c reading, dictionaries.monophonic.lookup c = some reading →
    '\n' ∉ reading.toList
  charBopomofo : ∀ c reading, dictionaries.charBopomofo.lookup c = some reading →
    '\n' ∉ reading.toList
  polyphonicChars : ∀ pair ∈ dictionaries.polyphonicChars, '\n' ∉ pair.2.toList

theorem noNewlines_of_loadDictionaries (hdir : Lineless dir)
    {monophonicPath polyphonicPath charBopomofoPath : String} {dictionaries : Dictionaries}
    (h : loadDictionaries tables dir monophonicPath polyphonicPath charBopomofoPath =
      .ok dictionaries) : NoNewlines dictionaries := by
  rw [loadDictionaries] at h
  obtain ⟨monophonic, hmonophonic, h⟩ := exists_of_bind_eq_ok h
  obtain ⟨polyphonicChars, hpolyphonic, h⟩ := exists_of_bind_eq_ok h
  obtain ⟨raw, -, h⟩ := exists_of_bind_eq_ok h
  obtain ⟨parsed, hparsed, h⟩ := exists_of_bind_eq_ok h
  cases h
  constructor
  · intro c reading hlookup
    exact newline_notMem_of_read hmonophonic (c, reading)
      (HashMap.mem_of_lookup_fromIter hlookup)
  · intro c reading hlookup
    obtain ⟨⟨key, values⟩, hentry, hfirst⟩ :=
      List.mem_filterMap.mp (HashMap.mem_of_lookup_fromIter hlookup)
    obtain ⟨c', -, hfirst⟩ := Option.bind_eq_some_iff.mp hfirst
    obtain ⟨first, hhead, hfirst⟩ := Option.bind_eq_some_iff.mp hfirst
    cases hfirst
    exact hdir.readings raw parsed (mapError_eq_ok hparsed) key values
      (HashMap.mem_iter.mp hentry) reading (List.mem_of_head? hhead)
  · exact newline_notMem_of_read hpolyphonic

/-- A label is predicted from those of the lines. -/
theorem mem_labels_of_resolveChar (h : Indexed engine) {chars : List Char}
    {charIndex : Nat} {c : Char} {label : String} (hc : chars[charIndex]? = some c)
    (hreadings : engine.readings c ≠ [])
    (hlabel : engine.resolveChar tables chars charIndex = .ok (some label)) :
    label ∈ engine.labels := by
  cases hinputs : engine.g2pw.modelInputs tables chars charIndex with
  | error error =>
      rw [h.resolveChar_of_error hc hreadings hinputs] at hlabel
      cases hlabel
  | ok inputs =>
      obtain ⟨label', tensor, hsome, -, hpredicts⟩ := (h.answer hc hreadings hinputs _).mp hlabel
      cases hsome
      obtain ⟨i, score, -, hlabel⟩ := hpredicts.greatest
      exact List.mem_of_getElem? hlabel

theorem newline_notMem_of_resolveChar (hindexed : Indexed engine)
    (hnewlines : NoNewlines engine.dictionaries) {chars : List Char} {charIndex : Nat}
    {reading : String} (h : engine.resolveChar tables chars charIndex = .ok (some reading)) :
    '\n' ∉ reading.toList := by
  cases hc : chars[charIndex]? with
  | none =>
      rw [PinyinEngine.resolveChar, hc] at h
      cases h
  | some c =>
      by_cases hreadings : engine.readings c = []
      · have hmono : ¬ engine.g2pw.config.isPolyphonic c :=
          fun hpoly => hindexed.isPolyphonic_iff.mp hpoly hreadings
        rw [PinyinEngine.resolveChar, hc] at h
        simp only [if_neg hmono, Except.ok.injEq, resolveCharDictionaryOnly] at h
        rcases Option.or_eq_some_iff.mp h with hlookup | ⟨-, hlookup⟩
        · exact hnewlines.monophonic c reading hlookup
        · exact hnewlines.charBopomofo c reading hlookup
      · have hlabel := mem_labels_of_resolveChar hindexed hc hreadings h
        obtain ⟨c', hreading⟩ := (hindexed.mem_labels reading).mp hlabel
        obtain ⟨pair, hpair, rfl⟩ := List.mem_map.mp hreading
        exact hnewlines.polyphonicChars pair (List.mem_of_mem_filter hpair)

/-! ## Tokens -/

/-- A token as the engine makes it, without a line feed. -/
def Lined : PinyinToken → Prop
  | .syllable initial finale tone => IsSyllable initial finale tone
  | .passthrough text => '\n' ∉ text

theorem convertBopomofoToPinyin_eq_some {bopomofo pinyin : List Char}
    {dict : HashMap String String} (h : convertBopomofoToPinyin bopomofo dict = some pinyin) :
    ∃ key value tone, dict.lookup key = some value ∧ tone.isDigit ∧
      pinyin = value.toList ++ [tone] := by
  rw [convertBopomofoToPinyin] at h
  obtain ⟨tone, -, h⟩ := Option.bind_eq_some_iff.mp h
  split at h
  · next htone =>
      obtain ⟨value, hlookup, rfl⟩ := Option.map_eq_some_iff.mp h
      exact ⟨_, value, tone, hlookup, htone, rfl⟩
  · cases h

theorem lined_readingToken {bopomofo : List Char} {dict : HashMap String String}
    (hbopomofo : '\n' ∉ bopomofo)
    (hdict : ∀ key value, dict.lookup key = some value → '\n' ∉ value.toList) :
    Lined (readingToken dict bopomofo) := by
  rw [readingToken]
  split
  · exact hbopomofo
  · next pinyin hpinyin =>
      split
      · obtain ⟨key, value, tone, hlookup, htone, rfl⟩ := convertBopomofoToPinyin_eq_some hpinyin
        rw [Lined, List.mem_append, not_or, List.mem_singleton]
        refine ⟨hdict key value hlookup, ?_⟩
        rintro rfl
        exact absurd htone (by decide)
      · next initial finale tone hsplit => exact (splitInitialFinalTone_eq_some hsplit).2

/-- Whatever every token that can be pushed has, all tokens of a sentence have. -/
theorem forall_phonemizeSentenceTokens {motive : PinyinToken → Prop} {sentence : List Char}
    {tokens : List PinyinToken}
    (hpunctuation : ∀ c, isPassthroughPunctuation c → motive (.passthrough [c]))
    (hreading : ∀ charIndex reading,
      engine.resolveChar tables sentence charIndex = .ok (some reading) →
        motive (readingToken engine.bopomofoToPinyin reading.toList))
    (h : engine.phonemizeSentenceTokens tables sentence = .ok tokens) :
    ∀ token ∈ tokens, motive token := by
  have hrun : ∀ (entries : List (Char × Nat)) (before tokens : List PinyinToken),
      (∀ token ∈ before, motive token) →
      entries.foldlM (engine.pushToken tables sentence) before = .ok tokens →
        ∀ token ∈ tokens, motive token := by
    intro entries
    induction entries with
    | nil =>
        intro before tokens hbefore h
        cases h
        exact hbefore
    | cons entry rest ih =>
        intro before tokens hbefore h
        rw [List.foldlM_cons] at h
        obtain ⟨next, hnext, h⟩ := exists_of_bind_eq_ok h
        refine ih next tokens ?_ h
        rw [PinyinEngine.pushToken] at hnext
        obtain ⟨reading, hresolved, hnext⟩ := exists_of_bind_eq_ok hnext
        cases reading with
        | none =>
            cases hnext
            split
            · next hpass =>
                rw [List.forall_mem_append, List.forall_mem_singleton]
                exact ⟨hbefore, hpunctuation entry.1 hpass⟩
            · exact hbefore
        | some reading =>
            cases hnext
            rw [List.forall_mem_append, List.forall_mem_singleton]
            exact ⟨hbefore, hreading entry.2 reading hresolved⟩
  exact hrun sentence.zipIdx [] tokens (List.forall_mem_nil _) h

theorem Lined.proper {token : PinyinToken} (h : Lined token) : token.Proper := by
  cases token with
  | syllable initial finale tone => exact h
  | passthrough text => trivial

theorem newline_notMem_of_isLower {text : List Char} (h : ∀ c ∈ text, c.isLower) : '\n' ∉ text :=
  fun hmem => absurd (h '\n' hmem) (by decide)

theorem transportable_phonePair {phone : List Char} {tone : Char} (hphone : '\n' ∉ phone)
    (htone : tone.isDigit) : Transportable (phonePair phone tone) where
  phone := by
    rw [phonePair, String.toList_ofList]
    exact hphone
  tone := by
    simp only [phonePair, String.toList_singleton, List.mem_singleton]
    rintro rfl
    exact absurd htone (by decide)
  tone_colon := by
    simp only [phonePair, String.toList_singleton, List.mem_singleton]
    rintro rfl
    exact absurd htone (by decide)

/-- The pairs of such a token go through the text of a sentence. -/
theorem Lined.transportable {token : PinyinToken} (h : Lined token) :
    ∀ pair ∈ phoneTonePairs token, Transportable pair := by
  cases token with
  | passthrough text =>
      intro pair hpair
      obtain rfl := List.mem_singleton.mp hpair
      have htone : '\n' ∉ "_".toList ∧ ':' ∉ "_".toList := by decide
      refine ⟨?_, htone.1, htone.2⟩
      rw [String.toList_ofList]
      exact h
  | syllable initial finale tone =>
      have hsyllable : IsSyllable initial finale tone := h
      have hinitial := newline_notMem_of_isLower fun c hc =>
        hsyllable.letters c (List.mem_append_left finale hc)
      have hfinale := newline_notMem_of_isLower fun c hc =>
        hsyllable.letters c (List.mem_append_right initial hc)
      rw [phoneTonePairs_syllable]
      split
      · rw [List.forall_mem_singleton]
        exact transportable_phonePair hfinale hsyllable.tone.1
      · rw [List.forall_mem_cons, List.forall_mem_singleton]
        exact ⟨transportable_phonePair hinitial hsyllable.tone.1,
          transportable_phonePair hfinale hsyllable.tone.1⟩

/-! ## What the synthesis is given -/

/-- What `phonemize_text` writes of the tokens of a sentence. -/
def encodeTokens (tokens : List PinyinToken) : String := encodePairs (tokens.flatMap phoneTonePairs)

/-- The tokens of the sentences of a text, of which both kinds of voices can read what they were. -/
structure Carried (tables : CharTables) (engine : PinyinEngine) (text : List Char)
    (sentences : List (List PinyinToken)) : Prop where
  cut : ∃ groups rest,
    Terminated (fun c => endsSentence c) (stripQuotationMarks text) groups rest ∧
      List.Forall₂ (fun part tokens =>
          engine.phonemizeSentenceTokens tables (normalizeNumbers part) = .ok tokens)
        (groups ++ if rest = [] then [] else [rest]) sentences
  lined : ∀ tokens ∈ sentences, ∀ token ∈ tokens, Lined token
  decoded : ∀ tokens ∈ sentences, decodePairs (encodeTokens tokens) = tokens.flatMap phoneTonePairs
  melo : ∀ tokens ∈ sentences, ∀ tokens', (∀ token ∈ tokens', Lined token) →
    encodeTokens tokens' = encodeTokens tokens → tokens' = tokens
  piper : ∀ tokens ∈ sentences, ∀ tokens', (∀ token ∈ tokens, token.Plain) →
    (∀ token ∈ tokens', token.Plain) →
      PinyinEngine.flattenTokens tokens' = PinyinEngine.flattenTokens tokens → tokens' = tokens

theorem decodePairs_encodeTokens {tokens : List PinyinToken} (h : ∀ token ∈ tokens, Lined token) :
    decodePairs (encodeTokens tokens) = tokens.flatMap phoneTonePairs := by
  apply decodePairs_encodePairs
  intro pair hpair
  obtain ⟨token, htoken, hpair⟩ := List.mem_flatMap.mp hpair
  exact (h token htoken).transportable pair hpair

theorem encodeTokens_inj {tokens tokens' : List PinyinToken} (h : ∀ token ∈ tokens, Lined token)
    (h' : ∀ token ∈ tokens', Lined token) (heq : encodeTokens tokens' = encodeTokens tokens) :
    tokens' = tokens := by
  have hpairs : tokens'.flatMap phoneTonePairs = tokens.flatMap phoneTonePairs := by
    rw [← decodePairs_encodeTokens h', heq, decodePairs_encodeTokens h]
  exact prefixCode_phoneTonePairs.flatMap_inj (fun token htoken => (h' token htoken).proper)
    (fun token htoken => (h token htoken).proper) hpairs

theorem carried_textToPinyinTokens (hindexed : Indexed engine)
    (hnewlines : NoNewlines engine.dictionaries)
    (hpinyin : ∀ key value, engine.bopomofoToPinyin.lookup key = some value → '\n' ∉ value.toList)
    {text : List Char} {sentences : List (List PinyinToken)}
    (h : engine.textToPinyinTokens tables text = .ok sentences) :
    Carried tables engine text sentences := by
  rw [PinyinEngine.textToPinyinTokens] at h
  have hsentences := mapM_eq_ok_iff.mp h
  have hlined : ∀ tokens ∈ sentences, ∀ token ∈ tokens, Lined token := by
    intro tokens htokens
    obtain ⟨part, -, hpart⟩ := exists_of_forall₂ hsentences htokens
    refine forall_phonemizeSentenceTokens ?_ ?_ hpart
    · intro c hc
      rw [Lined, List.mem_singleton]
      rintro rfl
      exact absurd hc (by decide)
    · exact fun _ reading hreading =>
        lined_readingToken (newline_notMem_of_resolveChar hindexed hnewlines hreading) hpinyin
  constructor
  · obtain ⟨groups, rest, hterminated, hsplit⟩ := exists_terminated (stripQuotationMarks text)
    refine ⟨groups, rest, hterminated, ?_⟩
    rw [← hsplit]
    exact List.forall₂_map_left_iff.mp hsentences
  · exact hlined
  · exact fun tokens htokens => decodePairs_encodeTokens (hlined tokens htokens)
  · exact fun tokens htokens tokens' hlined' heq =>
      encodeTokens_inj (hlined tokens htokens) hlined' heq
  · exact fun _ _ _ hplain hplain' heq => prefixCode_tokenText.flatMap_inj hplain' hplain heq

/-- A directory that has one character with one reading. -/
def haoDir : ModelDir where
  join name := "model/" ++ name
  readToString name :=
    if name = "MONOPHONIC_CHARS.txt" then
      .ok ['\u597D', '\t', '\u310F', '\u3120', '3', '\n']
    else .ok []
  parseReadings _ := .ok ∅
  parsePinyin _ := .ok (AList.singleton (String.ofList ['\u310F', '\u3120']) "hao")

/-- An engine that knows one character. -/
def haoEngine : PinyinEngine where
  g2pw := pinyinEngine charTokenizer (phonemeLabels []) (getPhonemeLabels []).2
  session := xingSession
  dictionaries :=
    ⟨HashMap.fromIter [('\u597D', String.ofList ['\u310F', '\u3120', '3'])], HashMap.fromIter [], []⟩
  bopomofoToPinyin := AList.singleton (String.ofList ['\u310F', '\u3120']) "hao"

theorem lineless_haoDir : Lineless haoDir where
  readings raw parsed h key values hlookup := by
    cases h
    cases hlookup
  pinyin raw parsed h key value hlookup := by
    cases h
    have hmem := AList.mem_lookup_iff.mp hlookup
    obtain ⟨rfl, heq⟩ := Sigma.mk.inj (List.mem_singleton.mp hmem)
    cases heq
    decide

/-- A voice that reads with this engine and speaks no samples. -/
def haoVoice : MeloTTSModel where
  config := colonVoice.config
  phoneTonePairs := haoEngine.pinyinPhoneTonePairs .dottedI
  session _ := .ok []

end Dengjen.Melo

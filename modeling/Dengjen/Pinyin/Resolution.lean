import Dengjen.Pinyin.Dictionaries

/-!
# The resolution of a character

A character without a polyphonic line is looked up in the dictionaries. For another one
the model is asked, with a mask of its own readings, and what it answers is a reading of
the character as long as it favours these.
-/

namespace Dengjen.Pinyin

namespace PinyinEngine

/-- The readings that the model chooses from. -/
def labels (engine : PinyinEngine) : List String := engine.g2pw.config.labels

/-- The readings that the engine knows of a polyphonic character. -/
def readings (engine : PinyinEngine) (c : Char) : List String :=
  Pinyin.readings engine.dictionaries.polyphonicChars c

end PinyinEngine

/-- The labels and the characters of an engine are in order, and no others than those of its
lines. -/
structure Indexed (engine : PinyinEngine) : Prop where
  labels_sorted : engine.labels.SortedLT
  mem_labels : ∀ label, label ∈ engine.labels ↔ ∃ c, label ∈ engine.readings c
  chars_sorted : engine.g2pw.config.chars.SortedLT
  mem_chars : ∀ c, c ∈ engine.g2pw.config.chars ↔ engine.readings c ≠ []
  ready : engine.g2pw.config.Ready
  candidates : ∀ c, engine.g2pw.config.char2phonemes.lookup c =
    if engine.readings c = [] then none else some ((engine.readings c).map engine.labels.idxOf)

/-- How the resolution of a polyphonic character goes: the tokenizer fails, or the lower case has a
space in its place, or the model is asked about the character with a mask of its readings. -/
inductive Asked (tables : CharTables) (engine : PinyinEngine) (chars : List Char)
    (charIndex : Nat) (c : Char) : Prop
  | tokenizer (detail : String) (h : engine.resolveChar tables chars charIndex =
      .error (.phonemizationError ("g2pW tokenizer failed to encode " ++ detail)))
  | unmapped
      (space : (tables.toLowercase (engine.g2pw.config.window chars charIndex).1)[
        (engine.g2pw.config.window chars charIndex).2]? = some ' ')
      (h : engine.resolveChar tables chars charIndex =
        .error (G2pwEngine.noTokenMapping (engine.g2pw.config.window chars charIndex).2))
  | asked (inputs : G2pwEngine.ModelInputs)
      (h : engine.g2pw.modelInputs tables chars charIndex = .ok inputs)
      (char : engine.g2pw.config.chars[inputs.charIds]? = some c)
      (mask : ∀ (j : Nat) label, engine.labels[j]? = some label →
        inputs.phonemeMask[j]? = some (if label ∈ engine.readings c then one else zero))
      (answer : ∀ reading, engine.resolveChar tables chars charIndex = .ok reading ↔
        ∃ label tensor, reading = some label ∧ AnswersWith (engine.session.run inputs) tensor ∧
          Predicts engine.labels tensor label)
      (failure : ∀ error, engine.resolveChar tables chars charIndex = .error error →
        ∃ cause, error = inferenceError cause)

/-- A character of a sentence is resolved by the dictionaries or by the model. -/
structure Resolution (tables : CharTables) (engine : PinyinEngine) (chars : List Char)
    (charIndex : Nat) (c : Char) : Prop where
  monophonic : engine.readings c = [] → engine.resolveChar tables chars charIndex =
    .ok (resolveCharDictionaryOnly engine.dictionaries c)
  polyphonic : engine.readings c ≠ [] → Asked tables engine chars charIndex c
  /-- The reading is one of the character where the model favours these. -/
  favoured : ∀ inputs tensor label, engine.readings c ≠ [] →
    engine.g2pw.modelInputs tables chars charIndex = .ok inputs →
    AnswersWith (engine.session.run inputs) tensor →
    Favours engine.labels (engine.readings c) tensor →
    engine.resolveChar tables chars charIndex = .ok (some label) → label ∈ engine.readings c

variable {tables : CharTables} {engine : PinyinEngine} {chars : List Char} {charIndex : Nat}

theorem mapError_eq_ok {ε ε' α : Type*} {f : ε → ε'} {result : Except ε α} {a : α}
    (h : result.mapError f = .ok a) : result = .ok a := by
  cases result with
  | error => cases h
  | ok =>
      cases h
      rfl

/-- What a new engine holds. -/
structure Created (tables : CharTables) (dir : ModelDir) (engine : PinyinEngine) : Prop where
  dictionaries : loadDictionaries tables dir "MONOPHONIC_CHARS.txt" "POLYPHONIC_CHARS.txt"
    "char_bopomofo_dict.json" = .ok engine.dictionaries
  g2pw : ∃ tokenizer, engine.g2pw =
    pinyinEngine tokenizer (phonemeLabels engine.dictionaries.polyphonicChars)
      (getPhonemeLabels engine.dictionaries.polyphonicChars).2
  bopomofoToPinyin : ∃ raw, dir.parsePinyin raw = .ok engine.bopomofoToPinyin

theorem created_of_createPinyinEngine {dir : ModelDir}
    {loaded : DengjenResult (OrtSession G2pwEngine.ModelInputs × Tokenizer)}
    (h : createPinyinEngine tables dir loaded = .ok engine) : Created tables dir engine := by
  rw [createPinyinEngine] at h
  obtain ⟨dictionaries, hdictionaries, h⟩ := exists_of_bind_eq_ok h
  obtain ⟨⟨session, tokenizer⟩, -, h⟩ := exists_of_bind_eq_ok h
  obtain ⟨raw, -, h⟩ := exists_of_bind_eq_ok h
  obtain ⟨bopomofoToPinyin, hparsed, h⟩ := exists_of_bind_eq_ok h
  cases h
  exact ⟨hdictionaries, ⟨tokenizer, rfl⟩, raw, mapError_eq_ok hparsed⟩

theorem indexed_of_g2pw {tokenizer : Tokenizer}
    (h : engine.g2pw = pinyinEngine tokenizer (phonemeLabels engine.dictionaries.polyphonicChars)
      (getPhonemeLabels engine.dictionaries.polyphonicChars).2) : Indexed engine := by
  have hlookup := lookup_getPhonemeLabels engine.dictionaries.polyphonicChars
  have hlabels : engine.labels = phonemeLabels engine.dictionaries.polyphonicChars := by
    rw [PinyinEngine.labels, h]
    rfl
  constructor
  · rw [hlabels]
    exact sortedLT_phonemeLabels _
  · rw [hlabels]
    exact fun label => mem_phonemeLabels
  · rw [h]
    exact sortedLT_chars _ _
  · intro c
    rw [h]
    refine List.mem_mergeSort.trans (AList.lookup_isSome.symm.trans ?_)
    rw [hlookup, PinyinEngine.readings]
    split
    · next hnil => simp [hnil]
    · next hne => simp [hne]
  · rw [h]
    exact ready_pinyinConfig _ _
  · intro c
    rw [hlabels, h]
    exact hlookup c

theorem modelInputs_ok {inputs : G2pwEngine.ModelInputs} {g2pw : G2pwEngine} {c : Char}
    {candidates : List Nat} (hc : chars[charIndex]? = some c)
    (hcandidates : g2pw.config.char2phonemes.lookup c = some candidates)
    (h : g2pw.modelInputs tables chars charIndex = .ok inputs) :
    inputs.phonemeMask = buildPhonemeMask g2pw.config.labels candidates ∧
      g2pw.config.charsIndex c = .ok inputs.charIds := by
  simp only [G2pwEngine.modelInputs, hc, hcandidates] at h
  generalize g2pw.tokensAround tables (g2pw.config.window chars charIndex).1
    (g2pw.config.window chars charIndex).2 = around at h
  cases around with
  | error error => cases h
  | ok kept =>
      cases hindex : g2pw.config.charsIndex c with
      | error error =>
          rw [hindex] at h
          cases h
      | ok index =>
          rw [hindex] at h
          cases h
          exact ⟨rfl, rfl⟩

theorem getElem?_of_charsIndex {config : G2pwConfig} {c : Char} {index : Nat}
    (h : config.charsIndex c = .ok index) : config.chars[index]? = some c := by
  rw [G2pwConfig.charsIndex] at h
  split at h
  · next hindex =>
      cases h
      obtain ⟨hlt, heq, -⟩ := List.idxOf?_eq_some_iff.mp hindex
      rw [List.getElem?_eq_getElem hlt, heq]
  · cases h

theorem resolveChar_of_polyphonic {c : Char} (hc : chars[charIndex]? = some c)
    (hpoly : engine.g2pw.config.isPolyphonic c) :
    engine.resolveChar tables chars charIndex =
      (engine.resolvePolyphonic tables chars charIndex).map some := by
  rw [PinyinEngine.resolveChar, hc]
  simp only [if_pos hpoly]
  cases engine.resolvePolyphonic tables chars charIndex <;> rfl

namespace Indexed

variable {c : Char}

theorem isPolyphonic_iff (h : Indexed engine) :
    engine.g2pw.config.isPolyphonic c ↔ engine.readings c ≠ [] := by
  rw [G2pwConfig.isPolyphonic, h.candidates]
  split
  · next hnil => simp [hnil]
  · next hne => simp [hne]

theorem mem_candidates_iff (h : Indexed engine) {j : Nat} {label : String}
    (hlabel : engine.labels[j]? = some label) :
    j ∈ (engine.readings c).map engine.labels.idxOf ↔ label ∈ engine.readings c := by
  obtain ⟨hlt, heq⟩ := List.getElem?_eq_some_iff.mp hlabel
  have hidx : engine.labels.idxOf label = j := by
    rw [← heq]
    exact h.labels_sorted.nodup.idxOf_getElem j hlt
  rw [List.mem_map]
  constructor
  · rintro ⟨reading, hreading, hplace⟩
    have hmem : reading ∈ engine.labels := (h.mem_labels reading).mpr ⟨c, hreading⟩
    obtain rfl := (List.idxOf_inj hmem).mp (hplace.trans hidx.symm)
    exact hreading
  · exact fun hreading => ⟨label, hreading, hidx⟩

theorem mask (h : Indexed engine) {inputs : G2pwEngine.ModelInputs}
    (hc : chars[charIndex]? = some c) (hreadings : engine.readings c ≠ [])
    (hinputs : engine.g2pw.modelInputs tables chars charIndex = .ok inputs) {j : Nat}
    {label : String} (hlabel : engine.labels[j]? = some label) :
    inputs.phonemeMask[j]? = some (if label ∈ engine.readings c then one else zero) := by
  have hcandidates := h.candidates c
  rw [if_neg hreadings] at hcandidates
  obtain ⟨hlt, -⟩ := List.getElem?_eq_some_iff.mp hlabel
  have hmask := (modelInputs_ok hc hcandidates hinputs).1
  rw [hmask]
  refine (getElem?_buildPhonemeMask hlt).trans ?_
  simp only [h.mem_candidates_iff hlabel]

theorem labels_ne_nil (h : Indexed engine) (hreadings : engine.readings c ≠ []) :
    engine.labels ≠ [] := by
  obtain ⟨reading, hreading⟩ := List.exists_mem_of_ne_nil _ hreadings
  exact List.ne_nil_of_mem ((h.mem_labels reading).mpr ⟨c, hreading⟩)

/-- Behind the inputs only the session decides. -/
theorem resolveChar_eq (h : Indexed engine) {inputs : G2pwEngine.ModelInputs}
    (hc : chars[charIndex]? = some c) (hreadings : engine.readings c ≠ [])
    (hinputs : engine.g2pw.modelInputs tables chars charIndex = .ok inputs) :
    engine.resolveChar tables chars charIndex =
      (readOutputs engine.session.debugShape engine.labels (engine.session.run inputs)).map some := by
  rw [resolveChar_of_polyphonic hc (h.isPolyphonic_iff.mpr hreadings),
    PinyinEngine.resolvePolyphonic, G2pwEngine.resolvePolyphonic, hinputs]
  rfl

theorem answer (h : Indexed engine) {inputs : G2pwEngine.ModelInputs}
    (hc : chars[charIndex]? = some c) (hreadings : engine.readings c ≠ [])
    (hinputs : engine.g2pw.modelInputs tables chars charIndex = .ok inputs)
    (reading : Option String) : engine.resolveChar tables chars charIndex = .ok reading ↔
      ∃ label tensor, reading = some label ∧ AnswersWith (engine.session.run inputs) tensor ∧
        Predicts engine.labels tensor label := by
  rw [h.resolveChar_eq hc hreadings hinputs]
  rcases readOutputs_cases engine.session.debugShape (h.labels_ne_nil hreadings)
      (engine.session.run inputs) with
    ⟨label, tensor, hlabel, hanswers, hpredicts⟩ | ⟨⟨cause, hcause⟩, hnone⟩
  · rw [hlabel]
    constructor
    · rintro ⟨⟩
      exact ⟨label, tensor, rfl, hanswers, hpredicts⟩
    · rintro ⟨label', tensor', rfl, ⟨others', hanswers'⟩, hpredicts'⟩
      obtain ⟨others, hanswers⟩ := hanswers
      cases hanswers.symm.trans hanswers'
      rw [hpredicts.unique hpredicts']
      rfl
  · rw [hcause]
    constructor
    · rintro ⟨⟩
    · rintro ⟨label, tensor, -, hanswers, hpredicts⟩
      exact absurd hpredicts (hnone tensor hanswers label)

theorem failure (h : Indexed engine) {inputs : G2pwEngine.ModelInputs} {error : DengjenError}
    (hc : chars[charIndex]? = some c) (hreadings : engine.readings c ≠ [])
    (hinputs : engine.g2pw.modelInputs tables chars charIndex = .ok inputs)
    (herror : engine.resolveChar tables chars charIndex = .error error) :
    ∃ cause, error = inferenceError cause := by
  rw [h.resolveChar_eq hc hreadings hinputs] at herror
  rcases readOutputs_cases engine.session.debugShape (h.labels_ne_nil hreadings)
      (engine.session.run inputs) with ⟨label, tensor, hlabel, -, -⟩ | ⟨⟨cause, hcause⟩, -⟩
  · rw [hlabel] at herror
    cases herror
  · rw [hcause] at herror
    cases herror
    exact ⟨cause, rfl⟩

/-- Without inputs the resolution fails with what the inputs fail with. -/
theorem resolveChar_of_error (h : Indexed engine) {error : DengjenError}
    (hc : chars[charIndex]? = some c) (hreadings : engine.readings c ≠ [])
    (hinputs : engine.g2pw.modelInputs tables chars charIndex = .error error) :
    engine.resolveChar tables chars charIndex = .error error := by
  rw [resolveChar_of_polyphonic hc (h.isPolyphonic_iff.mpr hreadings),
    PinyinEngine.resolvePolyphonic, G2pwEngine.resolvePolyphonic, hinputs]
  rfl

theorem asked (h : Indexed engine) (hsplits : engine.g2pw.tokenizer.Splits)
    (hc : chars[charIndex]? = some c) (hreadings : engine.readings c ≠ []) :
    Asked tables engine chars charIndex c := by
  have hpoly := h.isPolyphonic_iff.mpr hreadings
  obtain ⟨behind, hwindow, hplace⟩ := exists_window_eq h.ready.window hc
  have hinside : (engine.g2pw.config.window chars charIndex).2 <
      (tables.toLowercase (engine.g2pw.config.window chars charIndex).1).length := by
    refine Nat.lt_of_lt_of_le ?_ (length_le_toLowercase tables _)
    rw [hwindow, hplace, List.length_append, List.length_cons]
    omega
  have hlowered := List.getElem?_eq_getElem hinside
  cases looked hsplits h.ready hc hpoly hlowered with
  | failed _ hfailed => exact .tokenizer _ (h.resolveChar_of_error hc hreadings hfailed)
  | unmapped hspace hunmapped =>
      exact .unmapped (hlowered.trans (congrArg some hspace))
        (h.resolveChar_of_error hc hreadings hunmapped)
  | reached _ hinputs _ _ _ _ _ _ =>
      have hcandidates := h.candidates c
      rw [if_neg hreadings] at hcandidates
      exact .asked _ hinputs
        (getElem?_of_charsIndex (modelInputs_ok hc hcandidates hinputs).2)
        (fun _ _ hlabel => h.mask hc hreadings hinputs hlabel)
        (fun reading => h.answer hc hreadings hinputs reading)
        (fun _ herror => h.failure hc hreadings hinputs herror)

theorem resolution (h : Indexed engine) (hsplits : engine.g2pw.tokenizer.Splits)
    (hc : chars[charIndex]? = some c) : Resolution tables engine chars charIndex c where
  monophonic hreadings := by
    have hmono : ¬ engine.g2pw.config.isPolyphonic c :=
      fun hpoly => h.isPolyphonic_iff.mp hpoly hreadings
    rw [PinyinEngine.resolveChar, hc]
    exact if_neg hmono
  polyphonic := h.asked hsplits hc
  favoured inputs tensor label hreadings hinputs hanswers hfavours hlabel := by
    obtain ⟨label', tensor', hsome, ⟨others', hanswers'⟩, hpredicts⟩ :=
      (h.answer hc hreadings hinputs _).mp hlabel
    obtain ⟨others, hanswers⟩ := hanswers
    cases hanswers.symm.trans hanswers'
    cases hsome
    exact hpredicts.mem hfavours

end Indexed

/-- Whatever files an engine is made of, every character of every sentence is resolved with the
readings that its lines give, and no other failure is met than one of the tokenizer, a shifted
space or one of the inference. -/
theorem pinyin_engine_resolves {dir : ModelDir}
    {loaded : DengjenResult (OrtSession G2pwEngine.ModelInputs × Tokenizer)}
    (h : createPinyinEngine tables dir loaded = .ok engine)
    (hsplits : engine.g2pw.tokenizer.Splits) :
    Indexed engine ∧ ∀ (chars : List Char) charIndex c, chars[charIndex]? = some c →
      Resolution tables engine chars charIndex c := by
  obtain ⟨tokenizer, hg2pw⟩ := (created_of_createPinyinEngine h).g2pw
  have hindexed := indexed_of_g2pw hg2pw
  exact ⟨hindexed, fun _ _ _ hc => hindexed.resolution hsplits hc⟩

/-- A directory whose polyphonic characters are the two readings of one. -/
def xingDir : ModelDir where
  join name := "model/" ++ name
  readToString name :=
    if name = "POLYPHONIC_CHARS.txt" then
      .ok ['\u884C', '\t', '\u3112', '2', '\n', '\n', '\u884C', '\t', '\u310F', '2', '\n']
    else .ok []
  parseReadings _ := .ok ∅
  parsePinyin _ := .ok ∅

/-- A session that gives the second label the greater score. -/
def xingSession : OrtSession G2pwEngine.ModelInputs where
  run _ := .ok [.ok ⟨[1, 2], [zero, one]⟩]
  debugShape _ := ""

/-- A character with two readings. -/
def xingLines : List (Char × String) :=
  [('\u884C', String.ofList ['\u3112', '2']), ('\u884C', String.ofList ['\u310F', '2'])]

/-- An engine that knows this character and no other. -/
def xingEngine : PinyinEngine where
  g2pw := pinyinEngine charTokenizer (phonemeLabels xingLines) (getPhonemeLabels xingLines).2
  session := xingSession
  dictionaries := ⟨∅, ∅, xingLines⟩
  bopomofoToPinyin := ∅

/-- The character is asked for between its two readings. -/
theorem pinyin_engine_resolves_xing : Indexed xingEngine ∧
    ∀ (chars : List Char) charIndex c, chars[charIndex]? = some c →
      Resolution .dottedI xingEngine chars charIndex c := by
  have hengine : createPinyinEngine .dottedI xingDir (.ok (xingSession, charTokenizer)) =
      .ok xingEngine := rfl
  exact pinyin_engine_resolves hengine splits_charTokenizer

end Dengjen.Pinyin

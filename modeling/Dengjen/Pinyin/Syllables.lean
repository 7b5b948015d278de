import Dengjen.General.PrefixCodes
import Dengjen.General.Terminated
import Dengjen.Pinyin.PlainDigits
import Dengjen.Pinyin.Resolution

/-!
# Syllables

A reading in bopomofo becomes a pinyin syllable of an initial, a finale and a tone, or
is passed through as it is. Piper voices read the tokens of a sentence as one text,
MeloTTS voices as pairs of a phone and a tone.

## Implementation notes

A text is its characters.
-/

namespace Dengjen.Pinyin

/-- The initials, of which the longer ones come first. -/
def pinyinInitials : List (List Char) :=
  ["zh", "ch", "sh", "b", "p", "m", "f", "d", "t", "n", "l", "g", "k", "h", "j", "q", "x", "r",
    "z", "c", "s", "y", "w"].map String.toList

/-- A reading in pinyin: its sound is looked up and its tone kept. -/
def convertBopomofoToPinyin (bopomofo : List Char) (dict : HashMap String String) :
    Option (List Char) := do
  let tone ← bopomofo.getLast?
  if tone.isDigit then
    (dict.lookup (String.ofList bopomofo.dropLast)).map fun pinyin => pinyin.toList ++ [tone]
  else none

/-- The first initial of the table that begins a syllable; the longer ones come first. -/
def initialOf (base : List Char) : List Char :=
  (pinyinInitials.find? fun cand => cand.isPrefixOf base).getD []

/-- A syllable in its three parts, or nothing where it is none. -/
def splitInitialFinalTone (syllable : List Char) : Option (List Char × List Char × Char) := do
  let tone ← syllable.getLast?
  let base := syllable.dropLast
  if !tone.isDigit || tone = '0' then none
  else if base.isEmpty || !base.all (fun c => c.isLower || c = 'v') then none
  else some (initialOf base, base.drop (initialOf base).length, tone)

/-- What a character is read as. -/
inductive PinyinToken
  | syllable (initial finale : List Char) (tone : Char)
  | passthrough (text : List Char)
  deriving DecidableEq, Repr

/-- A token in the symbols that the voices have. -/
def flattenToken : PinyinToken → List (List Char)
  | .syllable initial finale tone =>
      [if initial.isEmpty then ['\u00D8'] else initial, finale, [tone]]
  | .passthrough text => [text]

/-- A text without quotation marks. -/
def stripQuotationMarks (text : List Char) : List Char :=
  text.filter fun c => !(c = '\u201C' || c = '\u201D' || c = '"')

/-- The marks that end a sentence. -/
def endsSentence (c : Char) : Bool := c = '\u3002' || c = '\uFF01' || c = '\uFF1F'

/-- A character is pushed to the current sentence, which a terminator ends. -/
def pushSentence (state : List (List Char) × List Char) (c : Char) :
    List (List Char) × List Char :=
  if endsSentence c then (state.1 ++ [state.2 ++ [c]], []) else (state.1, state.2 ++ [c])

/-- The sentences of a text, each with the mark that ends it. -/
def splitIntoSentences (text : List Char) : List (List Char) :=
  let (sentences, current) := text.foldl pushSentence ([], [])
  if current.isEmpty then sentences else sentences ++ [current]

/-- The marks that are passed through. -/
def isPassthroughPunctuation (c : Char) : Bool :=
  ['\u3002', '.', '\uFF1F', '?', '\uFF01', '!', '\u2014', '\u2026', '\u3001', '\uFF0C', ',',
    '\uFF1A', ':', '\uFF1B', ';', ' '].contains c

/-- The token of a reading. -/
def readingToken (bopomofoToPinyin : HashMap String String) (bopomofo : List Char) : PinyinToken :=
  match convertBopomofoToPinyin bopomofo bopomofoToPinyin with
  | none => .passthrough bopomofo
  | some pinyin =>
      match splitInitialFinalTone pinyin with
      | none => .passthrough pinyin
      | some (initial, finale, tone) => .syllable initial finale tone

namespace PinyinEngine

variable (tables : CharTables) (engine : PinyinEngine)

/-- A character without a reading is dropped, unless it is punctuation. -/
def pushToken (chars : List Char) (tokens : List PinyinToken) (entry : Char × Nat) :
    DengjenResult (List PinyinToken) := do
  match ← engine.resolveChar tables chars entry.2 with
  | none =>
      return if isPassthroughPunctuation entry.1 then tokens ++ [.passthrough [entry.1]] else tokens
  | some bopomofo => return tokens ++ [readingToken engine.bopomofoToPinyin bopomofo.toList]

/-- A sentence is read character by character. -/
def phonemizeSentenceTokens (sentence : List Char) : DengjenResult (List PinyinToken) :=
  sentence.zipIdx.foldlM (engine.pushToken tables sentence) []

/-- The tokens of a text, sentence by sentence, with its numbers read. -/
def textToPinyinTokens (text : List Char) : DengjenResult (List (List PinyinToken)) :=
  ((splitIntoSentences (stripQuotationMarks text)).map normalizeNumbers).mapM
    (engine.phonemizeSentenceTokens tables)

/-- What a Piper voice reads of the tokens of a sentence. -/
def flattenTokens (tokens : List PinyinToken) : List Char :=
  tokens.flatMap fun token => (flattenToken token).flatten

/-- The tokens of a text as the text that a Piper voice reads. -/
def textToPinyinPhonemes (text : List Char) : DengjenResult (List String) := do
  let tokenSentences ← engine.textToPinyinTokens tables text
  return tokenSentences.map fun tokens => String.ofList (flattenTokens tokens)

end PinyinEngine

/-- The pairs of a token, in `pinyin_phone_tone_pairs`. -/
def phoneTonePairs : PinyinToken → List (String × String)
  | .syllable initial finale tone =>
      (if initial.isEmpty then [] else [(String.ofList initial, String.singleton tone)]) ++
        [(String.ofList finale, String.singleton tone)]
  | .passthrough text => [(String.ofList text, "_")]

/-- The tokens of a text as the pairs that a MeloTTS voice reads. -/
def PinyinEngine.pinyinPhoneTonePairs (tables : CharTables) (engine : PinyinEngine)
    (text : String) : DengjenResult (List (List (String × String))) := do
  let tokenSentences ← engine.textToPinyinTokens tables text.toList
  return tokenSentences.map fun tokens => tokens.flatMap phoneTonePairs

/-! ## Syllables -/

/-- A tone from one to nine behind letters of which the initial is as long as can be. -/
structure IsSyllable (initial finale : List Char) (tone : Char) : Prop where
  tone : tone.isDigit ∧ tone ≠ '0'
  letters : ∀ c ∈ initial ++ finale, c.isLower
  ne_nil : initial ++ finale ≠ []
  initial : initialOf (initial ++ finale) = initial

variable {initial finale base : List Char} {tone : Char}

theorem initialOf_begins (base : List Char) : initialOf base <+: base := by
  rw [initialOf]
  cases h : pinyinInitials.find? fun cand => cand.isPrefixOf base with
  | none => exact List.nil_prefix
  | some cand =>
      have hcand : cand.isPrefixOf base = true :=
        List.find?_some (p := fun cand : List Char => cand.isPrefixOf base) h
      exact List.isPrefixOf_iff_prefix.mp hcand

theorem initialOf_mem (h : initialOf base ≠ []) : initialOf base ∈ pinyinInitials := by
  rw [initialOf] at h ⊢
  cases hfind : pinyinInitials.find? fun cand => cand.isPrefixOf base with
  | none =>
      rw [hfind] at h
      exact absurd rfl h
  | some cand => exact List.mem_of_find?_eq_some hfind

/-- Some initial is found where one begins the syllable. -/
theorem initialOf_ne_nil (h : initial ∈ pinyinInitials) (hbegins : initial <+: base) :
    initialOf base ≠ [] := by
  have hsome : (pinyinInitials.find? fun cand => cand.isPrefixOf base).isSome :=
    List.find?_isSome.mpr ⟨initial, h, List.isPrefixOf_iff_prefix.mpr hbegins⟩
  obtain ⟨cand, hcand⟩ := Option.isSome_iff_exists.mp hsome
  have hne : ∀ cand ∈ pinyinInitials, cand ≠ [] := by decide
  rw [initialOf, hcand]
  exact hne cand (List.mem_of_find?_eq_some hcand)

/-- The parts of a syllable make it up. -/
theorem splitInitialFinalTone_eq_some {syllable : List Char}
    (h : splitInitialFinalTone syllable = some (initial, finale, tone)) :
    syllable = initial ++ finale ++ [tone] ∧ IsSyllable initial finale tone := by
  rw [splitInitialFinalTone] at h
  obtain ⟨last, hlast, h⟩ := Option.bind_eq_some_iff.mp h
  dsimp only at h
  split at h
  · cases h
  · next htone =>
      split at h
      · cases h
      · next hbase =>
          cases h
          obtain ⟨front, rfl⟩ := List.getLast?_eq_some_iff.mp hlast
          rw [List.dropLast_concat] at hbase ⊢
          have hparts := List.prefix_iff_eq_append.mp (initialOf_begins front)
          rw [Bool.or_eq_true, not_or] at htone hbase
          refine ⟨by rw [hparts], ?_⟩
          constructor
          · simpa using htone
          · rw [hparts]
            intro c hc
            have hall : ∀ c ∈ front, c.isLower = false → c = 'v' := by simpa using hbase.2
            by_contra hlower
            rw [hall c hc (eq_false_of_ne_true hlower)] at hlower
            exact hlower rfl
          · rw [hparts]
            simpa using hbase.1
          · rw [hparts]

/-! ## The pairs of the tokens -/

/-- A token whose syllable is one. -/
def PinyinToken.Proper : PinyinToken → Prop
  | .syllable initial finale tone => IsSyllable initial finale tone
  | .passthrough _ => True

theorem IsSyllable.initial_mem (h : IsSyllable initial finale tone) (hne : initial ≠ []) :
    initial ∈ pinyinInitials := by
  have hinitial : initialOf (initial ++ finale) ≠ [] := h.initial.symm ▸ hne
  exact h.initial ▸ initialOf_mem hinitial

theorem IsSyllable.tone_ne (h : IsSyllable initial finale tone) : String.singleton tone ≠ "_" := by
  intro heq
  have hchars : [tone] = ['_'] := by simpa using congrArg String.toList heq
  obtain ⟨rfl⟩ := List.singleton_inj.mp hchars
  exact absurd h.tone.1 (by decide)

/-- The pair of a part of a syllable. -/
def phonePair (phone : List Char) (tone : Char) : String × String :=
  (String.ofList phone, String.singleton tone)

theorem phonePair_inj {phone phone' : List Char} {tone tone' : Char} :
    phonePair phone tone = phonePair phone' tone' ↔ phone = phone' ∧ tone = tone' := by
  constructor
  · intro h
    obtain ⟨hphone, htone⟩ := Prod.mk.inj h
    have hchars : [tone] = [tone'] := by simpa using congrArg String.toList htone
    exact ⟨by simpa using congrArg String.toList hphone, List.singleton_inj.mp hchars⟩
  · rintro ⟨rfl, rfl⟩
    rfl

theorem phoneTonePairs_syllable (initial finale : List Char) (tone : Char) :
    phoneTonePairs (.syllable initial finale tone) =
      if initial = [] then [phonePair finale tone]
      else [phonePair initial tone, phonePair finale tone] := by
  cases initial <;> rfl

theorem phoneTonePairs_ne_nil (token : PinyinToken) : phoneTonePairs token ≠ [] := by
  cases token with
  | syllable initial finale tone => simp [phoneTonePairs]
  | passthrough text => simp [phoneTonePairs]

/-- A pair that is passed through is no pair of a syllable. -/
theorem IsSyllable.passthrough_notMem (h : IsSyllable initial finale tone) (text : List Char) :
    (String.ofList text, "_") ∉ phoneTonePairs (.syllable initial finale tone) := by
  intro hmem
  have htone : "_" = String.singleton tone := by
    rw [phoneTonePairs_syllable] at hmem
    split at hmem
    · exact (Prod.mk.inj (List.mem_singleton.mp hmem)).2
    · rcases List.mem_pair.mp hmem with heq | heq
      · exact (Prod.mk.inj heq).2
      · exact (Prod.mk.inj heq).2
  exact h.tone_ne htone.symm

/-- The finale of a syllable without an initial is not an initial. -/
theorem IsSyllable.finale_notMem (h : IsSyllable [] finale tone) : finale ∉ pinyinInitials :=
  fun hmem => initialOf_ne_nil hmem (List.prefix_refl finale) h.initial

/-- The first pair tells the initial of a syllable from the finale of one without an initial. -/
theorem IsSyllable.eq_of_pairs {initial' finale' : List Char} {tone' : Char}
    (h : IsSyllable initial finale tone) (h' : IsSyllable initial' finale' tone')
    (hbegins : phoneTonePairs (.syllable initial finale tone) <+:
      phoneTonePairs (.syllable initial' finale' tone')) :
    PinyinToken.syllable initial finale tone = .syllable initial' finale' tone' := by
  rw [phoneTonePairs_syllable, phoneTonePairs_syllable] at hbegins
  by_cases hinitial : initial = []
  · subst hinitial
    rw [if_pos rfl] at hbegins
    by_cases hinitial' : initial' = []
    · subst hinitial'
      rw [if_pos rfl, List.cons_prefix_cons, phonePair_inj] at hbegins
      obtain ⟨⟨rfl, rfl⟩, -⟩ := hbegins
      rfl
    · rw [if_neg hinitial', List.cons_prefix_cons, phonePair_inj] at hbegins
      obtain ⟨⟨rfl, -⟩, -⟩ := hbegins
      exact absurd (h'.initial_mem hinitial') h.finale_notMem
  · rw [if_neg hinitial] at hbegins
    by_cases hinitial' : initial' = []
    · rw [if_pos hinitial'] at hbegins
      exact absurd hbegins.length_le (Nat.not_succ_le_self 1)
    · rw [if_neg hinitial', List.cons_prefix_cons, List.cons_prefix_cons, phonePair_inj,
        phonePair_inj] at hbegins
      obtain ⟨⟨rfl, rfl⟩, ⟨rfl, -⟩, -⟩ := hbegins
      rfl

theorem prefixCode_phoneTonePairs : PrefixCode PinyinToken.Proper phoneTonePairs where
  ne_nil token _ := phoneTonePairs_ne_nil token
  eq_of_begins token token' h h' hbegins := by
    cases token with
    | passthrough text =>
        have hmem : (String.ofList text, "_") ∈ phoneTonePairs token' :=
          hbegins.subset List.mem_cons_self
        cases token' with
        | passthrough text' =>
            have htext := (Prod.mk.inj (List.mem_singleton.mp hmem)).1
            rw [String.ofList_injective htext]
        | syllable initial' finale' tone' =>
            exact absurd hmem (IsSyllable.passthrough_notMem h' text)
    | syllable initial finale tone =>
        cases token' with
        | passthrough text' =>
            obtain ⟨pair, rest, hpairs⟩ := List.exists_cons_of_ne_nil
              (phoneTonePairs_ne_nil (.syllable initial finale tone))
            rw [hpairs] at hbegins
            have hpair := (List.cons_prefix_cons.mp hbegins).1
            have hmem : pair ∈ phoneTonePairs (.syllable initial finale tone) :=
              hpairs ▸ List.mem_cons_self
            exact absurd (hpair ▸ hmem) (IsSyllable.passthrough_notMem h text')
        | syllable initial' finale' tone' => exact IsSyllable.eq_of_pairs h h' hbegins

/-! ## The text of the tokens -/

/-- A token that a Piper voice can tell apart: a syllable, or one character of punctuation. -/
def PinyinToken.Plain : PinyinToken → Prop
  | .syllable initial finale tone => IsSyllable initial finale tone
  | .passthrough text => ∃ c, isPassthroughPunctuation c ∧ text = [c]

/-- The text of a token. -/
def tokenText (token : PinyinToken) : List Char := (flattenToken token).flatten

/-- What stands before the tone of a syllable. -/
def syllableBody (initial finale : List Char) : List Char :=
  if initial = [] then '\u00D8' :: finale else initial ++ finale

theorem tokenText_syllable (initial finale : List Char) (tone : Char) :
    tokenText (.syllable initial finale tone) = syllableBody initial finale ++ [tone] := by
  cases initial with
  | nil => rfl
  | cons c initial =>
      rw [syllableBody, if_neg (List.cons_ne_nil _ _), List.append_assoc]
      rfl

theorem IsSyllable.mem_body (h : IsSyllable initial finale tone) :
    ∀ c ∈ syllableBody initial finale, c = '\u00D8' ∨ c.isLower := by
  intro c hc
  rw [syllableBody] at hc
  split at hc
  · next hnil =>
      rcases List.mem_cons.mp hc with rfl | hfinale
      · exact .inl rfl
      · exact .inr (h.letters c (List.mem_append_right _ hfinale))
  · exact .inr (h.letters c hc)

/-- A syllable does not begin as punctuation does. -/
theorem IsSyllable.exists_tokenText_eq (h : IsSyllable initial finale tone) :
    ∃ c rest, tokenText (.syllable initial finale tone) = c :: rest ∧ (c = '\u00D8' ∨ c.isLower) := by
  have hbody := h.mem_body
  rw [tokenText_syllable]
  cases hcons : syllableBody initial finale with
  | nil =>
      rw [syllableBody] at hcons
      split at hcons
      · cases hcons
      · exact absurd hcons h.ne_nil
  | cons c rest => exact ⟨c, rest ++ [tone], rfl, hbody c (hcons ▸ List.mem_cons_self)⟩

theorem not_isDigit_of_body {c : Char} (h : c = '\u00D8' ∨ c.isLower) : c.isDigit = false := by
  rcases h with rfl | hlower
  · rfl
  · apply eq_false_of_ne_true
    intro hdigit
    have hfirst := of_decide_eq_true (Bool.and_eq_true_iff.mp hlower).1
    have hlast := of_decide_eq_true (Bool.and_eq_true_iff.mp hdigit).2
    exact absurd (UInt32.le_trans hfirst hlast) (by decide)

theorem not_body_of_punctuation {c : Char} (h : isPassthroughPunctuation c) :
    ¬ (c = '\u00D8' ∨ c.isLower) := by
  have hall : ['\u3002', '.', '\uFF1F', '?', '\uFF01', '!', '\u2014', '\u2026', '\u3001',
      '\uFF0C', ',', '\uFF1A', ':', '\uFF1B', ';', ' '].all fun c =>
        !(c = '\u00D8' || c.isLower) := by decide
  simpa using List.all_eq_true.mp hall c (List.contains_iff_mem.mp h)

/-- The marker of a missing initial keeps the syllables apart. -/
theorem IsSyllable.eq_of_body {initial' finale' : List Char} {tone' : Char}
    (h : IsSyllable initial finale tone) (h' : IsSyllable initial' finale' tone')
    (hbody : syllableBody initial finale = syllableBody initial' finale') :
    initial = initial' ∧ finale = finale' := by
  have hmarker : ∀ {initial finale : List Char} {tone : Char}, IsSyllable initial finale tone →
      ∀ rest, initial ++ finale ≠ '\u00D8' :: rest := by
    intro initial finale tone hsyllable rest heq
    have hlower := hsyllable.letters '\u00D8' (heq ▸ List.mem_cons_self)
    exact absurd hlower (by decide)
  rw [syllableBody, syllableBody] at hbody
  split at hbody
  · next hinitial =>
      split at hbody
      · next hinitial' => exact ⟨hinitial.trans hinitial'.symm, (List.cons.inj hbody).2⟩
      · exact absurd hbody.symm (hmarker h' _)
  · split at hbody
    · exact absurd hbody (hmarker h _)
    · obtain rfl : initial = initial' := by rw [← h.initial, hbody, h'.initial]
      exact ⟨rfl, List.append_cancel_left hbody⟩

/-- The first digit ends a syllable. -/
theorem IsSyllable.eq_of_text {initial' finale' : List Char} {tone' : Char}
    (h : IsSyllable initial finale tone) (h' : IsSyllable initial' finale' tone')
    (hbegins : tokenText (.syllable initial finale tone) <+:
      tokenText (.syllable initial' finale' tone')) :
    PinyinToken.syllable initial finale tone = .syllable initial' finale' tone' := by
  obtain ⟨rest, hrest⟩ := hbegins
  rw [tokenText_syllable, tokenText_syllable, List.append_assoc, List.singleton_append] at hrest
  have hspan : ∀ {initial finale : List Char} {tone : Char} (rest : List Char),
      IsSyllable initial finale tone →
      (syllableBody initial finale ++ tone :: rest).takeWhile (fun c => !c.isDigit) =
        syllableBody initial finale := by
    intro initial finale tone rest hsyllable
    rw [List.takeWhile_append_of_pos, List.takeWhile_cons_of_neg, List.append_nil]
    · simp [hsyllable.tone.1]
    · intro c hc
      simp [not_isDigit_of_body (hsyllable.mem_body c hc)]
  have hbody : syllableBody initial finale = syllableBody initial' finale' := by
    rw [← hspan rest h, hrest, hspan [] h']
  obtain ⟨rfl, rfl⟩ := h.eq_of_body h' hbody
  obtain ⟨rfl, -⟩ := List.cons.inj (List.append_cancel_left hrest)
  rfl

theorem prefixCode_tokenText : PrefixCode PinyinToken.Plain tokenText where
  ne_nil token h := by
    cases token with
    | syllable initial finale tone =>
        rw [tokenText_syllable]
        exact List.concat_ne_nil _ _
    | passthrough text =>
        obtain ⟨c, -, rfl⟩ := h
        exact List.cons_ne_nil _ _
  eq_of_begins token token' h h' hbegins := by
    cases token with
    | passthrough text =>
        obtain ⟨c, hc, rfl⟩ := h
        cases token' with
        | passthrough text' =>
            obtain ⟨c', -, rfl⟩ := h'
            obtain ⟨rfl, -⟩ := List.cons_prefix_cons.mp hbegins
            rfl
        | syllable initial' finale' tone' =>
            obtain ⟨first, rest, htext, hfirst⟩ := IsSyllable.exists_tokenText_eq h'
            rw [htext] at hbegins
            obtain ⟨rfl, -⟩ := List.cons_prefix_cons.mp hbegins
            exact absurd hfirst (not_body_of_punctuation hc)
    | syllable initial finale tone =>
        cases token' with
        | passthrough text' =>
            obtain ⟨c, hc, rfl⟩ := h'
            obtain ⟨first, rest, htext, hfirst⟩ := IsSyllable.exists_tokenText_eq h
            rw [htext] at hbegins
            obtain ⟨rfl, -⟩ := List.cons_prefix_cons.mp hbegins
            exact absurd hfirst (not_body_of_punctuation hc)
        | syllable initial' finale' tone' => exact IsSyllable.eq_of_text h h' hbegins

end Dengjen.Pinyin

import Dengjen.Hebrew.Sentences

/-!
# Text that is not Hebrew

Words are split at whitespace only, so punctuation is read as part of a word. Its
characters make glyphs of their own, with no consonant and no vowel. Glyphs like that
behind a word leave what is read of it as it is, except for a last he without dagesh,
which depends on being the last glyph.
-/

namespace Dengjen.Hebrew

/-! ## Characters that are not Hebrew -/

/-- A letter of the Hebrew block or of the presentation forms. -/
def isHebrewLetter (c : Char) : Bool :=
  ('\u05D0' ≤ c ∧ c ≤ '\u05EA') ∨ ('\u05EF' ≤ c ∧ c ≤ '\u05F2') ∨
    ('\uFB1D' ≤ c ∧ c ≤ '\uFB4F' ∧
      c ∉ ['\uFB1E', '\uFB29', '\uFB37', '\uFB3D', '\uFB3F', '\uFB42', '\uFB45'])

/-- An accent or a point of the Hebrew block. -/
def isHebrewMark (c : Char) : Bool :=
  '\u0591' ≤ c ∧ c ≤ '\u05C7' ∧ c ≠ '\u05BE' ∧ c ≠ '\u05C0' ∧ c ≠ '\u05C3' ∧ c ≠ '\u05C6'

/-- A character that is read as nothing. -/
def isForeign (c : Char) : Bool := !isHebrewLetter c && c ≠ geresh && !isHebrewMark c

/-- Neither a Hebrew letter nor geresh nor a combining mark. -/
def Unicode.isPlain (unicode : Unicode) (c : Char) : Bool :=
  !isHebrewLetter c && c ≠ geresh && !unicode.isCombiningMark c

/-- Text that does not begin with a combining mark, and has nothing Hebrew in it. -/
structure Unicode.IsForeignTail (unicode : Unicode) (tail : List Char) : Prop where
  foreign : ∀ c ∈ tail, isForeign c
  head : ∀ c ∈ tail.head?, unicode.isCombiningMark c = false

/-- What is relied on of the crate. Normalization may compose the end of a text with the characters
put behind it (a Korean syllable with its last letter), and may take these apart, but it finds
nothing Hebrew in them. -/
structure Unicode.Lawful (unicode : Unicode) : Prop where
  mark : ∀ c, isHebrewMark c → unicode.isCombiningMark c
  append : ∀ text plain, (∀ c ∈ plain, unicode.isPlain c) → ∃ kept tail tail',
    unicode.nfc text = kept ++ tail ∧ unicode.nfc (text ++ plain) = kept ++ tail' ∧
      unicode.IsForeignTail tail ∧ unicode.IsForeignTail tail' ∧ (tail' = [] → plain = [])

variable {unicode : Unicode} {g : Glyph} {gs foreigners foreigners' : List Glyph}

/-- A glyph that has no consonant and no vowel. -/
structure Glyph.IsForeign (g : Glyph) : Prop where
  base : ∃ c, g.base = [c] ∧ isForeign c
  marks : ∀ m ∈ g.marks, isForeign m

theorem isForeign_of_isPlain (h : unicode.Lawful) {c : Char} (hc : unicode.isPlain c) :
    isForeign c ∧ unicode.isCombiningMark c = false := by
  simp only [Unicode.isPlain, Bool.and_eq_true, Bool.not_eq_true'] at hc
  obtain ⟨⟨hletter, hgeresh⟩, hmark⟩ := hc
  have hhebrew : isHebrewMark c = false := by
    rw [Bool.eq_false_iff]
    intro hhebrew
    rw [h.mark c hhebrew] at hmark
    cases hmark
  exact ⟨by rw [isForeign, hletter, hgeresh, hhebrew]; rfl, hmark⟩

/-! ## Their glyphs -/

theorem addChar_append {front back : List Glyph} (h : back ≠ []) (c : Char) :
    addChar unicode (front ++ back) c = front ++ addChar unicode back c := by
  rw [addChar, addChar]
  split
  · exact List.modifyLast_append_of_right_ne_nil _ front back h
  · rw [List.append_assoc]

theorem addChar_ne_nil {back : List Glyph} (h : back ≠ []) (c : Char) :
    addChar unicode back c ≠ [] := by
  obtain ⟨front, last, rfl⟩ := (List.eq_nil_or_concat' back).resolve_left h
  rw [addChar, List.modifyLast_concat]
  split <;> simp

theorem foldl_addChar_append {back : List Glyph} (h : back ≠ []) (front : List Glyph)
    (text : List Char) :
    text.foldl (addChar unicode) (front ++ back) = front ++ text.foldl (addChar unicode) back := by
  induction text generalizing back with
  | nil => rfl
  | cons c rest ih =>
      rw [List.foldl_cons, addChar_append h, ih (addChar_ne_nil h c), List.foldl_cons]

theorem addChar_of_base {c : Char} (h : unicode.isCombiningMark c = false) (gs : List Glyph) :
    addChar unicode gs c = gs ++ [.plain c] := by
  rw [addChar, if_neg (by simp [h])]

/-- A tail makes glyphs of its own. -/
theorem foldl_addChar_tail {tail : List Char} (h : unicode.IsForeignTail tail) (front : List Glyph) :
    tail.foldl (addChar unicode) front = front ++ tail.foldl (addChar unicode) [] := by
  cases tail with
  | nil => exact (List.append_nil front).symm
  | cons c rest =>
      have hc := h.head c rfl
      rw [List.foldl_cons, List.foldl_cons, addChar_of_base hc, addChar_of_base hc, List.nil_append,
        foldl_addChar_append (List.cons_ne_nil _ _)]

theorem foldl_addChar_ne_nil {back : List Glyph} (h : back ≠ []) (text : List Char) :
    text.foldl (addChar unicode) back ≠ [] := by
  induction text generalizing back with
  | nil => exact h
  | cons c rest ih => exact ih (addChar_ne_nil h c)

theorem foldl_addChar_eq_nil {tail : List Char} (h : unicode.IsForeignTail tail)
    (hnil : tail.foldl (addChar unicode) [] = []) : tail = [] := by
  cases tail with
  | nil => rfl
  | cons c rest =>
      rw [List.foldl_cons, addChar_of_base (h.head c rfl)] at hnil
      exact absurd hnil (foldl_addChar_ne_nil (List.cons_ne_nil _ _) rest)

theorem isForeign_foldl_addChar {tail : List Char} (h : ∀ c ∈ tail, isForeign c) :
    ∀ g ∈ tail.foldl (addChar unicode) [], g.IsForeign := by
  apply forall_mem_foldl_addChar
  · intro c hc g hg
    refine ⟨hg.base, ?_⟩
    rw [List.forall_mem_append, List.forall_mem_singleton]
    exact ⟨hg.marks, h c hc⟩
  · exact fun c hc => ⟨⟨c, rfl, h c hc⟩, List.forall_mem_nil _⟩

theorem Glyph.IsForeign.base_ne (h : g.IsForeign) : g.base ≠ [geresh] ∧ g.base ≠ [yod] ∧ g.base ≠ [he] := by
  obtain ⟨c, hbase, hc⟩ := h.base
  rw [hbase]
  refine ⟨?_, ?_, ?_⟩ <;> rintro ⟨⟩ <;> exact absurd hc (by decide)

theorem applyGereshDigraphs_foreign (h : ∀ g ∈ gs, g.IsForeign) : applyGereshDigraphs gs = gs := by
  fun_induction applyGereshDigraphs gs with
  | case1 => rfl
  | case2 g => rfl
  | case3 g next rest hgeresh ipa _ _ =>
      rw [List.forall_mem_cons, List.forall_mem_cons] at h
      exact absurd hgeresh h.2.1.base_ne.1
  | case4 g next rest _ _ ih | case5 g next rest _ ih =>
      rw [ih (List.forall_mem_cons.mp h).2]

theorem applyGereshDigraphs_append (h : ∀ g ∈ foreigners, g.IsForeign) (gs : List Glyph) :
    applyGereshDigraphs (gs ++ foreigners) = applyGereshDigraphs gs ++ foreigners := by
  fun_induction applyGereshDigraphs gs with
  | case1 => exact applyGereshDigraphs_foreign h
  | case2 g =>
      cases hforeigners : foreigners with
      | nil => rfl
      | cons next rest =>
          subst hforeigners
          have hne := (h next List.mem_cons_self).base_ne.1
          rw [List.singleton_append, applyGereshDigraphs, if_neg hne, applyGereshDigraphs_foreign h]
  | case3 g next rest hgeresh ipa hipa ih =>
      rw [List.cons_append, List.cons_append, applyGereshDigraphs, if_pos hgeresh]
      simp only [hipa, ih, List.cons_append]
  | case4 g next rest hgeresh hnone ih =>
      rw [List.cons_append, List.cons_append, applyGereshDigraphs, if_pos hgeresh]
      simp only [hnone, ← List.cons_append, ih]
  | case5 g next rest hne ih =>
      rw [List.cons_append, List.cons_append, applyGereshDigraphs, if_neg hne, ← List.cons_append, ih,
        List.cons_append]

theorem isHebrewMark_of_taamim {c : Char} (h : 0x0591 ≤ c.toNat ∧ c.toNat ≤ 0x05AF) :
    isHebrewMark c := by
  have hne (d : Char) (hd : 0x05AF < d.toNat) : c ≠ d := by
    rintro rfl
    omega
  simp only [isHebrewMark, decide_eq_true_eq]
  refine ⟨?_, ?_, hne _ (by decide), hne _ (by decide), hne _ (by decide), hne _ (by decide)⟩
  · exact h.1
  · exact h.2.trans (by decide)

/-- The glyphs of a word with plain text behind it. -/
theorem glyphs_append (h : unicode.Lawful) (word : List Char) {plain : List Char}
    (hplain : ∀ c ∈ plain, unicode.isPlain c) :
    ∃ gs foreigners foreigners', glyphs unicode word = gs ++ foreigners ∧
      glyphs unicode (word ++ plain) = gs ++ foreigners' ∧ (∀ g ∈ foreigners, g.IsForeign) ∧
      (∀ g ∈ foreigners', g.IsForeign) ∧ (foreigners' = [] → plain = []) := by
  have hstrip : stripTaamim (word ++ plain) = stripTaamim word ++ plain := by
    rw [stripTaamim, List.filter_append, stripTaamim, List.append_right_inj, List.filter_eq_self]
    intro c hc
    obtain ⟨hforeign, -⟩ := isForeign_of_isPlain h (hplain c hc)
    apply decide_eq_true
    intro htaamim
    rw [isForeign, isHebrewMark_of_taamim htaamim, Bool.not_true, Bool.and_false] at hforeign
    cases hforeign
  obtain ⟨kept, tail, tail', htext, hmore, htail, htail', hnil⟩ := h.append (stripTaamim word) plain hplain
  refine ⟨applyGereshDigraphs (kept.foldl (addChar unicode) []), tail.foldl (addChar unicode) [],
    tail'.foldl (addChar unicode) [], ?_, ?_, isForeign_foldl_addChar htail.foreign,
    isForeign_foldl_addChar htail'.foreign, fun hfold => hnil (foldl_addChar_eq_nil htail' hfold)⟩
  · rw [glyphs, iterGlyphs, htext, List.foldl_append, foldl_addChar_tail htail,
      applyGereshDigraphs_append (isForeign_foldl_addChar htail.foreign)]
  · rw [glyphs, iterGlyphs, hstrip, hmore, List.foldl_append, foldl_addChar_tail htail',
      applyGereshDigraphs_append (isForeign_foldl_addChar htail'.foreign)]

/-! ## Reading on behind a word -/

theorem mapConsonant_foreign {c : Char} (h : isForeign c) (marks : List Char) (isFinal : Bool) :
    mapConsonant c marks isFinal = [] := by
  have hletters : ∀ d ∈ [alef, bet, gimel, dalet, he, vav, zayin, het, tet, yod, kaf, kafFinal, lamed,
      mem, memFinal, nun, nunFinal, samekh, ayin, pe, peFinal, tsadi, tsadiFinal, qof, resh, shin, tav],
      isForeign d = false := List.all_iff_forall_prop.mp (by decide)
  have hne : ∀ d, isForeign d = false → c ≠ d := by
    rintro d hd rfl
    rw [h] at hd
    cases hd
  replace hletters := fun d hd => hne d (hletters d hd)
  simp only [List.forall_mem_cons] at hletters
  simp [mapConsonant, finalFormBase, hletters]

theorem glyphConsonant_foreign (h : g.IsForeign) (isFinal : Bool) : glyphConsonant g isFinal = [] := by
  obtain ⟨c, hbase, hc⟩ := h.base
  rw [glyphConsonant, hbase, digraphIpa_singleton]
  exact mapConsonant_foreign hc _ _

/-- A foreign glyph has none of the points. -/
theorem has_foreign (h : g.IsForeign) {mark : Char} (hmark : isForeign mark = false) :
    g.has mark = false := by
  rw [Glyph.has, Bool.eq_false_iff]
  intro hmem
  rw [h.marks mark (List.contains_iff_mem.mp hmem)] at hmark
  cases hmark

theorem makesSyllable_foreign (h : g.IsForeign) : g.makesSyllable = false := by
  have hmarks : ∀ mark ∈ Glyph.basicVowelMarks, isForeign mark = false :=
    List.all_iff_forall_prop.mp (by decide)
  have hvocalic : (mapBasicVowel g).2 = false := by
    rw [mapBasicVowel_snd, Glyph.hasBasicVowel, List.any_eq_false]
    intro mark hmem
    simp [has_foreign h (hmarks mark hmem)]
  have hshuruk : isShuruk g = false := by simp [isShuruk, has_foreign h (by decide : isForeign dagesh = false)]
  have hmale : isHolamMale g = false := by simp [isHolamMale, has_foreign h (by decide : isForeign holam = false)]
  rw [Glyph.makesSyllable, hshuruk, hmale, hvocalic, has_foreign h (by decide)]
  rfl

/-- What a glyph without a vowel makes. -/
theorem readGlyph_of_not_makesSyllable (h : g.makesSyllable = false) (onset : List (List Char))
    (next : Option Glyph) (isFinal : Bool) :
    readGlyph onset g next isFinal = ([], waiting onset (glyphConsonant g isFinal), false) := by
  simp only [Glyph.makesSyllable, Bool.or_eq_false_iff] at h
  obtain ⟨⟨⟨hshuruk, hmale⟩, hvocalic⟩, hsheva⟩ := h
  have hyod : isHiriqYod g next = false := by
    rw [Bool.eq_false_iff]
    intro hyod
    cases next with
    | none => cases hyod
    | some next =>
        have hbasic := hasBasicVowel_of_hiriqYod hyod
        rw [← mapBasicVowel_snd, hvocalic] at hbasic
        cases hbasic
  simp only [readGlyph, hshuruk, hyod, hmale, hvocalic, hsheva, Bool.false_eq_true, if_false]

theorem readGlyphs_foreign (h : ∀ g ∈ gs, g.IsForeign) (onset : List (List Char)) :
    readGlyphs onset gs = ([], onset) := by
  induction gs with
  | nil => rfl
  | cons g rest ih =>
      rw [List.forall_mem_cons] at h
      have hwaiting : waiting onset [] = onset := rfl
      rw [readGlyphs_cons, readGlyph_of_not_makesSyllable (makesSyllable_foreign h.1),
        glyphConsonant_foreign h.1, hwaiting]
      exact ih h.2

/-- A he that is mute at the end of a word. -/
def Glyph.isMuteHe (g : Glyph) : Bool := g.base = [he] ∧ ¬ g.has dagesh

theorem isMuteHe_iff : g.isMuteHe ↔ g.base = [he] ∧ g.has dagesh = false := by
  simp [Glyph.isMuteHe]

theorem base_ne_yod_of_muteHe (h : g.isMuteHe) : g.base ≠ [yod] := by
  rw [(isMuteHe_iff.mp h).1]
  decide

theorem eq_he_of_finalFormBase {c : Char} (h : finalFormBase c = he) : c = he := by
  revert h
  rw [finalFormBase]
  split_ifs
  all_goals first | exact id | exact fun h => absurd h (by decide)

/-- Only such a he depends on where it stands. -/
theorem glyphConsonant_isFinal (hregular : g.IsRegular) (h : g.isMuteHe = false) (isFinal : Bool) :
    glyphConsonant g isFinal = glyphConsonant g true := by
  rcases hregular with ⟨c, hbase⟩ | ⟨ipa, hipa, hbase⟩
  · rw [glyphConsonant, glyphConsonant, hbase, digraphIpa_singleton]
    by_cases hhe : finalFormBase c = he
    · have hc := eq_he_of_finalFormBase hhe
      have hdagesh : dagesh ∈ g.marks := by
        simpa [Glyph.isMuteHe, hbase, hc, Glyph.has] using h
      subst hc
      simp [mapConsonant, hdagesh, hhe]
    · simp only [List.head?_cons, Option.getD_some, mapConsonant, hhe, if_false]
  · rw [glyphConsonant, glyphConsonant, hbase, (digraphIpa_placeholder ipa hipa).1]

/-- The part of reading that does not look at what comes behind. -/
theorem readGlyph_isFinal (hregular : g.IsRegular) (h : g.isMuteHe = false)
    (onset : List (List Char)) (next : Option Glyph) (isFinal : Bool) :
    readGlyph onset g next isFinal = readGlyph onset g next true := by
  simp only [readGlyph, glyphConsonant_isFinal hregular h isFinal]

/-- Before a foreign glyph a hiriq takes nothing with it. -/
theorem readGlyph_head_foreign (h : ∀ g ∈ foreigners, g.IsForeign) (onset : List (List Char))
    (isFinal : Bool) :
    readGlyph onset g foreigners.head? isFinal = readGlyph onset g none isFinal ∧
      (readGlyph onset g none isFinal).2.2 = false := by
  have hnone : (readGlyph onset g none isFinal).2.2 = false := by
    rw [Bool.eq_false_iff]
    intro hread
    cases isHiriqYod_of_readGlyph hread
  refine ⟨?_, hnone⟩
  cases hforeigners : foreigners with
  | nil => rfl
  | cons next rest =>
      have hbase := (h next (by simp [hforeigners])).base_ne.2.1
      have hyod : isHiriqYod g (some next) = false := by simp [isHiriqYod, hbase]
      simp only [List.head?_cons, readGlyph, hyod]
      rfl

/-- The last glyph before foreign ones, or the last one of all. -/
theorem readGlyphs_cons_foreign (h : ∀ g ∈ foreigners, g.IsForeign) (onset : List (List Char)) :
    readGlyphs onset (g :: foreigners) =
      ((readGlyph onset g none foreigners.isEmpty).1,
        (readGlyph onset g none foreigners.isEmpty).2.1) := by
  obtain ⟨hhead, hskip⟩ := readGlyph_head_foreign (g := g) h onset foreigners.isEmpty
  rw [readGlyphs_cons, hhead]
  dsimp only
  rw [hskip, if_neg Bool.false_ne_true, readGlyphs_foreign h, emits, List.append_nil]

/-- A glyph with another one behind it. -/
theorem readGlyphs_cons_cons (onset : List (List Char)) (g next : Glyph) (rest : List Glyph) :
    readGlyphs onset (g :: next :: rest) =
      let read := readGlyph onset g (some next) false
      emits read.1 (readGlyphs read.2.1 (if read.2.2 then rest else next :: rest)) :=
  readGlyphs_cons onset g (next :: rest)

/-- Foreign glyphs behind a word change nothing, unless it ends with a mute he. -/
theorem readGlyphs_append_foreign (h : ∀ g ∈ foreigners, g.IsForeign) :
    ∀ (gs : List Glyph) (onset : List (List Char)), (∀ g ∈ gs, g.IsRegular) →
      (∀ g ∈ gs.getLast?, g.isMuteHe = false) →
      readGlyphs onset (gs ++ foreigners) = readGlyphs onset gs
  | [], onset, _, _ => readGlyphs_foreign h onset
  | [g], onset, hregular, hlast => by
      have hread := readGlyph_isFinal (hregular g List.mem_cons_self) (hlast g rfl) onset none
      have halone : readGlyphs onset [g] = _ := readGlyphs_cons_foreign (List.forall_mem_nil _) onset
      rw [List.singleton_append, readGlyphs_cons_foreign h, halone, hread, hread [].isEmpty]
  | g :: next :: rest, onset, hregular, hlast => by
      have hnext := readGlyphs_append_foreign h (next :: rest)
        (readGlyph onset g (some next) false).2.1 (List.forall_mem_cons.mp hregular).2
        (by simpa using hlast)
      have hrest := readGlyphs_append_foreign h rest
        (readGlyph onset g (some next) false).2.1
        (List.forall_mem_cons.mp (List.forall_mem_cons.mp hregular).2).2 (by
          intro g hg
          apply hlast g
          cases rest with
          | nil => cases hg
          | cons a rest => simpa using hg)
      rw [List.cons_append, List.cons_append, readGlyphs_cons_cons, readGlyphs_cons_cons]
      dsimp only
      by_cases hskip : (readGlyph onset g (some next) false).2.2
      · rw [if_pos hskip, if_pos hskip, hrest]
      · rw [if_neg hskip, if_neg hskip, ← List.cons_append, hnext]

/-- What is read before a glyph that is not a yod does not depend on what is behind it. -/
theorem readGlyphs_split (hyod : g.base ≠ [yod]) : ∀ (front : List Glyph) (onset : List (List Char)),
    ∃ segs onset', ∀ rest, readGlyphs onset (front ++ g :: rest) =
      emits segs (readGlyphs onset' (g :: rest))
  | [], onset => ⟨[], onset, fun _ => rfl⟩
  | [a], onset => by
      have hskip : (readGlyph onset a (some g) false).2.2 = false := by
        rw [Bool.eq_false_iff]
        intro hread
        have htaken := isHiriqYod_of_readGlyph hread
        simp only [isHiriqYod, decide_eq_true_eq] at htaken
        exact hyod htaken.2.1
      refine ⟨(readGlyph onset a (some g) false).1, (readGlyph onset a (some g) false).2.1,
        fun rest => ?_⟩
      rw [List.singleton_append, readGlyphs_cons_cons]
      dsimp only
      rw [hskip, if_neg Bool.false_ne_true]
  | a :: b :: front, onset => by
      have hback := readGlyphs_split hyod front (readGlyph onset a (some b) false).2.1
      have hnext := readGlyphs_split hyod (b :: front) (readGlyph onset a (some b) false).2.1
      obtain ⟨segs, onset', hfront⟩ : ∃ segs onset', ∀ rest,
          readGlyphs (readGlyph onset a (some b) false).2.1
            (if (readGlyph onset a (some b) false).2.2 then front ++ g :: rest
              else b :: (front ++ g :: rest)) = emits segs (readGlyphs onset' (g :: rest)) := by
        by_cases hskip : (readGlyph onset a (some b) false).2.2
        · simpa only [if_pos hskip] using hback
        · simpa only [if_neg hskip, List.cons_append] using hnext
      refine ⟨(readGlyph onset a (some b) false).1 ++ segs, onset', fun rest => ?_⟩
      rw [← emits_emits, ← hfront, List.cons_append, List.cons_append, readGlyphs_cons_cons]

end Dengjen.Hebrew

import Dengjen.Hebrew.Ipa
import Mathlib.Data.List.Induction

/-!
# Which vowels a word keeps

A glyph makes a segment with a full vowel when it is a vav read as shuruk, a hiriq
before a bare yod, a vav with holam and no dagesh, or when `map_basic_vowel` finds a
full vowel on it. None of these tests reads a holam on another letter.
-/

namespace Dengjen.Hebrew

namespace Glyph

/-- The points of full vowels that `map_basic_vowel` reads. -/
def basicVowelMarks : List Char :=
  [hiriq, tsere, segol, patah, qamats, qamatsQatan, qubutz, hatafSegol, hatafPatah, hatafQamats]

/-- The glyph carries one of the vowel marks. -/
def hasBasicVowel (g : Glyph) : Bool := basicVowelMarks.any g.has

/-- A vowel point other than sheva. -/
def carriesVowel (g : Glyph) : Bool := g.has holam || g.hasBasicVowel

/-- A holam that is not on a vav without dagesh, alone with its letter. -/
def losesHolam (g : Glyph) : Bool := g.has holam && !isHolamMale g && !g.hasBasicVowel

end Glyph

variable {g next : Glyph}

/-- The list that `is_shuruk` and `has_any_vowel_mark` both write out, in their orders. -/
theorem any_contains_vowels {marks : List Char} (hmem : ∀ m, m ∈ marks ↔
      m = sheva ∨ m = holam ∨ m ∈ Glyph.basicVowelMarks) :
    g.marks.any marks.contains = (g.has sheva || g.carriesVowel) := by
  rw [Bool.eq_iff_iff]
  simp only [Glyph.carriesVowel, Glyph.hasBasicVowel, Glyph.has, Bool.or_eq_true, List.any_eq_true,
    List.contains_iff_mem, hmem]
  constructor
  · rintro ⟨m, hm, rfl | rfl | hbasic⟩
    · exact .inl hm
    · exact .inr (.inl hm)
    · exact .inr (.inr ⟨m, hbasic, hm⟩)
  · rintro (hm | hm | ⟨m, hbasic, hm⟩)
    · exact ⟨sheva, hm, .inl rfl⟩
    · exact ⟨holam, hm, .inr (.inl rfl)⟩
    · exact ⟨m, hm, .inr (.inr hbasic)⟩

theorem hasAnyVowelMark_eq : hasAnyVowelMark g.marks = (g.has sheva || g.carriesVowel) := by
  apply any_contains_vowels
  intro m
  simp only [Glyph.basicVowelMarks, List.mem_cons, List.not_mem_nil, or_false]
  grind

theorem isShuruk_iff :
    isShuruk g ↔ g.base = [vav] ∧ g.has dagesh ∧ g.has sheva = false ∧ g.carriesVowel = false := by
  have hmarks : g.marks.any [holam, hiriq, tsere, segol, patah, qamats, qubutz, qamatsQatan, sheva,
      hatafSegol, hatafPatah, hatafQamats].contains = (g.has sheva || g.carriesVowel) := by
    apply any_contains_vowels
    intro m
    simp only [Glyph.basicVowelMarks, List.mem_cons, List.not_mem_nil, or_false]
    grind
  simp only [isShuruk, hmarks, Bool.or_eq_true, not_or, decide_eq_true_eq, Bool.not_eq_true]

/-- A vocalic reading is a full vowel. -/
theorem mapBasicVowel_snd : (mapBasicVowel g).2 = g.hasBasicVowel := by
  rw [Bool.eq_iff_iff]
  simp only [Glyph.hasBasicVowel, Glyph.basicVowelMarks, List.any_cons, List.any_nil, Bool.or_false,
    Bool.or_eq_true]
  simp only [mapBasicVowel]
  split_ifs <;> grind

theorem mapBasicVowel_fst_ne (h : (mapBasicVowel g).2) : (mapBasicVowel g).1 ≠ ['\u0259'] := by
  revert h
  simp only [mapBasicVowel]
  split_ifs <;> decide

/-! ## What the tests of a glyph make of it -/

theorem carriesVowel_of_shuruk (h : isShuruk g) : g.carriesVowel = false := (isShuruk_iff.mp h).2.2.2

theorem losesHolam_of_not_carriesVowel (h : g.carriesVowel = false) : g.losesHolam = false := by
  rw [Glyph.carriesVowel, Bool.or_eq_false_iff] at h
  rw [Glyph.losesHolam, h.1]
  rfl

theorem hasBasicVowel_of_hiriqYod (h : isHiriqYod g (some next)) : g.hasBasicVowel := by
  simp only [isHiriqYod, decide_eq_true_eq] at h
  simp [Glyph.hasBasicVowel, Glyph.basicVowelMarks, h.1]

/-- The yod that a hiriq takes with it would make no vowel itself. -/
theorem carriesVowel_of_hiriqYod (h : isHiriqYod g (some next)) :
    next.carriesVowel = false ∧ isShuruk next = false := by
  simp only [isHiriqYod, decide_eq_true_eq, Bool.not_eq_true, hasAnyVowelMark_eq,
    Bool.or_eq_false_iff] at h
  obtain ⟨-, hyod, -, hcarries⟩ := h
  refine ⟨hcarries, Bool.eq_false_iff.mpr fun hshuruk => ?_⟩
  have hvav := (isShuruk_iff.mp hshuruk).1
  rw [hyod] at hvav
  exact absurd hvav (by decide)

theorem carriesVowel_of_holamMale (h : isHolamMale g) :
    g.carriesVowel ∧ g.losesHolam = false := by
  have hholam : g.has holam := by
    simp only [isHolamMale, decide_eq_true_eq] at h
    exact h.2.1
  rw [Glyph.carriesVowel, Glyph.losesHolam, h, hholam]
  exact ⟨rfl, rfl⟩

theorem carriesVowel_of_basic (h : g.hasBasicVowel) : g.carriesVowel ∧ g.losesHolam = false := by
  rw [Glyph.carriesVowel, Glyph.losesHolam, h, Bool.or_true, Bool.not_true, Bool.and_false]
  exact ⟨rfl, rfl⟩

/-- What no test reads as a full vowel is a lost holam, if the glyph carries a vowel at all. -/
theorem losesHolam_eq (hmale : ¬ isHolamMale g) (hbasic : ¬ g.hasBasicVowel) :
    g.losesHolam = g.carriesVowel := by
  rw [Bool.not_eq_true] at hmale hbasic
  rw [Glyph.losesHolam, Glyph.carriesVowel, hmale, hbasic]
  simp

/-! ## Counting vowels -/

/-- The vowel of the segment is not a sheva. -/
def Segment.isFull (seg : Segment) : Bool := seg.nucleus ≠ ['\u0259']

/-- Every vowel point and every shuruk makes one full vowel, but for the holams that are lost. -/
theorem countP_readGlyphs (onset : List (List Char)) (gs : List Glyph) :
    (readGlyphs onset gs).1.countP Segment.isFull + gs.countP Glyph.losesHolam =
      gs.countP Glyph.carriesVowel + gs.countP isShuruk := by
  fun_induction readGlyphs onset gs with
  | case1 onset => rfl
  | case2 onset g rest hshuruk ih =>
      have hcarries := carriesVowel_of_shuruk hshuruk
      have hfull : Segment.isFull ⟨onset, ['u'], [], false⟩ := by rfl
      simp only [emit_fst, List.countP_cons, hshuruk, hcarries, hfull,
        losesHolam_of_not_carriesVowel hcarries, if_true, Bool.false_eq_true, if_false]
      omega
  | case3 onset g _ hyod => cases hyod
  | case4 onset g hshuruk next rest hyod ih =>
      obtain ⟨hcarries, hloses⟩ := carriesVowel_of_basic (hasBasicVowel_of_hiriqYod hyod)
      obtain ⟨hnext, hvav⟩ := carriesVowel_of_hiriqYod hyod
      have hfull : Segment.isFull ⟨pushed onset (glyphConsonant g false), ['i'], [], false⟩ := by rfl
      simp only [emit_fst, List.countP_cons, hshuruk, hcarries, hloses, hnext, hvav, hfull,
        losesHolam_of_not_carriesVowel hnext, if_true, Bool.false_eq_true, if_false]
      omega
  | case5 onset g rest hshuruk _ hmale ih =>
      obtain ⟨hcarries, hloses⟩ := carriesVowel_of_holamMale hmale
      have hfull : Segment.isFull ⟨onset, ['o'], [], false⟩ := by rfl
      simp only [emit_fst, List.countP_cons, hshuruk, hcarries, hloses, hfull, if_true,
        Bool.false_eq_true, if_false]
      omega
  | case6 onset g rest hshuruk _ _ cons hvocalic ih =>
      obtain ⟨hcarries, hloses⟩ := carriesVowel_of_basic (mapBasicVowel_snd ▸ hvocalic)
      have hfull : Segment.isFull ⟨pushed onset cons, (mapBasicVowel g).1, [], false⟩ := by
        simpa [Segment.isFull] using mapBasicVowel_fst_ne hvocalic
      simp only [emit_fst, List.countP_cons, hshuruk, hcarries, hloses, hfull, if_true,
        Bool.false_eq_true, if_false]
      omega
  | case7 onset g rest hshuruk _ hmale cons hvocalic _ ih =>
      have hloses := losesHolam_eq hmale (mapBasicVowel_snd ▸ hvocalic)
      have hfull : Segment.isFull ⟨pushed onset cons, ['\u0259'], [], g.has dagesh⟩ = false := by
        rfl
      simp only [emit_fst, List.countP_cons, hshuruk, hloses, hfull, Bool.false_eq_true, if_false]
      omega
  | case8 onset g rest hshuruk _ hmale cons hvocalic _ ih =>
      have hloses := losesHolam_eq hmale (mapBasicVowel_snd ▸ hvocalic)
      simp only [List.countP_cons, hshuruk, hloses, Bool.false_eq_true, if_false]
      omega

/-- The consonants at the end change no vowel. -/
theorem countP_closed (segs : List Segment) (left : List (List Char)) :
    (closed segs left).countP Segment.isFull = segs.countP Segment.isFull := by
  induction segs using List.reverseRecOn with
  | nil => rfl
  | append_singleton before last _ =>
      rw [closed, List.modifyLast_concat, List.countP_append, List.countP_append]
      rfl

/-- A word has as many full vowels as vowel points and shuruks. -/
def KeepsVowels (unicode : Unicode) (word : List Char) : Prop :=
  (wordToSegments unicode word).countP Segment.isFull =
    (glyphs unicode word).countP Glyph.carriesVowel + (glyphs unicode word).countP isShuruk

instance (unicode : Unicode) (word : List Char) : Decidable (KeepsVowels unicode word) :=
  inferInstanceAs (Decidable (_ = _))

/-- A word keeps its vowels exactly when no holam stands alone on another glyph than a vav without
dagesh. -/
theorem keepsVowels_iff (unicode : Unicode) (word : List Char) :
    KeepsVowels unicode word ↔ ∀ g ∈ glyphs unicode word, g.losesHolam = false := by
  have hcount := countP_readGlyphs [] (glyphs unicode word)
  have hlost : (glyphs unicode word).countP Glyph.losesHolam = 0 ↔
      ∀ g ∈ glyphs unicode word, g.losesHolam = false := by
    simp only [List.countP_eq_zero, Bool.not_eq_true]
  rw [← hlost, KeepsVowels, wordToSegments, countP_closed]
  omega

/-- The holam of a kaf is not read. -/
theorem holam_of_kaf_lost : ¬ KeepsVowels .hebrew [kaf, holam, lamed] := by
  decide

end Dengjen.Hebrew

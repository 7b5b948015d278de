import Dengjen.General.Joined
import Dengjen.Hebrew.Shape
import Dengjen.Hebrew.Vowels

/-!
# Sentences

The words of a text are pronounced one by one and joined by spaces. Only a text whose
joined words are empty yields no sentence, but a word may well be silent on its own:
digits, punctuation, letters without points.
-/

namespace Dengjen.Hebrew

open Joined

variable {unicode : Unicode} {g : Glyph}

/-- A glyph that begins a segment. -/
def Glyph.makesSyllable (g : Glyph) : Bool :=
  isShuruk g || isHolamMale g || (mapBasicVowel g).2 || g.has sheva

theorem readGlyphs_fst_eq_nil (onset : List (List Char)) (gs : List Glyph) :
    (readGlyphs onset gs).1 = [] ↔ ∀ g ∈ gs, g.makesSyllable = false := by
  fun_induction readGlyphs onset gs with
  | case1 onset => simp
  | case2 onset g rest hshuruk _ => simp [Glyph.makesSyllable, hshuruk]
  | case3 onset g _ hyod => cases hyod
  | case4 onset g _ next rest hyod _ =>
      have hvocalic : (mapBasicVowel g).2 := mapBasicVowel_snd ▸ hasBasicVowel_of_hiriqYod hyod
      simp [Glyph.makesSyllable, hvocalic]
  | case5 onset g rest _ _ hmale _ => simp [Glyph.makesSyllable, hmale]
  | case6 onset g rest _ _ _ cons hvocalic _ => simp [Glyph.makesSyllable, hvocalic]
  | case7 onset g rest _ _ _ cons _ hsheva _ => simp [Glyph.makesSyllable, hsheva]
  | case8 onset g rest hshuruk _ hmale cons hvocalic hsheva ih =>
      simp [Glyph.makesSyllable, hshuruk, hmale, hvocalic, hsheva, ih]

/-- A word is heard exactly when one of its glyphs makes a syllable. -/
theorem hebrewWordToIpa_ne_nil {word : List Char} :
    hebrewWordToIpa unicode word ≠ [] ↔ ∃ g ∈ glyphs unicode word, g.makesSyllable := by
  rw [ne_eq, hebrewWordToIpa_eq_nil, wordToSegments, closed_eq_nil, readGlyphs_fst_eq_nil]
  simp

theorem space_notMem_hebrewWordToIpa (word : List Char) : ' ' ∉ hebrewWordToIpa unicode word := by
  intro hspace
  exact absurd (mem_symbols_hebrewWordToIpa unicode word ' ' hspace) (by decide)

/-- The words of a text. -/
def words (unicode : Unicode) (text : List Char) : List (List Char) :=
  splitWhitespace (unicode.nfc (stripTaamim text))

/-- A sentence that is heard and has single spaces between its words. -/
structure IsSentence (sentence : List Char) : Prop where
  heard : ∃ c ∈ sentence, c ∈ consonantSymbols ∨ c ∈ vowelSymbols
  spaced : Spaced ' ' sentence

/-- Every sentence that a text yields is a proper one. -/
def YieldsSentences (unicode : Unicode) (text : List Char) : Prop :=
  ∀ sentence ∈ phonemesFromDiacritized unicode text, IsSentence sentence

theorem yieldsSentences_iff_of_ne_nil {text : List Char} (h : hebrewToIpa unicode text ≠ []) :
    YieldsSentences unicode text ↔ IsSentence (hebrewToIpa unicode text) := by
  rw [YieldsSentences, phonemesFromDiacritized, if_neg h]
  simp

theorem vowel_mem_hebrewWordToIpa {word : List Char} (h : hebrewWordToIpa unicode word ≠ []) :
    ∃ v ∈ hebrewWordToIpa unicode word, v ∈ vowelSymbols := by
  rw [ne_eq, hebrewWordToIpa_eq_nil] at h
  obtain ⟨before, v, after, heq, hv, -⟩ := isStressed_hebrewWordToIpa h
  exact ⟨v, by rw [heq]; simp, hv⟩

theorem hebrewToIpa_eq (text : List Char) : hebrewToIpa unicode text =
    [' '].intercalate ((words unicode text).map (hebrewWordToIpa unicode)) := rfl

/-- A text of one word, heard or not. -/
theorem yieldsSentences_of_singleton {text word : List Char} (h : words unicode text = [word]) :
    YieldsSentences unicode text := by
  have hipa : hebrewToIpa unicode text = hebrewWordToIpa unicode word := by
    rw [hebrewToIpa_eq, h]
    simp [List.intercalate]
  by_cases hnil : hebrewToIpa unicode text = []
  · rw [YieldsSentences, phonemesFromDiacritized, if_pos hnil]
    exact nofun
  · rw [yieldsSentences_iff_of_ne_nil hnil, hipa]
    rw [hipa] at hnil
    obtain ⟨v, hmem, hv⟩ := vowel_mem_hebrewWordToIpa hnil
    exact ⟨⟨v, hmem, .inr hv⟩, .of_notMem (space_notMem_hebrewWordToIpa word)⟩

/-- With several words the sentence is not empty, and each silent word leaves a space. -/
theorem yieldsSentences_of_cons_cons {text word word' : List Char} {rest : List (List Char)}
    (h : words unicode text = word :: word' :: rest) :
    YieldsSentences unicode text ↔
      ∀ word ∈ words unicode text, hebrewWordToIpa unicode word ≠ [] := by
  have hspaces : ∀ part ∈ (words unicode text).map (hebrewWordToIpa unicode), ' ' ∉ part := by
    rw [List.forall_mem_map]
    exact fun word _ => space_notMem_hebrewWordToIpa word
  have hparts : (words unicode text).map (hebrewWordToIpa unicode) ≠ [] := by simp [h]
  have hspaced := spaced_intercalate_iff hspaces hparts
  rw [← hebrewToIpa_eq, List.forall_mem_map] at hspaced
  have hne : hebrewToIpa unicode text ≠ [] := by
    rw [hebrewToIpa_eq, h, List.map_cons, List.map_cons, intercalate_cons_cons]
    simp
  rw [yieldsSentences_iff_of_ne_nil hne, ← hspaced]
  constructor
  · intro hsentence
    exact ⟨hne, hsentence.spaced⟩
  · rintro ⟨_, hsentence⟩
    have hword := hspaced.mp ⟨hne, hsentence⟩ word (by simp [h])
    obtain ⟨v, hmem, hv⟩ := vowel_mem_hebrewWordToIpa hword
    refine ⟨⟨v, ?_, .inr hv⟩, hsentence⟩
    rw [hebrewToIpa_eq, h, List.map_cons, List.map_cons, intercalate_cons_cons]
    exact List.mem_append_left _ hmem

/-- A text yields proper sentences exactly when it has at most one word, or every word has a glyph
that makes a syllable. -/
theorem yieldsSentences_iff (unicode : Unicode) (text : List Char) :
    YieldsSentences unicode text ↔
      (words unicode text).length ≤ 1 ∨
        ∀ word ∈ words unicode text, ∃ g ∈ glyphs unicode word, g.makesSyllable := by
  simp only [← hebrewWordToIpa_ne_nil]
  match h : words unicode text with
  | [] =>
      have hnil : hebrewToIpa unicode text = [] := by rw [hebrewToIpa_eq, h]; rfl
      have hyields : YieldsSentences unicode text := by
        rw [YieldsSentences, phonemesFromDiacritized, if_pos hnil]
        exact nofun
      simp [hyields]
  | [word] => simp [yieldsSentences_of_singleton h]
  | word :: word' :: rest =>
      have hlength : ¬ (word :: word' :: rest).length ≤ 1 := by simp
      rw [yieldsSentences_of_cons_cons h, h]
      exact ⟨.inr, fun hor => hor.resolve_left hlength⟩

/-- A number behind a word leaves a space behind it. -/
theorem number_leaves_space :
    ¬ YieldsSentences .hebrew [shin, qamats, ' ', '5'] := by
  intro h
  have hsentence := h ['\u0283', stress, 'a', ' '] (by decide)
  exact absurd hsentence.spaced.last (by decide)

end Dengjen.Hebrew

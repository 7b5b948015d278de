import Dengjen.General.PrefixCodes
import Dengjen.Kokoro.JapaneseSpacing

/-!
# The spelling of Japanese phonemes

The symbols that the vocabulary of Kokoro lacks are spelled with others. Two symbols
may then begin alike, but two moras do not, so that sentences are still told apart.
-/

namespace Dengjen.Kokoro

/-! ## The symbols of the vocabulary -/

/-- What `fit_to_vocab` makes of one symbol. -/
def fitSymbol : Char → List Char
  | 'g' => ['ɡ']
  | 'G' => ['ɡ', 'ʷ']
  | 'K' => ['k', 'ʷ']
  | 'ᵝ' => ['ʷ']
  | 'ʥ' => ['d', 'ʑ']
  | 'ʦ' => ['t', 's']
  | 'ʨ' => ['t', 'ɕ']
  | 'ƫ' => ['t', 'ʲ']
  | 'ᶀ' => ['b', 'ʲ']
  | 'ᶁ' => ['d', 'ʲ']
  | 'ᶃ' => ['ɡ', 'ʲ']
  | 'ᶄ' => ['k', 'ʲ']
  | 'ᶆ' => ['m', 'ʲ']
  | 'ᶈ' => ['p', 'ʲ']
  | 'ᶉ' => ['r', 'ʲ']
  | other => [other]

/-- The phonemes in the symbols of the vocabulary. -/
def fitToVocab (phonemes : List Char) : List Char := phonemes.flatMap fitSymbol

/-! ## What sentences are written with -/

/-- The vowels that a mora may end in. -/
def vowels : List Char := ['a', 'e', 'i', 'o', 'u']

/-- The symbols that a mora ends with, and those that stand alone. -/
def closingSymbols : List Char := vowels ++ ['ʔ', 'ɴ', 'ː', ' '] ++ punctValues

/-- The symbols that a vowel follows. -/
def onsets : List Char :=
  ['j', 'w', 'k', 'g', 'ᶄ', 'ᶃ', 'K', 'G', 's', 'z', 'ɕ', 'ʥ', 't', 'd', 'ʨ', 'ʦ', 'ƫ', 'ᶁ', 'n',
    'ɲ', 'h', 'b', 'p', 'ç', 'ᶀ', 'ᶈ', 'f', 'm', 'ᶆ', 'r', 'ᶉ', 'v']

/-- The phonemes of a mora, a mark, or a space. -/
inductive IsAtom : List Char → Prop
  | alone {c} (hc : c ∈ closingSymbols) : IsAtom [c]
  | syllable {onset vowel} (honset : onset ∈ onsets) (hvowel : vowel ∈ vowels) :
      IsAtom [onset, vowel]

/-- The symbols that sentences are spelled with. -/
def outputSymbols : List Char :=
  ['j', 'w', 'k', 'ɡ', 's', 'z', 'ɕ', 'ʑ', 't', 'd', 'n', 'ɲ', 'h', 'ç', 'b', 'p', 'f', 'm', 'r',
    'v', 'ʲ', 'ʷ'] ++ closingSymbols

/-- The phonemes of some moras and marks, with spaces. -/
def Written (text : List Char) : Prop :=
  ∃ parts : List (List Char), (∀ part ∈ parts, IsAtom part) ∧ parts.flatten = text

section Written

variable {text rest : List Char}

theorem fitToVocab_append : fitToVocab (text ++ rest) = fitToVocab text ++ fitToVocab rest :=
  List.flatMap_append

theorem fitToVocab_flatten (parts : List (List Char)) :
    fitToVocab parts.flatten = parts.flatMap fitToVocab := by
  induction parts with
  | nil => rfl
  | cons part parts ih =>
      rw [List.flatten_cons, fitToVocab_append, ih, List.flatMap_cons]

theorem fitSymbol_of_mem_outputSymbols {c : Char} (hc : c ∈ outputSymbols) : fitSymbol c = [c] := by
  have hfixed : (outputSymbols.all fun c => fitSymbol c == [c]) = true := by decide +kernel
  exact beq_iff_eq.mp (List.all_eq_true.mp hfixed c hc)

theorem fitSymbol_of_closing {c : Char} (hc : c ∈ closingSymbols) : fitSymbol c = [c] :=
  fitSymbol_of_mem_outputSymbols (List.mem_append_right _ hc)

theorem fitToVocab_alone {c : Char} (hc : c ∈ closingSymbols) : fitToVocab [c] = [c] := by
  rw [fitToVocab, List.flatMap_singleton, fitSymbol_of_closing hc]

theorem fitToVocab_syllable {c : Char} (hc : c ∈ closingSymbols) (onset : Char) :
    fitToVocab [onset, c] = fitSymbol onset ++ [c] := by
  rw [fitToVocab, List.flatMap_cons, List.flatMap_singleton, fitSymbol_of_closing hc]

theorem closing_of_vowel {c : Char} (hc : c ∈ vowels) : c ∈ closingSymbols :=
  List.mem_append_left _ (List.mem_append_left _ hc)

/-- An onset is spelled with symbols that close no mora. -/
theorem spelled_onset {onset : Char} (h : onset ∈ onsets) : fitSymbol onset ≠ [] ∧
    ∀ c ∈ fitSymbol onset, c ∈ outputSymbols ∧ c ∉ closingSymbols := by
  have honsets : (onsets.all fun onset => !(fitSymbol onset).isEmpty &&
      (fitSymbol onset).all fun c => outputSymbols.contains c && !closingSymbols.contains c) =
        true := by
    decide +kernel
  have honset := List.all_eq_true.mp honsets onset h
  simpa using honset

theorem eq_of_spelled_onset {onset other : Char} (h : onset ∈ onsets) (hother : other ∈ onsets)
    (heq : fitSymbol onset = fitSymbol other) : onset = other := by
  have hpairs : (onsets.all fun onset => onsets.all fun other =>
      fitSymbol onset != fitSymbol other || onset == other) = true := by
    decide +kernel
  have hpair := List.all_eq_true.mp (List.all_eq_true.mp hpairs onset h) other hother
  simpa [heq] using hpair

namespace IsAtom

/-- An atom is spelled with symbols that do not close it and one that does. -/
theorem spelled (h : IsAtom text) : ∃ onset c, fitToVocab text = onset ++ [c] ∧
    c ∈ closingSymbols ∧ ∀ c ∈ onset, c ∈ outputSymbols ∧ c ∉ closingSymbols := by
  cases h with
  | @alone c hc => exact ⟨[], c, fitToVocab_alone hc, hc, List.forall_mem_nil _⟩
  | @syllable onset vowel honset hvowel =>
      have hc := closing_of_vowel hvowel
      exact ⟨fitSymbol onset, vowel, fitToVocab_syllable hc onset, hc,
        (spelled_onset honset).2⟩

theorem fitToVocab_ne {onset vowel c : Char} (honset : onset ∈ onsets) (hvowel : vowel ∈ vowels)
    (hc : c ∈ closingSymbols) : fitToVocab [onset, vowel] ≠ fitToVocab [c] := by
  rw [fitToVocab_syllable (closing_of_vowel hvowel), fitToVocab_alone hc]
  intro heq
  have hnil : fitSymbol onset ++ [vowel] = [] ++ [c] := heq
  exact (spelled_onset honset).1 (List.append_singleton_inj.mp hnil).1

theorem fitToVocab_inj (h : IsAtom text) (hrest : IsAtom rest)
    (heq : fitToVocab text = fitToVocab rest) : text = rest := by
  cases h with
  | alone hc =>
      cases hrest with
      | alone hc' => rwa [fitToVocab_alone hc, fitToVocab_alone hc'] at heq
      | syllable honset hvowel => exact absurd heq.symm (fitToVocab_ne honset hvowel hc)
  | syllable honset hvowel =>
      cases hrest with
      | alone hc => exact absurd heq (fitToVocab_ne honset hvowel hc)
      | syllable honset' hvowel' =>
          rw [fitToVocab_syllable (closing_of_vowel hvowel),
            fitToVocab_syllable (closing_of_vowel hvowel')] at heq
          obtain ⟨hspelled, rfl⟩ := List.append_singleton_inj.mp heq
          rw [eq_of_spelled_onset honset honset' hspelled]

theorem mem_outputSymbols (h : IsAtom text) : ∀ c ∈ fitToVocab text, c ∈ outputSymbols := by
  obtain ⟨onset, c, hspelled, hc, honset⟩ := h.spelled
  rw [hspelled, List.forall_mem_append, List.forall_mem_singleton]
  exact ⟨fun c hmem => (honset c hmem).1, List.mem_append_right _ hc⟩

theorem eq_space (h : IsAtom text) (hspace : ' ' ∈ text) : text = [' '] := by
  cases h with
  | alone hc =>
      rw [List.mem_singleton.mp hspace]
  | syllable honset hvowel =>
      have hfresh : ' ' ∉ onsets ++ vowels := by decide +kernel
      rcases List.mem_pair.mp hspace with rfl | rfl
      · exact absurd (List.mem_append_left _ honset) hfresh
      · exact absurd (List.mem_append_right _ hvowel) hfresh

end IsAtom

/-- A spelled atom does not begin another one, though the spelling of an onset may. -/
theorem prefixCode_fitToVocab : PrefixCode IsAtom fitToVocab where
  ne_nil atom hatom := by
    obtain ⟨onset, c, hspelled, -⟩ := hatom.spelled
    rw [hspelled]
    exact List.append_ne_nil_of_right_ne_nil _ (List.cons_ne_nil c [])
  eq_of_begins a b ha hb hbegins := by
    obtain ⟨onset, c, hspelled, hc, -⟩ := ha.spelled
    obtain ⟨onset', c', hspelled', -, honset'⟩ := hb.spelled
    rw [hspelled, hspelled'] at hbegins
    obtain ⟨rfl, rfl⟩ := eq_of_closed_begins hc (fun c hmem => (honset' c hmem).2) hbegins
    exact ha.fitToVocab_inj hb (hspelled.trans hspelled'.symm)

/-- The rows of the table are atoms. -/
theorem isAtom_of_mem_moraTable : ∀ row ∈ moraTable, IsAtom row.2 := by
  have hrows : (moraTable.all fun row =>
      row.2.length == 1 && row.2.all closingSymbols.contains ||
        row.2.length == 2 && (row.2.take 1).all onsets.contains &&
          (row.2.drop 1).all vowels.contains) = true := by
    decide +kernel
  intro row hrow
  have h := List.all_eq_true.mp hrows row hrow
  simp only [Bool.or_eq_true, Bool.and_eq_true, beq_iff_eq] at h
  rcases h with ⟨hone, hclosing⟩ | ⟨⟨htwo, honset⟩, hvowel⟩
  · obtain ⟨c, hc⟩ := List.length_eq_one_iff.mp hone
    rw [hc] at hclosing ⊢
    exact .alone (by simpa using hclosing)
  · obtain ⟨onset, vowel, hsyllable⟩ := List.length_eq_two.mp htwo
    rw [hsyllable] at honset hvowel ⊢
    exact .syllable (by simpa using honset) (by simpa using hvowel)

theorem Written.append (h : Written text) (hrest : Written rest) : Written (text ++ rest) := by
  obtain ⟨parts, hparts, rfl⟩ := h
  obtain ⟨others, hothers, rfl⟩ := hrest
  exact ⟨parts ++ others, List.forall_mem_append.mpr ⟨hparts, hothers⟩, List.flatten_append⟩

theorem written_nil : Written [] := ⟨[], List.forall_mem_nil _, rfl⟩

theorem written_marks (h : ∀ c ∈ text, c ∈ ' ' :: punctValues) : Written text := by
  refine ⟨text.map fun c => [c], ?_, ?_⟩
  · intro part hpart
    obtain ⟨c, hc, rfl⟩ := List.mem_map.mp hpart
    have hmarks : ' ' :: punctValues ⊆ closingSymbols := by decide +kernel
    exact .alone (hmarks (h c hc))
  · rw [← List.flatMap_def, List.flatMap_singleton']

theorem written_moras (moras : List (List Char)) : Written (morasToPhonemes moras) := by
  refine ⟨moras.filterMap moraPhonemes, ?_, rfl⟩
  intro phonemes hphonemes
  obtain ⟨mora, -, hmora⟩ := List.mem_filterMap.mp hphonemes
  exact isAtom_of_mem_moraTable _ (exists_row_of_moraPhonemes hmora)

theorem written_text {word : Word} (h : word.isShown) : Written word.text := by
  rcases isShown_iff.mp h with hpunct | hspoken
  · have honly := (kind_punct_iff.mp hpunct).2
    rw [isPunctOnly, Bool.and_eq_true, List.all_eq_true] at honly
    rw [text_punct hpunct]
    exact written_marks fun c hc =>
      List.mem_cons_of_mem _ (List.contains_iff_mem.mp (honly.2 c hc))
  · rw [text_of_moras (moras_of_spoken hspoken)]
    exact written_moras _

theorem written_gap (h : text = [] ∨ text = [' ']) : Written text := by
  rcases h with rfl | rfl
  · exact written_nil
  · exact written_marks (List.forall_mem_singleton.mpr List.mem_cons_self)

/-- A space at the end of a text is a part of its own. -/
theorem Written.of_append_space (h : Written (text ++ [' '])) : Written text := by
  obtain ⟨parts, hparts, hflat⟩ := h
  rcases parts.eq_nil_or_concat' with rfl | ⟨before, last, rfl⟩
  · exact absurd hflat.symm (List.append_ne_nil_of_right_ne_nil _ (List.cons_ne_nil ' ' []))
  · rw [List.forall_mem_append, List.forall_mem_singleton] at hparts
    have hne : last ≠ [] := by
      rintro rfl
      exact prefixCode_fitToVocab.ne_nil _ hparts.2 rfl
    have hlast : ' ' ∈ last := by
      have hend := congrArg List.getLast? hflat
      rw [List.flatten_concat, List.getLast?_append_of_ne_nil _ hne, List.getLast?_concat] at hend
      exact List.mem_of_getLast? hend
    obtain rfl := hparts.2.eq_space hlast
    rw [List.flatten_concat] at hflat
    exact ⟨before, hparts.1, List.append_cancel_right hflat⟩

theorem Written.of_append_spaces (h : Written (text ++ rest)) (hrest : ∀ c ∈ rest, c = ' ') :
    Written text := by
  induction rest using List.reverseRecOn with
  | nil => rwa [List.append_nil] at h
  | append_singleton rest c ih =>
      rw [List.forall_mem_append, List.forall_mem_singleton] at hrest
      obtain ⟨hrest, rfl⟩ := hrest
      rw [← List.append_assoc] at h
      exact ih h.of_append_space hrest

theorem written_assemble (words : List Word) : Written (assemble words) := by
  obtain ⟨dropped, heq, hdropped⟩ := exists_trimmed words
  have hwords : Written ((tokensFrom false words).foldl joinToken []) := by
    refine foldl_joinToken_preserves ?_ words false written_nil
    intro out gap whitespace word hshown hgap hwhitespace hout
    have hgap := written_gap (hgap.imp_right And.left)
    exact ((hout.append hgap).append (written_text hshown)).append (written_gap hwhitespace)
  rw [heq] at hwords
  exact hwords.of_append_spaces hdropped

/-- What is spelled is still told apart. -/
theorem Written.fitToVocab_inj (h : Written text) (hrest : Written rest)
    (heq : fitToVocab text = fitToVocab rest) : text = rest := by
  obtain ⟨parts, hparts, rfl⟩ := h
  obtain ⟨others, hothers, rfl⟩ := hrest
  rw [fitToVocab_flatten, fitToVocab_flatten] at heq
  rw [prefixCode_fitToVocab.flatMap_inj hparts hothers heq]

theorem Written.outputSymbols (h : Written text) : ∀ c ∈ fitToVocab text, c ∈ outputSymbols := by
  obtain ⟨parts, hparts, rfl⟩ := h
  rw [fitToVocab_flatten]
  intro c hc
  obtain ⟨part, hpart, hc⟩ := List.mem_flatMap.mp hc
  exact (hparts part hpart).mem_outputSymbols c hc

/-- The symbols of the output stay as they are. -/
theorem fitToVocab_of_outputSymbols (h : ∀ c ∈ text, c ∈ outputSymbols) : fitToVocab text = text := by
  rw [fitToVocab, List.flatMap_congr fun c hc => fitSymbol_of_mem_outputSymbols (h c hc),
    List.flatMap_singleton']

end Written

end Dengjen.Kokoro

import Dengjen.General.Replacement

/-!
# The phoneme substitutions

eSpeak's IPA becomes Kokoro's phonemes by one pass of every substitution over the
whole text. The marks go in the last passes, so that two symbols which only marks
kept apart can stand together in the result.
-/

namespace Dengjen.Kokoro

open Replacement

/-- `SUBSTITUTIONS`, in order. -/
def substitutions : List (List Char × List Char) := [
  (['a', 'ɪ'], ['I']),
  (['a', 'ʊ'], ['W']),
  (['d', 'ʒ'], ['ʤ']),
  (['e', 'ɪ'], ['A']),
  (['t', 'ʃ'], ['ʧ']),
  (['ɔ', 'ɪ'], ['Y']),
  (['o', 'ʊ'], ['O']),
  (['ɚ'], ['ə', 'ɹ']),
  (['r'], ['ɹ']),
  (['x'], ['k']),
  (['ç'], ['k']),
  (['ɐ'], ['ə']),
  (['ɬ'], ['l']),
  (['ʔ'], ['t']),
  (['n', '\u0329'], ['ᵊ', 'n']),
  (['ʲ'], []),
  (['ː'], [])]

/-- The phonemes of eSpeak-ng as the voices write them. -/
def espeakIpaToKokoro (ipa : List Char) : List Char := rewrite substitutions ipa

/-- The two symbols that the last substitutions delete. -/
def isMark (c : Char) : Bool := c == 'ʲ' || c == 'ː'

/-- No source of two symbols is kept apart by marks alone, and none that a later
substitution completes. -/
structure Composes (ipa : List Char) : Prop where
  composite : ∀ rule ∈ substitutions, ∀ first last, rule.1 = [first, last] →
    ∀ marks ≠ [], marks.all isMark → ¬ first :: (marks ++ [last]) <:+: ipa
  glottal : ∀ marks, marks.all isMark → ¬ 'ʔ' :: (marks ++ ['ʃ']) <:+: ipa
  doubled : ∀ marks, marks.all isMark → ¬ 'n' :: '\u0329' :: (marks ++ ['\u0329']) <:+: ipa

/-! ## Words of two symbols and marks -/

section Words

variable {first last : Char} {marks word : List Char}

/-- A character that is neither of the two and no mark. -/
def isOther (first last c : Char) : Bool := c != first && c != last && !isMark c

/-- A word from `first` to `last` that has no other symbols but marks. -/
structure Spans (first last : Char) (word : List Char) : Prop where
  starts : word.head? = some first
  ends : word.getLast? = some last
  symbols : ∀ c ∈ word, isOther first last c = false

/-- A rule that cannot touch a word from `first` to `last`: it puts in other symbols only,
needs another symbol to apply, and can neither end at the first one nor begin at the last. -/
def passesOver (first last : Char) (rule : List Char × List Char) : Bool :=
  !rule.2.isEmpty && rule.2.all (isOther first last) && rule.1.any (isOther first last) &&
    !rule.1.tail.contains first && !rule.1.dropLast.contains last

theorem spans_marks (hmarks : marks.all isMark) : Spans first last (first :: (marks ++ [last])) := by
  refine ⟨rfl, by simp [List.getLast?_cons], ?_⟩
  intro c hc
  rw [List.all_eq_true] at hmarks
  simp only [List.mem_cons, List.mem_append, List.not_mem_nil, or_false] at hc
  rcases hc with rfl | hmark | rfl
  · simp [isOther]
  · simp [isOther, hmarks c hmark]
  · simp [isOther]

theorem Spans.ne_nil (h : Spans first last word) : word ≠ [] := by
  rintro rfl
  exact absurd h.starts (by simp)

theorem Spans.notMem (h : Spans first last word) {c : Char} (hc : isOther first last c) :
    c ∉ word := by
  intro hmem
  exact absurd hc (by simp [h.symbols c hmem])

theorem transparent_of_passesOver {rule : List Char × List Char}
    (h : passesOver first last rule) (hword : Spans first last word) :
    Transparent rule.1 rule.2 word := by
  simp only [passesOver, Bool.and_eq_true, Bool.not_eq_true', List.isEmpty_eq_false_iff,
    List.all_eq_true, List.any_eq_true, List.contains_eq_mem, decide_eq_false_iff_not] at h
  obtain ⟨⟨⟨⟨htarget, hfresh⟩, c, hc, hother⟩, hhead⟩, hlast⟩ := h
  refine ⟨List.ne_nil_of_mem hc, htarget, hword.ne_nil, ?_, ?_, ?_, ?_⟩
  · exact fun d hd => hword.notMem (hfresh d hd)
  · rw [hword.starts]
    rintro d hd
    rwa [← Option.some.inj hd]
  · rw [hword.ends]
    rintro d hd
    rwa [← Option.some.inj hd]
  · intro hwithin
    exact hword.notMem hother (hwithin.subset hc)

/-- Two symbols with marks between them are no source of two symbols. -/
theorem not_infix_of_marks (hne : marks ≠ []) (hmarks : marks.all isMark) {a b : Char}
    (ha : isMark a = false) (hb : isMark b = false) :
    ¬ [a, b] <:+: first :: (marks ++ [last]) := by
  rintro hwithin
  rw [List.all_eq_true] at hmarks
  obtain ⟨mark, marks', rfl⟩ := List.exists_cons_of_ne_nil hne
  rcases List.infix_cons_iff.mp hwithin with hprefix | hrest
  · obtain ⟨-, hsecond⟩ := List.cons_prefix_cons.mp hprefix
    obtain ⟨rfl, -⟩ := List.cons_prefix_cons.mp hsecond
    exact absurd (hmarks b List.mem_cons_self) (by simp [hb])
  · have hhead : ∀ c ∈ [a, b].head?, c ∉ mark :: marks' := by
      rintro c hc hmem
      obtain rfl := Option.some.inj hc
      exact absurd (hmarks a hmem) (by simp [ha])
    have hlast := (infix_of_infix_append (by simp) hhead hrest).length_le
    simp at hlast

theorem notMem_marks_append (hmarks : marks.all isMark) {c : Char} (hc : isMark c = false)
    (hne : c ≠ last) : c ∉ marks ++ [last] := by
  rw [List.all_eq_true] at hmarks
  intro hmem
  rcases List.mem_append.mp hmem with hmark | hlast
  · exact absurd (hmarks c hmark) (by simp [hc])
  · exact hne (List.mem_singleton.mp hlast)

/-- Symbols with marks between them do not stand together. -/
theorem not_prefix_iff_marks (hmarks : marks.all isMark) (hlast : isMark last = false) :
    ¬ [first, last] <+: first :: (marks ++ [last]) ↔ marks ≠ [] := by
  constructor
  · rintro h rfl
    exact h List.prefix_rfl
  · intro hne hprefix
    obtain ⟨mark, marks', rfl⟩ := List.exists_cons_of_ne_nil hne
    obtain ⟨-, hsecond⟩ := List.cons_prefix_cons.mp hprefix
    obtain ⟨rfl, -⟩ := List.cons_prefix_cons.mp hsecond
    rw [List.all_cons, hlast] at hmarks
    cases hmarks

/-- A rule whose target has neither the ends of its source nor a mark, among rules that pass
over its source. -/
def settles (rules : List (List Char × List Char)) (first last : Char)
    (rule : List Char × List Char) : Bool :=
  rules.contains rule && !rule.2.isEmpty && rule.2.all (isOther first last) &&
    rules.all fun other => passesOver first last other || other == rule

theorem settles_iff {rules : List (List Char × List Char)} {rule : List Char × List Char} :
    settles rules first last rule ↔
      rule ∈ rules ∧ rule.2 ≠ [] ∧ (∀ c ∈ rule.2, isOther first last c) ∧
        ∀ other ∈ rules, passesOver first last other ∨ other = rule := by
  simp [settles, List.all_eq_true, and_assoc]

/-- A source without marks does not come back once its rule has been applied. -/
theorem not_infix_rewrite_source {rules : List (List Char × List Char)}
    {rule : List Char × List Char} (hsettles : settles rules first last rule)
    (hspans : Spans first last rule.1) (text : List Char) : ¬ rule.1 <:+: rewrite rules text := by
  obtain ⟨hmem, htarget, hfresh, hrules⟩ := settles_iff.mp hsettles
  have hreplace : ∀ text, ¬ rule.1 <:+: replace rule.1 rule.2 text := fun text =>
    (replaces_replace hspans.ne_nil text).not_infix_source hspans.ne_nil htarget
      fun c hc => hspans.notMem (hfresh c hc)
  obtain ⟨before, after, rfl⟩ := List.append_of_mem hmem
  rw [rewrite_append, rewrite_cons]
  refine @rewrite_preserves _ _ _ (fun text => ¬ rule.1 <:+: text) _ ?_ (hreplace _)
  intro other hother text hnone
  rcases hrules other (List.mem_append_right _ (List.mem_cons_of_mem _ hother)) with hpass | rfl
  · have htransparent := transparent_of_passesOver hpass hspans
    rwa [htransparent.infix_iff (replaces_replace htransparent.source_ne text)]
  · exact hreplace text

/-- The source of a settled pair is left where marks keep it apart, and nowhere else. -/
theorem infix_rewrite_pair_iff {rules : List (List Char × List Char)} {target : List Char}
    (hsettles : settles rules first last ([first, last], target)) (hdistinct : first ≠ last)
    (hfirst : isMark first = false) (hlast : isMark last = false) (hmarks : marks.all isMark)
    (text : List Char) :
    first :: (marks ++ [last]) <:+: rewrite rules text ↔
      marks ≠ [] ∧ first :: (marks ++ [last]) <:+: text := by
  have hspans : Spans first last (first :: (marks ++ [last])) := spans_marks hmarks
  rcases eq_or_ne marks [] with rfl | hne
  · have hnone := not_infix_rewrite_source hsettles hspans text
    exact ⟨fun h => absurd h hnone, fun h => absurd rfl h.1⟩
  · obtain ⟨-, htarget, hfresh, hrules⟩ := settles_iff.mp hsettles
    rw [infix_rewrite_iff, and_iff_right hne]
    intro rule hmem
    rcases hrules rule hmem with hpass | rfl
    · exact transparent_of_passesOver hpass hspans
    · refine ⟨by simp, htarget, hspans.ne_nil, ?_, ?_, ?_, ?_⟩
      · exact fun c hc => hspans.notMem (hfresh c hc)
      · rw [hspans.starts]
        rintro c hc
        obtain rfl := Option.some.inj hc
        simpa using hdistinct
      · rw [hspans.ends]
        rintro c hc
        obtain rfl := Option.some.inj hc
        simpa using hdistinct.symm
      · exact not_infix_of_marks hne hmarks hfirst hlast

end Words

/-! ## The rules that compose -/

/-- The substitutions that do not delete a mark. -/
def composing : List (List Char × List Char) := substitutions.take 15

theorem substitutions_eq : substitutions = composing ++ [(['ʲ'], []), (['ː'], [])] := rfl

theorem espeakIpaToKokoro_eq (ipa : List Char) :
    espeakIpaToKokoro ipa = (rewrite composing ipa).filter fun c => !isMark c := by
  rw [espeakIpaToKokoro, substitutions_eq, rewrite_append]
  simp only [rewrite_cons, replace_singleton_nil, List.filter_filter]
  refine List.filter_congr fun c _ => ?_
  simp [isMark, bne, Bool.and_comm]

/-- Between two symbols of the result the deleted marks may have stood. -/
theorem infix_filter_marks_iff {first last : Char} (hfirst : isMark first = false)
    (hlast : isMark last = false) (text : List Char) :
    [first, last] <:+: text.filter (fun c => !isMark c) ↔
      ∃ marks, marks.all isMark ∧ first :: (marks ++ [last]) <:+: text := by
  rw [List.infix_filter_iff]
  constructor
  · rintro ⟨word, hword, hfilter⟩
    obtain ⟨before, rest, rfl, -, -, hrest⟩ := List.filter_eq_cons_iff.mp hfilter.symm
    obtain ⟨marks, after, rfl, hmarks, -, -⟩ := List.filter_eq_cons_iff.mp hrest
    refine ⟨marks, ?_, List.IsInfix.trans ?_ hword⟩
    · simpa using hmarks
    · exact ⟨before, after, by simp⟩
  · rintro ⟨marks, hmarks, hword⟩
    refine ⟨_, hword, ?_⟩
    have hdeleted : marks.filter (fun c => !isMark c) = [] := by
      simpa using hmarks
    simp [hfirst, hlast, hdeleted]

/-! ## What is left of each source -/

section Results

variable {ipa marks : List Char} {rule : List Char × List Char} {first last : Char}

/-- The rule whose source a later rule can complete. -/
def affricate : List Char × List Char := (['t', 'ʃ'], ['ʧ'])

/-- The rule that puts a symbol of its source in again. -/
def syllabic : List Char × List Char := (['n', '\u0329'], ['ᵊ', 'n'])

theorem settles_substitutions : ∀ rule ∈ substitutions, rule = affricate ∨ rule = syllabic ∨
    rule ∈ [(['ʲ'], []), (['ː'], [])] ∨
      settles composing (rule.1.headD ' ') (rule.1.getLastD ' ') rule := by
  decide

theorem sources_substitutions : ∀ rule ∈ substitutions, rule.1.length = 1 ∨
    (rule.1.length = 2 ∧ rule.1.Nodup ∧ rule.1.all fun c => !isMark c) := by
  decide

theorem source_pair (hrule : rule ∈ substitutions) (hsource : rule.1 = [first, last]) :
    first ≠ last ∧ isMark first = false ∧ isMark last = false := by
  have hcases := sources_substitutions rule hrule
  rw [hsource] at hcases
  simpa using hcases

/-- A source of one symbol is never left. -/
theorem notMem_result {c : Char} (hrule : rule ∈ substitutions) (hsource : rule.1 = [c]) :
    c ∉ espeakIpaToKokoro ipa := by
  rw [espeakIpaToKokoro_eq, List.mem_filter]
  rintro ⟨hmem, hunmarked⟩
  rcases settles_substitutions rule hrule with rfl | rfl | hmark | hsettles
  · cases hsource
  · cases hsource
  · have hcases : c = 'ʲ' ∨ c = 'ː' := by
      rcases List.mem_pair.mp hmark with rfl | rfl
      · exact .inl (List.singleton_inj.mp hsource).symm
      · exact .inr (List.singleton_inj.mp hsource).symm
    rcases hcases with rfl | rfl <;> exact absurd hunmarked (by decide)
  · have hspans : Spans c c rule.1 := by
      rw [hsource]
      exact ⟨rfl, rfl, by simp [isOther]⟩
    rw [hsource] at hsettles
    have hnone := not_infix_rewrite_source hsettles hspans ipa
    rw [hsource] at hnone
    exact hnone ((List.singleton_infix_iff c _).mpr hmem)

/-- What is left of the source of an affricate: marks kept its symbols apart, or the first
was a glottal stop. -/
theorem infix_affricate_iff (hmarks : marks.all isMark) :
    't' :: (marks ++ ['ʃ']) <:+: rewrite composing ipa ↔
      (marks ≠ [] ∧ 't' :: (marks ++ ['ʃ']) <:+: ipa) ∨ 'ʔ' :: (marks ++ ['ʃ']) <:+: ipa := by
  have hrules : composing = composing.take 13 ++ [(['ʔ'], ['t']), syllabic] := rfl
  have hsplit : rewrite composing ipa =
      replace syllabic.1 syllabic.2 (replace ['ʔ'] ['t'] (rewrite (composing.take 13) ipa)) := by
    rw [congrArg (rewrite · ipa) hrules, rewrite_append, rewrite_cons, rewrite_cons, rewrite_nil]
  have hsyllabic : passesOver 't' 'ʃ' syllabic := by decide
  have hsettles : settles (composing.take 13) 't' 'ʃ' affricate := by decide
  have hglottal : ∀ rule ∈ composing.take 13, passesOver 'ʔ' 'ʃ' rule := by decide
  rw [hsplit, (transparent_of_passesOver hsyllabic (spans_marks hmarks)).infix_iff
      (replaces_replace (by decide) _),
    infix_replace_renamed_iff (notMem_marks_append hmarks (by decide) (by decide))
      (notMem_marks_append hmarks (by decide) (by decide)),
    infix_rewrite_pair_iff hsettles (by decide) (by decide) (by decide) hmarks,
    infix_rewrite_iff fun rule hmem =>
      transparent_of_passesOver (hglottal rule hmem) (spans_marks hmarks)]

/-- What is left of the source of a syllabic consonant: marks kept its symbols apart, or the
second was there twice. -/
theorem infix_syllabic_iff (hmarks : marks.all isMark) :
    'n' :: (marks ++ ['\u0329']) <:+: rewrite composing ipa ↔
      (marks ≠ [] ∧ 'n' :: (marks ++ ['\u0329']) <:+: ipa) ∨
        'n' :: '\u0329' :: (marks ++ ['\u0329']) <:+: ipa := by
  have hrules : composing = composing.take 14 ++ [(['n', '\u0329'], ['ᵊ', 'n'])] := rfl
  have hsplit : rewrite composing ipa =
      replace ['n', '\u0329'] ['ᵊ', 'n'] (rewrite (composing.take 14) ipa) := by
    rw [congrArg (rewrite · ipa) hrules, rewrite_append, rewrite_cons, rewrite_nil]
  have hpass : ∀ rule ∈ composing.take 14, passesOver 'n' '\u0329' rule := by decide
  have htwice : Spans 'n' '\u0329' ('n' :: '\u0329' :: (marks ++ ['\u0329'])) := by
    refine ⟨rfl, by simp [List.getLast?_cons], ?_⟩
    rw [List.forall_mem_cons, List.forall_mem_cons]
    refine ⟨rfl, rfl, fun c hc => ?_⟩
    exact (spans_marks hmarks).symbols c (List.mem_cons_of_mem 'n' hc)
  rw [hsplit, (replaces_replace (by decide) _).infix_moved_iff (by decide) (by decide) (by simp)
      (notMem_marks_append hmarks (by decide) (by decide))
      (notMem_marks_append hmarks (by decide) (by decide)),
    infix_rewrite_iff fun rule hmem =>
      transparent_of_passesOver (hpass rule hmem) (spans_marks hmarks),
    infix_rewrite_iff fun rule hmem => transparent_of_passesOver (hpass rule hmem) htwice,
    not_prefix_iff_marks hmarks (by decide)]

/-- A source of two symbols is left when its symbols are, with marks alone between them. -/
theorem infix_result_iff (hfirst : isMark first = false) (hlast : isMark last = false) :
    [first, last] <:+: espeakIpaToKokoro ipa ↔
      ∃ marks, marks.all isMark ∧ first :: (marks ++ [last]) <:+: rewrite composing ipa := by
  rw [espeakIpaToKokoro_eq, infix_filter_marks_iff hfirst hlast]

/-- What composes leaves no source of two symbols. -/
theorem Composes.not_infix_result (h : Composes ipa) (hrule : rule ∈ substitutions)
    (hsource : rule.1 = [first, last]) : ¬ [first, last] <:+: espeakIpaToKokoro ipa := by
  obtain ⟨hdistinct, hfirst, hlast⟩ := source_pair hrule hsource
  rw [infix_result_iff hfirst hlast]
  rintro ⟨marks, hmarks, hwithin⟩
  have hapart := h.composite rule hrule first last hsource marks
  rcases settles_substitutions rule hrule with rfl | rfl | hmark | hsettles
  · obtain ⟨rfl, rfl⟩ : 't' = first ∧ 'ʃ' = last := by simpa [affricate] using hsource
    rcases (infix_affricate_iff hmarks).mp hwithin with ⟨hne, hleft⟩ | hleft
    · exact hapart hne hmarks hleft
    · exact h.glottal marks hmarks hleft
  · obtain ⟨rfl, rfl⟩ : 'n' = first ∧ '\u0329' = last := by simpa [syllabic] using hsource
    rcases (infix_syllabic_iff hmarks).mp hwithin with ⟨hne, hleft⟩ | hleft
    · exact hapart hne hmarks hleft
    · exact h.doubled marks hmarks hleft
  · rcases List.mem_pair.mp hmark with rfl | rfl <;> cases hsource
  · obtain ⟨source, target⟩ := rule
    obtain rfl : source = [first, last] := hsource
    obtain ⟨hne, hleft⟩ :=
      (infix_rewrite_pair_iff hsettles hdistinct hfirst hlast hmarks ipa).mp hwithin
    exact hapart hne hmarks hleft

/-- A pair that marks alone keep apart is left. -/
theorem infix_result_of_apart (hrule : rule ∈ substitutions) (hsource : rule.1 = [first, last])
    (hne : marks ≠ []) (hmarks : marks.all isMark) (hwithin : first :: (marks ++ [last]) <:+: ipa) :
    [first, last] <:+: espeakIpaToKokoro ipa := by
  obtain ⟨hdistinct, hfirst, hlast⟩ := source_pair hrule hsource
  rw [infix_result_iff hfirst hlast]
  refine ⟨marks, hmarks, ?_⟩
  rcases settles_substitutions rule hrule with rfl | rfl | hmark | hsettles
  · obtain ⟨rfl, rfl⟩ : 't' = first ∧ 'ʃ' = last := by simpa [affricate] using hsource
    exact (infix_affricate_iff hmarks).mpr (.inl ⟨hne, hwithin⟩)
  · obtain ⟨rfl, rfl⟩ : 'n' = first ∧ '\u0329' = last := by simpa [syllabic] using hsource
    exact (infix_syllabic_iff hmarks).mpr (.inl ⟨hne, hwithin⟩)
  · rcases List.mem_pair.mp hmark with rfl | rfl <;> cases hsource
  · obtain ⟨source, target⟩ := rule
    obtain rfl : source = [first, last] := hsource
    exact (infix_rewrite_pair_iff hsettles hdistinct hfirst hlast hmarks ipa).mpr ⟨hne, hwithin⟩

/-- The result is a normal form of the substitutions exactly when the input composes. -/
theorem normal_iff_composes (ipa : List Char) :
    ((∀ rule ∈ substitutions, ¬ rule.1 <:+: espeakIpaToKokoro ipa) ∧
        espeakIpaToKokoro (espeakIpaToKokoro ipa) = espeakIpaToKokoro ipa) ↔ Composes ipa := by
  constructor
  · rintro ⟨hnone, -⟩
    refine ⟨?_, ?_, ?_⟩
    · intro rule hrule first last hsource marks hne hmarks hwithin
      have hleft := infix_result_of_apart hrule hsource hne hmarks hwithin
      exact hnone rule hrule (hsource ▸ hleft)
    · intro marks hmarks hwithin
      have hleft := (infix_affricate_iff hmarks).mpr (.inr hwithin)
      exact hnone affricate (by decide)
        ((infix_result_iff (by decide) (by decide)).mpr ⟨marks, hmarks, hleft⟩)
    · intro marks hmarks hwithin
      have hleft := (infix_syllabic_iff hmarks).mpr (.inr hwithin)
      exact hnone syllabic (by decide)
        ((infix_result_iff (by decide) (by decide)).mpr ⟨marks, hmarks, hleft⟩)
  · intro h
    have hnone : ∀ rule ∈ substitutions, ¬ rule.1 <:+: espeakIpaToKokoro ipa := by
      intro rule hrule
      rcases sources_substitutions rule hrule with hone | ⟨htwo, -⟩
      · obtain ⟨c, hc⟩ := List.length_eq_one_iff.mp hone
        rw [hc, List.singleton_infix_iff]
        exact notMem_result hrule hc
      · obtain ⟨first, last, hsource⟩ := List.length_eq_two.mp htwo
        rw [hsource]
        exact h.not_infix_result hrule hsource
    refine ⟨hnone, ?_⟩
    exact rewrite_eq_self (by decide) hnone

/-- A long vowel between the symbols of a diphthong is left as a diphthong. -/
theorem long_diphthong_left :
    espeakIpaToKokoro ['a', 'ː', 'ɪ'] = ['a', 'ɪ'] ∧
      ¬ (∀ rule ∈ substitutions, ¬ rule.1 <:+: espeakIpaToKokoro ['a', 'ː', 'ɪ']) ∧
      espeakIpaToKokoro (espeakIpaToKokoro ['a', 'ː', 'ɪ']) = ['I'] := by
  refine ⟨by decide, ?_, by decide⟩
  intro hnone
  have hresult : espeakIpaToKokoro ['a', 'ː', 'ɪ'] = ['a', 'ɪ'] := by decide
  rw [hresult] at hnone
  exact hnone (['a', 'ɪ'], ['I']) (by decide) List.infix_rfl

end Results

end Dengjen.Kokoro

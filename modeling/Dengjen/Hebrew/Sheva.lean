import Dengjen.Hebrew.Segments
import Mathlib.Algebra.Ring.Parity
import Mathlib.Algebra.Group.Nat.Even

/-!
# Which consonants a word keeps

A silent sheva leaves its segment without a vowel and its consonants with the segment
before it. When it is the last sheva of the word, the consonants behind it are in its
coda, and the second pass moves only onsets: they are lost. Of several shevas at the
end of a word every second one is silent, beginning with the first.
-/

namespace Dengjen.Hebrew

variable {segs before : List Segment} {s last : Segment} {left : List (List Char)}

/-! ## Silent shevas -/

/-- A sheva that may be silent. -/
def Segment.isQuiet (s : Segment) : Bool := s.nucleus = ['\u0259'] ∧ ¬ s.dagesh

/-- How many segments at the end have such a sheva. At the start of a word no sheva is silent. -/
def shevaRun (segs : List Segment) : Nat := (segs.tail.reverse.takeWhile Segment.isQuiet).length

theorem shevaRun_concat :
    shevaRun (segs ++ [s]) = if segs ≠ [] ∧ s.isQuiet then shevaRun segs + 1 else 0 := by
  cases segs with
  | nil => rfl
  | cons first rest =>
      rw [shevaRun, List.cons_append, List.tail_cons, List.reverse_append, List.reverse_singleton,
        List.singleton_append, List.takeWhile_cons]
      by_cases hquiet : s.isQuiet
      · simp [hquiet, shevaRun]
      · simp [hquiet]

theorem shevaRun_of_not_quiet (h : s.isQuiet = false) : shevaRun (segs ++ [s]) = 0 := by
  rw [shevaRun_concat, if_neg (by simp [h])]

theorem isQuiet_eq_false_of_nucleus (h : s.nucleus ≠ ['\u0259']) : s.isQuiet = false := by
  simp [Segment.isQuiet, h]

/-- The last sheva is silent when the number of shevas at the end is odd. -/
theorem silenced_iff : (afterSheva segs).2 = true ↔ Odd (shevaRun segs) := by
  induction segs using List.reverseRecOn with
  | nil => decide
  | append_singleton before last ih =>
      have hread := resolved_afterSheva before last
      generalize afterSheva (before ++ [last]) = read at hread ⊢
      cases hread with
      | full hnucleus =>
          rw [shevaRun_of_not_quiet (isQuiet_eq_false_of_nucleus hnucleus)]
          simp
      | heard hnucleus hna =>
          rw [shevaRun_concat]
          split
          · next hquiet =>
              obtain ⟨hbefore, hquiet⟩ := hquiet
              simp only [Segment.isQuiet, decide_eq_true_eq, Bool.not_eq_true] at hquiet
              rw [afterSheva_fst_eq_nil, hquiet.2] at hna
              have hodd : Odd (shevaRun before) := by
                rw [← ih]
                simpa [hbefore] using hna
              simpa using hodd.add_one
          · simp
      | silent hnucleus hbefore hdagesh hprev =>
          have hquiet : last.isQuiet := by simp [Segment.isQuiet, hnucleus, hdagesh]
          have heven : ¬ Odd (shevaRun before) := by simp [← ih, hprev]
          rw [shevaRun_concat, if_pos ⟨mt afterSheva_fst_eq_nil.mpr hbefore, hquiet⟩]
          simpa [Nat.odd_add_one] using heven

/-! ## What the second pass finds -/

/-- Nothing is lost with a segment like this. -/
def Segment.Emptied (s : Segment) : Prop := s.nucleus = [] → s.onset = [] ∧ s.coda = []

/-- A segment that has a vowel and no consonants behind it. -/
def Segment.Open (s : Segment) : Prop := s.nucleus ≠ [] ∧ s.coda = []

theorem emptied_of_nucleus (h : s.nucleus ≠ []) : s.Emptied := fun hnil => absurd hnil h

theorem consonants_merge (h : ∀ s ∈ segs, s.Emptied) : consonants (merge segs) = consonants segs := by
  induction segs using List.reverseRecOn with
  | nil => rfl
  | append_singleton before last ih =>
      rw [List.forall_mem_append, List.forall_mem_singleton] at h
      obtain ⟨hbefore, hlast⟩ := h
      have hih := ih hbefore
      rw [merge_concat, consonants_append, ← hih, mergeSegment]
      split
      · next hnucleus =>
          obtain ⟨honset, hcoda⟩ := hlast hnucleus
          split
          · next hnil => simp [hnil]
          · next hmerged => simp [honset, hcoda]
      · simp

theorem emptied_closed (h : ∀ s ∈ segs, s.Emptied) (hvoiced : ∀ s ∈ segs.getLast?, s.nucleus ≠ []) :
    ∀ s ∈ closed segs left, s.Emptied := by
  induction segs using List.reverseRecOn with
  | nil => exact nofun
  | append_singleton before last _ =>
      rw [List.forall_mem_append] at h
      have hlast : last.nucleus ≠ [] := hvoiced last (by simp)
      rw [closed_concat, List.forall_mem_append, List.forall_mem_singleton]
      exact ⟨h.1, emptied_of_nucleus hlast⟩

/-- No segment of the first pass has consonants that the second one does not move, and the last one
keeps its vowel unless its sheva is silent. -/
theorem emptied_afterSheva (h : ∀ s ∈ segs, s.Open) :
    (∀ s ∈ (afterSheva segs).1, s.Emptied) ∧
      ((afterSheva segs).2 = false → ∀ s ∈ (afterSheva segs).1.getLast?, s.nucleus ≠ []) := by
  induction segs using List.reverseRecOn with
  | nil => exact ⟨nofun, fun _ => nofun⟩
  | append_singleton before last ih =>
      rw [List.forall_mem_append, List.forall_mem_singleton] at h
      obtain ⟨hbefore, hlast⟩ := h
      obtain ⟨hemptied, hvoiced⟩ := ih hbefore
      have hread := resolved_afterSheva before last
      generalize afterSheva (before ++ [last]) = read at hread ⊢
      cases hread with
      | full _ =>
          refine ⟨?_, fun _ => by simpa using hlast.1⟩
          rw [List.forall_mem_append, List.forall_mem_singleton]
          exact ⟨hemptied, emptied_of_nucleus hlast.1⟩
      | heard _ _ =>
          refine ⟨?_, fun _ => by simp⟩
          rw [List.forall_mem_append, List.forall_mem_singleton]
          exact ⟨hemptied, emptied_of_nucleus (List.cons_ne_nil 'e' [])⟩
      | silent _ _ _ hprev =>
          refine ⟨?_, nofun⟩
          rw [List.forall_mem_append, List.forall_mem_singleton]
          exact ⟨emptied_closed hemptied (hvoiced hprev), fun _ => ⟨rfl, hlast.2⟩⟩

/-! ## What is lost -/

/-- The consonants behind a silent last sheva. -/
def lostCoda (segs : List Segment) : List (List Char) :=
  if Odd (shevaRun segs) then (segs.getLast?.map Segment.coda).getD [] else []

theorem lostCoda_concat : lostCoda (segs ++ [s]) =
    if Odd (shevaRun (segs ++ [s])) then s.coda else [] := by
  simp [lostCoda]

/-- How the first pass ends when the last sheva is silent. -/
theorem afterSheva_of_odd (hodd : Odd (shevaRun (before ++ [last]))) :
    (afterSheva before).1 ≠ [] ∧ (afterSheva before).2 = false ∧
      (afterSheva (before ++ [last])).1 =
        closed (afterSheva before).1 last.onset ++ [{ last with onset := [], nucleus := [] }] := by
  have hread := resolved_afterSheva before last
  have hsilenced := silenced_iff.mpr hodd
  generalize afterSheva (before ++ [last]) = read at hread hsilenced ⊢
  cases hread with
  | full _ | heard _ _ => cases hsilenced
  | silent _ hbefore _ hprev => exact ⟨hbefore, hprev, rfl⟩

/-- What a silent last sheva leaves does not depend on the consonants behind it. -/
theorem resolved_of_silenced (h : ∀ s ∈ before, s.Open)
    (hodd : Odd (shevaRun (before ++ [last]))) :
    resolveShevaAndQamats (before ++ [last]) = merge (closed (afterSheva before).1 last.onset) := by
  obtain ⟨hbefore, -, hpass⟩ := afterSheva_of_odd hodd
  have hhead : (nuclei (closed (afterSheva before).1 last.onset)).head? ≠ some [] := by
    rw [nuclei_closed]
    apply head_nuclei_afterSheva
    intro n hn
    obtain ⟨s, hs, rfl⟩ := List.mem_map.mp hn
    exact (h s hs).1
  have hmerged : merge (closed (afterSheva before).1 last.onset) ≠ [] := by
    rw [ne_eq, merge_eq_nil hhead, closed_eq_nil]
    exact hbefore
  rw [resolveShevaAndQamats_eq, hpass, merge_concat, mergeSegment_of_silent rfl hmerged,
    closed_empty]

theorem consonants_resolved_of_heard (h : ∀ s ∈ before, s.Open) (hlast : last.nucleus ≠ [])
    (heven : ¬ Odd (shevaRun (before ++ [last]))) :
    consonants (resolveShevaAndQamats (before ++ [last])) = consonants (before ++ [last]) := by
  obtain ⟨hemptied, -⟩ := emptied_afterSheva h
  have hpass : consonants (afterSheva (before ++ [last])).1 = consonants (before ++ [last]) :=
    consonants_afterSheva
  have hread := resolved_afterSheva before last
  rw [← silenced_iff] at heven
  rw [resolveShevaAndQamats_eq, ← hpass]
  apply consonants_merge
  generalize afterSheva (before ++ [last]) = read at hread heven ⊢
  cases hread with
  | full _ =>
      rw [List.forall_mem_append, List.forall_mem_singleton]
      exact ⟨hemptied, emptied_of_nucleus hlast⟩
  | heard _ _ =>
      rw [List.forall_mem_append, List.forall_mem_singleton]
      exact ⟨hemptied, emptied_of_nucleus (List.cons_ne_nil 'e' [])⟩
  | silent _ _ _ _ => exact absurd rfl heven

/-- Resolving shevas loses the consonants behind a silent last sheva and no others. -/
theorem consonants_resolved (h : ∀ s ∈ before, s.Open) (hlast : last.nucleus ≠ []) :
    consonants (resolveShevaAndQamats (before ++ [last])) ++ lostCoda (before ++ [last]) =
      consonants (before ++ [last]) := by
  rw [lostCoda_concat]
  split
  · next hodd =>
      obtain ⟨hemptied, hvoiced⟩ := emptied_afterSheva h
      obtain ⟨hbefore, hprev, -⟩ := afterSheva_of_odd hodd
      have hclosed : ∀ s ∈ closed (afterSheva before).1 last.onset, s.Emptied :=
        emptied_closed hemptied (hvoiced hprev)
      rw [resolved_of_silenced h hodd, consonants_merge hclosed, consonants_closed hbefore,
        consonants_afterSheva, consonants_append]
      simp
  · next heven => rw [consonants_resolved_of_heard h hlast heven, List.append_nil]

/-- The segments of a word: all but the last are open, and so is the last but for its coda. -/
theorem open_of_closed {segs : List Segment} (h : ∀ s ∈ segs, IsRead s)
    (hclosed : closed segs left = before ++ [last]) :
    (∀ s ∈ before, s.Open) ∧ last.nucleus ≠ [] := by
  induction segs using List.reverseRecOn with
  | nil => simp at hclosed
  | append_singleton front back _ =>
      rw [List.forall_mem_append, List.forall_mem_singleton] at h
      have hopen : ∀ s, IsRead s → s.Open := by
        rintro s ⟨hnucleus, hcoda⟩
        refine ⟨?_, hcoda⟩
        intro hnil
        rw [hnil] at hnucleus
        exact absurd hnucleus (by decide)
      rw [closed_concat] at hclosed
      obtain ⟨rfl, hback⟩ := List.append_inj' hclosed rfl
      rw [← List.singleton_inj.mp hback]
      exact ⟨fun s hs => hopen s (h.1 s hs), (hopen back h.2).1⟩

theorem consonants_resolved_word (unicode : Unicode) (word : List Char) :
    consonants (resolveShevaAndQamats (wordToSegments unicode word)) ++
      lostCoda (wordToSegments unicode word) = consonants (wordToSegments unicode word) := by
  have hread := isRead_readGlyphs [] (glyphs unicode word)
  rcases List.eq_nil_or_concat' (wordToSegments unicode word) with hnil | ⟨before, last, hconcat⟩
  · rw [hnil]
    rfl
  · obtain ⟨hopen, hlast⟩ := open_of_closed hread hconcat
    rw [hconcat]
    exact consonants_resolved hopen hlast

/-! ## What is written out -/

/-- The symbols of consonants, without glottal stops and tie bars. -/
def isConsonantSymbol (c : Char) : Bool := !isVowel c && c ≠ stress && c ≠ glottal && c ≠ '\u0361'

theorem filter_of_fullVowel {n : List Char} (h : n ∈ fullVowels) :
    n.filter isConsonantSymbol = [] := by
  revert n
  decide

theorem filter_syllable (stressed : Bool) (h : s.nucleus ∈ fullVowels) :
    (syllable stressed s).filter isConsonantSymbol =
      (s.onset ++ s.coda).flatten.filter isConsonantSymbol := by
  have hstress : [stress].filter isConsonantSymbol = [] := by decide
  rw [syllable]
  split <;>
    simp only [List.filter_append, List.flatten_append, filter_of_fullVowel h, hstress,
      List.append_nil]

theorem filter_syllables (h : ∀ n ∈ nuclei segs, n ∈ fullVowels) (index start : Nat) :
    (syllables index start segs).filter isConsonantSymbol =
      (consonants segs).flatten.filter isConsonantSymbol := by
  induction segs generalizing start with
  | nil => rfl
  | cons s rest ih =>
      rw [nuclei_cons, List.forall_mem_cons] at h
      rw [syllables_cons, List.filter_append, ih h.2, filter_syllable _ h.1, consonants_cons]
      simp only [List.flatten_append, List.filter_append]

/-- Only glottal stops are stripped. -/
theorem filter_stripUnrealizedGlottalStops (ipa : List Char) :
    (stripUnrealizedGlottalStops ipa).filter isConsonantSymbol = ipa.filter isConsonantSymbol := by
  have hglottal : isConsonantSymbol glottal = false := by decide
  induction ipa with
  | nil => rfl
  | cons c rest ih =>
      rw [stripUnrealizedGlottalStops]
      split
      · rw [List.filter_cons, List.filter_cons, ih]
      · next hc =>
          rw [ne_eq, not_not] at hc
          subst hc
          split <;> simp [hglottal, ih]

theorem filter_hebrewWordToIpa (unicode : Unicode) (word : List Char) :
    (hebrewWordToIpa unicode word).filter isConsonantSymbol =
      (consonants (resolveShevaAndQamats (wordToSegments unicode word))).flatten.filter
        isConsonantSymbol := by
  have htie (c : Char) : (decide (c ≠ '\u0361') && isConsonantSymbol c) = isConsonantSymbol c := by
    rw [isConsonantSymbol]
    cases decide (c ≠ '\u0361') <;> simp
  rw [hebrewWordToIpa, List.filter_filter]
  simp only [Bool.and_comm, htie]
  rw [filter_stripUnrealizedGlottalStops, syllabifyToIpa_eq_syllables, filter_syllables]
  exact mem_nuclei_resolved (mem_nuclei_wordToSegments unicode word)

/-! ## The words that keep their consonants -/

/-- Resolving shevas moves consonants but loses none, and the output has them all. -/
structure KeepsConsonants (unicode : Unicode) (word : List Char) : Prop where
  kept : consonants (resolveShevaAndQamats (wordToSegments unicode word)) =
    consonants (wordToSegments unicode word)
  written : (hebrewWordToIpa unicode word).filter isConsonantSymbol =
    (consonants (wordToSegments unicode word)).flatten.filter isConsonantSymbol

theorem keepsConsonants_of_lostCoda {unicode : Unicode} {word : List Char}
    (h : lostCoda (wordToSegments unicode word) = []) : KeepsConsonants unicode word := by
  have hlost := consonants_resolved_word unicode word
  rw [h, List.append_nil] at hlost
  exact ⟨hlost, by rw [filter_hebrewWordToIpa, hlost]⟩

/-- A word keeps its consonants exactly when none follow its last vowel, or when it ends with an
even number of shevas that may be silent. -/
theorem keepsConsonants_iff (unicode : Unicode) (word : List Char) :
    KeepsConsonants unicode word ↔
      (∀ last ∈ (wordToSegments unicode word).getLast?, last.coda = []) ∨
        Even (shevaRun (wordToSegments unicode word)) := by
  have hlost := consonants_resolved_word unicode word
  have hkept : KeepsConsonants unicode word ↔ lostCoda (wordToSegments unicode word) = [] := by
    constructor
    · intro h
      rw [h.kept] at hlost
      exact List.append_right_eq_self.mp hlost
    · exact keepsConsonants_of_lostCoda
  rw [hkept, lostCoda, ← Nat.not_odd_iff_even]
  cases (wordToSegments unicode word).getLast? with
  | none => simp
  | some last =>
      simp only [Option.map_some, Option.getD_some, Option.mem_def, Option.some.injEq, forall_eq',
        ite_eq_right_iff]
      exact imp_iff_or_not

/-- The qof behind the silent sheva of the resh is lost. -/
theorem qof_lost : ¬ KeepsConsonants .hebrew [bet, patah, resh, sheva, qof] := by
  intro h
  exact absurd h.kept (by decide)

end Dengjen.Hebrew

import Dengjen.Hebrew.Ipa
import Mathlib.Data.List.Induction

/-!
# Segments on their way to syllables

What the segments of a word hold, and what becomes of their vowels and consonants
when shevas are resolved: the first pass moves consonants from one segment to the one
before it, and the second takes out the segments that have no vowel any more.
-/

namespace Dengjen.Hebrew

variable {segs segs' before : List Segment} {s last : Segment} {left : List (List Char)}

/-! ## Consonants and vowels of segments -/

/-- The consonants of a word in order. -/
def consonants (segs : List Segment) : List (List Char) := segs.flatMap fun s => s.onset ++ s.coda

/-- The vowels of segments. -/
def nuclei (segs : List Segment) : List (List Char) := segs.map Segment.nucleus

@[simp] theorem consonants_nil : consonants [] = [] := rfl

@[simp] theorem consonants_append : consonants (segs ++ segs') = consonants segs ++ consonants segs' :=
  List.flatMap_append

@[simp] theorem consonants_cons : consonants (s :: segs) = s.onset ++ s.coda ++ consonants segs := rfl

@[simp] theorem nuclei_nil : nuclei [] = [] := rfl

@[simp] theorem nuclei_append : nuclei (segs ++ segs') = nuclei segs ++ nuclei segs' :=
  List.map_append

@[simp] theorem nuclei_cons : nuclei (s :: segs) = s.nucleus :: nuclei segs := rfl

@[simp] theorem nuclei_singleton : nuclei [s] = [s.nucleus] := rfl

@[simp] theorem nuclei_eq_nil : nuclei segs = [] ↔ segs = [] := List.map_eq_nil_iff

@[simp] theorem closed_nil : closed [] left = [] := rfl

@[simp] theorem closed_concat :
    closed (before ++ [last]) left = before ++ [{ last with coda := last.coda ++ left }] :=
  List.modifyLast_concat ..

@[simp] theorem closed_empty : closed segs [] = segs := by
  induction segs using List.reverseRecOn with
  | nil => rfl
  | append_singleton before last _ => simp

@[simp] theorem closed_eq_nil : closed segs left = [] ↔ segs = [] := by
  induction segs using List.reverseRecOn with
  | nil => simp
  | append_singleton before last _ => simp

@[simp] theorem nuclei_closed : nuclei (closed segs left) = nuclei segs := by
  induction segs using List.reverseRecOn with
  | nil => rfl
  | append_singleton before last _ => simp

theorem consonants_closed (h : segs ≠ []) :
    consonants (closed segs left) = consonants segs ++ left := by
  induction segs using List.reverseRecOn with
  | nil => exact absurd rfl h
  | append_singleton before last _ => simp

/-! ## The first pass -/

/-- The segments after the first pass, and whether the last of them lost its sheva. -/
def afterSheva (segs : List Segment) : List Segment × Bool := segs.foldl resolveSheva ([], false)

@[simp] theorem afterSheva_concat :
    afterSheva (segs ++ [s]) = resolveSheva (afterSheva segs) s :=
  List.foldl_concat ..

/-- What becomes of the last segment. -/
inductive Resolved (before : List Segment) (prevSilencedShva : Bool) (s : Segment) :
    List Segment × Bool → Prop
  | full (hnucleus : s.nucleus ≠ ['\u0259']) :
      Resolved before prevSilencedShva s (before ++ [s], false)
  | heard (hnucleus : s.nucleus = ['\u0259'])
      (hna : before = [] ∨ s.dagesh ∨ prevSilencedShva) :
      Resolved before prevSilencedShva s (before ++ [{ s with nucleus := ['e'] }], false)
  | silent (hnucleus : s.nucleus = ['\u0259']) (hbefore : before ≠ []) (hdagesh : s.dagesh = false)
      (hprev : prevSilencedShva = false) :
      Resolved before prevSilencedShva s
        (closed before s.onset ++ [{ s with onset := [], nucleus := [] }], true)

theorem resolved_resolveSheva (read : List Segment × Bool) (s : Segment) :
    Resolved read.1 read.2 s (resolveSheva read s) := by
  rw [resolveSheva]
  split
  · next hnucleus => exact .full hnucleus
  · next hnucleus =>
      rw [not_not] at hnucleus
      dsimp only
      split
      · next hna =>
          refine .heard hnucleus ?_
          by_cases hbefore : read.1 = []
          · exact .inl hbefore
          · simpa [hbefore] using hna
      · next hna =>
          have hprevious : read.1 ≠ [] := by
            intro hbefore
            simp [hbefore] at hna
          obtain ⟨hdagesh, hprev⟩ : s.dagesh = false ∧ read.2 = false := by
            simpa [hprevious] using hna
          exact .silent hnucleus hprevious hdagesh hprev

theorem resolved_afterSheva (before : List Segment) (last : Segment) :
    Resolved (afterSheva before).1 (afterSheva before).2 last (afterSheva (before ++ [last])) := by
  rw [afterSheva_concat]
  exact resolved_resolveSheva (afterSheva before) last

theorem afterSheva_fst_eq_nil : (afterSheva segs).1 = [] ↔ segs = [] := by
  induction segs using List.reverseRecOn with
  | nil => exact Iff.rfl
  | append_singleton before last _ =>
      have h := resolved_afterSheva before last
      generalize afterSheva (before ++ [last]) = read at h ⊢
      cases h <;> simp

theorem consonants_afterSheva : consonants (afterSheva segs).1 = consonants segs := by
  induction segs using List.reverseRecOn with
  | nil => rfl
  | append_singleton before last ih =>
      have h := resolved_afterSheva before last
      generalize afterSheva (before ++ [last]) = read at h ⊢
      cases h with
      | full _ | heard _ _ => simp [ih]
      | silent _ hbefore _ _ => simp [consonants_closed hbefore, ih]

/-! ## Full vowels -/

/-- The vowels that a word keeps. -/
def fullVowels : List (List Char) := [['a'], ['e'], ['i'], ['o'], ['u']]

/-- The first pass leaves full vowels and segments without a vowel. -/
theorem mem_nuclei_afterSheva (h : ∀ n ∈ nuclei segs, n ∈ fullVowels ∨ n = ['\u0259']) :
    ∀ n ∈ nuclei (afterSheva segs).1, n ∈ fullVowels ∨ n = [] := by
  induction segs using List.reverseRecOn with
  | nil => exact nofun
  | append_singleton before last ih =>
      rw [nuclei_append, nuclei_singleton, List.forall_mem_append, List.forall_mem_singleton] at h
      obtain ⟨hfront, hlast⟩ := h
      have hbefore := ih hfront
      have hread := resolved_afterSheva before last
      generalize afterSheva (before ++ [last]) = read at hread ⊢
      cases hread with
      | full hnucleus =>
          rw [nuclei_append, nuclei_singleton, List.forall_mem_append, List.forall_mem_singleton]
          exact ⟨hbefore, .inl (hlast.resolve_right hnucleus)⟩
      | heard _ _ =>
          have he : ['e'] ∈ fullVowels := by decide
          rw [nuclei_append, nuclei_singleton, List.forall_mem_append, List.forall_mem_singleton]
          exact ⟨hbefore, .inl he⟩
      | silent _ _ _ _ =>
          rw [nuclei_append, nuclei_closed, nuclei_singleton, List.forall_mem_append,
            List.forall_mem_singleton]
          exact ⟨hbefore, .inr rfl⟩

/-- The first segment keeps its vowel. -/
theorem head_nuclei_afterSheva (h : ∀ n ∈ nuclei segs, n ≠ []) :
    (nuclei (afterSheva segs).1).head? ≠ some [] := by
  induction segs using List.reverseRecOn with
  | nil => exact nofun
  | append_singleton before last ih =>
      rw [nuclei_append, nuclei_singleton, List.forall_mem_append, List.forall_mem_singleton] at h
      obtain ⟨hfront, hlast⟩ := h
      have hbefore := ih hfront
      have hread := resolved_afterSheva before last
      generalize afterSheva (before ++ [last]) = read at hread ⊢
      cases hread with
      | full _ =>
          cases hfst : (afterSheva before).1 with
          | nil => simpa using hlast
          | cons first rest => simpa [hfst] using hbefore
      | heard _ _ =>
          cases hfst : (afterSheva before).1 with
          | nil => simp
          | cons first rest => simpa [hfst] using hbefore
      | silent _ hne _ _ =>
          have hsome : nuclei (afterSheva before).1 ≠ [] := by simpa using hne
          rwa [nuclei_append, nuclei_closed, List.head?_append_of_ne_nil _ hsome]

/-! ## The second pass -/

/-- The segments after those without a vowel are merged. -/
def merge (segs : List Segment) : List Segment := segs.foldl mergeSegment []

theorem resolveShevaAndQamats_eq : resolveShevaAndQamats segs = merge (afterSheva segs).1 := rfl

@[simp] theorem merge_concat : merge (segs ++ [s]) = mergeSegment (merge segs) s :=
  List.foldl_concat ..

theorem mergeSegment_of_nucleus (h : s.nucleus ≠ []) : mergeSegment segs s = segs ++ [s] :=
  if_neg h

theorem mergeSegment_of_silent (h : s.nucleus = []) (hsegs : segs ≠ []) :
    mergeSegment segs s = closed segs s.onset := by
  rw [mergeSegment, if_pos h, if_neg hsegs]

/-- Of texts that begin with a nonempty one, one is nonempty. -/
theorem filter_ne_nil_eq_nil {texts : List (List Char)} (h : texts.head? ≠ some []) :
    texts.filter (· ≠ []) = [] ↔ texts = [] := by
  cases texts with
  | nil => simp
  | cons first rest =>
      have hfirst : first ≠ [] := by simpa using h
      simp [hfirst]

/-- The segments with a vowel are left. -/
theorem nuclei_merge (h : (nuclei segs).head? ≠ some []) :
    nuclei (merge segs) = (nuclei segs).filter (· ≠ []) := by
  induction segs using List.reverseRecOn with
  | nil => rfl
  | append_singleton before last ih =>
      rw [merge_concat]
      by_cases hnucleus : last.nucleus = []
      · have hbefore : before ≠ [] := by
          intro hnil
          simp [hnil, hnucleus] at h
        have hsome : nuclei before ≠ [] := by simpa using hbefore
        rw [nuclei_append, List.head?_append_of_ne_nil _ hsome] at h
        have hmerged : merge before ≠ [] := by
          rw [ne_eq, ← nuclei_eq_nil, ih h, filter_ne_nil_eq_nil h]
          exact hsome
        rw [mergeSegment_of_silent hnucleus hmerged, nuclei_closed, ih h, nuclei_append,
          List.filter_append]
        simp [hnucleus]
      · have hbefore : (nuclei before).head? ≠ some [] := by
          cases hnuclei : nuclei before with
          | nil => exact nofun
          | cons first rest => simpa [hnuclei] using h
        rw [mergeSegment_of_nucleus hnucleus, nuclei_append, ih hbefore, nuclei_append,
          List.filter_append]
        simp [hnucleus]

theorem merge_eq_nil (h : (nuclei segs).head? ≠ some []) : merge segs = [] ↔ segs = [] := by
  have hmerged : nuclei (merge segs) = [] ↔ nuclei segs = [] := by
    rw [nuclei_merge h, filter_ne_nil_eq_nil h]
  rwa [nuclei_eq_nil, nuclei_eq_nil] at hmerged

/-- Merging brings no consonant in. -/
theorem consonants_merge_subset : consonants (merge segs) ⊆ consonants segs := by
  induction segs using List.reverseRecOn with
  | nil => exact List.Subset.refl _
  | append_singleton before last ih =>
      rw [merge_concat, consonants_append]
      by_cases hnucleus : last.nucleus = [] ∧ merge before ≠ []
      · rw [mergeSegment_of_silent hnucleus.1 hnucleus.2, consonants_closed hnucleus.2]
        exact List.append_subset.mpr ⟨List.subset_append_of_subset_left _ ih,
          List.subset_append_of_subset_right _ (by simp)⟩
      · have hpush : mergeSegment (merge before) last = merge before ++ [last] := by
          rw [mergeSegment]
          split
          · next hsilent =>
              have hnil : merge before = [] := by simpa [hsilent] using hnucleus
              rw [hnil]
              rfl
          · rfl
        rw [hpush, consonants_append]
        exact List.append_subset.mpr ⟨List.subset_append_of_subset_left _ ih,
          List.subset_append_right ..⟩

/-! ## Both passes -/

theorem ne_nil_of_vowel (h : ∀ n ∈ nuclei segs, n ∈ fullVowels ∨ n = ['\u0259']) :
    ∀ n ∈ nuclei segs, n ≠ [] := by
  rintro n hn rfl
  exact absurd (h [] hn) (by decide)

theorem nuclei_resolved (h : ∀ n ∈ nuclei segs, n ∈ fullVowels ∨ n = ['\u0259']) :
    nuclei (resolveShevaAndQamats segs) = (nuclei (afterSheva segs).1).filter (· ≠ []) :=
  nuclei_merge (head_nuclei_afterSheva (ne_nil_of_vowel h))

/-- Each of the resolved segments has a full vowel. -/
theorem mem_nuclei_resolved (h : ∀ n ∈ nuclei segs, n ∈ fullVowels ∨ n = ['\u0259']) :
    ∀ n ∈ nuclei (resolveShevaAndQamats segs), n ∈ fullVowels := by
  rw [nuclei_resolved h]
  intro n hn
  obtain ⟨hmem, hne⟩ := List.mem_filter.mp hn
  exact (mem_nuclei_afterSheva h n hmem).resolve_right (by simpa using hne)

theorem resolved_eq_nil (h : ∀ n ∈ nuclei segs, n ∈ fullVowels ∨ n = ['\u0259']) :
    resolveShevaAndQamats segs = [] ↔ segs = [] := by
  rw [resolveShevaAndQamats_eq, merge_eq_nil (head_nuclei_afterSheva (ne_nil_of_vowel h)),
    afterSheva_fst_eq_nil]

theorem consonants_resolved_subset : consonants (resolveShevaAndQamats segs) ⊆ consonants segs := by
  have hpass : consonants (afterSheva segs).1 = consonants segs := consonants_afterSheva
  rw [resolveShevaAndQamats_eq, ← hpass]
  exact consonants_merge_subset

/-! ## What is read -/

variable {g : Glyph}

/-- What one glyph makes: a segment if it has a vowel, the consonants that wait behind it, and
whether it takes the next glyph with it. -/
def readGlyph (onset : List (List Char)) (g : Glyph) (next : Option Glyph) (isFinal : Bool) :
    List Segment × List (List Char) × Bool :=
  if isShuruk g then ([⟨onset, ['u'], [], false⟩], [], false)
  else if isHiriqYod g next then
    ([⟨pushed onset (glyphConsonant g false), ['i'], [], false⟩], [], true)
  else if isHolamMale g then ([⟨onset, ['o'], [], false⟩], [], false)
  else if (mapBasicVowel g).2 then
    ([⟨pushed onset (glyphConsonant g isFinal), (mapBasicVowel g).1, [], false⟩], [], false)
  else if g.has sheva then
    ([⟨pushed onset (glyphConsonant g isFinal), ['\u0259'], [], g.has dagesh⟩], [], false)
  else ([], waiting onset (glyphConsonant g isFinal), false)

/-- Segments before what is read behind them. -/
def emits (segs : List Segment) (behind : List Segment × List (List Char)) :
    List Segment × List (List Char) :=
  (segs ++ behind.1, behind.2)

theorem emits_emits (segs segs' : List Segment) (behind : List Segment × List (List Char)) :
    emits segs (emits segs' behind) = emits (segs ++ segs') behind := by
  rw [emits, emits, emits, List.append_assoc]

/-- Glyphs are read one by one, but for a yod that a hiriq takes. -/
theorem readGlyphs_cons (onset : List (List Char)) (g : Glyph) (rest : List Glyph) :
    readGlyphs onset (g :: rest) =
      let read := readGlyph onset g rest.head? rest.isEmpty
      emits read.1 (readGlyphs read.2.1 (if read.2.2 then rest.tail else rest)) := by
  rw [readGlyphs.eq_def, readGlyph]
  cases rest with
  | nil =>
      simp only [List.head?_nil, isHiriqYod, Bool.false_eq_true, if_false]
      split_ifs <;> rfl
  | cons next rest =>
      simp only [List.head?_cons]
      by_cases hshuruk : isShuruk g
      · simp only [hshuruk, if_true]
        rfl
      · by_cases hyod : isHiriqYod g (some next)
        · simp only [hshuruk, hyod, if_true, Bool.false_eq_true, if_false]
          rfl
        · simp only [hshuruk, hyod, Bool.false_eq_true, if_false]
          split_ifs <;> first | rfl | contradiction

theorem isHiriqYod_of_readGlyph {onset : List (List Char)} {next : Option Glyph} {isFinal : Bool}
    (h : (readGlyph onset g next isFinal).2.2) : isHiriqYod g next := by
  revert h
  rw [readGlyph]
  split_ifs with _ hyod
  all_goals first | exact fun _ => hyod | exact nofun

theorem mapBasicVowel_fst_mem (h : (mapBasicVowel g).2) : (mapBasicVowel g).1 ∈ fullVowels := by
  revert h
  simp only [mapBasicVowel]
  split_ifs <;> decide

/-- A segment that is read has a vowel or a sheva, and no consonants behind it yet. -/
def IsRead (s : Segment) : Prop := (s.nucleus ∈ fullVowels ∨ s.nucleus = ['\u0259']) ∧ s.coda = []

theorem isRead_readGlyphs (onset : List (List Char)) (gs : List Glyph) :
    ∀ s ∈ (readGlyphs onset gs).1, IsRead s := by
  fun_induction readGlyphs onset gs with
  | case1 | case3 => exact nofun
  | case2 | case4 | case5 =>
      rw [emit_fst, List.forall_mem_cons]
      exact ⟨⟨.inl (by simp [fullVowels]), rfl⟩, by assumption⟩
  | case6 onset g rest _ _ _ cons hvocalic ih =>
      rw [emit_fst, List.forall_mem_cons]
      exact ⟨⟨.inl (mapBasicVowel_fst_mem hvocalic), rfl⟩, ih⟩
  | case7 onset g rest _ _ _ cons _ _ ih =>
      rw [emit_fst, List.forall_mem_cons]
      exact ⟨⟨.inr rfl, rfl⟩, ih⟩
  | case8 onset g rest _ _ _ cons _ _ ih => exact ih

theorem mem_nuclei_wordToSegments (unicode : Unicode) (word : List Char) :
    ∀ n ∈ nuclei (wordToSegments unicode word), n ∈ fullVowels ∨ n = ['\u0259'] := by
  rw [wordToSegments, nuclei_closed]
  intro n hn
  obtain ⟨s, hs, rfl⟩ := List.mem_map.mp hn
  exact (isRead_readGlyphs [] (glyphs unicode word) s hs).1

/-! ## What is written out -/

/-- The syllables of a word when the one with a given number is stressed. -/
def syllables (index start : Nat) (segs : List Segment) : List Char :=
  (segs.zipIdx start).flatMap fun (s, idx) => syllable (idx = index) s

@[simp] theorem syllables_nil (index start : Nat) : syllables index start [] = [] := rfl

theorem syllables_cons (index start : Nat) (s : Segment) (segs : List Segment) :
    syllables index start (s :: segs) =
      syllable (start = index) s ++ syllables index (start + 1) segs := rfl

theorem syllabifyToIpa_eq_syllables (segs : List Segment) :
    syllabifyToIpa segs = syllables (stressIndex segs) 0 segs := rfl

end Dengjen.Hebrew

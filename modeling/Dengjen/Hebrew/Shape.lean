import Dengjen.Hebrew.Segments
import Mathlib.Data.Bool.AllAny

/-!
# The shape of a pronounced word

Every symbol of the output comes from a fixed set, whatever the word holds. A word with
a vowel has one stress mark, before its stressed vowel, and a glottal stop is kept only
before a vowel.
-/

namespace Dengjen.Hebrew

/-! ## The sounds of consonants -/

/-- Every consonant that a segment may hold. Tie bars are still in them. -/
def sounds : List (List Char) :=
  [['\u0294'], ['h'], ['j'], ['v'], ['\u0283'], ['s'], ['b'], ['k'], ['\u03C7'], ['p'], ['f'], ['g'],
    ['d'], ['t'], ['l'], ['m'], ['n'], "t\u0361s".toList, ['\u0281'], ['z'], "d\u0361\u0292".toList,
    ['\u0292'], "t\u0361\u0283".toList]

variable {unicode : Unicode} {g : Glyph} {gs : List Glyph} {cons : List Char}
  {onset : List (List Char)}

/-- Nothing, the placeholder of alef and ayin, or a sound. -/
def IsConsonant (cons : List Char) : Prop := cons = [] ∨ cons = glt ∨ cons ∈ sounds

instance : DecidablePred IsConsonant := fun _ => inferInstanceAs (Decidable (_ ∨ _ ∨ _))

theorem IsConsonant.ite {p : Prop} [Decidable p] {cons cons' : List Char} (h : IsConsonant cons)
    (h' : IsConsonant cons') : IsConsonant (if p then cons else cons') := by
  split
  · exact h
  · exact h'

theorem isConsonant_mapConsonant (base : Char) (marks : List Char) (isFinal : Bool) :
    IsConsonant (mapConsonant base marks isFinal) := by
  rw [mapConsonant]
  repeat' apply IsConsonant.ite
  all_goals decide

/-- One character, or a letter with its geresh. -/
def Glyph.IsRegular (g : Glyph) : Prop :=
  (∃ c, g.base = [c]) ∨ ∃ ipa ∈ gereshDigraphs.map Prod.snd, g.base = "<IPA:".toList ++ ipa ++ ">".toList

section addChar

variable {p : Glyph → Prop}

theorem forall_mem_addChar {c : Char} (h : ∀ g ∈ gs, p g)
    (hmark : ∀ g, p g → p { g with marks := g.marks ++ [c] }) (hplain : p (.plain c)) :
    ∀ g ∈ addChar unicode gs c, p g := by
  rw [addChar]
  split
  · induction gs using List.reverseRecOn with
    | nil => exact List.forall_mem_nil _
    | append_singleton before last _ =>
        rw [List.forall_mem_append, List.forall_mem_singleton] at h
        rw [List.modifyLast_concat, List.forall_mem_append, List.forall_mem_singleton]
        exact ⟨h.1, hmark last h.2⟩
  · rw [List.forall_mem_append, List.forall_mem_singleton]
    exact ⟨h, hplain⟩

/-- What is true of a plain glyph and stays so with more marks is true of every glyph of a text. -/
theorem forall_mem_foldl_addChar {text : List Char}
    (hmark : ∀ c ∈ text, ∀ g, p g → p { g with marks := g.marks ++ [c] })
    (hplain : ∀ c ∈ text, p (.plain c)) :
    ∀ g ∈ text.foldl (addChar unicode) [], p g := by
  induction text using List.reverseRecOn with
  | nil => exact List.forall_mem_nil _
  | append_singleton front c ih =>
      rw [List.forall_mem_append, List.forall_mem_singleton] at hmark hplain
      rw [List.foldl_concat]
      exact forall_mem_addChar (ih hmark.1 hplain.1) hmark.2 hplain.2

end addChar

theorem base_iterGlyphs (word : List Char) : ∀ g ∈ iterGlyphs unicode word, ∃ c, g.base = [c] := by
  apply forall_mem_foldl_addChar
  · exact fun _ _ _ hbase => hbase
  · exact fun c _ => ⟨c, rfl⟩

theorem isRegular_applyGereshDigraphs (h : ∀ g ∈ gs, ∃ c, g.base = [c]) :
    ∀ g ∈ applyGereshDigraphs gs, g.IsRegular := by
  fun_induction applyGereshDigraphs gs with
  | case1 => exact nofun
  | case2 g => exact fun g hg => .inl (h g hg)
  | case3 g next rest _ ipa hipa ih =>
      rw [List.forall_mem_cons, List.forall_mem_cons] at h
      rw [List.forall_mem_cons]
      obtain ⟨front, back, hdigraphs, -⟩ := List.lookup_eq_some_iff.mp hipa
      have hmem : ipa ∈ gereshDigraphs.map Prod.snd := by
        rw [hdigraphs]
        simp
      exact ⟨.inr ⟨ipa, hmem, rfl⟩, ih h.2.2⟩
  | case4 g next rest _ _ ih | case5 g next rest _ ih =>
      rw [List.forall_mem_cons] at h
      rw [List.forall_mem_cons]
      exact ⟨.inl h.1, ih h.2⟩

theorem isRegular_glyphs (word : List Char) : ∀ g ∈ glyphs unicode word, g.IsRegular :=
  isRegular_applyGereshDigraphs (base_iterGlyphs word)

theorem digraphIpa_singleton (c : Char) : digraphIpa [c] = none := by
  simp [digraphIpa, List.dropPrefix?]

theorem digraphIpa_placeholder : ∀ ipa ∈ gereshDigraphs.map Prod.snd,
    digraphIpa ("<IPA:".toList ++ ipa ++ ">".toList) = some ipa ∧ IsConsonant ipa := by
  decide

theorem isConsonant_glyphConsonant (h : g.IsRegular) (isFinal : Bool) :
    IsConsonant (glyphConsonant g isFinal) := by
  rcases h with ⟨c, hbase⟩ | ⟨ipa, hipa, hbase⟩
  · rw [glyphConsonant, hbase, digraphIpa_singleton]
    exact isConsonant_mapConsonant ..
  · obtain ⟨hdigraph, hconsonant⟩ := digraphIpa_placeholder ipa hipa
    rw [glyphConsonant, hbase, hdigraph]
    exact hconsonant

theorem mem_sounds_pushed (honset : ∀ c ∈ onset, c ∈ sounds) (hcons : IsConsonant cons) :
    ∀ c ∈ pushed onset cons, c ∈ sounds := by
  rw [pushed]
  split
  · next h =>
      rw [List.forall_mem_append, List.forall_mem_singleton]
      exact ⟨honset, (hcons.resolve_left h.1).resolve_left h.2⟩
  · exact honset

theorem mem_sounds_waiting (honset : ∀ c ∈ onset, c ∈ sounds) (hcons : IsConsonant cons) :
    ∀ c ∈ waiting onset cons, c ∈ sounds := by
  rw [waiting]
  split
  · have hglottal : ['\u0294'] ∈ sounds := by decide
    rw [List.forall_mem_append, List.forall_mem_singleton]
    exact ⟨honset, hglottal⟩
  · next hglt =>
      split
      · next h =>
          rw [List.forall_mem_append, List.forall_mem_singleton]
          exact ⟨honset, (hcons.resolve_left h).resolve_left hglt⟩
      · exact honset

/-- Segments hold sounds only, and so does what is left behind them. -/
theorem mem_sounds_readGlyphs (honset : ∀ c ∈ onset, c ∈ sounds) (hgs : ∀ g ∈ gs, g.IsRegular) :
    ∀ c ∈ consonants (readGlyphs onset gs).1 ++ (readGlyphs onset gs).2, c ∈ sounds := by
  fun_induction readGlyphs onset gs with
  | case1 onset => exact honset
  | case2 onset g rest _ ih | case5 onset g rest _ _ _ ih =>
      have hrest := ih (List.forall_mem_nil _) (List.forall_mem_cons.mp hgs).2
      simp only [emit_fst, emit_snd, consonants_cons, List.append_nil, List.append_assoc,
        List.forall_mem_append] at hrest ⊢
      exact ⟨honset, hrest⟩
  | case3 onset g _ _ => exact honset
  | case4 onset g _ next rest _ ih =>
      rw [List.forall_mem_cons, List.forall_mem_cons] at hgs
      have hrest := ih (List.forall_mem_nil _) hgs.2.2
      have hcons := isConsonant_glyphConsonant hgs.1 false
      simp only [emit_fst, emit_snd, consonants_cons, List.append_nil, List.append_assoc,
        List.forall_mem_append] at hrest ⊢
      exact ⟨mem_sounds_pushed honset hcons, hrest⟩
  | case6 onset g rest _ _ _ cons _ ih | case7 onset g rest _ _ _ cons _ _ ih =>
      rw [List.forall_mem_cons] at hgs
      have hrest := ih (List.forall_mem_nil _) hgs.2
      have hcons : IsConsonant cons := isConsonant_glyphConsonant hgs.1 _
      simp only [emit_fst, emit_snd, consonants_cons, List.append_nil, List.append_assoc,
        List.forall_mem_append] at hrest ⊢
      exact ⟨mem_sounds_pushed honset hcons, hrest⟩
  | case8 onset g rest _ _ _ cons _ _ ih =>
      rw [List.forall_mem_cons] at hgs
      have hcons : IsConsonant cons := isConsonant_glyphConsonant hgs.1 _
      exact ih (mem_sounds_waiting honset hcons) hgs.2

theorem mem_sounds_resolved (unicode : Unicode) (word : List Char) :
    ∀ c ∈ consonants (resolveShevaAndQamats (wordToSegments unicode word)), c ∈ sounds := by
  have hread : ∀ c ∈ consonants (readGlyphs [] (glyphs unicode word)).1 ++
      (readGlyphs [] (glyphs unicode word)).2, c ∈ sounds :=
    mem_sounds_readGlyphs (List.forall_mem_nil _) (isRegular_glyphs word)
  intro c hc
  apply hread c
  have hword := consonants_resolved_subset hc
  rw [wordToSegments] at hword
  by_cases hnil : (readGlyphs [] (glyphs unicode word)).1 = []
  · simp [hnil] at hword
  · rwa [consonants_closed hnil] at hword

/-! ## The stress mark -/

/-- The symbols of consonants and vowels. The schwa is none of them. -/
def consonantSymbols : List Char := "bdfghjklmnpstvz\u0281\u0283\u0292\u03C7".toList

/-- The symbols of the full vowels. -/
def vowelSymbols : List Char := "aeiou".toList

theorem stressIndex_lt {segs : List Segment} (h : segs ≠ []) : stressIndex segs < segs.length := by
  have hpos := List.length_pos_iff.mpr h
  rw [stressIndex.eq_def]
  split
  · split <;> simp
  · omega

theorem syllables_of_lt {index start : Nat} (h : index < start) (segs : List Segment) :
    syllables index start segs = segs.flatMap (syllable false) := by
  induction segs generalizing start with
  | nil => rfl
  | cons s rest ih =>
      rw [syllables_cons, ih (Nat.lt_succ_of_lt h), decide_eq_false (Nat.ne_of_gt h),
        List.flatMap_cons]

theorem exists_syllables_eq {index start : Nat} (hle : start ≤ index) {segs : List Segment}
    (hlt : index < start + segs.length) :
    ∃ front s back, segs = front ++ s :: back ∧ syllables index start segs =
      front.flatMap (syllable false) ++ syllable true s ++ back.flatMap (syllable false) := by
  induction segs generalizing start with
  | nil =>
      rw [List.length_nil] at hlt
      omega
  | cons s rest ih =>
      rw [List.length_cons] at hlt
      rw [syllables_cons]
      by_cases heq : start = index
      · refine ⟨[], s, rest, rfl, ?_⟩
        rw [decide_eq_true heq, syllables_of_lt (by omega)]
        rfl
      · have hnext : start + 1 ≤ index := by omega
        obtain ⟨front, t, back, rfl, hrest⟩ := ih hnext (by omega)
        refine ⟨s :: front, t, back, rfl, ?_⟩
        rw [decide_eq_false heq, hrest, List.flatMap_cons]
        simp only [List.append_assoc]

/-- What a word consists of besides its stress mark, before tie bars are taken out. -/
def IsSpoken (c : Char) : Prop :=
  c ∈ consonantSymbols ∨ c ∈ vowelSymbols ∨ c = glottal ∨ c = '\u0361'

instance : DecidablePred IsSpoken := fun _ => inferInstanceAs (Decidable (_ ∨ _ ∨ _ ∨ _))

theorem isSpoken_of_sounds {cs : List (List Char)} (h : ∀ c ∈ cs, c ∈ sounds) :
    ∀ c ∈ cs.flatten, IsSpoken c := by
  have hsounds : ∀ c ∈ sounds.flatten, IsSpoken c := List.all_iff_forall_prop.mp (by decide)
  intro c hc
  obtain ⟨cons, hcons, hmem⟩ := List.mem_flatten.mp hc
  exact hsounds c (List.mem_flatten_of_mem (h cons hcons) hmem)

/-- A segment with a full vowel and with sounds around it. -/
structure Segment.IsSounded (s : Segment) : Prop where
  nucleus : s.nucleus ∈ fullVowels
  onset : ∀ c ∈ s.onset, c ∈ sounds
  coda : ∀ c ∈ s.coda, c ∈ sounds

theorem fullVowel_eq {n : List Char} (h : n ∈ fullVowels) : ∃ v ∈ vowelSymbols, n = [v] := by
  have hmap : fullVowels = vowelSymbols.map fun v => [v] := by decide
  rw [hmap] at h
  obtain ⟨v, hv, hn⟩ := List.mem_map.mp h
  exact ⟨v, hv, hn.symm⟩

theorem isSpoken_syllable {s : Segment} (h : s.IsSounded) : ∀ c ∈ syllable false s, IsSpoken c := by
  obtain ⟨v, hv, hnucleus⟩ := fullVowel_eq h.nucleus
  simp only [syllable, Bool.false_eq_true, if_false, hnucleus, List.forall_mem_append,
    List.forall_mem_singleton]
  exact ⟨⟨isSpoken_of_sounds h.onset, .inr (.inl hv)⟩, isSpoken_of_sounds h.coda⟩

theorem isSpoken_syllables {segs : List Segment} (h : ∀ s ∈ segs, s.IsSounded) :
    ∀ c ∈ segs.flatMap (syllable false), IsSpoken c := by
  intro c hc
  obtain ⟨s, hs, hmem⟩ := List.mem_flatMap.mp hc
  exact isSpoken_syllable (h s hs) c hmem

/-- A word with its stress mark before a vowel, and the mark nowhere else. -/
def IsStressed (ipa : List Char) : Prop :=
  ∃ before vowel after, ipa = before ++ stress :: vowel :: after ∧ vowel ∈ vowelSymbols ∧
    ∀ c ∈ before ++ after, IsSpoken c

theorem isStressed_syllabifyToIpa {segs : List Segment} (h : ∀ s ∈ segs, s.IsSounded)
    (hne : segs ≠ []) : IsStressed (syllabifyToIpa segs) := by
  have hlt : stressIndex segs < 0 + segs.length := by
    rw [Nat.zero_add]
    exact stressIndex_lt hne
  obtain ⟨front, s, back, hsegs, heq⟩ := exists_syllables_eq (Nat.zero_le _) hlt
  rw [hsegs, List.forall_mem_append, List.forall_mem_cons] at h
  obtain ⟨hfront, hs, hback⟩ := h
  obtain ⟨v, hv, hnucleus⟩ := fullVowel_eq hs.nucleus
  refine ⟨front.flatMap (syllable false) ++ s.onset.flatten, v,
    s.coda.flatten ++ back.flatMap (syllable false), ?_, hv, ?_⟩
  · rw [syllabifyToIpa_eq_syllables, heq, syllable, if_pos rfl, hnucleus]
    simp only [List.append_assoc, List.cons_append, List.nil_append]
  · simp only [List.forall_mem_append]
    exact ⟨⟨isSpoken_syllables hfront, isSpoken_of_sounds hs.onset⟩, isSpoken_of_sounds hs.coda,
      isSpoken_syllables hback⟩

/-! ## Glottal stops -/

theorem stripUnrealizedGlottalStops_cons_of_ne {c : Char} (h : c ≠ glottal) (rest : List Char) :
    stripUnrealizedGlottalStops (c :: rest) = c :: stripUnrealizedGlottalStops rest := by
  rw [stripUnrealizedGlottalStops, if_pos h]

theorem stripUnrealizedGlottalStops_subset (ipa : List Char) :
    stripUnrealizedGlottalStops ipa ⊆ ipa := by
  induction ipa with
  | nil => exact List.Subset.refl _
  | cons c rest ih =>
      rw [stripUnrealizedGlottalStops]
      split_ifs
      · exact List.cons_subset_cons c ih
      · exact List.cons_subset_cons c ih
      · exact List.Subset.trans ih (List.subset_cons_self c rest)

/-- The stressed vowel stays where it is. -/
theorem stripUnrealizedGlottalStops_append (before after : List Char) {v : Char}
    (hv : v ∈ vowelSymbols) :
    ∃ before', stripUnrealizedGlottalStops (before ++ stress :: v :: after) =
      before' ++ stress :: v :: stripUnrealizedGlottalStops after ∧ before' ⊆ before := by
  have hvowel : v ≠ glottal := by
    rintro rfl
    exact absurd hv (by decide)
  induction before with
  | nil =>
      refine ⟨[], ?_, List.Subset.refl _⟩
      rw [List.nil_append, stripUnrealizedGlottalStops_cons_of_ne (by decide),
        stripUnrealizedGlottalStops_cons_of_ne hvowel]
      rfl
  | cons c rest ih =>
      obtain ⟨before', heq, hsub⟩ := ih
      rw [List.cons_append, stripUnrealizedGlottalStops]
      split_ifs
      · exact ⟨c :: before', by rw [heq, List.cons_append], List.cons_subset_cons c hsub⟩
      · exact ⟨c :: before', by rw [heq, List.cons_append], List.cons_subset_cons c hsub⟩
      · exact ⟨before', heq, List.Subset.trans hsub (List.subset_cons_self c rest)⟩

theorem isStressed_stripUnrealizedGlottalStops {ipa : List Char} (h : IsStressed ipa) :
    IsStressed (stripUnrealizedGlottalStops ipa) := by
  obtain ⟨before, v, after, rfl, hv, hspoken⟩ := h
  obtain ⟨before', heq, hsub⟩ := stripUnrealizedGlottalStops_append before after hv
  rw [List.forall_mem_append] at hspoken
  refine ⟨before', v, _, heq, hv, ?_⟩
  rw [List.forall_mem_append]
  exact ⟨fun c hc => hspoken.1 c (hsub hc),
    fun c hc => hspoken.2 c (stripUnrealizedGlottalStops_subset after hc)⟩

theorem followedByVowel_iff {rest : List Char} :
    followedByVowel rest ↔
      ∃ v after, isVowel v ∧ (rest = v :: after ∨ rest = stress :: v :: after) := by
  have hstress : isVowel stress = false := by decide
  cases rest with
  | nil => simp [followedByVowel]
  | cons c rest =>
      by_cases hc : c = stress
      · subst hc
        cases rest with
        | nil => simp [followedByVowel, hstress]
        | cons d rest =>
            have hnext : followedByVowel (stress :: d :: rest) = isVowel d := by
              simp [followedByVowel]
            rw [hnext]
            constructor
            · exact fun h => ⟨d, rest, h, .inr rfl⟩
            · rintro ⟨v, after, hv, heq | heq⟩
              · cases heq
                exact absurd hv (by decide)
              · cases heq
                exact hv
      · simp [followedByVowel, hc]

theorem ne_glottal_of_isVowel {v : Char} (h : isVowel v) : v ≠ glottal := by
  rintro rfl
  exact absurd h (by decide)

theorem followedByVowel_strip {rest : List Char} (h : followedByVowel rest) :
    followedByVowel (stripUnrealizedGlottalStops rest) := by
  have hstress : stress ≠ glottal := by decide
  rw [followedByVowel_iff] at h ⊢
  obtain ⟨v, after, hv, rfl | rfl⟩ := h
  · exact ⟨v, _, hv, .inl (stripUnrealizedGlottalStops_cons_of_ne (ne_glottal_of_isVowel hv) _)⟩
  · refine ⟨v, stripUnrealizedGlottalStops after, hv, .inr ?_⟩
    rw [stripUnrealizedGlottalStops_cons_of_ne hstress,
      stripUnrealizedGlottalStops_cons_of_ne (ne_glottal_of_isVowel hv)]

/-- A vowel, with or without the stress mark, comes behind every glottal stop. -/
def GlottalsFollowed (ipa : List Char) : Prop :=
  ∀ before after, ipa = before ++ glottal :: after → followedByVowel after

theorem glottalsFollowed_cons {c : Char} {rest : List Char} (h : GlottalsFollowed rest)
    (hc : c = glottal → followedByVowel rest) : GlottalsFollowed (c :: rest) := by
  intro before after heq
  cases before with
  | nil =>
      rw [List.nil_append, List.cons.injEq] at heq
      exact heq.2 ▸ hc heq.1
  | cons d before =>
      rw [List.cons_append, List.cons.injEq] at heq
      exact h before after heq.2

/-- Glottal stops that nothing realizes are gone. -/
theorem glottalsFollowed_strip (ipa : List Char) :
    GlottalsFollowed (stripUnrealizedGlottalStops ipa) := by
  induction ipa with
  | nil =>
      intro before after heq
      cases before <;> cases heq
  | cons c rest ih =>
      rw [stripUnrealizedGlottalStops]
      split_ifs with hc hvowel
      · exact glottalsFollowed_cons ih fun heq => absurd heq hc
      · exact glottalsFollowed_cons ih fun _ => followedByVowel_strip hvowel
      · exact ih

/-! ## Tie bars -/

theorem filter_cons_of_ne_tie {c : Char} (h : c ≠ '\u0361') (rest : List Char) :
    (c :: rest).filter (· ≠ '\u0361') = c :: rest.filter (· ≠ '\u0361') :=
  List.filter_cons_of_pos (decide_eq_true h)

theorem followedByVowel_filter {rest : List Char} (h : followedByVowel rest) :
    followedByVowel (rest.filter (· ≠ '\u0361')) := by
  have htie {v : Char} (hv : isVowel v) : v ≠ '\u0361' := by
    rintro rfl
    exact absurd hv (by decide)
  rw [followedByVowel_iff] at h ⊢
  obtain ⟨v, after, hv, rfl | rfl⟩ := h
  · exact ⟨v, _, hv, .inl (filter_cons_of_ne_tie (htie hv) after)⟩
  · refine ⟨v, after.filter (· ≠ '\u0361'), hv, .inr ?_⟩
    rw [filter_cons_of_ne_tie (by decide), filter_cons_of_ne_tie (htie hv)]

theorem glottalsFollowed_filter {ipa : List Char} (h : GlottalsFollowed ipa) :
    GlottalsFollowed (ipa.filter (· ≠ '\u0361')) := by
  intro before after heq
  obtain ⟨front, back, rfl, -, hback⟩ := List.filter_eq_append_iff.mp heq
  obtain ⟨ties, rest, rfl, -, -, rfl⟩ := List.filter_eq_cons_iff.mp hback
  apply followedByVowel_filter
  apply h (front ++ ties) rest
  rw [List.append_assoc]

theorem isStressed_filter {ipa : List Char} (h : IsStressed ipa) :
    IsStressed (ipa.filter (· ≠ '\u0361')) := by
  obtain ⟨before, v, after, rfl, hv, hspoken⟩ := h
  have htie : v ≠ '\u0361' := by
    rintro rfl
    exact absurd hv (by decide)
  refine ⟨before.filter (· ≠ '\u0361'), v, after.filter (· ≠ '\u0361'), ?_, hv, ?_⟩
  · rw [List.filter_append, filter_cons_of_ne_tie (by decide), filter_cons_of_ne_tie htie]
  · rw [List.forall_mem_append] at hspoken ⊢
    exact ⟨fun c hc => hspoken.1 c (List.mem_of_mem_filter hc),
      fun c hc => hspoken.2 c (List.mem_of_mem_filter hc)⟩

/-! ## Words -/

theorem isSounded_resolved (unicode : Unicode) (word : List Char) :
    ∀ s ∈ resolveShevaAndQamats (wordToSegments unicode word), s.IsSounded := by
  have hnuclei := mem_nuclei_resolved (mem_nuclei_wordToSegments unicode word)
  have hsounds := mem_sounds_resolved unicode word
  intro s hs
  have hmem : ∀ c ∈ s.onset ++ s.coda, c ∈ sounds :=
    fun c hc => hsounds c (List.mem_flatMap.mpr ⟨s, hs, hc⟩)
  rw [List.forall_mem_append] at hmem
  exact ⟨hnuclei s.nucleus (List.mem_map.mpr ⟨s, hs, rfl⟩), hmem.1, hmem.2⟩

theorem isStressed_hebrewWordToIpa {unicode : Unicode} {word : List Char}
    (h : wordToSegments unicode word ≠ []) : IsStressed (hebrewWordToIpa unicode word) := by
  have hne : resolveShevaAndQamats (wordToSegments unicode word) ≠ [] := by
    rwa [ne_eq, resolved_eq_nil (mem_nuclei_wordToSegments unicode word)]
  exact isStressed_filter (isStressed_stripUnrealizedGlottalStops
    (isStressed_syllabifyToIpa (isSounded_resolved unicode word) hne))

theorem hebrewWordToIpa_of_nil {unicode : Unicode} {word : List Char}
    (h : wordToSegments unicode word = []) : hebrewWordToIpa unicode word = [] := by
  rw [hebrewWordToIpa, h]
  rfl

/-- A word is silent exactly when it has no syllable. -/
theorem hebrewWordToIpa_eq_nil {unicode : Unicode} {word : List Char} :
    hebrewWordToIpa unicode word = [] ↔ wordToSegments unicode word = [] := by
  constructor
  · intro hnil
    by_contra hne
    obtain ⟨before, v, after, heq, -⟩ := isStressed_hebrewWordToIpa hne
    rw [hnil] at heq
    simp at heq
  · exact hebrewWordToIpa_of_nil

/-- The symbols of a word. -/
theorem mem_symbols_hebrewWordToIpa (unicode : Unicode) (word : List Char) :
    ∀ c ∈ hebrewWordToIpa unicode word,
      c ∈ consonantSymbols ∨ c ∈ vowelSymbols ∨ c = glottal ∨ c = stress := by
  by_cases hnil : wordToSegments unicode word = []
  · rw [hebrewWordToIpa_of_nil hnil]
    exact nofun
  · obtain ⟨before, v, after, heq, hv, hspoken⟩ := isStressed_hebrewWordToIpa hnil
    have htie : '\u0361' ∉ hebrewWordToIpa unicode word := by
      rw [hebrewWordToIpa]
      simp
    rw [List.forall_mem_append] at hspoken
    intro c hc
    have hsymbol (h : IsSpoken c) :
        c ∈ consonantSymbols ∨ c ∈ vowelSymbols ∨ c = glottal ∨ c = stress := by
      rcases h with h | h | h | h
      · exact .inl h
      · exact .inr (.inl h)
      · exact .inr (.inr (.inl h))
      · exact absurd (h ▸ hc) htie
    rw [heq, List.mem_append, List.mem_cons, List.mem_cons] at hc
    rcases hc with hc | rfl | rfl | hc
    · exact hsymbol (hspoken.1 c hc)
    · exact .inr (.inr (.inr rfl))
    · exact .inr (.inl hv)
    · exact hsymbol (hspoken.2 c hc)

/-- Nothing, or a word with one stress mark, of fixed symbols. -/
structure IsShaped (ipa : List Char) : Prop where
  stressed : ipa = [] ∨ ∃ before vowel after, ipa = before ++ stress :: vowel :: after ∧
    vowel ∈ vowelSymbols ∧ stress ∉ before ∧ stress ∉ after
  symbols : ∀ c ∈ ipa, c ∈ consonantSymbols ∨ c ∈ vowelSymbols ∨ c = glottal ∨ c = stress
  plain : '\u0259' ∉ ipa ∧ '\u0361' ∉ ipa ∧ ¬ glt <:+: ipa ∧ ¬ "<IPA:".toList <:+: ipa
  glottals : ∀ before after, ipa = before ++ glottal :: after →
    ∃ vowel ∈ vowelSymbols, ∃ rest, after = vowel :: rest ∨ after = stress :: vowel :: rest

theorem isShaped_hebrewWordToIpa (unicode : Unicode) (word : List Char) :
    IsShaped (hebrewWordToIpa unicode word) := by
  have hsymbols := mem_symbols_hebrewWordToIpa unicode word
  have hnone {c : Char} (hc : ¬ (c ∈ consonantSymbols ∨ c ∈ vowelSymbols ∨ c = glottal ∨ c = stress)) :
      c ∉ hebrewWordToIpa unicode word := fun hmem => hc (hsymbols c hmem)
  have hangle : '<' ∉ hebrewWordToIpa unicode word := hnone (by decide)
  constructor
  · by_cases hnil : wordToSegments unicode word = []
    · exact .inl (hebrewWordToIpa_of_nil hnil)
    · obtain ⟨before, v, after, heq, hv, hspoken⟩ := isStressed_hebrewWordToIpa hnil
      have hstress : ¬ IsSpoken stress := by decide
      rw [List.forall_mem_append] at hspoken
      exact .inr ⟨before, v, after, heq, hv, fun h => hstress (hspoken.1 _ h),
        fun h => hstress (hspoken.2 _ h)⟩
  · exact hsymbols
  · exact ⟨hnone (by decide), hnone (by decide), fun h => hangle (h.subset (by decide)),
      fun h => hangle (h.subset (by decide))⟩
  · intro before after heq
    have hfollowed : GlottalsFollowed (hebrewWordToIpa unicode word) :=
      glottalsFollowed_filter (glottalsFollowed_strip _)
    obtain ⟨v, rest, hv, hafter⟩ := followedByVowel_iff.mp (hfollowed before after heq)
    have hmem : v ∈ hebrewWordToIpa unicode word := by
      rw [heq]
      rcases hafter with rfl | rfl <;> simp
    refine ⟨v, ?_, rest, hafter⟩
    have hconsonants : ∀ c ∈ consonantSymbols, isVowel c = false :=
      List.all_iff_forall_prop.mp (by decide)
    rcases hsymbols v hmem with h | h | rfl | rfl
    · rw [hconsonants v h] at hv
      cases hv
    · exact h
    · exact absurd hv (by decide)
    · exact absurd hv (by decide)

end Dengjen.Hebrew

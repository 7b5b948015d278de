import Dengjen.Hebrew.Foreign
import Dengjen.Hebrew.Sheva

/-!
# Punctuation behind a word

Punctuation has no sound of its own, but the last letter before it is not the last one
of the word any more: a final he without dagesh, which is mute, is then read as a
consonant. It begins the syllable of its vowel or ends the one before it, and there it
may be lost like other consonants behind a silent sheva.
-/

namespace Dengjen.Hebrew

variable {unicode : Unicode} {g : Glyph} {gs foreigners foreigners' : List Glyph}

/-! ## Shevas at the end of a word -/

/-- A glyph that is read as a sheva and has no dagesh. -/
def Glyph.isQuietSheva (g : Glyph) : Bool :=
  !isShuruk g && !isHolamMale g && !(mapBasicVowel g).2 && !g.has dagesh

/-- How many of the glyphs with a vowel or a sheva have such a sheva, counted from the end. The
first one is not silent. -/
def quietShevas (gs : List Glyph) : Nat :=
  ((gs.filter Glyph.makesSyllable).tail.reverse.takeWhile Glyph.isQuietSheva).length

theorem makesSyllable_of_hiriqYod {next : Glyph} (h : isHiriqYod g (some next)) :
    next.makesSyllable = false := by
  have hbasic := h
  simp only [isHiriqYod, decide_eq_true_eq, Bool.not_eq_true, hasAnyVowelMark_eq,
    Bool.or_eq_false_iff, Glyph.carriesVowel] at hbasic
  obtain ⟨-, hyod, hsheva, hholam, hvowel⟩ := hbasic
  rw [Glyph.makesSyllable, (carriesVowel_of_hiriqYod h).2, mapBasicVowel_snd, hvowel, hsheva,
    isHolamMale, hholam]
  simp

/-- The glyphs with a vowel or a sheva make the segments. -/
theorem map_isQuiet_readGlyphs (onset : List (List Char)) (gs : List Glyph) :
    (readGlyphs onset gs).1.map Segment.isQuiet =
      (gs.filter Glyph.makesSyllable).map Glyph.isQuietSheva := by
  fun_induction readGlyphs onset gs with
  | case1 onset => rfl
  | case2 onset g rest hshuruk ih =>
      have hmakes : g.makesSyllable := by simp [Glyph.makesSyllable, hshuruk]
      rw [emit_fst, List.map_cons, ih, List.filter_cons_of_pos hmakes, List.map_cons]
      simp [Segment.isQuiet, Glyph.isQuietSheva, hshuruk]
  | case3 onset g _ hyod => cases hyod
  | case4 onset g hshuruk next rest hyod ih =>
      have hvocalic : (mapBasicVowel g).2 := mapBasicVowel_snd ▸ hasBasicVowel_of_hiriqYod hyod
      have hmakes : g.makesSyllable := by simp [Glyph.makesSyllable, hvocalic]
      have hnext := makesSyllable_of_hiriqYod hyod
      rw [emit_fst, List.map_cons, ih, List.filter_cons_of_pos hmakes,
        List.filter_cons_of_neg (by simp [hnext]), List.map_cons]
      simp [Segment.isQuiet, Glyph.isQuietSheva, hvocalic]
  | case5 onset g rest _ _ hmale ih =>
      have hmakes : g.makesSyllable := by simp [Glyph.makesSyllable, hmale]
      rw [emit_fst, List.map_cons, ih, List.filter_cons_of_pos hmakes, List.map_cons]
      simp [Segment.isQuiet, Glyph.isQuietSheva, hmale]
  | case6 onset g rest _ _ _ cons hvocalic ih =>
      have hmakes : g.makesSyllable := by simp [Glyph.makesSyllable, hvocalic]
      have hvowel := mapBasicVowel_fst_ne hvocalic
      rw [emit_fst, List.map_cons, ih, List.filter_cons_of_pos hmakes, List.map_cons]
      simp [Segment.isQuiet, Glyph.isQuietSheva, hvocalic, hvowel]
  | case7 onset g rest hshuruk _ hmale cons hvocalic hsheva ih =>
      have hmakes : g.makesSyllable := by simp [Glyph.makesSyllable, hsheva]
      rw [emit_fst, List.map_cons, ih, List.filter_cons_of_pos hmakes, List.map_cons]
      simp [Segment.isQuiet, Glyph.isQuietSheva, hshuruk, hmale, hvocalic]
  | case8 onset g rest hshuruk _ hmale cons hvocalic hsheva ih =>
      have hmakes : ¬ g.makesSyllable := by
        simp [Glyph.makesSyllable, hshuruk, hmale, hvocalic, hsheva]
      rw [ih, List.filter_cons_of_neg hmakes]

theorem length_takeWhile_map {α : Type} (p : α → Bool) (xs : List α) :
    (xs.takeWhile p).length = ((xs.map p).takeWhile id).length := by
  rw [List.takeWhile_map, List.length_map]
  rfl

theorem shevaRun_eq (segs : List Segment) :
    shevaRun segs = ((segs.map Segment.isQuiet).tail.reverse.takeWhile id).length := by
  rw [shevaRun, length_takeWhile_map, List.map_reverse, List.map_tail]

theorem map_isQuiet_closed (segs : List Segment) (left : List (List Char)) :
    (closed segs left).map Segment.isQuiet = segs.map Segment.isQuiet := by
  induction segs using List.reverseRecOn with
  | nil => rfl
  | append_singleton before last _ =>
      rw [closed_concat, List.map_append, List.map_append]
      rfl

/-- The shevas of the segments are those of the glyphs. -/
theorem shevaRun_wordToSegments (word : List Char) :
    shevaRun (wordToSegments unicode word) = quietShevas (glyphs unicode word) := by
  rw [shevaRun_eq, wordToSegments, map_isQuiet_closed, map_isQuiet_readGlyphs, quietShevas,
    length_takeWhile_map Glyph.isQuietSheva, List.map_reverse, List.map_tail]

/-! ## The he that is heard -/

variable {word word' : List Char} {front : List Glyph}

theorem glyphConsonant_muteHe (h : g.isMuteHe) (isFinal : Bool) :
    glyphConsonant g isFinal = if isFinal then [] else ['h'] := by
  obtain ⟨hbase, hdagesh⟩ := isMuteHe_iff.mp h
  rw [Glyph.has] at hdagesh
  rw [glyphConsonant, hbase, digraphIpa_singleton]
  cases isFinal <;> simp only [mapConsonant, hdagesh, List.head?_cons] <;> rfl

/-- What a mute he with a vowel or a sheva makes. -/
theorem readGlyph_muteHe (h : g.isMuteHe) (hmakes : g.makesSyllable) : ∃ nucleus,
    ∀ onset isFinal, readGlyph onset g none isFinal =
      ([⟨pushed onset (glyphConsonant g isFinal), nucleus, [], false⟩], [], false) := by
  obtain ⟨hbase, -⟩ := isMuteHe_iff.mp h
  have hvav : [he] ≠ [vav] := by decide
  have hshuruk : isShuruk g = false := by simp [isShuruk, hbase, hvav]
  have hmale : isHolamMale g = false := by simp [isHolamMale, hbase, hvav]
  simp only [Glyph.makesSyllable, hshuruk, hmale, Bool.false_or, Bool.or_eq_true] at hmakes
  simp only [readGlyph, hshuruk, hmale, isHiriqYod, Bool.false_eq_true, if_false,
    (isMuteHe_iff.mp h).2]
  by_cases hvocalic : (mapBasicVowel g).2
  · exact ⟨(mapBasicVowel g).1, fun onset isFinal => by rw [if_pos hvocalic]⟩
  · refine ⟨['\u0259'], fun onset isFinal => ?_⟩
    rw [if_neg hvocalic, if_pos (hmakes.resolve_left hvocalic)]

/-- A last he with a vowel begins its syllable when something is behind it. -/
theorem wordToSegments_heard (hgs : glyphs unicode word = front ++ [g])
    (hgs' : glyphs unicode word' = front ++ g :: foreigners) (hne : foreigners ≠ [])
    (h : ∀ g ∈ foreigners, g.IsForeign) (hmute : g.isMuteHe) (hmakes : g.makesSyllable) :
    ∃ segs onset nucleus, wordToSegments unicode word = segs ++ [⟨onset, nucleus, [], false⟩] ∧
      wordToSegments unicode word' = segs ++ [⟨onset ++ [['h']], nucleus, [], false⟩] := by
  obtain ⟨segs, onset, hsplit⟩ := readGlyphs_split (base_ne_yod_of_muteHe hmute) front []
  obtain ⟨nucleus, hread⟩ := readGlyph_muteHe hmute hmakes
  have hempty : foreigners.isEmpty = false := by simpa using hne
  refine ⟨segs, onset, nucleus, ?_, ?_⟩
  · rw [wordToSegments, hgs, hsplit, readGlyphs_cons_foreign (List.forall_mem_nil _), hread,
      glyphConsonant_muteHe hmute]
    exact closed_empty
  · rw [wordToSegments, hgs', hsplit, readGlyphs_cons_foreign h, hread,
      glyphConsonant_muteHe hmute, hempty]
    exact closed_empty

/-- A last he without a vowel is one more consonant behind the last syllable when something is
behind it. -/
theorem wordToSegments_unheard (hgs : glyphs unicode word = front ++ [g])
    (hgs' : glyphs unicode word' = front ++ g :: foreigners) (hne : foreigners ≠ [])
    (h : ∀ g ∈ foreigners, g.IsForeign) (hmute : g.isMuteHe) (hmakes : g.makesSyllable = false) :
    ∃ segs onset, wordToSegments unicode word = closed segs onset ∧
      wordToSegments unicode word' = closed segs (onset ++ [['h']]) ∧ ∀ s ∈ segs, IsRead s := by
  obtain ⟨segs, onset, hsplit⟩ := readGlyphs_split (base_ne_yod_of_muteHe hmute) front []
  have hread := readGlyph_of_not_makesSyllable hmakes onset none
  have hempty : foreigners.isEmpty = false := by simpa using hne
  have hword : readGlyphs [] (front ++ [g]) = (segs, onset) := by
    rw [hsplit, readGlyphs_cons_foreign (List.forall_mem_nil _), hread, glyphConsonant_muteHe hmute, emits,
      List.append_nil]
    rfl
  have hword' : readGlyphs [] (front ++ g :: foreigners) = (segs, onset ++ [['h']]) := by
    rw [hsplit, readGlyphs_cons_foreign h, hread, glyphConsonant_muteHe hmute, hempty, emits,
      List.append_nil]
    rfl
  have hisRead := isRead_readGlyphs [] (front ++ [g])
  rw [hword] at hisRead
  exact ⟨segs, onset, by rw [wordToSegments, hgs, hword], by rw [wordToSegments, hgs', hword'],
    hisRead⟩

/-- A consonant more is heard, if none is lost. -/
theorem hebrewWordToIpa_ne (hlost : lostCoda (wordToSegments unicode word) = [])
    (hlost' : lostCoda (wordToSegments unicode word') = [])
    (h : consonants (wordToSegments unicode word') =
      consonants (wordToSegments unicode word) ++ [['h']]) :
    hebrewWordToIpa unicode word' ≠ hebrewWordToIpa unicode word := by
  intro heq
  have hheard := congrArg (List.filter isConsonantSymbol) heq
  have hsymbol : [['h']].flatten.filter isConsonantSymbol = ['h'] := by decide
  rw [(keepsConsonants_of_lostCoda hlost).written, (keepsConsonants_of_lostCoda hlost').written, h,
    List.flatten_append, List.filter_append, hsymbol] at hheard
  exact absurd hheard (by simp)

theorem hebrewWordToIpa_congr (h : resolveShevaAndQamats (wordToSegments unicode word') =
      resolveShevaAndQamats (wordToSegments unicode word)) :
    hebrewWordToIpa unicode word' = hebrewWordToIpa unicode word := by
  rw [hebrewWordToIpa, hebrewWordToIpa, h]

theorem lostCoda_of_not_odd {segs : List Segment} (h : ¬ Odd (shevaRun segs)) : lostCoda segs = [] :=
  if_neg h

/-- The last he of a word that is mute there and heard before punctuation. -/
def hearsHe (gs : List Glyph) : Bool :=
  gs.getLast?.any fun g =>
    g.isMuteHe && (g.makesSyllable || (gs.any Glyph.makesSyllable && quietShevas gs % 2 = 0))

theorem shevaRun_closed (segs : List Segment) (left : List (List Char)) :
    shevaRun (closed segs left) = shevaRun segs := by
  rw [shevaRun_eq, map_isQuiet_closed, shevaRun_eq]

/-- Consonants behind a silent last sheva are not heard. -/
theorem resolved_closed_of_odd {segs : List Segment} (h : ∀ s ∈ segs, IsRead s)
    (hodd : Odd (shevaRun segs)) (left left' : List (List Char)) :
    resolveShevaAndQamats (closed segs left) = resolveShevaAndQamats (closed segs left') := by
  rcases List.eq_nil_or_concat' segs with rfl | ⟨before, last, rfl⟩
  · rfl
  · have hopen : ∀ s ∈ before, s.Open := (open_of_closed h (@closed_concat before last left)).1
    have hrun := shevaRun_closed (before ++ [last]) left
    have hrun' := shevaRun_closed (before ++ [last]) left'
    rw [closed_concat] at hrun hrun'
    rw [closed_concat, closed_concat, resolved_of_silenced hopen (hrun ▸ hodd),
      resolved_of_silenced hopen (hrun' ▸ hodd)]

theorem hearsHe_concat : hearsHe (front ++ [g]) ↔
    g.isMuteHe ∧ (g.makesSyllable ∨
      (∃ vocal ∈ front ++ [g], vocal.makesSyllable) ∧ ¬ Odd (quietShevas (front ++ [g]))) := by
  rw [hearsHe, List.getLast?_concat, Nat.not_odd_iff_even, Nat.even_iff]
  simp only [Option.any_some, Bool.and_eq_true, Bool.or_eq_true, List.any_eq_true, decide_eq_true_eq]

/-- What is behind a last mute he changes the word exactly when the he is heard then. -/
theorem hebrewWordToIpa_muteHe (hgs : glyphs unicode word = front ++ [g])
    (hgs' : glyphs unicode word' = front ++ g :: foreigners) (hne : foreigners ≠ [])
    (h : ∀ g ∈ foreigners, g.IsForeign) (hmute : g.isMuteHe) :
    hebrewWordToIpa unicode word' = hebrewWordToIpa unicode word ↔ hearsHe (front ++ [g]) = false := by
  rw [← Bool.not_eq_true, hearsHe_concat]
  have hrun : shevaRun (wordToSegments unicode word) = _ := shevaRun_wordToSegments word
  rw [hgs] at hrun
  by_cases hmakes : g.makesSyllable
  · obtain ⟨segs, onset, nucleus, hword, hword'⟩ :=
      wordToSegments_heard hgs hgs' hne h hmute hmakes
    have hdiffers : hebrewWordToIpa unicode word' ≠ hebrewWordToIpa unicode word := by
      apply hebrewWordToIpa_ne
      · rw [hword, lostCoda_concat, ite_self]
      · rw [hword', lostCoda_concat, ite_self]
      · simp [hword, hword']
    exact iff_of_false hdiffers fun hnot => hnot ⟨hmute, .inl hmakes⟩
  · obtain ⟨segs, onset, hword, hword', hread⟩ :=
      wordToSegments_unheard hgs hgs' hne h hmute (Bool.not_eq_true _ ▸ hmakes)
    have hsome : segs ≠ [] ↔ ∃ vocal ∈ front ++ [g], vocal.makesSyllable := by
      rw [← hgs, ← hebrewWordToIpa_ne_nil, ne_eq, ne_eq, hebrewWordToIpa_eq_nil, hword,
        closed_eq_nil]
    rw [← hrun, ← hsome, hword, shevaRun_closed]
    by_cases hsegs : segs = []
    · subst hsegs
      have heq : hebrewWordToIpa unicode word' = hebrewWordToIpa unicode word := by
        apply hebrewWordToIpa_congr
        rw [hword, hword', closed_nil, closed_nil]
      exact iff_of_true heq fun hheard => (hheard.2.resolve_left hmakes).1 rfl
    · by_cases hodd : Odd (shevaRun segs)
      · have heq : hebrewWordToIpa unicode word' = hebrewWordToIpa unicode word := by
          apply hebrewWordToIpa_congr
          rw [hword, hword']
          exact resolved_closed_of_odd hread hodd _ _
        exact iff_of_true heq fun hheard => (hheard.2.resolve_left hmakes).2 hodd
      · have hdiffers : hebrewWordToIpa unicode word' ≠ hebrewWordToIpa unicode word := by
          apply hebrewWordToIpa_ne
          · exact lostCoda_of_not_odd (by rwa [hword, shevaRun_closed])
          · exact lostCoda_of_not_odd (by rwa [hword', shevaRun_closed])
          · rw [hword, hword', consonants_closed hsegs, consonants_closed hsegs, List.append_assoc]
        exact iff_of_false hdiffers fun hnot => hnot ⟨hmute, .inr ⟨hsegs, hodd⟩⟩

/-- Only a last mute he is read otherwise before foreign glyphs. -/
theorem readGlyphs_foreigners (hregular : ∀ g ∈ gs, g.IsRegular) (h : ∀ g ∈ foreigners, g.IsForeign)
    (h' : ∀ g ∈ foreigners', g.IsForeign) (hne' : foreigners' ≠ [])
    (hlast : foreigners = [] → ∀ g ∈ gs.getLast?, g.isMuteHe = false) :
    readGlyphs [] (gs ++ foreigners') = readGlyphs [] (gs ++ foreigners) := by
  by_cases hmute : ∀ g ∈ gs.getLast?, g.isMuteHe = false
  · rw [readGlyphs_append_foreign h gs [] hregular hmute,
      readGlyphs_append_foreign h' gs [] hregular hmute]
  · have hne : foreigners ≠ [] := fun hnil => hmute (hlast hnil)
    rcases List.eq_nil_or_concat' gs with rfl | ⟨front, g, rfl⟩
    · exact absurd (by simp) hmute
    · have hhe : g.isMuteHe := by simpa using hmute
      obtain ⟨segs, onset, hsplit⟩ := readGlyphs_split (base_ne_yod_of_muteHe hhe) front []
      have hempty : foreigners.isEmpty = false := by simpa using hne
      have hempty' : foreigners'.isEmpty = false := by simpa using hne'
      rw [List.append_assoc, List.append_assoc, List.singleton_append, List.singleton_append, hsplit,
        hsplit, readGlyphs_cons_foreign h, readGlyphs_cons_foreign h', hempty, hempty']

theorem hearsHe_foreign {gs : List Glyph} (h : ∀ g ∈ foreigners, g.IsForeign) (hne : foreigners ≠ []) :
    hearsHe (gs ++ foreigners) = false := by
  obtain ⟨front, last, rfl⟩ := (List.eq_nil_or_concat' foreigners).resolve_left hne
  rw [← List.append_assoc, ← Bool.not_eq_true, hearsHe_concat]
  rintro ⟨hmute, -⟩
  exact (h last (by simp)).base_ne.2.2 (isMuteHe_iff.mp hmute).1

/-- Plain text behind a word leaves its pronunciation as it is, unless the word ends with a he that
is mute there and heard before the text. -/
theorem hebrewWordToIpa_append_iff (h : unicode.Lawful) (word : List Char) {plain : List Char}
    (hplain : ∀ c ∈ plain, unicode.isPlain c) :
    hebrewWordToIpa unicode (word ++ plain) = hebrewWordToIpa unicode word ↔
      plain = [] ∨ hearsHe (glyphs unicode word) = false := by
  by_cases hnil : plain = []
  · simp [hnil]
  · rw [or_iff_right hnil]
    obtain ⟨gs, foreigners, foreigners', hgs, hgs', hforeign, hforeign', hsome⟩ :=
      glyphs_append h word hplain
    have hne' : foreigners' ≠ [] := mt hsome hnil
    have hregular : ∀ g ∈ glyphs unicode word, g.IsRegular := isRegular_glyphs word
    rw [hgs, List.forall_mem_append] at hregular
    by_cases hlast : foreigners = [] → ∀ g ∈ gs.getLast?, g.isMuteHe = false
    · have hread := readGlyphs_foreigners hregular.1 hforeign hforeign' hne' hlast
      have heq : hebrewWordToIpa unicode (word ++ plain) = hebrewWordToIpa unicode word := by
        apply hebrewWordToIpa_congr
        rw [wordToSegments, wordToSegments, hgs, hgs', hread]
      refine iff_of_true heq ?_
      rw [hgs]
      by_cases hforeigners : foreigners = []
      · rw [hforeigners, List.append_nil]
        rcases List.eq_nil_or_concat' gs with rfl | ⟨front, g, rfl⟩
        · rfl
        · have hmute := hlast hforeigners g (by simp)
          rw [← Bool.not_eq_true, hearsHe_concat, hmute]
          exact fun hhe => absurd hhe.1 Bool.false_ne_true
      · exact hearsHe_foreign hforeign hforeigners
    · obtain ⟨rfl, hmute⟩ := Classical.not_imp.mp hlast
      rcases List.eq_nil_or_concat' gs with rfl | ⟨front, g, rfl⟩
      · exact absurd (by simp) hmute
      · have hhe : g.isMuteHe := by simpa using hmute
        rw [List.append_nil] at hgs
        rw [List.append_assoc, List.singleton_append] at hgs'
        rw [hgs]
        exact hebrewWordToIpa_muteHe hgs hgs' hne' hforeign' hhe

/-- On Hebrew and ASCII nothing is composed. -/
theorem lawful_hebrew : Unicode.hebrew.Lawful where
  mark c hc := hc
  append text plain hplain := by
    have hforeign : Unicode.hebrew.IsForeignTail plain := by
      constructor
      · intro c hc
        exact hplain c hc
      · intro c hc
        have hplainc := hplain c (List.mem_of_mem_head? hc)
        simp only [Unicode.isPlain, Bool.and_eq_true, Bool.not_eq_true'] at hplainc
        exact hplainc.2
    have hnone : Unicode.hebrew.IsForeignTail [] := ⟨List.forall_mem_nil _, by simp⟩
    exact ⟨text, [], plain, (List.append_nil text).symm, rfl, hnone, hforeign, id⟩

/-- The he of מָה is followed by a question mark. -/
theorem append_question_mark_iff :
    hebrewWordToIpa .hebrew ([mem, qamats, he] ++ ['?']) =
        hebrewWordToIpa .hebrew [mem, qamats, he] ↔
      ['?'] = [] ∨ hearsHe (glyphs .hebrew [mem, qamats, he]) = false :=
  hebrewWordToIpa_append_iff lawful_hebrew _ (List.forall_mem_singleton.mpr (by decide))

/-- It is mute, but not before the question mark. -/
theorem question_mark_voices_he :
    (∀ c ∈ ['?'], Unicode.hebrew.isPlain c) ∧
      hebrewWordToIpa .hebrew ([mem, qamats, he] ++ ['?']) ≠
        hebrewWordToIpa .hebrew [mem, qamats, he] :=
  ⟨List.forall_mem_singleton.mpr (by decide), by decide⟩

end Dengjen.Hebrew

import Dengjen.General.Joined
import Dengjen.Kokoro.Japanese

/-!
# The spaces of an assembled Japanese sentence

A space stands between two shown words when the word before settled on one, or when
two voiced words meet. It is never doubled and never stands at an end. It stands
before a stop where the stop could not take it back.
-/

namespace Dengjen.Kokoro

/-- The spacing and the completeness of an assembled sentence. -/
structure WellAssembled (words : List Word) : Prop where
  spaced : Joined.Spaced ' ' (assemble words)
  stops : (assemble words).IsChain fun a b => a = ' ' → b ∉ punctStops
  complete : (assemble words).filter (· != ' ') = words.flatMap Word.text

/-- Words behind `word` leave a space before the mark `stop`: a word without a
pronunciation is in between, so that the mark cannot take the space back, or the mark ends in
another character than a stop. -/
def keepsSpace (word : Word) (between : List Word) (stop : Word) : Bool :=
  let spaced := word.closes || between.head?.any (·.kind == .blank)
  if between.any (·.kind == .silent) then spaced
  else !stop.closes && (stop.opens || spaced)

/-- No space is kept between a word and a mark that starts with a stop, where nothing is
shown between the two. -/
def StopsJoin (words : List Word) : Prop :=
  ∀ before word rest, words = before ++ word :: rest → word.isShown →
    ∀ stop ∈ rest.find? (·.isShown), (∀ c ∈ stop.text.head?, c ∈ punctStops) →
      keepsSpace word (rest.takeWhile (!·.isShown)) stop = false

/-! ## Texts of words -/

section Texts

variable {word : Word}

/-- A phoneme or a mark: neither a blank nor, for a spoken word, a stop. -/
theorem text_punct (h : word.kind = .punct) : word.text = mapPunct word.surface := by
  obtain ⟨hmoras, honly⟩ := kind_punct_iff.mp h
  simp [Word.text, hmoras, honly]

theorem moras_of_spoken (h : word.kind = .spoken) : word.moras ≠ [] := by
  rintro hmoras
  rw [Word.kind] at h
  split at h
  · cases h
  · split at h
    · cases h
    · rw [hmoras] at h
      cases h

theorem text_of_moras (h : word.moras ≠ []) : word.text = morasToPhonemes word.moras := by
  simp [Word.text, h]

theorem moras_eq_of_ne_nil (h : word.moras ≠ []) : word.moras = pronToMoras word.pron := by
  rw [Word.moras] at h ⊢
  split
  · rfl
  · rename_i hsize
    exact absurd (if_neg hsize) h

theorem text_ne_nil_of_moras (h : word.moras ≠ []) : word.text ≠ [] := by
  rw [text_of_moras h, moras_eq_of_ne_nil h]
  exact morasToPhonemes_ne_nil (moras_eq_of_ne_nil h ▸ h)

theorem plain_of_moras (h : word.moras ≠ []) :
    ∀ c ∈ word.text, isWhitespace c = false ∧ c ∉ punctStops := by
  intro c hc
  rw [text_of_moras h] at hc
  obtain ⟨row, hrow, hmem⟩ := exists_row_of_mem_phonemes hc
  have htable : ∀ row ∈ moraTable,
      (row.2.all fun c => !isWhitespace c && !punctStops.contains c) = true := by
    decide +kernel
  have hplain := List.all_eq_true.mp (htable row hrow) c hmem
  simpa using hplain

theorem isShown_iff : word.isShown ↔ word.kind = .punct ∨ word.kind = .spoken := by
  simp [Word.isShown]

theorem text_ne_nil (h : word.isShown) : word.text ≠ [] := by
  rcases isShown_iff.mp h with hpunct | hspoken
  · rw [text_punct hpunct]
    have honly := (kind_punct_iff.mp hpunct).2
    rintro hnil
    rw [hnil] at honly
    cases honly
  · exact text_ne_nil_of_moras (moras_of_spoken hspoken)

theorem isWhitespace_text (h : word.isShown) : ∀ c ∈ word.text, isWhitespace c = false := by
  rcases isShown_iff.mp h with hpunct | hspoken
  · rw [text_punct hpunct]
    have honly := (kind_punct_iff.mp hpunct).2
    rw [isPunctOnly, Bool.and_eq_true, List.all_eq_true] at honly
    intro c hc
    have hvalues : (punctValues.all fun c => !isWhitespace c) = true := by decide
    have hplain := List.all_eq_true.mp hvalues c (List.contains_iff_mem.mp (honly.2 c hc))
    simpa using hplain
  · exact fun c hc => (plain_of_moras (moras_of_spoken hspoken) c hc).1

theorem space_notMem_text (h : word.isShown) : ' ' ∉ word.text := by
  intro hmem
  exact absurd (isWhitespace_text h ' ' hmem) (by decide)

/-- The space that a word asks for behind itself. -/
def Word.space (word : Word) : List Char := if word.closes then [' '] else []

theorem tokenOf_phonemes (h : word.isShown) (voiced : Bool) :
    (tokenOf voiced word).phonemes = some word.text := by
  rcases isShown_iff.mp h with hpunct | hspoken
  · rw [tokenOf_punct hpunct, text_punct hpunct]
  · have hmoras := moras_of_spoken hspoken
    simp [tokenOf, hspoken, hmoras, text_of_moras hmoras]

theorem moras_of_silent (h : word.kind = .silent) : word.moras = [] := by
  rw [Word.kind] at h
  split at h
  · cases h
  · split at h
    · cases h
    · split at h
      · rename_i hmoras
        exact List.isEmpty_iff.mp hmoras
      · cases h

theorem tokenOf_silent (h : word.kind = .silent) (voiced : Bool) :
    (tokenOf voiced word).phonemes = none := by
  simp [tokenOf, h, moras_of_silent h]

theorem settled_cases {whitespace : List Char} (h : whitespace = [] ∨ whitespace = [' '])
    (words : List Word) : settled whitespace words = [] ∨ settled whitespace words = [' '] := by
  induction words generalizing whitespace with
  | nil => exact h
  | cons word rest ih =>
      rw [settled]
      cases word.kind with
      | punct =>
          simp only [beforePunct]
          split
          · exact .inl rfl
          · split
            · exact .inr rfl
            · exact h
      | blank => exact ih (.inr rfl)
      | silent => exact h
      | spoken => exact h

theorem space_cases (word : Word) : word.space = [] ∨ word.space = [' '] := by
  rw [Word.space]
  split
  · exact .inr rfl
  · exact .inl rfl

end Texts

/-! ## What one token adds -/

section Join

variable {p : Char → Prop} {text out gap whitespace : List Char}

/-- What a space is followed by. -/
def Follows (p : Char → Prop) (a b : Char) : Prop := a = ' ' → p b

theorem isChain_of_notMem (h : ' ' ∉ text) : text.IsChain (Follows p) := by
  induction text with
  | nil => exact .nil
  | cons a rest ih =>
      rw [List.mem_cons, not_or] at h
      rw [List.isChain_cons]
      exact ⟨fun _ _ ha => absurd ha.symm h.1, ih h.2⟩

/-- Text without a space, behind a gap that is no second space, adds at most the step over
the gap. -/
theorem isChain_join_iff (hne : text ≠ []) (hspace : ' ' ∉ text)
    (hgap : gap = [] ∨ (gap = [' '] ∧ out.getLast? ≠ some ' ' ∧ ∀ c ∈ text.head?, p c))
    (hwhitespace : whitespace = [] ∨ whitespace = [' ']) :
    (out ++ gap ++ text ++ whitespace).IsChain (Follows p) ↔
      out.IsChain (Follows p) ∧ (out.getLast? = some ' ' → ∀ c ∈ text.head?, p c) := by
  have hlast : text.getLast? ≠ some ' ' := fun h => hspace (List.mem_of_getLast? h)
  have htext : (text ++ whitespace).IsChain (Follows p) := by
    rcases hwhitespace with rfl | rfl
    · rw [List.append_nil]
      exact isChain_of_notMem hspace
    · rw [List.isChain_append]
      refine ⟨isChain_of_notMem hspace, .singleton _, ?_⟩
      rintro a ha b - rfl
      exact absurd ha hlast
  have hhead : (text ++ whitespace).head? = text.head? := List.head?_append_of_ne_nil _ hne
  rw [List.append_assoc, List.append_assoc]
  rcases hgap with rfl | ⟨rfl, hout, hp⟩
  · rw [List.nil_append, List.isChain_append, hhead]
    constructor
    · rintro ⟨hchain, -, hstep⟩
      exact ⟨hchain, fun hend c hc => hstep ' ' hend c hc rfl⟩
    · rintro ⟨hchain, hstep⟩
      refine ⟨hchain, htext, ?_⟩
      rintro a ha b hb rfl
      exact hstep ha b hb
  · rw [List.isChain_append, List.singleton_append, List.isChain_cons, hhead]
    constructor
    · rintro ⟨hchain, -, -⟩
      exact ⟨hchain, fun hend => absurd hend hout⟩
    · rintro ⟨hchain, -⟩
      refine ⟨hchain, ⟨fun c hc _ => hp c hc, htext⟩, ?_⟩
      rintro a ha b - rfl
      exact absurd ha hout

theorem getLast_join_iff (front : List Char) (hne : text ≠ []) (hspace : ' ' ∉ text)
    (hwhitespace : whitespace = [] ∨ whitespace = [' ']) :
    (front ++ text ++ whitespace).getLast? = some ' ' ↔ whitespace = [' '] := by
  rcases hwhitespace with rfl | rfl
  · rw [List.append_nil, List.getLast?_append_of_ne_nil _ hne]
    constructor
    · intro hlast
      exact absurd (List.mem_of_getLast? hlast) hspace
    · intro hnil
      cases hnil
  · simp

theorem joinToken_silent {word : Word} (h : word.kind = .silent) (voiced : Bool) :
    joinToken out { tokenOf voiced word with whitespace := whitespace } = out := by
  simp only [joinToken, tokenOf_silent h]

/-- A shown word adds its text and its space, behind a gap only where it has moras and
what is there ends in a tail. -/
theorem joinToken_shown {word : Word} (h : word.isShown) (voiced : Bool) :
    ∃ gap, joinToken out { tokenOf voiced word with whitespace := whitespace } =
        out ++ gap ++ word.text ++ whitespace ∧
      (gap = [] ∨ (gap = [' '] ∧ word.moras ≠ [] ∧ ∃ c ∈ out.getLast?, isTail c)) := by
  simp only [joinToken, tokenOf_phonemes h]
  split
  · rename_i hsep
    refine ⟨[' '], rfl, .inr ⟨rfl, ?_⟩⟩
    simp only [needsSeparator, tokenOf, Bool.and_eq_true, Bool.not_eq_true', Option.any_eq_true,
      List.isEmpty_eq_false_iff] at hsep
    obtain ⟨⟨⟨hmoras, -⟩, -⟩, c, hc, htail⟩ := hsep
    exact ⟨hmoras, c, hc, htail⟩
  · exact ⟨[], by rw [List.append_nil], .inl rfl⟩

theorem ne_space_of_isTail {c : Char} (h : isTail c) : c ≠ ' ' := by
  rintro rfl
  exact absurd h (by decide)

end Join

/-! ## What all words add -/

section Words

variable {p : Char → Prop} {out : List Char} {words : List Word}

/-- The text of the first shown word starts as wanted. -/
def NextStarts (p : Char → Prop) (words : List Word) : Prop :=
  ∀ next ∈ words.find? (·.isShown), ∀ c ∈ next.text.head?, p c

/-- What follows a word that keeps a space starts as wanted. -/
def SpacesFit (p : Char → Prop) (words : List Word) : Prop :=
  ∀ before word rest, words = before ++ word :: rest → word.isShown →
    settled word.space rest = [' '] → NextStarts p rest

/-- A property of every word and what follows it, word by word. -/
theorem forall_split_cons {α : Type} {q : α → List α → Prop} {a : α} {as : List α} :
    (∀ before b rest, a :: as = before ++ b :: rest → q b rest) ↔
      q a as ∧ ∀ before b rest, as = before ++ b :: rest → q b rest := by
  constructor
  · intro h
    refine ⟨h [] a as rfl, fun before b rest heq => h (a :: before) b rest ?_⟩
    rw [heq, List.cons_append]
  · rintro ⟨hfirst, hrest⟩ before b rest heq
    cases before with
    | nil =>
        obtain ⟨rfl, rfl⟩ := List.cons.inj heq
        exact hfirst
    | cons _ before => exact hrest before b rest (List.cons.inj heq).2

theorem spacesFit_cons {word : Word} {rest : List Word} :
    SpacesFit p (word :: rest) ↔
      (word.isShown → settled word.space rest = [' '] → NextStarts p rest) ∧ SpacesFit p rest :=
  @forall_split_cons Word (fun word rest =>
    word.isShown → settled word.space rest = [' '] → NextStarts p rest) word rest

theorem nextStarts_shown {word : Word} {rest : List Word} (h : word.isShown) :
    NextStarts p (word :: rest) ↔ ∀ c ∈ word.text.head?, p c := by
  simp [NextStarts, h]

theorem nextStarts_skip {word : Word} {rest : List Word} (h : word.isShown = false) :
    NextStarts p (word :: rest) ↔ NextStarts p rest := by
  simp [NextStarts, h]

theorem spacesFit_skip {word : Word} {rest : List Word} (h : word.isShown = false) :
    SpacesFit p (word :: rest) ↔ SpacesFit p rest := by
  rw [spacesFit_cons, h]
  simp

/-- Words that are not shown leave the text as it is. -/
theorem foldl_joinToken_skip {word : Word} (h : word.isShown = false) (voiced : Bool)
    (rest : List Word) (out : List Char) :
    ∃ voiced', (tokensFrom voiced (word :: rest)).foldl joinToken out =
      (tokensFrom voiced' rest).foldl joinToken out := by
  cases hkind : word.kind with
  | punct => simp [Word.isShown, hkind] at h
  | spoken => simp [Word.isShown, hkind] at h
  | blank =>
      simp only [tokensFrom, hkind]
      exact ⟨voiced, rfl⟩
  | silent =>
      simp only [tokensFrom, hkind, List.foldl_cons, joinToken_silent hkind]
      exact ⟨_, rfl⟩

/-- A shown word adds its text and the space that the words behind it settle on. -/
theorem foldl_joinToken_shown {word : Word} (h : word.isShown) (voiced : Bool)
    (rest : List Word) (out : List Char) :
    ∃ gap voiced', (tokensFrom voiced (word :: rest)).foldl joinToken out =
        (tokensFrom voiced' rest).foldl joinToken
          (out ++ gap ++ word.text ++ settled word.space rest) ∧
      (gap = [] ∨ (gap = [' '] ∧ word.moras ≠ [] ∧ ∃ c ∈ out.getLast?, isTail c)) := by
  have htokens : tokensFrom voiced (word :: rest) =
      { tokenOf voiced word with whitespace := settled word.space rest } ::
        tokensFrom (tokenOf voiced word).voiced rest := by
    rcases isShown_iff.mp h with hkind | hkind <;>
      simp only [tokensFrom, hkind] <;> rfl
  obtain ⟨gap, hjoin, hgap⟩ := @joinToken_shown out (settled word.space rest) word h voiced
  refine ⟨gap, (tokenOf voiced word).voiced, ?_, hgap⟩
  rw [htokens, List.foldl_cons, hjoin]

/-- The tokens of words keep a text right exactly when the spaces behind the words fit. -/
theorem isChain_words_iff (hmoras : ∀ word : Word, word.moras ≠ [] → ∀ c ∈ word.text.head?, p c)
    (words : List Word) (voiced : Bool) (out : List Char) :
    ((tokensFrom voiced words).foldl joinToken out).IsChain (Follows p) ↔
      out.IsChain (Follows p) ∧ (out.getLast? = some ' ' → NextStarts p words) ∧
        SpacesFit p words := by
  induction words generalizing voiced out with
  | nil =>
      have hfit : SpacesFit p [] := by simp [SpacesFit]
      have hnext : NextStarts p [] := by simp [NextStarts]
      simp [tokensFrom, hfit, hnext]
  | cons word rest ih =>
      cases hshown : word.isShown with
      | true =>
          obtain ⟨gap, voiced', hjoin, hgap⟩ := foldl_joinToken_shown hshown voiced rest out
          have hcases := settled_cases (space_cases word) rest
          have hgap' : gap = [] ∨
              (gap = [' '] ∧ out.getLast? ≠ some ' ' ∧ ∀ c ∈ word.text.head?, p c) := by
            refine hgap.imp_right ?_
            rintro ⟨hspace, hvoiced, c, hc, htail⟩
            refine ⟨hspace, ?_, hmoras word hvoiced⟩
            rw [Option.mem_def.mp hc]
            exact fun heq => ne_space_of_isTail htail (Option.some.inj heq)
          have hlast := getLast_join_iff (out ++ gap) (text_ne_nil hshown)
            (space_notMem_text hshown) hcases
          rw [hjoin, ih, isChain_join_iff (text_ne_nil hshown) (space_notMem_text hshown) hgap'
            hcases, hlast, spacesFit_cons, nextStarts_shown hshown, and_assoc]
          simp only [hshown, forall_const]
      | false =>
          obtain ⟨voiced', hskip⟩ := foldl_joinToken_skip hshown voiced rest out
          rw [nextStarts_skip hshown, spacesFit_skip hshown, hskip, ih]

/-- What every shown word preserves holds of the whole text. -/
theorem foldl_joinToken_preserves {q : List Char → Prop}
    (hstep : ∀ (out gap whitespace : List Char) (word : Word), word.isShown →
      (gap = [] ∨ gap = [' '] ∧ out ≠ []) → (whitespace = [] ∨ whitespace = [' ']) → q out →
        q (out ++ gap ++ word.text ++ whitespace))
    (words : List Word) (voiced : Bool) {out : List Char} (hout : q out) :
    q ((tokensFrom voiced words).foldl joinToken out) := by
  induction words generalizing voiced out with
  | nil => exact hout
  | cons word rest ih =>
      cases hshown : word.isShown with
      | true =>
          obtain ⟨gap, voiced', hjoin, hgap⟩ := foldl_joinToken_shown hshown voiced rest out
          have hgap' : gap = [] ∨ gap = [' '] ∧ out ≠ [] := by
            refine hgap.imp_right ?_
            rintro ⟨hspace, -, c, hc, -⟩
            refine ⟨hspace, ?_⟩
            rintro rfl
            cases hc
          rw [hjoin]
          exact ih voiced' (hstep _ _ _ word hshown hgap' (settled_cases (space_cases word) rest) hout)
      | false =>
          obtain ⟨voiced', hskip⟩ := foldl_joinToken_skip hshown voiced rest out
          rw [hskip]
          exact ih voiced' hout

/-- The first token begins the text, and no word begins with a space. -/
theorem head_words (words : List Word) :
    ((tokensFrom false words).foldl joinToken []).head? ≠ some ' ' := by
  refine @foldl_joinToken_preserves (fun out => out.head? ≠ some ' ') ?_ words false []
    (Option.some_ne_none _).symm
  rintro out gap whitespace word hshown hgap - hout
  have hne := text_ne_nil hshown
  rcases out with - | ⟨c, out⟩
  · rcases hgap with rfl | ⟨-, hout⟩
    · rw [List.append_assoc, List.nil_append, List.nil_append,
        List.head?_append_of_ne_nil _ hne]
      exact fun hhead => space_notMem_text hshown (List.mem_of_mem_head? hhead)
    · exact absurd rfl hout
  · simpa using hout

/-- The text has no other blanks than spaces. -/
theorem isWhitespace_words (words : List Word) :
    ∀ c ∈ (tokensFrom false words).foldl joinToken [], isWhitespace c → c = ' ' := by
  refine @foldl_joinToken_preserves (fun out => ∀ c ∈ out, isWhitespace c → c = ' ') ?_ words
    false [] (List.forall_mem_nil _)
  intro out gap whitespace word hshown hgap hwhitespace hout
  have hspaces : ∀ blank : List Char, blank = [] ∨ blank = [' '] →
      ∀ c ∈ blank, isWhitespace c → c = ' ' := by
    rintro blank (rfl | rfl) c hc -
    · cases hc
    · exact List.mem_singleton.mp hc
  have htext : ∀ c ∈ word.text, isWhitespace c → c = ' ' := by
    intro c hc hblank
    rw [isWhitespace_text hshown c hc] at hblank
    cases hblank
  rw [List.forall_mem_append, List.forall_mem_append, List.forall_mem_append]
  exact ⟨⟨⟨hout, hspaces gap (hgap.imp_right And.left)⟩, htext⟩, hspaces whitespace hwhitespace⟩

/-- The text of a word that is shown. -/
def shownText (word : Word) : List Char := if word.isShown then word.text else []

/-- Without its spaces the text is that of the shown words. -/
theorem filter_words (words : List Word) (voiced : Bool) (out : List Char) :
    ((tokensFrom voiced words).foldl joinToken out).filter (· != ' ') =
      out.filter (· != ' ') ++ words.flatMap shownText := by
  induction words generalizing voiced out with
  | nil => simp [tokensFrom]
  | cons word rest ih =>
      cases hshown : word.isShown with
      | true =>
          obtain ⟨gap, voiced', hjoin, hgap⟩ := foldl_joinToken_shown hshown voiced rest out
          have hspaces : ∀ blank : List Char, blank = [] ∨ blank = [' '] →
              blank.filter (· != ' ') = [] := by
            rintro blank (rfl | rfl) <;> rfl
          have htext : word.text.filter (· != ' ') = word.text := by
            rw [List.filter_eq_self]
            rintro c hc
            rw [bne_iff_ne]
            rintro rfl
            exact space_notMem_text hshown hc
          rw [hjoin, ih, List.filter_append, List.filter_append, List.filter_append, htext,
            hspaces gap (hgap.imp_right And.left),
            hspaces _ (settled_cases (space_cases word) rest), List.flatMap_cons, shownText,
            if_pos hshown]
          simp
      | false =>
          obtain ⟨voiced', hskip⟩ := foldl_joinToken_skip hshown voiced rest out
          rw [hskip, ih, List.flatMap_cons, shownText, hshown]
          rfl

/-! ## The assembled sentence -/

theorem assemble_eq (words : List Word) :
    assemble words = ((tokensFrom false words).foldl joinToken []).rdropWhile isWhitespace := by
  rw [assemble, foldl_pushWord_nil]

/-- Only spaces are dropped from the end. -/
theorem exists_trimmed (words : List Word) :
    ∃ dropped, (tokensFrom false words).foldl joinToken [] = assemble words ++ dropped ∧
      ∀ c ∈ dropped, c = ' ' := by
  refine ⟨((tokensFrom false words).foldl joinToken []).rtakeWhile isWhitespace, ?_, ?_⟩
  · rw [assemble_eq, List.rdropWhile_append_rtakeWhile]
  · intro c hc
    exact isWhitespace_words words c ((List.rtakeWhile_suffix _ _).subset hc)
      (List.mem_rtakeWhile_imp hc)

theorem getLast_assemble (words : List Word) : (assemble words).getLast? ≠ some ' ' := by
  intro hlast
  rw [assemble_eq] at hlast
  have hne : ((tokensFrom false words).foldl joinToken []).rdropWhile isWhitespace ≠ [] := by
    rintro hnil
    rw [hnil] at hlast
    cases hlast
  have hnot := List.rdropWhile_last_not isWhitespace _ hne
  rw [List.getLast?_eq_some_getLast hne] at hlast
  rw [Option.some.inj hlast] at hnot
  exact hnot (by decide)

theorem head_assemble (words : List Word) : (assemble words).head? ≠ some ' ' := by
  obtain ⟨dropped, heq, -⟩ := exists_trimmed words
  intro hhead
  apply head_words words
  rw [heq, List.head?_append, hhead]
  rfl

/-- A text that ends in no space stays right behind spaces, if a space may follow one. -/
theorem isChain_trimmed_iff {text dropped : List Char} (hlast : text.getLast? ≠ some ' ')
    (hdropped : ∀ c ∈ dropped, c = ' ') (hspace : p ' ') :
    (text ++ dropped).IsChain (Follows p) ↔ text.IsChain (Follows p) := by
  have hspaces : dropped.IsChain (Follows p) := by
    induction dropped with
    | nil => exact .nil
    | cons c rest ih =>
        rw [List.forall_mem_cons] at hdropped
        rw [List.isChain_cons]
        refine ⟨fun b hb _ => ?_, ih hdropped.2⟩
        rw [hdropped.2 b (List.mem_of_mem_head? hb)]
        exact hspace
  rw [List.isChain_append]
  constructor
  · exact fun h => h.1
  · intro h
    refine ⟨h, hspaces, ?_⟩
    rintro a ha b - rfl
    exact absurd ha hlast

/-- No space is doubled and none stands at an end. -/
theorem spaced_assemble (words : List Word) : Joined.Spaced ' ' (assemble words) := by
  have hfresh : ∀ word : Word, word.isShown → ∀ c ∈ word.text.head?, c ≠ ' ' := by
    rintro word hshown c hc rfl
    exact space_notMem_text hshown (List.mem_of_mem_head? hc)
  have hmoras : ∀ word : Word, word.moras ≠ [] → ∀ c ∈ word.text.head?, c ≠ ' ' := by
    rintro word hmoras c hc rfl
    exact absurd (plain_of_moras hmoras ' ' (List.mem_of_mem_head? hc)).1 (by decide)
  have hnext : ∀ words : List Word, NextStarts (· ≠ ' ') words := by
    intro words next hnext
    exact hfresh next (List.find?_some hnext)
  have hchain : ((tokensFrom false words).foldl joinToken []).IsChain (Follows (· ≠ ' ')) :=
    (isChain_words_iff hmoras words false []).mpr
      ⟨.nil, fun _ => hnext words, fun _ _ rest _ _ _ => hnext rest⟩
  obtain ⟨dropped, heq, -⟩ := exists_trimmed words
  rw [heq] at hchain
  refine ⟨head_assemble words, getLast_assemble words, ?_⟩
  refine hchain.left_of_append.imp ?_
  rintro a b hstep ⟨ha, hb⟩
  exact hstep ha hb

theorem stops_assemble_iff (words : List Word) :
    ((assemble words).IsChain fun a b => a = ' ' → b ∉ punctStops) ↔
      SpacesFit (· ∉ punctStops) words := by
  obtain ⟨dropped, heq, hdropped⟩ := exists_trimmed words
  have hmoras : ∀ word : Word, word.moras ≠ [] → ∀ c ∈ word.text.head?, c ∉ punctStops :=
    fun word hmoras c hc => (plain_of_moras hmoras c (List.mem_of_mem_head? hc)).2
  have hwords := isChain_words_iff hmoras words false []
  rw [heq, isChain_trimmed_iff (getLast_assemble words) hdropped (by decide)] at hwords
  refine hwords.trans ?_
  constructor
  · exact fun h => h.2.2
  · exact fun h => ⟨.nil, fun hlast => absurd hlast (by simp), h⟩

theorem complete_assemble (words : List Word) :
    (assemble words).filter (· != ' ') = words.flatMap shownText := by
  obtain ⟨dropped, heq, hdropped⟩ := exists_trimmed words
  have hfilter := filter_words words false []
  have hnone : dropped.filter (· != ' ') = [] := by
    rw [List.filter_eq_nil_iff]
    intro c hc
    simp [hdropped c hc]
  rw [heq, List.filter_append, hnone, List.append_nil, List.filter_nil, List.nil_append] at hfilter
  exact hfilter

/-- What the words up to a mark make of the space before it. -/
theorem settled_until {whitespace : List Char} {between : List Word}
    (hbetween : ∀ word ∈ between, word.isShown = false) {stop : Word} (hstop : stop.kind = .punct)
    (after : List Word) :
    settled whitespace (between ++ stop :: after) =
      let spaced := if between.head?.any (·.kind == .blank) then [' '] else whitespace
      if between.any (·.kind == .silent) then spaced
      else beforePunct spaced (mapPunct stop.surface) := by
  induction between generalizing whitespace with
  | nil => simp [settled, hstop]
  | cons word between ih =>
      rw [List.forall_mem_cons] at hbetween
      cases hkind : word.kind with
      | punct => simp [Word.isShown, hkind] at hbetween
      | spoken => simp [Word.isShown, hkind] at hbetween
      | blank =>
          rw [List.cons_append, settled, hkind]
          simp only [ih hbetween.2]
          simp [hkind]
      | silent =>
          rw [List.cons_append, settled, hkind]
          simp [hkind]

/-- The space behind a word is there before a mark when it is kept. -/
theorem settled_eq_space_iff {word stop : Word} {between : List Word}
    (hbetween : ∀ word ∈ between, word.isShown = false) (hstop : stop.kind = .punct)
    (after : List Word) :
    settled word.space (between ++ stop :: after) = [' '] ↔ keepsSpace word between stop := by
  have hcloses : stop.closes = punctStops.contains stop.lastChar := by simp [Word.closes, hstop]
  have hopens : stop.opens = punctStarts.contains stop.lastChar := by simp [Word.opens, hstop]
  rw [settled_until hbetween hstop, keepsSpace, hcloses, hopens, Word.lastChar, Word.space]
  simp only [beforePunct]
  -- Only five conditions are left, and every combination of them agrees.
  generalize between.head?.any (·.kind == .blank) = blank
  generalize between.any (·.kind == .silent) = silent
  generalize word.closes = closes
  generalize punctStops.contains ((mapPunct stop.surface).getLastD ' ') = stops
  generalize punctStarts.contains ((mapPunct stop.surface).getLastD ' ') = starts
  revert blank silent closes stops starts
  decide

theorem exists_split_find {words : List Word} {next : Word}
    (h : words.find? (·.isShown) = some next) :
    (∀ word ∈ words.takeWhile (!·.isShown), word.isShown = false) ∧
      ∃ after, words = words.takeWhile (!·.isShown) ++ next :: after := by
  obtain ⟨hnext, before, after, rfl, hbefore⟩ := List.find?_eq_some_iff_append.mp h
  have htake : (before ++ next :: after).takeWhile (!·.isShown) = before := by
    rw [List.takeWhile_append_of_pos hbefore, List.takeWhile_cons_of_neg (by simp [hnext]),
      List.append_nil]
  rw [htake]
  exact ⟨fun word hword => by simpa using hbefore word hword, after, rfl⟩

/-- A shown word that starts with a stop is a mark. -/
theorem kind_of_starts_stop {word : Word} {c : Char} (h : word.isShown)
    (hc : c ∈ word.text.head?) (hstop : c ∈ punctStops) : word.kind = .punct := by
  rcases isShown_iff.mp h with hpunct | hspoken
  · exact hpunct
  · exact absurd hstop (plain_of_moras (moras_of_spoken hspoken) c (List.mem_of_mem_head? hc)).2

theorem spacesFit_iff_stopsJoin (words : List Word) :
    SpacesFit (· ∉ punctStops) words ↔ StopsJoin words := by
  constructor
  · intro h before word rest heq hshown stop hfind hstarts
    have hstop := List.find?_some hfind
    obtain ⟨c, text, htext⟩ := List.exists_cons_of_ne_nil (text_ne_nil hstop)
    have hhead : c ∈ stop.text.head? := by rw [htext]; rfl
    obtain ⟨hbetween, after, hrest⟩ := exists_split_find hfind
    have hkind := kind_of_starts_stop hstop hhead (hstarts c hhead)
    by_contra hkeeps
    have hsettled : settled word.space rest = [' '] := by
      rw [hrest]
      exact (settled_eq_space_iff hbetween hkind after).mpr (by simpa using hkeeps)
    exact h before word rest heq hshown hsettled stop hfind c hhead (hstarts c hhead)
  · intro h before word rest heq hshown hsettled next hfind c hc hmem
    have hnext := List.find?_some hfind
    obtain ⟨hbetween, after, hrest⟩ := exists_split_find hfind
    have hkind := kind_of_starts_stop hnext hc hmem
    have hstarts : ∀ d ∈ next.text.head?, d ∈ punctStops := by
      rintro d hd
      rw [Option.mem_def.mp hc] at hd
      rwa [← Option.some.inj hd]
    have hkeeps := h before word rest heq hshown next hfind hstarts
    rw [hrest, settled_eq_space_iff hbetween hkind, hkeeps] at hsettled
    cases hsettled

/-- A word that is not shown has no text, unless it is a blank that is pronounced. -/
theorem text_eq_nil_iff {word : Word} (h : word.isShown = false) :
    word.text = [] ↔ (word.kind = .blank → word.moras = []) := by
  constructor
  · intro htext _
    by_contra hmoras
    exact text_ne_nil_of_moras hmoras htext
  · intro hblank
    have hmoras : word.moras = [] := by
      cases hkind : word.kind with
      | punct => simp [Word.isShown, hkind] at h
      | spoken => simp [Word.isShown, hkind] at h
      | blank => exact hblank hkind
      | silent => exact moras_of_silent hkind
    have honly : isPunctOnly (mapPunct word.surface) = false := by
      by_contra hpunct
      have hkind := kind_punct_iff.mpr ⟨hmoras, by simpa using hpunct⟩
      simp [Word.isShown, hkind] at h
    simp [Word.text, hmoras, honly]

theorem shownText_eq_iff (word : Word) :
    shownText word = word.text ↔ (word.kind = .blank → word.moras = []) := by
  cases hshown : word.isShown with
  | true =>
      have hkind : word.kind ≠ .blank := by
        rcases isShown_iff.mp hshown with hkind | hkind <;> simp [hkind]
      simp [shownText, hshown, hkind]
  | false =>
      rw [shownText, hshown, ← text_eq_nil_iff hshown, eq_comm]
      rfl

theorem length_shownText_le (word : Word) : (shownText word).length ≤ word.text.length := by
  rw [shownText]
  split
  · exact Nat.le_refl _
  · exact Nat.zero_le _

/-- The shown texts are all texts exactly when they are word by word: none is longer than
its word's. -/
theorem flatMap_shownText_iff (words : List Word) :
    words.flatMap shownText = words.flatMap Word.text ↔
      ∀ word ∈ words, word.kind = .blank → word.moras = [] := by
  have hlength : ∀ words : List Word,
      (words.flatMap shownText).length ≤ (words.flatMap Word.text).length := by
    intro words
    induction words with
    | nil => exact Nat.le_refl _
    | cons word rest ih =>
        have hword := length_shownText_le word
        simp only [List.flatMap_cons, List.length_append]
        omega
  induction words with
  | nil => simp
  | cons word rest ih =>
      rw [List.flatMap_cons, List.flatMap_cons, List.forall_mem_cons]
      refine Iff.trans ?_ (and_congr (shownText_eq_iff word) ih)
      constructor
      · intro heq
        have htotal := congrArg List.length heq
        have hword := length_shownText_le word
        have hrest := hlength rest
        simp only [List.length_append] at htotal
        exact List.append_inj heq (by omega)
      · rintro ⟨hword, hrest⟩
        rw [hword, hrest]

/-- The sentence is well assembled exactly when no stop is kept from the word before it, and
no blank is pronounced. -/
theorem wellAssembled_iff (words : List Word) :
    WellAssembled words ↔
      StopsJoin words ∧ ∀ word ∈ words, word.kind = .blank → word.moras = [] := by
  rw [← spacesFit_iff_stopsJoin, ← stops_assemble_iff, ← flatMap_shownText_iff,
    ← complete_assemble]
  constructor
  · exact fun h => ⟨h.stops, h.complete⟩
  · exact fun h => ⟨spaced_assemble words, h.1, h.2⟩

/-- A word without a pronunciation keeps the full stop behind it from the comma before it. -/
theorem unpronounced_keeps_space :
    assemble [⟨['ハ', 'イ'], ['ハ', 'イ'], 2, false⟩, ⟨['、'], ['、'], 0, false⟩, ⟨['☆'], [], 0, false⟩,
        ⟨['。'], ['、'], 0, false⟩] = ['h', 'a', 'i', ',', ' ', '.'] ∧
      ¬ WellAssembled [⟨['ハ', 'イ'], ['ハ', 'イ'], 2, false⟩, ⟨['、'], ['、'], 0, false⟩,
        ⟨['☆'], [], 0, false⟩, ⟨['。'], ['、'], 0, false⟩] := by
  have hresult : assemble [⟨['ハ', 'イ'], ['ハ', 'イ'], 2, false⟩, ⟨['、'], ['、'], 0, false⟩,
      ⟨['☆'], [], 0, false⟩, ⟨['。'], ['、'], 0, false⟩] = ['h', 'a', 'i', ',', ' ', '.'] := by
    decide +kernel
  refine ⟨hresult, fun h => ?_⟩
  have hstops := h.stops
  rw [hresult] at hstops
  simp [punctStops] at hstops

end Words

end Dengjen.Kokoro

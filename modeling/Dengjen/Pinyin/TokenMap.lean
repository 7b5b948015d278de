import Dengjen.General.Tilings
import Dengjen.Pinyin.G2pw
import Mathlib.Algebra.GroupWithZero.Nat

/-!
# The token map covers the text

The tokens of a word lie side by side over it when its pieces have as many characters as
it has. The words lie over everything but the spaces, so the map names a token for
every other character, and that token is over it.
-/

namespace Dengjen.Pinyin

open Spans

variable {text rest : List Char} {tables : CharTables} {tokenizer : Tokenizer}
  {placed placed' : Placed} {words : List Word} {i : Nat}

/-- The pieces of the word, without the mark of a continuation, have as many characters as it has,
unless it is unknown. -/
def Tokenizer.Measures (tokenizer : Tokenizer) (word : Word) : Prop :=
  ∀ wordTokens, tokenizer.encode word.text = .ok wordTokens →
    wordTokens = [] ∨ wordTokens = [unk] ∨
      (wordTokens.map fun wordToken => (stripped wordToken).length).sum = word.text.length

/-- The tokens lie side by side from the start of the word to its end. -/
def Word.TiledBy (word : Word) (block : List Token) : Prop :=
  Tiles Token.start Token.stop word.start block word.stop

/-- More tokens side by side, with the slots of their characters. -/
structure Extends (start stop : Nat) (placed placed' : Placed) (block : List Token) : Prop where
  tokens : placed'.1 = placed.1 ++ block
  tiles : Tiles Token.start Token.stop start block stop
  indexed : Indexed Token.start Token.stop stop placed'
  length : placed'.2.length = placed.2.length

theorem extends_place {start stop : Nat} (h : Indexed Token.start Token.stop start placed)
    (text : List Char) (hle : start ≤ stop) (hlength : stop ≤ placed.2.length) :
    Extends start stop placed (place placed ⟨text, start, stop⟩ start stop)
      [⟨text, start, stop⟩] where
  tokens := rfl
  tiles := @Tiles.cons _ Token.start Token.stop ⟨text, start, stop⟩ [] stop hle .nil
  indexed := @Indexed.place _ Token.start Token.stop _ ⟨text, start, stop⟩ h hle hlength
  length := length_fill ..

theorem Extends.trans {start middle stop : Nat} {placed'' : Placed} {block block' : List Token}
    (h : Extends start middle placed placed' block)
    (h' : Extends middle stop placed' placed'' block') :
    Extends start stop placed placed'' (block ++ block') where
  tokens := by rw [h'.tokens, h.tokens, List.append_assoc]
  tiles := h.tiles.append h'.tiles
  indexed := h'.indexed
  length := h'.length.trans h.length

theorem extends_placePieces {cursor : Nat} {wordTokens : List (List Char)}
    (h : Indexed Token.start Token.stop cursor placed)
    (hlength : cursor + (wordTokens.map fun wordToken => (stripped wordToken).length).sum ≤
      placed.2.length) :
    ∃ block, Extends cursor
      (cursor + (wordTokens.map fun wordToken => (stripped wordToken).length).sum) placed
      (placePieces placed cursor wordTokens) block := by
  induction wordTokens generalizing cursor placed with
  | nil => exact ⟨[], (List.append_nil _).symm, .nil, h, rfl⟩
  | cons wordToken rest ih =>
      rw [List.map_cons, List.sum_cons, ← Nat.add_assoc] at hlength ⊢
      have hfirst := extends_place h wordToken (Nat.le_add_right cursor (stripped wordToken).length)
        (by omega)
      obtain ⟨block, hblock⟩ := ih hfirst.indexed (by rwa [hfirst.length])
      exact ⟨_, hfirst.trans hblock⟩

/-- The tokens of a word lie over it. -/
theorem extends_tokenizeWord {word : Word} (hmeasures : tokenizer.Measures word)
    (hindexed : Indexed Token.start Token.stop word.start placed)
    (hstop : word.stop = word.start + word.text.length) (hlength : word.stop ≤ placed.2.length)
    (h : tokenizeWord tables tokenizer placed word = .ok placed') :
    ∃ block, Extends word.start word.stop placed placed' block := by
  rw [tokenizeWord] at h
  split at h
  · cases h
  · next wordTokens hencode =>
      split at h
      · cases h
        exact ⟨_, extends_place hindexed unk (by omega) hlength⟩
      · next hknown =>
          cases h
          rw [not_or] at hknown
          have hsum := ((hmeasures _ hencode).resolve_left hknown.1).resolve_left hknown.2
          rw [hstop, ← hsum] at hlength ⊢
          exact extends_placePieces hindexed hlength

/-- What each word adds to the tokens. -/
theorem exists_blocks (hwords : Wordized i rest words)
    (hmeasures : ∀ word ∈ words, tokenizer.Measures word)
    (hindexed : Indexed Token.start Token.stop i placed)
    (hlength : placed.2.length = i + rest.length)
    (h : words.foldlM (tokenizeWord tables tokenizer) placed = .ok placed') :
    ∃ blocks, placed'.1 = placed.1 ++ blocks.flatten ∧
      List.Forall₂ Word.TiledBy words blocks ∧
      Indexed Token.start Token.stop (i + rest.length) placed' ∧
      placed'.2.length = placed.2.length := by
  induction hwords generalizing placed with
  | nil =>
      cases h
      exact ⟨[], (List.append_nil _).symm, .nil, hindexed, rfl⟩
  | @space i rest words tail ih =>
      rw [List.length_cons, Nat.add_comm rest.length, ← Nat.add_assoc] at hlength ⊢
      exact ih hmeasures (hindexed.mono (Nat.le_succ i)) hlength h
  | @word i stop text rest words hne hspace hstop tail ih =>
      rw [List.forall_mem_cons] at hmeasures
      rw [List.length_append, ← Nat.add_assoc, ← hstop] at hlength ⊢
      obtain ⟨between, hfirst, hrest⟩ := exists_of_bind_eq_ok h
      obtain ⟨block, hblock⟩ :=
        extends_tokenizeWord hmeasures.1 hindexed hstop
          (hlength ▸ Nat.le_add_right stop rest.length) hfirst
      obtain ⟨blocks, htokens, htiles, hindexed', hlength'⟩ :=
        ih hmeasures.2 hblock.indexed (hblock.length.trans hlength) hrest
      refine ⟨block :: blocks, ?_, .cons hblock.tiles htiles, hindexed',
        hlength'.trans hblock.length⟩
      rw [htokens, hblock.tokens, List.flatten_cons, List.append_assoc]

theorem Wordized.le_start (h : Wordized i rest words) : ∀ word ∈ words, i ≤ word.start := by
  induction h with
  | nil => exact nofun
  | space _ ih => exact fun word hword => Nat.le_of_succ_le (ih word hword)
  | word hne hspace hstop _ ih =>
      refine List.forall_mem_cons.mpr ⟨Nat.le_refl _, fun word hword => ?_⟩
      have hle := ih word hword
      omega

theorem Wordized.pairwise (h : Wordized i rest words) :
    words.Pairwise fun a b => a.stop ≤ b.start := by
  induction h with
  | nil => exact .nil
  | space _ ih => exact ih
  | word hne hspace hstop tail ih => exact List.pairwise_cons.mpr ⟨tail.le_start, ih⟩

/-- A character is in a word exactly when it is not a space. -/
theorem Wordized.exists_iff (h : Wordized i rest words) {pos : Nat} (hpos : i ≤ pos) :
    (∃ word ∈ words, word.start ≤ pos ∧ pos < word.stop) ↔
      ∃ c, rest[pos - i]? = some c ∧ c ≠ ' ' := by
  induction h with
  | nil => simp
  | @space i rest words tail ih =>
      rcases Nat.eq_or_lt_of_le hpos with rfl | hlt
      · refine iff_of_false ?_ ?_
        · rintro ⟨word, hword, hstart, -⟩
          exact Nat.not_succ_le_self i (Nat.le_trans (tail.le_start word hword) hstart)
        · rintro ⟨c, hc, hne⟩
          rw [Nat.sub_self, List.getElem?_cons_zero, Option.some.injEq] at hc
          exact hne hc.symm
      · rw [ih hlt, show pos - i = pos - (i + 1) + 1 by omega, List.getElem?_cons_succ]
  | @word i stop text rest words hne hspace hstop tail ih =>
      simp only [List.mem_cons, or_and_right, exists_or, exists_eq_left]
      rcases Nat.lt_or_ge pos stop with hlt | hge
      · have hlength : pos - i < text.length := by omega
        rw [List.getElem?_append_left hlength, List.getElem?_eq_getElem hlength]
        exact iff_of_true (.inl ⟨hpos, hlt⟩)
          ⟨_, rfl, fun hc => hspace (hc ▸ List.getElem_mem hlength)⟩
      · rw [List.getElem?_append_right (by omega), ih hge,
          show pos - i - text.length = pos - stop by omega]
        simp [Nat.not_lt.mpr hge]

theorem le_start_of_tiledBy {blocks : List (List Token)} {bound : Nat}
    (htiles : List.Forall₂ Word.TiledBy words blocks)
    (hbound : ∀ word ∈ words, bound ≤ word.start) :
    ∀ token ∈ blocks.flatten, bound ≤ token.start := by
  induction htiles with
  | nil => exact nofun
  | cons htile _ ih =>
      rw [List.forall_mem_cons] at hbound
      rw [List.flatten_cons, List.forall_mem_append]
      refine ⟨fun token htoken => ?_, ih hbound.2⟩
      exact Nat.le_trans hbound.1 (Tiles.bounds htile token htoken).1

/-- The tokens of words that lie behind each other do so too. -/
theorem pairwise_flatten {blocks : List (List Token)}
    (htiles : List.Forall₂ Word.TiledBy words blocks)
    (hwords : words.Pairwise fun a b => a.stop ≤ b.start) :
    blocks.flatten.Pairwise fun a b => a.stop ≤ b.start := by
  induction htiles with
  | nil => exact .nil
  | cons htile htiles ih =>
      rw [List.pairwise_cons] at hwords
      rw [List.flatten_cons, List.pairwise_append]
      refine ⟨Tiles.pairwise htile, ih hwords.2, fun a ha b hb => ?_⟩
      exact Nat.le_trans (Tiles.bounds htile a ha).2 (le_start_of_tiledBy htiles hwords.1 b hb)

theorem exists_token_iff {blocks : List (List Token)}
    (htiles : List.Forall₂ Word.TiledBy words blocks)
    (pos : Nat) :
    (∃ token ∈ blocks.flatten, token.start ≤ pos ∧ pos < token.stop) ↔
      ∃ word ∈ words, word.start ≤ pos ∧ pos < word.stop := by
  induction htiles with
  | nil => simp
  | cons htile _ ih =>
      simp only [List.flatten_cons, List.mem_append, List.mem_cons, or_and_right, exists_or,
        exists_eq_left, ih, Tiles.exists_iff htile]

/-- A table with a number for everything but the spaces has none for these. -/
theorem slot_eq_none_iff {slots : List (Option Nat)} (hlength : slots.length = text.length)
    (hnamed : ∀ pos : Nat, (∃ number, slots[pos]? = some (some number)) ↔
      ∃ c, text[pos]? = some c ∧ c ≠ ' ') (pos : Nat) :
    slots[pos]? = some none ↔ text[pos]? = some ' ' := by
  by_cases hpos : pos < text.length
  · have hslot := hnamed pos
    have hpos' : pos < slots.length := hlength.symm ▸ hpos
    simp only [List.getElem?_eq_getElem hpos, List.getElem?_eq_getElem hpos', Option.some.injEq,
      exists_eq_left'] at hslot ⊢
    rw [← Option.ne_none_iff_exists'] at hslot
    exact not_iff_not.mp hslot
  · rw [Nat.not_lt] at hpos
    rw [List.getElem?_eq_none hpos, List.getElem?_eq_none (hlength.symm ▸ hpos)]
    exact iff_of_false nofun nofun

/-- The tokens of a word lie side by side over it, all tokens in order and without an overlap, and
together over everything but the spaces. The map names for each position the token that is over
it, and none for a space. -/
theorem tokenizeAndMap_covers {tokens : List Token} {textToToken : List (Option Nat)}
    (hmeasures : ∀ word ∈ (wordize text).1, tokenizer.Measures word)
    (h : tokenizeAndMap tables tokenizer text = .ok (tokens, textToToken)) :
    (∃ blocks : List (List Token), tokens = blocks.flatten ∧
      List.Forall₂ Word.TiledBy (wordize text).1 blocks) ∧
      (tokens.Pairwise fun a b => a.stop ≤ b.start) ∧
      (∀ pos : Nat, (∃ token ∈ tokens, token.start ≤ pos ∧ pos < token.stop) ↔
        ∃ c, text[pos]? = some c ∧ c ≠ ' ') ∧
      textToToken.length = text.length ∧
      (∀ pos number : Nat, textToToken[pos]? = some (some number) ↔
        ∃ token : Token, tokens[number]? = some token ∧ token.start ≤ pos ∧ pos < token.stop) ∧
      ∀ pos : Nat, textToToken[pos]? = some none ↔ text[pos]? = some ' ' := by
  have hwords := wordized_wordize text
  obtain ⟨blocks, htokens, htiles, hindexed, hlength⟩ :=
    exists_blocks hwords hmeasures (.replicate Token.start Token.stop text.length) (by simp) h
  rw [List.length_replicate] at hlength
  have htokens : tokens = blocks.flatten := htokens
  have hcovered : ∀ pos : Nat, (∃ token ∈ tokens, token.start ≤ pos ∧ pos < token.stop) ↔
      ∃ c, text[pos]? = some c ∧ c ≠ ' ' := by
    intro pos
    rw [htokens, exists_token_iff htiles]
    exact hwords.exists_iff (Nat.zero_le pos)
  have hslot : ∀ pos number : Nat, textToToken[pos]? = some (some number) ↔
      ∃ token : Token, tokens[number]? = some token ∧ token.start ≤ pos ∧ pos < token.stop := by
    intro pos number
    refine (hindexed.slot pos number).trans (and_iff_right_of_imp ?_)
    rintro ⟨token, htoken, hover⟩
    obtain ⟨c, hc, -⟩ := (hcovered pos).mp ⟨token, List.mem_of_getElem? htoken, hover⟩
    exact hlength ▸ (List.getElem?_eq_some_iff.mp hc).1
  have hnamed : ∀ pos : Nat, (∃ number, textToToken[pos]? = some (some number)) ↔
      ∃ c, text[pos]? = some c ∧ c ≠ ' ' := by
    intro pos
    simp only [← hcovered, hslot, List.mem_iff_getElem?]
    rw [exists_comm]
    simp only [exists_and_right]
  exact ⟨⟨blocks, htokens, htiles⟩, htokens ▸ pairwise_flatten htiles hwords.pairwise, hcovered,
    hlength, hslot, slot_eq_none_iff hlength hnamed⟩

/-- A tokenizer that knows one word, in two pieces. -/
def rootTokenizer : Tokenizer where
  encode word :=
    .ok (if word = ['h', 'i', 's'] then [['h', 'i'], ['#', '#', 's']] else [unk])
  tokenToId _ := none

theorem measures_rootTokenizer (word : Word) : rootTokenizer.Measures word := by
  intro wordTokens h
  cases h
  split
  · next hword => exact .inr (.inr (hword ▸ rfl))
  · exact .inr (.inl rfl)

/-- A word in two pieces, a space, and a character that the tokenizer does not know. -/
theorem rootTokenizer_covers :
    tokenizeAndMap .dottedI rootTokenizer ['h', 'i', 's', ' ', '\u884C'] =
        .ok ([⟨['h', 'i'], 0, 2⟩, ⟨['#', '#', 's'], 2, 3⟩, ⟨unk, 4, 5⟩],
          [some 0, some 0, some 1, none, some 2]) ∧
      [(⟨['h', 'i'], 0, 2⟩ : Token), ⟨['#', '#', 's'], 2, 3⟩, ⟨unk, 4, 5⟩].Pairwise
        fun a b => a.stop ≤ b.start :=
  ⟨rfl, (tokenizeAndMap_covers (fun word _ => measures_rootTokenizer word)
    (rfl : tokenizeAndMap .dottedI rootTokenizer ['h', 'i', 's', ' ', '\u884C'] = .ok _)).2.1⟩

end Dengjen.Pinyin

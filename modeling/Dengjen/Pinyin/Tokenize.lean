import Dengjen.Core.Error
import Dengjen.General.Spans

/-!
# Tokens and the characters they cover

A text is split into words at spaces and around everything but runs of ASCII letters
and digits, and each word is handed to the tokenizer. A token covers as many characters
as its text has, without the mark of a continuation, and a word that the tokenizer does
not know is one token as a whole.

## Implementation notes

A text is the list of its characters. The tokenizer is that of the `tokenizers` crate.
-/

namespace Dengjen.Pinyin

open Spans

/-- What the standard library knows of characters. -/
structure CharTables where
  toLower : Char → List Char
  isCased : Char → Bool
  isCaseIgnorable : Char → Bool
  /-- `{:?}` of a text. -/
  debug : List Char → String
  toLower_ne_nil : ∀ c, toLower c ≠ []
  toLower_space : toLower ' ' = [' ']
  space_notMem_toLower : ∀ c, c ≠ ' ' → ' ' ∉ toLower c

/-- The pieces of a word, or why there are none, and the numbers of the pieces. -/
structure Tokenizer where
  encode : List Char → Except String (List (List Char))
  tokenToId : List Char → Option Nat

/-- A word with its place in the text. -/
structure Word where
  text : List Char
  start : Nat
  stop : Nat
  deriving DecidableEq

/-- A token with its place in the text. -/
structure Token where
  text : List Char
  start : Nat
  stop : Nat
  deriving DecidableEq

/-- The words from position `i` on, when `words` are found before it and the last of them reaches
over `covered` more characters, and the word of each position. -/
def wordizeLoop (i words : Nat) : List Char → Nat → List Word × List (Option Nat)
  | [], _ => ([], [])
  | _ :: rest, covered + 1 =>
      let tail := wordizeLoop (i + 1) words rest covered
      (tail.1, some (words - 1) :: tail.2)
  | current :: rest, 0 =>
      if current = ' ' then
        let tail := wordizeLoop (i + 1) words rest 0
        (tail.1, none :: tail.2)
      else if current.isAlphanum then
        let run := rest.takeWhile Char.isAlphanum
        let tail := wordizeLoop (i + 1) (words + 1) rest run.length
        (⟨current :: run, i, i + 1 + run.length⟩ :: tail.1, some words :: tail.2)
      else
        let tail := wordizeLoop (i + 1) (words + 1) rest 0
        (⟨[current], i, i + 1⟩ :: tail.1, some words :: tail.2)

/-- The words of a text, and the word of each character. -/
def wordize (text : List Char) : List Word × List (Option Nat) := wordizeLoop 0 0 text 0

/-- What a tokenizer writes for a word that it does not know. -/
def unk : List Char := "[UNK]".toList

/-- `strip_prefix("##")`, or the text itself. -/
def stripped (wordToken : List Char) : List Char :=
  (wordToken.dropPrefix? "##".toList).getD wordToken

/-- Tokens, and the number of the token of each position. -/
abbrev Placed := List Token × List (Option Nat)

/-- The tokens of a word, one behind the other. -/
def placePieces (placed : Placed) (cursor : Nat) : List (List Char) → Placed
  | [] => placed
  | wordToken :: rest =>
      let tokenLen := (stripped wordToken).length
      placePieces (place placed ⟨wordToken, cursor, cursor + tokenLen⟩ cursor (cursor + tokenLen))
        (cursor + tokenLen) rest

/-- The tokens of one more word. -/
def tokenizeWord (tables : CharTables) (tokenizer : Tokenizer) (placed : Placed) (word : Word) :
    DengjenResult Placed :=
  match tokenizer.encode word.text with
  | .error cause =>
      .error (.phonemizationError
        s!"g2pW tokenizer failed to encode {tables.debug word.text}: {cause}")
  | .ok wordTokens =>
      if wordTokens = [] ∨ wordTokens = [unk] then
        .ok (place placed ⟨unk, word.start, word.stop⟩ word.start word.stop)
      else .ok (placePieces placed word.start wordTokens)

/-- The tokens of a text, and the token of each character. -/
def tokenizeAndMap (tables : CharTables) (tokenizer : Tokenizer) (text : List Char) :
    DengjenResult Placed :=
  (wordize text).1.foldlM (tokenizeWord tables tokenizer) ([], List.replicate text.length none)

/-! ## Words -/

variable {text : List Char} {tables : CharTables} {tokenizer : Tokenizer}
  {placed placed' : Placed}

/-- The words of a text from a position on: nothing but spaces is between them. -/
inductive Wordized : Nat → List Char → List Word → Prop
  | nil {i} : Wordized i [] []
  | space {i rest words} (tail : Wordized (i + 1) rest words) : Wordized i (' ' :: rest) words
  | word {i stop text rest words} (hne : text ≠ []) (hspace : ' ' ∉ text)
      (hstop : stop = i + text.length) (tail : Wordized stop rest words) :
      Wordized i (text ++ rest) (⟨text, i, stop⟩ :: words)

theorem space_notMem_takeWhile (rest : List Char) : ' ' ∉ rest.takeWhile Char.isAlphanum := by
  intro hspace
  exact absurd (List.all_eq_true.mp List.all_takeWhile ' ' hspace) (by decide)

theorem wordized_wordizeLoop (i words : Nat) (text : List Char) (covered : Nat) :
    Wordized (i + covered) (text.drop covered) (wordizeLoop i words text covered).1 := by
  fun_induction wordizeLoop i words text covered with
  | case1 i words covered =>
      rw [List.drop_nil]
      exact .nil
  | case2 i words first rest covered tail ih =>
      rwa [Nat.add_assoc, Nat.add_comm 1] at ih
  | case3 i words rest tail ih => exact .space ih
  | case4 i words current rest hspace _ run tail ih =>
      have hnotMem : ' ' ∉ current :: run := by
        rw [List.mem_cons, not_or]
        exact ⟨Ne.symm hspace, space_notMem_takeWhile rest⟩
      have hstop : i + 1 + run.length = i + (current :: run).length := by
        rw [List.length_cons]
        omega
      have hword := Wordized.word (List.cons_ne_nil current run) hnotMem hstop ih
      rwa [List.cons_append, List.prefix_iff_eq_append.mp (List.takeWhile_prefix _)] at hword
  | case5 i words current rest hspace _ tail ih =>
      exact .word (List.cons_ne_nil current []) (by simpa using Ne.symm hspace) rfl ih

theorem wordized_wordize (text : List Char) : Wordized 0 text (wordize text).1 :=
  wordized_wordizeLoop 0 0 text 0

/-- What tokenizing a text keeps from word to word, and over spaces, it has at its end. -/
theorem tokenizeWords_induction {motive : Nat → Placed → Prop} {before rest : List Char} {i : Nat}
    {words : List Word} (hwords : Wordized i rest words) (htext : before ++ rest = text)
    (hbefore : before.length = i)
    (hspace : ∀ i placed, text[i]? = some ' ' → motive i placed → motive (i + 1) placed)
    (hword : ∀ word placed placed', word.text ≠ [] → ' ' ∉ word.text → word.start ≤ word.stop →
      word.stop ≤ text.length → slice text word.start word.stop = word.text →
      tokenizeWord tables tokenizer placed word = .ok placed' →
      motive word.start placed → motive word.stop placed')
    (h : words.foldlM (tokenizeWord tables tokenizer) placed = .ok placed')
    (hstart : motive i placed) : motive text.length placed' := by
  induction hwords generalizing before placed with
  | nil =>
      cases h
      rw [List.append_nil] at htext
      rwa [← htext, hbefore]
  | @space i rest words tail ih =>
      have hhere : text[i]? = some ' ' := by simp [← htext, ← hbefore]
      have hsplit : (before ++ [' ']) ++ rest = text := by simpa using htext
      exact ih hsplit (by simpa using hbefore) h (hspace i placed hhere hstart)
  | @word i stop text' rest words hne hnotMem hstop tail ih =>
      obtain ⟨between, hfirst, hrest⟩ := exists_of_bind_eq_ok h
      have hlength : (before ++ text').length = stop := by
        rw [List.length_append, hbefore, hstop]
      have hslice : slice text i stop = text' := by
        simp [slice, ← htext, ← hbefore, hstop]
      have hle : stop ≤ text.length := by
        rw [← htext, ← hlength, List.length_append, List.length_append, List.length_append]
        omega
      have hsplit : (before ++ text') ++ rest = text := by rw [List.append_assoc, htext]
      have hnext : motive stop between :=
        hword ⟨text', i, stop⟩ placed between hne hnotMem (by simp [hstop]) hle hslice hfirst hstart
      exact ih hsplit hlength hrest hnext

/-! ## Tokens -/

/-- The token stands for the characters of the text that it spells, or for characters that the
tokenizer does not know, and this position is among them. -/
structure Token.Covers (text : List Char) (token : Token) (pos : Nat) : Prop where
  start : token.start ≤ pos
  stop : pos < token.stop
  inside : token.stop ≤ text.length
  spelled : token.text = unk ∨ slice text token.start token.stop = stripped token.text

/-- What is relied on of the tokenizer: the pieces of a word make it up, or it is unknown. -/
def Tokenizer.Splits (tokenizer : Tokenizer) : Prop :=
  ∀ word wordTokens, tokenizer.encode word = .ok wordTokens →
    wordTokens = [] ∨ wordTokens = [unk] ∨ (wordTokens.map stripped).flatten = word

theorem places_placePieces {cursor stop : Nat} {wordTokens : List (List Char)}
    (hpieces : slice text cursor stop = (wordTokens.map stripped).flatten) (hcursor : cursor ≤ stop)
    (hstop : stop ≤ text.length) (hlength : placed.2.length = text.length) :
    Places (Token.Covers text) cursor stop placed (placePieces placed cursor wordTokens) := by
  induction wordTokens generalizing cursor placed with
  | nil =>
      have hempty : stop = cursor := by
        have hzero := congrArg List.length hpieces
        simp only [slice, List.length_take, List.length_drop, List.map_nil, List.flatten_nil,
          List.length_nil] at hzero
        omega
      rw [hempty]
      exact .refl _ cursor placed
  | cons wordToken rest ih =>
      rw [List.map_cons, List.flatten_cons] at hpieces
      obtain ⟨hle, hfront, hback⟩ := slice_append hpieces hcursor hstop
      have hinside := Nat.le_trans hle hstop
      have hplace : Places (Token.Covers text) cursor (cursor + (stripped wordToken).length) placed
          (place placed ⟨wordToken, cursor, cursor + (stripped wordToken).length⟩ cursor
            (cursor + (stripped wordToken).length)) :=
        places_place placed (hlength ▸ hinside) fun pos hpos hpos' =>
          ⟨hpos, hpos', hinside, .inr hfront⟩
      exact hplace.trans (ih hback hle (hplace.length.trans hlength)) (Nat.le_add_right ..) hle

/-- A word is covered by its tokens. -/
theorem places_tokenizeWord (hsplits : tokenizer.Splits) {word : Word} (hstart : word.start ≤ word.stop)
    (hstop : word.stop ≤ text.length) (hslice : slice text word.start word.stop = word.text)
    (hlength : placed.2.length = text.length)
    (h : tokenizeWord tables tokenizer placed word = .ok placed') :
    Places (Token.Covers text) word.start word.stop placed placed' := by
  rw [tokenizeWord] at h
  split at h
  · cases h
  · next wordTokens hencode =>
      split at h
      · cases h
        exact places_place placed (hlength ▸ hstop) fun pos hpos hpos' => ⟨hpos, hpos', hstop, .inl rfl⟩
      · next hknown =>
          cases h
          rw [not_or] at hknown
          have hpieces := ((hsplits _ _ hencode).resolve_left hknown.1).resolve_left hknown.2
          exact places_placePieces (hslice.trans hpieces.symm) hstart hstop hlength

/-- The characters before a position are covered, but for spaces, and those from it on are not
reached yet. -/
structure Reached (text : List Char) (i : Nat) (placed : Placed) : Prop where
  length : placed.2.length = text.length
  space : ∀ pos < i, text[pos]? = some ' ' → placed.2[pos]? = some none
  held : ∀ pos < i, ∀ c, text[pos]? = some c → c ≠ ' ' → Holds (Token.Covers text) placed pos
  ahead : ∀ pos, i ≤ pos → pos < text.length → placed.2[pos]? = some none

theorem Reached.over_space {i : Nat} (h : Reached text i placed) (hspace : text[i]? = some ' ') :
    Reached text (i + 1) placed where
  length := h.length
  space pos hpos htext := by
    rcases Nat.lt_succ_iff_lt_or_eq.mp hpos with hlt | rfl
    · exact h.space pos hlt htext
    · exact h.ahead pos (Nat.le_refl _) (List.getElem?_eq_some_iff.mp hspace).1
  held pos hpos c hc hne := by
    rcases Nat.lt_succ_iff_lt_or_eq.mp hpos with hlt | rfl
    · exact h.held pos hlt c hc hne
    · rw [hspace] at hc
      exact absurd (Option.some.inj hc).symm hne
  ahead pos hpos hlt := h.ahead pos (Nat.le_of_succ_le hpos) hlt

theorem Reached.over_word {start stop : Nat} (h : Reached text start placed)
    (hplaces : Places (Token.Covers text) start stop placed placed')
    (hspace : ' ' ∉ slice text start stop) (hle : start ≤ stop) : Reached text stop placed' where
  length := hplaces.length.trans h.length
  space pos hpos htext := by
    have hlt : pos < start := by
      by_contra hge
      apply hspace
      rw [slice, List.mem_iff_getElem?]
      refine ⟨pos - start, ?_⟩
      rw [List.getElem?_take_of_lt (by omega), List.getElem?_drop, Nat.add_sub_cancel' (by omega)]
      exact htext
    rw [hplaces.outside pos (.inl hlt)]
    exact h.space pos hlt htext
  held pos hpos c hc hne := by
    by_cases hlt : pos < start
    · exact (h.held pos hlt c hc hne).kept hplaces.items (hplaces.outside pos (.inl hlt))
    · exact hplaces.inside pos (by omega) hpos
  ahead pos hpos hlt := by
    rw [hplaces.outside pos (.inr hpos)]
    exact h.ahead pos (Nat.le_trans hle hpos) hlt

/-- Every character but a space is covered by the token that its slot names. -/
theorem reached_tokenizeAndMap (hsplits : tokenizer.Splits)
    (h : tokenizeAndMap tables tokenizer text = .ok placed) : Reached text text.length placed := by
  refine tokenizeWords_induction (motive := Reached text) (wordized_wordize text)
    (List.nil_append text) List.length_nil
    (fun i placed hspace hreached => hreached.over_space hspace) ?_ h ?_
  · intro word placed placed' _ hnotMem hstart hstop hslice hword hreached
    have hplaces := places_tokenizeWord hsplits hstart hstop hslice hreached.length hword
    exact hreached.over_word hplaces (hslice ▸ hnotMem) hstart
  · exact ⟨List.length_replicate, nofun, nofun, fun pos _ hlt => by simp [hlt]⟩

end Dengjen.Pinyin

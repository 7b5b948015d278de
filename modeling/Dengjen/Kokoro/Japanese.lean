import Dengjen.Core.Texts
import Dengjen.Kokoro.Moras
import Mathlib.Data.List.DropRight

/-!
# Assembling a Japanese sentence

The words of a sentence become tokens, each with the space that follows it, and
the tokens that have phonemes are joined. A word settles the space of the token
before it: a blank asks for one, a stop takes it back, an opening mark asks for
one if there is none.

## Implementation notes

`assemble` folds over the words and changes the last token on the way. The proofs
read the words the other way: what follows a word settles the space behind it.
-/

namespace Dengjen.Kokoro

/-- The marks that open. -/
def punctStarts : List Char := ['(', '“']
/-- The marks that end something. -/
def punctStops : List Char := ['!', ')', ',', '.', ':', ';', '?', '”']
/-- The marks that the output has. -/
def punctValues : List Char :=
  ['!', '"', '(', ')', ',', '.', ':', ';', '?', '—', '“', '”', '…']

/-- A word of the dictionary with its reading. -/
structure Word where
  surface : List Char
  pron : List Char
  moraSize : Nat
  chainFlag : Bool
  deriving DecidableEq, Repr

/-- What is written for a word or a mark. -/
structure Token where
  phonemes : Option (List Char)
  whitespace : List Char
  voiced : Bool
  chained : Bool
  startsWithN : Bool
  deriving DecidableEq, Repr

/-- Japanese marks as the output writes them. -/
def mapPunct (surface : List Char) : List Char :=
  surface.map fun
    | '«' | '〈' | '《' | '「' | '『' | '【' => '“'
    | '»' | '〉' | '》' | '」' | '』' | '】' => '”'
    | '、' | '，' => ','
    | '。' | '．' => '.'
    | '！' => '!'
    | '（' => '('
    | '）' => ')'
    | '：' => ':'
    | '；' => ';'
    | '？' => '?'
    | other => other

/-- A text of marks and nothing else. -/
def isPunctOnly (surface : List Char) : Bool :=
  !surface.isEmpty && surface.all punctValues.contains

/-- The last token is followed by other space than it was. -/
def setLastWhitespace (tokens : List Token) (whitespace : List Char) : List Token :=
  match tokens.getLast? with
  | some last => tokens.dropLast ++ [{ last with whitespace := whitespace }]
  | none => tokens

/-- Writes a mark, which changes the space around it. -/
def pushPunct (tokens : List Token) (surface : List Char) : List Token :=
  let lastChar := surface.getLastD ' '
  let (tokens, whitespace) :=
    if punctStops.contains lastChar then (setLastWhitespace tokens [], [' '])
    else if punctStarts.contains lastChar && tokens.getLast?.any (·.whitespace.isEmpty) then
      (setLastWhitespace tokens [' '], [])
    else (tokens, [])
  tokens ++ [{
    phonemes := some surface
    whitespace := whitespace
    voiced := false
    chained := false
    startsWithN := false }]

/-- The moras of a word that has any. -/
def Word.moras (word : Word) : List (List Char) :=
  if word.moraSize > 0 then pronToMoras word.pron else []

/-- Writes a word, a mark or a space. -/
def pushWord (tokens : List Token) (word : Word) : List Token :=
  let surface := mapPunct word.surface
  let moras := word.moras
  if moras.isEmpty && isPunctOnly surface then pushPunct tokens surface
  else if surface.all isWhitespace || (moras.isEmpty && surface == ['・']) then
    setLastWhitespace tokens [' ']
  else
    let chained := !moras.isEmpty && tokens.getLast?.any (·.voiced) &&
      (word.chainFlag || moras.head? == some ['ー'])
    tokens ++ [{
      phonemes := if moras.isEmpty then none else some (morasToPhonemes moras)
      whitespace := []
      voiced := !moras.isEmpty
      chained := chained
      startsWithN := moras.head? == some ['ン'] }]

/-- A space goes in front of a reading of its own where a mora has ended before it. -/
def needsSeparator (token : Token) (out : List Char) : Bool :=
  token.voiced && !token.chained && !token.startsWithN && out.getLast?.any isTail

/-- Writes out a token, with a separator in front where it needs one. -/
def joinToken (out : List Char) (token : Token) : List Char :=
  match token.phonemes with
  | none => out
  | some phonemes =>
      (if needsSeparator token out then out ++ [' '] else out) ++ phonemes ++ token.whitespace

/-- Join the tokens of the words; `trim_end` drops the space of the last one. -/
def assemble (words : List Word) : List Char :=
  ((words.foldl pushWord []).foldl joinToken []).rdropWhile isWhitespace

/-! ## Kinds of words -/

/-- What `push_word` makes of a word. -/
inductive Kind
  | punct
  | blank
  | silent
  | spoken
  deriving DecidableEq, Repr

namespace Word

/-- What a word is written as. -/
def kind (word : Word) : Kind :=
  if word.moras.isEmpty && isPunctOnly (mapPunct word.surface) then .punct
  else if (mapPunct word.surface).all isWhitespace ||
      (word.moras.isEmpty && mapPunct word.surface == ['・']) then .blank
  else if word.moras.isEmpty then .silent
  else .spoken

/-- The words whose tokens have phonemes. -/
def isShown (word : Word) : Bool := word.kind == .punct || word.kind == .spoken

/-- The last mark of a word. -/
def lastChar (word : Word) : Char := (mapPunct word.surface).getLastD ' '

/-- A mark that takes back the space before it, and asks for one behind it. -/
def closes (word : Word) : Bool := word.kind == .punct && punctStops.contains word.lastChar

/-- A mark that asks for a space before it. -/
def opens (word : Word) : Bool := word.kind == .punct && punctStarts.contains word.lastChar

/-- The phonemes or the punctuation of a word, and nothing of a word that has neither. -/
def text (word : Word) : List Char :=
  if !word.moras.isEmpty then morasToPhonemes word.moras
  else if isPunctOnly (mapPunct word.surface) then mapPunct word.surface
  else []

end Word

/-! ## The tokens, read from what follows them -/

section Tokens

variable {tokens : List Token} {last : Token} {word : Word} {rest : List Word}

/-- The space behind a token after a mark of this surface has been pushed. -/
def beforePunct (whitespace surface : List Char) : List Char :=
  if punctStops.contains (surface.getLastD ' ') then []
  else if punctStarts.contains (surface.getLastD ' ') && whitespace.isEmpty then [' ']
  else whitespace

/-- The space behind a token after the words that follow it. -/
def settled (whitespace : List Char) : List Word → List Char
  | [] => whitespace
  | word :: rest =>
      match word.kind with
      | .blank => settled [' '] rest
      | .punct => beforePunct whitespace (mapPunct word.surface)
      | .silent => whitespace
      | .spoken => whitespace

/-- The token of a word that is not blank, as it is pushed. -/
def tokenOf (voiced : Bool) (word : Word) : Token where
  phonemes :=
    match word.kind with
    | .punct => some (mapPunct word.surface)
    | _ => if word.moras.isEmpty then none else some (morasToPhonemes word.moras)
  whitespace := if word.closes then [' '] else []
  voiced := !word.moras.isEmpty
  chained := !word.moras.isEmpty && voiced &&
    (word.chainFlag || word.moras.head? == some ['ー'])
  startsWithN := word.moras.head? == some ['ン']

/-- The tokens that words make behind one that is voiced or not. -/
def tokensFrom (voiced : Bool) : List Word → List Token
  | [] => []
  | word :: rest =>
      match word.kind with
      | .blank => tokensFrom voiced rest
      | _ =>
          { tokenOf voiced word with whitespace := settled (tokenOf voiced word).whitespace rest } ::
            tokensFrom (tokenOf voiced word).voiced rest

theorem setLastWhitespace_concat (whitespace : List Char) :
    setLastWhitespace (tokens ++ [last]) whitespace =
      tokens ++ [{ last with whitespace := whitespace }] := by
  simp [setLastWhitespace]

theorem kind_punct_iff : word.kind = .punct ↔
    word.moras = [] ∧ isPunctOnly (mapPunct word.surface) = true := by
  rw [Word.kind]
  split
  · rename_i h
    simpa using h
  · rename_i h
    simp only [Bool.and_eq_true, List.isEmpty_iff] at h
    split <;> [skip; split] <;> simp [h]

/-- Whether the last token is voiced. -/
def lastVoiced (tokens : List Token) : Bool := tokens.getLast?.any (·.voiced)

@[simp] theorem lastVoiced_concat : lastVoiced (tokens ++ [last]) = last.voiced := by
  simp [lastVoiced]

/-- A word is pushed as its kind says. -/
theorem pushWord_eq (tokens : List Token) (word : Word) :
    pushWord tokens word =
      match word.kind with
      | .punct => pushPunct tokens (mapPunct word.surface)
      | .blank => setLastWhitespace tokens [' ']
      | .silent => tokens ++ [tokenOf (lastVoiced tokens) word]
      | .spoken => tokens ++ [tokenOf (lastVoiced tokens) word] := by
  by_cases hpunct : (word.moras.isEmpty && isPunctOnly (mapPunct word.surface)) = true
  · have hkind : word.kind = .punct := by rw [Word.kind, if_pos hpunct]
    simp only [pushWord, if_pos hpunct, hkind]
  · by_cases hblank : ((mapPunct word.surface).all isWhitespace ||
        (word.moras.isEmpty && mapPunct word.surface == ['・'])) = true
    · have hkind : word.kind = .blank := by rw [Word.kind, if_neg hpunct, if_pos hblank]
      simp only [pushWord, if_neg hpunct, if_pos hblank, hkind]
    · cases hmoras : word.moras.isEmpty with
      | true =>
          have hkind : word.kind = .silent := by
            rw [Word.kind, if_neg hpunct, if_neg hblank, if_pos hmoras]
          simp only [pushWord, if_neg hpunct, if_neg hblank, hkind]
          simp [tokenOf, Word.closes, hkind, lastVoiced]
      | false =>
          have hkind : word.kind = .spoken := by
            rw [Word.kind, if_neg hpunct, if_neg hblank, hmoras]
            rfl
          simp only [pushWord, if_neg hpunct, if_neg hblank, hkind]
          simp [tokenOf, Word.closes, hkind, lastVoiced]

theorem tokenOf_punct (h : word.kind = .punct) (voiced : Bool) :
    tokenOf voiced word = {
      phonemes := some (mapPunct word.surface)
      whitespace := if punctStops.contains word.lastChar then [' '] else []
      voiced := false
      chained := false
      startsWithN := false } := by
  simp [tokenOf, Word.closes, h, (kind_punct_iff.mp h).1]

theorem pushPunct_nil (h : word.kind = .punct) (voiced : Bool) :
    pushPunct [] (mapPunct word.surface) = [tokenOf voiced word] := by
  rw [tokenOf_punct h]
  by_cases hstop : punctStops.contains word.lastChar = true
  · rw [Word.lastChar] at hstop
    simp only [pushPunct, Word.lastChar, hstop, if_true, setLastWhitespace, List.getLast?_nil,
      List.nil_append]
  · rw [Word.lastChar] at hstop
    simp only [pushPunct, Word.lastChar, hstop, List.getLast?_nil, Option.any_none, Bool.and_false,
      Bool.false_eq_true, if_false, List.nil_append]

theorem pushPunct_concat (h : word.kind = .punct) (voiced : Bool) :
    pushPunct (tokens ++ [last]) (mapPunct word.surface) =
      tokens ++ [{ last with whitespace := beforePunct last.whitespace (mapPunct word.surface) }] ++
        [tokenOf voiced word] := by
  rw [tokenOf_punct h]
  by_cases hstop : punctStops.contains word.lastChar = true
  · rw [Word.lastChar] at hstop
    simp only [pushPunct, beforePunct, Word.lastChar, hstop, if_true, setLastWhitespace_concat]
  · by_cases hstart : (punctStarts.contains word.lastChar && last.whitespace.isEmpty) = true
    · rw [Word.lastChar] at hstop hstart
      simp only [pushPunct, beforePunct, Word.lastChar, hstop, hstart, List.getLast?_concat,
        Option.any_some, if_true, if_false, setLastWhitespace_concat, Bool.false_eq_true]
    · rw [Word.lastChar] at hstop hstart
      simp only [pushPunct, beforePunct, Word.lastChar, hstop, hstart, List.getLast?_concat,
        Option.any_some, if_false, Bool.false_eq_true]

/-- The words behind a token settle its space and make the tokens behind it. -/
theorem foldl_pushWord_concat (words : List Word) :
    words.foldl pushWord (tokens ++ [last]) =
      tokens ++ { last with whitespace := settled last.whitespace words } ::
        tokensFrom last.voiced words := by
  induction words generalizing tokens last with
  | nil => rfl
  | cons word rest ih =>
      rw [List.foldl_cons, pushWord_eq]
      cases hkind : word.kind with
      | punct => 
          simp only [pushPunct_concat hkind last.voiced, ih, settled, tokensFrom, hkind]
          simp
      | blank => 
          simp only [setLastWhitespace_concat, ih, settled, tokensFrom, hkind]
      | silent => 
          simp only [lastVoiced_concat, ih, settled, tokensFrom, hkind]
          simp
      | spoken => 
          simp only [lastVoiced_concat, ih, settled, tokensFrom, hkind]
          simp

theorem foldl_pushWord_nil (words : List Word) : words.foldl pushWord [] = tokensFrom false words := by
  induction words with
  | nil => rfl
  | cons word rest ih =>
      rw [List.foldl_cons, pushWord_eq]
      cases hkind : word.kind with
      | punct => 
          simp only [pushPunct_nil hkind false, tokensFrom, hkind]
          exact @foldl_pushWord_concat [] _ _
      | blank => 
          simp only [tokensFrom, hkind]
          exact ih
      | silent => 
          simp only [tokensFrom, hkind]
          exact @foldl_pushWord_concat [] _ _
      | spoken => 
          simp only [tokensFrom, hkind]
          exact @foldl_pushWord_concat [] _ _

end Tokens

end Dengjen.Kokoro

import Dengjen.Core.HashMap
import Dengjen.Core.Model
import Dengjen.Pinyin.Tokenize
import Mathlib.Data.Char

/-!
# The character that g2pW looks at

A polyphonic character is resolved from the characters around it: a window is cut out
of the sentence and put in lower case, the tokens of the lower case are cut again around
the token of the character, and the model is told at which of them to look. The place
of the character is counted in the window before it is put in lower case.

## Implementation notes

The inference session comes after the inputs that are modelled here.
-/

namespace Dengjen.Pinyin

open Spans

/-! ## Lower case -/

namespace CharTables

variable (tables : CharTables)

/-- A character with a case comes next, behind those that do not count. -/
def caseIgnorableThenCased (chars : List Char) : Bool :=
  (chars.dropWhile tables.isCaseIgnorable).head?.any tables.isCased

/-- The lower case of a character, between those before it in reverse and those behind it. -/
def lowerChar (before : List Char) (c : Char) (behind : List Char) : List Char :=
  if c = '\u03A3' then
    let isWordFinal :=
      tables.caseIgnorableThenCased before && !tables.caseIgnorableThenCased behind
    if isWordFinal then ['\u03C2'] else ['\u03C3']
  else tables.toLower c

/-- Each character in lower case, as the characters around it demand. -/
def lowerChars (before : List Char) : List Char → List (List Char)
  | [] => []
  | c :: behind => tables.lowerChar before c behind :: lowerChars (c :: before) behind

/-- `str::to_lowercase`. -/
def toLowercase (text : List Char) : List Char := (tables.lowerChars [] text).flatten

end CharTables

/-! ## The inputs of the model -/

/-- The score of a reading that a character does not have. -/
def zero : F32 := ⟨0⟩
/-- The score of a reading that a character has. -/
def one : F32 := ⟨0x3F800000⟩

/-- One at exactly the readings of a character. -/
def buildPhonemeMask (labels : List String) (candidates : List Nat) : List F32 :=
  candidates.foldl (fun mask c => mask.set c one) (List.replicate labels.length zero)

/-- The characters around a query, half of a window on either side. -/
def truncateWindow (textLen queryId windowSize : Nat) : Nat × Nat :=
  let half := windowSize / 2
  (queryId - half, min (queryId + half) textLen)

/-- The tokens around a query, as many as the model takes. -/
def truncateTokensAroundPosition (tokenCount tokenPosition maxLen : Nat) :
    DengjenResult (Nat × Nat × Nat) :=
  let truncateLen := maxLen - 2
  if truncateLen = 0 then
    .error (.invalidConfiguration
      s!"g2pW max_len must be at least 3 to hold [CLS], a query token, and [SEP]; got {maxLen}")
  else if tokenCount ≤ truncateLen then .ok (0, tokenCount, tokenPosition + 1)
  else
    let tokenStart := (max ((tokenPosition : Int) - (truncateLen / 2 : Nat)) 0).toNat
    let tokenStart := min tokenStart (tokenCount - truncateLen)
    .ok (tokenStart, min (tokenStart + truncateLen) tokenCount, tokenPosition - tokenStart + 1)

/-- What the model's directory says of the model. -/
structure G2pwConfig where
  labels : List String
  char2phonemes : HashMap Char (List Nat)
  windowSize : Nat
  maxLen : Nat
  chars : List Char

/-- The configuration of `create_pinyin_engine`. -/
def pinyinConfig (labels : List String) (char2phonemes : HashMap Char (List Nat)) : G2pwConfig where
  labels
  char2phonemes
  windowSize := 32
  maxLen := 512
  chars := char2phonemes.keys.mergeSort (· ≤ ·)

/-- The character has several readings. -/
def G2pwConfig.isPolyphonic (config : G2pwConfig) (c : Char) : Bool :=
  (config.char2phonemes.lookup c).isSome

/-- The list is sorted and has no character twice, so that binary search finds its place. -/
def G2pwConfig.charsIndex (config : G2pwConfig) (c : Char) : DengjenResult Nat :=
  match config.chars.idxOf? c with
  | some index => .ok index
  | none => .error (.phonemizationError s!"'{c}' is not in the g2pW config's sorted chars list")

/-- The window around a character, and the place of the character in it. -/
def G2pwConfig.window (config : G2pwConfig) (chars : List Char) (queryCharIndex : Nat) :
    List Char × Nat :=
  let bounds := truncateWindow chars.length queryCharIndex config.windowSize
  ((chars.drop bounds.1).take (bounds.2 - bounds.1), queryCharIndex - bounds.1)

/-- The model's tokenizer and its configuration. -/
structure G2pwEngine where
  tokenizer : Tokenizer
  config : G2pwConfig

namespace G2pwEngine

variable (tables : CharTables) (engine : G2pwEngine)

/-- The id in front of a sentence. -/
def clsId : Nat := (engine.tokenizer.tokenToId "[CLS]".toList).getD 101

/-- The id behind a sentence. -/
def sepId : Nat := (engine.tokenizer.tokenToId "[SEP]".toList).getD 102

/-- The id of a token, or that of an unknown one. -/
def tokenToId (token : List Char) : Nat := (engine.tokenizer.tokenToId token).getD 100

/-- The error of a character that no token stands for. -/
def noTokenMapping (windowedQueryId : Nat) : DengjenError :=
  .phonemizationError s!"windowed query position {windowedQueryId} has no token mapping"

/-- `tokens.get(start..end)`. -/
def getTokens (tokens : List Token) (tokenStart tokenEnd : Nat) : DengjenResult (List Token) :=
  if tokenStart ≤ tokenEnd ∧ tokenEnd ≤ tokens.length then .ok (slice tokens tokenStart tokenEnd)
  else .error (.phonemizationError
    s!"token window {tokenStart}..{tokenEnd} is out of bounds for {tokens.length} tokens")

/-- The tokens around the queried character, and where its own is among them, counted from one. -/
def tokensAround (windowedText : List Char) (windowedQueryId : Nat) :
    DengjenResult (List Token × Nat) := do
  let (tokens, textToToken) ←
    tokenizeAndMap tables engine.tokenizer (tables.toLowercase windowedText)
  match textToToken[windowedQueryId]?.join with
  | none => .error (noTokenMapping windowedQueryId)
  | some tokenPosition =>
      let (tokenStart, tokenEnd, positionId) ←
        truncateTokensAroundPosition tokens.length tokenPosition engine.config.maxLen
      let finalTokens ← getTokens tokens tokenStart tokenEnd
      return (finalTokens, positionId)

/-- What the session is given, and the tokens whose ids it is given. -/
structure ModelInputs where
  finalTokens : List Token
  inputIds : List Nat
  tokenTypeIds : List Nat
  attentionMask : List Nat
  charIds : Nat
  positionIds : Nat
  phonemeMask : List F32

/-- `resolve_polyphonic` up to the session. -/
def modelInputs (chars : List Char) (queryCharIndex : Nat) : DengjenResult ModelInputs :=
  match chars[queryCharIndex]? with
  | none => .error (.phonemizationError
      s!"query_char_index {queryCharIndex} is out of bounds for a sentence of {chars.length} characters")
  | some queryChar =>
      match engine.config.char2phonemes.lookup queryChar with
      | none => .error (.phonemizationError
          s!"'{queryChar}' has no known phoneme candidates for g2pW resolution")
      | some candidates => do
          let (windowedText, windowedQueryId) := engine.config.window chars queryCharIndex
          let (finalTokens, positionId) ← engine.tokensAround tables windowedText windowedQueryId
          let inputIds :=
            engine.clsId :: finalTokens.map (fun t => engine.tokenToId t.text) ++ [engine.sepId]
          let seqLen := inputIds.length
          let charIds ← engine.config.charsIndex queryChar
          return {
            finalTokens, inputIds, charIds
            tokenTypeIds := List.replicate seqLen 0
            attentionMask := List.replicate seqLen 1
            positionIds := positionId
            phonemeMask := buildPhonemeMask engine.config.labels candidates }

/-- The label that the session predicts. -/
def resolvePolyphonic (session : ModelInputs → DengjenResult String) (chars : List Char)
    (queryCharIndex : Nat) : DengjenResult String := do
  let inputs ← engine.modelInputs tables chars queryCharIndex
  session inputs

end G2pwEngine

/-! ## Where a character is in lower case -/

section LowerCase

variable (tables : CharTables)

theorem lowerChar_ne_nil (before : List Char) (c : Char) (behind : List Char) :
    tables.lowerChar before c behind ≠ [] := by
  rw [CharTables.lowerChar]
  split
  · dsimp only
    split <;> exact List.cons_ne_nil _ _
  · exact tables.toLower_ne_nil c

/-- What stands around a character does not change how many characters its lower case has. -/
theorem length_lowerChar (before before' : List Char) (c : Char) (behind behind' : List Char) :
    (tables.lowerChar before c behind).length = (tables.lowerChar before' c behind').length := by
  rw [CharTables.lowerChar, CharTables.lowerChar]
  split
  · dsimp only
    split <;> split <;> rfl
  · rfl

theorem lowerChar_space (before behind : List Char) :
    tables.lowerChar before ' ' behind = [' '] := by
  rw [CharTables.lowerChar, if_neg (by decide), tables.toLower_space]

theorem space_notMem_lowerChar {c : Char} (h : c ≠ ' ') (before behind : List Char) :
    ' ' ∉ tables.lowerChar before c behind := by
  rw [CharTables.lowerChar]
  split
  · dsimp only
    split <;> decide
  · exact tables.space_notMem_toLower c h

theorem exists_lowerChars_append (before front behind : List Char) : ∃ lowered,
    tables.lowerChars before (front ++ behind) =
        lowered ++ tables.lowerChars (front.reverse ++ before) behind ∧
      lowered.flatten.length = (tables.lowerChars before front).flatten.length := by
  induction front generalizing before with
  | nil => exact ⟨[], rfl, rfl⟩
  | cons c front ih =>
      obtain ⟨lowered, hlowered, hlength⟩ := ih (c :: before)
      refine ⟨tables.lowerChar before c (front ++ behind) :: lowered, ?_, ?_⟩
      · rw [List.cons_append, CharTables.lowerChars, hlowered, List.reverse_cons, List.append_assoc]
        rfl
      · rw [CharTables.lowerChars, List.flatten_cons, List.flatten_cons, List.length_append,
          List.length_append, hlength, length_lowerChar tables before before c _ front]

/-- The lower case of one character of a text, behind that of those before it. -/
theorem exists_toLowercase_eq (before : List Char) (c : Char) (behind : List Char) :
    ∃ front lower back, tables.toLowercase (before ++ c :: behind) = front ++ (lower ++ back) ∧
      front.length = (tables.toLowercase before).length ∧ lower ≠ [] ∧
      (c = ' ' → lower = [' ']) ∧ (c ≠ ' ' → ' ' ∉ lower) := by
  obtain ⟨lowered, hlowered, hlength⟩ := exists_lowerChars_append tables [] before (c :: behind)
  let reversed := before.reverse ++ []
  refine ⟨lowered.flatten, tables.lowerChar reversed c behind,
    (tables.lowerChars (c :: reversed) behind).flatten, ?_, hlength,
    lowerChar_ne_nil tables reversed c behind, ?_, ?_⟩
  · rw [CharTables.toLowercase, hlowered, List.flatten_append, CharTables.lowerChars,
      List.flatten_cons]
  · rintro rfl
    exact lowerChar_space tables reversed behind
  · exact fun hne => space_notMem_lowerChar tables hne reversed behind

theorem length_le_toLowercase (text : List Char) :
    text.length ≤ (tables.toLowercase text).length := by
  have hle : ∀ before, text.length ≤ (tables.lowerChars before text).flatten.length := by
    induction text with
    | nil => exact fun _ => Nat.le_refl _
    | cons c behind ih =>
        intro before
        have hpos := List.length_pos_iff.mpr (lowerChar_ne_nil tables before c behind)
        have hrest := ih (c :: before)
        rw [CharTables.lowerChars, List.flatten_cons, List.length_append, List.length_cons]
        omega
  exact hle []

end LowerCase

/-! ## The tokens around a character -/

variable {tables : CharTables} {engine : G2pwEngine} {text : List Char} {placed : Placed}

/-- Wherever the tokens are cut, the token at the position is among those that are kept. -/
theorem truncateTokensAroundPosition_spec {tokenCount tokenPosition maxLen : Nat}
    {cut : Nat × Nat × Nat} (hposition : tokenPosition < tokenCount)
    (h : truncateTokensAroundPosition tokenCount tokenPosition maxLen = .ok cut) :
    cut.1 ≤ tokenPosition ∧ tokenPosition < cut.2.1 ∧ cut.2.1 ≤ tokenCount ∧
      cut.2.2 = tokenPosition - cut.1 + 1 := by
  rw [truncateTokensAroundPosition] at h
  split at h
  · cases h
  · next hroom =>
      split at h
      · cases h
        exact ⟨Nat.zero_le _, hposition, Nat.le_refl _, rfl⟩
      · cases h
        dsimp only
        omega

theorem exists_truncateTokensAroundPosition (tokenCount tokenPosition : Nat) {maxLen : Nat}
    (hroom : 3 ≤ maxLen) :
    ∃ cut, truncateTokensAroundPosition tokenCount tokenPosition maxLen = .ok cut := by
  rw [truncateTokensAroundPosition, if_neg (by omega)]
  split
  · exact ⟨_, rfl⟩
  · exact ⟨_, rfl⟩

/-- The failures of the tokenizer are its own. -/
theorem exists_of_tokenizeAndMap_error {tokenizer : Tokenizer} {error : DengjenError}
    (h : tokenizeAndMap tables tokenizer text = .error error) : ∃ detail : String,
      error = .phonemizationError ("g2pW tokenizer failed to encode " ++ detail) := by
  rw [tokenizeAndMap] at h
  generalize ([], List.replicate text.length none) = placed at h
  generalize (wordize text).1 = words at h
  induction words generalizing placed with
  | nil => cases h
  | cons word rest ih =>
      rw [List.foldlM_cons] at h
      cases hword : tokenizeWord tables tokenizer placed word with
      | ok next =>
          rw [hword] at h
          exact ih next h
      | error cause =>
          rw [hword] at h
          cases h
          rw [tokenizeWord] at hword
          split at hword
          · next encodeCause _ =>
              cases hword
              refine ⟨tables.debug word.text ++ (": " ++ encodeCause), ?_⟩
              simp only [String.append_assoc]
              rfl
          · split at hword <;> cases hword

theorem head_noTokenMapping (w : Nat) :
    (G2pwEngine.noTokenMapping w).message.toList.head? = some 'w' := by
  have htext : (toString "windowed query position ").toList.head? = some 'w' := by decide
  simp [G2pwEngine.noTokenMapping, DengjenError.message, DengjenError.kind, htext]

theorem tokenizer_error_ne (w : Nat) (detail : String) :
    .phonemizationError ("g2pW tokenizer failed to encode " ++ detail) ≠
      G2pwEngine.noTokenMapping w := by
  intro h
  have hhead := head_noTokenMapping w
  rw [← h] at hhead
  simp [DengjenError.message, DengjenError.kind] at hhead

theorem tokensAround_of_error {error : DengjenError} (w : Nat)
    (h : tokenizeAndMap tables engine.tokenizer (tables.toLowercase text) = .error error) :
    engine.tokensAround tables text w = .error error := by
  rw [G2pwEngine.tokensAround, h]
  rfl

theorem tokensAround_of_space {w : Nat}
    (h : tokenizeAndMap tables engine.tokenizer (tables.toLowercase text) = .ok placed)
    (hslot : placed.2[w]? = some none) :
    engine.tokensAround tables text w = .error (G2pwEngine.noTokenMapping w) := by
  rw [G2pwEngine.tokensAround, h]
  simp only [bind, Except.bind, hslot, Option.join_some]

/-- The token at the position is the one of the character. -/
theorem exists_tokensAround {w : Nat} {covers : Token → Nat → Prop}
    (h : tokenizeAndMap tables engine.tokenizer (tables.toLowercase text) = .ok placed)
    (hholds : Holds covers placed w) (hroom : 3 ≤ engine.config.maxLen) :
    ∃ finalTokens position token, engine.tokensAround tables text w = .ok (finalTokens, position + 1) ∧
      finalTokens[position]? = some token ∧ token ∈ placed.1 ∧ covers token w := by
  obtain ⟨number, token, hslot, htoken, hcovers⟩ := hholds
  obtain ⟨hnumber, -⟩ := List.getElem?_eq_some_iff.mp htoken
  obtain ⟨cut, hcut⟩ := exists_truncateTokensAroundPosition placed.1.length number hroom
  obtain ⟨hstart, hend, hcount, hposition⟩ := truncateTokensAroundPosition_spec hnumber hcut
  refine ⟨slice placed.1 cut.1 cut.2.1, number - cut.1, token, ?_, ?_,
    List.mem_of_getElem? htoken, hcovers⟩
  · have hget : G2pwEngine.getTokens placed.1 cut.1 cut.2.1 = .ok (slice placed.1 cut.1 cut.2.1) :=
      if_pos ⟨by omega, hcount⟩
    rw [G2pwEngine.tokensAround, h]
    simp only [bind, Except.bind, hslot, Option.join_some, hcut, hget, hposition]
    rfl
  · rw [slice, List.getElem?_take_of_lt (by omega), List.getElem?_drop, Nat.add_sub_cancel' hstart]
    exact htoken

/-! ## The window of a character -/

variable {chars : List Char} {queryCharIndex : Nat} {c : Char}

/-- The characters before the queried one in its window. -/
def G2pwConfig.beforeQuery (config : G2pwConfig) (chars : List Char) (queryCharIndex : Nat) :
    List Char :=
  slice chars (queryCharIndex - config.windowSize / 2) queryCharIndex

theorem exists_window_eq {config : G2pwConfig} (hsize : 2 ≤ config.windowSize)
    (hc : chars[queryCharIndex]? = some c) : ∃ behind,
      (config.window chars queryCharIndex).1 = config.beforeQuery chars queryCharIndex ++ c :: behind ∧
        (config.window chars queryCharIndex).2 = (config.beforeQuery chars queryCharIndex).length := by
  obtain ⟨hlt, -⟩ := List.getElem?_eq_some_iff.mp hc
  have hhalf : 1 ≤ config.windowSize / 2 := (Nat.one_le_div_iff (by decide)).mpr hsize
  simp only [G2pwConfig.window, G2pwConfig.beforeQuery, truncateWindow]
  generalize config.windowSize / 2 = half at hhalf ⊢
  have hstop : queryCharIndex < min (queryCharIndex + half) chars.length := by omega
  refine ⟨slice chars (queryCharIndex + 1) (min (queryCharIndex + half) chars.length), ?_, ?_⟩
  · rw [← slice_cons hc hstop, ← slice_split chars (Nat.sub_le ..) (Nat.le_of_lt hstop)]
    rfl
  · rw [length_slice (Nat.le_of_lt hlt)]

/-! ## The inputs of a resolved character -/

theorem modelInputs_of_error {candidates : List Nat} {error : DengjenError}
    (hc : chars[queryCharIndex]? = some c) (hpoly : engine.config.char2phonemes.lookup c = some candidates)
    (h : engine.tokensAround tables (engine.config.window chars queryCharIndex).1
      (engine.config.window chars queryCharIndex).2 = .error error) :
    engine.modelInputs tables chars queryCharIndex = .error error := by
  simp only [G2pwEngine.modelInputs, hc, hpoly, h]
  rfl

theorem exists_modelInputs {candidates : List Nat} {finalTokens : List Token} {positionId : Nat}
    (hc : chars[queryCharIndex]? = some c) (hpoly : engine.config.char2phonemes.lookup c = some candidates)
    (hindex : c ∈ engine.config.chars)
    (h : engine.tokensAround tables (engine.config.window chars queryCharIndex).1
      (engine.config.window chars queryCharIndex).2 = .ok (finalTokens, positionId)) :
    ∃ inputs, engine.modelInputs tables chars queryCharIndex = .ok inputs ∧
      inputs.finalTokens = finalTokens ∧ inputs.positionIds = positionId ∧
      inputs.inputIds =
        engine.clsId :: finalTokens.map (fun t => engine.tokenToId t.text) ++ [engine.sepId] := by
  obtain ⟨index, hidx⟩ := Option.isSome_iff_exists.mp (List.isSome_idxOf?.mpr hindex)
  have hchars : engine.config.charsIndex c = .ok index := by rw [G2pwConfig.charsIndex, hidx]
  simp only [G2pwEngine.modelInputs, hc, hpoly, h, hchars]
  exact ⟨_, rfl, rfl, rfl, rfl⟩

/-! ## Looking at the right character -/

/-- An engine with the configuration of this repository. -/
def pinyinEngine (tokenizer : Tokenizer) (labels : List String)
    (char2phonemes : HashMap Char (List Nat)) : G2pwEngine :=
  ⟨tokenizer, pinyinConfig labels char2phonemes⟩

/-- The token at the position that the model is told, counted with `[CLS]` as zero, covers the
queried character, and only a space has no token. -/
structure LooksAtQuery (tables : CharTables) (engine : G2pwEngine) (chars : List Char)
    (queryCharIndex : Nat) : Prop where
  covered : ∀ inputs, engine.modelInputs tables chars queryCharIndex = .ok inputs →
    ∃ position token, inputs.positionIds = position + 1 ∧
      inputs.finalTokens[position]? = some token ∧
      inputs.inputIds[inputs.positionIds]? = some (engine.tokenToId token.text) ∧
      token.Covers (tables.toLowercase (engine.config.window chars queryCharIndex).1)
        (tables.toLowercase (engine.config.beforeQuery chars queryCharIndex)).length
  mapped : chars[queryCharIndex]? ≠ some ' ' →
    engine.modelInputs tables chars queryCharIndex ≠
      .error (G2pwEngine.noTokenMapping (engine.config.window chars queryCharIndex).2)

/-- What `create_pinyin_engine` sees to: there is room around a character, and every polyphonic
character has an index. -/
structure G2pwConfig.Ready (config : G2pwConfig) : Prop where
  window : 2 ≤ config.windowSize
  room : 3 ≤ config.maxLen
  index : ∀ c, config.isPolyphonic c → c ∈ config.chars

theorem ready_pinyinConfig (labels : List String) (char2phonemes : HashMap Char (List Nat)) :
    (pinyinConfig labels char2phonemes).Ready where
  window := by simp [pinyinConfig]
  room := by simp [pinyinConfig]
  index _ hpoly := List.mem_mergeSort.mpr (AList.lookup_isSome.mp hpoly)

/-- How the call goes when the lower case of the window has this character at the place of the
query: the tokenizer fails, or the character is a space, or the model is reached. -/
inductive Looked (tables : CharTables) (engine : G2pwEngine) (chars : List Char)
    (queryCharIndex : Nat) (lowered : Char) : Prop
  | failed {error detail} (htokenizer : tokenizeAndMap tables engine.tokenizer
        (tables.toLowercase (engine.config.window chars queryCharIndex).1) = .error error)
      (h : engine.modelInputs tables chars queryCharIndex =
        .error (.phonemizationError ("g2pW tokenizer failed to encode " ++ detail)))
  | unmapped (hspace : lowered = ' ') (h : engine.modelInputs tables chars queryCharIndex =
      .error (G2pwEngine.noTokenMapping (engine.config.window chars queryCharIndex).2))
  | reached {inputs position token placed} (hne : lowered ≠ ' ')
      (h : engine.modelInputs tables chars queryCharIndex = .ok inputs)
      (hposition : inputs.positionIds = position + 1)
      (htoken : inputs.finalTokens[position]? = some token)
      (hid : inputs.inputIds[inputs.positionIds]? = some (engine.tokenToId token.text))
      (hplaced : tokenizeAndMap tables engine.tokenizer
        (tables.toLowercase (engine.config.window chars queryCharIndex).1) = .ok placed)
      (hmem : token ∈ placed.1)
      (hcovers : token.Covers (tables.toLowercase (engine.config.window chars queryCharIndex).1)
        (engine.config.window chars queryCharIndex).2)

theorem looked (hsplits : engine.tokenizer.Splits) (hready : engine.config.Ready)
    (hc : chars[queryCharIndex]? = some c) (hpoly : engine.config.isPolyphonic c) {lowered : Char}
    (hlowered : (tables.toLowercase (engine.config.window chars queryCharIndex).1)[
      (engine.config.window chars queryCharIndex).2]? = some lowered) :
    Looked tables engine chars queryCharIndex lowered := by
  obtain ⟨candidates, hcandidates⟩ := Option.isSome_iff_exists.mp hpoly
  obtain ⟨hlt, -⟩ := List.getElem?_eq_some_iff.mp hlowered
  cases hplaced : tokenizeAndMap tables engine.tokenizer
      (tables.toLowercase (engine.config.window chars queryCharIndex).1) with
  | error error =>
      obtain ⟨detail, rfl⟩ := exists_of_tokenizeAndMap_error hplaced
      exact .failed hplaced (modelInputs_of_error hc hcandidates (tokensAround_of_error _ hplaced))
  | ok placed =>
      have hreached := reached_tokenizeAndMap hsplits hplaced
      by_cases hspace : lowered = ' '
      · have hslot := hreached.space _ hlt (hspace ▸ hlowered)
        exact .unmapped hspace
          (modelInputs_of_error hc hcandidates (tokensAround_of_space hplaced hslot))
      · have hholds := hreached.held _ hlt lowered hlowered hspace
        obtain ⟨finalTokens, position, token, hkept, htoken, hmem, hcovers⟩ :=
          exists_tokensAround hplaced hholds hready.room
        obtain ⟨inputs, hinputs, rfl, hposition, hids⟩ :=
          exists_modelInputs hc hcandidates (hready.index c hpoly) hkept
        have hid : inputs.inputIds[inputs.positionIds]? = some (engine.tokenToId token.text) := by
          obtain ⟨hinside, -⟩ := List.getElem?_eq_some_iff.mp htoken
          rw [hids, hposition, List.cons_append, List.getElem?_cons_succ,
            List.getElem?_append_left (by simpa using hinside), List.getElem?_map, htoken]
          rfl
        exact .reached hspace hinputs hposition htoken hid hplaced hmem hcovers

/-- Without a shift the character at the place of the query is its lower case. -/
theorem looksAtQuery_of_length (hsplits : engine.tokenizer.Splits) (hready : engine.config.Ready)
    (hc : chars[queryCharIndex]? = some c) (hpoly : engine.config.isPolyphonic c)
    (hlength : (tables.toLowercase (engine.config.beforeQuery chars queryCharIndex)).length =
      (engine.config.beforeQuery chars queryCharIndex).length) :
    LooksAtQuery tables engine chars queryCharIndex := by
  obtain ⟨behind, hwindow, hplace⟩ := exists_window_eq hready.window hc
  obtain ⟨front, lower, back, hlower, hfront, hne, hspace, hnotMem⟩ :=
    exists_toLowercase_eq tables (engine.config.beforeQuery chars queryCharIndex) c behind
  obtain ⟨lowered, rest, rfl⟩ := List.exists_cons_of_ne_nil hne
  have hlowered : (tables.toLowercase (engine.config.window chars queryCharIndex).1)[
      (engine.config.window chars queryCharIndex).2]? = some lowered := by
    rw [hwindow, hlower, hplace, ← hlength, ← hfront, List.getElem?_append_right (Nat.le_refl _),
      Nat.sub_self]
    rfl
  have hlooked := looked hsplits hready hc hpoly hlowered
  constructor
  · intro inputs hinputs
    cases hlooked with
    | failed _ h | unmapped _ h =>
        rw [hinputs] at h
        cases h
    | reached _ h hposition htoken hid _ _ hcovers =>
        rw [hinputs] at h
        cases h
        rw [hlength, ← hplace]
        exact ⟨_, _, hposition, htoken, hid, hcovers⟩
  · intro hquery herror
    cases hlooked with
    | failed _ h =>
        rw [herror] at h
        exact tokenizer_error_ne _ _ (Except.error.inj h).symm
    | unmapped hlower _ =>
        have hc' : c ≠ ' ' := by
          rintro rfl
          exact hquery hc
        exact hnotMem hc' (hlower ▸ List.mem_cons_self)
    | reached _ h _ _ _ _ _ _ =>
        rw [herror] at h
        cases h

/-- A space that is looked up at a space is never resolved. -/
theorem looksAtQuery_of_space (hsplits : engine.tokenizer.Splits) (hready : engine.config.Ready)
    (hspace : chars[queryCharIndex]? = some ' ') (hpoly : engine.config.isPolyphonic ' ')
    (hlowered : (tables.toLowercase (engine.config.window chars queryCharIndex).1)[
      (engine.config.window chars queryCharIndex).2]? = some ' ') :
    LooksAtQuery tables engine chars queryCharIndex := by
  refine ⟨fun inputs hinputs => ?_, fun hquery => absurd hspace hquery⟩
  cases looked hsplits hready hspace hpoly hlowered with
  | failed _ h | unmapped _ h =>
      rw [hinputs] at h
      cases h
  | reached hne _ _ _ _ _ _ _ => exact absurd rfl hne

/-! ## A tokenizer that shows every shift -/

/-- It knows every character, and nothing longer. -/
def charTokenizer : Tokenizer where
  encode word := .ok (word.map fun c => [c])
  tokenToId _ := none

theorem stripped_singleton (c : Char) : stripped [c] = [c] := by
  simp [stripped, List.dropPrefix?]

theorem splits_charTokenizer : charTokenizer.Splits := by
  intro word wordTokens hencode
  cases hencode
  refine .inr (.inr ?_)
  rw [List.map_map]
  induction word with
  | nil => rfl
  | cons c rest ih => rw [List.map_cons, List.flatten_cons, ih, Function.comp, stripped_singleton]; rfl

theorem placePieces_chars (word : List Char) (cursor : Nat)
    (h : ∀ token ∈ placed.1, token.stop = token.start + 1) :
    ∀ token ∈ (placePieces placed cursor (word.map fun c => [c])).1, token.stop = token.start + 1 := by
  induction word generalizing placed cursor with
  | nil => exact h
  | cons c rest ih =>
      apply ih
      rw [stripped_singleton, place, List.forall_mem_append, List.forall_mem_singleton]
      exact ⟨h, rfl⟩

theorem tokenizeWord_charTokenizer (placed : Placed) (word : Word) (hne : word.text ≠ []) :
    tokenizeWord tables charTokenizer placed word =
      .ok (placePieces placed word.start (word.text.map fun c => [c])) := by
  have hknown : ¬ (word.text.map (fun c => [c]) = [] ∨ word.text.map (fun c => [c]) = [unk]) := by
    rintro (hnil | hunk)
    · exact hne (List.map_eq_nil_iff.mp hnil)
    · obtain ⟨c, -, hc⟩ := List.mem_map.mp (hunk ▸ List.mem_singleton_self unk)
      have hlength : 1 = unk.length := congrArg List.length hc
      exact absurd hlength (by decide)
  exact if_neg hknown

theorem exists_tokenizeWords_charTokenizer {i : Nat} {rest : List Char} {words : List Word}
    (hwords : Wordized i rest words) (h : ∀ token ∈ placed.1, token.stop = token.start + 1) :
    ∃ placed', words.foldlM (tokenizeWord tables charTokenizer) placed = .ok placed' ∧
      ∀ token ∈ placed'.1, token.stop = token.start + 1 := by
  induction hwords generalizing placed with
  | nil => exact ⟨placed, rfl, h⟩
  | space _ ih => exact ih h
  | @word i stop word rest words hne _ _ _ ih =>
      obtain ⟨placed', hplaced', hsingle⟩ := ih (placePieces_chars word i h)
      refine ⟨placed', ?_, hsingle⟩
      rw [List.foldlM_cons, tokenizeWord_charTokenizer placed _ hne]
      exact hplaced'

/-- It makes a token of each character. -/
theorem exists_tokenizeAndMap_charTokenizer (tables : CharTables) (text : List Char) : ∃ placed,
    tokenizeAndMap tables charTokenizer text = .ok placed ∧
      ∀ token ∈ placed.1, token.stop = token.start + 1 :=
  exists_tokenizeWords_charTokenizer (wordized_wordize text) (List.forall_mem_nil _)

/-- Behind a character with a longer lower case another one is looked at. -/
theorem not_looksAtQuery_of_length (htokenizer : engine.tokenizer = charTokenizer)
    (hready : engine.config.Ready) (hc : chars[queryCharIndex]? = some c)
    (hpoly : engine.config.isPolyphonic c)
    (hlength : (tables.toLowercase (engine.config.beforeQuery chars queryCharIndex)).length ≠
      (engine.config.beforeQuery chars queryCharIndex).length)
    (hspace : ¬ (c = ' ' ∧ (tables.toLowercase (engine.config.window chars queryCharIndex).1)[
      (engine.config.window chars queryCharIndex).2]? = some ' ')) :
    ¬ LooksAtQuery tables engine chars queryCharIndex := by
  intro hlooks
  have hsplits : engine.tokenizer.Splits := htokenizer ▸ splits_charTokenizer
  obtain ⟨behind, hwindow, hplace⟩ := exists_window_eq hready.window hc
  obtain ⟨front, lower, back, hlower, hfront, -, -, -⟩ :=
    exists_toLowercase_eq tables (engine.config.beforeQuery chars queryCharIndex) c behind
  have hle := length_le_toLowercase tables (engine.config.beforeQuery chars queryCharIndex)
  have hinside : (engine.config.window chars queryCharIndex).2 <
      (tables.toLowercase (engine.config.window chars queryCharIndex).1).length := by
    rw [hwindow, hlower, hplace, List.length_append]
    omega
  obtain ⟨placed, hplaced, hsingle⟩ := exists_tokenizeAndMap_charTokenizer tables
    (tables.toLowercase (engine.config.window chars queryCharIndex).1)
  have hlowered := List.getElem?_eq_getElem hinside
  cases looked hsplits hready hc hpoly hlowered with
  | failed hfailed _ =>
      rw [htokenizer, hplaced] at hfailed
      cases hfailed
  | unmapped hspace' h =>
      refine hlooks.mapped ?_ h
      intro hquery
      rw [hc, Option.some.injEq] at hquery
      exact hspace ⟨hquery, hspace' ▸ hlowered⟩
  | reached hne h hposition htoken _ hplaced' hmem hcovers =>
      obtain ⟨position', token', hposition', htoken', -, hcovers'⟩ := hlooks.covered _ h
      obtain rfl : position' = _ := Nat.succ.inj (hposition'.symm.trans hposition)
      obtain rfl : token' = _ := Option.some.inj (htoken'.symm.trans htoken)
      rw [htokenizer, hplaced] at hplaced'
      cases hplaced'
      -- The one token over the character that is looked at ends before the queried one.
      have hstop := hsingle _ hmem
      have hstart := hcovers.start
      have hbehind := hcovers'.stop
      rw [hplace] at hstart
      omega

/-! ## The sentences where the right character is looked at -/

/-- With every tokenizer the queried character is looked at, exactly when the characters before it
in its window have a lower case of as many characters, or when it is a space and the lower case
has a space at its place too. -/
theorem looksAtQuery_iff (tables : CharTables) (labels : List String)
    (char2phonemes : HashMap Char (List Nat)) {chars : List Char} {queryCharIndex : Nat} {c : Char}
    (hc : chars[queryCharIndex]? = some c)
    (hpoly : (pinyinConfig labels char2phonemes).isPolyphonic c) :
    (∀ tokenizer : Tokenizer, tokenizer.Splits →
      LooksAtQuery tables (pinyinEngine tokenizer labels char2phonemes) chars queryCharIndex) ↔
      let config := pinyinConfig labels char2phonemes
      let before := config.beforeQuery chars queryCharIndex
      let window := (config.window chars queryCharIndex).1
      (tables.toLowercase before).length = before.length ∨
        (c = ' ' ∧ (tables.toLowercase window)[before.length]? = some ' ') := by
  have hready := ready_pinyinConfig labels char2phonemes
  obtain ⟨behind, -, hplace⟩ := exists_window_eq hready.window hc
  dsimp only
  rw [← hplace]
  constructor
  · intro hlooks
    by_contra hshifted
    rw [not_or] at hshifted
    have hchars := hlooks charTokenizer splits_charTokenizer
    rw [hplace] at hshifted
    refine not_looksAtQuery_of_length rfl hready hc hpoly hshifted.1 ?_ hchars
    rw [← hplace] at hshifted
    exact hshifted.2
  · rintro (hlength | ⟨rfl, hspace⟩) tokenizer hsplits
    · exact looksAtQuery_of_length hsplits hready hc hpoly (hlength.trans hplace)
    · exact looksAtQuery_of_space hsplits hready hc hpoly hspace

/-- The tables on characters that have no case, and on the dotted capital I. -/
def CharTables.dottedI : CharTables where
  toLower c := if c = '\u0130' then ['i', '\u0307'] else [c]
  isCased c := c = '\u0130' || c = 'i'
  isCaseIgnorable c := c = '\u0307'
  debug := String.ofList
  toLower_ne_nil c := by split <;> exact List.cons_ne_nil _ _
  toLower_space := rfl
  space_notMem_toLower c hc := by
    split
    · decide
    · simpa using Ne.symm hc

/-- The second reading of a character, behind a dotted capital I. -/
theorem looksAtQuery_dottedI_iff :
    (∀ tokenizer : Tokenizer, tokenizer.Splits →
      LooksAtQuery .dottedI (pinyinEngine tokenizer [] (AList.singleton '\u884C' [0]))
        ['\u0130', '\u884C'] 1) ↔
      let config := pinyinConfig [] (AList.singleton '\u884C' [0])
      let before := config.beforeQuery ['\u0130', '\u884C'] 1
      let window := (config.window ['\u0130', '\u884C'] 1).1
      (CharTables.dottedI.toLowercase before).length = before.length ∨
        ('\u884C' = ' ' ∧
          (CharTables.dottedI.toLowercase window)[before.length]? = some ' ') :=
  looksAtQuery_iff .dottedI [] (AList.singleton '\u884C' [0]) rfl (by decide)

/-- Behind it the dot is looked at. -/
theorem dot_looked_at : ¬ ∀ tokenizer : Tokenizer, tokenizer.Splits →
    LooksAtQuery .dottedI (pinyinEngine tokenizer [] (AList.singleton '\u884C' [0]))
      ['\u0130', '\u884C'] 1 := by
  intro hlooks
  have hready := ready_pinyinConfig [] (AList.singleton '\u884C' [0])
  have hpoly : (pinyinConfig [] (AList.singleton '\u884C' [0])).isPolyphonic '\u884C' := by decide
  exact not_looksAtQuery_of_length rfl hready rfl hpoly (by decide)
    (fun hspace => absurd hspace.1 (by decide)) (hlooks charTokenizer splits_charTokenizer)

end Dengjen.Pinyin

import Dengjen.Core.Integers
import Dengjen.Pinyin.G2pw

/-!
# The windows in machine arithmetic

`truncate_window` and `truncate_tokens_around_position` compute with `usize` and, for the
first token, with `isize`. Here their operations have no value where they would overflow,
and a conversion to `isize` wraps. A count of characters or tokens is the length of a
`Vec`, which is at most `isize::MAX`.
-/

namespace Dengjen.Pinyin

/-- `value as isize` -/
def asIsize (value : Nat) : Int :=
  if value ≤ isizeMax then value else value - (usizeMax + 1 : Nat)

/-- `value as usize` -/
def asUsize (value : Int) : Nat := (value % (usizeMax + 1 : Nat)).toNat

/-- `a + b` of `usize` -/
def addUsize (a b : Nat) : Option Nat := if a + b ≤ usizeMax then some (a + b) else none

/-- `a - b` of `usize` -/
def subUsize (a b : Nat) : Option Nat := if b ≤ a then some (a - b) else none

/-- `a - b` of `isize` -/
def subIsize (a b : Int) : Option Int :=
  if -(isizeMax + 1 : Int) ≤ a - b ∧ a - b ≤ isizeMax then some (a - b) else none

/-- The characters around a query, where nothing overflows. -/
def machineTruncateWindow (textLen queryId windowSize : Nat) : Option (Nat × Nat) := do
  let half := windowSize / 2
  let start := queryId - half
  let sum ← addUsize queryId half
  some (start, min sum textLen)

/-- The tokens around a query, where nothing overflows. -/
def machineTruncateTokensAroundPosition (tokenCount tokenPosition maxLen : Nat) :
    Option (DengjenResult (Nat × Nat × Nat)) :=
  let truncateLen := maxLen - 2
  if truncateLen = 0 then
    some (.error (.invalidConfiguration
      s!"g2pW max_len must be at least 3 to hold [CLS], a query token, and [SEP]; got {maxLen}"))
  else if tokenCount ≤ truncateLen then do
    let positionId ← addUsize tokenPosition 1
    some (.ok (0, tokenCount, positionId))
  else do
    let centered ← subIsize (asIsize tokenPosition) (asIsize (truncateLen / 2))
    let tokenStart := asUsize (max centered 0)
    let tokenStart := min tokenStart (tokenCount - truncateLen)
    let sum ← addUsize tokenStart truncateLen
    let tokenEnd := min sum tokenCount
    let offset ← subUsize tokenPosition tokenStart
    let positionId ← addUsize offset 1
    some (.ok (tokenStart, tokenEnd, positionId))

variable {tokenCount tokenPosition maxLen textLen queryId windowSize : Nat}

theorem asIsize_of_le {value : Nat} (h : value ≤ isizeMax) : asIsize value = value := if_pos h

theorem asUsize_natCast {value : Nat} (h : value ≤ usizeMax) : asUsize value = value := by
  simp only [asUsize, usizeMax] at h ⊢
  omega

theorem addUsize_of_le {a b : Nat} (h : a + b ≤ usizeMax) : addUsize a b = some (a + b) := if_pos h

theorem subUsize_of_le {a b : Nat} (h : b ≤ a) : subUsize a b = some (a - b) := if_pos h

theorem subIsize_natCast {a b : Nat} (ha : a ≤ isizeMax) (hb : b ≤ isizeMax) :
    subIsize a b = some ((a : Int) - b) := if_pos (by omega)

/-- No operation overflows on the lengths of a text and a window. -/
theorem machineTruncateWindow_eq (htext : textLen ≤ isizeMax) (hwindow : windowSize ≤ usizeMax)
    (hquery : queryId < textLen) :
    machineTruncateWindow textLen queryId windowSize =
      some (truncateWindow textLen queryId windowSize) := by
  have hsum : queryId + windowSize / 2 ≤ usizeMax := by
    simp only [isizeMax, usizeMax] at htext hwindow ⊢
    omega
  rw [machineTruncateWindow, addUsize_of_le hsum]
  rfl

/-- Nor on those of the tokens and of the model's input. -/
theorem machineTruncateTokensAroundPosition_eq (hcount : tokenCount ≤ isizeMax)
    (hmax : maxLen ≤ usizeMax) (hposition : tokenPosition < tokenCount) :
    machineTruncateTokensAroundPosition tokenCount tokenPosition maxLen =
      some (truncateTokensAroundPosition tokenCount tokenPosition maxLen) := by
  have hbounds : isizeMax < usizeMax ∧ usizeMax / 2 ≤ isizeMax := by decide
  rw [machineTruncateTokensAroundPosition, truncateTokensAroundPosition]
  split
  · rfl
  · split
    · rw [addUsize_of_le (by omega)]
      rfl
    · next hroom hcut =>
        have hhalf : (maxLen - 2) / 2 ≤ isizeMax := by omega
        have hstart : (max ((tokenPosition : Int) - ((maxLen - 2) / 2 : Nat)) 0) =
            (tokenPosition - (maxLen - 2) / 2 : Nat) := by omega
        simp (disch := omega) only [asIsize_of_le, subIsize_natCast, Option.bind_eq_bind,
          Option.bind_some, hstart, asUsize_natCast, Int.toNat_natCast, addUsize_of_le,
          subUsize_of_le]

/-- As many tokens are kept as the input has room for. -/
theorem length_truncateTokensAroundPosition (hroom : 3 ≤ maxLen) {cut : Nat × Nat × Nat}
    (h : truncateTokensAroundPosition tokenCount tokenPosition maxLen = .ok cut) :
    cut.2.1 - cut.1 = min tokenCount (maxLen - 2) := by
  rw [truncateTokensAroundPosition, if_neg (by omega)] at h
  split at h
  · cases h
    dsimp only
    omega
  · cases h
    dsimp only
    omega

/-- Both windows lie within their list and have the character or the token that is asked for. -/
theorem windows_keep_query :
    (∀ tokenCount tokenPosition maxLen, tokenCount ≤ isizeMax → maxLen ≤ usizeMax →
      tokenPosition < tokenCount → 3 ≤ maxLen → ∃ start stop positionId,
        machineTruncateTokensAroundPosition tokenCount tokenPosition maxLen =
          some (.ok (start, stop, positionId)) ∧
        start ≤ tokenPosition ∧ tokenPosition < stop ∧ stop ≤ tokenCount ∧
        stop - start = min tokenCount (maxLen - 2) ∧ positionId = tokenPosition - start + 1) ∧
      ∀ textLen queryId windowSize, textLen ≤ isizeMax → windowSize ≤ usizeMax →
        queryId < textLen → 2 ≤ windowSize → ∃ start stop,
          machineTruncateWindow textLen queryId windowSize = some (start, stop) ∧
          start ≤ queryId ∧ queryId < stop ∧ stop ≤ textLen ∧ stop - start ≤ windowSize := by
  refine ⟨fun tokenCount tokenPosition maxLen hcount hmax hposition hroom => ?_,
    fun textLen queryId windowSize htext hwindow hquery hroom => ?_⟩
  · obtain ⟨⟨start, stop, positionId⟩, hcut⟩ :=
      exists_truncateTokensAroundPosition tokenCount tokenPosition hroom
    obtain ⟨hstart, hstop, hinside, hid⟩ := truncateTokensAroundPosition_spec hposition hcut
    refine ⟨start, stop, positionId, ?_, hstart, hstop, hinside,
      length_truncateTokensAroundPosition hroom hcut, hid⟩
    rw [machineTruncateTokensAroundPosition_eq hcount hmax hposition, hcut]
  · refine ⟨_, _, machineTruncateWindow_eq htext hwindow hquery, ?_⟩
    omega

/-- Twenty tokens around the last one in an input of six, and a window at the end of a text. -/
theorem windows_keep_last :
    (∃ start stop positionId,
      machineTruncateTokensAroundPosition 20 19 6 = some (.ok (start, stop, positionId)) ∧
      start ≤ 19 ∧ 19 < stop ∧ stop ≤ 20 ∧ stop - start = min 20 (6 - 2) ∧
      positionId = 19 - start + 1) ∧
    ∃ start stop, machineTruncateWindow 10 9 4 = some (start, stop) ∧ start ≤ 9 ∧ 9 < stop ∧
      stop ≤ 10 ∧ stop - start ≤ 4 :=
  ⟨windows_keep_query.1 20 19 6 (by decide) (by decide) (by decide) (by decide),
    windows_keep_query.2 10 9 4 (by decide) (by decide) (by decide) (by decide)⟩

end Dengjen.Pinyin

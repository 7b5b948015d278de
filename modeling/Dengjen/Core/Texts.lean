import Mathlib.Data.List.DropRight

/-!
# Texts

What several parts of the program do with texts, as their standard libraries do it.
-/

namespace Dengjen

/-- `char::is_whitespace` -/
def isWhitespace (c : Char) : Bool :=
  let n := c.toNat
  (0x9 ≤ n ∧ n ≤ 0xD) ∨ n = 0x20 ∨ n = 0x85 ∨ n = 0xA0 ∨ n = 0x1680 ∨ (0x2000 ≤ n ∧ n ≤ 0x200A) ∨
    n = 0x2028 ∨ n = 0x2029 ∨ n = 0x202F ∨ n = 0x205F ∨ n = 0x3000

/-- `str::trim` -/
def trim (text : List Char) : List Char := (text.dropWhile isWhitespace).rdropWhile isWhitespace

/-- The digits, in order. -/
def hexDigits : List Char :=
  ['0', '1', '2', '3', '4', '5', '6', '7', '8', '9', 'a', 'b', 'c', 'd', 'e', 'f']

/-- Two digits for each byte, the higher one first. -/
def hex (bytes : List UInt8) : String :=
  .ofList (bytes.flatMap fun byte =>
    [hexDigits.getD (byte.toNat / 16) '0', hexDigits.getD (byte.toNat % 16) '0'])

theorem mem_hexDigits {bytes : List UInt8} {c : Char} (h : c ∈ (hex bytes).toList) :
    c ∈ hexDigits := by
  rw [hex, String.toList_ofList] at h
  obtain ⟨byte, -, hc⟩ := List.mem_flatMap.mp h
  have hdigit : ∀ n, hexDigits.getD n '0' ∈ hexDigits := by
    intro n
    rw [List.getD_eq_getElem?_getD]
    cases hget : hexDigits[n]? with
    | none => exact List.mem_cons_self
    | some digit => exact List.mem_of_getElem? hget
  rcases List.mem_pair.mp hc with rfl | rfl
  · exact hdigit _
  · exact hdigit _

end Dengjen

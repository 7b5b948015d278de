import Mathlib.Data.Nat.Basic

/-!
# Machine integers

The bounds of the fixed-width integers of a 64-bit target, and the saturating
operations on `usize`. A `usize` is a `Nat`.
-/

namespace Dengjen

/-- The greatest number of 32 bits with a sign. -/
def i32Max : Nat := 0x7FFFFFFF
/-- The greatest size. -/
def usizeMax : Nat := 0xFFFFFFFFFFFFFFFF
/-- The greatest size with a sign. -/
def isizeMax : Nat := 0x7FFFFFFFFFFFFFFF

/-- `usize::saturating_add`. -/
def saturatingAdd (a b : Nat) : Nat := min (a + b) usizeMax

/-- `usize::saturating_mul`. -/
def saturatingMul (a b : Nat) : Nat := min (a * b) usizeMax

end Dengjen

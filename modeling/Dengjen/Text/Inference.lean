import Dengjen.Audio.TrailingSilence
import Dengjen.General.LastArgmax

/-!
# The models behind the phonemizers

A phonemizer runs a session over its inputs and takes of each row of an output tensor
the class with the greatest score.

## Implementation notes

The session is a parameter: it fails with a cause, or returns its outputs in order,
each of which is a tensor of `f32` or is not one for some cause. The lock in front of
it and the tensors made for it fail in the same way. `{:?}` of a shape is a parameter
as well.
-/

namespace Dengjen

/-- The place of a float in the order of `f32::total_cmp`. -/
def F32.totalRank (value : F32) : Int :=
  if value.bits.msb then -value.magnitudeBits.toNat - 1 else value.magnitudeBits.toNat

/-- `try_extract_tensor` -/
structure OutputTensor where
  shape : List Int
  data : List F32

/-- A session: its answers, and how the shape of one is shown. -/
structure OrtSession (Inputs : Type*) where
  run : Inputs → Except String (List (Except String OutputTensor))
  debugShape : List Int → String

/-- `iter().enumerate().max_by(total_cmp)` -/
def argmax (row : List F32) : Option Nat := lastArgmax F32.totalRank row

/-- The class with the greatest score, the last of them where there are several. -/
abbrev IsArgmax (row : List F32) (i : Nat) (score : F32) : Prop :=
  IsLastArgmax F32.totalRank row i score

example : argmax [⟨0x3F800000⟩, ⟨0x80000000⟩, ⟨0x3F800000⟩, ⟨0xFFC00000⟩] = some 2 := by decide

end Dengjen

import Mathlib.Algebra.Order.Field.Rat
import Mathlib.Tactic.NormNum
import Mathlib.Tactic.Positivity

/-!
# Overlap-add

`overlap_with` appends a buffer to another one and fades the end of the first into the
beginning of the second. Samples are exact numbers here, without the rounding of `f32`.
-/

namespace Dengjen.Overlap

/-- The gain of the incoming sample at an offset of the overlap. -/
def gainIn (overlapLen offset : Nat) : ℚ :=
  let span : ℚ := (overlapLen - 1 : Nat)
  if overlapLen = 1 then 1 / 2 else offset / span

/-- `overlap_len`, at most the length of either buffer. -/
def clamped (samples other : List ℚ) (overlapLen : Nat) : Nat :=
  min (min overlapLen samples.length) other.length

/-- The loop changes the samples from `tailStart` on that have a partner in `other`. -/
def overlapWith (samples other : List ℚ) (overlapLen : Nat) : List ℚ :=
  let overlapLen := clamped samples other overlapLen
  let tailStart := samples.length - overlapLen
  let mixed := samples.mapIdx fun index mine =>
    if index < tailStart then mine
    else
      let offset := index - tailStart
      match other[offset]? with
      | none => mine
      | some theirs => mine * (1 - gainIn overlapLen offset) + theirs * gainIn overlapLen offset
  mixed ++ other.drop overlapLen

variable {overlapLen offset : Nat}

theorem gainIn_one (offset : Nat) : gainIn 1 offset = 1 / 2 := by
  rw [gainIn, if_pos rfl]

theorem span_ne_zero (h : 1 < overlapLen) : ((overlapLen - 1 : Nat) : ℚ) ≠ 0 :=
  Nat.cast_ne_zero.mpr (by omega)

theorem gainIn_of_one_lt (h : 1 < overlapLen) (offset : Nat) :
    gainIn overlapLen offset = offset / (overlapLen - 1 : Nat) := if_neg (by omega)

theorem gainIn_mem (h : offset < overlapLen) :
    0 ≤ gainIn overlapLen offset ∧ gainIn overlapLen offset ≤ 1 := by
  rcases Nat.lt_or_ge 1 overlapLen with hlen | hlen
  · rw [gainIn_of_one_lt hlen]
    refine ⟨by positivity, div_le_one_of_le₀ ?_ (by positivity)⟩
    exact Nat.cast_le.mpr (by omega)
  · obtain rfl : overlapLen = 1 := by omega
    rw [gainIn_one]
    norm_num

/-- Weights for the samples of an overlap of `m` that go evenly from zero to one. -/
structure EvenWeights (m : Nat) (weight : Nat → ℚ) : Prop where
  mem : ∀ offset < m, 0 ≤ weight offset ∧ weight offset ≤ 1
  single : m = 1 → weight 0 = 1 / 2
  first : 1 < m → weight 0 = 0
  last : 1 < m → weight (m - 1) = 1
  even : 1 < m → ∀ offset, weight (offset + 1) - weight offset = 1 / (m - 1 : Nat)

theorem evenWeights_gainIn (m : Nat) : EvenWeights m (gainIn m) where
  mem _ h := gainIn_mem h
  single hone := by
    rw [hone]
    exact gainIn_one 0
  first h := by
    rw [gainIn_of_one_lt h, Nat.cast_zero, zero_div]
  last h := by
    rw [gainIn_of_one_lt h]
    exact div_self (span_ne_zero h)
  even h offset := by
    rw [gainIn_of_one_lt h, gainIn_of_one_lt h, ← sub_div, Nat.cast_succ, add_sub_cancel_left]

variable {samples other : List ℚ}

theorem clamped_le_left : clamped samples other overlapLen ≤ samples.length :=
  (min_le_left _ _).trans (min_le_right _ _)

theorem clamped_le_right : clamped samples other overlapLen ≤ other.length := min_le_right _ _

theorem length_overlapWith (samples other : List ℚ) (overlapLen : Nat) :
    (overlapWith samples other overlapLen).length =
      samples.length + other.length - clamped samples other overlapLen := by
  rw [overlapWith, List.length_append, List.length_mapIdx, List.length_drop,
    Nat.add_sub_assoc clamped_le_right]

theorem take_overlapWith (samples other : List ℚ) (overlapLen : Nat) :
    (overlapWith samples other overlapLen).take
        (samples.length - clamped samples other overlapLen) =
      samples.take (samples.length - clamped samples other overlapLen) := by
  apply List.ext_getElem?
  intro i
  rw [List.getElem?_take, List.getElem?_take]
  split
  · next hi =>
      rw [overlapWith, List.getElem?_append_left (by simp; omega), List.getElem?_mapIdx]
      simp [hi]
  · rfl

theorem drop_overlapWith (samples other : List ℚ) (overlapLen : Nat) :
    (overlapWith samples other overlapLen).drop samples.length =
      other.drop (clamped samples other overlapLen) :=
  List.drop_left' (List.length_mapIdx ..)

/-- The samples of the overlap are mixed with their partners. -/
theorem getElem?_overlapWith (h : offset < clamped samples other overlapLen) :
    ∃ mine theirs,
      samples[samples.length - clamped samples other overlapLen + offset]? = some mine ∧
      other[offset]? = some theirs ∧
      (overlapWith samples other overlapLen)[samples.length - clamped samples other overlapLen +
          offset]? =
        some (mine * (1 - gainIn (clamped samples other overlapLen) offset) +
          theirs * gainIn (clamped samples other overlapLen) offset) := by
  have hsamples : samples.length - clamped samples other overlapLen + offset < samples.length := by
    have hle := @clamped_le_left overlapLen samples other
    omega
  have hother : offset < other.length := h.trans_le clamped_le_right
  refine ⟨_, _, List.getElem?_eq_getElem hsamples, List.getElem?_eq_getElem hother, ?_⟩
  rw [overlapWith, List.getElem?_append_left (by rw [List.length_mapIdx]; exact hsamples),
    List.getElem?_mapIdx, List.getElem?_eq_getElem hsamples]
  simp [List.getElem?_eq_getElem hother]

/-- `mixed` is the samples and the others with the last `m` of the first and the first `m` of the
second mixed. Everything else is there once and unchanged. -/
structure Overlapped (samples other mixed : List ℚ) (m : Nat) (weight : Nat → ℚ) : Prop where
  length : mixed.length = samples.length + other.length - m
  start : mixed.take (samples.length - m) = samples.take (samples.length - m)
  finish : mixed.drop samples.length = other.drop m
  overlap : ∀ offset < m, ∃ mine theirs,
    samples[samples.length - m + offset]? = some mine ∧ other[offset]? = some theirs ∧
      mixed[samples.length - m + offset]? =
        some (mine * (1 - weight offset) + theirs * weight offset)

/-- Nothing outside the overlap is changed, lost or used twice, and inside it the aligned samples
are mixed at weights that go evenly from zero to one. The span that an offset is divided by is
not zero. -/
theorem overlapWith_spec (samples other : List ℚ) (overlapLen : Nat) :
    Overlapped samples other (overlapWith samples other overlapLen)
        (min overlapLen (min samples.length other.length))
        (gainIn (min overlapLen (min samples.length other.length))) ∧
      EvenWeights (min overlapLen (min samples.length other.length))
        (gainIn (min overlapLen (min samples.length other.length))) ∧
      (1 < min overlapLen (min samples.length other.length) →
        ((min overlapLen (min samples.length other.length) - 1 : Nat) : ℚ) ≠ 0) := by
  refine ⟨?_, evenWeights_gainIn _, span_ne_zero⟩
  have hm : min overlapLen (min samples.length other.length) = clamped samples other overlapLen :=
    (min_assoc _ _ _).symm
  rw [hm]
  exact ⟨length_overlapWith _ _ _, take_overlapWith _ _ _, drop_overlapWith _ _ _,
    fun _ => getElem?_overlapWith⟩

end Dengjen.Overlap

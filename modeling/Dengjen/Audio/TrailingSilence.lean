import Dengjen.Core.Model
import Dengjen.General.Frames

/-!
# Trailing silence

`trim_trailing_silence` cuts a buffer behind the last frame in which some channel is
active. A sample is active when it is finite and louder than the threshold.

## Implementation notes

The comparison of two `f32` is that of IEEE 754, on their bits: those without the sign
are ordered as the magnitudes are, and a NaN is neither less nor greater than anything.
-/

namespace Dengjen

namespace F32

/-- The bits without the sign. -/
def magnitudeBits (value : F32) : BitVec 32 := value.bits &&& 0x7FFFFFFF

/-- The bits of infinity. -/
def infinityBits : BitVec 32 := 0x7F800000

/-- A value below infinity, on either side. -/
def isFinite (value : F32) : Bool := value.magnitudeBits < infinityBits

/-- A value that is no number. -/
def isNaN (value : F32) : Bool := infinityBits < value.magnitudeBits

/-- The value without its sign. -/
def abs (value : F32) : F32 := ⟨value.magnitudeBits⟩

/-- The rank of a number among the numbers, zero for both zeros. -/
def rank (value : F32) : Int :=
  if value.bits.msb then -value.magnitudeBits.toNat else value.magnitudeBits.toNat

/-- `value > other` -/
def gt (value other : F32) : Bool :=
  !value.isNaN && !other.isNaN && other.rank < value.rank

/-- `value <= other` -/
def le (value other : F32) : Bool :=
  !value.isNaN && !other.isNaN && value.rank ≤ other.rank

theorem abs_isNaN (value : F32) : value.abs.isNaN = value.isNaN := by
  rw [isNaN, isNaN, magnitudeBits, abs, magnitudeBits, BitVec.and_assoc, BitVec.and_self]

theorem not_isNaN_of_isFinite {value : F32} (h : value.isFinite) : value.isNaN = false := by
  rw [isFinite, decide_eq_true_iff] at h
  rw [isNaN, decide_eq_false_iff_not]
  exact BitVec.not_lt.mpr (BitVec.le_of_lt h)

end F32

namespace AudioSamples

/-- A sample that is heard. -/
def isActive (threshold sample : F32) : Bool := sample.isFinite && sample.abs.gt threshold

/-- The samples as far as their last frame with a sample that is heard. -/
def trimTrailingSilence (samples : AudioSamples) (threshold : F32) (numChannels : Nat) :
    AudioSamples :=
  let numChannels := max numChannels 1
  match Frames.rposition (fun frame => frame.any (isActive threshold))
      (Frames.chunksExact numChannels samples) with
  | some frame => samples.take ((frame + 1) * numChannels)
  | none => []

/-- Not finite, or not louder than the threshold. -/
def Inactive (threshold sample : F32) : Prop :=
  ¬ sample.isFinite ∨ ¬ sample.abs.gt threshold

theorem isActive_eq_false_iff {threshold sample : F32} :
    isActive threshold sample = false ↔ Inactive threshold sample := by
  rw [isActive, Bool.and_eq_false_iff, Inactive, Bool.not_eq_true, Bool.not_eq_true]

/-- Below a threshold that is a number, inactive is not finite or of magnitude at most it. -/
theorem inactive_iff {threshold : F32} (hthreshold : threshold.isNaN = false) (sample : F32) :
    Inactive threshold sample ↔ ¬ sample.isFinite ∨ sample.abs.le threshold := by
  by_cases hfinite : sample.isFinite
  · have hnumber : sample.abs.isNaN = false := by
      rw [F32.abs_isNaN, F32.not_isNaN_of_isFinite hfinite]
    rw [Inactive, F32.gt, F32.le, hnumber, hthreshold]
    simp
  · exact iff_of_true (.inl hfinite) (.inl hfinite)

theorem isTrimmed_trimTrailingSilence (threshold : F32) {numChannels : Nat}
    {samples : AudioSamples} (hwhole : max numChannels 1 ∣ samples.length) :
    Frames.IsTrimmed (isActive threshold) (max numChannels 1) samples
      (samples.trimTrailingSilence threshold numChannels) :=
  Frames.isTrimmed_trim (isActive threshold) (le_max_right numChannels 1) hwhole

/-- Of a buffer of whole frames the shortest prefix of whole frames is left without which every
sample is inactive. Its last frame has an active sample, nothing is left of a silent buffer, and
a second call finds nothing more to trim. -/
theorem trimTrailingSilence_spec (samples : AudioSamples) (threshold : F32) (numChannels : Nat)
    (hwhole : max numChannels 1 ∣ samples.length) :
    let kept := samples.trimTrailingSilence threshold numChannels
    kept <+: samples ∧ max numChannels 1 ∣ kept.length ∧
      (∀ sample ∈ samples.drop kept.length, Inactive threshold sample) ∧
      (∀ k, max numChannels 1 ∣ k → (∀ sample ∈ samples.drop k, Inactive threshold sample) →
        kept.length ≤ k) ∧
      (kept ≠ [] →
        ∃ sample ∈ kept.drop (kept.length - max numChannels 1), ¬ Inactive threshold sample) ∧
      ((∀ sample ∈ samples, Inactive threshold sample) → kept = []) ∧
      kept.trimTrailingSilence threshold numChannels = kept ∧
      (threshold.isNaN = false →
        ∀ sample, Inactive threshold sample ↔ ¬ sample.isFinite ∨ sample.abs.le threshold) := by
  intro kept
  have h := isTrimmed_trimTrailingSilence threshold hwhole
  have hpos : 0 < max numChannels 1 := le_max_right numChannels 1
  simp only [← isActive_eq_false_iff, Bool.not_eq_false]
  refine ⟨h.isPrefix, h.whole, h.removed, h.shortest, h.exists_last hpos, h.eq_nil,
    (isTrimmed_trimTrailingSilence threshold h.whole).unique h.self, fun hthreshold sample => ?_⟩
  exact isActive_eq_false_iff.trans (inactive_iff hthreshold sample)

/-- Two frames of stereo samples (0.8, 0.6) and (0.0, 0.0) at the threshold 0.015. -/
theorem trimTrailingSilence_stereo :
    trimTrailingSilence [⟨0x3F4CCCCD⟩, ⟨0x3F19999A⟩, ⟨0⟩, ⟨0⟩] ⟨0x3C75C28F⟩ 2 =
        [⟨0x3F4CCCCD⟩, ⟨0x3F19999A⟩] ∧
      trimTrailingSilence [⟨0x3F4CCCCD⟩, ⟨0x3F19999A⟩, ⟨0⟩, ⟨0⟩] ⟨0x3C75C28F⟩ 2 <+:
        [⟨0x3F4CCCCD⟩, ⟨0x3F19999A⟩, ⟨0⟩, ⟨0⟩] :=
  ⟨by decide, (trimTrailingSilence_spec _ ⟨0x3C75C28F⟩ 2 (by decide)).1⟩

end AudioSamples

end Dengjen

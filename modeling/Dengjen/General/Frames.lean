import Mathlib.Data.List.Basic
import Mathlib.Data.Nat.Basic

/-!
# Frames of a buffer

A buffer is a row of frames of one width. Trimming it leaves the shortest prefix of whole
frames that every marked element is in.
-/

namespace Dengjen.Frames

variable {α : Type*} {p : α → Bool} {xs kept kept' : List α} {width k : Nat} {x : α}

/-- The whole frames, without what is left over at the end. -/
def chunksExact (width : Nat) (xs : List α) : List (List α) :=
  (List.range (xs.length / width)).map fun k => (xs.drop (k * width)).take width

/-- The index of the last element that satisfies the predicate, searched from the end. -/
def rposition (p : α → Bool) (xs : List α) : Option Nat :=
  (xs.reverse.findIdx? p).map fun back => xs.length - 1 - back

theorem forall_of_rposition_eq_none (h : rposition p xs = none) : ∀ x ∈ xs, p x = false := by
  rw [rposition, Option.map_eq_none_iff, List.findIdx?_eq_none_iff] at h
  exact fun x hx => h x (List.mem_reverse.mpr hx)

theorem of_rposition_eq_some (h : rposition p xs = some k) :
    (∃ x, xs[k]? = some x ∧ p x) ∧ ∀ j x, k < j → xs[j]? = some x → p x = false := by
  obtain ⟨back, hfind, rfl⟩ := Option.map_eq_some_iff.mp h
  obtain ⟨hback, hp, hfirst⟩ := List.findIdx?_eq_some_iff_getElem.mp hfind
  rw [List.length_reverse] at hback
  rw [List.getElem_reverse] at hp
  refine ⟨⟨_, List.getElem?_eq_getElem (by omega), hp⟩, fun j x hj hx => ?_⟩
  obtain ⟨hlength, rfl⟩ := List.getElem?_eq_some_iff.mp hx
  have hnot := hfirst (xs.length - 1 - j) (by omega)
  rw [List.getElem_reverse, Bool.not_eq_true] at hnot
  have hindex : xs.length - 1 - (xs.length - 1 - j) = j := by omega
  simpa only [hindex] using hnot

theorem getElem?_chunksExact (h : k < xs.length / width) :
    (chunksExact width xs)[k]? = some ((xs.drop (k * width)).take width) := by
  rw [chunksExact, List.getElem?_map, List.getElem?_range h, Option.map_some]

theorem eq_of_getElem?_chunksExact {frame : List α} (h : (chunksExact width xs)[k]? = some frame) :
    k < xs.length / width ∧ frame = (xs.drop (k * width)).take width := by
  have hlt : k < xs.length / width := by
    simpa [chunksExact] using (List.getElem?_eq_some_iff.mp h).1
  rw [getElem?_chunksExact hlt, Option.some.injEq] at h
  exact ⟨hlt, h.symm⟩

theorem mem_chunk_iff (hwidth : 0 < width) :
    x ∈ (xs.drop (k * width)).take width ↔ ∃ i, xs[i]? = some x ∧ i / width = k := by
  rw [List.mem_iff_getElem?]
  constructor
  · rintro ⟨j, hj⟩
    rw [List.getElem?_take] at hj
    split at hj
    · next hlt =>
        rw [List.getElem?_drop] at hj
        refine ⟨k * width + j, hj, ?_⟩
        rw [Nat.mul_comm, Nat.mul_add_div hwidth, Nat.div_eq_of_lt hlt, Nat.add_zero]
    · cases hj
  · rintro ⟨i, hi, rfl⟩
    refine ⟨i % width, ?_⟩
    rw [List.getElem?_take_of_lt (Nat.mod_lt i hwidth), List.getElem?_drop, Nat.mul_comm,
      Nat.div_add_mod, hi]

/-- A prefix of whole frames with all marked elements, and no longer than any other one. -/
structure IsTrimmed (p : α → Bool) (width : Nat) (xs kept : List α) : Prop where
  isPrefix : kept <+: xs
  whole : width ∣ kept.length
  removed : ∀ x ∈ xs.drop kept.length, p x = false
  shortest : ∀ k, width ∣ k → (∀ x ∈ xs.drop k, p x = false) → kept.length ≤ k

namespace IsTrimmed

theorem unique (h : IsTrimmed p width xs kept) (h' : IsTrimmed p width xs kept') :
    kept = kept' := by
  have hlength : kept.length = kept'.length :=
    Nat.le_antisymm (h.shortest _ h'.whole h'.removed) (h'.shortest _ h.whole h.removed)
  rw [List.prefix_iff_eq_take.mp h.isPrefix, List.prefix_iff_eq_take.mp h'.isPrefix, hlength]

theorem eq_nil (h : IsTrimmed p width xs kept) (hall : ∀ x ∈ xs, p x = false) : kept = [] :=
  List.eq_nil_of_length_eq_zero (Nat.le_zero.mp (h.shortest 0 (Nat.dvd_zero width) hall))

/-- What has been trimmed is trimmed. -/
theorem self (h : IsTrimmed p width xs kept) : IsTrimmed p width kept kept where
  isPrefix := List.prefix_rfl
  whole := h.whole
  removed := by simp
  shortest := by
    intro k hk hremoved
    refine h.shortest k hk fun x hx => ?_
    obtain ⟨rest, rfl⟩ := h.isPrefix
    have hrest := h.removed
    rw [List.drop_left] at hrest
    rcases List.mem_append.mp (List.drop_append ▸ hx) with hx | hx
    · exact hremoved x hx
    · exact hrest x (List.mem_of_mem_drop hx)

/-- Some element of the last frame that is left is marked. -/
theorem exists_last (h : IsTrimmed p width xs kept) (hwidth : 0 < width) (hne : kept ≠ []) :
    ∃ x ∈ kept.drop (kept.length - width), p x := by
  by_contra hnone
  have hremoved : ∀ x ∈ kept.drop (kept.length - width), p x = false := by
    intro x hx
    rw [← Bool.not_eq_true]
    exact fun hp => hnone ⟨x, hx, hp⟩
  have hle := h.self.shortest _ (Nat.dvd_sub h.whole (Nat.dvd_refl width)) hremoved
  have hpos := List.length_pos_iff.mpr hne
  omega

theorem nil (hall : ∀ x ∈ xs, p x = false) : IsTrimmed p width xs [] where
  isPrefix := List.nil_prefix
  whole := Nat.dvd_zero width
  removed := fun x hx => hall x (List.mem_of_mem_drop hx)
  shortest := fun k _ _ => Nat.zero_le k

/-- The frames up to the last one that has a marked element. -/
theorem take {i : Nat} (hwidth : 0 < width) (hfits : i / width < xs.length / width)
    (hi : xs[i]? = some x) (hp : p x)
    (hlater : ∀ j y, i / width < j / width → xs[j]? = some y → p y = false) :
    IsTrimmed p width xs (xs.take ((i / width + 1) * width)) := by
  have hlength : (xs.take ((i / width + 1) * width)).length = (i / width + 1) * width :=
    List.length_take_of_le (Nat.mul_le_of_le_div _ _ _ hfits)
  refine ⟨List.take_prefix _ _, ?_, fun y hy => ?_, fun k hk hremoved => ?_⟩
  · rw [hlength]
    exact Nat.dvd_mul_left _ _
  · rw [hlength] at hy
    obtain ⟨j, hj⟩ := List.mem_iff_getElem?.mp hy
    rw [List.getElem?_drop] at hj
    apply hlater _ y _ hj
    exact (Nat.le_div_iff_mul_le hwidth).mpr (Nat.le_add_right _ j)
  · have hik : i < k := by
      by_contra hki
      have hmem : x ∈ xs.drop k := by
        refine List.mem_iff_getElem?.mpr ⟨i - k, ?_⟩
        rw [List.getElem?_drop, Nat.add_sub_of_le (Nat.le_of_not_lt hki), hi]
      rw [hremoved x hmem] at hp
      cases hp
    rw [hlength]
    exact Nat.mul_le_of_le_div _ _ _ (Nat.div_lt_div_of_lt_of_dvd hk hik)

end IsTrimmed

/-- The frames up to the last one with a marked element. -/
def trim (p : α → Bool) (width : Nat) (xs : List α) : List α :=
  match rposition (fun frame => frame.any p) (chunksExact width xs) with
  | some frame => xs.take ((frame + 1) * width)
  | none => []

theorem exists_chunk {i : Nat} (hwidth : 0 < width) (hwhole : width ∣ xs.length)
    (hi : xs[i]? = some x) :
    ∃ frame, (chunksExact width xs)[i / width]? = some frame ∧ x ∈ frame := by
  have hlt : i < xs.length := (List.getElem?_eq_some_iff.mp hi).1
  exact ⟨_, getElem?_chunksExact (Nat.div_lt_div_of_lt_of_dvd hwhole hlt),
    (mem_chunk_iff hwidth).mpr ⟨i, hi, rfl⟩⟩

theorem eq_false_of_any {frame : List α} (h : frame.any p = false) (hx : x ∈ frame) :
    p x = false := by
  rw [← Bool.not_eq_true]
  exact List.any_eq_false.mp h x hx

theorem isTrimmed_trim (p : α → Bool) (hwidth : 0 < width) (hwhole : width ∣ xs.length) :
    IsTrimmed p width xs (trim p width xs) := by
  rw [trim]
  split
  · next last hlast =>
      obtain ⟨⟨frame, hget, hany⟩, hlater⟩ := of_rposition_eq_some hlast
      obtain ⟨hlt, rfl⟩ := eq_of_getElem?_chunksExact hget
      obtain ⟨x, hx, hp⟩ := List.any_eq_true.mp hany
      obtain ⟨i, hi, rfl⟩ := (mem_chunk_iff hwidth).mp hx
      apply IsTrimmed.take hwidth hlt hi hp
      intro j y hj hy
      obtain ⟨frame, hframe, hmem⟩ := exists_chunk hwidth hwhole hy
      exact eq_false_of_any (hlater _ frame hj hframe) hmem
  · next hnone =>
      apply IsTrimmed.nil
      intro x hx
      obtain ⟨i, hi⟩ := List.mem_iff_getElem?.mp hx
      obtain ⟨frame, hget, hmem⟩ := exists_chunk hwidth hwhole hi
      exact eq_false_of_any (forall_of_rposition_eq_none hnone frame (List.mem_of_getElem? hget))
        hmem

end Dengjen.Frames

import Mathlib.Algebra.GroupWithZero.Nat
import Mathlib.Data.List.Basic

/-!
# Byte offsets in a text

Offsets count the bytes of the UTF-8 encoding. A text can only be split where a
character begins, which is where a search finds one.
-/

namespace Dengjen.ByteOffsets

variable {front back text : List Char} {c : Char}

/-- The bytes of a text. -/
def byteSize (text : List Char) : Nat := (text.map Char.utf8Size).sum

/-- The offset of the first occurrence. -/
def find (c : Char) : List Char → Option Nat
  | [] => none
  | d :: rest => if d = c then some 0 else (find c rest).map fun offset => d.utf8Size + offset

/-- The parts before and after an offset, `none` when it is past the end or inside a character. -/
def splitAt : List Char → Nat → Option (List Char × List Char)
  | text, 0 => some ([], text)
  | [], _ + 1 => none
  | d :: rest, offset + 1 =>
      if offset + 1 < d.utf8Size then none
      else (splitAt rest (offset + 1 - d.utf8Size)).map fun parts => (d :: parts.1, parts.2)

theorem find_eq_none (h : c ∉ text) : find c text = none := by
  induction text with
  | nil => rfl
  | cons d rest ih =>
      rw [List.mem_cons, not_or] at h
      rw [find, if_neg (Ne.symm h.1), ih h.2, Option.map_none]

theorem find_append_cons (h : c ∉ front) (back : List Char) :
    find c (front ++ c :: back) = some (byteSize front) := by
  induction front with
  | nil => exact if_pos rfl
  | cons d rest ih =>
      rw [List.mem_cons, not_or] at h
      rw [List.cons_append, find, if_neg (Ne.symm h.1), ih h.2]
      rfl

/-- What a search finds can be split off. -/
theorem splitAt_byteSize (front back : List Char) :
    splitAt (front ++ back) (byteSize front) = some (front, back) := by
  induction front with
  | nil => rw [byteSize, List.map_nil, List.sum_nil, List.nil_append, splitAt]
  | cons d rest ih =>
      obtain ⟨n, hn⟩ : ∃ n, byteSize (d :: rest) = n + 1 :=
        Nat.exists_eq_add_one.mpr (Nat.add_pos_left d.utf8Size_pos _)
      have hsize : n + 1 = d.utf8Size + byteSize rest := hn.symm
      rw [hn, List.cons_append, splitAt, if_neg (by omega), hsize, Nat.add_sub_cancel_left, ih]
      rfl

/-- A character of one byte goes to the first part with the offset after it. -/
theorem splitAt_byteSize_succ (hc : c.utf8Size = 1) (front back : List Char) :
    splitAt (front ++ c :: back) (byteSize front + 1) = some (front ++ [c], back) := by
  have hsize : byteSize (front ++ [c]) = byteSize front + 1 := by
    rw [byteSize, List.map_append, List.sum_append, List.map_singleton, List.sum_singleton, hc]
    rfl
  rw [← hsize, List.append_cons, splitAt_byteSize]

theorem append_eq_of_splitAt {offset : Nat} (h : splitAt text offset = some (front, back)) :
    front ++ back = text ∧ byteSize front = offset := by
  induction text, offset using splitAt.induct generalizing front with
  | case1 text =>
      rw [splitAt, Option.some.injEq, Prod.mk.injEq] at h
      rw [← h.1, ← h.2]
      exact ⟨rfl, rfl⟩
  | case2 offset => cases h
  | case3 d rest offset hlt =>
      rw [splitAt, if_pos hlt] at h
      cases h
  | case4 d rest offset hlt ih =>
      rw [splitAt, if_neg hlt, Option.map_eq_some_iff] at h
      obtain ⟨parts, hparts, heq⟩ := h
      obtain ⟨rfl, rfl⟩ := Prod.mk.inj heq
      obtain ⟨happend, hsize⟩ := ih hparts
      refine ⟨congrArg (d :: ·) happend, ?_⟩
      change d.utf8Size + byteSize parts.1 = offset + 1
      omega

theorem length_le_of_splitAt {offset : Nat} (h : splitAt text offset = some (front, back)) :
    back.length ≤ text.length := by
  rw [← (append_eq_of_splitAt h).1, List.length_append]
  exact Nat.le_add_left _ _

theorem length_lt_of_splitAt {offset : Nat} (h : splitAt text (offset + 1) = some (front, back)) :
    back.length < text.length := by
  obtain ⟨rfl, hsize⟩ := append_eq_of_splitAt h
  cases front with
  | nil => cases hsize
  | cons d front =>
      rw [List.length_append, List.length_cons]
      omega

end Dengjen.ByteOffsets

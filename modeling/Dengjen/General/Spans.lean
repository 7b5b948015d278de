import Mathlib.Data.List.Basic
import Mathlib.Data.List.TakeDrop

/-!
# Items over the positions of a list

Items are collected from front to back, each over a range of positions, and one slot
for each position holds the number of the item over it. Ranges are filled one after
another, so what is known of two ranges side by side is known of both together.
-/

namespace Dengjen.Spans

variable {α β : Type*}

/-- The part of a list from one position to another. -/
def slice (xs : List α) (start stop : Nat) : List α := (xs.drop start).take (stop - start)

theorem slice_append {xs front back : List α} {start stop : Nat}
    (h : slice xs start stop = front ++ back) (hstart : start ≤ stop) (hstop : stop ≤ xs.length) :
    start + front.length ≤ stop ∧ slice xs start (start + front.length) = front ∧
      slice xs (start + front.length) stop = back := by
  have hlength := congrArg List.length h
  simp only [slice, List.length_take, List.length_drop, List.length_append] at hlength
  have hle : start + front.length ≤ stop := by omega
  have hfront := congrArg (List.take front.length) h
  have hback := congrArg (List.drop front.length) h
  rw [List.take_left] at hfront
  rw [List.drop_left] at hback
  simp only [slice, List.take_take, List.drop_take, List.drop_drop] at hfront hback ⊢
  refine ⟨hle, ?_, ?_⟩
  · rwa [Nat.add_sub_cancel_left, ← Nat.min_eq_left (Nat.le_sub_of_add_le' hle)]
  · rwa [Nat.sub_add_eq]

theorem slice_split (xs : List α) {start middle stop : Nat} (hstart : start ≤ middle)
    (hstop : middle ≤ stop) :
    slice xs start stop = slice xs start middle ++ slice xs middle stop := by
  have hwidth : stop - start = (middle - start) + (stop - middle) := by omega
  rw [slice, hwidth, List.take_add, List.drop_drop, Nat.add_sub_cancel' hstart]
  rfl

theorem slice_cons {xs : List α} {x : α} {start stop : Nat} (hx : xs[start]? = some x)
    (hstop : start < stop) : slice xs start stop = x :: slice xs (start + 1) stop := by
  obtain ⟨hlt, hget⟩ := List.getElem?_eq_some_iff.mp hx
  have hwidth : stop - start = (stop - (start + 1)) + 1 := by omega
  rw [slice, List.drop_eq_getElem_cons hlt, hget, hwidth, List.take_succ_cons]
  rfl

theorem length_slice {xs : List α} {start stop : Nat} (h : stop ≤ xs.length) :
    (slice xs start stop).length = stop - start := by
  rw [slice, List.length_take, List.length_drop]
  omega

/-- A slot for each position, and a value in those from `start` to `stop`. -/
def fill (slots : List β) (start stop : Nat) (value : β) : List β :=
  slots.mapIdx fun pos slot => if start ≤ pos ∧ pos < stop then value else slot

@[simp] theorem length_fill (slots : List β) (start stop : Nat) (value : β) :
    (fill slots start stop value).length = slots.length := List.length_mapIdx

theorem getElem?_fill_outside (slots : List β) (value : β) {start stop pos : Nat}
    (h : pos < start ∨ stop ≤ pos) : (fill slots start stop value)[pos]? = slots[pos]? := by
  have hnot : ¬ (start ≤ pos ∧ pos < stop) := by omega
  simp [fill, hnot]

theorem getElem?_fill_inside (slots : List β) (value : β) {start stop pos : Nat}
    (hstart : start ≤ pos) (hstop : pos < stop) (hlength : pos < slots.length) :
    (fill slots start stop value)[pos]? = some value := by
  simp [fill, hstart, hstop, List.getElem?_eq_getElem hlength]

variable {covers : β → Nat → Prop} {placed placed' placed'' : List β × List (Option Nat)}
  {start middle stop pos : Nat} {item : β}

/-- The slot holds the number of an item over the position. -/
def Holds (covers : β → Nat → Prop) (placed : List β × List (Option Nat)) (pos : Nat) : Prop :=
  ∃ number item, placed.2[pos]? = some (some number) ∧ placed.1[number]? = some item ∧
    covers item pos

/-- More items behind those of before, over the positions from `start` to `stop`. -/
structure Places (covers : β → Nat → Prop) (start stop : Nat)
    (placed placed' : List β × List (Option Nat)) : Prop where
  items : placed.1 <+: placed'.1
  length : placed'.2.length = placed.2.length
  outside : ∀ pos, pos < start ∨ stop ≤ pos → placed'.2[pos]? = placed.2[pos]?
  inside : ∀ pos, start ≤ pos → pos < stop → Holds covers placed' pos

theorem Holds.kept (h : Holds covers placed pos) (hitems : placed.1 <+: placed'.1)
    (hslot : placed'.2[pos]? = placed.2[pos]?) : Holds covers placed' pos := by
  obtain ⟨number, item, hnumber, hitem, hcovers⟩ := h
  obtain ⟨behind, hbehind⟩ := hitems
  obtain ⟨hlt, -⟩ := List.getElem?_eq_some_iff.mp hitem
  refine ⟨number, item, hslot.trans hnumber, ?_, hcovers⟩
  rwa [← hbehind, List.getElem?_append_left hlt]

theorem Places.refl (covers : β → Nat → Prop) (start : Nat) (placed : List β × List (Option Nat)) :
    Places covers start start placed placed where
  items := List.prefix_rfl
  length := rfl
  outside _ _ := rfl
  inside pos hstart hstop := by omega

/-- Two ranges side by side. -/
theorem Places.trans (h : Places covers start middle placed placed')
    (h' : Places covers middle stop placed' placed'') (hstart : start ≤ middle)
    (hstop : middle ≤ stop) : Places covers start stop placed placed'' where
  items := h.items.trans h'.items
  length := h'.length.trans h.length
  outside pos hpos := by
    rw [h'.outside pos (by omega), h.outside pos (by omega)]
  inside pos hstartPos hpos := by
    by_cases hmiddle : pos < middle
    · exact (h.inside pos hstartPos hmiddle).kept h'.items (h'.outside pos (.inl hmiddle))
    · exact h'.inside pos (by omega) hpos

/-- One more item over a range. -/
def place (placed : List β × List (Option Nat)) (item : β) (start stop : Nat) :
    List β × List (Option Nat) :=
  (placed.1 ++ [item], fill placed.2 start stop (some placed.1.length))

theorem places_place (placed : List β × List (Option Nat)) (hlength : stop ≤ placed.2.length)
    (hcovers : ∀ pos, start ≤ pos → pos < stop → covers item pos) :
    Places covers start stop placed (place placed item start stop) where
  items := List.prefix_append ..
  length := length_fill ..
  outside pos hpos := getElem?_fill_outside _ _ hpos
  inside pos hstart hstop :=
    ⟨placed.1.length, item, getElem?_fill_inside _ _ hstart hstop (by omega),
      List.getElem?_concat_length, hcovers pos hstart hstop⟩

end Dengjen.Spans

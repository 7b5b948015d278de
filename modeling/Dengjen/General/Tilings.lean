import Dengjen.General.Spans

/-!
# Items side by side

Items that are placed one behind the other tile the positions they reach over, and
the slots of these name the item over each of them.
-/

namespace Dengjen.Spans

variable {β : Type*} {first past : β → Nat}

/-- Each item begins where the one before it ends. -/
inductive Tiles (first past : β → Nat) : Nat → List β → Nat → Prop
  | nil {pos} : Tiles first past pos [] pos
  | cons {item items stop} (hle : first item ≤ past item)
      (tail : Tiles first past (past item) items stop) :
      Tiles first past (first item) (item :: items) stop

namespace Tiles

variable {start stop : Nat} {items : List β}

theorem le (h : Tiles first past start items stop) : start ≤ stop := by
  induction h with
  | nil => exact Nat.le_refl _
  | cons hle _ ih => exact Nat.le_trans hle ih

theorem bounds (h : Tiles first past start items stop) :
    ∀ item ∈ items, start ≤ first item ∧ past item ≤ stop := by
  induction h with
  | nil => exact nofun
  | @cons item items stop hle tail ih =>
      refine List.forall_mem_cons.mpr ⟨⟨Nat.le_refl _, tail.le⟩, fun later hlater => ?_⟩
      exact (ih later hlater).imp_left (Nat.le_trans hle)

theorem pairwise (h : Tiles first past start items stop) :
    items.Pairwise fun a b => past a ≤ first b := by
  induction h with
  | nil => exact .nil
  | cons hle tail ih => exact List.pairwise_cons.mpr ⟨fun b hb => (tail.bounds b hb).1, ih⟩

/-- The positions from the start to the stop are those that an item is over. -/
theorem exists_iff (h : Tiles first past start items stop) (pos : Nat) :
    (∃ item ∈ items, first item ≤ pos ∧ pos < past item) ↔ start ≤ pos ∧ pos < stop := by
  induction h with
  | nil =>
      simp only [List.not_mem_nil, false_and, exists_false, false_iff]
      omega
  | @cons item items stop hle tail ih =>
      have hstop := tail.le
      simp only [List.mem_cons, or_and_right, exists_or, exists_eq_left, ih]
      omega

theorem append {middle : Nat} {items' : List β} (h : Tiles first past start items middle)
    (h' : Tiles first past middle items' stop) : Tiles first past start (items ++ items') stop := by
  induction h with
  | nil => exact h'
  | cons hle _ ih => exact .cons hle (ih h')

end Tiles

theorem getElem?_concat_eq_some_iff {items : List β} {item item' : β} {number : Nat} :
    (items ++ [item])[number]? = some item' ↔
      items[number]? = some item' ∨ (number = items.length ∧ item = item') := by
  rw [List.getElem?_append]
  split
  · next hlt => simp [Nat.ne_of_lt hlt]
  · next hge =>
      rw [List.getElem?_eq_none (Nat.le_of_not_lt hge), List.getElem?_singleton]
      by_cases hlast : number = items.length
      · simp [hlast]
      · simp [hlast, show number - items.length ≠ 0 by omega]

/-- The items end before `reach`, and a slot names an item exactly when it is over its position. -/
structure Indexed (first past : β → Nat) (reach : Nat) (placed : List β × List (Option Nat)) :
    Prop where
  slot : ∀ pos number, placed.2[pos]? = some (some number) ↔
    pos < placed.2.length ∧
      ∃ item, placed.1[number]? = some item ∧ first item ≤ pos ∧ pos < past item
  reached : ∀ item ∈ placed.1, past item ≤ reach

namespace Indexed

variable {reach reach' : Nat} {placed : List β × List (Option Nat)} {item : β}

theorem replicate (first past : β → Nat) (length : Nat) :
    Indexed first past 0 ([], List.replicate length none) where
  slot pos number := by simp [List.getElem?_replicate]
  reached := nofun

theorem mono (h : Indexed first past reach placed) (hle : reach ≤ reach') :
    Indexed first past reach' placed where
  slot := h.slot
  reached item hitem := Nat.le_trans (h.reached item hitem) hle

/-- An item behind all others. -/
theorem place (h : Indexed first past (first item) placed) (hle : first item ≤ past item)
    (hlength : past item ≤ placed.2.length) :
    Indexed first past (past item) (place placed item (first item) (past item)) where
  slot pos number := by
    have hbehind : ∀ item', placed.1[number]? = some item' → past item' ≤ first item :=
      fun item' hitem' => h.reached item' (List.mem_of_getElem? hitem')
    simp only [Spans.place, length_fill, getElem?_concat_eq_some_iff]
    by_cases hpos : first item ≤ pos ∧ pos < past item
    · rw [getElem?_fill_inside _ _ hpos.1 hpos.2 (by omega), Option.some.injEq, Option.some.injEq]
      constructor
      · rintro rfl
        exact ⟨by omega, item, .inr ⟨rfl, rfl⟩, hpos⟩
      · rintro ⟨-, item', hitem' | ⟨rfl, rfl⟩, hstart, hstop⟩
        · have hle' := hbehind item' hitem'
          omega
        · rfl
    · rw [getElem?_fill_outside _ _ (by omega), h.slot]
      refine and_congr_right fun _ => exists_congr fun item' => and_congr_left fun hover => ?_
      refine ⟨.inl, fun hitem' => hitem'.resolve_right ?_⟩
      rintro ⟨-, rfl⟩
      exact hpos hover
  reached := by
    rw [Spans.place, List.forall_mem_append, List.forall_mem_singleton]
    exact ⟨fun earlier hearlier => Nat.le_trans (h.reached earlier hearlier) hle, Nat.le_refl _⟩

end Indexed

end Dengjen.Spans

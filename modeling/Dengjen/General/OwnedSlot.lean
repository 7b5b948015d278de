import Mathlib.Data.List.Basic
import Mathlib.Logic.Function.Basic

/-!
# A slot for the latest owner

Owners put tokens into a slot that they share. Each of them takes its own token out
again when it leaves, if it is still there. Tokens that are held are distinct, so the
slot has the token of the latest owner as long as that owner holds it, and is empty
from then on.
-/

namespace Dengjen.OwnedSlot

variable {ι τ : Type*} {held : ι → Option τ} {latest : Option ι} {slot : Option τ} {owner : ι}
  {token : τ}

/-- No two owners hold one token. -/
def Distinct (held : ι → Option τ) : Prop :=
  ∀ i j token, held i = some token → held j = some token → i = j

/-- The slot has what the latest owner holds. -/
def Owned (held : ι → Option τ) (latest : Option ι) (slot : Option τ) : Prop :=
  slot = latest.bind held

theorem Owned.exists_owner (h : Owned held latest slot) (hslot : slot = some token) :
    ∃ owner, latest = some owner ∧ held owner = some token := by
  rwa [h, Option.bind_eq_some_iff] at hslot

theorem Owned.owner_eq (h : Owned held latest slot) (hdistinct : Distinct held)
    (hheld : held owner = some token) (hslot : slot = some token) : latest = some owner := by
  obtain ⟨i, hlatest, hi⟩ := h.exists_owner hslot
  rw [hlatest, hdistinct i owner token hi hheld]

section Retract

variable [DecidableEq τ]

/-- Take a token out, if it is still there. -/
def retract (slot : Option τ) (token : τ) : Option τ := if slot = some token then none else slot

theorem retract_of_ne (h : slot ≠ some token) : retract slot token = slot := if_neg h

end Retract

/-! ### Owners in a list -/

section Listed

variable {owners : List ι} {owner₀ : ι} {i : Nat}

theorem bind_getElem?_set (hi : owners[i]? = some owner₀) (owner : ι) (f : ι → Option τ) :
    (fun j => (owners.set i owner)[j]?.bind f) =
      Function.update (fun j => owners[j]?.bind f) i (f owner) := by
  ext1 j
  rw [Function.update_apply]
  split
  · next hj =>
      rw [hj, List.getElem?_set_self (List.getElem?_eq_some_iff.mp hi).1, Option.bind_some]
  · next hj => rw [List.getElem?_set_ne (Ne.symm hj)]

theorem bind_getElem?_concat (owners : List ι) (owner : ι) (f : ι → Option τ) :
    (fun j => (owners ++ [owner])[j]?.bind f) =
      Function.update (fun j => owners[j]?.bind f) owners.length (f owner) := by
  ext1 j
  rw [Function.update_apply]
  split
  · next hj => rw [hj, List.getElem?_concat_length, Option.bind_some]
  · next hj =>
      rcases Nat.lt_or_gt_of_ne hj with hlt | hgt
      · rw [List.getElem?_append_left hlt]
      · rw [List.getElem?_eq_none (List.length_append ▸ hgt),
          List.getElem?_eq_none (Nat.le_of_lt hgt)]

end Listed

/-! ### Publishing and retracting -/

variable [DecidableEq ι]

theorem Owned.publish (held : ι → Option τ) (owner : ι) (token : τ) :
    Owned (Function.update held owner (some token)) (some owner) (some token) := by
  rw [Owned, Option.bind_some, Function.update_self]

/-- An owner that leaves empties the slot if it is the latest one, and leaves it alone if not. -/
theorem Owned.retract [DecidableEq τ] (h : Owned held latest slot) (hdistinct : Distinct held)
    (hheld : held owner = some token) :
    Owned (Function.update held owner none) latest (retract slot token) := by
  by_cases hslot : slot = some token
  · rw [h.owner_eq hdistinct hheld hslot, Owned, OwnedSlot.retract, if_pos hslot, Option.bind_some,
      Function.update_self]
  · have hne : latest ≠ some owner := by
      rintro rfl
      exact hslot (h.trans hheld)
    rw [Owned, retract_of_ne hslot, h]
    cases latest with
    | none => rfl
    | some i =>
        rw [Option.bind_some, Option.bind_some, Function.update_of_ne]
        exact fun heq => hne (congrArg some heq)

theorem Distinct.retract (h : Distinct held) (owner : ι) :
    Distinct (Function.update held owner none) := by
  intro i j token hi hj
  rw [Function.update_apply] at hi hj
  split at hi
  · cases hi
  · split at hj
    · cases hj
    · exact h i j token hi hj

theorem Distinct.publish (h : Distinct held) (hfresh : ∀ i, held i ≠ some token) (owner : ι) :
    Distinct (Function.update held owner (some token)) := by
  intro i j token' hi hj
  rw [Function.update_apply] at hi hj
  split at hi <;> split at hj
  · next hi' hj' => rw [hi', hj']
  · cases hi
    exact absurd hj (hfresh j)
  · cases hj
    exact absurd hi (hfresh i)
  · exact h i j token' hi hj

end Dengjen.OwnedSlot

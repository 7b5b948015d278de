import Mathlib.Data.List.Forall2

/-!
# Lists that are gone through until the first error

`mapM` gives the values of all elements, or the error of the first that has none. The
values that are not wanted may be left out before or after.
-/

namespace Dengjen

variable {ε α β : Type*} {f : α → Except ε β} {xs : List α} {ys : List β} {error : ε}

theorem mapM_cons_error {x : α} (hx : f x = .error error) (xs : List α) :
    (x :: xs).mapM f = .error error := by
  rw [List.mapM_cons, hx]
  rfl

theorem mapM_cons_ok {x : α} {y : β} (hx : f x = .ok y) (xs : List α) :
    (x :: xs).mapM f = (xs.mapM f).map fun ys => y :: ys := by
  rw [List.mapM_cons, hx]
  rfl

/-- Every element has a value, and these are the values. -/
theorem mapM_eq_ok_iff : xs.mapM f = .ok ys ↔ List.Forall₂ (fun x y => f x = .ok y) xs ys := by
  induction xs generalizing ys with
  | nil =>
      rw [List.forall₂_nil_left_iff]
      constructor
      · intro h
        cases h
        rfl
      · rintro rfl
        rfl
  | cons x xs ih =>
      rw [List.forall₂_cons_left_iff]
      cases hx : f x with
      | error error => simp [mapM_cons_error hx]
      | ok y =>
          rw [mapM_cons_ok hx]
          constructor
          · intro h
            cases hxs : xs.mapM f with
            | error error =>
                rw [hxs] at h
                cases h
            | ok rest =>
                rw [hxs] at h
                cases h
                exact ⟨y, rest, rfl, ih.mp hxs, rfl⟩
          · rintro ⟨_, rest, hy, hrest, rfl⟩
            cases hy
            rw [ih.mpr hrest]
            rfl

/-- The error is that of the first element without a value. -/
theorem mapM_eq_error_iff : xs.mapM f = .error error ↔
    ∃ before x after, xs = before ++ x :: after ∧ (∀ a ∈ before, ∃ b, f a = .ok b) ∧
      f x = .error error := by
  induction xs with
  | nil =>
      constructor
      · intro h
        cases h
      · rintro ⟨before, x, after, heq, -⟩
        exact absurd heq.symm (by simp)
  | cons x xs ih =>
      cases hx : f x with
      | error first =>
          rw [mapM_cons_error hx]
          constructor
          · intro h
            cases h
            exact ⟨[], x, xs, rfl, List.forall_mem_nil _, hx⟩
          · rintro ⟨before, failing, after, heq, hbefore, hfailing⟩
            cases before with
            | nil =>
                obtain ⟨rfl, -⟩ := List.cons.inj heq
                exact congrArg Except.error (Except.error.inj (hx.symm.trans hfailing))
            | cons _ before =>
                obtain ⟨rfl, -⟩ := List.cons.inj heq
                obtain ⟨y, hy⟩ := hbefore x List.mem_cons_self
                rw [hx] at hy
                cases hy
      | ok y =>
          have htail : (x :: xs).mapM f = .error error ↔ xs.mapM f = .error error := by
            rw [mapM_cons_ok hx]
            cases xs.mapM f <;> simp [Except.map]
          rw [htail, ih]
          constructor
          · rintro ⟨before, failing, after, rfl, hbefore, hfailing⟩
            exact ⟨x :: before, failing, after, rfl, List.forall_mem_cons.mpr ⟨⟨y, hx⟩, hbefore⟩,
              hfailing⟩
          · rintro ⟨before, failing, after, heq, hbefore, hfailing⟩
            cases before with
            | nil =>
                obtain ⟨rfl, -⟩ := List.cons.inj heq
                rw [hx] at hfailing
                cases hfailing
            | cons _ before =>
                exact ⟨before, failing, after, (List.cons.inj heq).2,
                  (List.forall_mem_cons.mp hbefore).2, hfailing⟩

/-- Values may be left out before the errors are looked for. -/
theorem mapM_id_filter {wanted : β → Bool} {keeps : Except ε β → Bool}
    (hok : ∀ y, keeps (.ok y) = wanted y) (herror : ∀ error, keeps (.error error) = true)
    (xs : List α) :
    ((xs.map f).filter keeps).mapM id = (xs.mapM f).map fun ys => ys.filter wanted := by
  induction xs with
  | nil => rfl
  | cons x xs ih =>
      rw [List.map_cons]
      cases hx : f x with
      | error error =>
          have hid : id (Except.error error : Except ε β) = .error error := rfl
          rw [List.filter_cons_of_pos (herror error), mapM_cons_error hid, mapM_cons_error hx]
          rfl
      | ok y =>
          have hid : id (Except.ok y : Except ε β) = .ok y := rfl
          rw [mapM_cons_ok hx]
          by_cases hy : wanted y
          · rw [List.filter_cons_of_pos ((hok y).trans hy), mapM_cons_ok hid, ih]
            cases xs.mapM f with
            | error error => rfl
            | ok ys => exact congrArg Except.ok (List.filter_cons_of_pos hy).symm
          · rw [List.filter_cons_of_neg (by rwa [hok]), ih]
            cases xs.mapM f with
            | error error => rfl
            | ok ys => exact congrArg Except.ok (List.filter_cons_of_neg hy).symm

/-- What is related to one of a list of related elements. -/
theorem exists_of_forall₂ {rel : α → β → Prop} {y : β} (h : List.Forall₂ rel xs ys) (hy : y ∈ ys) :
    ∃ x ∈ xs, rel x y := by
  induction h with
  | nil => cases hy
  | cons hxy _ ih =>
      rcases List.mem_cons.mp hy with rfl | hrest
      · exact ⟨_, List.mem_cons_self, hxy⟩
      · obtain ⟨x, hx, hrel⟩ := ih hrest
        exact ⟨x, List.mem_cons_of_mem _ hx, hrel⟩

end Dengjen

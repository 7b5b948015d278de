import Mathlib.Data.List.Basic

/-!
# Results up to the first error

A loop over results that stops at an error makes something of the values before the
first error, and of how they end.
-/

namespace FirstError

variable {ε α β ω σ : Type*}

/-- The values before the first error, and that error. -/
def upToError : List (Except ε α) → List α × Option ε
  | [] => ([], none)
  | .ok value :: rest => (value :: (upToError rest).1, (upToError rest).2)
  | .error error :: _ => ([], some error)

theorem upToError_ok (value : α) (rest : List (Except ε α)) :
    upToError (.ok value :: rest) = (value :: (upToError rest).1, (upToError rest).2) := rfl

/-- A loop that puts out something for each value and for the end, whatever state it keeps. -/
theorem loop_eq (loop : σ → List (Except ε α) → List ω) (out : α → ω) (ending : Option ε → List ω)
    (hnil : ∀ s, loop s [] = ending none)
    (hok : ∀ s value rest, ∃ s', loop s (.ok value :: rest) = out value :: loop s' rest)
    (herror : ∀ s error rest, loop s (.error error :: rest) = ending (some error))
    (s : σ) (results : List (Except ε α)) :
    loop s results = (upToError results).1.map out ++ ending (upToError results).2 := by
  induction results generalizing s with
  | nil => exact hnil s
  | cons result rest ih =>
      cases result with
      | error error => exact herror s error rest
      | ok value =>
          obtain ⟨s', hs'⟩ := hok s value rest
          rw [hs', ih s']
          rfl

/-- Collecting the results gives all values, or the first error. -/
theorem mapM_id_eq (results : List (Except ε α)) :
    results.mapM id = (upToError results).2.elim (.ok (upToError results).1) .error := by
  induction results with
  | nil => rfl
  | cons result rest ih =>
      rw [List.mapM_cons, ih]
      cases result with
      | error error => rfl
      | ok value =>
          rw [upToError_ok]
          cases (upToError rest).2 with
          | none => rfl
          | some error => rfl

theorem upToError_map (f : α → β) (results : List (Except ε α)) :
    upToError (results.map (Except.map f)) =
      ((upToError results).1.map f, (upToError results).2) := by
  induction results with
  | nil => rfl
  | cons result rest ih =>
      cases result with
      | error error => rfl
      | ok value =>
          rw [List.map_cons, Except.map, upToError_ok, ih]
          rfl

end FirstError

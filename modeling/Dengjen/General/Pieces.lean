import Mathlib.Data.List.Basic

/-!
# Lists cut into pieces

Pieces are cut off the front of a list by a rule that sees all that is left,
until what is left is short enough to be the last piece.
-/

namespace Dengjen

variable {α : Type*}

/-- The rule says which pieces may be cut off what is left. -/
inductive Pieces (cut : List α → List α → Prop) (short : List α → Prop) :
    List α → List (List α) → Prop
  | last {rest} (h : short rest) : Pieces cut short rest [rest]
  | cons {piece rest pieces} (h : cut (piece ++ rest) piece) (tail : Pieces cut short rest pieces) :
      Pieces cut short (piece ++ rest) (piece :: pieces)

namespace Pieces

variable {cut : List α → List α → Prop} {short : List α → Prop} {all : List α}
  {pieces : List (List α)}

theorem flatten_eq (h : Pieces cut short all pieces) : pieces.flatten = all := by
  induction h with
  | last _ => exact List.flatten_singleton
  | cons _ _ ih => rw [List.flatten_cons, ih]

theorem ne_nil (h : Pieces cut short all pieces) : pieces ≠ [] := by
  cases h with
  | last _ => exact List.cons_ne_nil _ _
  | cons _ _ => exact List.cons_ne_nil _ _

/-- What is true of every piece that is cut off and of every short rest is true of all pieces. -/
theorem forall_mem (h : Pieces cut short all pieces) {p : List α → Prop}
    (hcut : ∀ rest piece, cut rest piece → p piece) (hshort : ∀ rest, short rest → p rest) :
    ∀ piece ∈ pieces, p piece := by
  induction h with
  | last h => exact List.forall_mem_singleton.mpr (hshort _ h)
  | cons h _ ih => exact List.forall_mem_cons.mpr ⟨hcut _ _ h, ih⟩

/-- Every piece but the last is cut off what is left from it on. -/
theorem cut_of_append (h : Pieces cut short all pieces) {before after : List (List α)}
    {piece : List α} (heq : pieces = before ++ piece :: after) (hafter : after ≠ []) :
    cut (piece :: after).flatten piece := by
  induction h generalizing before with
  | last _ =>
      cases before with
      | nil =>
          obtain ⟨-, rfl⟩ := List.cons.inj heq
          exact absurd rfl hafter
      | cons first before => exact absurd (List.cons.inj heq).2.symm (by simp)
  | cons h tail ih =>
      cases before with
      | nil =>
          obtain ⟨rfl, rfl⟩ := List.cons.inj heq
          rwa [List.flatten_cons, tail.flatten_eq]
      | cons first before => exact ih (List.cons.inj heq).2

end Pieces

end Dengjen

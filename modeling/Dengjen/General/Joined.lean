import Mathlib.Data.List.Basic
import Mathlib.Data.List.Chain

/-!
# Parts joined by a separator

A text is spaced when its separators are inside it and no two of them are neighbours.
Parts without separators make a spaced text exactly when none of them is empty, or
when there is at most one.
-/

namespace Joined

variable {α : Type*} {sep : α} {part rest text : List α} {parts : List (List α)}

/-- No separator at either end, and no two in a row. -/
structure Spaced (sep : α) (text : List α) : Prop where
  head : text.head? ≠ some sep
  last : text.getLast? ≠ some sep
  apart : text.IsChain fun a b => ¬ (a = sep ∧ b = sep)

theorem Spaced.of_notMem (h : sep ∉ text) : Spaced sep text where
  head heq := h (List.mem_of_mem_head? heq)
  last heq := h (List.mem_of_getLast? heq)
  apart := by
    induction text with
    | nil => exact .nil
    | cons a rest ih =>
        rw [List.mem_cons, not_or] at h
        cases rest with
        | nil => exact .singleton a
        | cons b rest => exact .cons_cons (fun hab => h.1 hab.1.symm) (ih h.2)

/-- A part and a separator before a text. -/
theorem spaced_append_cons_iff (hpart : sep ∉ part) :
    Spaced sep (part ++ sep :: rest) ↔ part ≠ [] ∧ rest ≠ [] ∧ Spaced sep rest := by
  constructor
  · intro h
    have hpart_ne : part ≠ [] := by
      rintro rfl
      exact h.head rfl
    have hrest_ne : rest ≠ [] := by
      rintro rfl
      exact h.last (by simp)
    obtain ⟨-, hchain, -⟩ := List.isChain_append.mp h.apart
    rw [List.isChain_cons] at hchain
    refine ⟨hpart_ne, hrest_ne, ?_, ?_, hchain.2⟩
    · intro hhead
      exact hchain.1 sep hhead ⟨rfl, rfl⟩
    · intro hlast
      apply h.last
      rw [List.getLast?_append, List.getLast?_cons, hlast]
      rfl
  · rintro ⟨hpart_ne, hrest_ne, hrest⟩
    have hspaced := Spaced.of_notMem hpart
    constructor
    · rw [List.head?_append_of_ne_nil _ hpart_ne]
      exact hspaced.head
    · rw [List.getLast?_append, List.getLast?_cons]
      cases hlast : rest.getLast? with
      | none => exact absurd (List.getLast?_eq_none_iff.mp hlast) hrest_ne
      | some a => simpa [hlast] using hrest.last
    · rw [List.isChain_append, List.isChain_cons]
      refine ⟨hspaced.apart, ⟨?_, hrest.apart⟩, ?_⟩
      · rintro b hb ⟨-, rfl⟩
        exact hrest.head hb
      · rintro a ha b - ⟨rfl, -⟩
        exact hspaced.last ha

theorem intercalate_cons_cons (part part' : List α) :
    [sep].intercalate (part :: part' :: parts) =
      part ++ sep :: [sep].intercalate (part' :: parts) := by
  simp [List.intercalate]

/-- Parts make a nonempty spaced text exactly when all of them are nonempty. -/
theorem spaced_intercalate_iff (hparts : ∀ part ∈ parts, sep ∉ part) (hne : parts ≠ []) :
    ([sep].intercalate parts ≠ [] ∧ Spaced sep ([sep].intercalate parts)) ↔
      ∀ part ∈ parts, part ≠ [] := by
  induction parts with
  | nil => exact absurd rfl hne
  | cons part rest ih =>
      rw [List.forall_mem_cons] at hparts
      cases rest with
      | nil =>
          have hspaced := Spaced.of_notMem hparts.1
          simp [List.intercalate, hspaced]
      | cons part' rest =>
          have hrest := ih hparts.2 (List.cons_ne_nil _ _)
          rw [intercalate_cons_cons, spaced_append_cons_iff hparts.1, hrest, List.forall_mem_cons]
          simp

end Joined

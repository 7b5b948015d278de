import Mathlib.Data.List.MinMax
import Mathlib.Data.Prod.Lex

/-!
# The last place of the greatest value

Where several places of a list have the greatest key, a search that lets a later one
win a tie ends at the last of them. It is the place with the greatest pair of its key
and its number.
-/

namespace Dengjen

variable {α β : Type*} [LinearOrder β]

/-- The last place whose key is the greatest. -/
def lastArgmax (key : α → β) (values : List α) : Option Nat :=
  (values.zipIdx.argmax fun entry => toLex (key entry.1, entry.2)).map Prod.snd

/-- No place has a greater key, and no later one has as great a key. -/
structure IsLastArgmax (key : α → β) (values : List α) (i : Nat) (a : α) : Prop where
  value : values[i]? = some a
  greatest : ∀ b ∈ values, key b ≤ key a
  last : ∀ j b, i < j → values[j]? = some b → key b < key a

variable {key : α → β} {values : List α} {i j : Nat} {a b : α}

@[simp] theorem lastArgmax_eq_none : lastArgmax key values = none ↔ values = [] := by
  simp [lastArgmax]

theorem isLastArgmax_of_lastArgmax (h : lastArgmax key values = some i) :
    ∃ a, IsLastArgmax key values i a := by
  rw [lastArgmax, Option.map_eq_some_iff] at h
  obtain ⟨⟨a, j⟩, hargmax, rfl⟩ := h
  have hmem := List.argmax_mem hargmax
  have hle : ∀ j' b, values[j']? = some b → key b < key a ∨ key b = key a ∧ j' ≤ j := by
    intro j' b hb
    have hentry : (b, j') ∈ values.zipIdx := List.mem_zipIdx_iff_getElem?.mpr hb
    exact Prod.Lex.toLex_le_toLex.mp (List.le_of_mem_argmax hentry hargmax)
  refine ⟨a, List.mem_zipIdx_iff_getElem?.mp hmem, ?_, ?_⟩
  · intro b hb
    obtain ⟨j', hj'⟩ := List.mem_iff_getElem?.mp hb
    rcases hle j' b hj' with hlt | ⟨heq, -⟩
    · exact le_of_lt hlt
    · exact le_of_eq heq
  · intro j' b hlt hb
    rcases hle j' b hb with hkey | ⟨-, hplace⟩
    · exact hkey
    · exact absurd hplace (Nat.not_le_of_lt hlt)

theorem exists_lastArgmax (key : α → β) (h : values ≠ []) :
    ∃ i a, lastArgmax key values = some i ∧ IsLastArgmax key values i a := by
  cases hi : lastArgmax key values with
  | none => exact absurd (lastArgmax_eq_none.mp hi) h
  | some i =>
      obtain ⟨a, ha⟩ := isLastArgmax_of_lastArgmax hi
      exact ⟨i, a, rfl, ha⟩

/-- There is no such place before another one. -/
theorem IsLastArgmax.not_lt (h : IsLastArgmax key values i a) (h' : IsLastArgmax key values j b) :
    ¬ i < j := by
  intro hlt
  have hgreatest := h'.greatest a (List.mem_of_getElem? h.value)
  exact absurd (h.last j b hlt h'.value) (not_lt_of_ge hgreatest)

theorem IsLastArgmax.lastArgmax_eq (h : IsLastArgmax key values i a) :
    lastArgmax key values = some i := by
  obtain ⟨j, b, hj, hlast⟩ :=
    exists_lastArgmax key (List.ne_nil_of_mem (List.mem_of_getElem? h.value))
  rw [hj, Nat.le_antisymm (Nat.le_of_not_lt (h.not_lt hlast)) (Nat.le_of_not_lt (hlast.not_lt h))]

end Dengjen

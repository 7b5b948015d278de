import Dengjen.General.GreedySegmentation

/-!
# Greedy token lookup

The search the three phoneme tokenizers share at one cursor position: of the
prefixes of the characters that are left, the longest one with an id. Each
tokenizer bounds the search by what it knows of the lengths of its keys; a bound
that no key exceeds does not change what is found.
-/

namespace Dengjen

open GreedySegmentation

/-- The width and the id of the longest prefix of at most `widest` characters with an id. -/
def longestMatch (idOf : String → Option Int) (widest : Nat) (chars : List Char) :
    Option (Nat × Int) :=
  (List.range' 1 widest).reverse.findSome? fun width =>
    (idOf (String.ofList (chars.take width))).map fun id => (width, id)

/-- The id of a piece of text. -/
def pieceId (idOf : String → Option Int) (piece : List Char) : Option Int :=
  idOf (String.ofList piece)

section Search

variable {idOf : String → Option Int} {chars : List Char}

/-- The search tries the widest prefix first. -/
theorem longestMatch_succ (widest : Nat) :
    longestMatch idOf (widest + 1) chars =
      ((pieceId idOf (chars.take (widest + 1))).map fun id => (widest + 1, id)).or
        (longestMatch idOf widest chars) := by
  have hpiece : idOf (String.ofList (chars.take (widest + 1))) =
      pieceId idOf (chars.take (widest + 1)) := rfl
  rw [longestMatch, List.range'_1_concat, List.reverse_append, List.reverse_singleton,
    List.singleton_append, List.findSome?_cons, Nat.add_comm 1 widest, hpiece]
  cases pieceId idOf (chars.take (widest + 1)) <;> rfl

/-- Nothing is found where no prefix has an id. -/
theorem longestMatch_of_unmatched (h : Unmatched (pieceId idOf) chars) {widest : Nat}
    (hwidest : widest ≤ chars.length) : longestMatch idOf widest chars = none := by
  induction widest with
  | zero => rfl
  | succ widest ih =>
      rw [longestMatch_succ, h _ (Nat.succ_pos _) hwidest, Option.map_none, Option.none_or]
      exact ih (Nat.le_of_succ_le hwidest)

/-- A bound that the longest prefix does not exceed finds it. -/
theorem longestMatch_of_longest {width : Nat} {id : Int}
    (h : Longest (pieceId idOf) chars width id) {widest : Nat} (hle : width ≤ widest)
    (hwidest : widest ≤ chars.length) : longestMatch idOf widest chars = some (width, id) := by
  induction widest with
  | zero => exact absurd h.pos (Nat.not_lt.mpr hle)
  | succ widest ih =>
      rw [longestMatch_succ]
      rcases Nat.lt_or_eq_of_le hle with hlt | rfl
      · rw [h.longest _ hlt hwidest, Option.map_none, Option.none_or]
        exact ih (Nat.le_of_lt_succ hlt) (Nat.le_of_succ_le hwidest)
      · rw [h.value, Option.map_some, Option.some_or]

end Search

end Dengjen

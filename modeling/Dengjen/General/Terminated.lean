import Mathlib.Data.List.Basic

/-!
# Lists cut after every terminator

A list is cut after each of its elements that end a group. What follows the last of
them is left over.
-/

namespace Dengjen

variable {α : Type*}

/-- The groups and the rest make up the list, every group has one terminator, at its end, and the
rest has none. -/
structure Terminated (ends : α → Prop) (all : List α) (groups : List (List α)) (rest : List α) :
    Prop where
  flatten_append : groups.flatten ++ rest = all
  group : ∀ group ∈ groups, ∃ body last, group = body ++ [last] ∧ ends last ∧
    ∀ a ∈ body, ¬ ends a
  rest : ∀ a ∈ rest, ¬ ends a

namespace Terminated

variable {ends : α → Prop} {all rest : List α} {groups : List (List α)} {a : α}

theorem nil (ends : α → Prop) : Terminated ends [] [] [] where
  flatten_append := rfl
  group := nofun
  rest := nofun

theorem push_end (h : Terminated ends all groups rest) (ha : ends a) :
    Terminated ends (all ++ [a]) (groups ++ [rest ++ [a]]) [] where
  flatten_append := by
    rw [List.flatten_concat, List.append_nil, ← List.append_assoc, h.flatten_append]
  group := by
    rw [List.forall_mem_append, List.forall_mem_singleton]
    exact ⟨h.group, rest, a, rfl, ha, h.rest⟩
  rest := nofun

theorem push (h : Terminated ends all groups rest) (ha : ¬ ends a) :
    Terminated ends (all ++ [a]) groups (rest ++ [a]) where
  flatten_append := by rw [← List.append_assoc, h.flatten_append]
  group := h.group
  rest := by
    rw [List.forall_mem_append, List.forall_mem_singleton]
    exact ⟨h.rest, ha⟩

/-- A map that is a sum over the elements is one over the groups and the rest. -/
theorem flatMap_eq {β : Type*} (h : Terminated ends all groups rest) (f : α → List β) :
    (groups.map (List.flatMap f)).flatten ++ rest.flatMap f = all.flatMap f := by
  have hgroups : (groups.map (List.flatMap f)).flatten = groups.flatten.flatMap f := by
    rw [List.flatMap_def, List.map_flatten, List.flatten_flatten, List.map_map]
    rfl
  rw [hgroups, ← List.flatMap_append, h.flatten_append]

theorem cons_end (h : Terminated ends all groups rest) (ha : ends a) :
    Terminated ends (a :: all) ([a] :: groups) rest where
  flatten_append := by
    rw [List.flatten_cons, List.append_assoc, h.flatten_append, List.singleton_append]
  group := List.forall_mem_cons.mpr ⟨⟨[], a, rfl, ha, nofun⟩, h.group⟩
  rest := h.rest

theorem cons_group {group : List α} (h : Terminated ends all (group :: groups) rest)
    (ha : ¬ ends a) : Terminated ends (a :: all) ((a :: group) :: groups) rest where
  flatten_append := congrArg (List.cons a) h.flatten_append
  group := by
    obtain ⟨⟨body, last, rfl, hlast, hbody⟩, hgroups⟩ := List.forall_mem_cons.mp h.group
    refine List.forall_mem_cons.mpr ⟨⟨a :: body, last, rfl, hlast, ?_⟩, hgroups⟩
    exact List.forall_mem_cons.mpr ⟨ha, hbody⟩
  rest := h.rest

theorem cons_rest (h : Terminated ends all [] rest) (ha : ¬ ends a) :
    Terminated ends (a :: all) [] (a :: rest) where
  flatten_append := congrArg (List.cons a) h.flatten_append
  group := nofun
  rest := List.forall_mem_cons.mpr ⟨ha, h.rest⟩

end Terminated

/-! ## The cut of a list -/

/-- A list cut behind each element that ends a part. What is left is a part too, unless it is
empty. -/
def splitInclusive (ends : α → Bool) : List α → List (List α)
  | [] => []
  | a :: rest =>
      if ends a then [a] :: splitInclusive ends rest
      else
        match splitInclusive ends rest with
        | [] => [[a]]
        | part :: parts => (a :: part) :: parts

theorem exists_terminated_splitInclusive (ends : α → Bool) (all : List α) :
    ∃ groups rest, Terminated (fun a => ends a) all groups rest ∧
      splitInclusive ends all = groups ++ if rest = [] then [] else [rest] := by
  induction all with
  | nil => exact ⟨[], [], .nil _, rfl⟩
  | cons a all ih =>
      obtain ⟨groups, rest, hterminated, hsplit⟩ := ih
      rw [splitInclusive]
      by_cases ha : ends a
      · exact ⟨[a] :: groups, rest, hterminated.cons_end ha, by rw [if_pos ha, hsplit]; rfl⟩
      · rw [if_neg ha, hsplit]
        cases groups with
        | cons group groups => exact ⟨_, rest, hterminated.cons_group ha, rfl⟩
        | nil =>
            refine ⟨[], a :: rest, hterminated.cons_rest ha, ?_⟩
            cases rest <;> rfl

end Dengjen

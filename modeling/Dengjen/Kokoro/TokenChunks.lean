import Dengjen.General.Pieces
import Dengjen.Kokoro.Voice
import Mathlib.Data.List.Basic

/-!
# Where token lists are cut

A token list that is too long for one inference is cut behind the last break of
each window, or at the end of the window when it has no break.
-/

namespace Dengjen.Kokoro

variable {maxLen : ℕ+} {breakId : Option Int} {tokens rest : List Int}

/-! ## The cut of one window -/

/-- The last place of a token in a list. -/
theorem exists_last_of_mem {token : Int} {window : List Int} (h : token ∈ window) :
    ∃ before after, window = before ++ token :: after ∧ token ∉ after := by
  obtain ⟨back, front, hreverse, hback⟩ := List.eq_append_cons_of_mem (List.mem_reverse.mpr h)
  refine ⟨front.reverse, back.reverse, ?_, by rwa [List.mem_reverse]⟩
  rw [← List.reverse_reverse window, hreverse]
  simp

theorem rposition_of_last {token : Int} {before after : List Int} (h : token ∉ after) :
    rposition token (before ++ token :: after) = some before.length := by
  have hreverse : (before ++ token :: after).reverse = after.reverse ++ token :: before.reverse := by
    simp
  have hidx : (before ++ token :: after).reverse.idxOf? token = some after.length := by
    rw [hreverse, List.idxOf?_eq_some_iff]
    refine ⟨by simp, by simp, ?_⟩
    intro position hposition
    have hlt : position < after.reverse.length := by simpa using hposition
    rw [List.getElem_append_left hlt]
    intro heq
    exact h (List.mem_reverse.mp (heq ▸ List.getElem_mem hlt))
  rw [rposition, hidx, Option.map_some, List.length_append, List.length_cons]
  congr 1
  omega

theorem rposition_of_notMem {token : Int} {window : List Int} (h : token ∉ window) :
    rposition token window = none := by
  have hnone : window.reverse.idxOf? token = none := by
    rw [List.idxOf?_eq_none_iff, List.mem_reverse]
    exact h
  rw [rposition, hnone, Option.map_none]

/-- A chunk of what is left: up to the last break of its window, or the whole window when it has
none. -/
inductive IsCut (maxLen : ℕ+) (breakId : Option Int) (rest : List Int) : List Int → Prop
  | behindBreak {id before after} (hid : breakId = some id)
      (hwindow : rest.take maxLen = before ++ id :: after) (hlast : id ∉ after) :
      IsCut maxLen breakId rest (before ++ [id])
  | full {window} (hnone : ∀ id ∈ breakId, id ∉ window) (hwindow : rest.take maxLen = window)
      (hlength : window.length = maxLen) : IsCut maxLen breakId rest window

namespace IsCut

variable {chunk : List Int}

theorem ne_nil (h : IsCut maxLen breakId rest chunk) : chunk ≠ [] := by
  cases h with
  | behindBreak => simp
  | full _ _ hlength =>
      apply List.ne_nil_of_length_pos
      rw [hlength]
      exact maxLen.pos

theorem length_le (h : IsCut maxLen breakId rest chunk) : chunk.length ≤ maxLen := by
  cases h with
  | @behindBreak id before after hid hwindow _ =>
      have hlength := congrArg List.length hwindow
      have htake := List.length_take_le (maxLen : Nat) rest
      rw [hlength] at htake
      simp only [List.length_append, List.length_cons, List.length_nil] at htake ⊢
      omega
  | full _ _ hlength => exact hlength.le

end IsCut

/-- The loop cuts where it should. -/
theorem isCut_take_chunkCut (breakId : Option Int) (hlong : (maxLen : Nat) < rest.length) :
    IsCut maxLen breakId rest (rest.take (chunkCut maxLen breakId rest)) := by
  have hlength : (rest.take maxLen).length = maxLen := List.length_take_of_le hlong.le
  by_cases hbreak : ∃ id ∈ breakId, id ∈ rest.take maxLen
  · obtain ⟨id, hid, hmem⟩ := hbreak
    obtain ⟨before, after, hwindow, hlast⟩ := exists_last_of_mem hmem
    have hcut : chunkCut maxLen breakId rest = before.length + 1 := by
      rw [chunkCut, Option.mem_def.mp hid, Option.bind_some, hwindow, rposition_of_last hlast]
    have hle : before.length + 1 ≤ maxLen := by
      rw [← hlength, hwindow, List.length_append, List.length_cons]
      omega
    have htake : rest.take (before.length + 1) = before ++ [id] := by
      rw [← Nat.min_eq_left hle, ← List.take_take, hwindow, List.append_cons]
      exact List.take_left' (by simp)
    rw [hcut, htake]
    exact .behindBreak hid hwindow hlast
  · have hnone : ∀ id ∈ breakId, id ∉ rest.take maxLen := fun id hid hmem => hbreak ⟨id, hid, hmem⟩
    have hcut : chunkCut maxLen breakId rest = maxLen := by
      rw [chunkCut]
      cases hid : breakId with
      | none => rfl
      | some id => rw [Option.bind_some, rposition_of_notMem (hnone id hid)]
    rw [hcut]
    exact .full hnone rfl hlength

/-! ## All chunks -/

theorem pieces_splitTokens (tokens : List Int) (maxLen : ℕ+) (breakId : Option Int) :
    Pieces (IsCut maxLen breakId) (fun rest => rest.length ≤ maxLen) tokens
      (splitTokens tokens maxLen breakId) := by
  induction tokens using splitTokens.induct maxLen breakId with
  | case1 rest hlong cut ih =>
      have hcut := isCut_take_chunkCut breakId hlong
      rw [splitTokens, if_pos hlong]
      nth_rewrite 1 [← List.take_append_drop cut rest]
      refine .cons ?_ ih
      rwa [List.take_append_drop]
  | case2 rest hshort =>
      rw [splitTokens, if_neg hshort]
      exact .last (Nat.not_lt.mp hshort)

/-- Chunks that keep the token list and are cut where they should be. -/
structure WellCut (tokens : List Int) (maxLen : ℕ+) (breakId : Option Int)
    (chunks : List (List Int)) : Prop where
  flatten_eq : chunks.flatten = tokens
  length_le : ∀ chunk ∈ chunks, chunk.length ≤ maxLen
  ne_nil : tokens ≠ [] → ∀ chunk ∈ chunks, chunk ≠ []
  isCut : ∀ before chunk after, chunks = before ++ chunk :: after → after ≠ [] →
    IsCut maxLen breakId (chunk :: after).flatten chunk

/-- A chunk is cut off a longer rest, so that something is left for the next one. -/
theorem ne_nil_of_mem_splitTokens (h : tokens ≠ []) (maxLen : ℕ+) (breakId : Option Int) :
    ∀ chunk ∈ splitTokens tokens maxLen breakId, chunk ≠ [] := by
  induction tokens using splitTokens.induct maxLen breakId with
  | case1 rest hlong cut ih =>
      have hcut := isCut_take_chunkCut breakId hlong
      have hdrop : rest.drop cut ≠ [] := by
        have hle := hcut.length_le
        rw [List.length_take] at hle
        apply List.ne_nil_of_length_pos
        rw [List.length_drop]
        omega
      rw [splitTokens, if_pos hlong, List.forall_mem_cons]
      exact ⟨hcut.ne_nil, ih hdrop⟩
  | case2 rest hshort =>
      rw [splitTokens, if_neg hshort, List.forall_mem_singleton]
      exact h

/-- Tokens are never lost or reordered, and a chunk ends early only behind a break. -/
theorem wellCut_splitTokens (tokens : List Int) (maxLen : ℕ+) (breakId : Option Int) :
    WellCut tokens maxLen breakId (splitTokens tokens maxLen breakId) := by
  have hpieces := pieces_splitTokens tokens maxLen breakId
  constructor
  · exact hpieces.flatten_eq
  · exact hpieces.forall_mem (fun _ _ hcut => hcut.length_le) fun _ => id
  · exact fun h => ne_nil_of_mem_splitTokens h maxLen breakId
  · intro before chunk after heq hafter
    exact hpieces.cut_of_append heq hafter

end Dengjen.Kokoro

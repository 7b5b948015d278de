import Mathlib.Data.List.Basic

/-!
# Spans between delimiters

A span goes from an opening delimiter to the nearest closing one behind it. The spans of
a text are taken from left to right, each from behind the one before; an opening
delimiter with no closing one behind it starts none.
-/

namespace Dengjen.Delimited

variable {α : Type*}

/-- The text without its spans. -/
inductive Stripped (opening closing : α) : List α → List α → Prop
  | plain (text) (h : opening ∉ text) : Stripped opening closing text text
  | unclosed (front back) (hfront : opening ∉ front) (hback : closing ∉ back) :
      Stripped opening closing (front ++ opening :: back) (front ++ opening :: back)
  | span (front inner) {rest out} (hfront : opening ∉ front) (hinner : closing ∉ inner)
      (tail : Stripped opening closing rest out) :
      Stripped opening closing (front ++ opening :: (inner ++ closing :: rest)) (front ++ out)

variable {opening closing : α} {front text out : List α}

theorem exists_stripped (opening closing : α) (text : List α) :
    ∃ out, Stripped opening closing text out := by
  induction hn : text.length using Nat.strongRecOn generalizing text with
  | _ n ih =>
      by_cases hopening : opening ∈ text
      · obtain ⟨front, back, rfl, hfront⟩ := List.eq_append_cons_of_mem hopening
        by_cases hclosing : closing ∈ back
        · obtain ⟨inner, rest, rfl, hinner⟩ := List.eq_append_cons_of_mem hclosing
          have hlt : rest.length < n := by
            rw [← hn]
            simp
            omega
          obtain ⟨out, tail⟩ := ih rest.length hlt rest rfl
          exact ⟨front ++ out, .span front inner hfront hinner tail⟩
        · exact ⟨_, .unclosed front back hfront hclosing⟩
      · exact ⟨text, .plain text hopening⟩

theorem not_sublist_append (hfront : opening ∉ front) (h : ¬ [opening, closing].Sublist text) :
    ¬ [opening, closing].Sublist (front ++ text) := by
  rw [List.sublist_append_iff]
  rintro ⟨before, after, heq, hbefore, hafter⟩
  cases before with
  | nil => exact h (heq ▸ hafter)
  | cons a before =>
      obtain ⟨rfl, -⟩ := List.cons.inj heq
      exact hfront (hbefore.subset List.mem_cons_self)

theorem not_sublist_cons (h : closing ∉ text) : ¬ [opening, closing].Sublist (opening :: text) := by
  rw [List.cons_sublist_cons, List.singleton_sublist]
  exact h

namespace Stripped

/-- No closing delimiter is left behind an opening one. -/
theorem not_sublist (h : Stripped opening closing text out) :
    ¬ [opening, closing].Sublist out := by
  induction h with
  | plain text h => exact fun hsub => h (hsub.subset List.mem_cons_self)
  | unclosed front back hfront hback => exact not_sublist_append hfront (not_sublist_cons hback)
  | span front inner hfront hinner tail ih => exact not_sublist_append hfront ih

theorem of_not_sublist (h : ¬ [opening, closing].Sublist text) :
    Stripped opening closing text text := by
  by_cases hopening : opening ∈ text
  · obtain ⟨front, back, rfl, hfront⟩ := List.eq_append_cons_of_mem hopening
    refine .unclosed front back hfront fun hclosing => h ?_
    exact ((List.singleton_sublist.mpr hclosing).cons_cons opening).trans
      (List.sublist_append_right _ _)
  · exact .plain text hopening

/-- Other elements may be filtered out before or after. -/
theorem filter (h : Stripped opening closing text out) {p : α → Bool} (hopening : p opening)
    (hclosing : p closing) : Stripped opening closing (text.filter p) (out.filter p) := by
  have hnot : ∀ (a : α) {text : List α}, a ∉ text → a ∉ text.filter p :=
    fun a text h hmem => h (List.mem_of_mem_filter hmem)
  induction h with
  | plain text h => exact .plain _ (hnot opening h)
  | unclosed front back hfront hback =>
      rw [List.filter_append, List.filter_cons_of_pos hopening]
      exact .unclosed _ _ (hnot opening hfront) (hnot closing hback)
  | span front inner hfront hinner tail ih =>
      rw [List.filter_append, List.filter_append, List.filter_cons_of_pos hopening,
        List.filter_append, List.filter_cons_of_pos hclosing]
      exact .span _ _ (hnot opening hfront) (hnot closing hinner) ih

end Stripped

end Dengjen.Delimited

import Mathlib.Data.List.Basic
import Mathlib.Data.List.Chain
import Mathlib.Data.Nat.Find

/-!
# Greedy segmentation

A table gives a value to some pieces of text. The greedy segmentation takes at
each position the longest nonempty piece with a value, and skips one symbol
where no piece has one. It exists for every text and every table, and a loop
that finds the longest piece at each position emits exactly its values.
-/

namespace Dengjen.GreedySegmentation

variable {α β γ : Type*} {valueOf : List α → Option β} {text : List α}

/-- Of the nonempty prefixes with a value, the one of this width is the longest. -/
structure Longest (valueOf : List α → Option β) (text : List α) (width : Nat) (value : β) :
    Prop where
  pos : 0 < width
  le : width ≤ text.length
  value : valueOf (text.take width) = some value
  longest : ∀ wider, width < wider → wider ≤ text.length → valueOf (text.take wider) = none

/-- No nonempty prefix has a value. -/
def Unmatched (valueOf : List α → Option β) (text : List α) : Prop :=
  ∀ width, 0 < width → width ≤ text.length → valueOf (text.take width) = none

/-- The pieces of the greedy segmentation of a text, with their values. -/
inductive Segments (valueOf : List α → Option β) : List α → List (List α × β) → Prop
  | nil : Segments valueOf [] []
  | skip {current rest segments} (h : Unmatched valueOf (current :: rest))
      (tail : Segments valueOf rest segments) : Segments valueOf (current :: rest) segments
  | piece {text width value segments} (h : Longest valueOf text width value)
      (tail : Segments valueOf (text.drop width) segments) :
      Segments valueOf text ((text.take width, value) :: segments)

theorem Longest.unique {width width' : Nat} {value value' : β}
    (h : Longest valueOf text width value) (h' : Longest valueOf text width' value') :
    width = width' ∧ value = value' := by
  have hwidth : width = width' := by
    rcases Nat.lt_trichotomy width width' with hlt | heq | hlt
    · have hnone := h.longest width' hlt h'.le
      rw [h'.value] at hnone
      cases hnone
    · exact heq
    · have hnone := h'.longest width hlt h.le
      rw [h.value] at hnone
      cases hnone
  subst hwidth
  exact ⟨rfl, Option.some.inj (h.value.symm.trans h'.value)⟩

theorem Longest.not_unmatched {width : Nat} {value : β} (h : Longest valueOf text width value) :
    ¬ Unmatched valueOf text := by
  intro hnone
  have hvalue := h.value
  rw [hnone width h.pos h.le] at hvalue
  cases hvalue

theorem Longest.ne_nil {width : Nat} {value : β} (h : Longest valueOf text width value) :
    text ≠ [] := by
  rintro rfl
  exact absurd h.pos (Nat.not_lt.mpr h.le)

/-- A text with a piece at its start has a longest one. -/
theorem exists_longest (h : ¬ Unmatched valueOf text) :
    ∃ width value, Longest valueOf text width value := by
  classical
  simp only [Unmatched, not_forall] at h
  obtain ⟨matched, hpos, hle, hne⟩ := h
  have hmatched : 0 < matched ∧ valueOf (text.take matched) ≠ none := ⟨hpos, hne⟩
  -- The widest prefix with a value is found below the length of the text.
  obtain ⟨hwidth, hvalue⟩ := Nat.findGreatest_spec
    (P := fun width => 0 < width ∧ valueOf (text.take width) ≠ none) hle hmatched
  obtain ⟨value, hvalue⟩ := Option.ne_none_iff_exists'.mp hvalue
  refine ⟨_, value, hwidth, Nat.findGreatest_le _, hvalue, ?_⟩
  intro wider hlt hwider
  have hnot := Nat.findGreatest_is_greatest hlt hwider
  rw [not_and, not_not] at hnot
  exact hnot (Nat.zero_lt_of_lt hlt)

theorem exists_segments (valueOf : List α → Option β) (text : List α) :
    ∃ segments, Segments valueOf text segments := by
  induction hlength : text.length using Nat.strong_induction_on generalizing text with
  | _ length ih =>
      cases text with
      | nil => exact ⟨[], .nil⟩
      | cons current rest =>
          by_cases h : Unmatched valueOf (current :: rest)
          · obtain ⟨segments, hsegments⟩ :=
              ih rest.length (hlength ▸ Nat.lt_succ_self _) rest rfl
            exact ⟨segments, .skip h hsegments⟩
          · obtain ⟨width, value, hlongest⟩ := exists_longest h
            have hdrop : ((current :: rest).drop width).length < length := by
              have hpos := hlongest.pos
              rw [List.length_drop, hlength]
              have : 0 < length := hlength ▸ Nat.succ_pos _
              omega
            obtain ⟨segments, hsegments⟩ := ih _ hdrop _ rfl
            exact ⟨_, .piece hlongest hsegments⟩

/-- A text has one segmentation. -/
theorem Segments.unique {segments segments' : List (List α × β)}
    (h : Segments valueOf text segments) (h' : Segments valueOf text segments') :
    segments = segments' := by
  induction h generalizing segments' with
  | nil =>
      cases h' with
      | nil => rfl
      | piece hlongest => exact absurd rfl hlongest.ne_nil
  | skip hnone _ ih =>
      cases h' with
      | skip _ tail => exact ih tail
      | piece hlongest => exact absurd hnone hlongest.not_unmatched
  | piece hlongest _ ih =>
      cases h' with
      | nil => exact absurd rfl hlongest.ne_nil
      | skip hnone => exact absurd hnone hlongest.not_unmatched
      | piece hlongest' tail =>
          obtain ⟨rfl, rfl⟩ := hlongest.unique hlongest'
          rw [ih tail]

/-- Each piece is nonempty and has its value. -/
theorem Segments.value_of_mem {segments : List (List α × β)} (h : Segments valueOf text segments)
    {segment : List α × β} (hmem : segment ∈ segments) : valueOf segment.1 = some segment.2 := by
  induction h with
  | nil => cases hmem
  | skip _ _ ih => exact ih hmem
  | piece hlongest _ ih =>
      rcases List.mem_cons.mp hmem with rfl | htail
      · exact hlongest.value
      · exact ih htail

/-- A loop over a text with the number of symbols that its last piece still covers: at a
position that none covers it emits what belongs to the longest piece there, if any. -/
structure IsGreedyLoop (valueOf : List α → Option β) (emit : β → List γ)
    (loop : List α → Nat → List γ) : Prop where
  nil : ∀ covered, loop [] covered = []
  covered : ∀ current rest covered, loop (current :: rest) (covered + 1) = loop rest covered
  unmatched : ∀ current rest, Unmatched valueOf (current :: rest) →
    loop (current :: rest) 0 = loop rest 0
  longest : ∀ current rest width value, Longest valueOf (current :: rest) width value →
    loop (current :: rest) 0 = emit value ++ loop rest (width - 1)

namespace IsGreedyLoop

variable {emit : β → List γ} {loop : List α → Nat → List γ}

theorem loop_covered (h : IsGreedyLoop valueOf emit loop) (text : List α) (covered : Nat) :
    loop text covered = loop (text.drop covered) 0 := by
  induction text generalizing covered with
  | nil => rw [List.drop_nil, h.nil, h.nil]
  | cons current rest ih =>
      cases covered with
      | zero => rfl
      | succ covered => rw [h.covered, ih, List.drop_succ_cons]

/-- The loop emits the values of the greedy segmentation, in order. -/
theorem loop_eq (h : IsGreedyLoop valueOf emit loop) {segments : List (List α × β)}
    (hsegments : Segments valueOf text segments) :
    loop text 0 = segments.flatMap fun segment => emit segment.2 := by
  induction hsegments with
  | nil => exact h.nil 0
  | skip hnone _ ih => rw [h.unmatched _ _ hnone, ih]
  | @piece text width value segments hlongest _ ih =>
      cases text with
      | nil => exact absurd rfl hlongest.ne_nil
      | cons current rest =>
          have hdrop : rest.drop (width - 1) = (current :: rest).drop width := by
            rw [← Nat.succ_pred_eq_of_pos hlongest.pos, List.drop_succ_cons]
            rfl
          rw [h.longest _ _ _ _ hlongest, h.loop_covered, hdrop, ih, List.flatMap_cons]

end IsGreedyLoop

/-! ## Pieces that grow at their end -/

/-- One more symbol, joined to the last piece when that gives a piece with a value. -/
def extendLast (valueOf : List α → Option β) (pieces : List (List α)) (a : α) : List (List α) :=
  match pieces.getLast? with
  | some last =>
      if (valueOf (last ++ [a])).isSome then pieces.dropLast ++ [last ++ [a]]
      else pieces ++ [[a]]
  | none => pieces ++ [[a]]

theorem extendLast_concat (valueOf : List α → Option β) (pieces : List (List α)) (last : List α)
    (a : α) : extendLast valueOf (pieces ++ [last]) a =
      if (valueOf (last ++ [a])).isSome then pieces ++ [last ++ [a]]
      else pieces ++ [last] ++ [[a]] := by
  rw [extendLast, List.getLast?_concat, List.dropLast_concat]

/-- The parts of a piece with a value that begin where it does have values too. -/
def PrefixClosed (valueOf : List α → Option β) : Prop :=
  ∀ front back, front ≠ [] → (valueOf (front ++ back)).isSome → (valueOf front).isSome

theorem Segments.piece_append {front rest : List α} {value : β} {segments : List (List α × β)}
    (h : Longest valueOf (front ++ rest) front.length value)
    (tail : Segments valueOf rest segments) :
    Segments valueOf (front ++ rest) ((front, value) :: segments) := by
  have hdrop : (front ++ rest).drop front.length = rest := List.drop_left
  have hpiece := Segments.piece h (hdrop.symm ▸ tail)
  rwa [List.take_left] at hpiece

/-- A piece that the next symbol does not extend is the longest one. -/
theorem longest_of_not_extended (hclosed : PrefixClosed valueOf) {last : List α} {a : α}
    {value : β} (hne : last ≠ []) (hvalue : valueOf last = some value)
    (hstop : ¬ (valueOf (last ++ [a])).isSome) (rest : List α) :
    Longest valueOf (last ++ a :: rest) last.length value where
  pos := List.length_pos_iff.mpr hne
  le := by simp
  value := by rw [List.take_left, hvalue]
  longest wider hwider hle := by
    rw [Option.eq_none_iff_forall_ne_some]
    intro value' hvalue'
    apply hstop
    obtain ⟨more, hmore⟩ := Nat.exists_eq_add_of_lt hwider
    have htake : (last ++ a :: rest).take wider = (last ++ [a]) ++ rest.take more := by
      rw [hmore, Nat.add_assoc, List.take_length_add_append, List.take_succ_cons,
        List.append_assoc, List.singleton_append]
    rw [htake] at hvalue'
    exact hclosed _ _ (List.append_ne_nil_of_right_ne_nil _ (List.cons_ne_nil _ _))
      (Option.isSome_of_eq_some hvalue')

theorem segments_of_extendLast (hclosed : PrefixClosed valueOf) {last : List α} {value : β}
    (hne : last ≠ []) (hvalue : valueOf last = some value)
    (hsymbols : ∀ a ∈ text, (valueOf [a]).isSome) (done : List (List α)) :
    ∃ segments, Segments valueOf (last ++ text) segments ∧
      text.foldl (extendLast valueOf) (done ++ [last]) = done ++ segments.map Prod.fst := by
  induction text generalizing last value done with
  | nil =>
      have hlongest : Longest valueOf (last ++ []) last.length value := by
        refine ⟨List.length_pos_iff.mpr hne, by simp, by simp [hvalue], fun wider hwider hle => ?_⟩
        rw [List.append_nil] at hle
        exact absurd hwider (Nat.not_lt.mpr hle)
      exact ⟨[(last, value)], .piece_append hlongest .nil, rfl⟩
  | cons a rest ih =>
      rw [List.forall_mem_cons] at hsymbols
      rw [List.foldl_cons, extendLast_concat]
      by_cases hextends : (valueOf (last ++ [a])).isSome
      · obtain ⟨value', hvalue'⟩ := Option.isSome_iff_exists.mp hextends
        obtain ⟨segments, hsegments, hfold⟩ :=
          ih (List.append_ne_nil_of_right_ne_nil _ (List.cons_ne_nil _ _)) hvalue' hsymbols.2 done
        rw [if_pos hextends]
        exact ⟨segments, List.append_cons last a rest ▸ hsegments, hfold⟩
      · obtain ⟨value', hvalue'⟩ := Option.isSome_iff_exists.mp hsymbols.1
        obtain ⟨segments, hsegments, hfold⟩ :=
          ih (List.cons_ne_nil a []) hvalue' hsymbols.2 (done ++ [last])
        rw [if_neg hextends]
        refine ⟨(last, value) :: segments,
          .piece_append (longest_of_not_extended hclosed hne hvalue hextends rest) hsegments, ?_⟩
        rw [hfold, List.append_assoc]
        rfl

/-- Pieces that grow by one symbol at a time are the longest ones, when nothing is longer than a
piece that cannot grow. -/
theorem segments_foldl_extendLast (hclosed : PrefixClosed valueOf)
    (hsymbols : ∀ a ∈ text, (valueOf [a]).isSome) :
    ∃ segments, Segments valueOf text segments ∧
      text.foldl (extendLast valueOf) [] = segments.map Prod.fst := by
  cases text with
  | nil => exact ⟨[], .nil, rfl⟩
  | cons a rest =>
      rw [List.forall_mem_cons] at hsymbols
      obtain ⟨value, hvalue⟩ := Option.isSome_iff_exists.mp hsymbols.1
      exact segments_of_extendLast hclosed (List.cons_ne_nil a []) hvalue hsymbols.2 []

/-! ## Texts without symbols to skip -/

theorem Segments.flatten_eq {segments : List (List α × β)} (h : Segments valueOf text segments)
    (hsymbols : ∀ a ∈ text, (valueOf [a]).isSome) : (segments.map Prod.fst).flatten = text := by
  induction h with
  | nil => rfl
  | @skip current rest segments hnone _ _ =>
      have hnothing : valueOf [current] = none := hnone 1 Nat.one_pos (by simp)
      have hsome := hsymbols current List.mem_cons_self
      rw [hnothing] at hsome
      cases hsome
  | @piece text width value segments hlongest _ ih =>
      rw [List.map_cons, List.flatten_cons, ih fun a ha => hsymbols a (List.mem_of_mem_drop ha),
        List.take_append_drop]

/-- No piece can be extended by the symbol after it. -/
theorem Segments.not_extended {segments : List (List α × β)} (h : Segments valueOf text segments)
    (hsymbols : ∀ a ∈ text, (valueOf [a]).isSome) :
    (segments.map Prod.fst).IsChain fun piece next =>
      ∀ a, next.head? = some a → valueOf (piece ++ [a]) = none := by
  induction h with
  | nil => exact .nil
  | @skip current rest segments hnone _ ih =>
      exact ih fun a ha => hsymbols a (List.mem_cons_of_mem current ha)
  | @piece text width value segments hlongest tail ih =>
      have hdropped : ∀ a ∈ text.drop width, (valueOf [a]).isSome :=
        fun a ha => hsymbols a (List.mem_of_mem_drop ha)
      rw [List.map_cons, List.isChain_cons]
      refine ⟨fun next hnext a ha => ?_, ih hdropped⟩
      have hnext' : text[width]? = some a := by
        rw [← List.head?_drop, ← tail.flatten_eq hdropped]
        cases segments with
        | nil => cases hnext
        | cons segment segments =>
            cases hnext
            rw [List.map_cons, List.flatten_cons, List.head?_append, ha, Option.some_or]
      have hwider := hlongest.longest (width + 1) (Nat.lt_succ_self width)
        (List.getElem?_eq_some_iff.mp hnext').1
      rwa [List.take_add_one, hnext', Option.toList_some] at hwider

end Dengjen.GreedySegmentation

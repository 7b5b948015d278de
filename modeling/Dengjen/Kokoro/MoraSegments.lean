import Dengjen.General.GreedySegmentation
import Dengjen.Kokoro.Moras

/-!
# Moras as a longest-match segmentation

A mora grows by one kana at a time. Since what a mora of the table begins with is in the
table too, it has then grown as far as the table allows.
-/

namespace Dengjen.Kokoro

open GreedySegmentation

theorem pushKana_eq (moras : List (List Char)) (c : Char) :
    pushKana moras c = extendLast moraPhonemes moras c := by
  rw [pushKana, extendLast]
  cases moras.getLast? <;> rfl

/-- A row of two kana stands behind one that begins with the same kana. -/
def FollowsRow (row next : List Char × List Char) : Prop :=
  next.1.length = 1 ∨ next.1.length = 2 ∧ next.1.take 1 = row.1.take 1

instance (row next : List Char × List Char) : Decidable (FollowsRow row next) :=
  inferInstanceAs (Decidable (_ ∨ _))

theorem moraTable_followsRow : ((['ァ'], ['a']) :: moraTable).IsChain FollowsRow := by decide +kernel

theorem isSome_of_mem_moraTable {row : List Char × List Char} (h : row ∈ moraTable) :
    (moraPhonemes row.1).isSome :=
  List.lookup_isSome_iff.mpr ⟨row, h, beq_self_eq_true row.1⟩

/-- What a row that follows another one begins with is a mora if that is so for the other one. -/
theorem first_of_followsRow {row next : List Char × List Char} (h : FollowsRow row next)
    (hnext : next ∈ moraTable) (hrow : (moraPhonemes (row.1.take 1)).isSome) :
    next.1.length ≤ 2 ∧ (moraPhonemes (next.1.take 1)).isSome := by
  rcases h with hone | ⟨htwo, hfirst⟩
  · refine ⟨by omega, ?_⟩
    rw [List.take_of_length_le (by omega)]
    exact isSome_of_mem_moraTable hnext
  · exact ⟨by omega, hfirst ▸ hrow⟩

/-- A mora has at most two kana, and the first of them is a mora. -/
theorem moraTable_rows :
    ∀ row ∈ moraTable, row.1.length ≤ 2 ∧ (moraPhonemes (row.1.take 1)).isSome := by
  have hrows : ∀ rows : List (List Char × List Char), rows ⊆ moraTable →
      ∀ row, (moraPhonemes (row.1.take 1)).isSome → (row :: rows).IsChain FollowsRow →
        ∀ next ∈ rows, next.1.length ≤ 2 ∧ (moraPhonemes (next.1.take 1)).isSome := by
    intro rows hsub
    induction rows with
    | nil => exact fun _ _ _ => nofun
    | cons next rows ih =>
        intro row hrow hchain
        rw [List.isChain_cons_cons] at hchain
        rw [List.cons_subset] at hsub
        have hfirst := first_of_followsRow hchain.1 hsub.1 hrow
        exact List.forall_mem_cons.mpr ⟨hfirst, ih hsub.2 next hfirst.2 hchain.2⟩
  exact hrows moraTable (List.Subset.refl _) _ (by decide +kernel) moraTable_followsRow

theorem prefixClosed_moraPhonemes : PrefixClosed moraPhonemes := by
  intro front back hfront hsome
  obtain ⟨phonemes, hphonemes⟩ := Option.isSome_iff_exists.mp hsome
  obtain ⟨hlength, hfirst⟩ := moraTable_rows _ (exists_row_of_moraPhonemes hphonemes)
  rw [List.length_append] at hlength
  cases back with
  | nil => rwa [List.append_nil] at hsome
  | cons c back =>
      rw [List.length_cons] at hlength
      have hpos := List.length_pos_iff.mpr hfront
      have hone : front.length = 1 := by omega
      rwa [← hone, List.take_left] at hfirst

/-- The kana of a pronunciation that are moras of their own. -/
def kana (pron : List Char) : List Char := pron.filter fun c => (moraPhonemes [c]).isSome

theorem isSome_of_mem_kana {pron : List Char} :
    ∀ c ∈ kana pron, (moraPhonemes [c]).isSome :=
  fun _ hc => (List.mem_filter.mp hc).2

theorem pronToMoras_eq (pron : List Char) :
    pronToMoras pron = (kana pron).foldl (extendLast moraPhonemes) [] :=
  congrArg (fun push => (kana pron).foldl push []) (funext₂ pushKana_eq)

/-- The moras of a pronunciation are the longest ones from left to right. They make up its kana,
each of them is in the table, none can be extended by the kana after it, and each of them is
heard. -/
theorem pronToMoras_segments (pron : List Char) :
    ∃ segments, Segments moraPhonemes (kana pron) segments ∧
      pronToMoras pron = segments.map Prod.fst ∧
      (pronToMoras pron).flatten = kana pron ∧
      (∀ mora ∈ pronToMoras pron, (moraPhonemes mora).isSome) ∧
      ((pronToMoras pron).IsChain fun mora next =>
        ∀ c, next.head? = some c → moraPhonemes (mora ++ [c]) = none) ∧
      (pronToMoras pron).filterMap moraPhonemes = segments.map Prod.snd ∧
      morasToPhonemes (pronToMoras pron) = (segments.map Prod.snd).flatten := by
  obtain ⟨segments, hsegments, hmoras⟩ :=
    segments_foldl_extendLast prefixClosed_moraPhonemes (@isSome_of_mem_kana pron)
  rw [← pronToMoras_eq] at hmoras
  have hheard : (pronToMoras pron).filterMap moraPhonemes = segments.map Prod.snd := by
    rw [hmoras, List.filterMap_map, ← List.filterMap_eq_map]
    exact List.filterMap_congr fun segment hsegment => hsegments.value_of_mem hsegment
  refine ⟨segments, hsegments, hmoras, ?_, isSome_of_mem_pronToMoras pron, ?_, hheard, ?_⟩
  · rw [hmoras, hsegments.flatten_eq isSome_of_mem_kana]
  · rw [hmoras]
    exact hsegments.not_extended isSome_of_mem_kana
  · rw [morasToPhonemes, hheard]

end Dengjen.Kokoro

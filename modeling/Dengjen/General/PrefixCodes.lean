import Mathlib.Data.List.Basic
import Mathlib.InformationTheory.Coding.UniquelyDecodable

/-!
# Prefix codes

A code whose words are not empty, and none of them a prefix of another one, is read in
only one way: what is written with it is the words of one list only.
-/

namespace Dengjen

open InformationTheory

variable {α β : Type*}

theorem uniquelyDecodable_of_prefixFree {words : Set (List β)} (hnil : [] ∉ words)
    (hfree : ∀ w ∈ words, ∀ w' ∈ words, w <+: w' → w = w') : UniquelyDecodable words := by
  intro ws
  induction ws with
  | nil =>
      intro ws' _ hws' hflat
      cases ws' with
      | nil => rfl
      | cons w' ws' =>
          have hnil' := (List.append_eq_nil_iff.mp hflat.symm).1
          exact absurd (hnil' ▸ hws' w' List.mem_cons_self) hnil
  | cons w ws ih =>
      intro ws' hws hws' hflat
      obtain ⟨hw, hrest⟩ := List.forall_mem_cons.mp hws
      cases ws' with
      | nil =>
          have hnil' := (List.append_eq_nil_iff.mp hflat).1
          exact absurd (hnil' ▸ hw) hnil
      | cons w' ws' =>
          obtain ⟨hw', hrest'⟩ := List.forall_mem_cons.mp hws'
          rw [List.flatten_cons, List.flatten_cons] at hflat
          -- Both words begin the same text, so that one of them begins with the other.
          have hbegins : w <+: w' ++ ws'.flatten := ⟨ws.flatten, hflat⟩
          have hword : w = w' := by
            rcases List.prefix_or_prefix_of_prefix hbegins (List.prefix_append _ _) with h | h
            · exact hfree w hw w' hw' h
            · exact (hfree w' hw' w hw h).symm
          subst hword
          rw [ih ws' hrest hrest' (List.append_cancel_left hflat)]

/-- Of two words that end at their only closing letter, none goes on behind the other. -/
theorem eq_of_closed_begins {closes : β → Prop} {body body' : List β} {b b' : β}
    (hb : closes b) (hbody' : ∀ c ∈ body', ¬ closes c) (h : body ++ [b] <+: body' ++ [b']) :
    body = body' ∧ b = b' := by
  obtain ⟨after, hafter⟩ := h
  rcases after.eq_nil_or_concat' with rfl | ⟨after, last, rfl⟩
  · rw [List.append_nil] at hafter
    exact List.append_singleton_inj.mp hafter
  · rw [← List.append_assoc] at hafter
    have hbegins := (List.append_singleton_inj.mp hafter).1
    refine absurd hb (hbody' b ?_)
    rw [← hbegins]
    exact List.mem_append_left _ (List.mem_append_right _ List.mem_cons_self)

/-- The words that stand for some values are a prefix code, and no two values have one word. -/
structure PrefixCode (valid : α → Prop) (code : α → List β) : Prop where
  ne_nil : ∀ a, valid a → code a ≠ []
  eq_of_begins : ∀ a b, valid a → valid b → code a <+: code b → a = b

namespace PrefixCode

variable {valid : α → Prop} {code : α → List β}

theorem uniquelyDecodable (h : PrefixCode valid code) :
    UniquelyDecodable {w | ∃ a, valid a ∧ code a = w} := by
  apply uniquelyDecodable_of_prefixFree
  · rintro ⟨a, ha, hnil⟩
    exact h.ne_nil a ha hnil
  · rintro _ ⟨a, ha, rfl⟩ _ ⟨b, hb, rfl⟩ hbegins
    rw [h.eq_of_begins a b ha hb hbegins]

theorem map_inj (h : PrefixCode valid code) {values values' : List α}
    (hvalues : ∀ a ∈ values, valid a) (hvalues' : ∀ a ∈ values', valid a)
    (heq : values.map code = values'.map code) : values = values' := by
  induction values generalizing values' with
  | nil => exact (List.map_eq_nil_iff.mp heq.symm).symm
  | cons a values ih =>
      obtain ⟨b, rest, rfl, hcode, hrest⟩ := List.map_eq_cons_iff.mp heq.symm
      obtain ⟨ha, hvalues⟩ := List.forall_mem_cons.mp hvalues
      obtain ⟨hb, hvalues'⟩ := List.forall_mem_cons.mp hvalues'
      have hword : code a <+: code b := hcode ▸ List.prefix_refl _
      rw [h.eq_of_begins a b ha hb hword, ih hvalues hvalues' hrest.symm]

/-- The values that are written are determined by the text. -/
theorem flatMap_inj (h : PrefixCode valid code) {values values' : List α}
    (hvalues : ∀ a ∈ values, valid a) (hvalues' : ∀ a ∈ values', valid a)
    (heq : values.flatMap code = values'.flatMap code) : values = values' := by
  have hwords : ∀ {values : List α}, (∀ a ∈ values, valid a) →
      ∀ w ∈ values.map code, ∃ a, valid a ∧ code a = w := by
    intro values hvalues w hw
    obtain ⟨a, ha, rfl⟩ := List.mem_map.mp hw
    exact ⟨a, hvalues a ha, rfl⟩
  exact h.map_inj hvalues hvalues'
    (h.uniquelyDecodable _ _ (hwords hvalues) (hwords hvalues') heq)

end PrefixCode

end Dengjen

import Mathlib.Data.List.Basic
import Mathlib.Data.List.Infix

/-!
# Replacing the occurrences of a pattern

`replace source target` replaces the occurrences of a nonempty `source` from left
to right, each of them starting behind the one before. A word that no occurrence
of the source can overlap, and that the target cannot help to form, occurs in the
result exactly when it occurs in the text.

## Implementation notes

`Replaces` is the graph of `replace` cut into its steps, and the one to argue by
induction on: it has no count of symbols that are still to be skipped.
-/

namespace Dengjen.Replacement

variable {α : Type*}

/-- The steps of a replacement: an occurrence is replaced, any other symbol is kept. -/
inductive Replaces (source target : List α) : List α → List α → Prop
  | nil : Replaces source target [] []
  | hit {rest out} (tail : Replaces source target rest out) :
      Replaces source target (source ++ rest) (target ++ out)
  | keep {a rest out} (h : ¬ source <+: a :: rest) (tail : Replaces source target rest out) :
      Replaces source target (a :: rest) (a :: out)

variable {source target word text out : List α}

/-! ## Words of the result -/

/-- A word that starts with no symbol of `front` occurs behind it, if it occurs at all. -/
theorem infix_of_infix_append {front rest : List α} (hne : word ≠ [])
    (hhead : ∀ a ∈ word.head?, a ∉ front) (h : word <:+: front ++ rest) : word <:+: rest := by
  induction front with
  | nil => exact h
  | cons a front ih =>
      rw [List.cons_append, List.infix_cons_iff] at h
      rcases h with hprefix | hwithin
      · obtain ⟨b, word', rfl⟩ := List.exists_cons_of_ne_nil hne
        obtain ⟨rfl, -⟩ := List.cons_prefix_cons.mp hprefix
        exact absurd List.mem_cons_self (hhead b rfl)
      · exact ih (fun b hb hmem => hhead b hb (List.mem_cons_of_mem a hmem)) hwithin

theorem infix_of_fresh {front rest : List α} (hne : word ≠ [])
    (hfresh : ∀ a ∈ front, a ∉ word) (h : word <:+: front ++ rest) : word <:+: rest :=
  infix_of_infix_append hne (fun a ha hmem => hfresh a hmem (List.mem_of_mem_head? ha)) h

namespace Replaces

theorem prefix_text (h : Replaces source target text out) (htarget : target ≠ [])
    (hfresh : ∀ a ∈ target, a ∉ word) (hword : word <+: out) : word <+: text := by
  induction h generalizing word with
  | nil => exact hword
  | hit tail ih =>
      cases word with
      | nil => exact List.nil_prefix
      | cons a word =>
          obtain ⟨b, target', rfl⟩ := List.exists_cons_of_ne_nil htarget
          obtain ⟨rfl, -⟩ := List.cons_prefix_cons.mp hword
          exact absurd List.mem_cons_self (hfresh a List.mem_cons_self)
  | keep hkeep tail ih =>
      cases word with
      | nil => exact List.nil_prefix
      | cons a word =>
          obtain ⟨rfl, hrest⟩ := List.cons_prefix_cons.mp hword
          have hfresh' : ∀ b ∈ target, b ∉ word := by
            intro b hb hmem
            exact hfresh b hb (List.mem_cons_of_mem a hmem)
          exact List.cons_prefix_cons.mpr ⟨rfl, ih hfresh' hrest⟩

theorem infix_text (h : Replaces source target text out) (htarget : target ≠ [])
    (hfresh : ∀ a ∈ target, a ∉ word) (hne : word ≠ []) (hword : word <:+: out) :
    word <:+: text := by
  induction h with
  | nil => exact hword
  | hit tail ih =>
      exact List.infix_append_of_infix_right (ih (infix_of_fresh hne hfresh hword))
  | keep hkeep tail ih =>
      rcases List.infix_cons_iff.mp hword with hprefix | hwithin
      · exact ((tail.keep hkeep).prefix_text htarget hfresh hprefix).isInfix
      · exact List.infix_cons (ih hwithin)

/-- No occurrence of the source is left, and none arises. -/
theorem not_infix_source (h : Replaces source target text out) (hsource : source ≠ [])
    (htarget : target ≠ []) (hfresh : ∀ a ∈ target, a ∉ source) : ¬ source <:+: out := by
  induction h with
  | nil =>
      intro hword
      exact hsource (List.infix_nil.mp hword)
  | hit tail ih =>
      intro hword
      exact ih (infix_of_fresh hsource hfresh hword)
  | keep hkeep tail ih =>
      intro hword
      rcases List.infix_cons_iff.mp hword with hprefix | hwithin
      · exact hkeep ((tail.keep hkeep).prefix_text htarget hfresh hprefix)
      · exact ih hwithin

theorem eq_of_absent (h : Replaces source target text out) (hsource : ¬ source <:+: text) :
    out = text := by
  induction h with
  | nil => rfl
  | hit tail ih => exact absurd List.infix_append_left hsource
  | keep hkeep tail ih =>
      rw [ih fun hwithin => hsource (List.infix_cons hwithin)]

end Replaces

/-! ## Words that a replacement passes over -/

/-- No occurrence of the source can overlap the word, and the target cannot help to form it. -/
structure Transparent (source target word : List α) : Prop where
  source_ne : source ≠ []
  target_ne : target ≠ []
  word_ne : word ≠ []
  fresh : ∀ a ∈ target, a ∉ word
  head : ∀ a ∈ word.head?, a ∉ source.tail
  last : ∀ a ∈ word.getLast?, a ∉ source.dropLast
  not_infix : ¬ source <:+: word

/-- A word that ends in a symbol that only the last of the source can be is no shorter
start of it. -/
theorem eq_of_prefix_source (hne : word ≠ []) (hlast : ∀ a ∈ word.getLast?, a ∉ source.dropLast)
    (h : word <+: source) : word = source := by
  obtain ⟨rest, rfl⟩ := h
  cases hrest : rest with
  | nil => rw [List.append_nil]
  | cons b rest' =>
      exfalso
      have hmem := List.getLast_mem hne
      refine hlast _ (List.getLast?_eq_some_getLast hne) ?_
      rw [hrest, List.dropLast_append_cons]
      exact List.mem_append_left _ hmem

/-- A word cannot start where an occurrence of the source does. -/
theorem not_prefix_source_append {rest : List α} (hne : word ≠ [])
    (hlast : ∀ a ∈ word.getLast?, a ∉ source.dropLast) (hwithin : ¬ source <:+: word) :
    ¬ word <+: source ++ rest := by
  intro h
  rcases List.prefix_or_prefix_of_prefix h (List.prefix_append source rest) with hword | hsource
  · exact hwithin ((eq_of_prefix_source hne hlast hword).symm ▸ List.infix_rfl)
  · exact hwithin hsource.isInfix

theorem Replaces.prefix_out (h : Replaces source target text out)
    (hlast : ∀ a ∈ word.getLast?, a ∉ source.dropLast) (hwithin : ¬ source <:+: word)
    (hword : word <+: text) : word <+: out := by
  induction h generalizing word with
  | nil => exact hword
  | hit tail ih =>
      rcases List.eq_nil_or_concat word with rfl | ⟨word', a, rfl⟩
      · exact List.nil_prefix
      · exact absurd hword (not_prefix_source_append (by simp) hlast hwithin)
  | keep hkeep tail ih =>
      cases word with
      | nil => exact List.nil_prefix
      | cons a word =>
          obtain ⟨rfl, hrest⟩ := List.cons_prefix_cons.mp hword
          refine List.cons_prefix_cons.mpr ⟨rfl, ih ?_ (fun hi => hwithin (List.infix_cons hi)) hrest⟩
          intro b hb
          refine hlast b ?_
          cases word with
          | nil => cases hb
          | cons c word => rwa [List.getLast?_cons_cons]

/-- A word of the text lies behind an occurrence of the source that the text starts with. -/
theorem Transparent.infix_rest (h : Transparent source target word) {rest : List α}
    (hword : word <:+: source ++ rest) : word <:+: rest := by
  obtain ⟨a, source', rfl⟩ := List.exists_cons_of_ne_nil h.source_ne
  rw [List.cons_append, List.infix_cons_iff] at hword
  rcases hword with hprefix | hwithin
  · exact absurd hprefix (not_prefix_source_append h.word_ne h.last h.not_infix)
  · exact infix_of_infix_append h.word_ne h.head hwithin

theorem Transparent.infix_iff (h : Transparent source target word)
    (hreplaces : Replaces source target text out) : word <:+: out ↔ word <:+: text := by
  constructor
  · exact hreplaces.infix_text h.target_ne h.fresh h.word_ne
  · intro hword
    induction hreplaces with
    | nil => exact hword
    | hit tail ih => exact List.infix_append_of_infix_right (ih (h.infix_rest hword))
    | keep hkeep tail ih =>
        rcases List.infix_cons_iff.mp hword with hprefix | hwithin
        · exact ((tail.keep hkeep).prefix_out h.last h.not_infix hprefix).isInfix
        · exact List.infix_cons (ih hwithin)

/-- Where `a b` becomes `c a`, a word behind `a` in the result stood there before, or stood behind
`a b`. -/
theorem Replaces.infix_of_moved {a b c : α} (hca : c ≠ a) (ha : a ∉ word) (hc : c ∉ word)
    (h : Replaces [a, b] [c, a] text out) (hword : a :: word <:+: out) :
    (¬ [a, b] <+: a :: word ∧ a :: word <:+: text) ∨ a :: b :: word <:+: text := by
  have hfresh : ∀ d ∈ [c, a], d ∉ word := by simp [ha, hc]
  induction h with
  | nil => exact absurd (List.infix_nil.mp hword) (List.cons_ne_nil _ _)
  | @hit rest out tail ih =>
      rcases List.infix_cons_iff.mp hword with hprefix | hword
      · exact absurd (List.cons_prefix_cons.mp hprefix).1.symm hca
      · rcases List.infix_cons_iff.mp hword with hprefix | hword
        · have hrest : word <+: rest :=
            tail.prefix_text (by simp) hfresh (List.cons_prefix_cons.mp hprefix).2
          exact .inr (List.cons_prefix_cons.mpr
            ⟨rfl, List.cons_prefix_cons.mpr ⟨rfl, hrest⟩⟩).isInfix
        · exact (ih hword).imp (And.imp_right List.infix_append_of_infix_right)
            List.infix_append_of_infix_right
  | @keep x rest out hkeep tail ih =>
      rcases List.infix_cons_iff.mp hword with hprefix | hword
      · obtain ⟨rfl, hout⟩ := List.cons_prefix_cons.mp hprefix
        have hrest : a :: word <+: a :: rest :=
          List.cons_prefix_cons.mpr ⟨rfl, tail.prefix_text (by simp) hfresh hout⟩
        exact .inl ⟨fun hpair => hkeep (hpair.trans hrest), hrest.isInfix⟩
      · exact (ih hword).imp (And.imp_right List.infix_cons) List.infix_cons

/-- A word behind `a` stays there, but for a `b` that is put away, and one behind `a b` comes to
stand behind `a`. -/
theorem Replaces.moved_of_infix {a b c : α} (hab : a ≠ b) (hne : word ≠ []) (ha : a ∉ word)
    (h : Replaces [a, b] [c, a] text out)
    (hword : (¬ [a, b] <+: a :: word ∧ a :: word <:+: text) ∨ a :: b :: word <:+: text) :
    a :: word <:+: out := by
  have hlast : ∀ d ∈ word.getLast?, d ∉ [a, b].dropLast := by
    intro d hd hmem
    obtain rfl : d = a := by simpa using hmem
    exact ha (List.mem_of_mem_getLast? hd)
  have hwithin : ¬ [a, b] <:+: word := fun h => ha (h.subset List.mem_cons_self)
  induction h with
  | nil =>
      rcases hword with ⟨-, hword⟩ | hword <;>
        exact absurd (List.infix_nil.mp hword) (List.cons_ne_nil _ _)
  | @hit rest out tail ih =>
      rcases hword with ⟨hpair, hword⟩ | hword
      · rcases List.infix_cons_iff.mp hword with hprefix | hword
        · obtain ⟨d, word', rfl⟩ := List.exists_cons_of_ne_nil hne
          obtain ⟨-, hsecond⟩ := List.cons_prefix_cons.mp hprefix
          obtain ⟨rfl, -⟩ := List.cons_prefix_cons.mp hsecond
          exact absurd ⟨word', rfl⟩ hpair
        · rcases List.infix_cons_iff.mp hword with hprefix | hword
          · exact absurd (List.cons_prefix_cons.mp hprefix).1 hab
          · exact List.infix_append_of_infix_right (ih (.inl ⟨hpair, hword⟩))
      · rcases List.infix_cons_iff.mp hword with hprefix | hword
        · obtain ⟨-, hsecond⟩ := List.cons_prefix_cons.mp hprefix
          have hout : word <+: out :=
            tail.prefix_out hlast hwithin (List.cons_prefix_cons.mp hsecond).2
          exact List.infix_cons (List.cons_prefix_cons.mpr ⟨rfl, hout⟩).isInfix
        · rcases List.infix_cons_iff.mp hword with hprefix | hword
          · exact absurd (List.cons_prefix_cons.mp hprefix).1 hab
          · exact List.infix_append_of_infix_right (ih (.inr hword))
  | @keep x rest out hkeep tail ih =>
      rcases hword with ⟨hpair, hword⟩ | hword
      · rcases List.infix_cons_iff.mp hword with hprefix | hword
        · obtain ⟨rfl, hrest⟩ := List.cons_prefix_cons.mp hprefix
          have hout : word <+: out := tail.prefix_out hlast hwithin hrest
          exact (List.cons_prefix_cons.mpr ⟨rfl, hout⟩).isInfix
        · exact List.infix_cons (ih (.inl ⟨hpair, hword⟩))
      · rcases List.infix_cons_iff.mp hword with hprefix | hword
        · exact absurd (List.IsPrefix.trans ⟨word, rfl⟩ hprefix) hkeep
        · exact List.infix_cons (ih (.inr hword))

theorem Replaces.infix_moved_iff {a b c : α} (hab : a ≠ b) (hca : c ≠ a) (hne : word ≠ [])
    (ha : a ∉ word) (hc : c ∉ word) (h : Replaces [a, b] [c, a] text out) :
    a :: word <:+: out ↔
      (¬ [a, b] <+: a :: word ∧ a :: word <:+: text) ∨ a :: b :: word <:+: text :=
  ⟨h.infix_of_moved hca ha hc, h.moved_of_infix hab hne ha⟩

/-! ## The replacing function -/

section Functions

variable [DecidableEq α]

/-- `skip` symbols of an occurrence that has been replaced are still to be passed over. -/
def replaceFrom (source target : List α) : Nat → List α → List α
  | _, [] => []
  | skip + 1, _ :: rest => replaceFrom source target skip rest
  | 0, a :: rest =>
      if source <+: a :: rest then
        target ++ replaceFrom source target (source.length - 1) rest
      else a :: replaceFrom source target 0 rest

/-- Replace every occurrence of `source` that does not overlap one before it. -/
def replace (source target text : List α) : List α := replaceFrom source target 0 text

/-- Apply the rules one after the other, each to the whole text. -/
def rewrite (rules : List (List α × List α)) (text : List α) : List α :=
  rules.foldl (fun text rule => replace rule.1 rule.2 text) text

theorem replaceFrom_skip (source target : List α) (skip : Nat) (text : List α) :
    replaceFrom source target skip text = replace source target (text.drop skip) := by
  induction text generalizing skip with
  | nil => simp [replace, replaceFrom]
  | cons a rest ih =>
      cases skip with
      | zero => rfl
      | succ skip => exact ih skip

theorem replace_hit (h : source ≠ []) (rest : List α) :
    replace source target (source ++ rest) = target ++ replace source target rest := by
  obtain ⟨a, source', rfl⟩ := List.exists_cons_of_ne_nil h
  have hoccurs : a :: source' <+: a :: (source' ++ rest) := ⟨rest, rfl⟩
  rw [List.cons_append, replace, replaceFrom, if_pos hoccurs, replaceFrom_skip]
  simp

theorem replace_keep {a : α} {rest : List α} (h : ¬ source <+: a :: rest) :
    replace source target (a :: rest) = a :: replace source target rest := by
  rw [replace, replaceFrom, if_neg h]
  rfl

theorem replaces_replace (h : source ≠ []) (text : List α) :
    Replaces source target text (replace source target text) := by
  induction hlen : text.length using Nat.strong_induction_on generalizing text with
  | _ n ih =>
      by_cases hoccurs : source <+: text
      · obtain ⟨rest, rfl⟩ := hoccurs
        have hshort : rest.length < n := by
          have hpos := List.length_pos_of_ne_nil h
          rw [List.length_append] at hlen
          omega
        rw [replace_hit h]
        exact .hit (ih _ hshort rest rfl)
      · cases text with
        | nil => exact .nil
        | cons a rest =>
            rw [List.length_cons] at hlen
            rw [replace_keep hoccurs]
            exact .keep hoccurs (ih _ (by omega) rest rfl)

/-- A symbol is replaced wherever it stands. -/
theorem replace_singleton (a : α) (target text : List α) :
    replace [a] target text = text.flatMap fun b => if b = a then target else [b] := by
  induction text with
  | nil => rfl
  | cons b rest ih =>
      by_cases hb : b = a
      · subst hb
        rw [List.flatMap_cons, if_pos rfl, ← ih]
        exact replace_hit (List.cons_ne_nil _ _) rest
      · have hkeep : ¬ [a] <+: b :: rest := by simpa [eq_comm] using hb
        rw [List.flatMap_cons, if_neg hb, ← ih, replace_keep hkeep]
        rfl

/-- Replacing a symbol by nothing deletes it. -/
theorem replace_singleton_nil (a : α) (text : List α) :
    replace [a] [] text = text.filter fun b => b != a := by
  rw [replace_singleton]
  induction text with
  | nil => rfl
  | cons b rest ih =>
      by_cases hb : b = a
      · simp [hb, ih]
      · simp [hb, ih]

/-- Replacing a symbol by a symbol maps one to the other. -/
theorem replace_singleton_singleton (a c : α) (text : List α) :
    replace [a] [c] text = text.map fun b => if b = a then c else b := by
  rw [replace_singleton]
  induction text with
  | nil => rfl
  | cons b rest ih =>
      by_cases hb : b = a
      · simp [hb, ih]
      · simp [hb, ih]

/-- A word behind `c` stood behind it before, or behind the `a` that is now `c`. -/
theorem infix_replace_renamed_iff {a c : α} (ha : a ∉ word) (hc : c ∉ word) (text : List α) :
    c :: word <:+: replace [a] [c] text ↔ c :: word <:+: text ∨ a :: word <:+: text := by
  have hself : ∀ b ∈ word, (if b = a then c else b) = b := by
    intro b hb
    rw [if_neg]
    rintro rfl
    exact ha hb
  rw [replace_singleton_singleton, List.infix_map_iff]
  constructor
  · rintro ⟨source', hsource, heq⟩
    cases source' with
    | nil => cases heq
    | cons b rest =>
        obtain ⟨hb, hrest⟩ := List.cons.inj heq
        have hsame : ∀ d ∈ rest, (if d = a then c else d) = id d := by
          intro d hd
          rw [if_neg, id]
          rintro rfl
          refine hc (hrest ▸ List.mem_map.mpr ⟨d, hd, if_pos rfl⟩)
        rw [List.map_congr_left hsame, List.map_id] at hrest
        subst hrest
        by_cases hba : b = a
        · exact .inr (hba ▸ hsource)
        · obtain rfl : c = b := hb.trans (if_neg hba)
          exact .inl hsource
  · have hmap : word.map (fun b => if b = a then c else b) = word := by
      rw [List.map_congr_left hself, List.map_id']
    rintro (hword | hword)
    · refine ⟨_, hword, ?_⟩
      rw [List.map_cons, hmap, ite_id]
    · refine ⟨_, hword, ?_⟩
      rw [List.map_cons, hmap, if_pos rfl]

theorem replace_eq_self (hsource : source ≠ []) (h : ¬ source <:+: text) :
    replace source target text = text :=
  (replaces_replace hsource text).eq_of_absent h

/-! ## Several rules -/

theorem rewrite_nil (text : List α) : rewrite [] text = text := rfl

theorem rewrite_cons (rule : List α × List α) (rules : List (List α × List α)) (text : List α) :
    rewrite (rule :: rules) text = rewrite rules (replace rule.1 rule.2 text) := rfl

theorem rewrite_append (rules rules' : List (List α × List α)) (text : List α) :
    rewrite (rules ++ rules') text = rewrite rules' (rewrite rules text) :=
  List.foldl_append

/-- What every rule preserves holds of the rewritten text. -/
theorem rewrite_preserves {p : List α → Prop} {rules : List (List α × List α)}
    (hstep : ∀ rule ∈ rules, ∀ text, p text → p (replace rule.1 rule.2 text)) (h : p text) :
    p (rewrite rules text) := by
  induction rules generalizing text with
  | nil => exact h
  | cons rule rules ih =>
      rw [rewrite_cons]
      exact ih (fun rule' hmem => hstep rule' (List.mem_cons_of_mem rule hmem))
        (hstep rule List.mem_cons_self text h)

/-- Rules that all pass over a word do so together. -/
theorem infix_rewrite_iff {rules : List (List α × List α)}
    (h : ∀ rule ∈ rules, Transparent rule.1 rule.2 word) (text : List α) :
    word <:+: rewrite rules text ↔ word <:+: text := by
  induction rules generalizing text with
  | nil => rfl
  | cons rule rules ih =>
      have hrule := h rule List.mem_cons_self
      have hrest := ih (fun rule' hmem => h rule' (List.mem_cons_of_mem rule hmem))
      calc
        word <:+: rewrite (rule :: rules) text
          ↔ word <:+: rewrite rules (replace rule.1 rule.2 text) := by rw [rewrite_cons]
        _ ↔ word <:+: replace rule.1 rule.2 text := hrest _
        _ ↔ word <:+: text := hrule.infix_iff (replaces_replace hrule.source_ne text)

/-- A text without any source is rewritten to itself. -/
theorem rewrite_eq_self {rules : List (List α × List α)} (hne : ∀ rule ∈ rules, rule.1 ≠ [])
    (h : ∀ rule ∈ rules, ¬ rule.1 <:+: text) : rewrite rules text = text := by
  induction rules with
  | nil => rfl
  | cons rule rules ih =>
      have hrule : replace rule.1 rule.2 text = text :=
        replace_eq_self (hne rule List.mem_cons_self) (h rule List.mem_cons_self)
      rw [rewrite_cons, hrule]
      exact ih (fun rule' hmem => hne rule' (List.mem_cons_of_mem rule hmem))
        (fun rule' hmem => h rule' (List.mem_cons_of_mem rule hmem))

end Functions

end Dengjen.Replacement

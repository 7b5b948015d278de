import Mathlib.Data.List.Basic

/-!
# External iterators

An iterator is a state and a `next` function that may yield an item and always
leaves a state behind. `Drains next s items` says that calling `next` until it
first yields nothing gives exactly `items`. An iterator that hands out a list it
carries in its state, element by element, is drained by that list.
-/

namespace Dengjen.Iteration

variable {σ α : Type*}

/-- Calling `next` from `s` yields `items` in order and then nothing. -/
inductive Drains (next : σ → Option α × σ) : σ → List α → Prop
  | done {s} (h : (next s).1 = none) : Drains next s []
  | yield {s a s' as} (h : next s = (some a, s')) (tail : Drains next s' as) :
      Drains next s (a :: as)

/-- The first item of a drain is the one `next` yields. -/
theorem Drains.of_next {next : σ → Option α × σ} {s s' : σ} {a : α} {items : List α}
    (drain : Drains next s items) (h : next s = (some a, s')) :
    ∃ items', items = a :: items' ∧ Drains next s' items' := by
  cases drain with
  | done h' => rw [h] at h'; cases h'
  | yield h' tail =>
      obtain ⟨ha, hs⟩ := Prod.ext_iff.mp (h.symm.trans h')
      cases Option.some.inj ha
      cases hs
      exact ⟨_, rfl, tail⟩

/-- Two complete drains of one iterator yield the same items. -/
theorem Drains.deterministic {next : σ → Option α × σ} {s : σ} {items : List α}
    (drain : Drains next s items) : ∀ {items'}, Drains next s items' → items = items' := by
  induction drain with
  | done h =>
      intro items' drain'
      cases drain' with
      | done _ => rfl
      | yield h' _ => rw [h'] at h; cases h
  | yield h _ ih =>
      intro items' drain'
      obtain ⟨_, rfl, tail'⟩ := drain'.of_next h
      rw [ih tail']

theorem Drains.iff_eq {next : σ → Option α × σ} {s : σ} {items items' : List α}
    (drain : Drains next s items) : Drains next s items' ↔ items' = items := by
  constructor
  · intro drain'
    exact drain'.deterministic drain
  · rintro rfl
    exact drain

/-- What an iterator yields depends on its state only through `next`. -/
theorem Drains.of_next_eq {next : σ → Option α × σ} {s s' : σ} {items : List α}
    (drain : Drains next s items) (h : next s' = next s) : Drains next s' items := by
  cases drain with
  | done hnone => exact .done (h ▸ hnone)
  | yield hnext tail => exact .yield (h.trans hnext) tail

/-- An iterator that hands its calls on to another one yields the same items. -/
theorem Drains.wrap {τ : Type*} {next : σ → Option α × σ} {next' : τ → Option α × τ} {f : σ → τ}
    (hwrap : ∀ s, next' (f s) = (next s).map id f) {s : σ} {items : List α}
    (drain : Drains next s items) : Drains next' (f s) items := by
  induction drain with
  | done hnone =>
      refine .done ?_
      rw [hwrap]
      exact hnone
  | yield hnext _ ih =>
      refine .yield ?_ ih
      rw [hwrap, hnext]
      rfl

/-- An iterator yields the list that stands for its state, when `next` takes its head. -/
theorem drains_remaining {next : σ → Option α × σ} (Inv : σ → Prop) (remaining : σ → List α)
    (hnil : ∀ s, Inv s → remaining s = [] → (next s).1 = none)
    (hcons : ∀ s a as, Inv s → remaining s = a :: as →
      ∃ s', next s = (some a, s') ∧ Inv s' ∧ remaining s' = as)
    (s : σ) (hs : Inv s) : Drains next s (remaining s) := by
  induction hr : remaining s generalizing s with
  | nil => exact .done (hnil s hs hr)
  | cons a as ih =>
      obtain ⟨s', hnext, hi, htail⟩ := hcons s a as hs hr
      exact .yield hnext (ih s' hi htail)

end Dengjen.Iteration

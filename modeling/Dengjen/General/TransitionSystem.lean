import Mathlib.Data.List.Basic
import Mathlib.Data.Nat.Basic
import Mathlib.Tactic.Basic

/-!
# Labelled transition systems

A system is an initial predicate and a labelled step relation. Runs keep the
list of their labels, so that a property of the schedule can be stated on the
labels and a property of the states on the endpoints. An invariant is carried
along runs by one lemma, and a rank that every step lowers bounds their length.
-/

namespace Dengjen.TransitionSystem

variable {S L : Type*} {step step' : S → L → S → Prop}

/-- A finite run with the list of its labels, in order. -/
inductive Run (step : S → L → S → Prop) : S → List L → S → Prop
  | nil (s) : Run step s [] s
  | cons {s l t ls u} (head : step s l t) (tail : Run step t ls u) :
      Run step s (l :: ls) u

/-- The states some run reaches from an initial state. -/
def Reachable (init : S → Prop) (step : S → L → S → Prop) (s : S) : Prop :=
  ∃ s₀ ls, init s₀ ∧ Run step s₀ ls s

/-- The steps that satisfy a condition on the state before them and their label. -/
def restrict (allowed : S → L → Prop) (step : S → L → S → Prop) (s : S) (l : L) (t : S) : Prop :=
  allowed s l ∧ step s l t

namespace Run

theorem single {s : S} {l : L} {t : S} (h : step s l t) : Run step s [l] t :=
  cons h (nil t)

theorem append {s t u : S} {ls ls' : List L} (first : Run step s ls t)
    (second : Run step t ls' u) : Run step s (ls ++ ls') u := by
  induction first with
  | nil => exact second
  | cons head _ ih => exact cons head (ih second)

/-- A run over two lists of labels passes through a state between them. -/
theorem of_append {s u : S} {ls ls' : List L} (run : Run step s (ls ++ ls') u) :
    ∃ t, Run step s ls t ∧ Run step t ls' u := by
  induction ls generalizing s with
  | nil => exact ⟨s, .nil s, run⟩
  | cons l ls ih =>
      cases run with
      | cons head tail =>
          obtain ⟨t, first, second⟩ := ih tail
          exact ⟨t, .cons head first, second⟩

theorem of_single {s t : S} {l : L} (run : Run step s [l] t) : step s l t := by
  cases run with
  | cons head tail =>
      cases tail
      exact head

theorem mono (h : ∀ s l t, step s l t → step' s l t) {s t : S} {ls : List L}
    (run : Run step s ls t) : Run step' s ls t := by
  induction run with
  | nil s => exact nil s
  | cons head _ ih => exact cons (h _ _ _ head) ih

/-- An invariant of single steps is an invariant of runs. -/
theorem preserves {Inv : S → Prop}
    (hstep : ∀ s l t, Inv s → step s l t → Inv t) {s t : S} {ls : List L}
    (run : Run step s ls t) (hs : Inv s) : Inv t := by
  induction run with
  | nil => exact hs
  | cons head _ ih => exact ih (hstep _ _ _ hs head)

/-- An invariant that may speak of the labels so far is an invariant of runs. -/
theorem traces {Inv : List L → S → Prop}
    (hstep : ∀ ls s l t, Inv ls s → step s l t → Inv (ls ++ [l]) t) {s t : S} {ls₀ ls : List L}
    (run : Run step s ls t) (hs : Inv ls₀ s) : Inv (ls₀ ++ ls) t := by
  induction run generalizing ls₀ with
  | nil => exact (List.append_nil ls₀).symm ▸ hs
  | cons head _ ih => exact List.append_cons ls₀ _ _ ▸ ih (hstep _ _ _ _ hs head)

/-- A rank that every step from an invariant state lowers bounds the length of a run. -/
theorem length_add_rank_le {Inv : S → Prop} {rank : S → Nat}
    (hstep : ∀ s l t, Inv s → step s l t → Inv t ∧ rank t < rank s) {s t : S} {ls : List L}
    (run : Run step s ls t) (hs : Inv s) : ls.length + rank t ≤ rank s := by
  induction run with
  | nil => simp
  | cons head _ ih =>
      obtain ⟨hi, hr⟩ := hstep _ _ _ hs head
      have htail := ih hi
      simp only [List.length_cons]
      omega

end Run

/-- The step relation of a guarded step function, which is `none` on a disabled label. -/
def steps (next : S → L → Option S) (s : S) (l : L) (t : S) : Prop := next s l = some t

/-- Execute a list of labels, stopping at the first disabled one. -/
def replay (next : S → L → Option S) : S → List L → Option S
  | s, [] => some s
  | s, l :: ls => (next s l).bind fun t => replay next t ls

/-- A completed replay is a run of the guarded step function. -/
theorem run_of_replay {next : S → L → Option S} {s t : S} {ls : List L}
    (h : replay next s ls = some t) : Run (steps next) s ls t := by
  induction ls generalizing s with
  | nil => cases h; exact .nil _
  | cons l ls ih =>
      obtain ⟨u, head, tail⟩ := Option.bind_eq_some_iff.mp h
      exact .cons head (ih tail)

/-- When every invariant state is a goal or has a step, and steps lower a rank,
some run from it ends in a goal. -/
theorem exists_run_to_goal {Inv Goal : S → Prop} {rank : S → Nat}
    (hprogress : ∀ s, Inv s → Goal s ∨ ∃ l t, step s l t)
    (hstep : ∀ s l t, Inv s → step s l t → Inv t ∧ rank t < rank s) (s : S) (hs : Inv s) :
    ∃ ls t, Run step s ls t ∧ Inv t ∧ Goal t := by
  induction hn : rank s using Nat.strong_induction_on generalizing s with
  | _ n ih =>
      rcases hprogress s hs with hgoal | ⟨l, t, head⟩
      · exact ⟨[], s, .nil s, hs, hgoal⟩
      · obtain ⟨hi, hr⟩ := hstep s l t hs head
        obtain ⟨ls, u, tail, hu⟩ := ih (rank t) (hn ▸ hr) t hi rfl
        exact ⟨l :: ls, u, .cons head tail, hu⟩

namespace Reachable

variable {init : S → Prop}

theorem of_init {s : S} (h : init s) : Reachable init step s := ⟨s, [], h, .nil s⟩

theorem trans {s t : S} {ls : List L} (hs : Reachable init step s) (run : Run step s ls t) :
    Reachable init step t := by
  obtain ⟨s₀, ls₀, h₀, run₀⟩ := hs
  exact ⟨s₀, ls₀ ++ ls, h₀, run₀.append run⟩

theorem next {s t : S} {l : L} (hs : Reachable init step s) (h : step s l t) :
    Reachable init step t := hs.trans (.single h)

theorem mono (h : ∀ s l t, step s l t → step' s l t) {s : S} (hs : Reachable init step s) :
    Reachable init step' s := by
  obtain ⟨s₀, ls, h₀, run⟩ := hs
  exact ⟨s₀, ls, h₀, run.mono h⟩

theorem invariant {Inv : S → Prop} (hinit : ∀ s, init s → Inv s)
    (hstep : ∀ s l t, Inv s → step s l t → Inv t) {s : S} (hs : Reachable init step s) :
    Inv s := by
  obtain ⟨s₀, ls, h₀, run⟩ := hs
  exact run.preserves hstep (hinit s₀ h₀)

end Reachable

end Dengjen.TransitionSystem

import Dengjen.General.TransitionSystem
import Mathlib.Data.List.Induction

/-!
# Tasks that own permits

A semaphore hands one permit to each task that is spawned, and takes it back when
the task drops it. Tasks step on their own and never regain a permit, so that the
free permits and the owned ones add up to the capacity. A property that every
task keeps is one of all tasks of a reachable state.
-/

namespace Dengjen.Semaphore

open TransitionSystem

variable {κ τ L : Type*}

/-- The permits that are left, and the tasks. -/
structure State (τ : Type*) where
  permits : Nat
  tasks : List τ

/-- A task is spawned, or one goes on. -/
inductive Action (κ L : Type*)
  | spawn (kind : κ)
  | act (index : Nat) (action : L)

/-- How tasks are made, which of them own a permit, and what each of them can do. -/
structure Tasks (κ τ L : Type*) where
  new : κ → τ
  owns : τ → Bool
  next : τ → L → Option τ
  owns_new : ∀ kind, owns (new kind)
  owns_of_next : ∀ task action task', next task action = some task' → owns task' → owns task

namespace Tasks

variable (tasks : Tasks κ τ L)

/-- The permits that a task gives back in a step. -/
def released (task task' : τ) : Nat := if tasks.owns task ∧ ¬ tasks.owns task' then 1 else 0

/-- A spawn takes a permit, and a task returns it when it ends. -/
def step (s : State τ) : Action κ L → Option (State τ)
  | .spawn kind =>
      if 0 < s.permits then some ⟨s.permits - 1, s.tasks ++ [tasks.new kind]⟩ else none
  | .act index action =>
      s.tasks[index]?.bind fun task =>
        (tasks.next task action).map fun task' =>
          ⟨s.permits + tasks.released task task', s.tasks.set index task'⟩

/-- All permits are left, and there is no task. -/
def initial (capacity : Nat) : State τ := ⟨capacity, []⟩

/-- The steps in which every task does only what it is allowed. -/
def allowed (may : τ → L → Prop) (s : State τ) : Action κ L → Prop
  | .spawn _ => True
  | .act index action => ∀ task, s.tasks[index]? = some task → may task action

variable {tasks} {s t : State τ}

theorem step_spawn (kind : κ) (h : 0 < s.permits) :
    tasks.step s (.spawn kind) = some ⟨s.permits - 1, s.tasks ++ [tasks.new kind]⟩ := if_pos h

theorem step_act {index : Nat} {task task' : τ} {action : L} (hget : s.tasks[index]? = some task)
    (hnext : tasks.next task action = some task') :
    tasks.step s (.act index action) =
      some ⟨s.permits + tasks.released task task', s.tasks.set index task'⟩ := by
  simp only [step, hget, Option.bind_some, hnext, Option.map_some]

/-- A step spawns a task on a free permit, or is one of a task there is. -/
theorem step_cases {action : Action κ L} (h : tasks.step s action = some t) :
    (∃ kind, action = .spawn kind ∧ 0 < s.permits ∧
      t = ⟨s.permits - 1, s.tasks ++ [tasks.new kind]⟩) ∨
    ∃ index inner task task', action = .act index inner ∧ s.tasks[index]? = some task ∧
      tasks.next task inner = some task' ∧
      t = ⟨s.permits + tasks.released task task', s.tasks.set index task'⟩ := by
  cases action with
  | spawn kind =>
      obtain ⟨hpermits, heq⟩ := Option.ite_none_right_eq_some.mp h
      exact .inl ⟨kind, rfl, hpermits, (Option.some.inj heq).symm⟩
  | act index inner =>
      obtain ⟨task, hget, hmap⟩ := Option.bind_eq_some_iff.mp h
      obtain ⟨task', hnext, rfl⟩ := Option.map_eq_some_iff.mp hmap
      exact .inr ⟨index, inner, task, task', rfl, hget, hnext, rfl⟩

/-- No permit is lost and none is made. -/
def Balanced (tasks : Tasks κ τ L) (capacity : Nat) (s : State τ) : Prop :=
  s.permits + s.tasks.countP tasks.owns = capacity

theorem released_add {action : L} {task task' : τ} (h : tasks.next task action = some task') :
    tasks.released task task' + (if tasks.owns task' then 1 else 0) =
      if tasks.owns task then 1 else 0 := by
  have hregain := tasks.owns_of_next task action task' h
  rw [released]
  cases howns : tasks.owns task' with
  | true => simp [hregain howns]
  | false => simp

theorem Balanced.step {capacity : Nat} {action : Action κ L} (hs : tasks.Balanced capacity s)
    (h : tasks.step s action = some t) : tasks.Balanced capacity t := by
  rw [Balanced] at hs
  rcases step_cases h with ⟨kind, -, hpermits, rfl⟩ | ⟨index, inner, task, task', -, hget, hnext, rfl⟩
  · rw [Balanced, List.countP_append, List.countP_singleton, if_pos (tasks.owns_new kind)]
    dsimp only
    omega
  · obtain ⟨hindex, hmem⟩ := List.getElem?_eq_some_iff.mp hget
    have hreleased := released_add hnext
    have hpos : (if tasks.owns task then 1 else 0) ≤ s.tasks.countP tasks.owns := by
      split
      · next howns =>
          exact List.countP_pos_iff.mpr ⟨task, hmem ▸ List.getElem_mem hindex, howns⟩
      · exact Nat.zero_le _
    rw [Balanced, List.countP_set hindex, hmem]
    dsimp only
    omega

theorem balanced_of_reachable {capacity : Nat}
    (hs : Reachable (· = initial capacity) (steps tasks.step) s) : tasks.Balanced capacity s := by
  refine hs.invariant ?_ fun s action t hi h => hi.step h
  rintro _ rfl
  exact Nat.add_zero capacity

/-- A property of every task. -/
def All (P : τ → Prop) (s : State τ) : Prop := ∀ task ∈ s.tasks, P task

/-- What every allowed step of a task keeps holds of all tasks. -/
theorem all_of_reachable {capacity : Nat} {may : τ → L → Prop} {P : τ → Prop}
    (hnew : ∀ kind, P (tasks.new kind))
    (hnext : ∀ task action task', P task → may task action →
      tasks.next task action = some task' → P task')
    (hs : Reachable (· = initial capacity) (restrict (allowed may) (steps tasks.step)) s) :
    All P s := by
  refine hs.invariant ?_ ?_
  · rintro _ rfl task hmem
    cases hmem
  · intro s action t hi h task hmem
    obtain ⟨hmay, hstep⟩ := h
    rcases step_cases hstep with
      ⟨kind, -, -, rfl⟩ | ⟨index, inner, before, after, rfl, hget, hafter, rfl⟩
    · rcases List.mem_append.mp hmem with hold | hlast
      · exact hi task hold
      · rw [List.mem_singleton] at hlast
        exact hlast ▸ hnew kind
    · rcases List.mem_or_eq_of_mem_set hmem with hold | rfl
      · exact hi task hold
      · exact hnext _ _ _ (hi before (List.mem_of_getElem? hget)) (hmay before hget) hafter

/-- Tasks that own their permit while they count are never more than the capacity. -/
theorem countP_le_capacity {capacity : Nat} {counts : τ → Bool} (hs : tasks.Balanced capacity s)
    (hcounts : All (fun task => counts task → tasks.owns task) s) :
    s.tasks.countP counts ≤ capacity := by
  have hle : s.tasks.countP counts ≤ s.tasks.countP tasks.owns := List.countP_mono_left hcounts
  rw [Balanced] at hs
  omega

end Tasks

end Dengjen.Semaphore

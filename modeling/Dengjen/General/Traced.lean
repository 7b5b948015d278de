import Mathlib.Data.List.Basic

/-!
# Programs that leave a trace

A program ends with a result or an error and leaves the events up to there. What
holds of all its events and that it fails are found from its parts.
-/

universe u

variable {Event Error ι : Type*} {α β : Type u}

/-- A result with the events on the way to it. -/
structure Traced (Event Error α : Type*) where
  trace : List Event
  result : Except Error α

namespace Traced

instance : Monad (Traced Event Error) where
  pure a := ⟨[], .ok a⟩
  bind program next :=
    match program.result with
    | .ok a => ⟨program.trace ++ (next a).trace, (next a).result⟩
    | .error error => ⟨program.trace, .error error⟩

/-- A program without an event. -/
def ofExcept (result : Except Error α) : Traced Event Error α := ⟨[], result⟩

/-- An event and what it comes to. -/
def emit (event : Event) (result : Except Error α) : Traced Event Error α := ⟨[event], result⟩

theorem bind_of_ok {program : Traced Event Error α} {a : α} (h : program.result = .ok a)
    (next : α → Traced Event Error β) :
    program >>= next = ⟨program.trace ++ (next a).trace, (next a).result⟩ := by
  obtain ⟨trace, result⟩ := program
  cases h
  rfl

theorem bind_of_error {program : Traced Event Error α} {error : Error}
    (h : program.result = .error error) (next : α → Traced Event Error β) :
    program >>= next = ⟨program.trace, .error error⟩ := by
  obtain ⟨trace, result⟩ := program
  cases h
  rfl

/-- Both parts of a program that succeeds succeed. -/
theorem exists_of_bind_result {program : Traced Event Error α} {next : α → Traced Event Error β}
    {b : β} (h : (program >>= next).result = .ok b) :
    ∃ a, program.result = .ok a ∧ (next a).result = .ok b := by
  cases hresult : program.result with
  | error error =>
      rw [bind_of_error hresult] at h
      cases h
  | ok a =>
      rw [bind_of_ok hresult] at h
      exact ⟨a, rfl, h⟩

/-! ## All events -/

/-- Every event of the program is one of these. -/
def Emits (P : Event → Prop) (program : Traced Event Error α) : Prop :=
  ∀ event ∈ program.trace, P event

section Emits

variable {P : Event → Prop} {program : Traced Event Error α}

theorem emits_pure (a : α) : Emits P (pure a : Traced Event Error α) := nofun

theorem emits_ofExcept (result : Except Error α) :
    Emits P (ofExcept result : Traced Event Error α) := nofun

theorem emits_emit {event : Event} (h : P event) (result : Except Error α) :
    Emits P (emit event result : Traced Event Error α) := by
  intro other hmem
  cases List.mem_singleton.mp hmem
  exact h

theorem Emits.bind (h : Emits P program) {next : α → Traced Event Error β}
    (hnext : ∀ a, program.result = .ok a → Emits P (next a)) : Emits P (program >>= next) := by
  cases hresult : program.result with
  | error error =>
      rw [bind_of_error hresult]
      exact h
  | ok a =>
      rw [bind_of_ok hresult]
      intro event hmem
      rcases List.mem_append.mp hmem with hold | hnew
      · exact h event hold
      · exact hnext a hresult event hnew

theorem emits_forM {items : List ι} {action : ι → Traced Event Error PUnit}
    (h : ∀ item ∈ items, Emits P (action item)) : Emits P (items.forM action) := by
  induction items with
  | nil => exact emits_pure _
  | cons item rest ih =>
      obtain ⟨hitem, hrest⟩ := List.forall_mem_cons.mp h
      exact hitem.bind fun _ _ => ih hrest

/-- What holds of all events of a program holds of those of its first part. -/
theorem Emits.first {next : α → Traced Event Error β} (h : Emits P (program >>= next)) :
    Emits P program := by
  intro event hmem
  cases hresult : program.result with
  | error error =>
      rw [bind_of_error hresult] at h
      exact h event hmem
  | ok a =>
      rw [bind_of_ok hresult] at h
      exact h event (List.mem_append_left _ hmem)

/-- And of those of its second part, where that is reached. -/
theorem Emits.second {next : α → Traced Event Error β} {a : α} (h : Emits P (program >>= next))
    (hresult : program.result = .ok a) : Emits P (next a) := by
  rw [bind_of_ok hresult] at h
  intro event hmem
  exact h event (List.mem_append_right program.trace hmem)

end Emits

/-! ## Failure -/

/-- The program ends in an error. -/
def Fails (program : Traced Event Error α) : Prop := ∃ error, program.result = .error error

section Fails

variable {program : Traced Event Error α}

theorem Fails.bind (h : program.Fails) (next : α → Traced Event Error β) :
    (program >>= next).Fails := by
  obtain ⟨error, hresult⟩ := h
  exact ⟨error, by rw [bind_of_error hresult]⟩

theorem fails_bind {next : α → Traced Event Error β}
    (h : ∀ a, program.result = .ok a → (next a).Fails) : (program >>= next).Fails := by
  cases hresult : program.result with
  | error error => exact ⟨error, by rw [bind_of_error hresult]⟩
  | ok a =>
      obtain ⟨error, hnext⟩ := h a hresult
      exact ⟨error, by rw [bind_of_ok hresult]; exact hnext⟩

theorem fails_forM {items : List ι} {action : ι → Traced Event Error PUnit} {item : ι}
    (hmem : item ∈ items) (h : (action item).Fails) : Traced.Fails (items.forM action) := by
  induction items with
  | nil => cases hmem
  | cons head rest ih =>
      rcases List.mem_cons.mp hmem with rfl | hrest
      · exact h.bind _
      · exact fails_bind fun _ _ => ih hrest

end Fails

end Traced

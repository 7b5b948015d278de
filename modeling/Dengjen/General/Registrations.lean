import Dengjen.General.TransitionSystem
import Mathlib.Logic.Function.Basic

/-!
# A registry shared by many clients

A client puts an entry under a fresh token into a registry, finds it through
the token, and takes it out. The registry is shared, and the clients' accesses
interleave in any order. Tokens are fresh, so a client meets the registry as if
it were a slot of its own: a run of all clients projects to a run of each.
-/

namespace Dengjen.Registrations

open TransitionSystem

/-- What a step of a client does to the registry, and what it sees there. -/
inductive Access (V : Type*)
  | register (entry : V)
  | lookup (found : Option V)
  | remove (found : Option V)
  | internal

/-- The part of a registry that one client has. -/
inductive Slot (V : Type*)
  | unregistered
  | held (entry : V)
  | released

namespace Slot

variable {V : Type*}

/-- What a look at a slot finds. -/
def found : Slot V → Option V
  | held entry => some entry
  | _ => none

/-- What an access makes of the slot of the client. -/
inductive Accessed : Slot V → Access V → Slot V → Prop
  | register (entry) : Accessed .unregistered (.register entry) (.held entry)
  | lookup {slot} (h : slot ≠ .unregistered) : Accessed slot (.lookup slot.found) slot
  | remove {slot} (h : slot ≠ .unregistered) : Accessed slot (.remove slot.found) .released
  | internal (slot) : Accessed slot .internal slot

end Slot

variable {C V S : Type*}

/-- A step of a client that has a slot of its own. -/
def aloneStep (program : S → Access V → S → Prop) (s : Slot V × S) (access : Access V)
    (t : Slot V × S) : Prop :=
  s.1.Accessed access t.1 ∧ program s.2 access t.2

/-- The states of a client that is alone. -/
def AloneReachable (init : S) (program : S → Access V → S → Prop) : Slot V × S → Prop :=
  Reachable (· = (.unregistered, init)) (aloneStep program)

/-- The registry with its clients. -/
structure Shared (C V S : Type*) where
  next : Nat
  entries : Nat → Option V
  token : C → Option Nat
  client : C → S

namespace Shared

variable {r r' : Shared C V S} {c d : C} {t : Nat}

/-- No client has registered anything. -/
def initial (init : C → S) : Shared C V S := ⟨0, fun _ => none, fun _ => none, init⟩

/-- The slot of a client, read off the registry. -/
def slot (r : Shared C V S) (c : C) : Slot V :=
  match r.token c with
  | none => .unregistered
  | some t =>
      match r.entries t with
      | some entry => .held entry
      | none => .released

theorem slot_of_none (h : r.token c = none) : r.slot c = .unregistered := by
  simp only [slot, h]

theorem slot_of_entry {entry : V} (h : r.token c = some t) (he : r.entries t = some entry) :
    r.slot c = .held entry := by
  simp only [slot, h, he]

theorem slot_of_no_entry (h : r.token c = some t) (he : r.entries t = none) :
    r.slot c = .released := by
  simp only [slot, h, he]

theorem slot_ne_unregistered (h : r.token c = some t) : r.slot c ≠ .unregistered := by
  simp only [slot, h]
  split <;> simp

theorem slot_found (h : r.token c = some t) : (r.slot c).found = r.entries t := by
  cases he : r.entries t with
  | none => rw [slot_of_no_entry h he, Slot.found]; simp
  | some entry => rw [slot_of_entry h he, Slot.found]

theorem slot_congr (htoken : r'.token c = r.token c)
    (h : ∀ t, r.token c = some t → r'.entries t = r.entries t) : r'.slot c = r.slot c := by
  cases ht : r.token c with
  | none => rw [slot_of_none (htoken.trans ht), slot_of_none ht]
  | some t => simp only [slot, htoken, ht, h t ht]

/-- Tokens have been handed out by the counter, to one client each, and entries are under them. -/
structure WellFormed (r : Shared C V S) : Prop where
  fresh : ∀ c t, r.token c = some t → t < r.next
  distinct : ∀ c d t, r.token c = some t → r.token d = some t → c = d
  owned : ∀ t entry, r.entries t = some entry → ∃ c, r.token c = some t

theorem wellFormed_initial (init : C → S) : (initial init : Shared C V S).WellFormed where
  fresh := by simp [initial]
  distinct := by simp [initial]
  owned := by simp [initial]

theorem WellFormed.ne_next (h : r.WellFormed) (ht : r.token c = some t) : t ≠ r.next :=
  Nat.ne_of_lt (h.fresh c t ht)

/-- The registry has an entry under a token if and only if a client holds it there. -/
theorem WellFormed.entries_iff (h : r.WellFormed) {entry : V} :
    r.entries t = some entry ↔ ∃ c, r.token c = some t ∧ r.slot c = .held entry := by
  constructor
  · intro he
    obtain ⟨c, hc⟩ := h.owned t entry he
    exact ⟨c, hc, slot_of_entry hc he⟩
  · rintro ⟨c, hc, hslot⟩
    rw [← slot_found hc, hslot, Slot.found]

variable [DecidableEq C]

/-- A client registers an entry under a fresh token. -/
def put (r : Shared C V S) (c : C) (entry : V) (s : S) : Shared C V S where
  next := r.next + 1
  entries := Function.update r.entries r.next (some entry)
  token := Function.update r.token c (some r.next)
  client := Function.update r.client c s

/-- A client removes the entry of a token. -/
def take (r : Shared C V S) (c : C) (t : Nat) (s : S) : Shared C V S :=
  { r with entries := Function.update r.entries t none, client := Function.update r.client c s }

/-- A client goes on without the registry. -/
def move (r : Shared C V S) (c : C) (s : S) : Shared C V S :=
  { r with client := Function.update r.client c s }

@[simp] theorem put_entries (entry : V) (s : S) :
    (r.put c entry s).entries = Function.update r.entries r.next (some entry) := rfl

@[simp] theorem put_token (entry : V) (s : S) :
    (r.put c entry s).token = Function.update r.token c (some r.next) := rfl

@[simp] theorem put_client (entry : V) (s : S) :
    (r.put c entry s).client = Function.update r.client c s := rfl

@[simp] theorem take_entries (s : S) :
    (r.take c t s).entries = Function.update r.entries t none := rfl

@[simp] theorem take_token (s : S) : (r.take c t s).token = r.token := rfl

@[simp] theorem take_client (s : S) :
    (r.take c t s).client = Function.update r.client c s := rfl

@[simp] theorem move_client (s : S) : (r.move c s).client = Function.update r.client c s := rfl

theorem slot_move (s : S) : (r.move c s).slot d = r.slot d := rfl

/-- A step of one client, with what it does to the registry. -/
inductive Step (program : C → S → Access V → S → Prop) :
    Shared C V S → C × Access V → Shared C V S → Prop
  | register {r c entry s} (h : r.token c = none)
      (hp : program c (r.client c) (.register entry) s) :
      Step program r (c, .register entry) (r.put c entry s)
  | lookup {r c t s} (h : r.token c = some t)
      (hp : program c (r.client c) (.lookup (r.entries t)) s) :
      Step program r (c, .lookup (r.entries t)) (r.move c s)
  | remove {r c t s} (h : r.token c = some t)
      (hp : program c (r.client c) (.remove (r.entries t)) s) :
      Step program r (c, .remove (r.entries t)) (r.take c t s)
  | internal {r c s} (hp : program c (r.client c) .internal s) :
      Step program r (c, .internal) (r.move c s)

/-! ### Well-formed registries -/

theorem WellFormed.put (h : r.WellFormed) (hc : r.token c = none) (entry : V) (s : S) :
    (r.put c entry s).WellFormed where
  fresh d t ht := by
    by_cases hd : d = c
    · subst hd
      rw [put_token, Function.update_self, Option.some.injEq] at ht
      exact ht ▸ Nat.lt_succ_self _
    · rw [put_token, Function.update_of_ne hd] at ht
      exact Nat.lt_succ_of_lt (h.fresh d t ht)
  distinct d e t hd he := by
    rw [put_token] at hd he
    by_cases hdc : d = c <;> by_cases hec : e = c
    · rw [hdc, hec]
    · rw [hdc, Function.update_self, Option.some.injEq] at hd
      rw [Function.update_of_ne hec] at he
      exact absurd hd.symm (h.ne_next he)
    · rw [hec, Function.update_self, Option.some.injEq] at he
      rw [Function.update_of_ne hdc] at hd
      exact absurd he.symm (h.ne_next hd)
    · rw [Function.update_of_ne hdc] at hd
      rw [Function.update_of_ne hec] at he
      exact h.distinct d e t hd he
  owned t entry' ht := by
    rw [put_token]
    by_cases htn : t = r.next
    · exact ⟨c, by rw [Function.update_self, htn]⟩
    · rw [put_entries, Function.update_of_ne htn] at ht
      obtain ⟨d, hd⟩ := h.owned t entry' ht
      have hdc : d ≠ c := fun heq => by simp [heq, hc] at hd
      exact ⟨d, by rw [Function.update_of_ne hdc, hd]⟩

theorem WellFormed.take (h : r.WellFormed) (c : C) (t : Nat) (s : S) :
    (r.take c t s).WellFormed where
  fresh := h.fresh
  distinct := h.distinct
  owned t' entry ht' := by
    by_cases htt : t' = t
    · rw [take_entries, htt, Function.update_self] at ht'
      cases ht'
    · rw [take_entries, Function.update_of_ne htt] at ht'
      exact h.owned t' entry ht'

theorem WellFormed.step {program : C → S → Access V → S → Prop} {label : C × Access V}
    (h : r.WellFormed) (hstep : Step program r label r') : r'.WellFormed := by
  cases hstep with
  | register hc => exact h.put hc _ _
  | lookup | internal => exact ⟨h.fresh, h.distinct, h.owned⟩
  | remove => exact h.take _ _ _

/-! ### What one step does to the slots -/

theorem slot_put_self (entry : V) (s : S) : (r.put c entry s).slot c = .held entry :=
  slot_of_entry (t := r.next) (by rw [put_token, Function.update_self])
    (by rw [put_entries, Function.update_self])

theorem slot_put_of_ne (h : r.WellFormed) (hd : d ≠ c) (entry : V) (s : S) :
    (r.put c entry s).slot d = r.slot d := by
  apply slot_congr
  · rw [put_token, Function.update_of_ne hd]
  · intro t ht
    rw [put_entries, Function.update_of_ne (h.ne_next ht)]

theorem slot_take_self (hc : r.token c = some t) (s : S) : (r.take c t s).slot c = .released :=
  slot_of_no_entry (t := t) hc (by rw [take_entries, Function.update_self])

theorem slot_take_of_ne (h : r.WellFormed) (hc : r.token c = some t) (hd : d ≠ c) (s : S) :
    (r.take c t s).slot d = r.slot d := by
  apply slot_congr
  · rw [take_token]
  · intro t' ht'
    have hne : t' ≠ t := fun heq => hd (h.distinct d c t (heq ▸ ht') hc)
    rw [take_entries, Function.update_of_ne hne]

variable {program : C → S → Access V → S → Prop} {access : Access V}

/-- To the client that moves, a step is one with a slot of its own. -/
theorem Step.alone (hstep : Step program r (c, access) r') :
    aloneStep (program c) (r.slot c, r.client c) access (r'.slot c, r'.client c) := by
  cases hstep with
  | register h hp =>
      refine ⟨?_, by rwa [put_client, Function.update_self]⟩
      rw [slot_put_self, slot_of_none h]
      exact .register _
  | lookup h hp =>
      refine ⟨?_, by rwa [move_client, Function.update_self]⟩
      rw [slot_move, ← slot_found h]
      exact .lookup (slot_ne_unregistered h)
  | remove h hp =>
      refine ⟨?_, by rwa [take_client, Function.update_self]⟩
      rw [slot_take_self h, ← slot_found h]
      exact .remove (slot_ne_unregistered h)
  | internal hp =>
      refine ⟨?_, by rwa [move_client, Function.update_self]⟩
      rw [slot_move]
      exact .internal _

/-- To the others it is none. -/
theorem Step.others (h : r.WellFormed) (hstep : Step program r (c, access) r') (hd : d ≠ c) :
    r'.slot d = r.slot d ∧ r'.client d = r.client d := by
  cases hstep with
  | register => exact ⟨slot_put_of_ne h hd _ _, by rw [put_client, Function.update_of_ne hd]⟩
  | lookup | internal => exact ⟨rfl, by rw [move_client, Function.update_of_ne hd]⟩
  | remove hc => exact ⟨slot_take_of_ne h hc hd _, by rw [take_client, Function.update_of_ne hd]⟩

/-- Each client is where it can get with a slot of its own. -/
def Separated (program : C → S → Access V → S → Prop) (init : C → S) (r : Shared C V S) : Prop :=
  r.WellFormed ∧ ∀ c, AloneReachable (init c) (program c) (r.slot c, r.client c)

theorem Separated.step {init : C → S} {label : C × Access V} (h : Separated program init r)
    (hstep : Step program r label r') : Separated program init r' := by
  obtain ⟨hwf, hr⟩ := h
  obtain ⟨c, access⟩ := label
  refine ⟨hwf.step hstep, fun d => ?_⟩
  by_cases hd : d = c
  · rw [hd]
    exact (hr c).next hstep.alone
  · obtain ⟨hslot, hclient⟩ := hstep.others hwf hd
    rw [hslot, hclient]
    exact hr d

/-- Each client of a reachable registry is where it can get with a slot of its own. -/
theorem reachable_alone {init : C → S}
    (h : Reachable (· = initial init) (Step program) r) :
    r.WellFormed ∧ ∀ c, AloneReachable (init c) (program c) (r.slot c, r.client c) := by
  have hseparated : Separated program init r := by
    refine h.invariant ?_ fun _ _ _ => Separated.step
    rintro r rfl
    exact ⟨wellFormed_initial init, fun c => Reachable.of_init rfl⟩
  exact hseparated

end Shared

end Dengjen.Registrations

import Dengjen.General.OwnedSlot
import Dengjen.General.TransitionSystem

/-!
# The cancel slot of a voice

Every realtime `libdengjenSpeak` of a voice makes a token, publishes it in the slot
`active_cancel_token` of the voice, and takes it out again when its
`CancelSlotGuard` drops, however it ends. `libdengjenCancel` cancels what is in
the slot. The syntheses of a voice run on threads of their own; what one of them
does under the lock of the slot is one step.

## Implementation notes

A token is the address of its flag, which is what `points_to_same_flag` compares.
A flag is at a new address while anybody has a token of it, and may be at a freed
one later. A poisoned lock is taken as a healthy one, so nothing is kept of it.
-/

namespace Dengjen.Capi.CancelSlot

open TransitionSystem OwnedSlot

variable {α : Type*}

/-- Where a realtime synthesis is: it has its token, it has published it and creates the stream,
it is in `iterate_stream`, it is about to drop its guard, or it has dropped it. -/
inductive Stage
  | created
  | opening
  | iterating
  | leaving
  | ended
  deriving DecidableEq

/-- A synthesis with its token and where it is. -/
structure Synthesis (α : Type*) where
  token : α
  stage : Stage
  deriving DecidableEq

/-- The token whose guard has not been dropped. -/
def Synthesis.guard (synthesis : Synthesis α) : Option α :=
  match synthesis.stage with
  | .created | .ended => none
  | .opening | .iterating | .leaving => some synthesis.token

/-- The token that the synthesis has a clone of. -/
def Synthesis.token? (synthesis : Synthesis α) : Option α :=
  if synthesis.stage = .ended then none else some synthesis.token

/-- A voice with its realtime syntheses, in the order of their tokens' creation. -/
structure State (α : Type*) where
  syntheses : List (Synthesis α)
  slot : Option α
  cancelled : α → Bool

/-- What may happen to the syntheses or to the slot. -/
inductive Action (α : Type*)
  | newToken (token : α)
  | publish (i : Nat)
  | streamOpened (i : Nat)
  | streamRefused (i : Nat)
  | streamLeft (i : Nat)
  | panicked (i : Nat)
  | dropGuard (i : Nat)
  | cancel

/-- The synthesis that an action starts. -/
def Action.started? : Action α → Option Nat
  | .publish i => some i
  | _ => none

/-- The actions between the start of a synthesis and its end. -/
def Action.Moves : Action α → Prop
  | .streamOpened _ | .streamRefused _ | .streamLeft _ | .panicked _ => True
  | _ => False

theorem Action.started?_of_moves {action : Action α} (h : action.Moves) :
    action.started? = none := by
  cases action <;> first | rfl | cases h

/-- The realtime synthesis that was started last. -/
def latestStart (actions : List (Action α)) : Option Nat :=
  (actions.filterMap Action.started?).getLast?

theorem latestStart_publish (actions : List (Action α)) (i : Nat) :
    latestStart (actions ++ [.publish i]) = some i := by
  simp [latestStart, Action.started?]

theorem latestStart_append {action : Action α} (h : action.started? = none)
    (actions : List (Action α)) : latestStart (actions ++ [action]) = latestStart actions := by
  simp [latestStart, h]

namespace State

/-- No synthesis has begun and no token is in the slot. -/
def new (cancelled : α → Bool) : State α := ⟨[], none, cancelled⟩

/-- The token of a synthesis whose guard has not been dropped. -/
def guard (state : State α) (i : Nat) : Option α := state.syntheses[i]?.bind Synthesis.guard

/-- The token that a synthesis has a clone of. -/
def token? (state : State α) (i : Nat) : Option α := state.syntheses[i]?.bind Synthesis.token?

/-- A synthesis is in progress from the start, when it publishes its token, to the end, when its
guard drops. -/
def InProgress (state : State α) (i : Nat) : Prop := (state.guard i).isSome

/-- Nobody has a token of the flag at this address. -/
def Unused (state : State α) (token : α) : Prop :=
  state.slot ≠ some token ∧ ∀ synthesis ∈ state.syntheses, synthesis.token? ≠ some token

/-- A synthesis has gone on. -/
def moveTo (state : State α) (i : Nat) (token : α) (stage : Stage) : State α :=
  { state with syntheses := state.syntheses.set i ⟨token, stage⟩ }

/-- The token of a synthesis is put in the slot. -/
def publish (state : State α) (i : Nat) (token : α) : State α :=
  { state.moveTo i token .opening with slot := some token }

section Lemmas

variable {state : State α} {i : Nat} {token : α} {before after : Stage}

theorem guard_eq (hi : state.syntheses[i]? = some ⟨token, before⟩) :
    state.guard i = Synthesis.guard ⟨token, before⟩ := by
  rw [guard, hi, Option.bind_some]

theorem token?_eq (hi : state.syntheses[i]? = some ⟨token, before⟩) :
    state.token? i = Synthesis.token? ⟨token, before⟩ := by
  rw [token?, hi, Option.bind_some]

theorem token?_of_guard (h : state.guard i = some token) : state.token? i = some token := by
  obtain ⟨⟨token', stage⟩, hi, hguard⟩ := Option.bind_eq_some_iff.mp h
  rw [token?_eq hi]
  cases stage <;> first | exact hguard | cases hguard

theorem Unused.token?_ne (h : state.Unused token) (i : Nat) : state.token? i ≠ some token := by
  intro htoken
  obtain ⟨synthesis, hi, heq⟩ := Option.bind_eq_some_iff.mp htoken
  exact h.2 synthesis (List.mem_of_getElem? hi) heq

theorem guard_moveTo (hi : state.syntheses[i]? = some ⟨token, before⟩) :
    (state.moveTo i token after).guard =
      Function.update state.guard i (Synthesis.guard ⟨token, after⟩) :=
  bind_getElem?_set hi _ _

theorem token?_moveTo (hi : state.syntheses[i]? = some ⟨token, before⟩) :
    (state.moveTo i token after).token? =
      Function.update state.token? i (Synthesis.token? ⟨token, after⟩) :=
  bind_getElem?_set hi _ _

theorem token?_moveTo_of_ne (hi : state.syntheses[i]? = some ⟨token, before⟩)
    (hbefore : before ≠ .ended) (hafter : after ≠ .ended) :
    (state.moveTo i token after).token? = state.token? := by
  rw [token?_moveTo hi, Function.update_eq_self_iff, token?_eq hi, Synthesis.token?,
    Synthesis.token?, if_neg hbefore, if_neg hafter]

end Lemmas

variable [DecidableEq α]

instance (state : State α) (token : α) : Decidable (state.Unused token) :=
  inferInstanceAs (Decidable (_ ∧ _))

/-- `CancellationToken::new` -/
def newToken (state : State α) (token : α) : State α :=
  { state with
    syntheses := state.syntheses ++ [⟨token, .created⟩]
    cancelled := Function.update state.cancelled token false }

/-- `CancelSlotGuard::drop` -/
def dropGuard (state : State α) (i : Nat) (token : α) : State α :=
  let stillOwnsSlot := state.slot.any fun current => current = token
  { state.moveTo i token .ended with slot := if stillOwnsSlot then none else state.slot }

/-- `_cancel` -/
def cancel (state : State α) : State α :=
  match state.slot with
  | none => state
  | some activeToken =>
      { state with cancelled := Function.update state.cancelled activeToken true }

/-- The syntheses and the slot do what their lines let them. -/
def step (state : State α) : Action α → Option (State α)
  | .newToken token => if state.Unused token then some (state.newToken token) else none
  | .publish i =>
      match state.syntheses[i]? with
      | some ⟨token, .created⟩ => some (state.publish i token)
      | _ => none
  | .streamOpened i =>
      match state.syntheses[i]? with
      | some ⟨token, .opening⟩ => some (state.moveTo i token .iterating)
      | _ => none
  -- `synthesize_samples` returns an error.
  | .streamRefused i =>
      match state.syntheses[i]? with
      | some ⟨token, .opening⟩ => some (state.moveTo i token .leaving)
      | _ => none
  -- `iterate_stream` returns: at the end, at an error, or when the voice or the caller stops it.
  | .streamLeft i =>
      match state.syntheses[i]? with
      | some ⟨token, .iterating⟩ => some (state.moveTo i token .leaving)
      | _ => none
  | .panicked i =>
      match state.syntheses[i]? with
      | some ⟨token, .opening⟩ | some ⟨token, .iterating⟩ =>
          some (state.moveTo i token .leaving)
      | _ => none
  | .dropGuard i =>
      match state.syntheses[i]? with
      | some ⟨token, .leaving⟩ => some (state.dropGuard i token)
      | _ => none
  | .cancel => some state.cancel

theorem guard_newToken (state : State α) (token : α) :
    (state.newToken token).guard = state.guard := by
  refine (bind_getElem?_concat _ _ _).trans ?_
  refine Function.update_eq_self_iff.mpr ?_
  rw [List.getElem?_eq_none le_rfl]
  rfl

theorem token?_newToken (state : State α) (token : α) :
    (state.newToken token).token? =
      Function.update state.token? state.syntheses.length (some token) :=
  bind_getElem?_concat _ _ _

theorem dropGuard_slot (state : State α) (i : Nat) (token : α) :
    (state.dropGuard i token).slot = retract state.slot token := by
  cases hslot : state.slot with
  | none => simp [dropGuard, retract, hslot]
  | some current => simp [dropGuard, retract, hslot]

theorem cancel_slot (state : State α) : state.cancel.slot = state.slot := by
  rw [cancel]
  split <;> rfl

theorem cancel_syntheses (state : State α) : state.cancel.syntheses = state.syntheses := by
  rw [cancel]
  split <;> rfl

theorem guard_cancel (state : State α) : state.cancel.guard = state.guard :=
  funext fun i => by rw [guard, guard, cancel_syntheses]

theorem token?_cancel (state : State α) : state.cancel.token? = state.token? :=
  funext fun i => by rw [token?, token?, cancel_syntheses]

theorem cancel_cancelled (state : State α) (token : α) :
    state.cancel.cancelled token = (state.cancelled token || state.slot = some token) := by
  rw [cancel]
  split
  · next hslot => simp [hslot]
  · next activeToken hslot =>
      by_cases htoken : token = activeToken
      · simp [hslot, htoken]
      · simp [hslot, Function.update_of_ne htoken, Ne.symm htoken]

end State

/-- The slot has the token of the synthesis started last while that one has its guard, and two
syntheses never share a flag. -/
structure Tracked (actions : List (Action α)) (state : State α) : Prop where
  owned : Owned state.guard (latestStart actions) state.slot
  distinct : Distinct state.token?

namespace Tracked

variable {actions : List (Action α)} {state : State α}

theorem new (cancelled : α → Bool) : Tracked [] (State.new cancelled) where
  owned := rfl
  distinct := fun _ _ _ h => absurd h (by simp [State.new, State.token?])

theorem distinct_guard (h : Tracked actions state) : Distinct state.guard :=
  fun i j token hi hj =>
    h.distinct i j token (State.token?_of_guard hi) (State.token?_of_guard hj)

theorem slot_eq (h : Tracked actions state) :
    state.slot = none ∨
      ∃ i token, latestStart actions = some i ∧ state.InProgress i ∧
        state.token? i = some token ∧ state.slot = some token := by
  refine (Option.eq_none_or_eq_some state.slot).imp_right ?_
  rintro ⟨token, hslot⟩
  obtain ⟨i, hlatest, hguard⟩ := h.owned.exists_owner hslot
  exact ⟨i, token, hlatest, Option.isSome_of_eq_some hguard, State.token?_of_guard hguard, hslot⟩

theorem latest {i : Nat} {token : α} (h : Tracked actions state)
    (htoken : state.token? i = some token) (hslot : state.slot = some token) :
    latestStart actions = some i := by
  obtain ⟨j, hlatest, hguard⟩ := h.owned.exists_owner hslot
  rw [hlatest, h.distinct j i token (State.token?_of_guard hguard) htoken]

end Tracked

variable [DecidableEq α]

/-- What the actions do to the guards and the slot. -/
inductive Stepped (state : State α) : Action α → State α → Prop
  | newToken (token : α) (hunused : state.Unused token) :
      Stepped state (.newToken token) (state.newToken token)
  | publish (i : Nat) (token : α) (hi : state.syntheses[i]? = some ⟨token, .created⟩) :
      Stepped state (.publish i) (state.publish i token)
  | moved (action : Action α) (i : Nat) (token : α) (before after : Stage)
      (hmoves : action.Moves) (hi : state.syntheses[i]? = some ⟨token, before⟩)
      (hbefore : before = .opening ∨ before = .iterating)
      (hafter : after = .iterating ∨ after = .leaving) :
      Stepped state action (state.moveTo i token after)
  | dropGuard (i : Nat) (token : α) (hi : state.syntheses[i]? = some ⟨token, .leaving⟩) :
      Stepped state (.dropGuard i) (state.dropGuard i token)
  | cancel : Stepped state .cancel state.cancel

theorem stepped_of_step {state state' : State α} {action : Action α}
    (h : state.step action = some state') : Stepped state action state' := by
  cases action with
  | newToken token =>
      obtain ⟨hunused, heq⟩ := Option.ite_none_right_eq_some.mp h
      exact Option.some.inj heq ▸ .newToken token hunused
  | publish i =>
      rw [State.step] at h
      split at h
      · next token hi => exact Option.some.inj h ▸ .publish i token hi
      · cases h
  | streamOpened i =>
      rw [State.step] at h
      split at h
      · next token hi =>
          exact Option.some.inj h ▸ .moved _ i token _ _ trivial hi (.inl rfl) (.inl rfl)
      · cases h
  | streamRefused i =>
      rw [State.step] at h
      split at h
      · next token hi =>
          exact Option.some.inj h ▸ .moved _ i token _ _ trivial hi (.inl rfl) (.inr rfl)
      · cases h
  | streamLeft i =>
      rw [State.step] at h
      split at h
      · next token hi =>
          exact Option.some.inj h ▸ .moved _ i token _ _ trivial hi (.inr rfl) (.inr rfl)
      · cases h
  | panicked i =>
      rw [State.step] at h
      split at h
      · next token hi =>
          exact Option.some.inj h ▸ .moved _ i token _ _ trivial hi (.inl rfl) (.inr rfl)
      · next token hi =>
          exact Option.some.inj h ▸ .moved _ i token _ _ trivial hi (.inr rfl) (.inr rfl)
      · cases h
  | dropGuard i =>
      rw [State.step] at h
      split at h
      · next token hi => exact Option.some.inj h ▸ .dropGuard i token hi
      · cases h
  | cancel => exact Option.some.inj h ▸ .cancel

namespace Tracked

variable {actions : List (Action α)} {state state' : State α}

theorem step {action : Action α} (h : Tracked actions state)
    (hstep : state.step action = some state') : Tracked (actions ++ [action]) state' := by
  cases stepped_of_step hstep with
  | newToken token hunused =>
      refine ⟨?_, ?_⟩
      · rw [latestStart_append rfl, State.guard_newToken]
        exact h.owned
      · rw [State.token?_newToken]
        exact h.distinct.publish hunused.token?_ne _
  | publish i token hi =>
      refine ⟨?_, ?_⟩
      · rw [latestStart_publish]
        exact (State.guard_moveTo hi).symm ▸ Owned.publish state.guard i token
      · exact (State.token?_moveTo_of_ne hi (by decide) (by decide) :
          (state.publish i token).token? = _) ▸ h.distinct
  | moved _ i token before after hmoves hi hbefore hafter =>
      refine ⟨?_, ?_⟩
      · have hguard : Synthesis.guard ⟨token, after⟩ = state.guard i := by
          rw [State.guard_eq hi]
          rcases hbefore with rfl | rfl <;> rcases hafter with rfl | rfl <;> rfl
        rw [latestStart_append (Action.started?_of_moves hmoves), State.guard_moveTo hi, hguard,
          Function.update_eq_self]
        exact h.owned
      · rw [State.token?_moveTo_of_ne hi]
        · exact h.distinct
        · rcases hbefore with rfl | rfl <;> decide
        · rcases hafter with rfl | rfl <;> decide
  | dropGuard i token hi =>
      refine ⟨?_, ?_⟩
      · rw [latestStart_append rfl, State.dropGuard_slot]
        exact (State.guard_moveTo hi).symm ▸
          h.owned.retract h.distinct_guard (State.guard_eq hi)
      · exact (State.token?_moveTo hi).symm ▸ h.distinct.retract i
  | cancel =>
      refine ⟨?_, ?_⟩
      · rw [latestStart_append rfl, State.guard_cancel, State.cancel_slot]
        exact h.owned
      · rw [State.token?_cancel]
        exact h.distinct

theorem of_run {cancelled : α → Bool}
    (run : Run (steps State.step) (.new cancelled) actions state) : Tracked actions state :=
  @Run.traces _ _ _ Tracked (fun _ _ _ _ h hstep => h.step hstep) _ _ _ _ run (new cancelled)

end Tracked

variable {cancelled : α → Bool} {actions : List (Action α)} {state state' : State α}

/-- Only the start of another synthesis and the end of its own one take a token out. -/
theorem Tracked.slot_keeps {action : Action α} {j : Nat} {token : α} (h : Tracked actions state)
    (hstep : state.step action = some state') (hstart : action.started? = none)
    (hend : action ≠ .dropGuard j) (htoken : state.token? j = some token)
    (hslot : state.slot = some token) : state'.slot = some token := by
  cases stepped_of_step hstep with
  | newToken token' hunused => exact hslot
  | publish i token' hi => cases hstart
  | moved _ i token' before after hmoves hi hbefore hafter => exact hslot
  | dropGuard i token' hi =>
      have hother : state.slot ≠ some token' := by
        intro hslot'
        cases hslot.symm.trans hslot'
        exact hend (congrArg _ (h.distinct i j token (State.token?_eq hi) htoken))
      rw [State.dropGuard_slot, retract_of_ne hother, hslot]
  | cancel => rw [State.cancel_slot, hslot]

/-- In every interleaving of the syntheses of a voice and its cancellations, the slot is empty or
has the token of the synthesis started last, which is in progress and the only one with that
token; the end of a synthesis leaves the tokens of the others in the slot, as does all but the
start of a new one, and a cancellation reaches the token in the slot and no other. -/
theorem slot_of_run (run : Run (steps State.step) (.new cancelled) actions state) :
    (state.slot = none ∨
      ∃ i token, latestStart actions = some i ∧ state.InProgress i ∧
        state.token? i = some token ∧ state.slot = some token) ∧
      (∀ i token, state.token? i = some token → state.slot = some token →
        latestStart actions = some i) ∧
      (∀ action state' j token, state.step action = some state' → action.started? = none →
        action ≠ .dropGuard j → state.token? j = some token → state.slot = some token →
        state'.slot = some token) ∧
      state.step .cancel = some state.cancel ∧ state.cancel.slot = state.slot ∧
      ∀ token,
        state.cancel.cancelled token = (state.cancelled token || state.slot = some token) := by
  have h := Tracked.of_run run
  refine ⟨h.slot_eq, fun i token => h.latest, ?_, rfl, state.cancel_slot, state.cancel_cancelled⟩
  intro action state' j token hstep
  exact h.slot_keeps hstep

/-- A synthesis that panics after a second one has started leaves the token of the second one. -/
theorem slot_of_overlap :
    ∃ state, replay State.step (.new fun _ => false)
        [.newToken 0, .publish 0, .newToken 1, .streamOpened 0, .publish 1, .panicked 0,
          .dropGuard 0, .cancel] = some state ∧
      (state.slot = none ∨
        ∃ i token, latestStart [.newToken 0, .publish 0, .newToken 1, .streamOpened 0, .publish 1,
          .panicked 0, .dropGuard 0, .cancel] = some i ∧ state.InProgress i ∧
          state.token? i = some token ∧ state.slot = some token) :=
  ⟨_, rfl, (slot_of_run (run_of_replay rfl)).1⟩

end Dengjen.Capi.CancelSlot

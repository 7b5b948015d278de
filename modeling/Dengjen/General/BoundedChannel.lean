import Dengjen.General.Iteration
import Dengjen.General.TransitionSystem

/-!
# Bounded channels

A sender takes items from an iterator and sends each of them into a channel that holds
a bounded number of them. The receiver takes them out in order, and may go away at any
time: what the channel holds is dropped then, and the sender stops when it sends again.

A sender that has nothing more to send closes its end, and the receiver that has taken
all it held has received what the iterator yields.
-/

namespace Dengjen.BoundedChannel

open Iteration TransitionSystem

variable {σ M : Type*}

/-- The sender is about to take an item, or waits for room with one, or has closed its end. -/
inductive Sender (σ M : Type*)
  | idle (source : σ)
  | sending (message : M) (source : σ)
  | closed

/-- The sender, the channel and what has arrived. -/
structure State (σ M : Type*) where
  sender : Sender σ M
  queue : List M
  received : List M
  connected : Bool

/-- What either side does. -/
inductive Action
  | pull
  | finish
  | push
  | refuse
  | receive
  | disconnect
  deriving DecidableEq

/-- Nothing has been sent. -/
def initial (source : σ) : State σ M := ⟨.idle source, [], [], true⟩

/-- The sender pulls and pushes while there is room, and the receiver takes or leaves. -/
inductive Step (next : σ → Option M × σ) (capacity : Nat) : State σ M → Action → State σ M → Prop
  | pull {source message source' queue received connected}
      (h : next source = (some message, source')) :
      Step next capacity ⟨.idle source, queue, received, connected⟩ .pull
        ⟨.sending message source', queue, received, connected⟩
  | finish {source queue received connected} (h : (next source).1 = none) :
      Step next capacity ⟨.idle source, queue, received, connected⟩ .finish
        ⟨.closed, queue, received, connected⟩
  | push {message source queue received} (h : queue.length < capacity) :
      Step next capacity ⟨.sending message source, queue, received, true⟩ .push
        ⟨.idle source, queue ++ [message], received, true⟩
  | refuse {message source queue received} :
      Step next capacity ⟨.sending message source, queue, received, false⟩ .refuse
        ⟨.closed, queue, received, false⟩
  | receive {sender message queue received} :
      Step next capacity ⟨sender, message :: queue, received, true⟩ .receive
        ⟨sender, queue, received ++ [message], true⟩
  | disconnect {sender queue received} :
      Step next capacity ⟨sender, queue, received, true⟩ .disconnect ⟨sender, [], received, false⟩

variable {next : σ → Option M × σ} {capacity : Nat} {source : σ} {items : List M}
  {s t : State σ M} {action : Action}

/-! ## What is on its way -/

/-- What a sender still sends. -/
inductive Unsent (next : σ → Option M × σ) : Sender σ M → List M → Prop
  | idle {source rest} (h : Drains next source rest) : Unsent next (.idle source) rest
  | sending {message source rest} (h : Drains next source rest) :
      Unsent next (.sending message source) (message :: rest)
  | closed : Unsent next .closed []

/-- What was received, with what the channel holds and what is still sent, is all of the items, as
long as nobody is gone. -/
inductive Carries (next : σ → Option M × σ) (items : List M) : State σ M → Prop
  | connected {sender queue received unsent} (h : Unsent next sender unsent)
      (hitems : received ++ queue ++ unsent = items) :
      Carries next items ⟨sender, queue, received, true⟩
  | gone {sender received unsent} (h : Unsent next sender unsent) (hbegins : received <+: items) :
      Carries next items ⟨sender, [], received, false⟩

theorem carries_initial (h : Drains next source items) : Carries next items (initial source) :=
  .connected (.idle h) rfl

theorem Carries.step (h : Carries next items s) (hstep : Step next capacity s action t) :
    Carries next items t := by
  cases hstep with
  | pull hnext =>
      cases h with
      | connected h hitems =>
          cases h with
          | idle hdrains =>
              obtain ⟨rest, rfl, hrest⟩ := hdrains.of_next hnext
              exact .connected (.sending hrest) hitems
      | gone h hbegins =>
          cases h with
          | idle hdrains =>
              obtain ⟨rest, rfl, hrest⟩ := hdrains.of_next hnext
              exact .gone (.sending hrest) hbegins
  | finish hnone =>
      cases h with
      | connected h hitems =>
          cases h with
          | idle hdrains =>
              obtain rfl := hdrains.deterministic (.done hnone)
              exact .connected .closed hitems
      | gone h hbegins => exact .gone .closed hbegins
  | push =>
      cases h with
      | connected h hitems =>
          cases h with
          | sending hdrains =>
              refine .connected (.idle hdrains) ?_
              rw [← hitems, ← List.append_assoc, List.append_assoc _ [_], List.singleton_append]
  | refuse =>
      cases h with
      | gone h hbegins => exact .gone .closed hbegins
  | receive =>
      cases h with
      | connected h hitems =>
          refine .connected h ?_
          rw [← hitems, List.append_assoc _ [_], List.singleton_append]
  | disconnect =>
      cases h with
      | connected h hitems =>
          refine .gone h ?_
          rw [← hitems, List.append_assoc]
          exact List.prefix_append _ _

theorem Carries.received_begins (h : Carries next items s) : s.received <+: items := by
  cases h with
  | connected h hitems =>
      rw [← hitems, List.append_assoc]
      exact List.prefix_append _ _
  | gone h hbegins => exact hbegins

/-- A receiver that took all there was has received all the items. -/
theorem Carries.complete (h : Carries next items s) (hconnected : s.connected = true)
    (hclosed : s.sender = .closed) (hqueue : s.queue = []) : s.received = items := by
  cases h with
  | connected h hitems =>
      cases hclosed
      cases hqueue
      cases h
      rwa [List.append_nil, List.append_nil] at hitems
  | gone h hbegins => cases hconnected

/-! ## Room -/

/-- The channel holds no more than it has room for. -/
def Fits (capacity : Nat) (s : State σ M) : Prop := s.queue.length ≤ capacity

theorem Fits.step (h : Fits capacity s) (hstep : Step next capacity s action t) :
    Fits capacity t := by
  cases hstep with
  | pull | finish | refuse => exact h
  | push hroom =>
      rw [Fits, List.length_append, List.length_singleton]
      exact hroom
  | receive => exact Nat.le_of_succ_le h
  | disconnect => exact Nat.zero_le _

/-- Where the iterator is, unless the sender is done with it. -/
def Sender.iterator : Sender σ M → Option σ
  | .idle source | .sending _ source => some source
  | .closed => none

/-- The iterator is no further ahead of the receiver than the channel has room, and one item. -/
theorem Carries.ahead (h : Carries next items s) (hfits : Fits capacity s)
    (hconnected : s.connected = true) (hsource : s.sender.iterator = some source) :
    ∃ ahead rest, s.received ++ ahead ++ rest = items ∧ Drains next source rest ∧
      ahead.length ≤ capacity + 1 := by
  cases h with
  | @connected sender queue received unsent h hitems =>
      cases h with
      | idle hdrains =>
          cases Option.some.inj hsource
          exact ⟨queue, _, hitems, hdrains, Nat.le_succ_of_le hfits⟩
      | @sending message source rest hdrains =>
          cases Option.some.inj hsource
          refine ⟨queue ++ [message], rest, ?_, hdrains, ?_⟩
          · rw [← hitems, ← List.append_assoc, List.append_assoc _ [_], List.singleton_append]
          · rw [List.length_append, List.length_singleton]
            exact Nat.succ_le_succ hfits
      | closed => cases hsource
  | gone h hbegins => cases hconnected

/-! ## Coming to an end -/

/-- Nobody has anything left to do. -/
structure Finished (s : State σ M) : Prop where
  closed : s.sender = .closed
  taken : s.queue = []

/-- The two sides never wait for each other. -/
theorem Carries.progress (h : Carries next items s) (hcapacity : 0 < capacity) :
    Finished s ∨ ∃ action t, action ≠ .disconnect ∧ Step next capacity s action t := by
  have hidle : ∀ {source queue received connected},
      ∃ action t, action ≠ .disconnect ∧
        Step next capacity ⟨.idle source, queue, received, connected⟩ action t := by
    intro source queue received connected
    cases hnext : next source with
    | mk item source' =>
        cases item with
        | none => exact ⟨.finish, _, nofun, .finish (congrArg Prod.fst hnext)⟩
        | some message => exact ⟨.pull, _, nofun, .pull hnext⟩
  cases h with
  | @connected sender queue received unsent h hitems =>
      cases queue with
      | cons message queue => exact .inr ⟨.receive, _, nofun, .receive⟩
      | nil =>
          cases h with
          | idle hdrains => exact .inr hidle
          | sending hdrains => exact .inr ⟨.push, _, nofun, .push hcapacity⟩
          | closed => exact .inl ⟨rfl, rfl⟩
  | gone h hbegins =>
      cases h with
      | idle hdrains => exact .inr hidle
      | sending hdrains => exact .inr ⟨.refuse, _, nofun, .refuse⟩
      | closed => exact .inl ⟨rfl, rfl⟩

/-- A sender that is about to take an item does so first. -/
def Sender.turn : Sender σ M → Nat
  | .idle _ => 1
  | .sending _ _ | .closed => 0

/-- A bound on the steps that are left: an item that was not sent yet is still to be taken, sent
and received. -/
inductive Left (next : σ → Option M × σ) : State σ M → Nat → Prop
  | intro {s unsent} (h : Unsent next s.sender unsent) :
      Left next s (3 * unsent.length + s.sender.turn + s.queue.length + s.connected.toNat)

theorem left_initial (h : Drains next source items) :
    Left next (initial source) (3 * items.length + 2) :=
  .intro (s := initial source) (.idle h)

theorem Left.step {n : Nat} (h : Left next s n) (hstep : Step next capacity s action t) :
    ∃ m < n, Left next t m := by
  obtain ⟨h⟩ := h
  cases hstep with
  | pull hnext =>
      cases h with
      | idle hdrains =>
          obtain ⟨rest, rfl, hrest⟩ := hdrains.of_next hnext
          refine ⟨_, ?_, .intro (.sending hrest)⟩
          simp only [Sender.turn, List.length_cons]
          omega
  | finish hnone =>
      refine ⟨_, ?_, .intro .closed⟩
      simp only [Sender.turn, List.length_nil]
      omega
  | push =>
      cases h with
      | sending hdrains =>
          refine ⟨_, ?_, .intro (.idle hdrains)⟩
          simp only [Sender.turn, List.length_cons, List.length_append, List.length_nil]
          omega
  | refuse =>
      cases h with
      | sending hdrains =>
          refine ⟨_, ?_, .intro .closed⟩
          simp only [Sender.turn, List.length_cons, List.length_nil]
          omega
  | receive =>
      refine ⟨_, ?_, .intro h⟩
      simp only [List.length_cons]
      omega
  | disconnect =>
      refine ⟨_, ?_, .intro h⟩
      simp only [List.length_nil, Bool.toNat_true, Bool.toNat_false]
      omega

theorem Left.length_le {n : Nat} {actions : List Action} (h : Left next s n)
    (run : Run (Step next capacity) s actions t) : actions.length ≤ n := by
  induction run generalizing n with
  | nil s => exact Nat.zero_le n
  | cons head _ ih =>
      obtain ⟨m, hlt, hleft⟩ := h.step head
      exact Nat.lt_of_le_of_lt (ih hleft) hlt

theorem actions_of_closed {queue received : List M} {actions : List Action}
    (run : Run (Step next capacity) ⟨.closed, queue, received, false⟩ actions t) :
    actions = [] := by
  cases run with
  | nil => rfl
  | cons head _ => cases head

theorem actions_of_sending {message : M} {queue received : List M} {actions : List Action}
    (run : Run (Step next capacity) ⟨.sending message source, queue, received, false⟩ actions t) :
    actions <+: [.refuse] := by
  cases run with
  | nil => exact List.nil_prefix
  | cons head tail =>
      cases head with
      | refuse =>
          obtain rfl := actions_of_closed tail
          exact List.prefix_refl _

/-- Once the receiver is gone the sender takes one more item at most. -/
theorem actions_of_gone {actions : List Action} (hgone : s.connected = false)
    (run : Run (Step next capacity) s actions t) :
    actions <+: [.pull, .refuse] ∨ actions <+: [.refuse] ∨ actions <+: [.finish] := by
  cases run with
  | nil => exact .inl List.nil_prefix
  | cons head tail =>
      cases head with
      | pull =>
          cases hgone
          exact .inl ((List.prefix_cons_inj _).mpr (actions_of_sending tail))
      | finish =>
          cases hgone
          obtain rfl := actions_of_closed tail
          exact .inr (.inr (List.prefix_refl _))
      | refuse =>
          obtain rfl := actions_of_closed tail
          exact .inr (.inl (List.prefix_refl _))
      | push | receive | disconnect => cases hgone

end Dengjen.BoundedChannel

import Dengjen.Capi.SpeakEvents
import Dengjen.General.Registrations

/-!
# Speak calls of the bindings

A binding registers the handler of a call under a fresh token, passes the token
to `libdengjenSpeak` as `user_data`, and finds the handler again at every event
the library sends. The entry may only go after the last event of the call, and
has to go then: at a terminal event, when the handler wants no more, or when
`libdengjenSpeak` itself reports an error.

## Implementation notes

A call is a client of the registry with two threads. One is in `Speak`; the other
one, which is the same for a blocking call, sends the events one after the
other. What the trampoline does with an event between two accesses of the
registry is one step. The replies of a handler are arbitrary, by the number of
events before.
-/

namespace Dengjen.Capi.SpeakEvents

/-- The number of a chunk of samples. -/
def synthEventSpeech : Int := 0
/-- The number of an end without an error. -/
def synthEventFinished : Int := 1
/-- The number of an end with an error. -/
def synthEventError : Int := 2

namespace SynthesisEvent

/-- The number of an event's kind. -/
def eventType : SynthesisEvent → Int
  | speech _ => synthEventSpeech
  | finished => synthEventFinished
  | error _ => synthEventError

/-- What `error_ptr` points to, unless it is null. -/
def errorPtr : SynthesisEvent → Option DengjenFFIError
  | error cause => some cause
  | _ => none

/-- The bytes of an event, of which only speech has some. -/
def data : SynthesisEvent → List UInt8
  | speech bytes => bytes
  | _ => []

/-- No event comes after it. -/
def terminal (event : SynthesisEvent) : Bool :=
  event.eventType = synthEventFinished || event.eventType = synthEventError

theorem terminal_speech (bytes : List UInt8) : (speech bytes).terminal = false := rfl

end SynthesisEvent

end Dengjen.Capi.SpeakEvents

namespace Dengjen.Bindings

open Capi Capi.SpeakEvents Registrations TransitionSystem

/-- How a call of a handler ends: it wants more, it does not, or it panics or throws. -/
inductive Reply
  | more
  | stop
  | raised
  deriving DecidableEq

/-- What a trampoline makes of an event: what the handler is called with, whether the answer is
zero, and whether the entry is released. -/
structure Dispatch (E : Type*) where
  handed : Option E
  wantsMore : Bool
  releases : Bool

/-- The trampoline of a binding. With an entry, it releases it at a terminal event and when it
answers nonzero. -/
structure Trampoline (H E : Type*) where
  invoke : Option H → Nat → SynthesisEvent → Dispatch E
  wantsMore : H → Nat → Bool
  invoke_speech : ∀ handler i bytes,
    (invoke (some handler) i (.speech bytes)).wantsMore = wantsMore handler i
  releases_eq : ∀ handler i event, (invoke (some handler) i event).releases =
    (event.terminal || !(invoke (some handler) i event).wantsMore)

/-- A call of the binding's `Speak`, with what the library makes of it: it may refuse it before
there is a stream. -/
structure SpeakRequest (H : Type*) where
  handler : H
  nonblocking : Bool
  refused : Option DengjenFFIError
  synthesis : SpeakCall
  panicError : String → DengjenFFIError

/-- Where the binding's call of the library is. -/
inductive Phase
  | before
  | inside
  | returned
  deriving DecidableEq

/-- Where the trampoline is: in no event, with the entry it found, or about to return. -/
inductive Stage (H : Type*)
  | idle
  | found (event : SynthesisEvent) (entry : Option H)
  | answered (releases : Bool)

/-- The event that an upcall was made with. -/
def Stage.event {H : Type*} : Stage H → Option SynthesisEvent
  | found event _ => some event
  | _ => none

/-- A call: where `Speak` is, the events the library is still to send, those that have been
freed, what the handler has been called with, and how often the entry has been released. -/
structure CallState (H E : Type*) where
  phase : Phase
  pending : List SynthesisEvent
  stage : Stage H
  freed : List SynthesisEvent
  handed : List E
  releases : Nat

variable {H E : Type*}

namespace CallState

/-- The call before anything of it has happened. -/
def initial : CallState H E := ⟨.before, [], .idle, [], [], 0⟩

/-- The library is done with the call. -/
def Quiet (s : CallState H E) : Prop := s.stage = .idle ∧ s.pending = []

/-- The library has returned, and no event is left to come. -/
def Complete (s : CallState H E) : Prop := s.phase = .returned ∧ s.Quiet

end CallState

namespace SpeakRequest

variable (trampoline : Trampoline H E) (call : SpeakRequest H)

/-- The answer to a SPEECH event with `i` events before it. -/
def answer (i : Nat) : UInt8 := if trampoline.wantsMore call.handler i then 0 else 1

/-- The call as the library gets it. -/
def native : SpeakCall := { call.synthesis with answer := call.answer trampoline }

/-- The events that the library sends. -/
def events : List SynthesisEvent :=
  match call.refused with
  | some _ => []
  | none =>
      if call.nonblocking then (call.native trampoline).worker
      else ((call.native trampoline).blocking call.panicError).1

/-- What `libdengjenSpeak` leaves in `out_error`. -/
def outError : Option DengjenFFIError :=
  match call.refused with
  | some error => some error
  | none =>
      if call.nonblocking then none
      else
        match ((call.native trampoline).blocking call.panicError).2 with
        | .error error => some error
        | .ok () => none

/-- What the handler is called with at an event with `i` events before it. -/
def handedAt (i : Nat) (event : SynthesisEvent) : List E :=
  (trampoline.invoke (some call.handler) i event).handed.toList

/-- What the handler is called with at a list of events, after `i` of them. -/
def handed : Nat → List SynthesisEvent → List E
  | _, [] => []
  | i, event :: events => call.handedAt trampoline i event ++ handed (i + 1) events

/-- The threads of a call. -/
inductive Program : CallState H E → Access H → CallState H E → Prop
  | register {s} (h : s.phase = .before) :
      Program s (.register call.handler)
        { s with phase := .inside, pending := call.events trampoline }
  | lookup {s event events} (entry) (h : s.stage = .idle) (hp : s.pending = event :: events) :
      Program s (.lookup entry) { s with pending := events, stage := .found event entry }
  | invoke {s event entry} (h : s.stage = .found event entry) :
      Program s .internal
        { s with
          freed := s.freed ++ [event]
          handed := s.handed ++ (trampoline.invoke entry s.freed.length event).handed.toList
          stage := .answered (trampoline.invoke entry s.freed.length event).releases }
  | release {s} (found) (h : s.stage = .answered true) :
      Program s (.remove found)
        { s with stage := .idle, releases := s.releases + found.toList.length }
  | resume {s} (h : s.stage = .answered false) : Program s .internal { s with stage := .idle }
  | fail {s error} (found) (h : s.phase = .inside) (he : call.outError trampoline = some error)
      (hq : s.Quiet) :
      Program s (.remove found)
        { s with phase := .returned, releases := s.releases + found.toList.length }
  | leave {s} (h : s.phase = .inside) (he : call.outError trampoline = none)
      (hq : call.nonblocking ∨ s.Quiet) : Program s .internal { s with phase := .returned }

/-- The events are complete, unless `libdengjenSpeak` reports an error. -/
def Expected (i : Nat) (events : List SynthesisEvent) : Prop :=
  match call.outError trampoline with
  | none => Grammar (call.answer trampoline) i events
  | some _ => Unterminated (call.answer trampoline) i events

end SpeakRequest

section Expected

variable {trampoline : Trampoline H E} {call : SpeakRequest H} {i : Nat}
  {event : SynthesisEvent} {events : List SynthesisEvent}

theorem expected_events : call.Expected trampoline 0 (call.events trampoline) := by
  rw [SpeakRequest.Expected, SpeakRequest.outError, SpeakRequest.events]
  cases call.refused with
  | some error => exact .nil 0
  | none =>
      cases call.nonblocking with
      | true => exact (worker_grammar (call.native trampoline)).1
      | false =>
          have h := synthesized_doSynthesize (call.native trampoline)
          simp only [SpeakCall.blocking, Bool.false_eq_true, if_false]
          generalize (call.native trampoline).doSynthesize = done at h
          obtain ⟨events, outcome⟩ := done
          cases h with
          | refused | panickedAtOnce => exact .nil 0
          | drained _ _ hgrammar _ => exact hgrammar
          | panicked _ _ hevents => exact hevents

/-- With a reply that wants no more, the answer is nonzero. -/
theorem answer_eq_zero_iff :
    call.answer trampoline i = 0 ↔ trampoline.wantsMore call.handler i = true := by
  rw [SpeakRequest.answer]
  split
  · next h => simp [h]
  · next h => simp [h]

/-- No event is expected after one that releases the entry, and `Speak` reports no error then. -/
theorem Expected.of_releases (h : call.Expected trampoline i (event :: events))
    (hr : (trampoline.invoke (some call.handler) i event).releases = true) :
    events = [] ∧ call.outError trampoline = none := by
  have hspeech (bytes : List UInt8) (hevent : event = .speech bytes) :
      call.answer trampoline i ≠ 0 := by
    rw [trampoline.releases_eq, hevent, trampoline.invoke_speech] at hr
    rw [Ne, answer_eq_zero_iff]
    simpa [SynthesisEvent.terminal_speech] using hr
  rw [SpeakRequest.Expected] at h
  split at h
  · next hout =>
      refine ⟨?_, hout⟩
      cases h with
      | finished | error | stopped => rfl
      | speech bytes hmore _ => exact absurd hmore (hspeech bytes rfl)
  · cases h with
    | speech bytes hmore _ => exact absurd hmore (hspeech bytes rfl)

/-- The others are expected after one that does not. -/
theorem Expected.of_not_releases (h : call.Expected trampoline i (event :: events))
    (hr : (trampoline.invoke (some call.handler) i event).releases = false) :
    call.Expected trampoline (i + 1) events ∧ event.terminal = false ∧
      trampoline.wantsMore call.handler i = true := by
  rw [trampoline.releases_eq, Bool.or_eq_false_iff, Bool.not_eq_false'] at hr
  obtain ⟨hterminal, hmore⟩ := hr
  cases event with
  | finished | error => cases hterminal
  | speech bytes =>
      rw [trampoline.invoke_speech] at hmore
      refine ⟨?_, rfl, hmore⟩
      rw [SpeakRequest.Expected] at h ⊢
      split at h
      · cases h with
        | stopped _ hstop => exact absurd (answer_eq_zero_iff.mpr hmore) hstop
        | speech _ _ tail => exact tail
      · cases h with
        | speech _ _ tail => exact tail

/-- Without an error there is an event to come. -/
theorem Expected.ne_nil (h : call.Expected trampoline i events)
    (hout : call.outError trampoline = none) : events ≠ [] := by
  rw [SpeakRequest.Expected, hout] at h
  cases h <;> simp

end Expected

section Alone

variable {trampoline : Trampoline H E} {call : SpeakRequest H}
  {v w : Slot H × CallState H E} {access : Access H}

/-- `Speak` has not returned, or has returned without an error while its events are on their
way. -/
structure Running (trampoline : Trampoline H E) (call : SpeakRequest H) (s : CallState H E) :
    Prop where
  releases : s.releases = 0
  nonblocking : s.phase = .returned →
    call.outError trampoline = none ∧ call.nonblocking = true

/-- Where a call is with its slot, once it is registered. -/
inductive Where (trampoline : Trampoline H E) (call : SpeakRequest H) :
    Slot H → CallState H E → Prop
  | waiting {s} (hrun : Running trampoline call s) (hstage : s.stage = .idle)
      (hexpected : call.Expected trampoline s.freed.length s.pending) :
      Where trampoline call (.held call.handler) s
  | found {s event} (hrun : Running trampoline call s)
      (hstage : s.stage = .found event (some call.handler))
      (hexpected : call.Expected trampoline s.freed.length (event :: s.pending)) :
      Where trampoline call (.held call.handler) s
  | continuing {s} (hrun : Running trampoline call s) (hstage : s.stage = .answered false)
      (hexpected : call.Expected trampoline s.freed.length s.pending) :
      Where trampoline call (.held call.handler) s
  | leaving {s} (hrun : Running trampoline call s) (hstage : s.stage = .answered true)
      (hpending : s.pending = []) (hout : call.outError trampoline = none) :
      Where trampoline call (.held call.handler) s
  | left {s} (hstage : s.stage = .idle) (hpending : s.pending = []) (hreleases : s.releases = 1)
      (hphase : s.phase = .returned ∨ call.outError trampoline = none) :
      Where trampoline call .released s

/-- What holds of a call and its slot at every moment. -/
inductive Kept (trampoline : Trampoline H E) (call : SpeakRequest H) :
    Slot H × CallState H E → Prop
  | before : Kept trampoline call (.unregistered, .initial)
  | started {slot s} (hphase : s.phase ≠ .before) (hwhere : Where trampoline call slot s)
      (haccounted : s.freed ++ s.stage.event.toList ++ s.pending = call.events trampoline)
      (hhanded : s.handed = call.handed trampoline 0 s.freed) : Kept trampoline call (slot, s)

theorem handed_concat (i : Nat) (events : List SynthesisEvent) (event : SynthesisEvent) :
    call.handed trampoline i (events ++ [event]) =
      call.handed trampoline i events ++ call.handedAt trampoline (i + events.length) event := by
  induction events generalizing i with
  | nil => simp [SpeakRequest.handed]
  | cons first events ih =>
      rw [List.cons_append, SpeakRequest.handed, SpeakRequest.handed, ih, List.append_assoc,
        List.length_cons]
      congr 3
      omega

variable {slot slot' : Slot H} {s : CallState H E} {event : SynthesisEvent}
  {events : List SynthesisEvent} {entry : Option H}

theorem Kept.register (h : Kept trampoline call (slot, s)) (hs : s.phase = .before) :
    Kept trampoline call
      (.held call.handler, { s with phase := .inside, pending := call.events trampoline }) := by
  cases h with
  | started hphase => exact absurd hs hphase
  | before => exact .started (by simp) (.waiting ⟨rfl, by simp⟩ rfl expected_events) rfl rfl

theorem Kept.lookup (h : Kept trampoline call (slot, s)) (hs : s.stage = .idle)
    (hp : s.pending = event :: events) :
    Kept trampoline call
      (slot, { s with pending := events, stage := .found event slot.found }) := by
  cases h with
  | before => cases hp
  | started hphase hwhere haccounted hhanded =>
      cases hwhere with
      | waiting hrun _ hexpected =>
          refine .started hphase (.found ⟨hrun.releases, hrun.nonblocking⟩ rfl ?_) ?_ hhanded
          · rwa [hp] at hexpected
          · rw [hs, hp] at haccounted
            simpa [Stage.event] using haccounted
      | found _ hstage | continuing _ hstage | leaving _ hstage =>
          rw [hs] at hstage
          cases hstage
      | left _ hpending =>
          rw [hp] at hpending
          cases hpending

theorem Kept.invoke (h : Kept trampoline call (slot, s)) (hs : s.stage = .found event entry) :
    Kept trampoline call
      (slot, { s with
        freed := s.freed ++ [event]
        handed := s.handed ++ (trampoline.invoke entry s.freed.length event).handed.toList
        stage := .answered (trampoline.invoke entry s.freed.length event).releases }) := by
  cases h with
  | before => cases hs
  | started hphase hwhere haccounted hhanded =>
      cases hwhere with
      | @found _ event' hrun hstage hexpected =>
          rw [hs, Stage.found.injEq] at hstage
          obtain ⟨rfl, rfl⟩ := hstage
          have hrun' : ∀ freed handed releases,
              Running trampoline call
                { s with freed := freed, handed := handed, stage := .answered releases } :=
            fun _ _ _ => ⟨hrun.releases, hrun.nonblocking⟩
          refine .started hphase ?_ ?_ ?_
          · cases hr : (trampoline.invoke (some call.handler) s.freed.length event).releases with
            | true =>
                obtain ⟨hpending, hout⟩ := Expected.of_releases hexpected hr
                exact .leaving (hrun' _ _ _) rfl hpending hout
            | false =>
                have hnext := (Expected.of_not_releases hexpected hr).1
                exact .continuing (hrun' _ _ _) rfl (by simpa using hnext)
          · rw [hs] at haccounted
            simpa [Stage.event] using haccounted
          · rw [handed_concat, ← hhanded, Nat.zero_add]
            rfl
      | waiting _ hstage | continuing _ hstage | leaving _ hstage | left hstage =>
          rw [hs] at hstage
          cases hstage

theorem Kept.release (h : Kept trampoline call (slot, s)) (hs : s.stage = .answered true) :
    Kept trampoline call
      (.released, { s with
        stage := .idle, releases := s.releases + slot.found.toList.length }) := by
  cases h with
  | before => cases hs
  | started hphase hwhere haccounted hhanded =>
      cases hwhere with
      | leaving hrun _ hpending hout =>
          refine .started hphase (.left rfl hpending ?_ (.inr hout)) ?_ hhanded
          · rw [hrun.releases]
            rfl
          · rw [hs] at haccounted
            exact haccounted
      | waiting _ hstage | found _ hstage | continuing _ hstage | left hstage =>
          rw [hs] at hstage
          cases hstage

theorem Kept.resume (h : Kept trampoline call (slot, s)) (hs : s.stage = .answered false) :
    Kept trampoline call (slot, { s with stage := .idle }) := by
  cases h with
  | before => cases hs
  | started hphase hwhere haccounted hhanded =>
      cases hwhere with
      | continuing hrun _ hexpected =>
          refine .started hphase (.waiting ⟨hrun.releases, hrun.nonblocking⟩ rfl hexpected) ?_
            hhanded
          rw [hs] at haccounted
          exact haccounted
      | waiting _ hstage | found _ hstage | leaving _ hstage | left hstage =>
          rw [hs] at hstage
          cases hstage

theorem Kept.fail {error : DengjenFFIError} (h : Kept trampoline call (slot, s))
    (hs : s.phase = .inside) (he : call.outError trampoline = some error) (hq : s.Quiet) :
    Kept trampoline call
      (.released, { s with
        phase := .returned, releases := s.releases + slot.found.toList.length }) := by
  cases h with
  | before => cases hs
  | started _ hwhere haccounted hhanded =>
      refine .started (by simp) ?_ haccounted hhanded
      cases hwhere with
      | waiting hrun | found hrun | continuing hrun | leaving hrun =>
          refine .left hq.1 hq.2 ?_ (.inl rfl)
          rw [hrun.releases]
          rfl
      | left _ _ _ hphase =>
          rcases hphase with hphase | hout
          · rw [hs] at hphase
            cases hphase
          · rw [he] at hout
            cases hout

theorem Kept.leave (h : Kept trampoline call (slot, s)) (hs : s.phase = .inside)
    (he : call.outError trampoline = none) (hq : call.nonblocking ∨ s.Quiet) :
    Kept trampoline call (slot, { s with phase := .returned }) := by
  cases h with
  | before => cases hs
  | started _ hwhere haccounted hhanded =>
      refine .started (by simp) ?_ haccounted hhanded
      -- a blocking call whose library call returned without an error has been released
      have hrun (hheld : ¬ s.Quiet) (hr : Running trampoline call s) :
          Running trampoline call { s with phase := .returned } :=
        ⟨hr.releases, fun _ => ⟨he, hq.resolve_right hheld⟩⟩
      cases hwhere with
      | waiting hr hstage hexpected =>
          exact .waiting (hrun (fun hquiet => Expected.ne_nil hexpected he hquiet.2) hr) hstage hexpected
      | found hr hstage hexpected =>
          exact .found (hrun (fun hquiet => by simp [hquiet.1] at hstage) hr) hstage hexpected
      | continuing hr hstage hexpected =>
          exact .continuing (hrun (fun hquiet => by simp [hquiet.1] at hstage) hr) hstage
            hexpected
      | leaving hr hstage hpending hout =>
          exact .leaving (hrun (fun hquiet => by simp [hquiet.1] at hstage) hr) hstage hpending
            hout
      | left hstage hpending hreleases _ => exact .left hstage hpending hreleases (.inl rfl)

theorem Kept.step (h : Kept trampoline call v)
    (hstep : aloneStep (call.Program trampoline) v access w) : Kept trampoline call w := by
  obtain ⟨slot, s⟩ := v
  obtain ⟨slot', s'⟩ := w
  obtain ⟨haccess, hprogram⟩ := hstep
  cases hprogram with
  | register hs => cases haccess; exact h.register hs
  | lookup entry hs hp => cases haccess; exact h.lookup hs hp
  | invoke hs => cases haccess; exact h.invoke hs
  | release found hs => cases haccess; exact h.release hs
  | resume hs => cases haccess; exact h.resume hs
  | fail found hs he hq => cases haccess; exact h.fail hs he hq
  | leave hs he hq => cases haccess; exact h.leave hs he hq

theorem kept_of_reachable (h : AloneReachable .initial (call.Program trampoline) v) :
    Kept trampoline call v :=
  h.invariant (fun _ hinit => hinit ▸ .before) fun _ _ _ => Kept.step

/-- Before the last expected event, the handler wants more of each. -/
theorem Expected.more {i : Nat} (h : call.Expected trampoline i events) {j : Nat}
    (hj : events[j]? = some event) (hlt : j + 1 < events.length) :
    event.terminal = false ∧ trampoline.wantsMore call.handler (i + j) = true := by
  induction events generalizing i j with
  | nil => cases hj
  | cons first events ih =>
      have hr : (trampoline.invoke (some call.handler) i first).releases = false := by
        by_contra hr
        have hnil := (Expected.of_releases h (Bool.eq_true_of_not_eq_false hr)).1
        simp [hnil] at hlt
      obtain ⟨hexpected, hterminal, hmore⟩ := Expected.of_not_releases h hr
      cases j with
      | zero =>
          rw [List.getElem?_cons_zero, Option.some.injEq] at hj
          exact ⟨hj ▸ hterminal, hmore⟩
      | succ j =>
          rw [List.getElem?_cons_succ] at hj
          rw [List.length_cons] at hlt
          have := ih hexpected hj (by omega)
          rwa [Nat.add_assoc, Nat.add_comm 1 j] at this

/-- What a binding promises of a call: every event is freed once, in the order it was sent, and
the handler is called with it; no event comes after a terminal one or one after which the handler
wants no more; the trampoline finds the entry at every event; the entry stays while an event may
come, and is released once. -/
structure CallSafe (trampoline : Trampoline H E) (call : SpeakRequest H) (slot : Slot H)
    (s : CallState H E) : Prop where
  freed_once : s.phase ≠ .before →
    s.freed ++ s.stage.event.toList ++ s.pending = call.events trampoline
  handed : s.handed = call.handed trampoline 0 s.freed
  last : ∀ i event, s.freed[i]? = some event → i + 1 < s.freed.length →
    event.terminal = false ∧ trampoline.wantsMore call.handler i = true
  found : ∀ event entry, s.stage = .found event entry → entry = some call.handler
  held : s.stage ≠ .idle ∨ s.pending ≠ [] → slot = .held call.handler
  released_once : slot = .released ∧ s.releases = 1 ∨ slot ≠ .released ∧ s.releases = 0
  complete : s.Complete → slot = .released

theorem Kept.callSafe (h : Kept trampoline call (slot, s)) :
    CallSafe trampoline call slot s := by
  cases h with
  | before => constructor <;> simp [CallState.initial, SpeakRequest.handed, CallState.Complete]
  | started hphase hwhere haccounted hhanded =>
      refine ⟨fun _ => haccounted, hhanded, ?_, ?_, ?_, ?_, ?_⟩
      · intro i event hi hlt
        have hlength := congrArg List.length haccounted
        simp only [List.length_append] at hlength
        rw [← Nat.zero_add i]
        refine Expected.more expected_events (j := i) ?_ (by omega)
        rw [← haccounted, List.append_assoc, List.getElem?_append_left (by omega), hi]
      · intro event entry hstage
        cases hwhere with
        | found _ hstage' =>
            rw [hstage, Stage.found.injEq] at hstage'
            exact hstage'.2
        | waiting _ hstage' | continuing _ hstage' | leaving _ hstage' | left hstage' =>
            rw [hstage] at hstage'
            cases hstage'
      · intro hmay
        cases hwhere with
        | waiting | found | continuing | leaving => rfl
        | left hstage hpending => exact absurd hmay (by simp [hstage, hpending])
      · cases hwhere with
        | waiting hrun | found hrun | continuing hrun | leaving hrun => simp [hrun.releases]
        | left _ _ hreleases => simp [hreleases]
      · rintro ⟨hreturned, hstage', hpending⟩
        cases hwhere with
        | waiting hrun _ hexpected =>
            exact absurd hpending (Expected.ne_nil hexpected (hrun.nonblocking hreturned).1)
        | found _ hstage | continuing _ hstage | leaving _ hstage =>
            rw [hstage'] at hstage
            cases hstage
        | left => rfl

end Alone

section System

variable {C : Type*} [DecidableEq C] {trampoline : Trampoline H E} {calls : C → SpeakRequest H}
  {r : Shared C H (CallState H E)}

/-- Any number of calls, in any interleaving of their threads. -/
def CallsReachable (trampoline : Trampoline H E) (calls : C → SpeakRequest H) :
    Shared C H (CallState H E) → Prop :=
  Reachable (· = Shared.initial fun _ => CallState.initial)
    (Shared.Step fun c => (calls c).Program trampoline)

theorem callSafe_of_reachable (h : CallsReachable trampoline calls r) (c : C) :
    CallSafe trampoline (calls c) (r.slot c) (r.client c) :=
  (kept_of_reachable ((Shared.reachable_alone h).2 c)).callSafe

/-- The registry has an entry for each call that holds one, and no other. -/
theorem entries_iff_of_reachable (h : CallsReachable trampoline calls r) (t : Nat) (handler : H) :
    r.entries t = some handler ↔ ∃ c, r.token c = some t ∧ r.slot c = .held handler :=
  (Shared.reachable_alone h).1.entries_iff

/-- Once the calls that have begun are complete, nothing is left in the registry. -/
theorem entries_eq_none_of_complete (h : CallsReachable trampoline calls r)
    (hcomplete : ∀ c, (r.client c).phase ≠ .before → (r.client c).Complete) (t : Nat) :
    r.entries t = none := by
  cases he : r.entries t with
  | none => rfl
  | some handler =>
      obtain ⟨c, -, hslot⟩ := (entries_iff_of_reachable h t handler).mp he
      have hkept := kept_of_reachable ((Shared.reachable_alone h).2 c)
      rw [hslot] at hkept
      generalize hs : r.client c = s at hkept
      cases hkept with
      | started hphase =>
          have hreleased := (callSafe_of_reachable h c).complete
            (hcomplete c (by rwa [hs]))
          rw [hslot] at hreleased
          cases hreleased

end System

end Dengjen.Bindings

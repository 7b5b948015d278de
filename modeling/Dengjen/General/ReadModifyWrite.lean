import Dengjen.General.TransitionSystem
import Mathlib.Data.List.Induction
import Mathlib.Data.List.Nodup
import Mathlib.Logic.Function.Basic

/-!
# Updates that read, compute and write back

A client reads a store and computes a value from what it read, and later writes
that value back: two separate steps. Clients may exclude each other for the
whole of an update. In a run in which no client reads while another one holds a
value, the store is at any time the one that the finished clients leave when
they run one after another, in the order in which they finished.
-/

namespace Dengjen.ReadModifyWrite

open TransitionSystem

variable {ι S V E : Type*}

/-- Where a client is. -/
inductive Phase (V E : Type*)
  | idle
  /-- The client has read and not yet written back. -/
  | holding (value : V)
  | finished (result : Except E Unit)

/-- The store, the clients, and the order they finished in. -/
structure State (ι S V E : Type*) where
  store : S
  phase : ι → Phase V E
  /-- The clients that have finished, in order. -/
  log : List ι

/-- A step and the client that takes it. -/
inductive Label (ι : Type*)
  | read (client : ι)
  | write (client : ι)

/-- What each client computes of the store, how a value is written back, and which clients
a lock keeps from overlapping. -/
structure System (ι S V E : Type*) where
  prepare : ι → S → Except E V
  commit : S → V → Except E Unit × S
  excludes : ι → ι → Prop

/-- No client has begun. -/
def State.initial (store₀ : S) : State ι S V E := ⟨store₀, fun _ => .idle, []⟩

/-- The store is as it was, and no client has begun. -/
def Init (store₀ : S) (s : State ι S V E) : Prop := s = .initial store₀

/-- A client has read the store and holds what it will write. -/
def State.hold [DecidableEq ι] (s : State ι S V E) (client : ι) (value : V) : State ι S V E :=
  { s with phase := Function.update s.phase client (.holding value) }

/-- What a client's phase is after the phase of one client has changed. -/
theorem phase_of_update [DecidableEq ι] {phases : ι → Phase V E} {client other : ι}
    {new old : Phase V E} (h : Function.update phases client new other = old) :
    (other = client ∧ new = old) ∨ (other ≠ client ∧ phases other = old) := by
  by_cases heq : other = client
  · subst heq
    exact .inl ⟨rfl, by rwa [Function.update_self] at h⟩
  · exact .inr ⟨heq, by rwa [Function.update_of_ne heq] at h⟩

namespace System

variable (sys : System ι S V E)

/-- A whole update that nothing comes between. -/
def atomic (client : ι) (store : S) : Except E Unit × S :=
  match sys.prepare client store with
  | .error error => (.error error, store)
  | .ok value => sys.commit store value

/-- The store after the clients have run one after another. -/
def serial (store : S) (clients : List ι) : S :=
  clients.foldl (fun store client => (sys.atomic client store).2) store

@[simp] theorem serial_nil (store : S) : sys.serial store [] = store := rfl

@[simp] theorem serial_append (store : S) (clients clients' : List ι) :
    sys.serial store (clients ++ clients') = sys.serial (sys.serial store clients) clients' :=
  List.foldl_append

@[simp] theorem serial_cons (store : S) (client : ι) (clients : List ι) :
    sys.serial store (client :: clients) = sys.serial (sys.atomic client store).2 clients := rfl

/-- A read is isolated when only clients that the lock excludes could hold a value. -/
def Isolated (s : State ι S V E) (label : Label ι) : Prop :=
  ∀ client, label = .read client →
    ∀ other value, s.phase other = .holding value → sys.excludes client other

/-- What isolated reads keep true from a store on. -/
structure Invariant (store₀ : S) (s : State ι S V E) : Prop where
  store : s.store = sys.serial store₀ s.log
  prepared : ∀ client value, s.phase client = .holding value →
    sys.prepare client s.store = .ok value
  alone : ∀ client other value value', s.phase client = .holding value →
    s.phase other = .holding value' → client = other
  finished : ∀ client result, s.phase client = .finished result →
    ∃ before after, s.log = before ++ client :: after ∧
      (sys.atomic client (sys.serial store₀ before)).1 = result
  logged : ∀ client ∈ s.log, ∃ result, s.phase client = .finished result
  nodup : s.log.Nodup

variable {sys} {store₀ : S} {s t : State ι S V E} {label : Label ι}

theorem Invariant.init (h : Init store₀ s) : sys.Invariant store₀ s := by
  subst h
  exact
    { store := rfl
      prepared := fun _ _ h => nomatch h
      alone := fun _ _ _ _ h => nomatch h
      finished := fun _ _ h => nomatch h
      logged := fun _ h => nomatch h
      nodup := List.nodup_nil }

section View

variable {B : Type*} {view : S → Option B} {assigned : ι → Option B}

/-- What the clients do to one part of the store: an accepted update puts there what it
assigns, if anything, and a refused one changes nothing. -/
structure Assigns (sys : System ι S V E) (view : S → Option B) (assigned : ι → Option B) :
    Prop where
  accepted : ∀ client store, (sys.atomic client store).1 = .ok () →
    view (sys.atomic client store).2 = (assigned client).or (view store)
  refused : ∀ client store error, (sys.atomic client store).1 = .error error →
    view (sys.atomic client store).2 = view store

/-- Clients that assign nothing to a part of the store leave it alone. -/
theorem Assigns.serial_of_none (h : Assigns sys view assigned) (store : S) {clients : List ι}
    (hnone : ∀ client ∈ clients, assigned client = none) :
    view (sys.serial store clients) = view store := by
  induction clients generalizing store with
  | nil => rfl
  | cons client clients ih =>
      rw [serial_cons, ih _ fun other hmem => hnone other (List.mem_cons_of_mem _ hmem)]
      cases hresult : (sys.atomic client store).1 with
      | error error => exact h.refused client store error hresult
      | ok _ => rw [h.accepted client store hresult, hnone client List.mem_cons_self, Option.none_or]

/-- What an accepted client assigns is there at the end, when no later client assigns to
the same part. -/
theorem Assigns.serial_of_some (h : Assigns sys view assigned) {store : S} {client : ι}
    {before after : List ι} {value : B}
    (hresult : (sys.atomic client (sys.serial store before)).1 = .ok ())
    (hsome : assigned client = some value) (hnone : ∀ other ∈ after, assigned other = none) :
    view (sys.serial store (before ++ client :: after)) = some value := by
  rw [serial_append, serial_cons, h.serial_of_none _ hnone, h.accepted client _ hresult, hsome,
    Option.some_or]

end View

variable [DecidableEq ι]

section Steps

variable (sys)

/-- The state after a read; a client whose computation fails is done. -/
def afterRead (s : State ι S V E) (client : ι) : State ι S V E :=
  match sys.prepare client s.store with
  | .error error =>
      { s with
        phase := Function.update s.phase client (.finished (.error error))
        log := s.log ++ [client] }
  | .ok value => s.hold client value

/-- A client has written what it holds, and is finished. -/
def afterWrite (s : State ι S V E) (client : ι) (value : V) : State ι S V E where
  store := (sys.commit s.store value).2
  phase := Function.update s.phase client (.finished (sys.commit s.store value).1)
  log := s.log ++ [client]

/-- A client reads when no other excludes it, and writes later. -/
inductive Step : State ι S V E → Label ι → State ι S V E → Prop
  | read {s client} (hidle : s.phase client = .idle)
      (hfree : ∀ other value, s.phase other = .holding value → ¬ sys.excludes client other) :
      Step s (.read client) (sys.afterRead s client)
  | write {s client value} (hholding : s.phase client = .holding value) :
      Step s (.write client) (sys.afterWrite s client value)

end Steps

/-- A client that ends an update by itself, with the result and the store of an atomic one. -/
theorem Invariant.finish (hi : sys.Invariant store₀ s) (client : ι)
    (hnew : ∀ result, s.phase client ≠ .finished result)
    (halone : ∀ other value, s.phase other = .holding value → other = client) :
    sys.Invariant store₀
      { store := (sys.atomic client s.store).2
        phase := Function.update s.phase client (.finished (sys.atomic client s.store).1)
        log := s.log ++ [client] } := by
  have hnone (other : ι) (value : V) :
      Function.update s.phase client (.finished (sys.atomic client s.store).1) other ≠
        .holding value := by
    intro h
    rcases phase_of_update h with ⟨-, h⟩ | ⟨hne, h⟩
    · cases h
    · exact hne (halone other value h)
  constructor
  case store => simp [hi.store]
  case prepared => exact fun other value h => absurd h (hnone other value)
  case alone => exact fun other _ value _ h => absurd h (hnone other value)
  case finished =>
    intro other result h
    rcases phase_of_update h with ⟨rfl, h⟩ | ⟨-, h⟩
    · rw [Phase.finished.injEq] at h
      exact ⟨s.log, [], rfl, by rw [← hi.store, h]⟩
    · obtain ⟨before, after, hlog, hresult⟩ := hi.finished other result h
      exact ⟨before, after ++ [client], by simp [hlog], hresult⟩
  case logged =>
    intro other hmem
    dsimp only
    by_cases heq : other = client
    · subst heq
      exact ⟨_, Function.update_self ..⟩
    · rw [Function.update_of_ne heq]
      rcases List.mem_append.mp hmem with hmem | hmem
      · exact hi.logged other hmem
      · exact absurd (List.mem_singleton.mp hmem) heq
  case nodup =>
    apply List.nodup_append.mpr
    refine ⟨hi.nodup, List.nodup_singleton _, ?_⟩
    intro other hmem _ hmem' heq
    obtain ⟨result, hresult⟩ := hi.logged other hmem
    rw [heq, List.mem_singleton.mp hmem'] at hresult
    exact hnew result hresult

/-- A client that takes a value while nobody holds one. -/
theorem Invariant.hold (hi : sys.Invariant store₀ s) {client : ι} {value : V}
    (hidle : s.phase client = .idle) (hprepare : sys.prepare client s.store = .ok value)
    (halone : ∀ other value, s.phase other ≠ .holding value) :
    sys.Invariant store₀ (s.hold client value) := by
  constructor
  case store => exact hi.store
  case prepared =>
    intro other value' h
    rcases phase_of_update h with ⟨rfl, heq⟩ | ⟨-, hother⟩
    · exact Phase.holding.inj heq ▸ hprepare
    · exact absurd hother (halone other value')
  case alone =>
    intro other other' value' value'' h h'
    rcases phase_of_update h with ⟨rfl, -⟩ | ⟨-, h⟩
    · rcases phase_of_update h' with ⟨rfl, -⟩ | ⟨-, h'⟩
      · rfl
      · exact absurd h' (halone other' value'')
    · exact absurd h (halone other value')
  case finished =>
    intro other result h
    rcases phase_of_update h with ⟨-, h⟩ | ⟨-, h⟩
    · cases h
    · exact hi.finished other result h
  case logged =>
    intro other hmem
    obtain ⟨result, hresult⟩ := hi.logged other hmem
    have hne : other ≠ client := by
      rintro rfl
      rw [hidle] at hresult
      cases hresult
    exact ⟨result, (Function.update_of_ne hne ..).trans hresult⟩
  case nodup => exact hi.nodup

/-- A step whose read is isolated keeps the invariant. -/
theorem Invariant.step (hi : sys.Invariant store₀ s) (hisolated : sys.Isolated s label)
    (hstep : sys.Step s label t) : sys.Invariant store₀ t := by
  cases hstep with
  | @read client hidle hfree =>
      have halone : ∀ other value, s.phase other ≠ .holding value := fun other value h =>
        hfree other value h (hisolated client rfl other value h)
      rw [afterRead]
      cases hprepare : sys.prepare client s.store with
      | error error =>
          have hatomic : sys.atomic client s.store = (.error error, s.store) := by
            rw [atomic, hprepare]
          have hfinish := hi.finish client (by simp [hidle])
            fun other value h => absurd h (halone other value)
          rwa [hatomic] at hfinish
      | ok value => exact hi.hold hidle hprepare halone
  | @write client value hholding =>
      have hatomic : sys.atomic client s.store = sys.commit s.store value := by
        rw [atomic, hi.prepared client value hholding]
      have hfinish := hi.finish client (by simp [hholding])
        fun other value' h => hi.alone other client value' value h hholding
      rwa [hatomic] at hfinish

/-- The invariant of every state that isolated reads lead to. -/
theorem Invariant.of_reachable
    (hs : Reachable (Init store₀) (restrict sys.Isolated sys.Step) s) :
    sys.Invariant store₀ s :=
  hs.invariant (fun _ => Invariant.init) fun _ _ _ hi hstep => hi.step hstep.1 hstep.2

theorem Step.hold {client : ι} {value : V} (hidle : s.phase client = .idle)
    (hfree : ∀ other value, s.phase other = .holding value → ¬ sys.excludes client other)
    (hprepare : sys.prepare client s.store = .ok value) :
    sys.Step s (.read client) (s.hold client value) := by
  have hread : sys.Step s (.read client) (sys.afterRead s client) := .read hidle hfree
  rwa [afterRead, hprepare] at hread

/-- While nobody holds a value, an idle client can run a whole update with isolated steps. -/
theorem exists_isolated_update {client : ι} (hidle : s.phase client = .idle)
    (hfree : ∀ other value, s.phase other ≠ .holding value) :
    ∃ labels, Run (restrict sys.Isolated sys.Step) s labels
      { store := (sys.atomic client s.store).2
        phase := Function.update s.phase client (.finished (sys.atomic client s.store).1)
        log := s.log ++ [client] } := by
  have hisolated : sys.Isolated s (.read client) :=
    fun _ _ other value h => absurd h (hfree other value)
  have hlocked : ∀ other value, s.phase other = .holding value → ¬ sys.excludes client other :=
    fun other value h => absurd h (hfree other value)
  rw [atomic]
  cases hprepare : sys.prepare client s.store with
  | error error =>
      have hread : sys.Step s (.read client) (sys.afterRead s client) := .read hidle hlocked
      rw [afterRead, hprepare] at hread
      exact ⟨[.read client], .single ⟨hisolated, hread⟩⟩
  | ok value =>
      have hwrite : sys.Step (s.hold client value) (.write client) _ :=
        .write (Function.update_self ..)
      rw [afterWrite, State.hold, Function.update_idem] at hwrite
      refine ⟨[.read client, .write client], ?_⟩
      apply Run.cons ⟨hisolated, Step.hold hidle hlocked hprepare⟩
      apply Run.single
      exact ⟨fun _ h => (nomatch h), hwrite⟩

/-- Every order of the clients is the order in which they finish in some isolated run. -/
theorem exists_isolated_run (sys : System ι S V E) (store₀ : S) (clients : List ι)
    (hnodup : clients.Nodup) :
    ∃ s, Reachable (Init store₀) (restrict sys.Isolated sys.Step) s ∧ s.log = clients ∧
      (∀ client value, s.phase client ≠ .holding value) ∧
      (∀ client, client ∉ clients → s.phase client = .idle) ∧
      ∀ before client after, clients = before ++ client :: after →
        s.phase client = .finished (sys.atomic client (sys.serial store₀ before)).1 := by
  induction clients using List.reverseRecOn with
  | nil =>
      refine ⟨_, .of_init rfl, rfl, fun _ _ h => (nomatch h), fun _ _ => rfl, ?_⟩
      intro before client after h
      simp at h
  | append_singleton clients last ih =>
      rw [List.nodup_append] at hnodup
      obtain ⟨hnodup, -, hdisjoint⟩ := hnodup
      have hlast : last ∉ clients := fun h => hdisjoint last h last (List.mem_singleton_self _) rfl
      obtain ⟨s, hs, hlog, hfree, hidle, hfinished⟩ := ih hnodup
      obtain ⟨labels, hrun⟩ := exists_isolated_update (hidle last hlast) hfree
      have hi := Invariant.of_reachable hs
      refine ⟨_, hs.trans hrun, by simp [hlog], ?_, ?_, ?_⟩
      · intro client value
        dsimp only
        by_cases heq : client = last
        · subst heq
          simp
        · rw [Function.update_of_ne heq]
          exact hfree client value
      · intro client hmem
        rw [List.mem_append, List.mem_singleton, not_or] at hmem
        dsimp only
        rw [Function.update_of_ne hmem.2]
        exact hidle client hmem.1
      · intro before client after hsplit
        dsimp only
        rcases List.eq_nil_or_concat after with rfl | ⟨after', other, rfl⟩
        · obtain ⟨hbefore, hclient⟩ := List.append_inj' hsplit rfl
          obtain rfl := (List.cons.inj hclient).1
          rw [Function.update_self, hi.store, hlog, hbefore]
        · rw [List.concat_eq_append, ← List.cons_append, ← List.append_assoc] at hsplit
          obtain ⟨hclients, -⟩ := List.append_inj' hsplit rfl
          have hmem : client ∈ clients :=
            hclients ▸ List.mem_append_right _ List.mem_cons_self
          rw [Function.update_of_ne (ne_of_mem_of_not_mem hmem hlast)]
          exact hfinished before client after' hclients

/-- Two clients that do not exclude each other can both read before either writes: the
second write is then one of a value that knows nothing of the first. -/
theorem exists_overlapped_run (sys : System ι S V E) {store₀ : S} {first second : ι}
    (hne : first ≠ second) (hfree : ¬ sys.excludes second first) {value value' : V}
    (hprepare : sys.prepare first store₀ = .ok value)
    (hprepare' : sys.prepare second store₀ = .ok value') :
    ∃ s, Run sys.Step (.initial store₀)
        [.read first, .read second, .write first, .write second] s ∧
      s.store = (sys.commit (sys.commit store₀ value).2 value').2 ∧
      s.phase first = .finished (sys.commit store₀ value).1 ∧
      s.phase second = .finished (sys.commit (sys.commit store₀ value).2 value').1 := by
  have hread : sys.Step (.initial store₀) (.read first)
      ((State.initial store₀).hold first value) :=
    Step.hold rfl (fun _ _ h => (nomatch h)) hprepare
  have hread' : sys.Step ((State.initial store₀).hold first value) (.read second)
      (((State.initial store₀).hold first value).hold second value') := by
    apply Step.hold (Function.update_of_ne hne.symm ..) _ hprepare'
    intro other held h
    rcases phase_of_update h with ⟨rfl, -⟩ | ⟨-, hother⟩
    · exact hfree
    · cases hother
  refine ⟨_, .cons hread (.cons hread' (.cons (.write ?_) (.single (.write ?_)))), rfl, ?_, ?_⟩
  · exact (Function.update_of_ne hne ..).trans (Function.update_self ..)
  · exact (Function.update_of_ne hne.symm ..).trans (Function.update_self ..)
  · exact (Function.update_of_ne hne ..).trans (Function.update_self ..)
  · exact Function.update_self ..

end System

end Dengjen.ReadModifyWrite

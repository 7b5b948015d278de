import Dengjen.General.TransitionSystem
import Mathlib.Logic.Function.Basic
import Mathlib.Logic.Relation

/-!
# Critical sections

Threads share a state and touch it only while they hold a lock, each in steps of
any size between which others may move. Whatever the interleaving, the shared state
is one that whole sections leave which run one after another; while a thread holds
the lock, it is what a part of its section has made of such a state.
-/

namespace Dengjen.CriticalSections

open TransitionSystem Relation

variable {ι S L : Type*}

/-- What threads do by themselves, and with the shared state while they hold the lock. -/
structure Threads (ι S L : Type*) where
  outside : ι → L → L → Prop
  enter : ι → L → L → Prop
  inside : ι → L × S → L × S → Prop
  leave : ι → L → L → Prop

/-- The shared state, who holds the lock, and where the threads are. -/
structure State (ι S L : Type*) where
  shared : S
  holder : Option ι
  thread : ι → L

/-- The state when nobody holds the lock. -/
abbrev Free (ι S L : Type*) := S × (ι → L)

/-- Nobody holds the lock. -/
def State.initial (s : S) (thread : ι → L) : State ι S L := ⟨s, none, thread⟩

variable [DecidableEq ι]

/-- A step of one thread. -/
inductive Step (threads : Threads ι S L) : State ι S L → ι → State ι S L → Prop
  | outside {s i l} (hother : s.holder ≠ some i) (h : threads.outside i (s.thread i) l) :
      Step threads s i { s with thread := Function.update s.thread i l }
  | enter {s i l} (hfree : s.holder = none) (h : threads.enter i (s.thread i) l) :
      Step threads s i { s with holder := some i, thread := Function.update s.thread i l }
  | inside {s i l shared} (hheld : s.holder = some i)
      (h : threads.inside i (s.thread i, s.shared) (l, shared)) :
      Step threads s i { s with shared, thread := Function.update s.thread i l }
  | leave {s i l} (hheld : s.holder = some i) (h : threads.leave i (s.thread i) l) :
      Step threads s i { s with holder := none, thread := Function.update s.thread i l }

/-- The part of a section that begins in a state and has come to another. -/
def Partial (threads : Threads ι S L) (i : ι) (before after : L × S) : Prop :=
  ∃ l, threads.enter i before.1 l ∧ ReflTransGen (threads.inside i) (l, before.2) after

/-- A whole section. -/
def Section (threads : Threads ι S L) (i : ι) (before after : L × S) : Prop :=
  ∃ l, Partial threads i before (l, after.2) ∧ threads.leave i l after.1

/-- A step of one thread when sections are not interrupted. -/
inductive AtomicStep (threads : Threads ι S L) : Free ι S L → ι → Free ι S L → Prop
  | outside {s i l} (h : threads.outside i (s.2 i) l) :
      AtomicStep threads s i (s.1, Function.update s.2 i l)
  | whole {s i l shared} (h : Section threads i (s.2 i, s.1) (l, shared)) :
      AtomicStep threads s i (shared, Function.update s.2 i l)

variable {threads : Threads ι S L} {init : Free ι S L → Prop} {s t : State ι S L}

/-- The initial states have the lock free. -/
def Unlocked (init : Free ι S L → Prop) (s : State ι S L) : Prop :=
  s.holder = none ∧ init (s.shared, s.thread)

/-- Where whole sections have come to, with a part of the holder's. -/
inductive Explained (threads : Threads ι S L) (init : Free ι S L → Prop) : State ι S L → Prop
  | free {shared thread} (h : Reachable init (AtomicStep threads) (shared, thread)) :
      Explained threads init ⟨shared, none, thread⟩
  | held {shared thread i before} (h : Reachable init (AtomicStep threads) before)
      (hpart : Partial threads i (before.2 i, before.1) (thread i, shared))
      (hothers : ∀ j, j ≠ i → thread j = before.2 j) :
      Explained threads init ⟨shared, some i, thread⟩

theorem update_congr {f g : ι → L} {i k : ι} (l : L) (h : k ≠ i → f k = g k) :
    Function.update f i l k = Function.update g i l k := by
  by_cases hk : k = i
  · rw [hk, Function.update_self, Function.update_self]
  · rw [Function.update_of_ne hk, Function.update_of_ne hk, h hk]

theorem Explained.step {i : ι} (h : Explained threads init s) (hstep : Step threads s i t) :
    Explained threads init t := by
  cases hstep with
  | @outside l hother hout =>
      cases h with
      | free h => exact .free (h.next (.outside hout))
      | @held shared thread j before h hpart hothers =>
          have hij : i ≠ j := fun heq => hother (congrArg some heq.symm)
          simp only [hothers i hij] at hout
          refine .held (h.next (.outside hout)) ?_ fun k hk =>
            update_congr l fun _ => hothers k hk
          simpa only [Function.update_of_ne hij.symm] using hpart
  | enter hfree henter =>
      cases h with
      | held => cases hfree
      | free h =>
          refine .held h ⟨_, henter, ?_⟩ fun k hk => Function.update_of_ne hk ..
          rw [Function.update_self]
  | inside hheld hinside =>
      cases h with
      | free => cases hheld
      | held h hpart hothers =>
          cases hheld
          obtain ⟨l, henter, hrun⟩ := hpart
          refine .held h ⟨l, henter, ?_⟩ fun k hk => ?_
          · rw [Function.update_self]
            exact hrun.tail hinside
          · rw [Function.update_of_ne hk]
            exact hothers k hk
  | @leave l hheld hleave =>
      cases h with
      | free => cases hheld
      | @held shared thread j before h hpart hothers =>
          cases hheld
          have hnext := h.next (AtomicStep.whole ⟨_, hpart, hleave⟩)
          have heq : Function.update thread i l = Function.update before.2 i l :=
            funext fun k => update_congr l (hothers k)
          exact .free (heq ▸ hnext)

/-- Whatever the interleaving, whole sections explain the state. -/
theorem explained_of_reachable (h : Reachable (Unlocked init) (Step threads) s) :
    Explained threads init s := by
  refine h.invariant ?_ fun _ _ _ => Explained.step
  rintro ⟨shared, holder, thread⟩ ⟨rfl, hinit⟩
  exact .free (.of_init hinit)

end Dengjen.CriticalSections

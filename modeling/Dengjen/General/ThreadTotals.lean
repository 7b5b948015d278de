import Mathlib.Algebra.Order.BigOperators.Group.Finset
import Mathlib.Data.Fintype.BigOperators

/-!
# Totals over threads

A system keeps one local state per thread. A resource that each thread holds
some units of has a total over the threads, and a step of one thread changes the
total by what that thread gains or gives up.
-/

namespace Dengjen.ThreadTotals

variable {T X : Type*} [Fintype T]

/-- The units all threads hold together. -/
def total (units : X → Nat) (threads : T → X) : Nat := ∑ t, units (threads t)

theorem total_update [DecidableEq T] (units : X → Nat) (threads : T → X) (t : T) (x : X) :
    total units (Function.update threads t x) + units (threads t) =
      total units threads + units x := by
  have hupdate : (fun u => units (Function.update threads t x u)) =
      Function.update (fun u => units (threads u)) t (units x) := by
    funext u
    exact Function.apply_update (fun _ => units) threads t x u
  have hsplit := Finset.add_sum_erase Finset.univ (fun u => units (threads u))
    (Finset.mem_univ t)
  simp only [total, hupdate, Finset.sum_update_of_mem (Finset.mem_univ t),
    Finset.sdiff_singleton_eq_erase]
  omega

theorem units_le_total (units : X → Nat) (threads : T → X) (t : T) :
    units (threads t) ≤ total units threads :=
  Finset.single_le_sum (f := fun u => units (threads u)) (fun _ _ => Nat.zero_le _)
    (Finset.mem_univ t)

end Dengjen.ThreadTotals

import I3xServer.Container.Dict
import Mathlib.Algebra.BigOperators.Group.List.Basic
import Mathlib.Algebra.GroupWithZero.Nat

/-!
# Counters

A dictionary that counts how often each key was met, and the sum of its counts.
-/
namespace Container.Dict
variable {K : Type} [DecidableEq K]

def bump (d : Dict K Nat) (k : K) : Dict K Nat := d.set k ((d.get? k).getD 0 + 1)

def total (d : Dict K Nat) : Nat := d.values.sum

theorem total_bump (d : Dict K Nat) (k : K) : (d.bump k).total = d.total + 1 := by
  have perm := ((d.perm_set k ((d.get? k).getD 0 + 1)).map Prod.snd).sum_eq
  rw [List.map_cons, List.sum_cons] at perm
  cases found : d.get? k with
  | none =>
      rw [erase_of_none d found, found] at perm
      rw [total, bump, values, found, perm, total, values]
      simp only [Option.getD_none]
      omega
  | some n =>
      have before := ((d.perm_erase found).map Prod.snd).sum_eq
      rw [List.map_cons, List.sum_cons] at before
      rw [found] at perm
      rw [total, bump, values, found, perm, total, values, before]
      simp only [Option.getD_some]
      omega

end Container.Dict

import Mathlib.Data.List.Forall2
import Mathlib.Tactic.Common

/-!
# Computations that change a state and may give out

A recursion that is cut off at some depth gives no result there. The rules say where
a result comes from, and when a computation gives every result that another gives.
-/
namespace Container

abbrev Attempt (S α : Type) := StateT S Option α

namespace Attempt
variable {S α β : Type}

theorem bind_eq_some {m : Attempt S α} {f : α → Attempt S β} {s : S} {r : β × S} :
    (m >>= f) s = some r ↔ ∃ a s', m s = some (a, s') ∧ f a s' = some r := by
  show (m s).bind (fun p => f p.1 p.2) = some r ↔ _
  exact Option.bind_eq_some_iff.trans Prod.exists

theorem pure_eq_some {a : α} {s : S} {r : α × S} : (pure a : Attempt S α) s = some r ↔ r = (a, s) := by
  show some (a, s) = some r ↔ _
  rw [Option.some.injEq, eq_comm]

theorem map_eq_some {m : Attempt S α} {f : α → β} {s : S} {r : β × S} :
    (f <$> m) s = some r ↔ ∃ a s', m s = some (a, s') ∧ r = (f a, s') := by
  rw [← bind_pure_comp, bind_eq_some]
  simp only [pure_eq_some]

/-- The results of a run over a list, one of each member's own runs. -/
theorem mapM_forall₂ {f : α → Attempt S β} {xs : List α} {ys : List β} {s s' : S}
    (ran : xs.mapM f s = some (ys, s')) : List.Forall₂ (fun x y => ∃ r r', f x r = some (y, r')) xs ys := by
  induction xs generalizing ys s with
  | nil =>
      cases pure_eq_some.mp ran
      exact .nil
  | cons x xs ih =>
      rw [List.mapM_cons] at ran
      obtain ⟨y, mid, ranHead, ran⟩ := bind_eq_some.mp ran
      obtain ⟨rest, last, ranTail, ran⟩ := bind_eq_some.mp ran
      cases pure_eq_some.mp ran
      exact .cons ⟨s, mid, ranHead⟩ (ih ranTail)

/-- `m'` gives each result that `m` gives. -/
def Extends (m m' : Attempt S α) : Prop := ∀ s r, m s = some r → m' s = some r

theorem Extends.refl (m : Attempt S α) : Extends m m := fun _ _ ran => ran

theorem Extends.trans {m m' m'' : Attempt S α} (first : Extends m m') (next : Extends m' m'') : Extends m m'' :=
  fun s r ran => next s r (first s r ran)

theorem Extends.of_failure (m : Attempt S α) : Extends failure m := fun _ _ ran => by cases ran

theorem Extends.bind {m m' : Attempt S α} {f f' : α → Attempt S β} (first : Extends m m')
    (next : ∀ a, Extends (f a) (f' a)) : Extends (m >>= f) (m' >>= f') := by
  intro s r ran
  obtain ⟨a, mid, ranFirst, ranNext⟩ := bind_eq_some.mp ran
  exact bind_eq_some.mpr ⟨a, mid, first s _ ranFirst, next a mid r ranNext⟩

theorem Extends.map {m m' : Attempt S α} {g : α → β} (extends_ : Extends m m') : Extends (g <$> m) (g <$> m') := by
  intro s r ran
  obtain ⟨a, mid, ranFirst, same⟩ := map_eq_some.mp ran
  exact map_eq_some.mpr ⟨a, mid, extends_ s _ ranFirst, same⟩

theorem Extends.mapM {f f' : α → Attempt S β} {xs : List α} (each : ∀ x, Extends (f x) (f' x)) :
    Extends (xs.mapM f) (xs.mapM f') := by
  induction xs with
  | nil => exact Extends.refl _
  | cons x xs ih =>
      rw [List.mapM_cons, List.mapM_cons]
      exact (each x).bind fun y => ih.bind fun ys => Extends.refl _

end Attempt
/-! ## Computations that may fail -/

/-- Two computations one after the other succeed where each one does. -/
theorem bind_eq_ok {E α β : Type} {m : Except E α} {f : α → Except E β} {b : β} :
    (m >>= f) = .ok b ↔ ∃ a, m = .ok a ∧ f a = .ok b := by
  cases m with
  | error e =>
      refine ⟨fun failed => ?_, ?_⟩
      · cases failed
      · rintro ⟨a, failed, -⟩
        cases failed
  | ok a =>
      refine ⟨fun ok => ⟨a, rfl, ok⟩, ?_⟩
      rintro ⟨a, same, ok⟩
      cases same
      exact ok

end Container

import Mathlib.Tactic.Common

/-!
# Runs of a transition function

A system whose every action either leads to one next state or is not possible.
Results about runs come from results about single steps, for all runs or for
those whose steps meet a condition.
-/
namespace Transitions
variable {S A : Type} (step : S → A → Option S)

/-- The state after a list of actions; absent if one of them is not possible. -/
def run : S → List A → Option S := List.foldlM step

/-- Every action of a run meets a condition in the state it is taken in. -/
def Meets (ok : S → A → Prop) : S → List A → Prop
  | _, [] => True
  | s, a :: actions => ok s a ∧ ∀ s', step s a = some s' → Meets ok s' actions

variable {step}

theorem run_cons {s s' : S} {a : A} {actions : List A} :
    run step s (a :: actions) = some s' ↔ ∃ next, step s a = some next ∧ run step next actions = some s' := by
  rw [run, List.foldlM_cons, Option.bind_eq_bind, Option.bind_eq_some_iff]

/-- What every step of a run keeps, given its condition, the run keeps. -/
theorem run_keeps {ok : S → A → Prop} {inv : S → Prop}
    (keep : ∀ s a s', inv s → ok s a → step s a = some s' → inv s') {s s' : S} {actions : List A}
    (start : inv s) (met : Meets step ok s actions) (done : run step s actions = some s') : inv s' := by
  induction actions generalizing s with
  | nil =>
      cases done
      exact start
  | cons a actions ih =>
      obtain ⟨next, first, rest⟩ := run_cons.mp done
      exact ih (keep s a next start met.1 first) (met.2 next first) rest

theorem Meets.trivial (s : S) (actions : List A) : Meets step (fun _ _ => True) s actions := by
  induction actions generalizing s with
  | nil => exact True.intro
  | cons a actions ih => exact ⟨True.intro, fun s' _ => ih s'⟩

theorem run_invariant {inv : S → Prop} (keep : ∀ s a s', inv s → step s a = some s' → inv s') {s s' : S}
    {actions : List A} (start : inv s) (done : run step s actions = some s') : inv s' :=
  run_keeps (fun s a s' here _ => keep s a s' here) start (Meets.trivial s actions) done

end Transitions

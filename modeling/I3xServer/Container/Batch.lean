import Mathlib.Data.List.Forall2
import Mathlib.Tactic.Common

/-!
# Batches

A batch answers each of its inputs. It is isolated if no input changes what another
is answered, in particular if none makes the batch fail.
-/
namespace Container
variable {α β ε : Type}

/-- A batch has one item for each input, in order, and each is the item that the
input has alone. -/
def Isolated (batch : List α → Except ε (List β)) (inputs : List α) : Prop :=
  ∃ items, batch inputs = .ok items ∧ items.length = inputs.length ∧
    ∀ (i : Nat) input, inputs[i]? = some input → ∃ item, items[i]? = some item ∧ batch [input] = .ok [item]

theorem mapM_ok_iff (f : α → Except ε β) (inputs : List α) (items : List β) :
    inputs.mapM f = .ok items ↔ List.Forall₂ (fun input item => f input = .ok item) inputs items := by
  induction inputs generalizing items with
  | nil =>
      rw [List.mapM_nil]
      constructor
      · intro same
        cases same
        exact .nil
      · intro none
        cases none
        rfl
  | cons input inputs ih =>
      rw [List.mapM_cons]
      constructor
      · intro run
        cases first : f input with
        | error failure => rw [first] at run; cases run
        | ok item =>
            cases rest : inputs.mapM f with
            | error failure => rw [first, rest] at run; cases run
            | ok others =>
                rw [first, rest] at run
                cases run
                exact .cons first ((ih others).mp rest)
      · rintro (_ | ⟨first, rest⟩)
        rw [first, (ih _).mpr rest]
        rfl

theorem mapM_ok {f : α → Except ε β} {g : α → β} {inputs : List α} (each : ∀ input ∈ inputs, f input = .ok (g input)) :
    inputs.mapM f = .ok (inputs.map g) := by
  rw [mapM_ok_iff, List.forall₂_map_right_iff, List.forall₂_same]
  exact each

theorem mapM_singleton (f : α → Except ε β) (input : α) : [input].mapM f = (f input).map fun item => [item] := by
  rw [List.mapM_cons, List.mapM_nil]
  cases f input <;> rfl

/-- A batch that answers its inputs one by one is isolated exactly if every input
has an answer. -/
theorem isolated_mapM_iff (f : α → Except ε β) (inputs : List α) :
    Isolated (List.mapM f) inputs ↔ ∀ input ∈ inputs, ∃ item, f input = .ok item := by
  constructor
  · rintro ⟨items, run, -, -⟩ input m
    obtain ⟨i, bound, rfl⟩ := List.mem_iff_getElem.mp m
    have each := (mapM_ok_iff f inputs items).mp run
    exact ⟨_, each.get bound (each.length_eq ▸ bound)⟩
  · intro answered
    have all : ∃ items, List.Forall₂ (fun input item => f input = .ok item) inputs items := by
      induction inputs with
      | nil => exact ⟨[], .nil⟩
      | cons input inputs ih =>
          obtain ⟨item, first⟩ := answered input List.mem_cons_self
          obtain ⟨items, rest⟩ := ih fun other m => answered other (List.mem_cons_of_mem _ m)
          exact ⟨item :: items, .cons first rest⟩
    obtain ⟨items, each⟩ := all
    refine ⟨items, (mapM_ok_iff f inputs items).mpr each, each.length_eq.symm, fun i input found => ?_⟩
    obtain ⟨bound, rfl⟩ := List.getElem?_eq_some_iff.mp found
    have bound' : i < items.length := each.length_eq ▸ bound
    refine ⟨items[i], List.getElem?_eq_getElem bound', ?_⟩
    have alone : f inputs[i] = .ok items[i] := each.get bound bound'
    rw [mapM_singleton, alone]
    rfl

end Container

import Mathlib.Data.List.Infix
import Mathlib.Tactic.Common

/-!
# Windows of a list

The parts of a fixed length. A part of a list has no windows that the list does not
have.
-/
namespace Container
variable {α : Type}

/-- The parts of length `n`, from left to right. -/
def windows (n : Nat) (xs : List α) : List (List α) :=
  (List.range (xs.length + 1 - n)).map fun i => (xs.drop i).take n

theorem mem_windows {n : Nat} {xs window : List α} : window ∈ windows n xs ↔ window.length = n ∧ window <:+: xs := by
  simp only [windows, List.mem_map, List.mem_range]
  constructor
  · rintro ⟨i, bound, rfl⟩
    refine ⟨by rw [List.length_take, List.length_drop]; omega, ?_⟩
    exact (List.take_prefix _ _).isInfix.trans (List.drop_suffix _ _).isInfix
  · rintro ⟨rfl, before, after, rfl⟩
    refine ⟨before.length, ?_, ?_⟩
    · simp only [List.length_append]
      omega
    · rw [List.append_assoc, List.drop_left, List.take_left]

theorem windows_subset {n : Nat} {part xs : List α} (inside : part <:+: xs) : windows n part ⊆ windows n xs := by
  intro window m
  obtain ⟨size, within⟩ := mem_windows.mp m
  exact mem_windows.mpr ⟨size, within.trans inside⟩

end Container

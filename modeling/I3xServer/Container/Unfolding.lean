import Mathlib.Data.Finset.Card
import Mathlib.Data.Finset.Dedup
import Mathlib.Logic.Relation
import Mathlib.Tactic.Common

/-!
# Bounded unfoldings

The depth-first unfolding of a graph below a root, down to some level and without
returning to a node of the same chain; and what is left of a list that is cut where it
has named a number of different members.
-/
namespace Container
variable {α : Type} [DecidableEq α]

/-- The nodes of the unfolding, each before those below it. -/
def unfolding (children : α → List α) : Nat → List α → α → List α
  | 0, _, a => [a]
  | levels + 1, chain, a =>
      a :: ((children a).filter fun b => b ∉ chain).flatMap fun b => unfolding children levels (b :: chain) b

/-- The members met before `bound` different ones are, counting those seen before. -/
def capped (bound : Nat) : Finset α → List α → List α
  | _, [] => []
  | seen, a :: as => if bound ≤ seen.card then [] else a :: capped bound (insert a seen) as

theorem capped_full {bound : Nat} {seen : Finset α} (full : bound ≤ seen.card) (as : List α) : capped bound seen as = [] := by
  cases as with
  | nil => rfl
  | cons a as => rw [capped, if_pos full]

theorem capped_append (bound : Nat) (seen : Finset α) (as bs : List α) :
    capped bound seen (as ++ bs) = capped bound seen as ++ capped bound (seen ∪ (capped bound seen as).toFinset) bs := by
  induction as generalizing seen with
  | nil => simp [capped]
  | cons a as ih =>
      rw [List.cons_append, capped, capped]
      split
      · next full => rw [List.nil_append, List.toFinset_nil, Finset.union_empty, capped_full full]
      · rw [ih, List.cons_append, List.toFinset_cons]
        congr 3
        ext b
        simp only [Finset.mem_union, Finset.mem_insert]
        tauto

theorem card_capped {bound : Nat} {seen : Finset α} (few : seen.card ≤ bound) (as : List α) :
    (seen ∪ (capped bound seen as).toFinset).card ≤ bound := by
  induction as generalizing seen with
  | nil => simpa [capped] using few
  | cons a as ih =>
      rw [capped]
      split
      · simpa using few
      · next room =>
          have room' : (insert a seen).card ≤ bound :=
            Nat.le_trans (Finset.card_insert_le a seen) (Nat.lt_of_not_le room)
          have further := ih room'
          rwa [List.toFinset_cons, Finset.union_insert, ← Finset.insert_union]

/-- Cutting at different members repeats none exactly if cutting at as many members does. -/
theorem nodup_capped_iff {bound : Nat} {start : List α} (distinct : start.Nodup) (few : start.length ≤ bound)
    (as : List α) : (start ++ capped bound start.toFinset as).Nodup ↔ ((start ++ as).take bound).Nodup := by
  induction as generalizing start with
  | nil => rw [capped, List.append_nil, List.take_of_length_le few]
  | cons a as ih =>
      have size : start.toFinset.card = start.length := List.toFinset_card_of_nodup distinct
      rw [capped, size]
      split
      · next full =>
          have exact' : start.length = bound := Nat.le_antisymm few full
          rw [List.append_nil, ← exact', List.take_left]
      · next room =>
          have whole : start ++ a :: capped bound (insert a start.toFinset) as =
              (start ++ [a]) ++ capped bound (start ++ [a]).toFinset as := by
            rw [List.append_assoc, List.toFinset_append]
            congr 3
            ext b
            simp
          have listed : start ++ a :: as = (start ++ [a]) ++ as := by
            rw [List.append_assoc]
            rfl
          have room' : (start ++ [a]).length ≤ bound := by
            rw [List.length_append]
            exact Nat.lt_of_not_le room
          rw [whole, listed]
          by_cases old : a ∈ start
          · have repeated : ¬ (start ++ [a]).Nodup := by
              rw [List.nodup_append]
              exact fun all => all.2.2 a old a (List.mem_singleton_self a) rfl
            refine iff_of_false (fun all => repeated (List.nodup_append.mp all).1) fun all => repeated ?_
            rw [List.take_append, List.take_of_length_le room'] at all
            exact (List.nodup_append.mp all).1
          · refine ih (List.nodup_append.mpr ⟨distinct, List.nodup_singleton a, ?_⟩) room'
            rintro b m _ n rfl
            exact old (List.mem_singleton.mp n ▸ m)

end Container

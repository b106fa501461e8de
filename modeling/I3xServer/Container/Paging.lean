import Mathlib.Tactic.Common

/-!
# Pages of a list

A client that asks for the page at the offset that the last page named, until a page
names none, sees the list once, whatever sizes it asks for.
-/
namespace Container
variable {α P : Type}

/-- The pages received from an offset on: a page that names a next offset is followed
by the page there. -/
def followPages (request : Nat → Nat → P) (next : P → Option Nat) : Nat → Nat → Nat → Option (List P)
  | 0, _, _ => none
  | fuel + 1, round, offset =>
      match next (request round offset) with
      | none => some [request round offset]
      | some further => (followPages request next fuel (round + 1) further).map (request round offset :: ·)

/-- The offset behind a page, unless the list ends there. -/
def nextOffset (total offset returned : Nat) : Option Nat :=
  if offset + returned < total then some (offset + returned) else none

theorem followPages_tile {request : Nat → Nat → P} {next : P → Option Nat} {items : P → List α} {xs : List α}
    {limit : Nat → Nat} (some' : ∀ round, 1 ≤ limit round)
    (page : ∀ round offset, items (request round offset) = (xs.drop offset).take (limit round))
    (link : ∀ round offset, next (request round offset) =
      nextOffset xs.length offset ((xs.drop offset).take (limit round)).length)
    {fuel : Nat} (round : Nat) {offset : Nat} (enough : xs.length - offset < fuel) :
    ∃ pages, followPages request next fuel round offset = some pages ∧ pages.flatMap items = xs.drop offset := by
  induction fuel generalizing round offset with
  | zero => omega
  | succ fuel ih =>
      rw [followPages, link, nextOffset]
      have size : ((xs.drop offset).take (limit round)).length = min (limit round) (xs.length - offset) := by
        rw [List.length_take, List.length_drop]
      have positive := some' round
      by_cases more : offset + ((xs.drop offset).take (limit round)).length < xs.length
      · rw [if_pos more]
        have shorter : xs.length - (offset + ((xs.drop offset).take (limit round)).length) < fuel := by omega
        obtain ⟨pages, followed, tiled⟩ := ih (round + 1) shorter
        refine ⟨request round offset :: pages, by simp only [followed, Option.map_some], ?_⟩
        have behind : xs.drop (offset + ((xs.drop offset).take (limit round)).length) =
            (xs.drop offset).drop (limit round) := by
          rw [List.drop_drop]
          congr 1
          omega
        rw [List.flatMap_cons, tiled, page, behind, List.take_append_drop]
      · rw [if_neg more]
        refine ⟨_, rfl, ?_⟩
        rw [List.flatMap_singleton, page, List.take_of_length_le]
        rw [List.length_drop]
        omega

/-- The pages that are followed are answers to requests. -/
theorem mem_followPages {request : Nat → Nat → P} {next : P → Option Nat} {fuel round offset : Nat} {pages : List P}
    (followed : followPages request next fuel round offset = some pages) {page : P} (inside : page ∈ pages) :
    ∃ round offset, page = request round offset := by
  induction fuel generalizing round offset pages with
  | zero => cases followed
  | succ fuel ih =>
      rw [followPages] at followed
      split at followed
      · cases followed
        exact ⟨round, offset, List.mem_singleton.mp inside⟩
      · obtain ⟨rest, further, rfl⟩ := Option.map_eq_some_iff.mp followed
        rcases List.mem_cons.mp inside with rfl | later
        · exact ⟨round, offset, rfl⟩
        · exact ih further later

end Container

import Mathlib.Data.Fintype.Card
import Mathlib.Data.List.Nodup
import Mathlib.Logic.Relation
import Mathlib.Tactic.Common

/-!
# Parent functions

A partial function from a finite set to itself, read as "the parent of". Every
member climbs to a member without a parent exactly if no member is its own
ancestor.
-/
namespace Container
variable {α : Type}

/-- `p` is the parent of `a`. -/
def ParentOf (parent : α → Option α) (a p : α) : Prop := parent a = some p

/-- The members met on the way up from `a`, the last of them without a parent. -/
inductive Climbs (parent : α → Option α) : α → List α → Prop
  | top {a : α} : parent a = none → Climbs parent a [a]
  | up {a p : α} {chain : List α} : parent a = some p → Climbs parent p chain → Climbs parent a (a :: chain)

namespace Climbs
variable {parent : α → Option α} {a p : α} {chain : List α}

theorem functional {other : List α} (h : Climbs parent a chain) (h' : Climbs parent a other) : chain = other := by
  induction h generalizing other with
  | top none =>
      cases h' with
      | top => rfl
      | up some => rw [none] at some; cases some
  | up up _ ih =>
      cases h' with
      | top none => rw [none] at up; cases up
      | up up' rest =>
          rw [up, Option.some.injEq] at up'
          subst up'
          rw [ih rest]

/-- Whatever lies above the start has a shorter way up. -/
theorem shorter (h : Climbs parent a chain) (above : Relation.TransGen (ParentOf parent) a p) :
    ∃ rest, Climbs parent p rest ∧ rest.length < chain.length := by
  induction above with
  | single step =>
      cases h with
      | top none => rw [ParentOf, none] at step; cases step
      | up up rest =>
          rw [ParentOf, up, Option.some.injEq] at step
          subst step
          exact ⟨_, rest, Nat.lt_succ_self _⟩
  | tail _ step ih =>
      obtain ⟨rest, climbs, short⟩ := ih
      cases climbs with
      | top none => rw [ParentOf, none] at step; cases step
      | up up rest =>
          rw [ParentOf, up, Option.some.injEq] at step
          subst step
          exact ⟨_, rest, lt_trans (Nat.lt_succ_self _) short⟩

theorem not_above_itself (h : Climbs parent a chain) : ¬ Relation.TransGen (ParentOf parent) a a := by
  intro above
  obtain ⟨rest, climbs, short⟩ := h.shorter above
  rw [h.functional climbs] at short
  exact lt_irrefl _ short

/-- Every member of the way up but the start lies above the start. -/
theorem mem (h : Climbs parent a chain) {b : α} (m : b ∈ chain) :
    b = a ∨ Relation.TransGen (ParentOf parent) a b := by
  induction h with
  | top => exact Or.inl (List.mem_singleton.mp m)
  | up up _ ih =>
      rcases List.mem_cons.mp m with rfl | later
      · exact Or.inl rfl
      · rcases ih later with rfl | above
        · exact Or.inr (.single up)
        · exact Or.inr (.head up above)

theorem nodup (h : Climbs parent a chain) : chain.Nodup := by
  induction h with
  | top => exact List.nodup_singleton _
  | @up a p rest up climbs ih =>
      refine List.nodup_cons.mpr ⟨fun m => ?_, ih⟩
      have whole : Climbs parent a (a :: rest) := .up up climbs
      rcases climbs.mem m with rfl | above
      · exact whole.not_above_itself (.single up)
      · exact whole.not_above_itself (.head up above)

end Climbs

/-- The way up from `a` that has visited `below` already; the members not yet
visited decrease with every step. -/
theorem climbs_of_acyclic [DecidableEq α] (parent : α → Option α) (members : Finset α)
    (closed : ∀ a ∈ members, ∀ p, parent a = some p → p ∈ members)
    (acyclic : ∀ a, ¬ Relation.TransGen (ParentOf parent) a a) (unvisited : Finset α) {a : α}
    (inside : a ∈ members)
    (below : ∀ b ∈ members, b ∈ unvisited ∨ Relation.TransGen (ParentOf parent) b a) :
    ∃ chain, Climbs parent a chain := by
  induction size : unvisited.card using Nat.strong_induction_on generalizing unvisited a with
  | _ n ih =>
      cases up : parent a with
      | none => exact ⟨_, .top up⟩
      | some p =>
          have fresh : a ∈ unvisited := (below a inside).resolve_right (acyclic a)
          have fewer : (unvisited.erase a).card < n := by
            rw [← size]
            exact Finset.card_erase_lt_of_mem fresh
          obtain ⟨chain, climbs⟩ := ih _ fewer (unvisited.erase a) (closed a inside p up)
            (fun b mb => by
              by_cases same : b = a
              · exact Or.inr (same ▸ .single up)
              · exact (below b mb).imp (fun m => Finset.mem_erase.mpr ⟨same, m⟩) fun above => .tail above up)
            rfl
          exact ⟨_, .up up climbs⟩

theorem climbs_iff_acyclic [DecidableEq α] (parent : α → Option α) (members : Finset α)
    (closed : ∀ a ∈ members, ∀ p, parent a = some p → p ∈ members)
    (outside : ∀ a p, parent a = some p → a ∈ members) :
    (∀ a ∈ members, ∃ chain, Climbs parent a chain) ↔
      ∀ a, ¬ Relation.TransGen (ParentOf parent) a a := by
  constructor
  · intro climbs a above
    obtain ⟨p, up, -⟩ := Relation.TransGen.head'_iff.mp above
    obtain ⟨chain, climbs⟩ := climbs a (outside a p up)
    exact climbs.not_above_itself above
  · intro acyclic a inside
    exact climbs_of_acyclic parent members closed acyclic members inside fun b m => Or.inl m

end Container

import Mathlib.Data.List.Nodup
import Mathlib.Logic.Relation
import Mathlib.Tactic.Common

/-!
# Bounded search

A search with a stack that gives up on too many nodes or too deep a path. If it does
not give up, it has visited exactly what can be reached, and each node once.
-/
namespace Container
variable {α : Type}

/-- Why a search gives up. -/
inductive Overrun where
  | nodes | depth
  deriving DecidableEq, Repr

/-- Search from a stack of nodes with their depths, and return the visited nodes in the
order of the visits. -/
def boundedSearch [DecidableEq α] (next : α → List α) (maxNodes maxDepth : Nat) (pending : List (α × Nat))
    (visited : List α) : Except Overrun (List α) :=
  match pending with
  | [] => .ok visited
  | (a, depth) :: rest =>
      if a ∈ visited then boundedSearch next maxNodes maxDepth rest visited
      else if maxNodes < visited.length + 1 then .error .nodes
      else if maxDepth < depth then .error .depth
      else boundedSearch next maxNodes maxDepth ((next a).map (fun b => (b, depth + 1)) ++ rest) (visited ++ [a])
termination_by (maxNodes - visited.length, pending.length)
decreasing_by
  · exact Prod.Lex.right _ (Nat.lt_succ_self _)
  · refine Prod.Lex.left _ _ ?_
    simp only [List.length_append, List.length_singleton]
    omega

/-- The state of a search from a root: what is visited or pending can be reached, and
what visited nodes lead to is visited or pending. -/
structure Searching (next : α → List α) (root : α) (pending visited : List α) : Prop where
  distinct : visited.Nodup
  reached : ∀ a, a ∈ visited ∨ a ∈ pending → Relation.ReflTransGen (fun a b => b ∈ next a) root a
  closed : ∀ a ∈ visited, ∀ b ∈ next a, b ∈ visited ∨ b ∈ pending
  begun : root ∈ visited ∨ root ∈ pending

namespace Searching
variable {next : α → List α} {root : α} {pending visited : List α}

theorem start (next : α → List α) (root : α) : Searching next root [root] [] where
  distinct := List.nodup_nil
  reached a m := by
    rcases m with m | m
    · cases m
    · rw [List.mem_singleton.mp m]
  closed _ m := by cases m
  begun := .inr (List.mem_singleton_self root)

/-- A node that was visited before is dropped. -/
theorem skip {a : α} (searching : Searching next root (a :: pending) visited) (old : a ∈ visited) :
    Searching next root pending visited := by
  have kept {b : α} (m : b ∈ visited ∨ b ∈ a :: pending) : b ∈ visited ∨ b ∈ pending := by
    rcases m with m | m
    · exact .inl m
    · rcases List.mem_cons.mp m with rfl | m
      · exact .inl old
      · exact .inr m
  exact ⟨searching.distinct, fun b m => searching.reached b (m.imp_right (List.mem_cons_of_mem a)),
    fun b m c led => kept (searching.closed b m c led), kept searching.begun⟩

/-- A new node is visited, and what it leads to is pending. -/
theorem visit {a : α} (searching : Searching next root (a :: pending) visited) (new : a ∉ visited) :
    Searching next root (next a ++ pending) (visited ++ [a]) := by
  have here : Relation.ReflTransGen (fun a b => b ∈ next a) root a := searching.reached a (.inr List.mem_cons_self)
  have moved {b : α} (m : b ∈ visited ∨ b ∈ a :: pending) : b ∈ visited ++ [a] ∨ b ∈ next a ++ pending := by
    rcases m with m | m
    · exact .inl (List.mem_append_left _ m)
    · rcases List.mem_cons.mp m with rfl | m
      · exact .inl (List.mem_append_right _ (List.mem_singleton_self b))
      · exact .inr (List.mem_append_right _ m)
  refine ⟨?_, fun b m => ?_, fun b m c led => ?_, moved searching.begun⟩
  · exact List.nodup_append.mpr ⟨searching.distinct, List.nodup_singleton a,
      fun b m c n same => new (List.mem_singleton.mp n ▸ same ▸ m)⟩
  · rcases m with m | m
    · rcases List.mem_append.mp m with m | m
      · exact searching.reached b (.inl m)
      · rwa [List.mem_singleton.mp m]
    · rcases List.mem_append.mp m with led | m
      · exact here.tail led
      · exact searching.reached b (.inr (List.mem_cons_of_mem a m))
  · rcases List.mem_append.mp m with m | m
    · exact moved (searching.closed b m c led)
    · rw [List.mem_singleton.mp m] at led
      exact .inr (List.mem_append_left _ led)

/-- When nothing is pending, exactly what can be reached is visited. -/
theorem mem_iff (searching : Searching next root [] visited) (a : α) :
    a ∈ visited ↔ Relation.ReflTransGen (fun a b => b ∈ next a) root a := by
  refine ⟨fun m => searching.reached a (.inl m), fun path => ?_⟩
  induction path with
  | refl => exact searching.begun.resolve_right List.not_mem_nil
  | tail _ led ih => exact (searching.closed _ ih _ led).resolve_right List.not_mem_nil

end Searching

variable [DecidableEq α]

theorem boundedSearch_searching {next : α → List α} {maxNodes maxDepth : Nat} {root : α} {pending : List (α × Nat)}
    {visited all : List α} (searching : Searching next root (pending.map Prod.fst) visited)
    (done : boundedSearch next maxNodes maxDepth pending visited = .ok all) : Searching next root [] all := by
  fun_induction boundedSearch next maxNodes maxDepth pending visited with
  | case1 visited =>
      cases done
      exact searching
  | case2 visited a depth rest old ih => exact ih (searching.skip old) done
  | case3 => cases done
  | case4 => cases done
  | case5 visited a depth rest new few shallow ih =>
      refine ih ?_ done
      rw [List.map_append, List.map_map]
      have names : (next a).map (Prod.fst ∘ fun b => (b, depth + 1)) = next a := List.map_id _
      rw [names]
      exact searching.visit new

/-- A search that does not give up visits exactly what can be reached, each node once. -/
theorem boundedSearch_spec {next : α → List α} {maxNodes maxDepth : Nat} {root : α} {all : List α}
    (done : boundedSearch next maxNodes maxDepth [(root, 0)] [] = .ok all) :
    all.Nodup ∧ ∀ a, a ∈ all ↔ Relation.ReflTransGen (fun a b => b ∈ next a) root a :=
  let searching := boundedSearch_searching (.start next root) done
  ⟨searching.distinct, searching.mem_iff⟩

end Container

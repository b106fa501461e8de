import I3xServer.Container.Traversal
import Mathlib.Algebra.BigOperators.Group.Finset.Basic
import Mathlib.Logic.Relation
import Mathlib.Algebra.GroupWithZero.Nat

/-!
# Worklists

A worklist takes its entries from the front in batches, passes over the nodes visited
before, and appends what the others lead to. An entry names the node that led to it.
-/
namespace Container
variable {α : Type} (next : α → List α) (roots : List α)

/-- A node is some number of steps from a root. -/
def Reached (node : α) : Prop := ∃ root ∈ roots, Relation.ReflTransGen (fun a b => b ∈ next a) root node

/-- An entry without a parent is a root, and another is led to by a node of `seen`. -/
def Led (seen : List α) (entry : α × Option α) : Prop :=
  match entry.2 with
  | none => entry.1 ∈ roots
  | some parent => parent ∈ seen ∧ entry.1 ∈ next parent

/-- The entries that the nodes of a batch append. -/
def ledBy (batch : List (α × Option α)) : List (α × Option α) :=
  batch.flatMap fun entry => (next entry.1).map fun child => (child, some entry.1)

variable {next roots}

theorem Reached.root {node : α} (m : node ∈ roots) : Reached next roots node := ⟨node, m, .refl⟩

theorem Reached.step {node child : α} (reached : Reached next roots node) (led : child ∈ next node) :
    Reached next roots child :=
  let ⟨root, m, path⟩ := reached
  ⟨root, m, path.tail led⟩

theorem Led.mono {seen more : List α} {entry : α × Option α} (led : Led next roots seen entry)
    (grown : seen ⊆ more) : Led next roots more entry := by
  obtain ⟨node, parent⟩ := entry
  cases parent with
  | none => exact led
  | some parent => exact ⟨grown led.1, led.2⟩

theorem Led.reached {seen : List α} {entry : α × Option α} (led : Led next roots seen entry)
    (all : ∀ node ∈ seen, Reached next roots node) : Reached next roots entry.1 := by
  obtain ⟨node, parent⟩ := entry
  cases parent with
  | none => exact .root led
  | some parent => exact (all parent led.1).step led.2

theorem mem_ledBy {batch : List (α × Option α)} {entry : α × Option α} :
    entry ∈ ledBy next batch ↔ ∃ parent ∈ batch.map Prod.fst, entry.2 = some parent ∧ entry.1 ∈ next parent := by
  simp only [ledBy, List.mem_flatMap, List.mem_map]
  constructor
  · rintro ⟨led, m, child, n, rfl⟩
    exact ⟨led.1, ⟨led, m, rfl⟩, rfl, n⟩
  · rintro ⟨_, ⟨led, m, rfl⟩, same, n⟩
    exact ⟨led, m, entry.1, n, Prod.ext rfl same.symm⟩

theorem length_ledBy (batch : List (α × Option α)) :
    (ledBy next batch).length = ((batch.map Prod.fst).map fun node => (next node).length).sum := by
  rw [ledBy, List.length_flatMap, List.map_map]
  simp only [List.length_map, Function.comp_def]

section
variable [DecidableEq α]

/-- The entries of a batch whose nodes were not visited, one for each node. -/
def unvisited : List α → List (α × Option α) → List (α × Option α)
  | _, [] => []
  | visited, entry :: batch =>
      if entry.1 ∈ visited then unvisited visited batch else entry :: unvisited (visited ++ [entry.1]) batch

theorem unvisited_sublist (visited : List α) (batch : List (α × Option α)) :
    (unvisited visited batch).Sublist batch := by
  induction batch generalizing visited with
  | nil => exact .slnil
  | cons entry batch ih =>
      rw [unvisited]
      split
      · exact (ih visited).cons entry
      · exact (ih _).cons_cons entry

/-- What is visited stays without repetition. -/
theorem unvisited_nodup {visited : List α} (distinct : visited.Nodup) (batch : List (α × Option α)) :
    (visited ++ (unvisited visited batch).map Prod.fst).Nodup := by
  induction batch generalizing visited with
  | nil => simpa only [unvisited, List.map_nil, List.append_nil] using distinct
  | cons entry batch ih =>
      rw [unvisited]
      split
      · exact ih distinct
      · next new =>
          have grown : (visited ++ [entry.1]).Nodup := List.nodup_append.mpr
            ⟨distinct, List.nodup_singleton _, fun a m b n same => new (List.mem_singleton.mp n ▸ same ▸ m)⟩
          simpa only [List.map_cons, List.append_assoc, List.singleton_append] using ih grown

/-- Every node of a batch has been visited afterwards. -/
theorem batch_visited (visited : List α) {batch : List (α × Option α)} {node : α} (m : node ∈ batch.map Prod.fst) :
    node ∈ visited ++ (unvisited visited batch).map Prod.fst := by
  induction batch generalizing visited with
  | nil => cases m
  | cons entry batch ih =>
      rw [unvisited]
      rcases List.mem_cons.mp m with rfl | later
      · split
        · next old => exact List.mem_append_left _ old
        · exact List.mem_append_right _ List.mem_cons_self
      · split
        · exact ih visited later
        · simpa only [List.map_cons, List.append_assoc, List.singleton_append] using ih (visited ++ [entry.1]) later

end

/-! ## The invariant -/

variable (next roots)

/-- The state of a search: every entry was led to by a node visited before it, and what
visited nodes lead to was visited, or is pending. -/
structure Worklist (pending visited : List (α × Option α)) : Prop where
  distinct : (visited.map Prod.fst).Nodup
  led : ∀ entry ∈ pending, Led next roots (visited.map Prod.fst) entry
  earlier : ∀ before entry after, visited = before ++ entry :: after → Led next roots (before.map Prod.fst) entry
  reached : ∀ node ∈ visited.map Prod.fst, Reached next roots node
  closed : ∀ node ∈ visited.map Prod.fst, ∀ child ∈ next node,
    child ∈ visited.map Prod.fst ∨ child ∈ pending.map Prod.fst
  rooted : ∀ root ∈ roots, root ∈ visited.map Prod.fst ∨ root ∈ pending.map Prod.fst

theorem Worklist.start : Worklist next roots (roots.map fun root => (root, none)) [] where
  distinct := List.nodup_nil
  led entry m := by
    obtain ⟨root, n, rfl⟩ := List.mem_map.mp m
    exact n
  earlier before entry after split := by cases before <;> cases split
  reached := nofun
  closed := nofun
  rooted root m := Or.inr (List.mem_map.mpr ⟨(root, none), List.mem_map.mpr ⟨root, m, rfl⟩, rfl⟩)

variable {next roots}
variable {batch rest pending visited : List (α × Option α)}

/-- When nothing is pending, exactly the reachable nodes have been visited. -/
theorem Worklist.exact (search : Worklist next roots [] visited) (node : α) :
    node ∈ visited.map Prod.fst ↔ Reached next roots node := by
  refine ⟨search.reached node, ?_⟩
  rintro ⟨root, m, path⟩
  induction path with
  | refl => exact (search.rooted root m).resolve_right nofun
  | tail _ led ih => exact (search.closed _ ih _ led).resolve_right nofun

theorem Worklist.root (search : Worklist next roots pending visited) {node : α} (m : (node, none) ∈ visited) :
    node ∈ roots := by
  obtain ⟨before, after, rfl⟩ := List.append_of_mem m
  exact search.earlier before _ after rfl

/-- The parent of a visited node was visited before it. -/
theorem Worklist.parent (search : Worklist next roots pending visited) {node parent : α}
    (m : (node, some parent) ∈ visited) : Precedes (visited.map Prod.fst) parent node ∧ node ∈ next parent := by
  obtain ⟨before, after, rfl⟩ := List.append_of_mem m
  have led := search.earlier before _ after rfl
  have distinct := search.distinct
  rw [List.map_append, List.map_cons] at distinct ⊢
  exact ⟨(precedes_iff_of_nodup distinct).mpr led.1, led.2⟩

variable [DecidableEq α]

theorem Worklist.round (search : Worklist next roots (batch ++ rest) visited) :
    Worklist next roots (rest ++ ledBy next (unvisited (visited.map Prod.fst) batch))
      (visited ++ unvisited (visited.map Prod.fst) batch) := by
  have led {entry} (m : entry ∈ unvisited (visited.map Prod.fst) batch) :
      Led next roots (visited.map Prod.fst) entry :=
    search.led entry (List.mem_append_left _ ((unvisited_sublist _ _).subset m))
  have reached : ∀ node ∈ (visited ++ unvisited (visited.map Prod.fst) batch).map Prod.fst,
      Reached next roots node := by
    intro node m
    obtain ⟨entry, n, rfl⟩ := List.mem_map.mp m
    rcases List.mem_append.mp n with old | new
    · exact search.reached _ (List.mem_map_of_mem old)
    · exact (led new).reached search.reached
  -- Whatever was pending is visited now, or still pending.
  have onward {node : α} (m : node ∈ visited.map Prod.fst ∨ node ∈ (batch ++ rest).map Prod.fst) :
      node ∈ (visited ++ unvisited (visited.map Prod.fst) batch).map Prod.fst ∨
        node ∈ (rest ++ ledBy next (unvisited (visited.map Prod.fst) batch)).map Prod.fst := by
    rw [List.map_append, List.map_append]
    rcases m with old | waiting
    · exact Or.inl (List.mem_append_left _ old)
    · rcases List.mem_append.mp (List.map_append ▸ waiting) with now | later
      · exact Or.inl (batch_visited _ now)
      · exact Or.inr (List.mem_append_left _ later)
  refine ⟨?_, ?_, ?_, reached, ?_, fun root m => onward (search.rooted root m)⟩
  · exact List.map_append ▸ unvisited_nodup search.distinct batch
  · intro entry m
    rcases List.mem_append.mp m with old | new
    · exact (search.led entry (List.mem_append_right _ old)).mono (List.map_append ▸ List.subset_append_left _ _)
    · obtain ⟨parent, n, same, child⟩ := mem_ledBy.mp new
      rw [Led, same]
      exact ⟨List.map_append ▸ List.mem_append_right _ n, child⟩
  · intro before entry after split
    rcases List.append_eq_append_iff.mp split with ⟨more, rfl, tail⟩ | ⟨more, rfl, tail⟩
    · refine (led (tail ▸ List.mem_append_right _ List.mem_cons_self)).mono ?_
      exact List.map_append ▸ List.subset_append_left _ _
    · cases more with
      | nil =>
          have now : entry ∈ [] ++ _ := tail ▸ List.mem_cons_self
          simpa only [List.append_nil] using led now
      | cons first more =>
          obtain ⟨rfl, -⟩ := List.cons.inj tail
          exact search.earlier before entry more rfl
  · intro node m child led
    rcases List.mem_append.mp (List.map_append ▸ m) with old | new
    · exact onward (search.closed node old child led)
    · refine Or.inr (List.mem_map.mpr ⟨(child, some node), List.mem_append_right _ ?_, rfl⟩)
      exact mem_ledBy.mpr ⟨node, new, rfl, led⟩

/-! ## Termination -/

variable (next)

/-- The entries that are pending, or can still be appended. -/
def debt (nodes : Finset α) (pending visited : List (α × Option α)) : Nat :=
  pending.length + ∑ node ∈ nodes \ (visited.map Prod.fst).toFinset, (next node).length

variable {next}

/-- A round settles the entries of its batch. -/
theorem Worklist.debt_round (search : Worklist next roots (batch ++ rest) visited) {nodes : Finset α}
    (finite : ∀ node, Reached next roots node → node ∈ nodes) :
    debt next nodes (rest ++ ledBy next (unvisited (visited.map Prod.fst) batch))
      (visited ++ unvisited (visited.map Prod.fst) batch) + batch.length = debt next nodes (batch ++ rest) visited := by
  have after := search.round
  have distinct := after.distinct
  rw [List.map_append, List.nodup_append] at distinct
  generalize new : (unvisited (visited.map Prod.fst) batch).map Prod.fst = added at distinct
  have inside : added.toFinset ⊆ nodes \ (visited.map Prod.fst).toFinset := by
    intro node m
    rw [List.mem_toFinset] at m
    refine Finset.mem_sdiff.mpr ⟨finite node (after.reached node ?_), fun old => ?_⟩
    · exact List.map_append ▸ List.mem_append_right _ (new ▸ m)
    · exact distinct.2.2 node (List.mem_toFinset.mp old) node m rfl
  have remaining : nodes \ ((visited ++ unvisited (visited.map Prod.fst) batch).map Prod.fst).toFinset =
      (nodes \ (visited.map Prod.fst).toFinset) \ added.toFinset := by
    rw [List.map_append, new, List.toFinset_append, sdiff_sdiff_left]
    rfl
  have summed : (ledBy next (unvisited (visited.map Prod.fst) batch)).length =
      ∑ node ∈ added.toFinset, (next node).length := by
    rw [length_ledBy, new, List.sum_toFinset _ distinct.2.1]
  have whole := Finset.sum_sdiff (f := fun node => (next node).length) inside
  simp only [debt, remaining, List.length_append, summed]
  omega

end Container

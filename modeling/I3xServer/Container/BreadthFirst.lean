import Mathlib.Tactic.Common
import Mathlib.Algebra.GroupWithZero.Nat

/-!
# Breadth-first search with depths

A search with a queue records each node at the least number of steps from its root, and
goes on from the nodes whose depth allows it.
-/
namespace Container
variable {α : Type}

section
variable (next : α → List α) (root : α)

/-- A node is some number of steps from the root. -/
inductive Walk : Nat → α → Prop
  | here : Walk 0 root
  | step {n : Nat} {a b : α} : Walk n a → b ∈ next a → Walk (n + 1) b

variable (expands : Nat → Bool)

/-- The nodes visited, in order, each with its depth. -/
def breadthFirst [DecidableEq α] : Nat → List (α × Nat) → List (α × Nat) → Option (List (α × Nat))
  | _, [], visited => some visited
  | 0, _ :: _, _ => none
  | fuel + 1, (a, depth) :: queue, visited =>
      if a ∈ visited.map Prod.fst then breadthFirst fuel queue visited
      else
        breadthFirst fuel (queue ++ if expands depth then (next a).map fun b => (b, depth + 1) else [])
          (visited ++ [(a, depth)])

/-- The front of a search: depths grow along the nodes visited and then the queue, and
what a visited node leads to has been visited, or is queued, one step further. -/
structure Front (queue visited : List (α × Nat)) : Prop where
  distinct : (visited.map Prod.fst).Nodup
  walked : ∀ entry ∈ visited ++ queue, Walk next root entry.2 entry.1
  sorted : (visited ++ queue).Pairwise fun first second => first.2 ≤ second.2
  narrow : ∀ first ∈ queue, ∀ second ∈ queue, second.2 ≤ first.2 + 1
  closed : ∀ entry ∈ visited, expands entry.2 = true → ∀ b ∈ next entry.1,
    ∃ further ∈ visited ++ queue, further.1 = b ∧ further.2 ≤ entry.2 + 1
  rooted : ∃ entry ∈ visited ++ queue, entry.1 = root ∧ entry.2 = 0

theorem front_start : Front next root expands [(root, 0)] [] where
  distinct := List.nodup_nil
  walked entry m := by
    cases List.mem_singleton.mp m
    exact .here
  sorted := List.pairwise_singleton ..
  narrow first m second n := by
    cases List.mem_singleton.mp m
    cases List.mem_singleton.mp n
    exact Nat.zero_le _
  closed := nofun
  rooted := ⟨(root, 0), List.mem_singleton_self _, rfl, rfl⟩

end

section
variable {next : α → List α} {root : α} {expands : Nat → Bool}

/-- A queued node that has been visited was visited at no greater depth. -/
theorem Front.earlier {queue visited : List (α × Nat)} {a : α} {depth : Nat}
    (front : Front next root expands ((a, depth) :: queue) visited) (old : a ∈ visited.map Prod.fst) :
    ∃ entry ∈ visited, entry.1 = a ∧ entry.2 ≤ depth := by
  obtain ⟨entry, m, same⟩ := List.mem_map.mp old
  exact ⟨entry, m, same, (List.pairwise_append.mp front.sorted).2.2 entry m (a, depth) List.mem_cons_self⟩

theorem Front.skip {queue visited : List (α × Nat)} {a : α} {depth : Nat}
    (front : Front next root expands ((a, depth) :: queue) visited) (old : a ∈ visited.map Prod.fst) :
    Front next root expands queue visited := by
  obtain ⟨entry, m, same, less⟩ := front.earlier old
  have fewer : (visited ++ queue).Sublist (visited ++ (a, depth) :: queue) :=
    List.Sublist.append_left (List.sublist_cons_self ..) visited
  -- Whoever relied on the entry may rely on the earlier one.
  have instead {further : α × Nat} (n : further ∈ visited ++ (a, depth) :: queue) :
      ∃ other ∈ visited ++ queue, other.1 = further.1 ∧ other.2 ≤ further.2 := by
    rcases List.mem_append.mp n with seen | queued
    · exact ⟨further, List.mem_append_left _ seen, rfl, Nat.le_refl _⟩
    · rcases List.mem_cons.mp queued with rfl | later
      · exact ⟨entry, List.mem_append_left _ m, same, less⟩
      · exact ⟨further, List.mem_append_right _ later, rfl, Nat.le_refl _⟩
  refine ⟨front.distinct, fun other n => front.walked other (fewer.subset n), front.sorted.sublist fewer,
    fun first n second o => front.narrow first (List.mem_cons_of_mem _ n) second (List.mem_cons_of_mem _ o),
    fun seen n open' b edge => ?_, ?_⟩
  · obtain ⟨further, o, here, near⟩ := front.closed seen n open' b edge
    obtain ⟨other, p, there, nearer⟩ := instead o
    exact ⟨other, p, there.trans here, Nat.le_trans nearer near⟩
  · obtain ⟨start, o, here, zero⟩ := front.rooted
    obtain ⟨other, p, there, nearer⟩ := instead o
    exact ⟨other, p, there.trans here, Nat.le_zero.mp (zero ▸ nearer)⟩

/-- Going on from a node: what it leads to and is neither visited nor queued is queued. -/
theorem Front.grow {queue visited : List (α × Nat)} {a : α} {depth : Nat}
    (front : Front next root expands ((a, depth) :: queue) visited) (new : a ∉ visited.map Prod.fst) {fresh : List α}
    (open' : ∀ b ∈ fresh, expands depth = true ∧ b ∈ next a)
    (all : expands depth = true → ∀ b ∈ next a, b ∈ fresh ∨ b ∈ (visited ++ (a, depth) :: queue).map Prod.fst) :
    Front next root expands (queue ++ fresh.map fun b => (b, depth + 1)) (visited ++ [(a, depth)]) := by
  have child {entry : α × Nat} (m : entry ∈ fresh.map fun b => (b, depth + 1)) :
      expands depth = true ∧ entry.1 ∈ next a ∧ entry.2 = depth + 1 := by
    obtain ⟨b, n, rfl⟩ := List.mem_map.mp m
    exact ⟨(open' b n).1, (open' b n).2, rfl⟩
  generalize children : (fresh.map fun b => (b, depth + 1)) = created at child
  have whole : visited ++ [(a, depth)] ++ (queue ++ created) = visited ++ (a, depth) :: queue ++ created := by
    rw [List.append_assoc, List.append_assoc]
    rfl
  have inQueue {entry : α × Nat} (m : entry ∈ queue) : depth ≤ entry.2 ∧ entry.2 ≤ depth + 1 := by
    obtain ⟨-, tail, -⟩ := List.pairwise_append.mp front.sorted
    exact ⟨(List.pairwise_cons.mp tail).1 entry m,
      front.narrow (a, depth) List.mem_cons_self entry (List.mem_cons_of_mem _ m)⟩
  have depths {entry : α × Nat} (m : entry ∈ queue ++ created) : depth ≤ entry.2 ∧ entry.2 ≤ depth + 1 := by
    rcases List.mem_append.mp m with queued | created
    · exact inQueue queued
    · have further := (child created).2.2
      omega
  refine ⟨?_, ?_, ?_, fun first m second n => ?_, fun entry m expanded b edge => ?_, ?_⟩
  · rw [List.map_append, List.nodup_append]
    refine ⟨front.distinct, List.nodup_cons.mpr ⟨List.not_mem_nil, List.nodup_nil⟩, fun b m c n same => new ?_⟩
    have here : b = a := same.trans (List.mem_singleton.mp n)
    exact here ▸ m
  · rw [whole]
    intro entry m
    rcases List.mem_append.mp m with old | created
    · exact front.walked entry old
    · obtain ⟨-, edge, further⟩ := child created
      rw [further]
      exact .step (front.walked (a, depth) (List.mem_append_right _ List.mem_cons_self)) edge
  · rw [whole, List.pairwise_append]
    refine ⟨front.sorted, ?_, fun first m second n => ?_⟩
    · refine List.pairwise_of_forall_mem_list fun first m second n => ?_
      exact Nat.le_of_eq ((child m).2.2.trans (child n).2.2.symm)
    · rw [(child n).2.2]
      rcases List.mem_append.mp m with seen | queued
      · have before := (List.pairwise_append.mp front.sorted).2.2 first seen (a, depth) List.mem_cons_self
        exact Nat.le_succ_of_le before
      · rcases List.mem_cons.mp queued with rfl | later
        · exact Nat.le_succ _
        · exact (inQueue later).2
  · exact Nat.le_trans (depths n).2 (Nat.succ_le_succ (depths m).1)
  · rw [whole]
    rcases List.mem_append.mp m with seen | here
    · obtain ⟨further, n, same, near⟩ := front.closed entry seen expanded b edge
      exact ⟨further, List.mem_append_left _ n, same, near⟩
    · cases List.mem_singleton.mp here
      rcases all expanded b edge with created' | known
      · refine ⟨(b, depth + 1), List.mem_append_right _ ?_, rfl, Nat.le_refl _⟩
        rw [← children]
        exact List.mem_map.mpr ⟨b, created', rfl⟩
      · obtain ⟨further, n, same⟩ := List.mem_map.mp known
        refine ⟨further, List.mem_append_left _ n, same, ?_⟩
        rcases List.mem_append.mp n with seen | queued
        · have before := (List.pairwise_append.mp front.sorted).2.2 further seen (a, depth) List.mem_cons_self
          exact Nat.le_succ_of_le before
        · rcases List.mem_cons.mp queued with rfl | later
          · exact Nat.le_succ _
          · exact (inQueue later).2
  · rw [whole]
    obtain ⟨entry, m, start⟩ := front.rooted
    exact ⟨entry, List.mem_append_left _ m, start⟩

theorem Front.visit {queue visited : List (α × Nat)} {a : α} {depth : Nat}
    (front : Front next root expands ((a, depth) :: queue) visited) (new : a ∉ visited.map Prod.fst) :
    Front next root expands (queue ++ if expands depth then (next a).map fun b => (b, depth + 1) else [])
      (visited ++ [(a, depth)]) := by
  by_cases open' : expands depth = true
  · rw [if_pos open']
    exact front.grow new (fun b edge => ⟨open', edge⟩) fun _ b edge => .inl edge
  · rw [if_neg open']
    have grown : Front next root expands (queue ++ ([] : List α).map fun b => (b, depth + 1)) (visited ++ [(a, depth)]) :=
      front.grow new nofun fun expanded => absurd expanded open'
    exact grown

/-- Every node within the depth of the next one is visited or queued, no deeper than it
is away. -/
theorem Front.near {queue visited : List (α × Nat)} {a : α} {depth : Nat}
    (front : Front next root expands ((a, depth) :: queue) visited) {n : Nat} {b : α} (walk : Walk next root n b)
    (within : n ≤ depth) (open' : ∀ k < depth, expands k = true) :
    ∃ entry ∈ visited ++ (a, depth) :: queue, entry.1 = b ∧ entry.2 ≤ n := by
  induction walk with
  | here =>
      obtain ⟨entry, m, same, zero⟩ := front.rooted
      exact ⟨entry, m, same, Nat.le_of_eq zero⟩
  | @step n c d _ edge ih =>
      obtain ⟨entry, m, same, near⟩ := ih (Nat.le_of_succ_le within)
      have seen : entry ∈ visited := by
        rcases List.mem_append.mp m with seen | queued
        · exact seen
        · obtain ⟨-, tail, -⟩ := List.pairwise_append.mp front.sorted
          rcases List.mem_cons.mp queued with rfl | later
          · exact absurd near (Nat.not_le_of_lt within)
          · exact absurd ((List.pairwise_cons.mp tail).1 entry later)
              (Nat.not_le_of_lt (Nat.lt_of_le_of_lt near within))
      obtain ⟨further, n, there, next⟩ := front.closed entry seen (open' _ (Nat.lt_of_le_of_lt near within)) d (same ▸ edge)
      exact ⟨further, n, there, Nat.le_trans next (Nat.succ_le_succ near)⟩

/-- When the queue is empty, every node that expanding nodes lead to has been visited. -/
theorem Front.reaches {visited : List (α × Nat)} (front : Front next root expands [] visited) {n : Nat} {a : α}
    (walk : Walk next root n a) (open' : ∀ k < n, expands k = true) : ∃ entry ∈ visited, entry.1 = a ∧ entry.2 ≤ n := by
  induction walk with
  | here =>
      obtain ⟨entry, m, same, zero⟩ := front.rooted
      rw [List.append_nil] at m
      exact ⟨entry, m, same, Nat.le_of_eq zero⟩
  | step _ edge ih =>
      obtain ⟨entry, m, same, near⟩ := ih fun k less => open' k (by omega)
      obtain ⟨further, n, there, next⟩ := front.closed entry m (open' _ (by omega)) _ (same ▸ edge)
      rw [List.append_nil] at n
      exact ⟨further, n, there, Nat.le_trans next (by omega)⟩

/-- The nodes from which a finished search went on. -/
theorem Front.expanded_iff {visited : List (α × Nat)} (front : Front next root expands [] visited)
    (downward : ∀ k n, k ≤ n → expands n = true → expands k = true) (a : α) :
    a ∈ (visited.filter fun entry => expands entry.2).map Prod.fst ↔ ∃ n, Walk next root n a ∧ expands n = true := by
  constructor
  · intro m
    obtain ⟨entry, n, rfl⟩ := List.mem_map.mp m
    obtain ⟨seen, open'⟩ := List.mem_filter.mp n
    exact ⟨entry.2, front.walked entry (List.mem_append_left _ seen), open'⟩
  · rintro ⟨n, walk, open'⟩
    obtain ⟨entry, m, same, near⟩ := front.reaches walk fun k less => downward k n (Nat.le_of_lt less) open'
    exact List.mem_map.mpr ⟨entry, List.mem_filter.mpr ⟨m, downward _ n near open'⟩, same⟩

/-! ## Steps that suffice -/

variable [DecidableEq α]

variable (next) in
/-- What nodes not yet visited may still add to the queue. -/
def unvisitedEdges (visited : List (α × Nat)) (nodes : List α) : Nat :=
  ((nodes.filter fun a => a ∉ visited.map Prod.fst).map fun a => (next a).length).sum

variable (next) in
theorem unvisitedEdges_visit {visited : List (α × Nat)} {nodes : List α} {a : α} (depth : Nat) (m : a ∈ nodes)
    (new : a ∉ visited.map Prod.fst) :
    unvisitedEdges next (visited ++ [(a, depth)]) nodes + (next a).length ≤ unvisitedEdges next visited nodes := by
  have split (visited : List (α × Nat)) (b : α) (nodes : List α) : unvisitedEdges next visited (b :: nodes) =
      (if b ∉ visited.map Prod.fst then (next b).length else 0) + unvisitedEdges next visited nodes := by
    unfold unvisitedEdges
    rw [List.filter_cons]
    by_cases seen : b ∈ visited.map Prod.fst <;> simp [seen]
  have fewer (nodes : List α) : unvisitedEdges next (visited ++ [(a, depth)]) nodes ≤ unvisitedEdges next visited nodes := by
    induction nodes with
    | nil => exact Nat.le_refl _
    | cons b nodes ih =>
        have later (seen : b ∈ visited.map Prod.fst) : b ∈ (visited ++ [(a, depth)]).map Prod.fst := by
          rw [List.map_append]
          exact List.mem_append_left _ seen
        rw [split, split]
        by_cases seen : b ∈ visited.map Prod.fst
        · rw [if_neg (not_not.mpr (later seen)), if_neg (not_not.mpr seen)]
          omega
        · rw [if_pos seen]
          split_ifs <;> omega
  induction nodes with
  | nil => cases m
  | cons b nodes ih =>
      rw [split, split]
      rcases Decidable.em (b = a) with rfl | other
      · have visitedNow : b ∈ (visited ++ [(b, depth)]).map Prod.fst := by simp
        rw [if_neg (not_not.mpr visitedNow), if_pos new]
        have rest := fewer nodes
        omega
      · have rest := ih ((List.mem_cons.mp m).resolve_left fun same => other same.symm)
        have same : (b ∉ (visited ++ [(a, depth)]).map Prod.fst) ↔ b ∉ visited.map Prod.fst := by
          simp [other]
        simp only [same]
        omega

theorem breadthFirst_more {fuel more : Nat} {queue visited all : List (α × Nat)}
    (ended : breadthFirst next expands fuel queue visited = some all) (le : fuel ≤ more) :
    breadthFirst next expands more queue visited = some all := by
  induction fuel generalizing more queue visited with
  | zero =>
      cases queue with
      | nil => cases more <;> exact ended
      | cons entry queue => cases ended
  | succ fuel ih =>
      obtain ⟨more, rfl⟩ : ∃ n, more = n + 1 := ⟨more - 1, by omega⟩
      cases queue with
      | nil => exact ended
      | cons entry queue =>
          rw [breadthFirst] at ended ⊢
          split
          · next old => exact ih (by rwa [if_pos old] at ended) (by omega)
          · next new => exact ih (by rwa [if_neg new] at ended) (by omega)

/-- The search ends, if all nodes are among finitely many. -/
theorem breadthFirst_front {nodes : List α} (inside : ∀ a ∈ nodes, next a ⊆ nodes) {fuel : Nat}
    {queue visited : List (α × Nat)} (queued : ∀ entry ∈ queue, entry.1 ∈ nodes)
    (enough : queue.length + unvisitedEdges next visited nodes ≤ fuel) (front : Front next root expands queue visited) :
    ∃ all, breadthFirst next expands fuel queue visited = some all ∧ Front next root expands [] all := by
  induction fuel generalizing queue visited with
  | zero =>
      cases queue with
      | nil => exact ⟨visited, rfl, front⟩
      | cons entry queue => simp at enough
  | succ fuel ih =>
      cases queue with
      | nil => exact ⟨visited, rfl, front⟩
      | cons entry queue =>
          obtain ⟨a, depth⟩ := entry
          obtain ⟨here, rest⟩ := List.forall_mem_cons.mp queued
          dsimp only at here
          rw [List.length_cons] at enough
          rw [breadthFirst]
          split
          · next old => exact ih rest (by omega) (front.skip old)
          · next new =>
              have edges := unvisitedEdges_visit next depth here new
              refine ih (fun entry m => ?_) ?_ (front.visit new)
              · rcases List.mem_append.mp m with later | created
                · exact rest entry later
                · split at created
                  · obtain ⟨b, edge, rfl⟩ := List.mem_map.mp created
                    exact inside a here edge
                  · cases created
              · have created : (if expands depth = true then (next a).map fun b => (b, depth + 1) else []).length ≤
                    (next a).length := by
                  split <;> simp
                rw [List.length_append]
                omega

end
end Container

import I3xServer.Container.Traversal
import I3xServer.Subscriptions.MonitoredNodes

/-!
# The order in which the walk meets properties

The walk below a registered object visits the model level by level, and the
mappings it collects list the properties in the order in which they are met.
-/
namespace I3x.Subscriptions
open Container

/-- The queue entries that the walk appends when it takes one. -/
def expand (model : BuildResult) (depthLimit : Nat) (entry : String × Nat) : List (String × Nat) :=
  match model.nodesById.get? entry.1 with
  | none => []
  | some node =>
      if node.kind = .property ∨ (depthLimit ≠ 0 ∧ depthLimit ≤ entry.2) then []
      else (children model node).map fun child => (child, entry.2 + 1)

def propertyAt (model : BuildResult) (entry : String × Nat) : Option ModelNode :=
  (model.nodesById.get? entry.1).filter fun node => node.kind = .property

/-- The properties on the first `k` levels below `root`, in breadth-first order. -/
def met (model : BuildResult) (root : ModelNode) (maxDepth : Int) (k : Nat) : List ModelNode :=
  (levels (expand model maxDepth.toNat) k [(root.id, 0)]).filterMap (propertyAt model)

def MetBefore (model : BuildResult) (root : ModelNode) (maxDepth : Int) (first second : ModelNode) : Prop :=
  ∃ k, Precedes (met model root maxDepth k) first second

def sourceMapping (node : ModelNode) : String × String := (node.sourceNodeId, node.id)

section
variable {fuel : Nat} {model : BuildResult}

theorem walk_eq_traverse (depthLimit : Nat) (queue : List (String × Nat)) (result : Dict String String) :
    walk model depthLimit fuel queue result =
      (Container.traverse (expand model depthLimit) fuel queue).map fun order =>
        result.update ((order.filterMap (propertyAt model)).map sourceMapping) := by
  induction fuel, queue, result using walk.induct model depthLimit with
  | case1 fuel result =>
      rw [walk_nil]
      cases fuel <;> rfl
  | case2 => rfl
  | case3 fuel nodeId depth queue result absent ih =>
      rw [walk_skip absent, ih, Container.traverse, expand, absent, List.append_nil, Option.map_map]
      simp only [Function.comp_def, List.filterMap_cons, propertyAt, absent, Option.filter_none]
  | case4 fuel nodeId depth queue result met present kind ih =>
      rw [walk_property present kind, ih, Container.traverse, expand, present]
      simp only [kind, true_or, if_true, List.append_nil, Option.map_map, Function.comp_def,
        List.filterMap_cons, propertyAt, present, Option.filter_some, decide_true]
      rfl
  | case5 fuel nodeId depth queue result met present kind reached ih =>
      rw [walk_closed present kind reached, ih, Container.traverse, expand, present]
      simp only [reached, ne_eq, not_false_eq_true, and_self, or_true, if_true, List.append_nil, Option.map_map, Function.comp_def,
        List.filterMap_cons, propertyAt, present, Option.filter_some, kind, decide_false]
      rfl
  | case6 fuel nodeId depth queue result met present kind reached ih =>
      rw [walk_expand present kind reached, ih, Container.traverse, expand, present]
      simp only [kind, reached, or_self, if_false, Option.map_map, Function.comp_def,
        List.filterMap_cons, propertyAt, present, Option.filter_some, decide_false]
      rfl

/-- A finished collection writes the properties in breadth-first order, however
many more levels are listed. -/
theorem collect_eq_met {root : ModelNode} {maxDepth : Int} {mappings : Dict String String}
    (present : model.nodesById.get? root.id = some root)
    (done : collectPropertySourceMappings fuel model root maxDepth = some mappings) :
    ∃ k, ∀ j, mappings = Dict.empty.update ((met model root maxDepth (k + j)).map sourceMapping) := by
  unfold collectPropertySourceMappings at done
  by_cases kind : root.kind = .property
  · rw [if_pos kind, Option.some.injEq] at done
    refine ⟨1, fun j => ?_⟩
    have closed : expand model maxDepth.toNat (root.id, 0) = [] := by
      simp only [expand, present, kind, true_or, if_true]
    rw [met, show 1 + j = j + 1 by omega, levels, List.flatMap_singleton, closed, levels_nil, ← done]
    simp only [List.append_nil, List.filterMap_cons, List.filterMap_nil, propertyAt, present,
      Option.filter_some, kind, decide_true, if_true]
    rfl
  · rw [if_neg kind, walk_eq_traverse] at done
    obtain ⟨order, visited, rfl⟩ := Option.map_eq_some_iff.mp done
    rw [← List.append_nil [(root.id, 0)]] at visited
    obtain ⟨k, all⟩ := traverse_eq_levels visited
    refine ⟨k + 1, fun j => ?_⟩
    rw [met, show k + 1 + j = k + j + 1 by omega, levels, all j, List.nil_append]

theorem mem_model_of_registered {elementId : String} {node : ModelNode}
    (found : registeredNode model elementId = some node) : node ∈ model.nodes := by
  unfold registeredNode at found
  split at found
  · rename_i other direct
    cases found
    exact (model.mem_nodes node).mpr ⟨elementId, direct⟩
  · rw [sourceIndex, Dict.ofList, Dict.get?_update, Dict.get?_empty, Option.or_none] at found
    obtain ⟨other, inside, same⟩ := List.mem_map.mp (List.mem_reverse.mp (lookup_mem found))
    cases same
    exact inside

theorem PropertyUnder.mem {root node : ModelNode} {maxDepth : Int} (inside : root ∈ model.nodes)
    (under : PropertyUnder model root maxDepth node) : node ∈ model.nodes ∧ node.kind = .property := by
  unfold PropertyUnder at under
  split_ifs at under with kind
  · exact under ▸ ⟨inside, kind⟩
  · refine ⟨?_, under.1⟩
    have last {start depth node} (found : Found model maxDepth.toNat start depth node) :
        node ∈ model.nodes := by
      induction found with
      | here present => exact (model.mem_nodes _).mpr ⟨_, present⟩
      | child _ _ _ _ _ ih => exact ih
    exact last under.2

/-- The properties met on the way are the properties below the root. -/
theorem mem_met_iff (distinct : model.SourcesDistinct) {root : ModelNode} {maxDepth : Int}
    {mappings : Dict String String} (inside : root ∈ model.nodes) {k : Nat}
    (same : mappings = Dict.empty.update ((met model root maxDepth k).map sourceMapping))
    (done : collectPropertySourceMappings fuel model root maxDepth = some mappings) (node : ModelNode) :
    node ∈ met model root maxDepth k ↔ PropertyUnder model root maxDepth node := by
  have keys (n : String) : n ∈ mappings.keys ↔ ∃ other ∈ met model root maxDepth k, other.sourceNodeId = n := by
    rw [same, Dict.keys_update, List.map_map, List.mem_map]
    exact or_iff_right nofun
  have known {other : ModelNode} (here : other ∈ met model root maxDepth k) : other ∈ model.nodes := by
    obtain ⟨entry, _, found⟩ := List.mem_filterMap.mp here
    exact (model.mem_nodes other).mpr ⟨entry.1, (Option.filter_eq_some_iff.mp found).1⟩
  constructor
  · intro here
    obtain ⟨other, under, source⟩ := (collect_keys done _).mp ((keys node.sourceNodeId).mpr ⟨node, here, rfl⟩)
    rwa [distinct node (known here) other (under.mem inside).1 source.symm]
  · intro under
    obtain ⟨other, here, source⟩ := (keys node.sourceNodeId).mp ((collect_keys done _).mpr ⟨node, under, rfl⟩)
    rwa [distinct node (under.mem inside).1 other (known here) source.symm]

/-- Of two properties below a root, one is met first exactly when the collected
mappings list its source first. -/
theorem metBefore_iff (distinct : model.SourcesDistinct) {root : ModelNode} {maxDepth : Int}
    {mappings : Dict String String} (present : model.nodesById.get? root.id = some root)
    (done : collectPropertySourceMappings fuel model root maxDepth = some mappings) {first second : ModelNode}
    (under : PropertyUnder model root maxDepth first) (known : second ∈ model.nodes) (other : first ≠ second) :
    MetBefore model root maxDepth first second ↔
      Precedes mappings.keys first.sourceNodeId second.sourceNodeId := by
  have inside : root ∈ model.nodes := (model.mem_nodes root).mpr ⟨_, present⟩
  obtain ⟨k, all⟩ := collect_eq_met present done
  have members (j : Nat) (node : ModelNode) := mem_met_iff distinct inside (all j) done node
  have sources : first.sourceNodeId ≠ second.sourceNodeId :=
    fun same => other (distinct first (under.mem inside).1 second known same)
  have grows {i j : Nat} (le : i ≤ j) :
      met model root maxDepth i <+: met model root maxDepth j := ( levels_prefix _ le _).filterMap _
  have through (j : Nat) : Precedes mappings.keys first.sourceNodeId second.sourceNodeId ↔
      Precedes ((met model root maxDepth (k + j)).map ModelNode.sourceNodeId)
        first.sourceNodeId second.sourceNodeId := by
    rw [all j, Dict.precedes_update _ _ sources]
    · rw [List.map_map]
      rfl
    · rw [List.map_map]
      exact List.mem_map_of_mem ((members j first).mpr under)
  constructor
  · rintro ⟨i, before⟩
    obtain ⟨more, grown⟩ := grows (Nat.le_add_left i k)
    obtain ⟨xs, ys, split, here, absent⟩ := grown ▸ before.append more
    refine (through i).mpr ⟨xs.map _, ys.map _, by rw [split, List.map_append], List.mem_map_of_mem here, ?_⟩
    rintro again
    obtain ⟨same, at_, source⟩ := List.mem_map.mp again
    have model_has : same ∈ model.nodes :=
      (((members i same).mp (split ▸ List.mem_append_left _ at_)).mem inside).1
    exact absent (distinct same model_has second known source ▸ at_)
  · intro before
    obtain ⟨xs, ys, split, here, absent⟩ := (through 0).mp before
    obtain ⟨before, after, parts, rfl, rfl⟩ := List.map_eq_append_iff.mp split
    refine ⟨k + 0, before, after, parts, ?_, fun at_ => absent (List.mem_map_of_mem at_)⟩
    obtain ⟨same, at_, source⟩ := List.mem_map.mp here
    have model_has : same ∈ model.nodes :=
      (((members 0 same).mp (parts ▸ List.mem_append_left _ at_)).mem inside).1
    exact distinct same model_has first (under.mem inside).1 source ▸ at_

end

end I3x.Subscriptions

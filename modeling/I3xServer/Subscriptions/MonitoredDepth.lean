import I3xServer.Model.Published
import I3xServer.OpcUa.BrowseCompleteness
import I3xServer.Subscriptions.WalkOrder

/-!
# What a depth limit lets through

A browse returns every node behind its parent, so the children of the model built from
it cannot form a cycle: the walk below a registered object ends although it does not
remember what it visited, and meets each property within the depth once.
-/
namespace I3x.Subscriptions
open Container OpcUa ModelBuilder

/-- `node` is `k` steps of `children_by_id` below `start`, none of them out of a property. -/
inductive StepsBelow (model : BuildResult) : String → Nat → ModelNode → Prop
  | here {start node} (present : model.nodesById.get? start = some node) : StepsBelow model start 0 node
  | child {start k parent child node} (present : model.nodesById.get? start = some parent)
      (open_ : parent.kind ≠ .property) (isChild : child ∈ children model parent) (rest : StepsBelow model child k node) :
      StepsBelow model start (k + 1) node

/-- What the walk finds from a depth on are the nodes below within what is left of the limit. -/
theorem found_iff_stepsBelow {model : BuildResult} {depthLimit : Nat} {start : String} {depth : Nat} {node : ModelNode} :
    Found model depthLimit start depth node ↔
      ∃ k, StepsBelow model start k node ∧ (depthLimit = 0 ∨ k = 0 ∨ depth + k ≤ depthLimit) := by
  constructor
  · intro found
    induction found with
    | here present => exact ⟨0, .here present, Or.inr (Or.inl rfl)⟩
    | child present open_ within isChild rest ih =>
        obtain ⟨k, below, room⟩ := ih
        exact ⟨k + 1, .child present open_ isChild below, by omega⟩
  · rintro ⟨k, below, room⟩
    induction below generalizing depth with
    | here present => exact .here present
    | child present open_ isChild rest ih => exact .child present open_ (by omega) isChild (ih (by omega))

/-! ## The shape of a browsed model -/

/-- Every node stands behind its parent, if its parent is in the list. -/
structure ParentsFirst (opcNodes : List OpcUaNodeInfo) : Prop where
  distinct : (opcNodes.map OpcUaNodeInfo.nodeId).Nodup
  notOwn : ∀ node ∈ opcNodes, node.parentNodeId ≠ some node.nodeId
  later : opcNodes.Pairwise fun first second => first.parentNodeId ≠ some second.nodeId

theorem browseTree_parentsFirst {text : Text} {server : BrowseServer} {limits : OpcUaOperationalLimits}
    {configured : Option (List String)} {fuel : Nat} {output : List BrowsedNode}
    (returned : browseTree text server limits configured fuel = .ok output) :
    ParentsFirst (output.map BrowsedNode.toOpcUaNodeInfo) := by
  obtain ⟨roots, visited, -, complete⟩ := browseTree_ok returned
  refine ⟨?_, ?_, ?_⟩
  · rw [List.map_map]
    exact complete.returnedOnce
  · intro info m same
    obtain ⟨node, n, rfl⟩ := List.mem_map.mp m
    have before := (complete.parent node n node.nodeId same).1
    exact before.asymm before
  · exact List.pairwise_map.mpr complete.childrenLater

variable (identity : Identity) {opcNodes : List OpcUaNodeInfo}

theorem mapped_id (opcNode : OpcUaNodeInfo) : (mapped identity opcNodes opcNode).id = mappedId identity opcNode := by
  refine if_neg fun empty => ?_
  have chars := congrArg String.toList empty
  simp only [mappedId, stableI3xId, String.toList_append] at chars
  cases kindForNode opcNode <;> exact absurd chars (by simp [NodeKind.text])

theorem values_bySourceNode (ordered : ParentsFirst opcNodes) : (bySourceNode opcNodes).values = opcNodes := by
  have keys : (opcNodes.map fun node => (node.nodeId, node)).map Prod.fst = opcNodes.map OpcUaNodeInfo.nodeId := by
    rw [List.map_map]
    rfl
  rw [Dict.values, bySourceNode, Dict.ofList, Dict.entries_update_nodup (keys.symm ▸ ordered.distinct), List.map_append,
    List.map_map]
  exact List.map_id _

/-- The published nodes are looked up from the end of the browse. -/
theorem get?_nodesById_iff (ordered : ParentsFirst opcNodes) {id : String} {node : ModelNode} :
    (build identity opcNodes).nodesById.get? id = some node ↔
      (opcNodes.reverse.map (mapped identity opcNodes)).find? (fun node => node.id = id) = some node := by
  have nodes : (build identity opcNodes).nodesById =
      Dict.ofList ((opcNodes.map (mapped identity opcNodes)).map fun node => (node.id, node)) := by
    change (tables identity opcNodes).nodesById = _
    rw [tables, Browse.tables_nodesById, values_bySourceNode ordered]
    rfl
  have looked (nodes : List ModelNode) :
      (nodes.map fun node => (node.id, node)).lookup id = nodes.find? fun node => node.id = id := by
    induction nodes with
    | nil => rfl
    | cons first nodes ih =>
        rw [List.map_cons, lookup_cons_ite, ih, List.find?_cons]
        by_cases same : first.id = id
        · rw [if_pos same.symm, decide_eq_true same]
        · rw [if_neg (Ne.symm same), decide_eq_false same]
  rw [nodes, Dict.ofList, Dict.get?_update, Dict.get?_empty, Option.or_none, ← List.map_reverse, looked, List.map_reverse]

/-- The children of a published node are the browsed nodes that name it as their parent. -/
theorem mem_children {id : String} {node : ModelNode} (ordered : ParentsFirst opcNodes)
    (found : (build identity opcNodes).nodesById.get? id = some node) (child : String) :
    child ∈ children (build identity opcNodes) node ↔
      ∃ opcNode ∈ opcNodes, opcNode.parentNodeId = some node.sourceNodeId ∧ mappedId identity opcNode = child := by
  have inside := ((build identity opcNodes).mem_nodes node).mpr ⟨id, found⟩
  have own := (build_keyed identity opcNodes).get?_id inside
  obtain ⟨opcNode, source, shape⟩ := mem_nodes_build identity inside
  have listed : node.children = childIds identity opcNodes node.sourceNodeId := by
    rw [shape]
    rfl
  have known {other : OpcUaNodeInfo} (m : other ∈ opcNodes) : (bySourceNode opcNodes).get? other.nodeId = some other := by
    have stored := (Dict.mem_values (bySourceNode opcNodes) other).mp (by rwa [values_bySourceNode ordered])
    obtain ⟨key, found⟩ := stored
    rwa [← bySourceNode_key opcNodes key other found] at found
  rw [children, get?_childrenById, own, Option.map_some, Option.getD_some, listed, childIds, childSourcesByParent_get]
  simp only [List.mem_filterMap, List.mem_map, List.mem_filter, decide_eq_true_eq, Option.map_eq_some_iff]
  constructor
  · rintro ⟨_, ⟨other, ⟨m, parent⟩, rfl⟩, same, found, rfl⟩
    rw [known m, Option.some.injEq] at found
    exact ⟨other, m, parent, congrArg _ found⟩
  · rintro ⟨other, m, parent, rfl⟩
    exact ⟨other.nodeId, ⟨other, ⟨m, parent⟩, rfl⟩, other, known m, rfl⟩

/-- How far from the end of the browse an element id stands last. -/
def fromEnd (opcNodes : List OpcUaNodeInfo) (id : String) : Nat :=
  opcNodes.reverse.findIdx fun node => mappedId identity node = id

/-- Children stand behind their parents, also where two nodes have one element id. -/
theorem fromEnd_child (ordered : ParentsFirst opcNodes) {id : String} {node : ModelNode}
    (found : (build identity opcNodes).nodesById.get? id = some node) {child : String}
    (isChild : child ∈ children (build identity opcNodes) node) :
    fromEnd identity opcNodes child < fromEnd identity opcNodes id := by
  obtain ⟨opcNode, m, parent, rfl⟩ := (mem_children identity ordered found child).mp isChild
  have first := (get?_nodesById_iff identity ordered).mp found
  rw [List.find?_map] at first
  obtain ⟨source, latest, rfl⟩ := Option.map_eq_some_iff.mp first
  obtain ⟨isId, r, bound, atR, earlier⟩ := List.find?_eq_some_iff_getElem.mp latest
  have atId : fromEnd identity opcNodes id = r := by
    refine (List.findIdx_eq bound).mpr ⟨?_, fun j less => ?_⟩
    · simpa only [Function.comp_apply, mapped_id, atR] using isId
    · simpa only [Function.comp_apply, mapped_id, Bool.not_eq_true'] using earlier j less
  obtain ⟨j, inside, atJ⟩ := List.mem_iff_getElem.mp (List.mem_reverse.mpr m)
  have atMost : fromEnd identity opcNodes (mappedId identity opcNode) ≤ j := by
    by_contra more
    have unlike := List.not_of_lt_findIdx (Nat.lt_of_not_le more)
    simp [atJ] at unlike
  have reversed := List.pairwise_iff_getElem.mp (List.pairwise_reverse.mpr ordered.later)
  have before : j < r := by
    rcases Nat.lt_trichotomy j r with less | same | more
    · exact less
    · subst same
      exact absurd (atR.symm.trans atJ ▸ parent) (ordered.notOwn opcNode m)
    · have apart := reversed r j bound inside more
      rw [atR, atJ] at apart
      exact absurd parent apart
  omega

/-! ## The walk -/

theorem expand_falls (ordered : ParentsFirst opcNodes) (depthLimit : Nat) (entry : String × Nat) :
    ∀ further ∈ expand (build identity opcNodes) depthLimit entry,
      fromEnd identity opcNodes further.1 < fromEnd identity opcNodes entry.1 := by
  intro further m
  unfold expand at m
  split at m
  · cases m
  · next node found =>
      split at m
      · cases m
      · obtain ⟨child, isChild, rfl⟩ := List.mem_map.mp m
        exact fromEnd_child identity ordered found isChild

/-- The walk below a node of a browsed model ends, whatever the depth. -/
theorem collect_ends (ordered : ParentsFirst opcNodes) (root : ModelNode) (maxDepth : Int) :
    ∃ enough mappings, ∀ fuel, enough ≤ fuel →
      collectPropertySourceMappings fuel (build identity opcNodes) root maxDepth = some mappings := by
  unfold collectPropertySourceMappings
  by_cases kind : root.kind = .property
  · exact ⟨0, _, fun fuel _ => if_pos kind⟩
  · simp only [if_neg kind]
    have last : level (expand (build identity opcNodes) maxDepth.toNat) (fromEnd identity opcNodes root.id + 1)
        [(root.id, 0)] = [] :=
      level_eq_nil_of_rank (fun entry : String × Nat => fromEnd identity opcNodes entry.1)
        (expand_falls identity ordered _) fun entry m => by
          rw [List.mem_singleton.mp m]
          exact Nat.lt_succ_self _
    obtain ⟨enough, order, visited⟩ := (traverse_done_iff _).mpr ⟨_, last⟩
    have done : walk (build identity opcNodes) maxDepth.toNat enough [(root.id, 0)] .empty =
        some (Dict.empty.update ((order.filterMap (propertyAt (build identity opcNodes))).map sourceMapping)) := by
      rw [walk_eq_traverse, visited, Option.map_some]
    exact ⟨enough, _, fun fuel le => walk_mono done le⟩

/-- For every model built from a browse, the properties monitored below a registered
element that is no property are those within the depth, each with its element id. -/
theorem monitored_iff_withinDepth {text : Text} {server : BrowseServer} {limits : OpcUaOperationalLimits}
    {configured : Option (List String)} {browseFuel : Nat} {output : List BrowsedNode}
    (returned : browseTree text server limits configured browseFuel = .ok output) {elementId : String} {root : ModelNode}
    (registered : registeredNode (build identity (output.map BrowsedNode.toOpcUaNodeInfo)) elementId = some root)
    (noProperty : root.kind ≠ .property) (maxDepth : Nat) :
    ∃ enough mappings,
      (∀ fuel, enough ≤ fuel → collectPropertySourceMappings fuel
        (build identity (output.map BrowsedNode.toOpcUaNodeInfo)) root maxDepth = some mappings) ∧
      ∀ source element, mappings.get? source = some element ↔
        ∃ node k, StepsBelow (build identity (output.map BrowsedNode.toOpcUaNodeInfo)) root.id k node ∧
          node.kind = .property ∧ (maxDepth = 0 ∨ k ≤ maxDepth) ∧ node.sourceNodeId = source ∧ node.id = element := by
  generalize nodes : output.map BrowsedNode.toOpcUaNodeInfo = opcNodes at registered ⊢
  have ordered : ParentsFirst opcNodes := nodes ▸ browseTree_parentsFirst returned
  obtain ⟨enough, mappings, done⟩ := collect_ends identity ordered root maxDepth
  have finished := done enough (Nat.le_refl _)
  have inside := mem_model_of_registered registered
  have under {node : ModelNode} : PropertyUnder (build identity opcNodes) root maxDepth node ↔
      ∃ k, StepsBelow (build identity opcNodes) root.id k node ∧ node.kind = .property ∧
        (maxDepth = 0 ∨ k ≤ maxDepth) := by
    rw [PropertyUnder, if_neg noProperty, found_iff_stepsBelow, Int.toNat_natCast]
    constructor
    · rintro ⟨kind, k, below, room⟩
      exact ⟨k, below, kind, by omega⟩
    · rintro ⟨k, below, kind, room⟩
      exact ⟨kind, k, below, by omega⟩
  refine ⟨enough, mappings, done, fun source element => ?_⟩
  constructor
  · intro entry
    obtain ⟨node, found, same, id⟩ := collect_entries finished entry
    obtain ⟨k, below, kind, room⟩ := under.mp found
    exact ⟨node, k, below, kind, room, same, id⟩
  · rintro ⟨node, k, below, kind, room, rfl, rfl⟩
    have found := under.mpr ⟨k, below, kind, room⟩
    obtain ⟨element, entry⟩ := (Dict.mem_keys _ _).mp ((collect_keys finished node.sourceNodeId).mpr ⟨node, found, rfl⟩)
    obtain ⟨other, again, same, id⟩ := collect_entries finished entry
    rw [entry, ← id, build_sourcesDistinct identity opcNodes other (again.mem inside).1 node (found.mem inside).1 same]

/-! ## A station with one variable -/

def stationServer : BrowseServer where
  endpoint := "opc.tcp://station"
  namespaceArray := []
  parseNodeId _ := .ok none
  nodeIdText _ identifier := identifier
  quoted id := id
  readFailure _ := "BadNodeIdUnknown"
  attributes id := if id = "level" then { namedObject id with nodeClass := some .variable_ } else namedObject id
  readFails _ := false
  references id := if id = objectsFolder then [⟨"level", "i=47"⟩] else []
  isHierarchical id := id = "i=47"
  alone _ _ := rfl

def stationNode (nodeId : String) (parentNodeId : Option String) (nodeClass : String)
    (outgoingReferences : List OpcUaReferenceInfo) : BrowsedNode where
  nodeId := nodeId
  parentNodeId := parentNodeId
  browseName := nodeId
  displayName := some nodeId
  nodeClass := nodeClass
  dataType := none
  eventNotifier := false
  typeDefinitionId := none
  outgoingReferences := outgoingReferences

def stationNodes : List BrowsedNode :=
  [stationNode objectsFolder none "Object" [⟨"level", "i=47", "i=47"⟩],
    stationNode "level" (some objectsFolder) "Variable" []]

def stationRoot : ModelNode := ⟨"asset-i=85", "i=85", .asset, none, ["property-level"], "i=85"⟩

theorem monitored_iff_withinDepth_station :
    browseTree .ascii stationServer ⟨some 1, some 4⟩ none 3 = .ok stationNodes ∧
    registeredNode (build inletIdentity (stationNodes.map BrowsedNode.toOpcUaNodeInfo)) "asset-i=85" = some stationRoot ∧
    ∃ enough mappings,
      (∀ fuel, enough ≤ fuel → collectPropertySourceMappings fuel
        (build inletIdentity (stationNodes.map BrowsedNode.toOpcUaNodeInfo)) stationRoot (1 : Nat) = some mappings) ∧
      ∀ source element, mappings.get? source = some element ↔
        ∃ node k, StepsBelow (build inletIdentity (stationNodes.map BrowsedNode.toOpcUaNodeInfo)) "asset-i=85" k node ∧
          node.kind = .property ∧ (1 = 0 ∨ k ≤ 1) ∧ node.sourceNodeId = source ∧ node.id = element := by
  have returned : browseTree .ascii stationServer ⟨some 1, some 4⟩ none 3 = .ok stationNodes := rfl
  have registered : registeredNode (build inletIdentity (stationNodes.map BrowsedNode.toOpcUaNodeInfo)) "asset-i=85" =
      some stationRoot := rfl
  exact ⟨returned, registered, monitored_iff_withinDepth inletIdentity returned registered nofun 1⟩

end I3x.Subscriptions

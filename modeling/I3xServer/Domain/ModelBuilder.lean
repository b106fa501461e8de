import I3xServer.Domain.Model

/-!
# Building the model from browsed nodes

`build` follows the builder's loop over the browsed nodes, restricted to the
fields that lookups read. Relationship planes, roles and metadata are not
modelled. Identity is a parameter: the expanded node id depends on the server's
namespace table, and the digest is a prefix of a hash that may collide.
-/
namespace I3x
open Container

structure OpcUaNodeInfo where
  nodeId : String
  parentNodeId : Option String
  browseName : String
  displayName : Option String
  nodeClass : String
  dataType : Option String
  eventNotifier : Bool
  deriving DecidableEq, Repr

structure Identity where
  expandedNodeId : String → String
  digest : String → String

namespace ModelBuilder

def kindForNode (node : OpcUaNodeInfo) : NodeKind :=
  if node.eventNotifier then .eventSource
  else if node.nodeClass = "Variable" then .property
  else if node.nodeClass = "Method" then .action
  else .asset

def classToKind : Dict String NodeKind :=
  Dict.ofList [("Object", .asset), ("Variable", .property), ("Method", .action)]

def inferKind (node : OpcUaNodeInfo) : NodeKind :=
  if node.eventNotifier then .eventSource else (classToKind.get? node.nodeClass).getD .asset

def mapType (node : OpcUaNodeInfo) (kind : NodeKind) : Option String :=
  if kind = .property then node.dataType else none

variable (identity : Identity)

def stableI3xId (nodeId : String) (kind : NodeKind) : String :=
  kind.text ++ "-" ++ identity.digest nodeId

def mapNode (node : OpcUaNodeInfo) (children : List String) (elementId : String) : ModelNode :=
  let kind := inferKind node
  { id := if elementId = "" then stableI3xId identity node.nodeId kind else elementId
    name := (node.displayName.filter fun name => name ≠ "").getD node.browseName
    kind
    type := mapType node kind
    children
    sourceNodeId := node.nodeId }

def mappedId (node : OpcUaNodeInfo) : String :=
  stableI3xId identity (identity.expandedNodeId node.nodeId) (kindForNode node)

def bySourceNode (opcNodes : List OpcUaNodeInfo) : Dict String OpcUaNodeInfo :=
  Dict.ofList (opcNodes.map fun node => (node.nodeId, node))

def addChildSource (sources : Dict String (List String)) (node : OpcUaNodeInfo) :
    Dict String (List String) :=
  match node.parentNodeId with
  | none => sources
  | some parent => sources.set parent ((sources.get? parent).getD [] ++ [node.nodeId])

def childSourcesByParent (opcNodes : List OpcUaNodeInfo) : Dict String (List String) :=
  opcNodes.foldl addChildSource .empty

def childIds (opcNodes : List OpcUaNodeInfo) (sourceId : String) : List String :=
  (((childSourcesByParent opcNodes).get? sourceId).getD []).filterMap fun child =>
    ((bySourceNode opcNodes).get? child).map (mappedId identity)

/-- The node that one browsed node becomes. -/
def mapped (opcNodes : List OpcUaNodeInfo) (opcNode : OpcUaNodeInfo) : ModelNode :=
  mapNode identity opcNode (childIds identity opcNodes opcNode.nodeId) (mappedId identity opcNode)

def setDefault (index : Dict String String) (key value : String) : Dict String String :=
  match index.get? key with
  | some _ => index
  | none => index.set key value

def indexType (index : Dict String String) (node : ModelNode) : Dict String String :=
  match node.type with
  | some type => if type = "" then index else setDefault index type node.id
  | none => index

/-- The dictionaries the mapping loop fills. -/
structure Tables where
  nodesById : Dict String ModelNode
  nodeIdByName : Dict String String
  nodeIdByType : Dict String String

def addNode (tables : Tables) (node : ModelNode) : Tables where
  nodesById := tables.nodesById.set node.id node
  nodeIdByName := setDefault tables.nodeIdByName node.name node.id
  nodeIdByType := indexType tables.nodeIdByType node

def tables (opcNodes : List OpcUaNodeInfo) : Tables :=
  ((bySourceNode opcNodes).values.map (mapped identity opcNodes)).foldl addNode
    { nodesById := .empty, nodeIdByName := .empty, nodeIdByType := .empty }

def build (opcNodes : List OpcUaNodeInfo) : BuildResult :=
  let tables := tables identity opcNodes
  { nodesById := tables.nodesById
    childrenById := Dict.ofList (tables.nodesById.entries.map fun entry => (entry.1, entry.2.children))
    nodeIdByName := tables.nodeIdByName
    nodeIdByType := tables.nodeIdByType }

/-! ## What every built model satisfies -/

/-- The browsed children of a node are those that name it as their parent. -/
theorem childSourcesByParent_get (opcNodes : List OpcUaNodeInfo) (sourceId : String) :
    ((childSourcesByParent opcNodes).get? sourceId).getD [] =
      (opcNodes.filter fun node => node.parentNodeId = some sourceId).map OpcUaNodeInfo.nodeId := by
  have generalized : ∀ start : Dict String (List String),
      ((opcNodes.foldl addChildSource start).get? sourceId).getD [] = (start.get? sourceId).getD [] ++
        (opcNodes.filter fun node => node.parentNodeId = some sourceId).map OpcUaNodeInfo.nodeId := by
    induction opcNodes with
    | nil => exact fun start => (List.append_nil _).symm
    | cons node rest ih =>
        intro start
        rw [List.foldl_cons, ih, addChildSource, List.filter_cons]
        cases parent : node.parentNodeId with
        | none => simp
        | some id =>
            simp only [Dict.get?_set]
            by_cases same : sourceId = id
            · subst same
              simp
            · simp [same, Ne.symm same]
  rw [childSourcesByParent, generalized, Dict.get?_empty, Option.getD_none, List.nil_append]

theorem setDefault_keys (index : Dict String String) (key value a : String)
    (h : a = key ∨ ∃ v, index.get? a = some v) : ∃ v, (setDefault index key value).get? a = some v := by
  unfold setDefault
  cases found : index.get? key with
  | none =>
      rw [Dict.get?_set]
      rcases h with rfl | ⟨v, old⟩
      · exact ⟨value, if_pos rfl⟩
      · by_cases same : a = key
        · exact ⟨value, if_pos same⟩
        · exact ⟨v, by rw [if_neg same]; exact old⟩
  | some v =>
      rcases h with rfl | old
      · exact ⟨v, found⟩
      · exact old

theorem get?_setDefault (index : Dict String String) (key value id : String) :
    (setDefault index key value).get? id =
      (index.get? id).or (if id = key then some value else none) := by
  unfold setDefault
  cases found : index.get? key with
  | some old =>
      by_cases same : id = key
      · rw [same, found]
        rfl
      · rw [if_neg same, Option.or_none]
  | none =>
      rw [Dict.get?_set]
      by_cases same : id = key
      · rw [if_pos same, if_pos same, same, found]
        rfl
      · rw [if_neg same, if_neg same, Option.or_none]

theorem get?_foldl_setDefault (pairs : List (String × String)) (index : Dict String String) (id : String) :
    (pairs.foldl (fun index pair => setDefault index pair.1 pair.2) index).get? id =
      (index.get? id).or (pairs.lookup id) := by
  induction pairs generalizing index with
  | nil => rw [List.foldl_nil, List.lookup_nil, Option.or_none]
  | cons pair pairs ih =>
      rw [List.foldl_cons, ih, get?_setDefault, lookup_cons_ite, Option.or_assoc]
      by_cases same : id = pair.1
      · rw [if_pos same, if_pos same, Option.some_or]
      · rw [if_neg same, if_neg same, Option.none_or]

theorem indexType_keys (index : Dict String String) (node : ModelNode) (a : String) (filled : a ≠ "")
    (h : node.type = some a ∨ ∃ v, index.get? a = some v) :
    ∃ v, (indexType index node).get? a = some v := by
  unfold indexType
  cases kind : node.type with
  | none => exact h.resolve_left (by rw [kind]; exact nofun)
  | some type =>
      rw [kind, Option.some.injEq] at h
      by_cases blank : type = ""
      · simp only [blank, if_true]
        exact h.resolve_left fun same => filled (same ▸ blank)
      · simp only [blank, if_false]
        exact setDefault_keys index type node.id a (h.imp_left Eq.symm)

theorem setDefault_values (index : Dict String String) (key value a v : String)
    (h : (setDefault index key value).get? a = some v) : v = value ∨ index.get? a = some v := by
  unfold setDefault at h
  cases found : index.get? key with
  | none =>
      rw [found, Dict.get?_set] at h
      by_cases same : a = key
      · rw [if_pos same, Option.some.injEq] at h
        exact Or.inl h.symm
      · rw [if_neg same] at h
        exact Or.inr h
  | some old =>
      rw [found] at h
      exact Or.inr h

theorem indexType_values (index : Dict String String) (node : ModelNode) (a v : String)
    (h : (indexType index node).get? a = some v) : v = node.id ∨ index.get? a = some v := by
  unfold indexType at h
  split at h
  · split at h
    · exact Or.inr h
    · exact setDefault_values index _ node.id a v h
  · exact Or.inr h

/-- The loop invariant of the mapping loop over the nodes `done`. -/
structure Sound (done : List ModelNode) (tables : Tables) : Prop where
  keyed : ∀ id node, tables.nodesById.get? id = some node → node.id = id ∧ node ∈ done
  named : ∀ node ∈ done, ∃ id, tables.nodeIdByName.get? node.name = some id
  typed : ∀ node ∈ done, ∀ type, node.type = some type → type ≠ "" →
    ∃ id, tables.nodeIdByType.get? type = some id
  nameIds : ∀ a id, tables.nodeIdByName.get? a = some id → id ∈ tables.nodesById.keys
  typeIds : ∀ a id, tables.nodeIdByType.get? a = some id → id ∈ tables.nodesById.keys

theorem Sound.addNode {done : List ModelNode} {tables : Tables} (sound : Sound done tables)
    (node : ModelNode) : Sound (done ++ [node]) (addNode tables node) where
  keyed id other found := by
    simp only [ModelBuilder.addNode, Dict.get?_set] at found
    by_cases same : id = node.id
    · rw [if_pos same, Option.some.injEq] at found
      subst found
      exact ⟨same.symm, by simp⟩
    · rw [if_neg same] at found
      obtain ⟨key, old⟩ := sound.keyed id other found
      exact ⟨key, List.mem_append_left _ old⟩
  named other m := by
    refine setDefault_keys _ _ _ _ ?_
    rcases List.mem_append.mp m with old | new
    · exact Or.inr (sound.named other old)
    · exact Or.inl (congrArg ModelNode.name (List.mem_singleton.mp new))
  typed other m type kind filled := by
    refine indexType_keys _ _ _ filled ?_
    rcases List.mem_append.mp m with old | new
    · exact Or.inr (sound.typed other old type kind filled)
    · exact Or.inl (by rw [← List.mem_singleton.mp new]; exact kind)
  nameIds a id found := (Dict.keys_set _ _ _ _).mpr
    ((setDefault_values _ _ _ a id found).imp_right (sound.nameIds a id))
  typeIds a id found := (Dict.keys_set _ _ _ _).mpr
    ((indexType_values _ _ a id found).imp_right (sound.typeIds a id))

theorem Sound.foldl {done : List ModelNode} {tables : Tables} (sound : Sound done tables)
    (nodes : List ModelNode) :
    Sound (done ++ nodes) (nodes.foldl ModelBuilder.addNode tables) := by
  induction nodes generalizing done tables with
  | nil => simpa only [List.append_nil, List.foldl_nil] using sound
  | cons node nodes ih =>
      simpa only [List.append_assoc, List.singleton_append, List.foldl_cons] using ih (sound.addNode node)

theorem tables_sound (opcNodes : List OpcUaNodeInfo) :
    Sound ((bySourceNode opcNodes).values.map (mapped identity opcNodes)) (tables identity opcNodes) := by
  have start : Sound [] { nodesById := .empty, nodeIdByName := .empty, nodeIdByType := .empty } :=
    ⟨fun _ _ => nofun, fun _ => nofun, fun _ => nofun, fun _ _ => nofun, fun _ _ => nofun⟩
  have all := start.foldl ((bySourceNode opcNodes).values.map (mapped identity opcNodes))
  rwa [List.nil_append] at all

theorem bySourceNode_key (opcNodes : List OpcUaNodeInfo) (id : String) (node : OpcUaNodeInfo)
    (found : (bySourceNode opcNodes).get? id = some node) : node.nodeId = id := by
  rw [bySourceNode, Dict.ofList, Dict.get?_update, Dict.get?_empty, Option.or_none] at found
  have m := lookup_mem found
  simp only [List.mem_reverse, List.mem_map, Prod.mk.injEq] at m
  obtain ⟨_, _, rfl, rfl⟩ := m
  rfl

theorem build_keyed (opcNodes : List OpcUaNodeInfo) : (build identity opcNodes).KeyedById :=
  fun id node found => ((tables_sound identity opcNodes).keyed id node found).1

theorem mem_nodes_build {opcNodes : List OpcUaNodeInfo} {node : ModelNode}
    (m : node ∈ (build identity opcNodes).nodes) :
    ∃ opcNode, (bySourceNode opcNodes).get? node.sourceNodeId = some opcNode ∧
      node = mapped identity opcNodes opcNode := by
  obtain ⟨id, found⟩ := ((build identity opcNodes).mem_nodes node).mp m
  have source := ((tables_sound identity opcNodes).keyed id node found).2
  obtain ⟨opcNode, inside, rfl⟩ := List.mem_map.mp source
  obtain ⟨key, at_key⟩ := (Dict.mem_values _ _).mp inside
  exact ⟨opcNode, by rw [show (mapped identity opcNodes opcNode).sourceNodeId = key from
    bySourceNode_key opcNodes key opcNode at_key]; exact at_key, rfl⟩

/-- The builder keys browsed nodes by their exact node id, so sources are distinct. -/
theorem build_sourcesDistinct (opcNodes : List OpcUaNodeInfo) :
    (build identity opcNodes).SourcesDistinct := by
  intro m mIn n nIn same
  obtain ⟨first, atFirst, rfl⟩ := mem_nodes_build identity mIn
  obtain ⟨second, atSecond, rfl⟩ := mem_nodes_build identity nIn
  rw [same, atSecond, Option.some.injEq] at atFirst
  rw [atFirst]

theorem get?_of_key {d : Dict String ModelNode} {id : String} (m : id ∈ d.keys) :
    ∃ node, d.get? id = some node := (Dict.mem_keys d id).mp m

/-- Every node's name leads to some node of the model. -/
theorem build_named {opcNodes : List OpcUaNodeInfo} {node : ModelNode}
    (m : node ∈ (build identity opcNodes).nodes) :
    ∃ id other, (build identity opcNodes).nodeIdByName.get? node.name = some id ∧
      (build identity opcNodes).nodesById.get? id = some other := by
  obtain ⟨id, found⟩ := ((build identity opcNodes).mem_nodes node).mp m
  have sound := tables_sound identity opcNodes
  obtain ⟨named, at_name⟩ := sound.named node (sound.keyed id node found).2
  obtain ⟨other, present⟩ := get?_of_key (sound.nameIds _ _ at_name)
  exact ⟨named, other, at_name, present⟩

theorem build_typed {opcNodes : List OpcUaNodeInfo} {node : ModelNode}
    (m : node ∈ (build identity opcNodes).nodes) {type : String} (kind : node.type = some type)
    (filled : type ≠ "") :
    ∃ id other, (build identity opcNodes).nodeIdByType.get? type = some id ∧
      (build identity opcNodes).nodesById.get? id = some other := by
  obtain ⟨id, found⟩ := ((build identity opcNodes).mem_nodes node).mp m
  have sound := tables_sound identity opcNodes
  obtain ⟨typed, at_type⟩ := sound.typed node (sound.keyed id node found).2 type kind filled
  obtain ⟨other, present⟩ := get?_of_key (sound.typeIds _ _ at_type)
  exact ⟨typed, other, at_type, present⟩

theorem get?_childrenById (opcNodes : List OpcUaNodeInfo) (id : String) :
    (build identity opcNodes).childrenById.get? id =
      ((build identity opcNodes).nodesById.get? id).map ModelNode.children :=
  Dict.get?_ofList_map _ _ id

/-! ## A plant with two inlets

Two variables whose string identifiers differ in case only, on a server whose
namespace table does not list their namespace; the digests are the real ones. -/

def inletIdentity : Identity where
  expandedNodeId nodeId := nodeId
  digest nodeId :=
    if nodeId = "ns=2;s=abc" then "9f6bda939af951cf"
    else if nodeId = "ns=2;s=ABC" then "a0ed2a9513fbdeaf"
    else nodeId

def variableNode (nodeId displayName : String) : OpcUaNodeInfo where
  nodeId := nodeId
  parentNodeId := none
  browseName := displayName
  displayName := some displayName
  nodeClass := "Variable"
  dataType := some "i=11"
  eventNotifier := false

def inlets : BuildResult :=
  build inletIdentity [variableNode "ns=2;s=abc" "Inlet A", variableNode "ns=2;s=ABC" "Inlet B"]

end ModelBuilder
end I3x

import I3xServer.Container.FirstMatch
import I3xServer.Model.Relationships

/-!
# The published model with its parents

`buildModel` adds to the nodes and indexes of the lookup model the parent of
every node, the planes, the relationships and the roots.
-/
namespace I3x
open Container Mapper

/-- A node of the published model. -/
structure PublishedNode extends ModelNode where
  parentId : Option String
  sourceTypeId : Option String
  relationships : Dict String (List String)
  isComposition : Bool
  semanticRole : SemanticRole
  mappingConfidence : MappingConfidence
  uaNodeId : String
  expandedNodeId : String
  namespaceUri : Option String
  appliedProfileIds : List String
  description : Option String
  accessLevel : Option Nat
  userAccessLevel : Option Nat
  writable : Option Bool
  executable : Option Bool
  userExecutable : Option Bool

structure PublishedModel where
  nodesById : Dict String PublishedNode
  rootIds : List String
  childrenById : Dict String (List String)
  parentById : Dict String String
  hierarchyParentById : Dict String String
  compositionParentById : Dict String String
  hierarchyChildrenById : Dict String (List String)
  compositionChildrenById : Dict String (List String)
  graphRelatedById : Dict String (List (String × String))
  graphRelationshipNames : List String
  relationshipsById : Relationships
  parentIdById : Dict String (Option String)

namespace Browse
variable (browse : Browse)

def resolvedParentId (childId : String) : Option String :=
  match browse.hierarchyParentById.get? childId with
  | some parent => some parent
  | none => (browse.parentSource childId).map browse.mappedId

/-- The plane that a node's confidence is judged by. -/
def confidenceClass (id : String) : Option ReferenceClass :=
  if browse.compositionChildrenById.bucket id ≠ [] then some .composition
  else if browse.hierarchyChildrenById.bucket id ≠ [] then some .hierarchy
  else if browse.graphRelatedById.bucket id ≠ [] then some .graph
  else none

def publishedNode (node : BrowsedNode) : PublishedNode where
  toModelNode := ModelBuilder.mapped browse.identity browse.opcNodeInfos node.toOpcUaNodeInfo
  parentId := browse.resolvedParentId (browse.mappedId node)
  sourceTypeId := node.typeDefinitionId
  relationships := (browse.relationshipsById.get? (browse.mappedId node)).getD .empty
  isComposition := browse.compositionChildrenById.bucket (browse.mappedId node) ≠ []
  semanticRole := resolveSemanticRole browse.unicode node (browse.activeProfiles node)
    (if browse.compositionChildrenById.bucket (browse.mappedId node) ≠ [] then some .composition else none)
    (browse.typeDefinitionHierarchy node)
  mappingConfidence := resolveMappingConfidence node (browse.activeProfiles node)
    (browse.confidenceClass (browse.mappedId node))
    (hasProfileOverrideForNode browse.unicode node (browse.activeProfiles node) (browse.typeDefinitionHierarchy node))
  uaNodeId := node.nodeId
  expandedNodeId := browse.identity.expandedNodeId node.nodeId
  namespaceUri := NodeIds.resolveNamespaceUri browse.unicode browse.namespaceInfos node.nodeId
  appliedProfileIds := (browse.activeProfiles node).map SemanticProfile.profileId
  description := node.description
  accessLevel := node.accessLevel
  userAccessLevel := node.userAccessLevel
  writable := node.userAccessLevel.map fun level => level &&& 2 ≠ 0
  executable := node.executable
  userExecutable := node.userExecutable

def publishedNodes : List PublishedNode := browse.sources.map browse.publishedNode

def nodesById : Dict String PublishedNode :=
  Dict.ofList (browse.publishedNodes.map fun node => (node.id, node))

def rootIds : List String :=
  (browse.publishedNodes.filter fun node => node.parentId = none).map fun node => node.id

def published : PublishedModel where
  nodesById := browse.nodesById
  rootIds := browse.rootIds
  childrenById := browse.nodesById.mapValues fun _ node => node.children
  parentById := browse.hierarchyParentById
  hierarchyParentById := browse.hierarchyParentById
  compositionParentById := browse.compositionParentById
  hierarchyChildrenById := browse.hierarchyChildrenById
  compositionChildrenById := browse.compositionChildrenById
  graphRelatedById := browse.graphRelatedById
  graphRelationshipNames := graphRelationshipIds browse.registered
  relationshipsById := browse.relationshipsById
  parentIdById := browse.nodesById.mapValues fun id _ => browse.resolvedParentId id

/-- `ModelBuilder.build` up to the node id indexes. -/
def buildModel : Except BuildError PublishedModel :=
  match browse.refusal with
  | some error => .error error
  | none => .ok browse.published

/-! ## The lookup model inside -/

theorem mappedId_ne_empty (node : BrowsedNode) : browse.mappedId node ≠ "" := by
  intro empty
  have chars := congrArg String.toList empty
  simp only [mappedId, ModelBuilder.mappedId, ModelBuilder.stableI3xId, String.toList_append] at chars
  cases ModelBuilder.kindForNode node.toOpcUaNodeInfo <;> exact absurd chars (by simp [NodeKind.text])

theorem publishedNode_id (node : BrowsedNode) : (browse.publishedNode node).id = browse.mappedId node :=
  if_neg (browse.mappedId_ne_empty node)

theorem inferKind_eq (node : OpcUaNodeInfo) : ModelBuilder.inferKind node = ModelBuilder.kindForNode node := by
  unfold ModelBuilder.inferKind ModelBuilder.kindForNode
  have classes : ModelBuilder.classToKind.entries = [("Object", .asset), ("Variable", .property), ("Method", .action)] :=
    rfl
  by_cases notifier : node.eventNotifier = true
  · rw [if_pos notifier, if_pos notifier]
  · rw [if_neg notifier, if_neg notifier, Dict.get?, classes]
    simp only [lookup_cons_ite, List.lookup_nil]
    by_cases isObject : node.nodeClass = "Object"
    · rw [isObject]
      rfl
    · rw [if_neg isObject]
      by_cases isVariable : node.nodeClass = "Variable"
      · rw [if_pos isVariable, if_pos isVariable]
        rfl
      · rw [if_neg isVariable, if_neg isVariable]
        by_cases isMethod : node.nodeClass = "Method"
        · rw [if_pos isMethod, if_pos isMethod]
          rfl
        · rw [if_neg isMethod, if_neg isMethod]
          rfl

/-- Element ids tell the kinds apart. -/
theorem kind_of_mappedIds {browse other : Browse} {first second : BrowsedNode}
    (same : browse.mappedId first = other.mappedId second) :
    ModelBuilder.kindForNode first.toOpcUaNodeInfo = ModelBuilder.kindForNode second.toOpcUaNodeInfo := by
  have chars := congrArg String.toList same
  simp only [mappedId, ModelBuilder.mappedId, ModelBuilder.stableI3xId, String.toList_append] at chars
  cases one : ModelBuilder.kindForNode first.toOpcUaNodeInfo <;>
    cases two : ModelBuilder.kindForNode second.toOpcUaNodeInfo <;> first
      | rfl
      | (rw [one, two] at chars; exact absurd chars (by simp [NodeKind.text]))

theorem kind_of_mappedId {first second : BrowsedNode} (same : browse.mappedId first = browse.mappedId second) :
    ModelBuilder.kindForNode first.toOpcUaNodeInfo = ModelBuilder.kindForNode second.toOpcUaNodeInfo :=
  kind_of_mappedIds same

theorem bySourceNode_infos :
    ModelBuilder.bySourceNode browse.opcNodeInfos = browse.bySourceNode.mapValues fun _ => BrowsedNode.toOpcUaNodeInfo := by
  rw [bySourceNode, Dict.mapValues_ofList, ModelBuilder.bySourceNode, opcNodeInfos, List.map_map, List.map_map]
  rfl

theorem tables_nodesById (nodes : List ModelNode) (tables : ModelBuilder.Tables) :
    (nodes.foldl ModelBuilder.addNode tables).nodesById =
      tables.nodesById.update (nodes.map fun node => (node.id, node)) := by
  induction nodes generalizing tables with
  | nil => rfl
  | cons node nodes ih => exact ih (ModelBuilder.addNode tables node)

/-- The published nodes are those of the lookup model, with more data. -/
theorem nodesById_forget :
    (browse.nodesById.mapValues fun _ => PublishedNode.toModelNode) =
      (ModelBuilder.build browse.identity browse.opcNodeInfos).nodesById := by
  have nodes : (ModelBuilder.bySourceNode browse.opcNodeInfos).values =
      browse.sources.map BrowsedNode.toOpcUaNodeInfo := by
    rw [bySourceNode_infos]
    simp only [Dict.values, Dict.mapValues, sources, List.map_map, Function.comp_def]
  change _ = (ModelBuilder.tables browse.identity browse.opcNodeInfos).nodesById
  rw [ModelBuilder.tables, tables_nodesById, nodes, nodesById, Dict.mapValues_ofList, publishedNodes,
    List.map_map, List.map_map, List.map_map, List.map_map]
  rfl

theorem nodesById_eq :
    browse.nodesById = Dict.ofList (browse.sources.map fun node => (browse.mappedId node, browse.publishedNode node)) := by
  simp only [nodesById, publishedNodes, List.map_map, Function.comp_def, publishedNode_id]

theorem get?_nodesById_iff (id : String) (node : PublishedNode) :
    browse.nodesById.get? id = some node ↔
      ∃ source, browse.Latest source ∧ browse.mappedId source = id ∧ browse.publishedNode source = node := by
  rw [nodesById_eq, get?_ofList_latest]

theorem get?_nodesById {id : String} {node : PublishedNode} (found : browse.nodesById.get? id = some node) :
    ∃ source ∈ browse.sources, browse.mappedId source = id ∧ node = browse.publishedNode source := by
  rw [nodesById, Dict.ofList, Dict.get?_update, Dict.get?_empty, Option.or_none] at found
  have m := lookup_mem found
  simp only [publishedNodes, List.map_map, List.mem_reverse, List.mem_map, Function.comp_apply, Prod.mk.injEq] at m
  obtain ⟨source, inside, key, rfl⟩ := m
  exact ⟨source, inside, by rw [← key, publishedNode_id], rfl⟩

theorem mem_keys_nodesById (id : String) :
    id ∈ browse.nodesById.keys ↔ ∃ source ∈ browse.sources, browse.mappedId source = id := by
  rw [nodesById, Dict.ofList, Dict.keys_update]
  simp [Dict.keys, Dict.empty, publishedNodes, publishedNode_id]

/-! ## The first element with a property -/

/-- The first element, in the order of the model, whose node has a property. -/
def FirstWith (p : BrowsedNode → Prop) (id : String) : Prop :=
  ∃ node, browse.Latest node ∧ browse.mappedId node = id ∧ p node ∧
    ∀ other, browse.Latest other → p other →
      browse.mappedId other = id ∨ Precedes (browse.sources.map browse.mappedId) id (browse.mappedId other)

theorem keys_nodesById_precedes {first second : String} (inside : first ∈ browse.nodesById.keys)
    (other : first ≠ second) :
    Precedes browse.nodesById.keys first second ↔ Precedes (browse.sources.map browse.mappedId) first second := by
  have keys : (browse.sources.map fun node => (browse.mappedId node, browse.publishedNode node)).map Prod.fst =
      browse.sources.map browse.mappedId := by
    rw [List.map_map]
    rfl
  rw [nodesById_eq, Dict.ofList] at inside ⊢
  rw [Dict.precedes_update _ _ other, keys]
  rw [Dict.keys_update] at inside
  exact inside.resolve_left List.not_mem_nil

/-- Scanning the published nodes finds the first element with a property. -/
theorem firstWith_iff (p : PublishedNode → Bool) (id : String) :
    (browse.nodesById.entries.find? fun entry => p entry.2).map Prod.fst = some id ↔
      browse.FirstWith (fun node => p (browse.publishedNode node) = true) id := by
  have holds : ∀ id, (((browse.nodesById.get? id).map p).getD false = true) ↔
      ∃ node, browse.Latest node ∧ browse.mappedId node = id ∧ p (browse.publishedNode node) = true := by
    intro id
    cases found : browse.nodesById.get? id with
    | none =>
        refine ⟨nofun, fun ⟨node, latest, same, _⟩ => ?_⟩
        have := (browse.get?_nodesById_iff id _).mpr ⟨node, latest, same, rfl⟩
        rw [found] at this
        cases this
    | some published =>
        obtain ⟨source, latest, same, rfl⟩ := (browse.get?_nodesById_iff _ _).mp found
        rw [Option.map_some, Option.getD_some]
        refine ⟨fun m => ⟨source, latest, same, m⟩, fun ⟨node, latest', same', m⟩ => ?_⟩
        have again := (browse.get?_nodesById_iff id _).mpr ⟨node, latest', same', rfl⟩
        rw [found, Option.some.injEq] at again
        rw [again]
        exact m
  have key : ∀ {node}, browse.Latest node → browse.mappedId node ∈ browse.nodesById.keys := fun latest =>
    (Dict.mem_keys _ _).mpr ⟨_, (browse.get?_nodesById_iff _ _).mpr ⟨_, latest, rfl, rfl⟩⟩
  rw [Dict.find?_entries _ p, find?_eq_some_iff_precedes]
  simp only [holds]
  constructor
  · rintro ⟨-, ⟨node, latest, rfl, m⟩, first⟩
    refine ⟨node, latest, rfl, m, fun other latest' m' => ?_⟩
    by_cases eq : browse.mappedId other = browse.mappedId node
    · exact .inl eq
    · have before := (first _ (key latest') ⟨other, latest', rfl, m'⟩).resolve_left eq
      exact .inr ((browse.keys_nodesById_precedes (key latest) fun same => eq same.symm).mp before)
  · rintro ⟨node, latest, rfl, m, first⟩
    refine ⟨key latest, ⟨node, latest, rfl, m⟩, ?_⟩
    rintro id - ⟨other, latest', rfl, m'⟩
    by_cases eq : browse.mappedId other = browse.mappedId node
    · exact .inl eq
    · have before := (first other latest' m').resolve_left eq
      exact .inr ((browse.keys_nodesById_precedes (key latest) fun same => eq same.symm).mpr before)

/-! ## Chosen parents -/

/-- A reference whose source is published as the parent of its target: one that
leads in the hierarchy, or in the composition for a target without hierarchy
reference. -/
def Chosen (l : Link) : Prop :=
  browse.Leads .hierarchy l ∨
    (browse.Leads .composition l ∧ ∀ other ∈ browse.links, other.relationshipClass = .hierarchy →
      browse.mappedId other.target ≠ browse.mappedId l.target)

theorem resolvedParentId_eq (childId : String) :
    browse.resolvedParentId childId = (browse.parentSource childId).map browse.mappedId := by
  unfold resolvedParentId parentSource hierarchyParentById
  rw [Dict.get?_mapValues]
  cases (browse.selectedByChild .hierarchy).get? childId <;> rfl

theorem parentSource_iff (childId : String) (parent : BrowsedNode) :
    browse.parentSource childId = some parent ↔
      ∃ l, browse.Chosen l ∧ browse.mappedId l.target = childId ∧ l.source = parent := by
  have hierarchy := browse.selected_parent_iff .hierarchy childId parent
  have composition := browse.selected_parent_iff .composition childId parent
  unfold parentSource
  cases found : (browse.selectedByChild .hierarchy).get? childId with
  | some chosen =>
      rw [found] at hierarchy
      refine hierarchy.trans (exists_congr fun l => and_congr_left fun ⟨target, _⟩ => ?_)
      refine ⟨Or.inl, fun h => h.resolve_right ?_⟩
      rintro ⟨-, none⟩
      obtain ⟨other, leads, same, -⟩ := browse.selectedByChild_eq found
      exact none other leads.present leads.within (same.trans target.symm)
  | none =>
      have none := browse.selectedByChild_eq_none.mp found
      refine composition.trans (exists_congr fun l => and_congr_left fun ⟨target, _⟩ => ?_)
      refine ⟨fun leads => Or.inr ⟨leads, fun other m within => target ▸ none other m within⟩, fun h => ?_⟩
      rcases h with leads | leads
      · exact absurd target (none l leads.present leads.within)
      · exact leads.1

theorem resolvedParentId_iff (childId parentId : String) :
    browse.resolvedParentId childId = some parentId ↔
      ∃ l, browse.Chosen l ∧ browse.mappedId l.target = childId ∧ browse.mappedId l.source = parentId := by
  rw [resolvedParentId_eq, Option.map_eq_some_iff]
  constructor
  · rintro ⟨parent, found, rfl⟩
    obtain ⟨l, chosen, target, rfl⟩ := (browse.parentSource_iff _ _).mp found
    exact ⟨l, chosen, target, rfl⟩
  · rintro ⟨l, chosen, target, rfl⟩
    exact ⟨l.source, (browse.parentSource_iff _ _).mpr ⟨l, chosen, target, rfl⟩, rfl⟩

theorem Chosen.present {l : Link} (h : browse.Chosen l) : l ∈ browse.links :=
  h.elim Leads.present fun leads => leads.1.present

theorem resolvedParentId_keys {childId parentId : String} (h : browse.resolvedParentId childId = some parentId) :
    childId ∈ browse.nodesById.keys ∧ parentId ∈ browse.nodesById.keys := by
  obtain ⟨l, chosen, rfl, rfl⟩ := (browse.resolvedParentId_iff _ _).mp h
  have present := Chosen.present browse chosen
  exact ⟨(browse.mem_keys_nodesById _).mpr ⟨_, browse.link_target present, rfl⟩,
    (browse.mem_keys_nodesById _).mpr ⟨_, browse.link_source present, rfl⟩⟩

theorem mem_rootIds (id : String) :
    id ∈ browse.rootIds ↔ id ∈ browse.nodesById.keys ∧ browse.resolvedParentId id = none := by
  rw [mem_keys_nodesById]
  simp only [rootIds, publishedNodes, List.mem_map, List.mem_filter, decide_eq_true_eq]
  constructor
  · rintro ⟨node, ⟨⟨source, inside, rfl⟩, top⟩, rfl⟩
    rw [publishedNode_id]
    exact ⟨⟨source, inside, rfl⟩, top⟩
  · rintro ⟨⟨source, inside, rfl⟩, top⟩
    exact ⟨_, ⟨⟨source, inside, rfl⟩, top⟩, browse.publishedNode_id source⟩

theorem noChildren_bucket (id : String) : browse.noChildren.bucket id = [] := by
  rw [Dict.bucket, noChildren, Dict.ofList, Dict.get?_update, Dict.get?_empty, Option.or_none]
  cases found : (browse.sources.map fun node => (browse.mappedId node, ([] : List String))).reverse.lookup id with
  | none => rfl
  | some children =>
      have m := lookup_mem found
      simp only [List.mem_reverse, List.mem_map, Prod.mk.injEq] at m
      obtain ⟨_, _, _, rfl⟩ := m
      rfl

/-- The children of an element are those it is the parent of. -/
theorem mem_childrenByParent (parentById : Dict String String) (parentId childId : String) :
    childId ∈ (browse.childrenByParent parentById).bucket parentId ↔ parentById.get? childId = some parentId := by
  rw [childrenByParent, Dict.mem_bucket_pushAll, noChildren_bucket, ← Dict.mem_entries]
  simp only [List.not_mem_nil, false_or, List.mem_map, Prod.mk.injEq]
  exact ⟨fun ⟨e, m, parent, child⟩ => by rw [← parent, ← child]; exact m, fun m => ⟨_, m, rfl, rfl⟩⟩

theorem buildModel_ok {model : PublishedModel} (built : browse.buildModel = .ok model) :
    browse.refusal = none ∧ model = browse.published := by
  unfold buildModel at built
  split at built
  · cases built
  · rename_i accepted
    cases built
    exact ⟨accepted, rfl⟩

theorem buildModel_accepted (accepted : browse.refusal = none) : browse.buildModel = .ok browse.published := by
  rw [buildModel, accepted]

end Browse

/-! ## A small plant

Nodes of one namespace with identifiers of one letter, one of them with a space
behind it; the digests are the real ones. -/

namespace Plant

def digest (expandedNodeId : String) : String :=
  ((Dict.ofList [("nsu=urn:plant;s=A", "5b7e0a0f0c568c33"), ("nsu=urn:plant;s=B", "cd1e6b2d19c59f72"),
    ("nsu=urn:plant;s=C", "7133d1e37f5c2c62"), ("nsu=urn:plant;s=A ", "0c098030ede43ade")]).get?
      expandedNodeId).getD expandedNodeId

def node (name nodeClass : String) (outgoingReferences : List OpcUaReferenceInfo) : BrowsedNode where
  nodeId := "ns=1;s=" ++ name
  parentNodeId := none
  browseName := name
  displayName := some name
  nodeClass
  dataType := if nodeClass = "Variable" then some "i=11" else none
  eventNotifier := false
  typeDefinitionId := none
  outgoingReferences

def organizes (name : String) : OpcUaReferenceInfo := ⟨"ns=1;s=" ++ name, "i=35", "Organizes"⟩

def hasProperty (name : String) : OpcUaReferenceInfo := ⟨"ns=1;s=" ++ name, "i=46", "HasProperty"⟩

def browse (opcNodes : List BrowsedNode) : Browse where
  unicode := .ascii
  digest := digest
  opcNodes
  namespaceInfos := [⟨NodeIds.standardNamespace⟩, ⟨"urn:plant"⟩]
  referenceSupertypesById := .empty
  resolvedHierarchies := .empty

end Plant
end I3x

import I3xServer.Model.Conservation
import I3xServer.Model.Revision

/-!
# What a revision stands for

Models of one revision agree in every index that follows from their nodes. Two
indexes do not always: the instances of a type count nodes that another node of
their element id replaced, and a reference under a relationship that is the inverse
of one and has an inverse itself may be hidden behind the references of both.
-/
namespace I3x
open Container Mapper

namespace Browse
variable (browse : Browse)

/-! ## The indexes by type, kind and role -/

def isInstance (kind : NodeKind) : Bool := kind = .asset || kind = .eventSource

def instancesByTypeId : Dict String (List String) :=
  Dict.empty.pushAll (browse.publishedNodes.filterMap fun node =>
    if isInstance node.kind then node.sourceTypeId.map fun type => (type, node.id) else none)

def propertyToNode : Dict String String :=
  Dict.ofList (browse.publishedNodes.filterMap fun node =>
    (if node.kind = .property then some node.sourceNodeId else none).map fun source => (node.id, source))

def actionToMethod : Dict String (String × String) :=
  Dict.ofList (browse.sources.filterMap fun source =>
    if ModelBuilder.inferKind source.toOpcUaNodeInfo = .action then
      source.parentNodeId.map fun parent => (browse.mappedId source, (parent, source.nodeId))
    else none)

def byId {V : Type} (f : PublishedNode → V) : Dict String V :=
  Dict.ofList (browse.publishedNodes.map fun node => (node.id, f node))

def lookupModel : LookupModel where
  toVocabularyModel := browse.publishedVocabulary
  instancesByTypeId := browse.instancesByTypeId
  propertyToNode := browse.propertyToNode
  actionToMethod := browse.actionToMethod
  nodeIdByName := (ModelBuilder.tables browse.identity browse.opcNodeInfos).nodeIdByName
  nodeIdByType := (ModelBuilder.tables browse.identity browse.opcNodeInfos).nodeIdByType
  semanticRoleById := browse.byId fun node => node.semanticRole
  mappingConfidenceById := browse.byId fun node => node.mappingConfidence
  appliedProfileIdsById := browse.byId fun node => node.appliedProfileIds
  namespaceUriById := browse.byId fun node => node.namespaceUri

/-- `ModelBuilder.build` up to the node id indexes, with the revision. -/
def buildRevised (digest : String → String) : Except BuildError RevisedModel :=
  match browse.refusal with
  | some error => .error error
  | none =>
      .ok { toLookupModel := browse.lookupModel, revision := computeModelRevision digest browse.lookupModel }

end Browse

/-- All indexes agree, up to the order and repetition of list entries. -/
structure LookupModel.SameIndexes (model model' : LookupModel) : Prop where
  nodes : ∀ id, model.nodesById.get? id = model'.nodesById.get? id
  rootIds : model.rootIds = model'.rootIds
  actions : ∀ id, model.actionToMethod.get? id = model'.actionToMethod.get? id
  names : ∀ name, name ∈ model.graphRelationshipNames ↔ name ∈ model'.graphRelationshipNames
  namespaces : ∀ name, model.graphRelationshipNamespaceById.get? name = model'.graphRelationshipNamespaceById.get? name
  displayNames : ∀ name,
    model.graphRelationshipDisplayNameById.get? name = model'.graphRelationshipDisplayNameById.get? name
  children : ∀ id, model.childrenById.get? id = model'.childrenById.get? id
  relationships : ∀ id, model.relationshipsById.get? id = model'.relationshipsById.get? id
  hierarchyParents : ∀ id, model.hierarchyParentById.get? id = model'.hierarchyParentById.get? id
  compositionParents : ∀ id, model.compositionParentById.get? id = model'.compositionParentById.get? id
  hierarchyChildren : model.hierarchyChildrenById.SameLists model'.hierarchyChildrenById
  compositionChildren : model.compositionChildrenById.SameLists model'.compositionChildrenById
  graphRelated : model.graphRelatedById.SameLists model'.graphRelatedById
  instances : model.instancesByTypeId.SameLists model'.instancesByTypeId
  properties : ∀ id, model.propertyToNode.get? id = model'.propertyToNode.get? id
  roles : ∀ id, model.semanticRoleById.get? id = model'.semanticRoleById.get? id
  confidences : ∀ id, model.mappingConfidenceById.get? id = model'.mappingConfidenceById.get? id
  profiles : ∀ id, model.appliedProfileIdsById.get? id = model'.appliedProfileIdsById.get? id
  namespaceUris : ∀ id, model.namespaceUriById.get? id = model'.namespaceUriById.get? id

namespace Browse
variable (browse : Browse)

/-! ## Indexes that follow from the nodes -/

theorem get?_byId {V : Type} (f : PublishedNode → V) (id : String) :
    (browse.byId f).get? id = (browse.nodesById.get? id).map f := by
  have same : browse.byId f = browse.nodesById.mapValues fun _ => f := by
    rw [byId, nodesById, Dict.mapValues_ofList, List.map_map]
    rfl
  rw [same, Dict.get?_mapValues]

theorem publishedNode_kind (node : BrowsedNode) :
    (browse.publishedNode node).kind = ModelBuilder.kindForNode node.toOpcUaNodeInfo := by
  rw [← inferKind_eq]
  simp only [publishedNode]
  rfl

theorem get?_propertyToNode (id : String) : browse.propertyToNode.get? id =
    (browse.nodesById.get? id).bind fun node => if node.kind = .property then some node.sourceNodeId else none := by
  refine Dict.get?_ofList_filterMap (fun node : PublishedNode => node.id) _ browse.publishedNodes ?_ id
  intro node m other n same
  obtain ⟨source, -, rfl⟩ := List.mem_map.mp m
  obtain ⟨source', -, rfl⟩ := List.mem_map.mp n
  rw [publishedNode_id, publishedNode_id] at same
  rw [publishedNode_kind, publishedNode_kind, browse.kind_of_mappedId same]
  split <;> rfl

theorem mem_instances (type id : String) : id ∈ browse.instancesByTypeId.bucket type ↔
    ∃ node ∈ browse.sources, isInstance (ModelBuilder.kindForNode node.toOpcUaNodeInfo) = true ∧
      node.typeDefinitionId = some type ∧ browse.mappedId node = id := by
  rw [instancesByTypeId, Dict.mem_bucket_pushAll]
  simp only [Dict.bucket, Dict.get?_empty, Option.getD_none, List.not_mem_nil, false_or, publishedNodes,
    List.filterMap_map, List.mem_filterMap, Function.comp_apply, publishedNode_kind, publishedNode_id]
  refine exists_congr fun node => and_congr_right fun _ => ?_
  split
  · rename_i counted
    simp only [counted, true_and, Option.map_eq_some_iff, Prod.mk.injEq]
    have typed : (browse.publishedNode node).sourceTypeId = node.typeDefinitionId := by simp only [publishedNode]
    rw [typed]
    constructor
    · rintro ⟨_, found, rfl, key⟩
      exact ⟨found, key⟩
    · rintro ⟨found, key⟩
      exact ⟨_, found, rfl, key⟩
  · rename_i other
    simp [other]

theorem edge_source {edge : Edge} (m : edge ∈ browse.edges) : edge.source ∈ browse.nodesById.keys := by
  obtain ⟨l, present, -, joins⟩ := (browse.related_iff _ _).mp (browse.related_of_edge m)
  rw [mem_keys_nodesById]
  rcases joins with ⟨same, -⟩ | ⟨-, same⟩
  · exact ⟨l.source, browse.link_source present, same⟩
  · exact ⟨l.target, browse.link_target present, same⟩

theorem keys_foldl_appendRelationship (edges : List Edge) (relationships : Relationships) (id : String) :
    id ∈ (edges.foldl appendRelationship relationships).keys ↔
      id ∈ relationships.keys ∨ ∃ edge ∈ edges, edge.source = id := by
  induction edges generalizing relationships with
  | nil => simp
  | cons edge edges ih =>
      rw [List.foldl_cons, ih, appendRelationship, Dict.keys_set]
      simp only [List.mem_cons, exists_eq_or_imp, eq_comm (a := id)]
      rw [or_comm (a := edge.source = id), or_assoc]

theorem mem_keys_relationshipsById (id : String) :
    id ∈ browse.relationshipsById.keys ↔ id ∈ browse.nodesById.keys := by
  rw [relationshipsById, keys_foldl_appendRelationship, noRelationships, Dict.ofList, Dict.keys_update, mem_keys_nodesById]
  simp only [Dict.keys, Dict.empty, List.map_nil, List.not_mem_nil, false_or, List.map_map, List.mem_map,
    Function.comp_apply]
  refine or_iff_left_of_imp ?_
  rintro ⟨edge, m, rfl⟩
  exact (browse.mem_keys_nodesById _).mp (browse.edge_source m)

theorem get?_relationshipsById (id : String) :
    browse.relationshipsById.get? id = (browse.nodesById.get? id).map fun node => node.relationships := by
  cases found : browse.nodesById.get? id with
  | none =>
      rw [Option.map_none, Dict.get?_eq_none, mem_keys_relationshipsById, ← Dict.get?_eq_none]
      exact found
  | some node =>
      obtain ⟨byRelationship, present⟩ := (Dict.mem_keys _ _).mp
        ((browse.mem_keys_relationshipsById id).mpr ((Dict.mem_keys _ _).mpr ⟨node, found⟩))
      obtain ⟨source, -, rfl, rfl⟩ := browse.get?_nodesById found
      simp only [publishedNode, Option.map_some, present, Option.getD_some]

theorem mem_keys_childrenByParent {parentById : Dict String String}
    (elements : ∀ childId parentId, parentById.get? childId = some parentId → parentId ∈ browse.nodesById.keys) (id : String) :
    id ∈ (browse.childrenByParent parentById).keys ↔ id ∈ browse.nodesById.keys := by
  rw [childrenByParent, Dict.keys_pushAll, noChildren, Dict.ofList, Dict.keys_update, mem_keys_nodesById]
  simp only [Dict.keys, Dict.empty, List.map_nil, List.not_mem_nil, false_or, List.map_map, List.mem_map,
    Function.comp_apply]
  refine or_iff_left_of_imp ?_
  rintro ⟨entry, m, rfl⟩
  exact (browse.mem_keys_nodesById _).mp (elements entry.1 entry.2 ((Dict.mem_entries _ _ _).mp m))

theorem planeParent_element (plane : ReferenceClass) {childId parentId : String}
    (found : ((browse.selectedByChild plane).mapValues fun _ selected => browse.mappedId selected.parent).get? childId =
      some parentId) : parentId ∈ browse.nodesById.keys := by
  obtain ⟨l, leads, -, rfl⟩ := (browse.planeParent_iff _ _ _).mp found
  exact (browse.mem_keys_nodesById _).mpr ⟨l.source, browse.link_source leads.present, rfl⟩

theorem mem_keys_graphRelatedById (id : String) :
    id ∈ browse.graphRelatedById.keys ↔ id ∈ browse.nodesById.keys := by
  rw [graphRelatedById, Dict.keys_mapValues, graphEntriesById, Dict.keys_pushAll, Dict.ofList, Dict.keys_update,
    mem_keys_nodesById]
  simp only [Dict.keys, Dict.empty, List.map_nil, List.not_mem_nil, false_or, List.map_map, List.mem_map,
    Function.comp_apply]
  refine or_iff_left_of_imp ?_
  rintro ⟨⟨childId, candidate⟩, lost, rfl⟩
  obtain ⟨chosen, pick, -⟩ := (browse.mem_demoted _ _).mp lost
  obtain ⟨l, leads, target, -⟩ := browse.selectedByChild_eq pick
  exact ⟨l.target, browse.link_target leads.present, target⟩

/-! ## Models of one revision -/

section
variable {first second : Browse} (nodes : ∀ id, first.nodesById.get? id = second.nodesById.get? id)
include nodes

theorem keys_congr (id : String) : id ∈ first.nodesById.keys ↔ id ∈ second.nodesById.keys := by
  rw [Dict.mem_keys, Dict.mem_keys, nodes]

theorem relationships_congr (id : String) : first.relationshipsById.get? id = second.relationshipsById.get? id := by
  rw [get?_relationshipsById, get?_relationshipsById, nodes]

theorem targets_congr (source relationship : String) :
    first.relationshipsById.targets source relationship = second.relationshipsById.targets source relationship := by
  rw [Relationships.targets, Relationships.targets, relationships_congr nodes]

/-- The structural relationships of an element name its parents. -/
theorem hierarchyParent_congr (id : String) : first.hierarchyParentById.get? id = second.hierarchyParentById.get? id := by
  have named (browse : Browse) (parentId : String) : browse.hierarchyParentById.get? id = some parentId ↔
      parentId ∈ browse.relationshipsById.targets id "HasParent" := by
    rw [mem_relationships_structural _ _ _ _ (by decide), ← browse.mem_childrenByParent]
    simp [hierarchyChildrenById]
  ext parentId
  rw [named, named, targets_congr nodes]

theorem compositionParent_congr (id : String) :
    first.compositionParentById.get? id = second.compositionParentById.get? id := by
  have named (browse : Browse) (parentId : String) : browse.compositionParentById.get? id = some parentId ↔
      parentId ∈ browse.relationshipsById.targets id "ComponentOf" := by
    rw [mem_relationships_structural _ _ _ _ (by decide), ← browse.mem_childrenByParent]
    simp [compositionChildrenById]
  ext parentId
  rw [named, named, targets_congr nodes]

theorem hierarchyChildren_congr : first.hierarchyChildrenById.SameLists second.hierarchyChildrenById := by
  have keys (browse : Browse) := browse.mem_keys_childrenByParent fun _ _ => browse.planeParent_element .hierarchy
  refine ⟨fun id => (keys first id).trans ((keys_congr nodes id).trans (keys second id).symm), fun parentId childId => ?_⟩
  rw [hierarchyChildrenById, hierarchyChildrenById, mem_childrenByParent, mem_childrenByParent, hierarchyParent_congr nodes]

theorem compositionChildren_congr : first.compositionChildrenById.SameLists second.compositionChildrenById := by
  have keys (browse : Browse) := browse.mem_keys_childrenByParent fun _ _ => browse.planeParent_element .composition
  refine ⟨fun id => (keys first id).trans ((keys_congr nodes id).trans (keys second id).symm), fun parentId childId => ?_⟩
  rw [compositionChildrenById, compositionChildrenById, mem_childrenByParent, mem_childrenByParent,
    compositionParent_congr nodes]

end

/-- Where nodes share an element id, the types of those that were replaced are types
under the same id in the other browse result. -/
def ReplacedTypesKept (first second : Browse) : Prop :=
  ∀ node ∈ first.sources, ¬ first.Latest node → isInstance (ModelBuilder.kindForNode node.toOpcUaNodeInfo) = true →
    ∀ type, node.typeDefinitionId = some type →
      ∃ other ∈ second.sources, second.mappedId other = first.mappedId node ∧ other.typeDefinitionId = some type

/-- References under a relationship that is the inverse of one and has an inverse
itself are the same in both browse results. -/
def MiddleReferencesKept (first second : Browse) : Prop :=
  ∀ forward, forward ∈ graphRelationshipIds first.registered →
    inverseRelationship forward ∈ graphRelationshipIds first.registered →
    inverseRelationship (inverseRelationship forward) ∈ graphRelationshipIds first.registered →
    ∀ source target, first.Refers source (inverseRelationship forward) target ↔
      second.Refers source (inverseRelationship forward) target

theorem latest_source {browse : Browse} {node : BrowsedNode} (latest : browse.Latest node) : node ∈ browse.sources := by
  obtain ⟨before, after, shape, -⟩ := latest
  rw [shape]
  exact List.mem_append_right _ List.mem_cons_self

theorem instances_of_kept {first second : Browse} (nodes : ∀ id, first.nodesById.get? id = second.nodesById.get? id)
    (kept : ReplacedTypesKept first second) {type id : String} (m : id ∈ first.instancesByTypeId.bucket type) :
    id ∈ second.instancesByTypeId.bucket type := by
  rw [mem_instances] at m ⊢
  obtain ⟨node, inside, counted, typed, rfl⟩ := m
  have other : ∃ other ∈ second.sources, second.mappedId other = first.mappedId node ∧
      other.typeDefinitionId = some type := by
    by_cases latest : first.Latest node
    · have found := (first.get?_nodesById_iff _ _).mpr ⟨node, latest, rfl, rfl⟩
      rw [nodes] at found
      obtain ⟨other, latest', same, published⟩ := (second.get?_nodesById_iff _ _).mp found
      refine ⟨other, latest_source latest', same, ?_⟩
      have types := congrArg PublishedNode.sourceTypeId published
      simp only [publishedNode] at types
      rw [types, typed]
    · exact kept node inside latest counted type typed
  obtain ⟨other, inside', same, typed'⟩ := other
  exact ⟨other, inside', by rw [kind_of_mappedIds same]; exact counted, typed', same⟩

theorem instances_congr_iff {first second : Browse} (nodes : ∀ id, first.nodesById.get? id = second.nodesById.get? id) :
    first.instancesByTypeId.SameLists second.instancesByTypeId ↔
      ReplacedTypesKept first second ∧ ReplacedTypesKept second first := by
  constructor
  · rintro ⟨-, same⟩
    have kept {first second : Browse} (same : ∀ type id, id ∈ first.instancesByTypeId.bucket type →
        id ∈ second.instancesByTypeId.bucket type) : ReplacedTypesKept first second := by
      intro node inside _ counted type typed
      have m := same type _ ((first.mem_instances _ _).mpr ⟨node, inside, counted, typed, rfl⟩)
      obtain ⟨other, inside', -, typed', eq⟩ := (second.mem_instances _ _).mp m
      exact ⟨other, inside', eq, typed'⟩
    exact ⟨kept fun type id => (same type id).mp, kept fun type id => (same type id).mpr⟩
  · rintro ⟨forward, backward⟩
    have same : ∀ type id, id ∈ first.instancesByTypeId.bucket type ↔ id ∈ second.instancesByTypeId.bucket type :=
      fun type id => ⟨instances_of_kept nodes forward, instances_of_kept (fun id => (nodes id).symm) backward⟩
    refine ⟨fun type => ?_, same⟩
    rw [instancesByTypeId, instancesByTypeId, Dict.keys_pushAll_empty, Dict.keys_pushAll_empty]
    exact exists_congr (same type)

theorem graphReference_of_kept {first second : Browse} (nodes : ∀ id, first.nodesById.get? id = second.nodesById.get? id)
    (names : ∀ name, name ∈ graphRelationshipIds first.registered ↔ name ∈ graphRelationshipIds second.registered)
    (kept : MiddleReferencesKept first second) {source relationship target : String}
    (reference : first.GraphReference source relationship target) : second.GraphReference source relationship target := by
  have registered := first.reference_registered reference
  have out := (first.mem_relationships_graph _ _ _ (reference.not_structural first)).mpr (.inl reference)
  rw [targets_congr nodes, second.mem_relationships_graph _ _ _ (reference.not_structural first)] at out
  rcases out with direct | ⟨forward, rfl, before⟩
  · exact direct
  · have back := (first.mem_relationships_graph _ _ _ (inverseRelationship_not_structural _)).mpr (.inr ⟨_, rfl, reference⟩)
    rw [targets_congr nodes, second.mem_relationships_graph _ _ _ (inverseRelationship_not_structural _)] at back
    rcases back with after | ⟨middle, same, direct⟩
    · rw [graphReference_iff_refers] at reference ⊢
      exact (kept forward ((names _).mpr (second.reference_registered before)) registered
        ((names _).mpr (second.reference_registered after)) _ _).mp reference
    · rwa [inverseRelationship_injective same]

theorem MiddleReferencesKept.symm {first second : Browse}
    (names : ∀ name, name ∈ graphRelationshipIds first.registered ↔ name ∈ graphRelationshipIds second.registered)
    (kept : MiddleReferencesKept first second) : MiddleReferencesKept second first :=
  fun forward start middle final source target =>
    (kept forward ((names _).mpr start) ((names _).mpr middle) ((names _).mpr final) source target).symm

theorem graphRelated_congr_iff {first second : Browse} (nodes : ∀ id, first.nodesById.get? id = second.nodesById.get? id)
    (names : ∀ name, name ∈ graphRelationshipIds first.registered ↔ name ∈ graphRelationshipIds second.registered) :
    first.graphRelatedById.SameLists second.graphRelatedById ↔ MiddleReferencesKept first second := by
  constructor
  · rintro ⟨-, same⟩ forward - - - source target
    rw [← graphReference_iff_refers, ← graphReference_iff_refers]
    exact same source (inverseRelationship forward, target)
  · intro kept
    refine ⟨fun id => ?_, fun id entry => ⟨fun m => ?_, fun m => ?_⟩⟩
    · rw [mem_keys_graphRelatedById, mem_keys_graphRelatedById, keys_congr nodes]
    · exact graphReference_of_kept nodes names kept m
    · exact graphReference_of_kept (fun id => (nodes id).symm) (fun name => (names name).symm) (kept.symm names) m

theorem nodes_of_revision {digest : String → String} (injective : Function.Injective digest) {first second : Browse}
    (same : computeModelRevision digest first.lookupModel = computeModelRevision digest second.lookupModel) (id : String) :
    first.nodesById.get? id = second.nodesById.get? id := by
  have listed := (LookupModel.of_revision injective same).1
  have found (browse : Browse) (node : PublishedNode) :
      browse.nodesById.get? id = some node ↔ node ∈ browse.lookupModel.sortedNodes ∧ node.id = id := by
    have nodes : browse.lookupModel.nodesById = browse.nodesById := by
      simp only [lookupModel, publishedVocabulary, published]
    have key {id : String} (present : browse.nodesById.get? id = some node) : node.id = id := by
      obtain ⟨source, -, same, rfl⟩ := browse.get?_nodesById present
      rw [publishedNode_id, same]
    rw [LookupModel.mem_sortedNodes, nodes]
    constructor
    · exact fun present => ⟨⟨id, present⟩, key present⟩
    · rintro ⟨⟨id, present⟩, rfl⟩
      rwa [key present]
  ext node
  rw [found, found, listed]

theorem sameIndexes_iff {digest : String → String} (injective : Function.Injective digest) {first second : Browse}
    (same : computeModelRevision digest first.lookupModel = computeModelRevision digest second.lookupModel) :
    first.lookupModel.SameIndexes second.lookupModel ↔
      (ReplacedTypesKept first second ∧ ReplacedTypesKept second first) ∧ MiddleReferencesKept first second := by
  have nodes := nodes_of_revision injective same
  have extra := (LookupModel.of_revision injective same).2
  have names : ∀ name, name ∈ graphRelationshipIds first.registered ↔ name ∈ graphRelationshipIds second.registered := by
    have listed := extra.names
    simpa only [lookupModel, publishedVocabulary, published] using listed
  rw [← instances_congr_iff nodes, ← graphRelated_congr_iff nodes names]
  constructor
  · intro agree
    have instances := agree.instances
    have graphRelated := agree.graphRelated
    simp only [lookupModel, publishedVocabulary, published] at instances graphRelated
    exact ⟨instances, graphRelated⟩
  · rintro ⟨instances, graphRelated⟩
    obtain ⟨rootIds, actions, -, -, -, namespaces, displayNames⟩ := extra
    constructor <;> simp only [lookupModel, publishedVocabulary, published] at rootIds actions namespaces displayNames ⊢
    · exact nodes
    · exact rootIds
    · exact actions
    · exact names
    · exact namespaces
    · exact displayNames
    · exact fun id => by rw [Dict.get?_mapValues, Dict.get?_mapValues, nodes]
    · exact relationships_congr nodes
    · exact hierarchyParent_congr nodes
    · exact compositionParent_congr nodes
    · exact hierarchyChildren_congr nodes
    · exact compositionChildren_congr nodes
    · exact graphRelated
    · exact instances
    · exact fun id => by rw [get?_propertyToNode, get?_propertyToNode, nodes]
    · exact fun id => by rw [get?_byId, get?_byId, nodes]
    · exact fun id => by rw [get?_byId, get?_byId, nodes]
    · exact fun id => by rw [get?_byId, get?_byId, nodes]
    · exact fun id => by rw [get?_byId, get?_byId, nodes]

/-- Models of one revision agree in all indexes exactly if the browse results agree
in what the nodes do not tell. -/
theorem buildRevised_complete_iff {digest : String → String} (injective : Function.Injective digest)
    {first second : Browse} {model model' : RevisedModel} (built : first.buildRevised digest = .ok model)
    (built' : second.buildRevised digest = .ok model') (same : model.revision = model'.revision) :
    model.toLookupModel.SameIndexes model'.toLookupModel ↔
      (ReplacedTypesKept first second ∧ ReplacedTypesKept second first) ∧ MiddleReferencesKept first second := by
  have shape (browse : Browse) (model : RevisedModel) (built : browse.buildRevised digest = .ok model) :
      model = { toLookupModel := browse.lookupModel, revision := computeModelRevision digest browse.lookupModel } := by
    unfold buildRevised at built
    split at built
    · cases built
    · cases built
      rfl
  rw [shape first model built, shape second model' built'] at same ⊢
  exact sameIndexes_iff injective same

end Browse

namespace Plant

/-- A machine that is browsed in two namespaces of one uri, under two types. -/
def twins (type : String) : Browse :=
  { browse [{ node "A" "Object" [] with typeDefinitionId := some type },
      { node "A" "Object" [] with nodeId := "ns=2;s=A", typeDefinitionId := some "ns=1;i=1002" }] with
    namespaceInfos := [⟨NodeIds.standardNamespace⟩, ⟨"urn:plant"⟩, ⟨"urn:plant"⟩] }

theorem twins_built (digest : String → String) (type : String) (accepted : (twins type).refusal = none) :
    (twins type).buildRevised digest =
      .ok { toLookupModel := (twins type).lookupModel, revision := computeModelRevision digest (twins type).lookupModel } := by
  rw [Browse.buildRevised, accepted]

theorem twins_revision (digest : String → String) : computeModelRevision digest (twins "ns=1;i=1001").lookupModel =
    computeModelRevision digest (twins "ns=1;i=1003").lookupModel := by
  have nodes : (twins "ns=1;i=1001").lookupModel.nodesById = (twins "ns=1;i=1003").lookupModel.nodesById := rfl
  have extra : (twins "ns=1;i=1001").lookupModel.extra = (twins "ns=1;i=1003").lookupModel.extra := rfl
  rw [computeModelRevision, computeModelRevision, LookupModel.sortedNodes, LookupModel.sortedNodes, nodes, extra]

/-- Two models of one revision that list different instances of a type. -/
theorem twins_differ : ¬ ∀ (digest : String → String) (first second : Browse) (model model' : RevisedModel),
    Function.Injective digest → first.buildRevised digest = .ok model → second.buildRevised digest = .ok model' →
      model.revision = model'.revision → model.toLookupModel.SameIndexes model'.toLookupModel := by
  intro complete
  have agree := complete id (twins "ns=1;i=1001") (twins "ns=1;i=1003") _ _ Function.injective_id
    (twins_built id _ (by decide)) (twins_built id _ (by decide)) (twins_revision id)
  have instances := (agree.instances.2 "ns=1;i=1001" "asset-5b7e0a0f0c568c33").mp
  simp only [Browse.lookupModel] at instances
  exact absurd instances (by decide)

theorem twins_indexes :
    (twins "ns=1;i=1001").lookupModel.SameIndexes (twins "ns=1;i=1003").lookupModel ↔
      (Browse.ReplacedTypesKept (twins "ns=1;i=1001") (twins "ns=1;i=1003") ∧
        Browse.ReplacedTypesKept (twins "ns=1;i=1003") (twins "ns=1;i=1001")) ∧
        Browse.MiddleReferencesKept (twins "ns=1;i=1001") (twins "ns=1;i=1003") :=
  Browse.buildRevised_complete_iff Function.injective_id (twins_built id _ (by decide)) (twins_built id _ (by decide))
    (twins_revision id)

end Plant
end I3x

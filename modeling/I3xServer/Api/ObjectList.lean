import I3xServer.Api.RelatedObjects
import I3xServer.Model.RevisionCompleteness

/-!
# The list of objects

The objects a model answers with, for every choice of filters. Models of one
revision list the same objects, in an order of their own; only the parent of a
property or method that is shown by who lists it depends on that order too.
-/
namespace I3x.Api
open Container Mapper

/-- The query of a request for the list of objects. -/
structure ObjectsQuery where
  typeElementId : Option String
  includeMetadata : Bool
  root : Option Bool
  deriving DecidableEq, Repr

/-- The objects without parent in either plane. -/
def topNodes (model : PublishedModel) : List PublishedNode :=
  model.nodesById.values.filter fun node =>
    node.id ∉ model.hierarchyParentById.keys ∧ node.id ∉ model.compositionParentById.keys ∧
      (node.kind = .asset ∨ node.kind = .eventSource)

/-- The nodes of a request for roots only. -/
def rootNodes (model : PublishedModel) : List PublishedNode :=
  if (topNodes model).isEmpty then model.rootIds.filterMap model.nodesById.get? else topNodes model

section
variable (text : PatternText) (model : PublishedModel) (namespaceInfos : List NamespaceDetails) (typeIds : TypeIdMaps)

/-- A node passes the filter by its type, its kind or the id of its type. -/
def hasType (typeElementId : String) (node : PublishedNode) : Bool :=
  node.type = some typeElementId || node.kind.text = typeElementId ||
    resolvedTypeElementIdForNode text node namespaceInfos typeIds = typeElementId

/-- `get_objects_v1`. -/
def objects (query : ObjectsQuery) : List ObjectInstanceResponse :=
  let nodes := if query.root = some true then rootNodes model else model.nodesById.values
  let nodes := nodes.filter fun node => query.typeElementId.all fun typeElementId =>
    hasType text namespaceInfos typeIds typeElementId node
  nodes.map (toObjectInstance text model
    { includeMetadata := query.includeMetadata, namespaceInfos, typeIds })

end

/-- An element that is shown under whoever lists it as a child: it is no root, no
parent in the hierarchy is known and its kind asks for one. -/
def ShownByLister (model : PublishedModel) (id : String) : Prop :=
  id ∉ model.rootIds ∧ model.hierarchyParentById.get? id = none ∧
    kindOf model id ≠ some .asset ∧ kindOf model id ≠ some .eventSource

instance (model : PublishedModel) (id : String) : Decidable (ShownByLister model id) :=
  inferInstanceAs (Decidable (_ ∧ _))

/-- At most one element lists such an element. -/
def OneLister (model : PublishedModel) : Prop :=
  ∀ id ∈ model.nodesById.keys, ShownByLister model id →
    (model.childrenById.entries.filter fun entry => id ∈ entry.2).length ≤ 1

instance (model : PublishedModel) : Decidable (OneLister model) := List.decidableBAll _ _

/-- Type ids under which every lookup gives the same. -/
structure TypeIdMaps.Same (maps maps' : TypeIdMaps) : Prop where
  byNodeId : ∀ id, maps.byNodeId.get? id = maps'.byNodeId.get? id
  bySourceType : ∀ id, maps.bySourceType.get? id = maps'.bySourceType.get? id

end I3x.Api

namespace I3x.Browse
open Container Mapper Api

/-! ## Objects of models of one revision -/

theorem parentIdForNode_published (browse : Browse) (id : String) : parentIdForNode browse.published id =
    if id ∈ browse.rootIds then none
    else (browse.hierarchyParentById.get? id).or
      (if kindOf browse.published id = some .asset ∨ kindOf browse.published id = some .eventSource then none
        else (reverseParentIndex browse.published).get? id) := by
  have above : browse.published.hierarchyParentById = browse.hierarchyParentById := rfl
  have parents : browse.published.parentById = browse.hierarchyParentById := rfl
  have roots : browse.published.rootIds = browse.rootIds := rfl
  unfold parentIdForNode
  rw [above, parents, roots]
  cases browse.hierarchyParentById.get? id with
  | some parent => rfl
  | none =>
      cases kindOf browse.published id with
      | none => simp
      | some kind => cases kind <;> simp

section
variable {first second : Browse} (nodes : ∀ id, first.nodesById.get? id = second.nodesById.get? id)
include nodes

theorem kindOf_congr (id : String) : kindOf first.published id = kindOf second.published id := by
  simp only [kindOf, published, nodes]

/-- The order of the elements does not matter for an element with one lister. -/
theorem reverseParent_congr {id : String} (inside : id ∈ first.nodesById.keys)
    (shown : ShownByLister first.published id) (one : OneLister first.published) :
    (reverseParentIndex first.published).get? id = (reverseParentIndex second.published).get? id := by
  have parent : first.hierarchyParentById.get? id = none := shown.2.1
  have unlisted (browse : Browse) (top : browse.hierarchyParentById.get? id = none) :
      browse.hierarchyChildrenById.entries.find? (fun entry => decide (id ∈ entry.2)) = none := by
    refine List.find?_eq_none.mpr fun entry m lists => ?_
    have child : id ∈ browse.hierarchyChildrenById.bucket entry.1 := by
      rw [Dict.bucket_of_entry m]
      exact of_decide_eq_true lists
    rw [hierarchyChildrenById, mem_childrenByParent, top] at child
    cases child
  rw [get?_reverseParentIndex, get?_reverseParentIndex]
  simp only [published]
  rw [unlisted first parent, unlisted second (hierarchyParent_congr nodes id ▸ parent), Option.map_none, Option.none_or,
    Option.none_or]
  have entries : (first.nodesById.mapValues fun _ node => node.children).entries.Perm
      (second.nodesById.mapValues fun _ node => node.children).entries :=
    Dict.entries_perm fun k => by rw [Dict.get?_mapValues, Dict.get?_mapValues, nodes]
  rw [find?_perm entries (one id inside shown)]

theorem parentIdForNode_congr (roots : first.rootIds = second.rootIds) (one : OneLister first.published) {id : String}
    (inside : id ∈ first.nodesById.keys) :
    parentIdForNode first.published id = parentIdForNode second.published id := by
  rw [parentIdForNode_published, parentIdForNode_published, ← roots, ← hierarchyParent_congr nodes, ← kindOf_congr nodes]
  by_cases root : id ∈ first.rootIds
  · rw [if_pos root, if_pos root]
  cases parent : first.hierarchyParentById.get? id with
  | some parentId => rw [Option.some_or, Option.some_or]
  | none =>
      by_cases known : kindOf first.published id = some .asset ∨ kindOf first.published id = some .eventSource
      · rw [if_pos known, if_pos known]
      · rw [if_neg known, if_neg known,
          reverseParent_congr nodes inside ⟨root, parent, not_or.mp known⟩ one]

theorem isComposition_congr {node : PublishedNode} (inside : node.id ∈ first.nodesById.keys) :
    compositionChildrenForNode first.published node ≠ [] ↔ compositionChildrenForNode second.published node ≠ [] := by
  have children (browse : Browse) (inside : node.id ∈ browse.nodesById.keys) :
      compositionChildrenForNode browse.published node = browse.compositionChildrenById.bucket node.id := by
    have found : browse.compositionChildrenById.get? node.id = some (browse.compositionChildrenById.bucket node.id) :=
      Dict.get?_of_bucket (browse.childrenByParent_key _ inside)
    change (browse.compositionChildrenById.get? node.id).getD _ = _
    rw [found, Option.getD_some]
  rw [children first inside, children second ((keys_congr nodes _).mp inside), ne_eq, ne_eq,
    List.eq_nil_iff_forall_not_mem, List.eq_nil_iff_forall_not_mem]
  exact not_congr (forall_congr' fun child => not_congr ((compositionChildren_congr nodes).2 node.id child))

theorem relationshipsForNode_congr {node : PublishedNode} (inside : node.id ∈ first.nodesById.keys) :
    relationshipsForNode first.published node = relationshipsForNode second.published node := by
  have stored : storedRelationships first.published node = storedRelationships second.published node := by
    simp only [storedRelationships, published, relationships_congr nodes]
  unfold relationshipsForNode
  rw [← stored]
  split
  · rename_i blank
    have nothing := first.no_targets_of_none_stored (List.isEmpty_iff.mp blank)
    rw [first.derivedRelationships_eq inside nothing, second.derivedRelationships_eq ((keys_congr nodes _).mp inside)
      fun relationship => targets_congr nodes _ relationship ▸ nothing relationship]
  · rfl

end

/-! ## Objects under contexts of one content -/

theorem mem_rootNodes {browse : Browse} {node : PublishedNode} (m : node ∈ rootNodes browse.published) :
    ∃ id, browse.nodesById.get? id = some node := by
  unfold rootNodes at m
  split at m
  · obtain ⟨id, -, found⟩ := List.mem_filterMap.mp m
    exact ⟨id, found⟩
  · exact (Dict.mem_values _ _).mp (List.mem_filter.mp m).1

theorem topNodes_perm {first second : Browse} (nodes : ∀ id, first.nodesById.get? id = second.nodesById.get? id) :
    (topNodes first.published).Perm (topNodes second.published) := by
  have top (id : String) : (id ∈ first.hierarchyParentById.keys ↔ id ∈ second.hierarchyParentById.keys) ∧
      (id ∈ first.compositionParentById.keys ↔ id ∈ second.compositionParentById.keys) := by
    rw [Dict.mem_keys, Dict.mem_keys, Dict.mem_keys, Dict.mem_keys, hierarchyParent_congr nodes,
      compositionParent_congr nodes]
    exact ⟨Iff.rfl, Iff.rfl⟩
  have values : first.nodesById.values.Perm second.nodesById.values := (Dict.entries_perm nodes).map Prod.snd
  simp only [topNodes, published, top]
  exact values.filter _

theorem rootNodes_perm {first second : Browse} (nodes : ∀ id, first.nodesById.get? id = second.nodesById.get? id)
    (roots : first.rootIds = second.rootIds) : (rootNodes first.published).Perm (rootNodes second.published) := by
  have top := topNodes_perm nodes
  have listed : first.published.rootIds.filterMap first.published.nodesById.get? =
      second.published.rootIds.filterMap second.published.nodesById.get? := by
    change first.rootIds.filterMap first.nodesById.get? = second.rootIds.filterMap second.nodesById.get?
    rw [roots, funext nodes]
  unfold rootNodes
  rw [top.isEmpty_eq, listed]
  split
  · exact List.Perm.refl _
  · exact top

section
variable (text : PatternText) {first second : Browse} (nodes : ∀ id, first.nodesById.get? id = second.nodesById.get? id)
  (roots : first.rootIds = second.rootIds) (one : OneLister first.published)
  {typeIds typeIds' : TypeIdMaps} (maps : typeIds.Same typeIds') (namespaceInfos : List NamespaceDetails)

include maps in
theorem resolvedTypeElementId_congr (node : PublishedNode) :
    resolvedTypeElementIdForNode text node namespaceInfos typeIds =
      resolvedTypeElementIdForNode text node namespaceInfos typeIds' := by
  unfold resolvedTypeElementIdForNode
  simp only [maps.byNodeId, maps.bySourceType]

include nodes roots one maps

theorem toObjectInstance_congr {node : PublishedNode} (inside : node.id ∈ first.nodesById.keys)
    (includeMetadata : Bool) :
    toObjectInstance text first.published ⟨includeMetadata, namespaceInfos, typeIds⟩ node =
      toObjectInstance text second.published ⟨includeMetadata, namespaceInfos, typeIds'⟩ node := by
  have parent := parentIdForNode_congr nodes roots one inside
  have composition := isComposition_congr nodes inside
  have relationships := relationshipsForNode_congr nodes inside
  have composed : first.published.compositionParentById.get? node.id = second.published.compositionParentById.get? node.id :=
    compositionParent_congr nodes node.id
  simp only [toObjectInstance, buildObjectInstanceMetadata, resolvedTypeElementId_congr text maps, parent, composition,
    relationships, composed]

/-- **Models of one revision answer a query with the same objects up to order**, under
the same namespaces and type ids. -/
theorem objects_perm (query : ObjectsQuery) :
    (objects text first.published namespaceInfos typeIds query).Perm
      (objects text second.published namespaceInfos typeIds' query) := by
  have selected (browse : Browse) : ∀ node ∈ (if query.root = some true then rootNodes browse.published
      else browse.published.nodesById.values), ∃ id, browse.nodesById.get? id = some node := by
    intro node m
    split at m
    · exact mem_rootNodes m
    · exact (Dict.mem_values _ _).mp m
  have perm : (if query.root = some true then rootNodes first.published else first.published.nodesById.values).Perm
      (if query.root = some true then rootNodes second.published else second.published.nodesById.values) := by
    split
    · exact rootNodes_perm nodes roots
    · exact (Dict.entries_perm nodes).map Prod.snd
  have types (node : PublishedNode) : (query.typeElementId.all fun typeElementId =>
      hasType text namespaceInfos typeIds typeElementId node) = query.typeElementId.all fun typeElementId =>
      hasType text namespaceInfos typeIds' typeElementId node := by
    simp only [hasType, resolvedTypeElementId_congr text maps]
  simp only [objects, types]
  refine (List.Perm.of_eq (List.map_congr_left fun node m => ?_)).trans ((perm.filter _).map _)
  obtain ⟨id, found⟩ := selected first node (List.mem_filter.mp m).1
  obtain ⟨source, -, rfl, rfl⟩ := first.get?_nodesById found
  refine toObjectInstance_congr text nodes roots one maps namespaceInfos ?_ _
  rw [publishedNode_id]
  exact (Dict.mem_keys _ _).mpr ⟨_, found⟩

end
end I3x.Browse

import I3xServer.Api.ParentIds
import I3xServer.Api.TypeElementIds
import I3xServer.Model.Vocabulary

/-!
# Related objects

The query for the objects related to an element reads the relationship map,
translates every stored relationship into a relationship type and filters on the
id of that type. The type of a parent depends on the kind of the element.
-/
namespace I3x.Api
open Container Mapper

/-- A relationship in an element's metadata; the parent stands alone. -/
inductive RelationshipValue where
  | one (target : Option String)
  | many (targets : List String)
  deriving DecidableEq, Repr

structure ObjectInstanceMetadata where
  typeNamespaceUri : Option String
  sourceTypeId : String
  description : String
  compositionParentId : Option String
  relationships : Dict String RelationshipValue

structure ObjectInstanceResponse where
  elementId : String
  displayName : String
  typeElementId : String
  parentId : Option String
  isComposition : Bool
  isExtended : Bool
  metadata : Option ObjectInstanceMetadata

structure RelatedObjectResult where
  sourceRelationship : String
  object : ObjectInstanceResponse

/-- What a response is rendered with. -/
structure ObjectContext where
  includeMetadata : Bool
  namespaceInfos : List NamespaceDetails
  typeIds : TypeIdMaps

def childrenOfKind (model : PublishedModel) (node : PublishedNode) (ofKind : NodeKind → Bool) : List String :=
  (model.childrenById.bucket node.id).filter fun child => (kindOf model child).any ofKind

def hierarchyChildrenForNode (model : PublishedModel) (node : PublishedNode) : List String :=
  (model.hierarchyChildrenById.get? node.id).getD (childrenOfKind model node (· ≠ .property))

def compositionChildrenForNode (model : PublishedModel) (node : PublishedNode) : List String :=
  (model.compositionChildrenById.get? node.id).getD (childrenOfKind model node (· = .property))

def storedRelationships (model : PublishedModel) (node : PublishedNode) : Dict String (List String) :=
  ((model.relationshipsById.get? node.id).getD .empty).filterMapValues fun _ targets =>
    if targets = [] then none else some targets

def setIfAny (relationships : Dict String (List String)) (name : String) (targets : List String) :
    Dict String (List String) := if targets = [] then relationships else relationships.set name targets

/-- The relationships of an element for which none are stored. -/
def derivedRelationships (model : PublishedModel) (node : PublishedNode) : Dict String (List String) :=
  setIfAny
    (setIfAny (setIfAny .empty "HasParent" (parentIdForNode model node.id).toList) "HasChildren"
      (hierarchyChildrenForNode model node))
    "HasComponent" (compositionChildrenForNode model node)

def relationshipsForNode (model : PublishedModel) (node : PublishedNode) : Dict String (List String) :=
  if (storedRelationships model node).entries.isEmpty then derivedRelationships model node
  else storedRelationships model node

def relationshipTypeToParent (node : PublishedNode) : RelationshipType :=
  if node.kind = .property then structuralType "ComponentOf" "HasComponent"
  else structuralType "HasParent" "HasChildren"

def relationshipTypeForName (name : String) (node : PublishedNode) : RelationshipType :=
  if name = "HasChildren" then structuralType "HasChildren" "HasParent"
  else if name = "HasParent" then relationshipTypeToParent node
  else if name = "HasComponent" then structuralType "HasComponent" "ComponentOf"
  else if name = "ComponentOf" then structuralType "ComponentOf" "HasComponent"
  else structuralType name ""

section
variable (text : PatternText) (model : PublishedModel) (context : ObjectContext)

def buildObjectInstanceMetadata (node : PublishedNode) (typeNamespaceUri : Option String)
    (sourceTypeIdExpanded : String) : ObjectInstanceMetadata where
  typeNamespaceUri
  sourceTypeId := sourceTypeIdExpanded
  description :=
    if text.strip (node.description.getD "") = "" then "Derived from model node " ++ node.name
    else node.description.getD ""
  compositionParentId := model.compositionParentById.get? node.id
  relationships := (relationshipsForNode model node).mapValues fun name targets =>
    if name = "HasParent" then .one targets.head? else .many targets

def toObjectInstance (node : PublishedNode) : ObjectInstanceResponse :=
  let sourceTypeId := if node.sourceTypeId.getD "" = "" then node.sourceNodeId else node.sourceTypeId.getD ""
  let sourceTypeIdExpanded := expandedNodeId text sourceTypeId context.namespaceInfos
  let typeElementId := resolvedTypeElementIdForNode text node context.namespaceInfos context.typeIds
  { elementId := node.id
    displayName := node.name
    typeElementId
    parentId := parentIdForNode model node.id
    isComposition := compositionChildrenForNode model node ≠ []
    isExtended := false
    metadata :=
      if context.includeMetadata then
        some (buildObjectInstanceMetadata text model node
          (resolveTypeNamespaceUri text typeElementId sourceTypeIdExpanded context.namespaceInfos)
          sourceTypeIdExpanded)
      else none }

/-- The results for the targets of one relationship. -/
def relatedTargets (label : String) (targetIds : List String) : List RelatedObjectResult :=
  targetIds.filterMap fun targetId =>
    (model.nodesById.get? targetId).map fun target => ⟨label, toObjectInstance text model context target⟩

/-- `_build_related_objects_for_node`. -/
def relatedObjects (node : PublishedNode) (relationshipTypeFilter : Option String) : List RelatedObjectResult :=
  (relationshipsForNode model node).entries.flatMap fun entry =>
    let relationship := relationshipTypeForName entry.1 node
    if relationshipTypeFilter.any (relationship.elementId ≠ ·) then []
    else relatedTargets text model context relationship.displayName entry.2

/-- The query answers with exactly the stored relationships of an element, each
under its own id. -/
structure RelatedFaithfully (node : PublishedNode) (ids : List String) : Prop where
  filtered : ∀ relationship ∈ ids, List.Forall₂
    (fun targetId result => ∃ target, model.nodesById.get? targetId = some target ∧
      result = ⟨relationship, toObjectInstance text model context target⟩)
    (model.relationshipsById.targets node.id relationship) (relatedObjects text model context node (some relationship))
  unfiltered : (relatedObjects text model context node none).Perm
    (ids.dedup.flatMap fun relationship => relatedObjects text model context node (some relationship))
  disjoint : ((relatedObjects text model context node none).map fun result =>
    (result.sourceRelationship, result.object.elementId)).Nodup

end

/-! ## The stored relationships -/

theorem bucket_storedRelationships (model : PublishedModel) (node : PublishedNode) (relationship : String) :
    (storedRelationships model node).bucket relationship = model.relationshipsById.targets node.id relationship := by
  rw [Dict.bucket, storedRelationships, Dict.get?_filterMapValues, Relationships.targets, Dict.bucket]
  cases ((model.relationshipsById.get? node.id).getD Dict.empty).get? relationship with
  | none => rfl
  | some targets =>
      rw [Option.bind_some, Option.getD_some]
      split
      · rename_i blank
        rw [blank, Option.getD_none]
      · rw [Option.getD_some]

theorem key_storedRelationships {model : PublishedModel} {node : PublishedNode} {relationship : String}
    (m : relationship ∈ (storedRelationships model node).keys) :
    model.relationshipsById.targets node.id relationship ≠ [] ∧
      ∃ byRelationship, model.relationshipsById.get? node.id = some byRelationship ∧
        relationship ∈ byRelationship.keys := by
  obtain ⟨targets, found⟩ := (Dict.mem_keys _ _).mp m
  have filled := found
  rw [storedRelationships, Dict.get?_filterMapValues, Option.bind_eq_some_iff] at filled
  obtain ⟨kept, inside, given⟩ := filled
  split at given
  · cases given
  · rename_i some_target
    cases given
    refine ⟨?_, ?_⟩
    · rw [← bucket_storedRelationships, Dict.bucket_eq found]
      exact some_target
    · cases known : model.relationshipsById.get? node.id with
      | none =>
          rw [known] at inside
          cases inside
      | some byRelationship =>
          rw [known] at inside
          exact ⟨byRelationship, rfl, (Dict.mem_keys _ _).mpr ⟨_, inside⟩⟩

/-- Only the parent of a property is not listed under the stored name. -/
theorem relationshipTypeForName_eq (name : String) (node : PublishedNode)
    (known : node.kind ≠ .property ∨ name ≠ "HasParent") :
    (relationshipTypeForName name node).elementId = name ∧ (relationshipTypeForName name node).displayName = name := by
  unfold relationshipTypeForName
  split_ifs with children parent component composed
  · exact ⟨children.symm, children.symm⟩
  · have other := known.resolve_right fun distinct => distinct parent
    rw [relationshipTypeToParent, if_neg other]
    exact ⟨parent.symm, parent.symm⟩
  · exact ⟨component.symm, component.symm⟩
  · exact ⟨composed.symm, composed.symm⟩
  · exact ⟨rfl, rfl⟩

/-- No relationship of a property has the type of a parent in the hierarchy. -/
theorem relationshipTypeForName_ne (name : String) {node : PublishedNode} (property : node.kind = .property) :
    (relationshipTypeForName name node).elementId ≠ "HasParent" := by
  unfold relationshipTypeForName
  split_ifs with children parent component composed
  · exact nofun
  · rw [relationshipTypeToParent, if_pos property]
    exact nofun
  · exact nofun
  · exact nofun
  · exact parent

end I3x.Api

namespace I3x.Browse
open Container Mapper Api
variable (browse : Browse)

theorem mem_parent_targets (id parent : String) :
    parent ∈ browse.relationshipsById.targets id "HasParent" ↔ browse.hierarchyParentById.get? id = some parent := by
  rw [mem_relationships_structural _ _ _ _ (by decide)]
  simp only [true_and, false_and, or_false, false_or, String.reduceEq]
  exact browse.mem_childrenByParent browse.hierarchyParentById parent id

theorem mem_composed_targets (id parent : String) :
    parent ∈ browse.relationshipsById.targets id "ComponentOf" ↔
      browse.compositionParentById.get? id = some parent := by
  rw [mem_relationships_structural _ _ _ _ (by decide)]
  simp only [true_and, false_and, false_or, String.reduceEq]
  exact browse.mem_childrenByParent browse.compositionParentById parent id

theorem mem_children_targets (id child : String) :
    child ∈ browse.relationshipsById.targets id "HasChildren" ↔ child ∈ browse.hierarchyChildrenById.bucket id := by
  rw [mem_relationships_structural _ _ _ _ (by decide)]
  simp only [true_and, false_and, or_false, String.reduceEq]

theorem mem_component_targets (id child : String) :
    child ∈ browse.relationshipsById.targets id "HasComponent" ↔
      child ∈ browse.compositionChildrenById.bucket id := by
  rw [mem_relationships_structural _ _ _ _ (by decide)]
  simp only [true_and, false_and, or_false, false_or, String.reduceEq]

theorem childrenByParent_key (parentById : Dict String String) {id : String} (inside : id ∈ browse.nodesById.keys) :
    id ∈ (browse.childrenByParent parentById).keys := by
  rw [childrenByParent, Dict.keys_pushAll]
  refine .inl ?_
  obtain ⟨source, m, same⟩ := (browse.mem_keys_nodesById id).mp inside
  rw [noChildren, Dict.ofList, Dict.keys_update, List.map_map]
  exact .inr (List.mem_map.mpr ⟨source, m, same⟩)

/-- An element without stored relationships has no derived ones either. -/
theorem derivedRelationships_eq {node : PublishedNode} (inside : node.id ∈ browse.nodesById.keys)
    (none_stored : ∀ relationship, browse.relationshipsById.targets node.id relationship = []) :
    derivedRelationships browse.published node = .empty := by
  have no_parent : browse.resolvedParentId node.id = none := by
    rw [Option.eq_none_iff_forall_ne_some]
    intro parent h
    obtain ⟨l, leads | ⟨leads, -⟩, target, source⟩ := (browse.resolvedParentId_iff _ _).mp h
    · have m := (browse.mem_parent_targets node.id parent).mpr ((browse.hierarchyParent_iff _ _).mpr ⟨l, leads, target, source⟩)
      rw [none_stored] at m
      cases m
    · have m := (browse.mem_composed_targets node.id parent).mpr
        ((browse.compositionParent_iff _ _).mpr ⟨l, leads, target, source⟩)
      rw [none_stored] at m
      cases m
  have no_children : browse.hierarchyChildrenById.bucket node.id = [] := by
    rw [List.eq_nil_iff_forall_not_mem]
    intro child m
    have stored := (browse.mem_children_targets node.id child).mpr m
    rw [none_stored] at stored
    cases stored
  have no_components : browse.compositionChildrenById.bucket node.id = [] := by
    rw [List.eq_nil_iff_forall_not_mem]
    intro child m
    have stored := (browse.mem_component_targets node.id child).mpr m
    rw [none_stored] at stored
    cases stored
  have response : parentIdForNode browse.published node.id = none :=
    if_pos ((browse.mem_rootIds _).mpr ⟨inside, no_parent⟩)
  have hierarchy : hierarchyChildrenForNode browse.published node = [] := by
    have found : browse.hierarchyChildrenById.get? node.id = some (browse.hierarchyChildrenById.bucket node.id) :=
      Dict.get?_of_bucket (browse.childrenByParent_key _ inside)
    change (browse.hierarchyChildrenById.get? node.id).getD _ = []
    rw [found, no_children, Option.getD_some]
  have composition : compositionChildrenForNode browse.published node = [] := by
    have found : browse.compositionChildrenById.get? node.id = some (browse.compositionChildrenById.bucket node.id) :=
      Dict.get?_of_bucket (browse.childrenByParent_key _ inside)
    change (browse.compositionChildrenById.get? node.id).getD _ = []
    rw [found, no_components, Option.getD_some]
  rw [derivedRelationships, response, hierarchy, composition]
  rfl

theorem published_targets (id relationship : String) :
    browse.published.relationshipsById.targets id relationship = browse.relationshipsById.targets id relationship := by
  simp only [published]

theorem stored_targets (node : PublishedNode) (relationship : String) :
    (storedRelationships browse.published node).bucket relationship =
      browse.relationshipsById.targets node.id relationship := by
  rw [bucket_storedRelationships, published_targets]

theorem no_targets_of_none_stored {node : PublishedNode}
    (blank : (storedRelationships browse.published node).entries = []) (relationship : String) :
    browse.relationshipsById.targets node.id relationship = [] := by
  rw [← stored_targets, Dict.bucket, Dict.get?, blank]
  rfl

/-- The query sees the relationship map itself. -/
theorem bucket_relationshipsForNode {node : PublishedNode} (inside : node.id ∈ browse.nodesById.keys)
    (relationship : String) :
    (relationshipsForNode browse.published node).bucket relationship =
      browse.relationshipsById.targets node.id relationship := by
  unfold relationshipsForNode
  split
  · rename_i blank
    have nothing := browse.no_targets_of_none_stored (List.isEmpty_iff.mp blank)
    rw [browse.derivedRelationships_eq inside nothing, nothing]
    rfl
  · exact browse.stored_targets node relationship

theorem key_relationshipsForNode {node : PublishedNode} (inside : node.id ∈ browse.nodesById.keys)
    {relationship : String} (m : relationship ∈ (relationshipsForNode browse.published node).keys) :
    relationship ∈ (storedRelationships browse.published node).keys := by
  unfold relationshipsForNode at m
  split at m
  · rename_i blank
    have nothing := browse.no_targets_of_none_stored (List.isEmpty_iff.mp blank)
    rw [browse.derivedRelationships_eq inside nothing] at m
    cases m
  · exact m

theorem target_present {id relationship target : String}
    (m : target ∈ browse.relationshipsById.targets id relationship) :
    ∃ node, browse.nodesById.get? target = some node ∧ node.id = target := by
  have related : browse.published.Related id target := ⟨relationship, by rw [published_targets]; exact m⟩
  obtain ⟨l, present, -, joins⟩ := (browse.related_iff id target).mp related
  have inside : target ∈ browse.nodesById.keys := by
    rw [mem_keys_nodesById]
    rcases joins with ⟨-, same⟩ | ⟨same, -⟩
    · exact ⟨_, browse.link_target present, same⟩
    · exact ⟨_, browse.link_source present, same⟩
  obtain ⟨node, found⟩ := (Dict.mem_keys _ _).mp inside
  obtain ⟨source, -, same, rfl⟩ := browse.get?_nodesById found
  exact ⟨_, found, (browse.publishedNode_id source).trans same⟩

/-! ## The answers of the query -/

section
variable (text : PatternText) (context : ObjectContext)

/-- Every target that is an element of the model gives one result. -/
theorem relatedTargets_results (label : String) {targetIds : List String}
    (present : ∀ target ∈ targetIds, ∃ node, browse.nodesById.get? target = some node ∧ node.id = target) :
    List.Forall₂ (fun targetId result => ∃ target, browse.published.nodesById.get? targetId = some target ∧
        result = ⟨label, toObjectInstance text browse.published context target⟩)
      targetIds (relatedTargets text browse.published context label targetIds) ∧
    ((relatedTargets text browse.published context label targetIds).map fun result =>
      (result.sourceRelationship, result.object.elementId)) = targetIds.map fun target => (label, target) := by
  induction targetIds with
  | nil => exact ⟨.nil, rfl⟩
  | cons target rest ih =>
      obtain ⟨node, found, same⟩ := present target List.mem_cons_self
      have found : browse.published.nodesById.get? target = some node := found
      obtain ⟨results, ids⟩ := ih fun other m => present other (List.mem_cons_of_mem _ m)
      have step : relatedTargets text browse.published context label (target :: rest) =
          ⟨label, toObjectInstance text browse.published context node⟩ ::
            relatedTargets text browse.published context label rest := by
        rw [relatedTargets, List.filterMap_cons, found]
        rfl
      rw [step]
      refine ⟨.cons ⟨node, found, rfl⟩ results, ?_⟩
      rw [List.map_cons, List.map_cons, ids]
      congr 2

variable {node : PublishedNode}
  (plain : ∀ name ∈ (relationshipsForNode browse.published node).keys, node.kind ≠ .property ∨ name ≠ "HasParent")
include plain

theorem relatedObjects_unfiltered :
    relatedObjects text browse.published context node none =
      (relationshipsForNode browse.published node).entries.flatMap fun entry =>
        relatedTargets text browse.published context entry.1 entry.2 := by
  refine List.flatMap_congr fun entry m => ?_
  obtain ⟨-, label⟩ := relationshipTypeForName_eq entry.1 node (plain _ (List.mem_map.mpr ⟨entry, m, rfl⟩))
  dsimp only
  rw [label]
  rfl

variable (inside : node.id ∈ browse.nodesById.keys)
include inside

theorem relatedObjects_filtered (relationship : String) :
    relatedObjects text browse.published context node (some relationship) =
      relatedTargets text browse.published context relationship
        (browse.relationshipsById.targets node.id relationship) := by
  have one := Dict.flatMap_entries_key (relationshipsForNode browse.published node) relationship
    (relatedTargets text browse.published context relationship) rfl
  rw [← browse.bucket_relationshipsForNode inside, ← one]
  refine List.flatMap_congr fun entry m => ?_
  obtain ⟨id, label⟩ := relationshipTypeForName_eq entry.1 node (plain _ (List.mem_map.mpr ⟨entry, m, rfl⟩))
  dsimp only
  rw [id, label]
  by_cases same : entry.1 = relationship
  · rw [if_pos same, if_neg (by simp [same]), same]
  · rw [if_neg same, if_pos (by simp [same])]

theorem relatedObjects_disjoint :
    ((relatedObjects text browse.published context node none).map fun result =>
      (result.sourceRelationship, result.object.elementId)).Nodup := by
  have entries : ∀ entry ∈ (relationshipsForNode browse.published node).entries,
      entry.2 = browse.relationshipsById.targets node.id entry.1 := fun entry m =>
    (Dict.bucket_of_entry m).symm.trans (browse.bucket_relationshipsForNode inside entry.1)
  rw [browse.relatedObjects_unfiltered text context plain, List.map_flatMap]
  have ids : (relationshipsForNode browse.published node).entries.flatMap (fun entry =>
      (relatedTargets text browse.published context entry.1 entry.2).map fun result =>
        (result.sourceRelationship, result.object.elementId)) =
      (relationshipsForNode browse.published node).entries.flatMap fun entry =>
        entry.2.map fun target => (entry.1, target) :=
    List.flatMap_congr fun entry m => (browse.relatedTargets_results text context entry.1 fun target inside =>
      browse.target_present (entries entry m ▸ inside)).2
  rw [ids, List.nodup_flatMap]
  constructor
  · intro entry m
    rw [entries entry m]
    exact (browse.nodup_relationships _ _).map fun _ _ eq => congrArg Prod.snd eq
  · refine (List.pairwise_map.mp (relationshipsForNode browse.published node).nodup).imp fun apart => ?_
    intro pair first second
    obtain ⟨_, -, rfl⟩ := List.mem_map.mp first
    obtain ⟨_, -, eq⟩ := List.mem_map.mp second
    exact apart (congrArg Prod.fst eq).symm

end

/-- **The query is faithful for an element exactly if the element is no property
or has no parent in the hierarchy.** -/
theorem relatedFaithfully_iff {model : VocabularyModel} (built : browse.buildVocabulary = .ok model) {id : String}
    {node : PublishedNode} (found : model.nodesById.get? id = some node) (text : PatternText) (context : ObjectContext) :
    (∃ items, relationshipTypeItems (some model) = some items ∧
        RelatedFaithfully text model.toPublishedModel context node (items.map RelationshipType.elementId)) ↔
      node.kind ≠ .property ∨ model.hierarchyParentById.get? id = none := by
  obtain ⟨-, rfl⟩ := browse.buildVocabulary_ok built
  have found : browse.nodesById.get? id = some node := found
  obtain ⟨source, -, same, rfl⟩ := browse.get?_nodesById found
  have own : (browse.publishedNode source).id = id := (browse.publishedNode_id source).trans same
  have inside : (browse.publishedNode source).id ∈ browse.nodesById.keys := own ▸ (Dict.mem_keys _ _).mpr ⟨_, found⟩
  rw [browse.relationshipTypeItems_eq]
  have parent : browse.publishedVocabulary.hierarchyParentById.get? id = none ↔
      browse.relationshipsById.targets (browse.publishedNode source).id "HasParent" = [] := by
    rw [own, List.eq_nil_iff_forall_not_mem, Option.eq_none_iff_forall_ne_some]
    exact forall_congr' fun target => not_congr (browse.mem_parent_targets id target).symm
  rw [parent]
  constructor
  · rintro ⟨items, listed, faithful⟩
    obtain rfl := Option.some.inj listed
    by_contra defective
    obtain ⟨property, filled⟩ := not_or.mp defective
    have answered := faithful.filtered "HasParent" ((mem_vocabulary_ids _ _).mpr (.inl (by decide)))
    have nothing : relatedObjects text browse.published context (browse.publishedNode source) (some "HasParent") = [] := by
      refine List.flatMap_eq_nil_iff.mpr fun entry _ => if_pos ?_
      simpa using relationshipTypeForName_ne entry.1 (not_not.mp property)
    change List.Forall₂ _ (browse.published.relationshipsById.targets _ _) (relatedObjects text browse.published _ _ _)
      at answered
    rw [nothing, published_targets, List.forall₂_nil_right_iff] at answered
    exact filled answered
  · intro condition
    have plain : ∀ name ∈ (relationshipsForNode browse.published (browse.publishedNode source)).keys,
        (browse.publishedNode source).kind ≠ .property ∨ name ≠ "HasParent" := by
      refine fun name m => condition.imp_right ?_
      rintro blank rfl
      obtain ⟨filled, -⟩ := key_storedRelationships (browse.key_relationshipsForNode inside m)
      rw [published_targets] at filled
      exact filled blank
    have vocabulary_key : ∀ name ∈ (relationshipsForNode browse.published (browse.publishedNode source)).keys,
        name ∈ ((vocabulary browse.graphRelationshipTypes).map RelationshipType.elementId).dedup := by
      intro name m
      obtain ⟨-, byRelationship, found, key⟩ := key_storedRelationships (browse.key_relationshipsForNode inside m)
      simp only [published] at found
      rw [List.mem_dedup, mem_vocabulary_ids]
      simpa only [mem_graphRelationshipTypes_names] using browse.relationship_key found key
    refine ⟨_, rfl, ⟨fun relationship _ => ?_, ?_, browse.relatedObjects_disjoint text context plain inside⟩⟩
    · change List.Forall₂ _ (browse.published.relationshipsById.targets _ _) (relatedObjects text browse.published _ _ _)
      rw [browse.relatedObjects_filtered text context plain inside, published_targets]
      exact (browse.relatedTargets_results text context relationship fun target m => browse.target_present m).1
    · change (relatedObjects text browse.published _ _ _).Perm
        (List.flatMap (fun relationship => relatedObjects text browse.published _ _ (some relationship)) _)
      rw [browse.relatedObjects_unfiltered text context plain]
      have spread := (relationshipsForNode browse.published (browse.publishedNode source)).flatMap_entries_perm
        (List.nodup_dedup _) vocabulary_key (relatedTargets text browse.published context) fun _ => rfl
      refine spread.trans (List.Perm.of_eq (List.flatMap_congr fun relationship _ => ?_))
      rw [browse.relatedObjects_filtered text context plain inside, browse.bucket_relationshipsForNode inside]

end I3x.Browse

namespace I3x
open Container Api

/-- An object that organizes a variable. -/
def Plant.organized : Browse :=
  browse [node "A" "Object" [organizes "B"], node "B" "Variable" []]

theorem Plant.organized_accepted : Plant.organized.refusal = none := by decide

theorem Plant.organized_found : Plant.organized.publishedVocabulary.nodesById.get? "property-cd1e6b2d19c59f72" =
    some (Plant.organized.publishedNode (Plant.node "B" "Variable" [])) := rfl

def Plant.context : ObjectContext where
  includeMetadata := false
  namespaceInfos := [⟨⟨NodeIds.standardNamespace⟩, none, none⟩, ⟨⟨"urn:plant"⟩, none, none⟩]
  typeIds := ⟨.empty, .empty⟩

theorem Browse.organized_related_iff :
    (∃ items, relationshipTypeItems (some Plant.organized.publishedVocabulary) = some items ∧
        RelatedFaithfully .ascii Plant.organized.publishedVocabulary.toPublishedModel Plant.context
          (Plant.organized.publishedNode (Plant.node "B" "Variable" [])) (items.map RelationshipType.elementId)) ↔
      (Plant.organized.publishedNode (Plant.node "B" "Variable" [])).kind ≠ .property ∨
        Plant.organized.publishedVocabulary.hierarchyParentById.get? "property-cd1e6b2d19c59f72" = none :=
  Plant.organized.relatedFaithfully_iff (Plant.organized.buildVocabulary_accepted Plant.organized_accepted)
    Plant.organized_found .ascii Plant.context

/-- **A variable that an object organizes has a parent, but the query for its
parents answers with nothing.** -/
theorem Browse.organized_not_related :
    Plant.organized.buildVocabulary = .ok Plant.organized.publishedVocabulary ∧
      Plant.organized.publishedVocabulary.nodesById.get? "property-cd1e6b2d19c59f72" =
        some (Plant.organized.publishedNode (Plant.node "B" "Variable" [])) ∧
      ¬ ∃ items, relationshipTypeItems (some Plant.organized.publishedVocabulary) = some items ∧
        RelatedFaithfully .ascii Plant.organized.publishedVocabulary.toPublishedModel Plant.context
          (Plant.organized.publishedNode (Plant.node "B" "Variable" [])) (items.map RelationshipType.elementId) := by
  refine ⟨Plant.organized.buildVocabulary_accepted Plant.organized_accepted, Plant.organized_found, ?_⟩
  rintro ⟨items, listed, faithful⟩
  have ids : (relationshipTypeItems (some Plant.organized.publishedVocabulary)).map
      (List.map RelationshipType.elementId) = some ["HasParent", "HasChildren", "HasComponent", "ComponentOf"] := by
    decide
  rw [listed, Option.map_some, Option.some.injEq] at ids
  have answered := (faithful.filtered "HasParent" (by rw [ids]; decide)).length_eq
  have stored : (Plant.organized.publishedVocabulary.relationshipsById.targets "property-cd1e6b2d19c59f72"
      "HasParent").length = 1 := by decide
  have nothing : (relatedObjects .ascii Plant.organized.publishedVocabulary.toPublishedModel Plant.context
      (Plant.organized.publishedNode (Plant.node "B" "Variable" [])) (some "HasParent")).length = 0 := by decide
  have own : (Plant.organized.publishedNode (Plant.node "B" "Variable" [])).id = "property-cd1e6b2d19c59f72" := by
    decide
  rw [own, stored, nothing] at answered
  cases answered

end I3x

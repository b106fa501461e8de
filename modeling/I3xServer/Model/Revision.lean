import I3xServer.Container.Json
import I3xServer.Model.Vocabulary

/-!
# The revision of a model

The revision is the hash of a text: one line for every node, and a last line for
the indexes that the nodes do not imply. The text determines all that it is made of.
-/
namespace I3x
open Container Mapper

def SemanticRole.text : SemanticRole → String
  | .asset => "asset"
  | .group => "group"
  | .component => "component"
  | .datapoint => "datapoint"
  | .property => "property"
  | .unknown => "unknown"

def MappingConfidence.text : MappingConfidence → String
  | .high => "high"
  | .medium => "medium"
  | .low => "low"

/-- A built model with the indexes by type, kind and role. -/
structure LookupModel extends VocabularyModel where
  instancesByTypeId : Dict String (List String)
  propertyToNode : Dict String String
  actionToMethod : Dict String (String × String)
  nodeIdByName : Dict String String
  nodeIdByType : Dict String String
  semanticRoleById : Dict String SemanticRole
  mappingConfidenceById : Dict String MappingConfidence
  appliedProfileIdsById : Dict String (List String)
  namespaceUriById : Dict String (Option String)

structure RevisedModel extends LookupModel where
  revision : String

/-! ## Documents -/

namespace PublishedNode

/-- The metadata of a node; what the browsed node does not have is left out. -/
def metadata (node : PublishedNode) : List (String × Option Json) :=
  [("uaNodeId", some (.string node.uaNodeId)),
    ("expandedNodeId", some (.string node.expandedNodeId)),
    ("uaTypeNodeId", some (Json.optional node.sourceTypeId)),
    ("namespaceUri", some (Json.optional node.namespaceUri)),
    ("appliedProfileIds", some (Json.strings node.appliedProfileIds)),
    ("description", node.description.map .string),
    ("accessLevel", node.accessLevel.map .number),
    ("userAccessLevel", node.userAccessLevel.map .number),
    ("writable", node.writable.map .bool),
    ("executable", node.executable.map .bool),
    ("userExecutable", node.userExecutable.map .bool)]

def modelDumpJson (node : PublishedNode) : Json :=
  .object
    [("id", .string node.id),
      ("name", .string node.name),
      ("kind", .string node.kind.text),
      ("type", Json.optional node.type),
      ("children", Json.strings node.children),
      ("source_node_id", .string node.sourceNodeId),
      ("source_type_id", Json.optional node.sourceTypeId),
      ("parent_id", Json.optional node.parentId),
      ("is_composition", .bool node.isComposition),
      ("semantic_role", .string node.semanticRole.text),
      ("mapping_confidence", .string node.mappingConfidence.text),
      ("relationships", .object (node.relationships.entries.map fun entry => (entry.1, Json.strings entry.2))),
      ("metadata", .object (Json.present node.metadata))]

end PublishedNode

namespace LookupModel
variable (model : LookupModel)

/-- The nodes in the order of their ids. -/
def sortedNodes : List PublishedNode :=
  (sorted model.nodesById.keys.toFinset).filterMap model.nodesById.get?

/-- The members of the last document. -/
def extraMembers : List (String × Json) :=
  [("root_ids", Json.strings model.rootIds),
    ("action_to_method", Json.dictObject (fun method => Json.strings [method.1, method.2]) model.actionToMethod),
    ("node_id_by_name", Json.dictObject .string model.nodeIdByName),
    ("node_id_by_type", Json.dictObject .string model.nodeIdByType),
    ("graph_relationship_names", Json.strings (sorted model.graphRelationshipNames.toFinset)),
    ("graph_relationship_namespace_by_id", Json.dictObject .string model.graphRelationshipNamespaceById),
    ("graph_relationship_display_name_by_id", Json.dictObject .string model.graphRelationshipDisplayNameById)]

def extra : Json := Json.sortedObject model.extraMembers

end LookupModel

/-- Characters that the dump of a node leaves as they are. -/
def plainInDump (c : Char) : Bool := ' ' ≤ c

/-- Characters that the last document leaves as they are. -/
def plainInExtra (c : Char) : Bool := ' ' ≤ c && c ≤ '~'

def computeModelRevision (digest : String → String) (model : LookupModel) : String :=
  digest (Json.lines plainInDump plainInExtra (model.sortedNodes.map PublishedNode.modelDumpJson) model.extra)

/-! ## What the text determines -/

attribute [ext] PublishedNode

theorem NodeKind.text_injective : Function.Injective NodeKind.text := by
  intro kind kind' same
  cases kind <;> cases kind' <;> first | rfl | exact absurd same (by decide)

theorem SemanticRole.text_injective : Function.Injective SemanticRole.text := by
  intro role role' same
  cases role <;> cases role' <;> first | rfl | exact absurd same (by decide)

theorem MappingConfidence.text_injective : Function.Injective MappingConfidence.text := by
  intro confidence confidence' same
  cases confidence <;> cases confidence' <;> first | rfl | exact absurd same (by decide)

theorem PublishedNode.metadata_inj {node node' : PublishedNode}
    (same : Json.present node.metadata = Json.present node'.metadata) : node.metadata = node'.metadata := by
  have names (node : PublishedNode) : node.metadata.map Prod.fst = ["uaNodeId", "expandedNodeId", "uaTypeNodeId",
      "namespaceUri", "appliedProfileIds", "description", "accessLevel", "userAccessLevel", "writable", "executable",
      "userExecutable"] := rfl
  exact Json.present_inj ((names node).trans (names node').symm) (by rw [names]; decide) same

/-- The dump of a node loses nothing. -/
theorem PublishedNode.modelDumpJson_injective : Function.Injective PublishedNode.modelDumpJson := by
  intro node node' same
  simp only [modelDumpJson, Json.object.injEq, List.cons.injEq, Prod.mk.injEq, true_and, and_true, Json.string.injEq,
    Json.bool.injEq, Json.optional_injective.eq_iff, Json.strings_injective.eq_iff, NodeKind.text_injective.eq_iff,
    SemanticRole.text_injective.eq_iff, MappingConfidence.text_injective.eq_iff] at same
  obtain ⟨id, name, kind, type, children, sourceNodeId, sourceTypeId, parentId, isComposition, semanticRole,
    mappingConfidence, relationships, metadata⟩ := same
  have entries : node.relationships.entries = node'.relationships.entries := by
    refine List.map_injective_iff.mpr (fun entry entry' same => ?_) relationships
    exact Prod.ext (Prod.mk.inj same).1 (Json.strings_injective (Prod.mk.inj same).2)
  have members := metadata_inj metadata
  have option {V : Type} {f : V → Json} (injective : Function.Injective f) : Function.Injective (Option.map f) :=
    Option.map_injective injective
  simp only [PublishedNode.metadata, List.cons.injEq, Prod.mk.injEq, true_and, and_true, Option.some.injEq,
    Json.string.injEq, Json.strings_injective.eq_iff, (option fun _ _ => Json.string.inj).eq_iff,
    (option fun _ _ => Json.number.inj).eq_iff, (option fun _ _ => Json.bool.inj).eq_iff,
    Json.optional_injective.eq_iff] at members
  obtain ⟨uaNodeId, expandedNodeId, -, namespaceUri, appliedProfileIds, description, accessLevel, userAccessLevel,
    writable, executable, userExecutable⟩ := members
  exact PublishedNode.ext id name kind type children sourceNodeId parentId sourceTypeId (Dict.ext_entries entries)
    isComposition semanticRole mappingConfidence uaNodeId expandedNodeId namespaceUri appliedProfileIds description
    accessLevel userAccessLevel writable executable userExecutable

namespace LookupModel

/-- What the last document says of a model. -/
structure SameExtra (model model' : LookupModel) : Prop where
  rootIds : model.rootIds = model'.rootIds
  actions : ∀ id, model.actionToMethod.get? id = model'.actionToMethod.get? id
  nodeIdsByName : ∀ name, model.nodeIdByName.get? name = model'.nodeIdByName.get? name
  nodeIdsByType : ∀ type, model.nodeIdByType.get? type = model'.nodeIdByType.get? type
  names : ∀ name, name ∈ model.graphRelationshipNames ↔ name ∈ model'.graphRelationshipNames
  namespaces : ∀ name, model.graphRelationshipNamespaceById.get? name = model'.graphRelationshipNamespaceById.get? name
  displayNames : ∀ name,
    model.graphRelationshipDisplayNameById.get? name = model'.graphRelationshipDisplayNameById.get? name

theorem sameExtra {model model' : LookupModel} (same : model.extra = model'.extra) : SameExtra model model' := by
  have names (model : LookupModel) : model.extraMembers.map Prod.fst = ["root_ids", "action_to_method",
      "node_id_by_name", "node_id_by_type", "graph_relationship_names", "graph_relationship_namespace_by_id",
      "graph_relationship_display_name_by_id"] := rfl
  have member := Json.lookup_of_sortedObject (by rw [names]; decide) (by rw [names]; decide) same
  have text : Function.Injective Json.string := fun _ _ => Json.string.inj
  have method : Function.Injective fun method : String × String => Json.strings [method.1, method.2] :=
    fun _ _ eq => by
      have parts := Json.strings_injective eq
      simp only [List.cons.injEq, and_true] at parts
      exact Prod.ext parts.1 parts.2
  constructor
  · exact Json.strings_injective (Option.some.inj (member "root_ids"))
  · exact Json.get?_of_dictObject method (Option.some.inj (member "action_to_method"))
  · exact Json.get?_of_dictObject text (Option.some.inj (member "node_id_by_name"))
  · exact Json.get?_of_dictObject text (Option.some.inj (member "node_id_by_type"))
  · intro name
    have listed := Json.strings_injective (Option.some.inj (member "graph_relationship_names"))
    rw [← List.mem_toFinset, ← mem_sorted, listed, mem_sorted, List.mem_toFinset]
  · exact Json.get?_of_dictObject text (Option.some.inj (member "graph_relationship_namespace_by_id"))
  · exact Json.get?_of_dictObject text (Option.some.inj (member "graph_relationship_display_name_by_id"))

theorem mem_sortedNodes (model : LookupModel) (node : PublishedNode) :
    node ∈ model.sortedNodes ↔ ∃ id, model.nodesById.get? id = some node := by
  rw [sortedNodes, List.mem_filterMap]
  exact exists_congr fun id => and_iff_right_of_imp fun found => by
    rw [mem_sorted, List.mem_toFinset]
    exact (Dict.mem_keys _ _).mpr ⟨node, found⟩

/-- Models of one revision have the same nodes and the same last document. -/
theorem of_revision {digest : String → String} (injective : Function.Injective digest) {model model' : LookupModel}
    (same : computeModelRevision digest model = computeModelRevision digest model') :
    model.sortedNodes = model'.sortedNodes ∧ SameExtra model model' := by
  obtain ⟨nodes, extra⟩ := Json.lines_inj (injective same)
  exact ⟨List.map_injective_iff.mpr PublishedNode.modelDumpJson_injective nodes, sameExtra extra⟩

end LookupModel
end I3x

import I3xServer.Api.ParentIds
import I3xServer.Container.Paging
import I3xServer.Container.SetBuckets
import I3xServer.Container.Windows
import I3xServer.Model.RevisionCompleteness

/-!
# The index of the access tools

The tools that read the published model answer from an index of it, which is built
on the first call and kept with the model. Ids are listed by the folded name of the
element, then by the id.
-/
namespace I3x.Mcp
open Container Mapper

structure HttpError where
  status : Nat
  code : String
  message : String
  deriving DecidableEq, Repr

/-- How a tool fails: with an error response, on a key that an index lacks, or not at
all where a loop is cut off. -/
inductive Failure where
  | http (error : HttpError)
  | keyError (key : String)
  | exhausted
  deriving DecidableEq, Repr

/-- A published model; the index key of every node is the id it carries. -/
structure AccessModel extends RevisedModel where
  keyed : ∀ id node, nodesById.get? id = some node → node.id = id

/-- What the builder publishes is indexed by the ids of the nodes. -/
theorem buildRevised_keyed {browse : Browse} {digest : String → String} {model : RevisedModel}
    (built : browse.buildRevised digest = .ok model) (id : String) (node : PublishedNode)
    (found : model.nodesById.get? id = some node) : node.id = id := by
  unfold Browse.buildRevised at built
  split at built
  · cases built
  · cases built
    obtain ⟨source, -, rfl, rfl⟩ := browse.get?_nodesById found
    exact browse.publishedNode_id source

def AccessModel.ofBuild {browse : Browse} {digest : String → String} {model : RevisedModel}
    (built : browse.buildRevised digest = .ok model) : AccessModel :=
  ⟨model, buildRevised_keyed built⟩

/-- An object type as far as the instances of a type need it. -/
structure ObjectTypeInfo where
  nodeId : String
  parentNodeId : Option String
  deriving DecidableEq, Repr

structure ObjectTypeItem where
  elementId : String
  sourceTypeId : String
  deriving DecidableEq, Repr

structure ObjectTypeContext where
  namespaceInfos : List OpcUaNamespaceInfo
  objectTypes : List ObjectTypeInfo
  elementIdsByNodeId : Dict String String
  items : List ObjectTypeItem
  sourceTypeToElementId : Dict String String
  revision : String

/-- What the tools rely on: text operations, the digest, the order in which a set is
iterated, and the object type contexts by identity, which do not change once served. -/
structure Server where
  unicode : Unicode
  casefold : String → String
  digest : String → String
  order : Enumeration String
  contexts : Nat → ObjectTypeContext

inductive Plane where
  | hierarchy | composition | graph
  deriving DecidableEq, Repr

structure ModelAccessIndex where
  revision : String
  orderedIds : List String
  namespaces : Dict String (List String)
  roles : Dict SemanticRole (List String)
  nameGrams : Dict String (Finset String)
  childrenByPlane : Plane → Dict String (List String)
  pathChildren : Option (Dict (Option String) (Dict String (List String)))
  typeContextToken : Option Nat
  directInstances : Dict String (List String)
  subtypeInstances : Dict String (List String)

/-- Schema-checked page arguments; both have defaults. -/
structure PageArguments where
  offset : Option Nat
  limit : Option Nat
  bounded : ∀ l ∈ limit, 1 ≤ l ∧ l ≤ 100

structure Page where
  total : Nat
  returned : Nat
  offset : Nat
  nextOffset : Option Nat
  items : List (String × String)
  deriving DecidableEq, Repr

def modelRevision (digest : String → String) (model : RevisedModel) : String :=
  if model.revision = "" then computeModelRevision digest model.toLookupModel else model.revision

namespace AccessModel
variable (server : Server) (model : AccessModel)

/-- The name of an element; only read for ids of the model. -/
def name (id : String) : String := ((model.nodesById.get? id).map fun node => node.name).getD ""

def foldedName (id : String) : String := server.casefold (model.name id)

def sortKey (id : String) : String ×ₗ String := toLex (model.foldedName server id, id)

/-- `_sorted_ids`. -/
def sortedIds (ids : Finset String) : List String :=
  (sorted (ids.image (model.sortKey server))).map fun key => (ofLex key).2

/-- `_page`, of ids that are in order. -/
def page (ordered : List String) (arguments : PageArguments) : Page :=
  let offset := arguments.offset.getD 0
  let ids := (ordered.drop offset).take (arguments.limit.getD 50)
  { total := ordered.length
    returned := ids.length
    offset
    nextOffset := nextOffset ordered.length offset ids.length
    items := ids.map fun id => (id, model.name id) }

/-- The three-letter parts of a text. -/
def gramsOf (text : String) : Finset String := ((windows 3 text.toList).map String.ofList).toFinset

def orderedIds : List String := model.sortedIds server model.nodesById.keys.toFinset

def namespaceOf (id : String) : Option String :=
  Api.either (model.namespaceUriById.get? id).join ((model.nodesById.get? id).bind fun node => node.namespaceUri)

def roleOf (id : String) : Option SemanticRole :=
  (model.semanticRoleById.get? id).or ((model.nodesById.get? id).map fun node => node.semanticRole)

def nameGrams : Dict String (Finset String) :=
  Dict.addAll .empty ((model.orderedIds server).flatMap fun id =>
    (server.order.list (gramsOf (model.foldedName server id))).map fun gram => (gram, {id}))

def childrenOf (plane : Plane) : Dict String (List String) :=
  let present (ids : List String) := model.sortedIds server (ids.filter fun id => id ∈ model.nodesById.keys).toFinset
  match plane with
  | .hierarchy => model.hierarchyChildrenById.mapValues fun _ => present
  | .composition => model.compositionChildrenById.mapValues fun _ => present
  | .graph => model.graphRelatedById.mapValues fun _ edges => present (edges.map Prod.snd)

/-- The index of a model on which no tool has been called. -/
def buildIndex : ModelAccessIndex where
  revision := modelRevision server.digest model.toRevisedModel
  orderedIds := model.orderedIds server
  namespaces := Dict.pushAll .empty ((model.orderedIds server).filterMap fun id =>
    (model.namespaceOf id).map fun uri => (uri, id))
  roles := Dict.pushAll .empty ((model.orderedIds server).filterMap fun id => (model.roleOf id).map fun role => (role, id))
  nameGrams := model.nameGrams server
  childrenByPlane := model.childrenOf server
  pathChildren := none
  typeContextToken := none
  directInstances := .empty
  subtypeInstances := .empty

/-- `_index`: the index kept with the model, if it is of this revision. -/
def index (cache : Option ModelAccessIndex) : ModelAccessIndex :=
  match cache with
  | some kept => if kept.revision = modelRevision server.digest model.toRevisedModel then kept else model.buildIndex server
  | none => model.buildIndex server

/-! ## Ids in order -/

theorem sortKey_injective : Function.Injective (model.sortKey server) := fun _ _ same =>
  congrArg (fun key => (ofLex key).2) same

theorem sortKeys_sortedIds (ids : Finset String) :
    (model.sortedIds server ids).map (model.sortKey server) = sorted (ids.image (model.sortKey server)) := by
  rw [sortedIds, List.map_map]
  refine (List.map_congr_left fun key m => ?_).trans (List.map_id _)
  obtain ⟨id, -, rfl⟩ := Finset.mem_image.mp ((mem_sorted _ key).mp m)
  rfl

theorem mem_sortedIds (ids : Finset String) (id : String) : id ∈ model.sortedIds server ids ↔ id ∈ ids := by
  rw [← List.mem_map_of_injective (model.sortKey_injective server), sortKeys_sortedIds, mem_sorted,
    Finset.mem_image]
  exact ⟨fun ⟨other, m, same⟩ => model.sortKey_injective server same ▸ m, fun m => ⟨id, m, rfl⟩⟩

theorem nodup_sortedIds (ids : Finset String) : (model.sortedIds server ids).Nodup := by
  refine List.Nodup.of_map (model.sortKey server) ?_
  rw [sortKeys_sortedIds]
  exact nodup_sorted _

theorem sortedIds_pairwise (ids : Finset String) :
    (model.sortedIds server ids).Pairwise fun a b => model.sortKey server a < model.sortKey server b := by
  have keys := sorted_pairwise (ids.image (model.sortKey server))
  rw [← sortKeys_sortedIds] at keys
  exact List.pairwise_map.mp keys

end AccessModel

/-! ## A small model -/

namespace Sample

def element (id name : String) (kind : NodeKind) (parentId sourceTypeId : Option String) : PublishedNode where
  id
  name
  kind
  type := none
  children := []
  sourceNodeId := "ns=1;s=" ++ id
  parentId
  sourceTypeId
  relationships := .empty
  isComposition := false
  semanticRole := .asset
  mappingConfidence := .high
  uaNodeId := "ns=1;s=" ++ id
  expandedNodeId := "nsu=urn:plant;s=" ++ id
  namespaceUri := some "urn:plant"
  appliedProfileIds := []
  description := none
  accessLevel := none
  userAccessLevel := none
  writable := none
  executable := none
  userExecutable := none

/-- A model of some elements without indexes beside their own data. -/
def modelOf (nodes : List PublishedNode) : AccessModel where
  nodesById := .ofList (nodes.map fun node => (node.id, node))
  rootIds := []
  childrenById := .empty
  parentById := .empty
  hierarchyParentById := .empty
  compositionParentById := .empty
  hierarchyChildrenById := .empty
  compositionChildrenById := .empty
  graphRelatedById := .empty
  graphRelationshipNames := []
  relationshipsById := .empty
  parentIdById := .empty
  graphRelationshipNamespaceById := .empty
  graphRelationshipDisplayNameById := .empty
  instancesByTypeId := .empty
  propertyToNode := .empty
  actionToMethod := .empty
  nodeIdByName := .empty
  nodeIdByType := .empty
  semanticRoleById := .empty
  mappingConfidenceById := .empty
  appliedProfileIdsById := .empty
  namespaceUriById := .empty
  revision := "r"
  keyed id node found := by
    rw [Dict.ofList, Dict.get?_update, Dict.get?_empty, Option.or_none] at found
    have m := lookup_mem found
    simp only [List.mem_reverse, List.mem_map, Prod.mk.injEq] at m
    obtain ⟨_, _, same, rfl⟩ := m
    exact same

/-- A plant with two pumps of one type, the second below the first. -/
def plant : AccessModel := modelOf
  [element "a" "Pump" .asset none (some "t"), element "b" "Pump" .asset (some "a") (some "u")]

/-- Type `u` below type `t`. -/
def context : ObjectTypeContext where
  namespaceInfos := []
  objectTypes := [⟨"t", none⟩, ⟨"u", some "t"⟩]
  elementIdsByNodeId := .empty
  items := [⟨"t", "t"⟩, ⟨"u", "u"⟩]
  sourceTypeToElementId := .empty
  revision := "c"

def server : Server where
  unicode := .ascii
  casefold := Text.ascii.lower
  digest := id
  order := .sorted
  contexts _ := context

end Sample
end I3x.Mcp

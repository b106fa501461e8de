import I3xServer.Domain.Text
import I3xServer.Domain.ModelBuilder

/-!
# Finding the node a request names

One lookup serves element ids, names, data types and source node ids: the three
indexes are asked first, then the nodes are scanned in order.
-/
namespace I3x.Api
open Container

/-- What a bulk response says about one requested id. -/
inductive BulkResultItem where
  | success (elementId : String)
  | error (elementId message : String) (code : Nat)
  deriving DecidableEq, Repr

def BulkResultItem.ok : BulkResultItem → Bool
  | .success _ => true
  | .error .. => false

def bulkResultError (elementId message : String) : BulkResultItem := .error elementId message 404

variable (text : Text)

/-- The scan's test of one candidate. -/
def answersTo (candidate : ModelNode) (elementId : String) : Bool :=
  candidate.name = elementId || candidate.type = some elementId ||
    candidate.sourceNodeId = elementId ||
    text.lower candidate.sourceNodeId = text.lower elementId

def indexed (model : BuildResult) (index : Dict String String) (elementId : String) :
    Option ModelNode :=
  (index.get? elementId).bind model.nodesById.get?

def findModelNode (model : BuildResult) (elementId : String) : Option ModelNode :=
  match model.nodesById.get? elementId with
  | some node => some node
  | none =>
      match indexed model model.nodeIdByName elementId with
      | some node => some node
      | none =>
          match indexed model model.nodeIdByType elementId with
          | some node => some node
          | none => model.nodes.find? fun candidate => answersTo text candidate elementId

def resolveModelNodes (model : BuildResult) (elementIds : List String) :
    List (String × Option ModelNode) :=
  elementIds.map fun elementId => (elementId, findModelNode text model elementId)

/-- The ids a subscription request may go on with, and its per-item results. -/
def validateSubscriptionElementIds (model : BuildResult) (elementIds : List String) :
    List String × List BulkResultItem :=
  ((resolveModelNodes text model elementIds).filterMap fun entry => entry.2.map fun _ => entry.1,
    (resolveModelNodes text model elementIds).map fun entry =>
      match entry.2 with
      | none => bulkResultError entry.1 ("Element not found: " ++ entry.1)
      | some _ => .success entry.1)

variable {text}

theorem findModelNode_element {model : BuildResult} {elementId : String} {node : ModelNode}
    (found : model.nodesById.get? elementId = some node) :
    findModelNode text model elementId = some node := by
  simp only [findModelNode, found]

theorem indexed_mem {model : BuildResult} {index : Dict String String} {elementId : String}
    {node : ModelNode} (found : indexed model index elementId = some node) : node ∈ model.nodes := by
  obtain ⟨id, _, atId⟩ := Option.bind_eq_some_iff.mp found
  exact (model.mem_nodes node).mpr ⟨id, atId⟩

theorem findModelNode_mem {model : BuildResult} {elementId : String} {node : ModelNode}
    (found : findModelNode text model elementId = some node) : node ∈ model.nodes := by
  unfold findModelNode at found
  split at found
  · rename_i other direct
    cases found
    exact (model.mem_nodes node).mpr ⟨elementId, direct⟩
  · split at found
    · rename_i named
      cases found
      exact indexed_mem named
    · split at found
      · rename_i typed
        cases found
        exact indexed_mem typed
      · exact List.mem_of_find?_eq_some found

theorem mem_validate_known (model : BuildResult) (elementIds : List String) (id : String) :
    id ∈ (validateSubscriptionElementIds text model elementIds).1 ↔
      id ∈ elementIds ∧ ∃ node, findModelNode text model id = some node := by
  simp only [validateSubscriptionElementIds, resolveModelNodes, List.mem_filterMap, List.mem_map,
    exists_exists_and_eq_and, Option.map_eq_some_iff]
  constructor
  · rintro ⟨a, m, node, found, rfl⟩
    exact ⟨m, node, found⟩
  · rintro ⟨m, node, found⟩
    exact ⟨id, m, node, found, rfl⟩

/-- An id is reported as a success exactly when it is passed on. -/
theorem validate_success_iff (model : BuildResult) (elementIds : List String) (id : String) :
    BulkResultItem.success id ∈ (validateSubscriptionElementIds text model elementIds).2 ↔
      id ∈ (validateSubscriptionElementIds text model elementIds).1 := by
  rw [mem_validate_known]
  simp only [validateSubscriptionElementIds, resolveModelNodes, List.mem_map, exists_exists_and_eq_and]
  constructor
  · rintro ⟨a, m, same⟩
    cases found : findModelNode text model a with
    | none => simp [found, bulkResultError] at same
    | some node =>
        simp only [found, BulkResultItem.success.injEq] at same
        subst same
        exact ⟨m, node, found⟩
  · rintro ⟨m, node, found⟩
    exact ⟨id, m, by simp only [found]⟩

end I3x.Api

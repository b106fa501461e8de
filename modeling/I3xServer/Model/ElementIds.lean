import I3xServer.Model.Published

/-!
# Node id indexes

The builder ends by entering every node under its node id, its expanded node id
and the canonical forms of both; the first node to claim a key keeps it.
-/
namespace I3x
open Container

/-- The keys under which one node is entered in the two indexes. -/
structure IdentityKeys where
  nodeIds : List String
  expandedNodeIds : List String
  deriving DecidableEq

structure IndexedModel extends PublishedModel where
  elementIdByNodeId : Dict String String
  elementIdByExpandedNodeId : Dict String String
  namespaceUriByIndex : Nat → Option String

/-- Why `build` fails: a refusal, or digits that are no integer. -/
inductive PublishError where
  | refused (error : BuildError)
  | invalidInteger (literal : String)
  deriving DecidableEq, Repr

section
variable (unicode : Unicode) (namespaceUri : Nat → Option String)

def canonicalIfFilled (nodeId : String) : Except String (Option String) :=
  if nodeId = "" then .ok none else NodeIds.canonicalNodeId unicode namespaceUri nodeId

def identityKeys (uaNodeId expandedNodeId : String) : Except String IdentityKeys :=
  match canonicalIfFilled unicode namespaceUri uaNodeId, canonicalIfFilled unicode namespaceUri expandedNodeId with
  | .error literal, _ => .error literal
  | .ok _, .error literal => .error literal
  | .ok canonical, .ok canonicalExpanded =>
      .ok {
        nodeIds := [uaNodeId].filter (· ≠ "") ++ (canonical.filter fun key => ¬ NodeIds.isExpanded key).toList
        expandedNodeIds := (canonical.filter NodeIds.isExpanded).toList ++ [expandedNodeId].filter (· ≠ "") ++
          canonicalExpanded.toList }

def nodeKeys (node : PublishedNode) : Except String IdentityKeys :=
  identityKeys unicode namespaceUri node.uaNodeId node.expandedNodeId

/-- The keys of a node, none where computing them fails. -/
def keysOrNone (node : PublishedNode) : IdentityKeys :=
  match nodeKeys unicode namespaceUri node with
  | .ok keys => keys
  | .error _ => ⟨[], []⟩

def claim (id : String) (index : Dict String String) (keys : List String) : Dict String String :=
  keys.foldl (fun index key => ModelBuilder.setDefault index key id) index

def indexElementIds : List PublishedNode → Dict String String → Dict String String →
    Except String (Dict String String × Dict String String)
  | [], byNodeId, byExpandedNodeId => .ok (byNodeId, byExpandedNodeId)
  | node :: nodes, byNodeId, byExpandedNodeId =>
      match nodeKeys unicode namespaceUri node with
      | .error literal => .error literal
      | .ok keys =>
          indexElementIds nodes (claim node.id byNodeId keys.nodeIds)
            (claim node.id byExpandedNodeId keys.expandedNodeIds)

theorem get?_claim (id : String) (index : Dict String String) (keys : List String) (key : String) :
    (claim id index keys).get? key = (index.get? key).or (if key ∈ keys then some id else none) := by
  have pairs : claim id index keys =
      (keys.map fun key => (key, id)).foldl (fun index pair => ModelBuilder.setDefault index pair.1 pair.2) index := by
    rw [claim, List.foldl_map]
  rw [pairs, ModelBuilder.get?_foldl_setDefault]
  congr 1
  induction keys with
  | nil => rfl
  | cons head keys ih =>
      rw [List.map_cons, lookup_cons_ite, ih (by rw [claim, List.foldl_map])]
      by_cases same : key = head
      · simp [same]
      · simp [same]

/-- The first node that claims a key owns it. -/
theorem indexElementIds_spec {nodes : List PublishedNode} {byNodeId byExpandedNodeId : Dict String String}
    {indexes : Dict String String × Dict String String}
    (h : indexElementIds unicode namespaceUri nodes byNodeId byExpandedNodeId = .ok indexes) :
    (∀ node ∈ nodes, ∃ keys, nodeKeys unicode namespaceUri node = .ok keys) ∧ ∀ key,
      indexes.1.get? key = (byNodeId.get? key).or
        ((nodes.find? fun node => key ∈ (keysOrNone unicode namespaceUri node).nodeIds).map fun node => node.id) ∧
      indexes.2.get? key = (byExpandedNodeId.get? key).or
        ((nodes.find? fun node => key ∈ (keysOrNone unicode namespaceUri node).expandedNodeIds).map
          fun node => node.id) := by
  induction nodes generalizing byNodeId byExpandedNodeId with
  | nil =>
      cases h
      refine ⟨fun _ => nofun, fun key => ⟨?_, ?_⟩⟩ <;> rw [List.find?_nil, Option.map_none, Option.or_none]
  | cons node nodes ih =>
      rw [indexElementIds] at h
      split at h
      · cases h
      · rename_i keys computed
        have own : keysOrNone unicode namespaceUri node = keys := by rw [keysOrNone, computed]
        obtain ⟨rest, found⟩ := ih h
        refine ⟨fun other m => ?_, fun key => ?_⟩
        · rcases List.mem_cons.mp m with rfl | later
          · exact ⟨keys, computed⟩
          · exact rest other later
        · obtain ⟨first, second⟩ := found key
          rw [first, second, get?_claim, get?_claim, List.find?_cons, List.find?_cons, own, Option.or_assoc,
            Option.or_assoc]
          constructor
          · by_cases m : key ∈ keys.nodeIds <;> simp [m]
          · by_cases m : key ∈ keys.expandedNodeIds <;> simp [m]

end

namespace Browse
variable (browse : Browse)

/-- The namespace table as the model keeps it. -/
def namespaceUri (index : Nat) : Option String := NodeIds.namespaceUriByIndex browse.namespaceInfos index

/-- `ModelBuilder.build`. -/
def build : Except PublishError IndexedModel :=
  match browse.buildModel with
  | .error error => .error (.refused error)
  | .ok model =>
      match indexElementIds browse.unicode browse.namespaceUri model.nodesById.values .empty .empty with
      | .error literal => .error (.invalidInteger literal)
      | .ok (byNodeId, byExpandedNodeId) =>
          .ok {
            toPublishedModel := model
            elementIdByNodeId := byNodeId
            elementIdByExpandedNodeId := byExpandedNodeId
            namespaceUriByIndex := browse.namespaceUri }

/-- The keys that a browsed node claims. -/
def keys (node : BrowsedNode) : IdentityKeys :=
  keysOrNone browse.unicode browse.namespaceUri (browse.publishedNode node)

theorem build_ok {model : IndexedModel} (built : browse.build = .ok model) :
    browse.buildModel = .ok model.toPublishedModel ∧ model.toPublishedModel = browse.published ∧
      model.namespaceUriByIndex = browse.namespaceUri ∧
      indexElementIds browse.unicode browse.namespaceUri browse.nodesById.values .empty .empty =
        .ok (model.elementIdByNodeId, model.elementIdByExpandedNodeId) := by
  unfold build at built
  split at built
  · cases built
  · rename_i published accepted
    obtain ⟨-, rfl⟩ := browse.buildModel_ok accepted
    split at built
    · cases built
    · rename_i indexed
      cases built
      exact ⟨accepted, rfl, rfl, indexed⟩

theorem find?_values (p : PublishedNode → Bool) (id : String) :
    (browse.nodesById.values.find? p).map (fun node => node.id) = some id ↔
      browse.FirstWith (fun node => p (browse.publishedNode node) = true) id := by
  rw [← firstWith_iff]
  have keyed : ∀ entry ∈ browse.nodesById.entries, entry.2.id = entry.1 := fun entry m => by
    obtain ⟨source, -, same, eq⟩ := browse.get?_nodesById ((Dict.mem_entries _ entry.1 entry.2).mp m)
    rw [eq, publishedNode_id, same]
  have same : (browse.nodesById.values.find? p).map (fun node => node.id) =
      (browse.nodesById.entries.find? fun entry => p entry.2).map Prod.fst := by
    rw [Dict.values, List.find?_map, Option.map_map]
    cases found : browse.nodesById.entries.find? (p ∘ Prod.snd) with
    | none =>
        rw [Option.map_none]
        exact (congrArg (Option.map Prod.fst) found).symm
    | some entry =>
        rw [Option.map_some, Function.comp_apply, keyed entry (List.mem_of_find?_eq_some found)]
        exact (congrArg (Option.map Prod.fst) found).symm
  rw [same]

theorem get?_elementIdByExpandedNodeId {model : IndexedModel} (built : browse.build = .ok model) (key id : String) :
    model.elementIdByExpandedNodeId.get? key = some id ↔
      browse.FirstWith (fun node => key ∈ (browse.keys node).expandedNodeIds) id := by
  obtain ⟨-, -, -, indexed⟩ := browse.build_ok built
  rw [((indexElementIds_spec _ _ indexed).2 key).2, Dict.get?_empty, Option.none_or, find?_values]
  simp only [decide_eq_true_eq]
  rfl

theorem get?_elementIdByNodeId {model : IndexedModel} (built : browse.build = .ok model) (key id : String) :
    model.elementIdByNodeId.get? key = some id ↔
      browse.FirstWith (fun node => key ∈ (browse.keys node).nodeIds) id := by
  obtain ⟨-, -, -, indexed⟩ := browse.build_ok built
  rw [((indexElementIds_spec _ _ indexed).2 key).1, Dict.get?_empty, Option.none_or, find?_values]
  simp only [decide_eq_true_eq]
  rfl

end Browse
end I3x

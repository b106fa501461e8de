import I3xServer.Model.ElementIds

/-!
# From elements to node ids and back

Two tools translate between element ids and node ids. Node ids are looked up
under their canonical form, which trims them; so an element is found again only
if no earlier element claims the same form.
-/
namespace I3x.Mcp
open Container

/-- What the tools say about one requested id. -/
inductive ElementResolution where
  | success (elementId nodeId : String) (expandedNodeId : Option String) (name : String) (kind : NodeKind)
  | error (elementId : String) (code : Nat) (message : String)
  deriving DecidableEq, Repr

inductive NodeResolution where
  | success (inputNodeId elementId name : String) (kind : NodeKind)
  | error (inputNodeId : String) (code : Nat) (message : String)
  deriving DecidableEq, Repr

def ElementResolution.succeeded : ElementResolution → Bool
  | .success .. => true
  | .error .. => false

def NodeResolution.succeeded : NodeResolution → Bool
  | .success .. => true
  | .error .. => false

variable (unicode : Unicode) (model : IndexedModel)

def resolveElementId (elementId : String) : ElementResolution :=
  if unicode.strip elementId = "" then .error elementId 400 "ElementId must be a non-empty string"
  else
    match model.nodesById.get? elementId with
    | none => .error elementId 404 "ElementId not found"
    | some node =>
        if node.uaNodeId = "" then
          .error elementId 404 "OPC UA NodeId is not available in the cached model"
        else
          .success node.id node.uaNodeId
            (if NodeIds.isExpanded node.expandedNodeId then some node.expandedNodeId else none) node.name node.kind

def resolveElementIdsToNodeIds (elementIds : List String) : Bool × List ElementResolution :=
  let items := elementIds.map (resolveElementId unicode model)
  (items.all ElementResolution.succeeded, items)

/-- The element that the indexes give for a canonical form, else for the trimmed text. -/
def indexedElement (canonicalId nodeId : String) : Option PublishedNode :=
  let elementId :=
    match model.elementIdByExpandedNodeId.get? canonicalId with
    | some elementId => some elementId
    | none => model.elementIdByNodeId.get? (unicode.strip nodeId)
  elementId.bind model.nodesById.get?

/-- The resolution of one node id; the error is one that `int` raises. -/
def resolveNodeId (nodeId : String) : Except String NodeResolution :=
  if unicode.strip nodeId = "" then .ok (.error nodeId 400 "NodeId must be a non-empty string")
  else
    match NodeIds.canonicalNodeId unicode model.namespaceUriByIndex nodeId with
    | .error literal => .error literal
    | .ok none => .ok (.error nodeId 400 "Invalid OPC UA NodeId format")
    | .ok (some canonicalId) =>
        match indexedElement unicode model canonicalId nodeId with
        | none => .ok (.error nodeId 404 "NodeId not found in the cached model")
        | some node => .ok (.success nodeId node.id node.name node.kind)

def resolveNodeIdsToElementIds (nodeIds : List String) : Except String (Bool × List NodeResolution) :=
  (nodeIds.mapM (resolveNodeId unicode model)).map fun items => (items.all NodeResolution.succeeded, items)

/-- A node id leads to an element. -/
def LeadsTo (nodeId elementId : String) : Prop :=
  ∃ name kind, resolveNodeIdsToElementIds unicode model [nodeId] =
    .ok (true, [.success nodeId elementId name kind])

/-- An element has node ids, and they lead back to it. -/
def RoundTrip (elementId : String) : Prop :=
  ∃ nodeId expandedNodeId name kind,
    resolveElementIdsToNodeIds unicode model [elementId] =
      (true, [.success elementId nodeId expandedNodeId name kind]) ∧
    LeadsTo unicode model nodeId elementId ∧
      ∀ expanded, expandedNodeId = some expanded → LeadsTo unicode model expanded elementId

theorem leadsTo_iff (nodeId elementId : String) :
    LeadsTo unicode model nodeId elementId ↔
      ∃ name kind, resolveNodeId unicode model nodeId = .ok (.success nodeId elementId name kind) := by
  refine exists_congr fun name => exists_congr fun kind => ?_
  unfold resolveNodeIdsToElementIds
  rw [List.mapM_cons, List.mapM_nil]
  cases resolved : resolveNodeId unicode model nodeId with
  | error literal => exact ⟨nofun, nofun⟩
  | ok item =>
      change Except.ok (([item].all NodeResolution.succeeded), [item]) = _ ↔ _
      simp only [Except.ok.injEq, Prod.mk.injEq, List.cons.injEq, and_true]
      exact ⟨fun h => h.2, fun h => ⟨by rw [h]; rfl, h⟩⟩

end I3x.Mcp

namespace I3x.Browse
open Container Mcp
variable (browse : Browse)

/-- Some text is the node's own: its canonical form is claimed by no earlier
element, or by none at all while its trimmed form is the node's own. -/
def Returns (node : BrowsedNode) (text : String) : Prop :=
  browse.unicode.strip text ≠ "" ∧ ∃ canonicalId,
    NodeIds.canonicalNodeId browse.unicode browse.namespaceUri text = .ok (some canonicalId) ∧
    (browse.FirstWith (fun other => canonicalId ∈ (browse.keys other).expandedNodeIds) (browse.mappedId node) ∨
      (∀ id, ¬ browse.FirstWith (fun other => canonicalId ∈ (browse.keys other).expandedNodeIds) id) ∧
        browse.FirstWith (fun other => browse.unicode.strip text ∈ (browse.keys other).nodeIds)
          (browse.mappedId node))

/-- Every element's node id, and its expanded node id if it has one, are its own. -/
def IdentitiesKept : Prop :=
  ∀ node, browse.Latest node → browse.Returns node node.nodeId ∧
    (NodeIds.isExpanded (browse.identity.expandedNodeId node.nodeId) = true →
      browse.Returns node (browse.identity.expandedNodeId node.nodeId))

theorem strip_mappedId (node : BrowsedNode) : browse.unicode.strip (browse.mappedId node) ≠ "" := by
  have letter : ∃ c ∈ (browse.mappedId node).toList, c.isAlpha = true := by
    simp only [mappedId, ModelBuilder.mappedId, ModelBuilder.stableI3xId, String.toList_append]
    cases ModelBuilder.kindForNode node.toOpcUaNodeInfo
    · exact ⟨'a', by simp [NodeKind.text], rfl⟩
    · exact ⟨'p', by simp [NodeKind.text], rfl⟩
    · exact ⟨'a', by simp [NodeKind.text], rfl⟩
    · exact ⟨'e', by simp [NodeKind.text], rfl⟩
  obtain ⟨c, m, alpha⟩ := letter
  exact browse.unicode.strip_letter _ c m alpha

variable {model : IndexedModel}

theorem get?_built (built : browse.build = .ok model) {node : BrowsedNode} (latest : browse.Latest node) :
    model.nodesById.get? (browse.mappedId node) = some (browse.publishedNode node) := by
  obtain ⟨-, same, -⟩ := browse.build_ok built
  rw [same]
  exact (browse.get?_nodesById_iff _ _).mpr ⟨node, latest, rfl, rfl⟩

/-- What the first tool answers for an element whose node id is not blank. -/
theorem resolveElementId_built (built : browse.build = .ok model) {node : BrowsedNode} (latest : browse.Latest node) :
    resolveElementId browse.unicode model (browse.mappedId node) =
      if node.nodeId = "" then
        .error (browse.mappedId node) 404 "OPC UA NodeId is not available in the cached model"
      else
        .success (browse.mappedId node) node.nodeId
          (if NodeIds.isExpanded (browse.identity.expandedNodeId node.nodeId) then
            some (browse.identity.expandedNodeId node.nodeId) else none)
          (browse.publishedNode node).name (browse.publishedNode node).kind := by
  unfold resolveElementId
  rw [if_neg (browse.strip_mappedId node), browse.get?_built built latest]
  dsimp only
  rw [publishedNode_id]
  rfl

theorem leadsTo_iff_returns (built : browse.build = .ok model) {node : BrowsedNode}
    (text : String) :
    LeadsTo browse.unicode model text (browse.mappedId node) ↔ browse.Returns node text := by
  obtain ⟨-, same, table, -⟩ := browse.build_ok built
  have published {key : String} {p : BrowsedNode → Prop} (first : browse.FirstWith p key) :
      ∃ source, browse.mappedId source = key ∧ model.nodesById.get? key = some (browse.publishedNode source) := by
    obtain ⟨source, latest, rfl, -⟩ := first
    exact ⟨source, rfl, browse.get?_built built latest⟩
  have hit {key : String} {p : BrowsedNode → Prop} (first : browse.FirstWith p key) :
      (∃ name kind, (match model.nodesById.get? key with
        | none => Except.ok (NodeResolution.error text 404 "NodeId not found in the cached model")
        | some found => .ok (.success text found.id found.name found.kind)) =
          (.ok (.success text (browse.mappedId node) name kind) : Except String NodeResolution)) ↔
        key = browse.mappedId node := by
    obtain ⟨source, rfl, found⟩ := published first
    rw [found]
    simp only [Except.ok.injEq, NodeResolution.success.injEq, publishedNode_id, true_and]
    exact ⟨fun ⟨_, _, id, _⟩ => id, fun id => ⟨_, _, id, rfl, rfl⟩⟩
  rw [leadsTo_iff]
  unfold resolveNodeId Returns
  rw [table]
  by_cases blank : browse.unicode.strip text = ""
  · rw [if_pos blank]
    exact ⟨fun ⟨_, _, h⟩ => (by cases h), fun h => absurd blank h.1⟩
  · rw [if_neg blank]
    cases canonical : NodeIds.canonicalNodeId browse.unicode browse.namespaceUri text with
    | error literal => exact ⟨fun ⟨_, _, h⟩ => (by cases h), fun ⟨_, _, h, _⟩ => (by cases h)⟩
    | ok parsed =>
        cases parsed with
        | none => exact ⟨fun ⟨_, _, h⟩ => (by cases h), fun ⟨_, _, h, _⟩ => (by cases h)⟩
        | some canonicalId =>
            have expanded := browse.get?_elementIdByExpandedNodeId built canonicalId
            have plain := browse.get?_elementIdByNodeId built (browse.unicode.strip text)
            have claims : (∃ id, Except.ok (some canonicalId) = (Except.ok (some id) : Except String (Option String)) ∧
                (browse.FirstWith (fun other => id ∈ (browse.keys other).expandedNodeIds) (browse.mappedId node) ∨
                (∀ owner, ¬ browse.FirstWith (fun other => id ∈ (browse.keys other).expandedNodeIds) owner) ∧
                browse.FirstWith (fun other => browse.unicode.strip text ∈ (browse.keys other).nodeIds)
                  (browse.mappedId node))) ↔
                (model.elementIdByExpandedNodeId.get? canonicalId = some (browse.mappedId node) ∨
                  (∀ owner, ¬ model.elementIdByExpandedNodeId.get? canonicalId = some owner) ∧
                  model.elementIdByNodeId.get? (browse.unicode.strip text) = some (browse.mappedId node)) := by
              simp only [Except.ok.injEq, Option.some.injEq, exists_eq_left', expanded, plain]
            simp only [ne_eq, blank, not_false_eq_true, true_and, claims]
            unfold indexedElement
            cases inExpanded : model.elementIdByExpandedNodeId.get? canonicalId with
            | some owner =>
                simp only [Option.bind_some, Option.some.injEq]
                rw [hit ((expanded owner).mp inExpanded)]
                exact ⟨Or.inl, fun h => h.elim id fun h => absurd rfl (h.1 owner)⟩
            | none =>
                cases inPlain : model.elementIdByNodeId.get? (browse.unicode.strip text) with
                | none =>
                    refine ⟨fun ⟨_, _, h⟩ => (by cases h), fun h => ?_⟩
                    rcases h with h | ⟨-, h⟩ <;> cases h
                | some owner =>
                    simp only [Option.bind_some, Option.some.injEq]
                    rw [hit ((plain owner).mp inPlain)]
                    exact ⟨fun h => .inr ⟨fun _ => nofun, h⟩, fun h => h.elim (fun h => by cases h) And.right⟩

/-- **Node ids lead back to every element exactly if every element's node ids are
its own.** -/
theorem roundTrip_iff (built : browse.build = .ok model) :
    (∀ elementId ∈ model.nodesById.keys, RoundTrip browse.unicode model elementId) ↔ browse.IdentitiesKept := by
  obtain ⟨-, same, -⟩ := browse.build_ok built
  have resolved {node : BrowsedNode} (latest : browse.Latest node) (filled : node.nodeId ≠ "") :
      resolveElementIdsToNodeIds browse.unicode model [browse.mappedId node] =
        (true, [.success (browse.mappedId node) node.nodeId
          (if NodeIds.isExpanded (browse.identity.expandedNodeId node.nodeId) then
            some (browse.identity.expandedNodeId node.nodeId) else none)
          (browse.publishedNode node).name (browse.publishedNode node).kind]) := by
    unfold resolveElementIdsToNodeIds
    rw [List.map_cons, List.map_nil, browse.resolveElementId_built built latest, if_neg filled]
    rfl
  constructor
  · intro all node latest
    have inside : browse.mappedId node ∈ model.nodesById.keys :=
      (Dict.mem_keys _ _).mpr ⟨_, browse.get?_built built latest⟩
    obtain ⟨nodeId, expandedNodeId, name, kind, element, back, expandedBack⟩ := all _ inside
    have filled : node.nodeId ≠ "" := by
      intro empty
      unfold resolveElementIdsToNodeIds at element
      rw [List.map_cons, List.map_nil, browse.resolveElementId_built built latest, if_pos empty] at element
      cases element
    rw [resolved latest filled] at element
    simp only [Prod.mk.injEq, List.cons.injEq, ElementResolution.success.injEq, true_and, and_true] at element
    obtain ⟨rfl, rfl, -, -⟩ := element
    refine ⟨(browse.leadsTo_iff_returns built _).mp back, fun isExpanded => ?_⟩
    rw [if_pos isExpanded] at expandedBack
    exact (browse.leadsTo_iff_returns built _).mp (expandedBack _ rfl)
  · intro kept elementId inside
    obtain ⟨published, found⟩ := (Dict.mem_keys _ _).mp inside
    rw [same] at found
    obtain ⟨node, latest, rfl, -⟩ := (browse.get?_nodesById_iff _ _).mp found
    obtain ⟨plain, expanded⟩ := kept node latest
    have filled : node.nodeId ≠ "" := fun empty => plain.1 (by rw [empty]; exact browse.unicode.strip_empty)
    refine ⟨_, _, _, _, resolved latest filled, (browse.leadsTo_iff_returns built _).mpr plain, ?_⟩
    intro text shown
    split at shown
    · rename_i isExpanded
      cases shown
      exact (browse.leadsTo_iff_returns built _).mpr (expanded isExpanded)
    · cases shown

end I3x.Browse

namespace I3x

/-- Two objects whose identifiers differ in a final space. -/
def Plant.spaced : Browse := browse [node "A" "Object" [], node "A " "Object" []]

def Plant.spacedModel : IndexedModel := (spaced.build.toOption).get rfl

theorem Plant.spaced_built : spaced.build = .ok spacedModel := rfl

/-- **The node id of the second object leads to the first.** -/
theorem Browse.spaced_no_roundTrip :
    Plant.spaced.build = .ok Plant.spacedModel ∧
      ¬ ∀ elementId ∈ Plant.spacedModel.nodesById.keys,
        Mcp.RoundTrip Plant.spaced.unicode Plant.spacedModel elementId := by
  refine ⟨Plant.spaced_built, fun all => ?_⟩
  obtain ⟨nodeId, _, _, _, element, back, -⟩ := all "asset-0c098030ede43ade" (by decide)
  have shown : Mcp.resolveElementIdsToNodeIds Plant.spaced.unicode Plant.spacedModel ["asset-0c098030ede43ade"] =
      (true, [.success "asset-0c098030ede43ade" "ns=1;s=A " (some "nsu=urn:plant;s=A ") "A " .asset]) := rfl
  rw [shown] at element
  cases element
  obtain ⟨_, _, found⟩ := (Mcp.leadsTo_iff _ _ _ _).mp back
  have other : Mcp.resolveNodeId Plant.spaced.unicode Plant.spacedModel "ns=1;s=A " =
      .ok (.success "ns=1;s=A " "asset-5b7e0a0f0c568c33" "A" .asset) := rfl
  rw [other, Except.ok.injEq, Mcp.NodeResolution.success.injEq] at found
  exact absurd found.2.1 (by decide)

theorem Browse.spaced_roundTrip_iff :
    (∀ elementId ∈ Plant.spacedModel.nodesById.keys,
      Mcp.RoundTrip Plant.spaced.unicode Plant.spacedModel elementId) ↔ Plant.spaced.IdentitiesKept :=
  Plant.spaced.roundTrip_iff Plant.spaced_built

end I3x

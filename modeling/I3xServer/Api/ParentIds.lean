import I3xServer.Model.Roots

/-!
# Who the parent of an element is

Four places name a parent: the node itself, the parent index, the object
responses and the path tools. The object responses have a precedence of their
own, which ends in the children that the address space was browsed through.
-/
namespace I3x.Api
open Container Mapper

/-- The first parent that lists a child, the hierarchy's children first. -/
def reverseParentIndex (model : PublishedModel) : Dict String String :=
  (model.hierarchyChildrenById.entries ++ model.childrenById.entries).foldl
    (fun index entry => entry.2.foldl (fun index child => ModelBuilder.setDefault index child entry.1) index) .empty

def kindOf (model : PublishedModel) (nodeId : String) : Option NodeKind :=
  (model.nodesById.get? nodeId).map fun node => node.kind

def parentIdForNode (model : PublishedModel) (nodeId : String) : Option String :=
  if nodeId ∈ model.rootIds then none
  else
    match model.hierarchyParentById.get? nodeId with
    | some parent => some parent
    | none =>
        match kindOf model nodeId with
        | some .asset | some .eventSource => none
        | _ =>
            match model.parentById.get? nodeId with
            | some parent => some parent
            | none => (reverseParentIndex model).get? nodeId

/-- The language's `or` on values that may be missing or empty. -/
def either (first second : Option String) : Option String := if first.getD "" = "" then second else first

/-- The parent that the path tools climb to. -/
def canonicalParent (model : PublishedModel) (elementId : String) : Option String :=
  either (model.hierarchyParentById.get? elementId)
    (either (model.parentIdById.get? elementId).join
      (either (model.compositionParentById.get? elementId)
        ((model.nodesById.get? elementId).bind fun node => node.parentId)))

/-- All four readers name the same parent, and none exactly for a root. -/
structure OneParent (model : PublishedModel) (id : String) : Prop where
  node : ((model.nodesById.get? id).bind fun node => node.parentId) = model.parent id
  response : parentIdForNode model id = model.parent id
  path : canonicalParent model id = model.parent id
  root : model.parent id = none ↔ id ∈ model.rootIds

/-! ## The reverse index -/

theorem get?_reverseParentIndex (model : PublishedModel) (id : String) :
    (reverseParentIndex model).get? id =
      ((model.hierarchyChildrenById.entries.find? fun entry => id ∈ entry.2).map Prod.fst).or
        ((model.childrenById.entries.find? fun entry => id ∈ entry.2).map Prod.fst) := by
  have flat : ∀ (entries : List (String × List String)) (index : Dict String String),
      entries.foldl (fun index entry => entry.2.foldl (fun index child => ModelBuilder.setDefault index child entry.1)
        index) index =
      (entries.flatMap fun entry => entry.2.map fun child => (child, entry.1)).foldl
        (fun index pair => ModelBuilder.setDefault index pair.1 pair.2) index := by
    intro entries
    induction entries with
    | nil => exact fun _ => rfl
    | cons entry entries ih =>
        intro index
        rw [List.foldl_cons, ih, List.flatMap_cons, List.foldl_append, List.foldl_map]
  rw [reverseParentIndex, flat, ModelBuilder.get?_foldl_setDefault, Dict.get?_empty, Option.none_or, List.flatMap_append,
    List.lookup_append, lookup_members, lookup_members]

end I3x.Api

namespace I3x.Browse
open Container Mapper Api
variable (browse : Browse)

/-- The children through which the address space was browsed. -/
def browsedChildIds (node : BrowsedNode) : List String :=
  ModelBuilder.childIds browse.identity browse.opcNodeInfos node.nodeId

/-- The first element in the model's order that was browsed as a parent of a child. -/
def FirstBrowsedParent (childId parentId : String) : Prop :=
  browse.FirstWith (fun node => childId ∈ browse.browsedChildIds node) parentId

/-- Every chosen composition parent of an element without hierarchy reference is
also the first one it was browsed through, and the element is a variable or a
method. -/
def ParentsShown : Prop :=
  ∀ l, browse.Leads .composition l →
    (∀ other ∈ browse.links, other.relationshipClass = .hierarchy →
      browse.mappedId other.target ≠ browse.mappedId l.target) →
    ModelBuilder.kindForNode l.target.toOpcUaNodeInfo ≠ .asset ∧
      ModelBuilder.kindForNode l.target.toOpcUaNodeInfo ≠ .eventSource ∧
      browse.FirstBrowsedParent (browse.mappedId l.target) (browse.mappedId l.source)

theorem kindOf_published {id : String} {node : BrowsedNode} (inside : node ∈ browse.sources)
    (same : browse.mappedId node = id) :
    kindOf browse.published id = some (ModelBuilder.kindForNode node.toOpcUaNodeInfo) := by
  obtain ⟨published, found⟩ := (Dict.mem_keys _ _).mp ((browse.mem_keys_nodesById id).mpr ⟨node, inside, same⟩)
  obtain ⟨source, -, here, rfl⟩ := browse.get?_nodesById found
  change (browse.nodesById.get? id).map (fun node => node.kind) = _
  rw [found, Option.map_some, Option.some.injEq]
  change ModelBuilder.inferKind source.toOpcUaNodeInfo = _
  rw [inferKind_eq]
  exact browse.kind_of_mappedId (here.trans same.symm)

theorem firstBrowsedParent_iff (childId parentId : String) :
    ((browse.nodesById.mapValues fun _ node => node.children).entries.find? fun entry => childId ∈ entry.2).map
        Prod.fst = some parentId ↔ browse.FirstBrowsedParent childId parentId := by
  have same : ((browse.nodesById.mapValues fun _ node => node.children).entries.find? fun entry =>
      decide (childId ∈ entry.2)).map Prod.fst =
      (browse.nodesById.entries.find? fun entry => decide (childId ∈ entry.2.children)).map Prod.fst := by
    simp only [Dict.mapValues, List.find?_map, Option.map_map]
    rfl
  rw [same, browse.firstWith_iff fun node => decide (childId ∈ node.children)]
  simp only [decide_eq_true_eq]
  rfl

theorem either_some {value : String} (filled : value ≠ "") (second : Option String) :
    either (some value) second = some value := if_neg filled

theorem either_none (second : Option String) : either none second = second := if_pos rfl

theorem resolved_ne_empty {childId parentId : String} (h : browse.resolvedParentId childId = some parentId) :
    parentId ≠ "" := by
  obtain ⟨l, -, -, rfl⟩ := (browse.resolvedParentId_iff _ _).mp h
  exact browse.mappedId_ne_empty l.source

theorem node_parent {id : String} (inside : id ∈ browse.nodesById.keys) :
    ((browse.nodesById.get? id).bind fun node => node.parentId) = browse.resolvedParentId id := by
  obtain ⟨node, found⟩ := (Dict.mem_keys _ _).mp inside
  obtain ⟨source, -, rfl, rfl⟩ := browse.get?_nodesById found
  rw [found]
  rfl

/-- Without a chosen parent there is none in either plane. -/
theorem no_plane_parent {id : String} (top : browse.resolvedParentId id = none) :
    browse.hierarchyParentById.get? id = none ∧ browse.compositionParentById.get? id = none := by
  have none {plane : ReferenceClass} (chosen : ∀ l, browse.Leads plane l → browse.mappedId l.target = id → False) :
      ((browse.selectedByChild plane).mapValues fun _ selected => browse.mappedId selected.parent).get? id = none := by
    rw [Option.eq_none_iff_forall_ne_some]
    intro parent h
    obtain ⟨l, leads, target, -⟩ := (browse.planeParent_iff _ _ _).mp h
    exact chosen l leads target
  have absent : ∀ l, browse.Chosen l → browse.mappedId l.target = id → False := fun l chosen target => by
    have := (browse.resolvedParentId_iff id _).mpr ⟨l, chosen, target, rfl⟩
    rw [top] at this
    cases this
  have hierarchy : ∀ l, browse.Leads .hierarchy l → browse.mappedId l.target = id → False :=
    fun l leads => absent l (.inl leads)
  refine ⟨none hierarchy, none fun l leads target => absent l (.inr ⟨leads, fun other m within same => ?_⟩) target⟩
  obtain ⟨chosen, found⟩ := browse.selectedByChild_isSome m within
  obtain ⟨leading, leads', target', -⟩ := browse.selectedByChild_eq found
  exact hierarchy leading leads' (target'.trans (same.trans target))

theorem path_parent {id : String} (inside : id ∈ browse.nodesById.keys) :
    canonicalParent browse.published id = browse.resolvedParentId id := by
  have index : ((browse.nodesById.mapValues fun id _ => browse.resolvedParentId id).get? id).join =
      browse.resolvedParentId id := by
    obtain ⟨node, found⟩ := (Dict.mem_keys _ _).mp inside
    rw [Dict.get?_mapValues, found]
    rfl
  change either (browse.hierarchyParentById.get? id) (either
    ((browse.nodesById.mapValues fun id _ => browse.resolvedParentId id).get? id).join
    (either (browse.compositionParentById.get? id) ((browse.nodesById.get? id).bind fun node => node.parentId))) = _
  rw [index, browse.node_parent inside]
  cases top : browse.resolvedParentId id with
  | none =>
      obtain ⟨hierarchy, composition⟩ := browse.no_plane_parent top
      rw [hierarchy, composition, either_none, either_none, either_none]
  | some parent =>
      rw [either_some (browse.resolved_ne_empty top)]
      cases hierarchy : browse.hierarchyParentById.get? id with
      | none => rw [either_none]
      | some other =>
          have filled := browse.resolved_ne_empty top
          rw [resolvedParentId, hierarchy, Option.some.injEq] at top
          rw [top, either_some filled]

/-- The parent in the responses of an element that only the composition gives a
parent. -/
theorem response_of_composed {l : Link} (leads : browse.Leads .composition l)
    (composed : ∀ other ∈ browse.links, other.relationshipClass = .hierarchy →
      browse.mappedId other.target ≠ browse.mappedId l.target) :
    parentIdForNode browse.published (browse.mappedId l.target) = some (browse.mappedId l.source) ↔
      ModelBuilder.kindForNode l.target.toOpcUaNodeInfo ≠ .asset ∧
        ModelBuilder.kindForNode l.target.toOpcUaNodeInfo ≠ .eventSource ∧
        browse.FirstBrowsedParent (browse.mappedId l.target) (browse.mappedId l.source) := by
  have resolved := (browse.resolvedParentId_iff _ _).mpr ⟨l, .inr ⟨leads, composed⟩, rfl, rfl⟩
  have notRoot : browse.mappedId l.target ∉ browse.published.rootIds := fun m => by
    rw [((browse.mem_rootIds _).mp m).2] at resolved
    cases resolved
  have hierarchy : browse.hierarchyParentById.get? (browse.mappedId l.target) = none := by
    rw [Option.eq_none_iff_forall_ne_some]
    intro parent h
    obtain ⟨other, leads', target, -⟩ := (browse.hierarchyParent_iff _ _).mp h
    exact composed other leads'.present leads'.within target
  have unlisted : (browse.hierarchyChildrenById.entries.find? fun entry => browse.mappedId l.target ∈ entry.2) = none := by
    rw [List.find?_eq_none]
    intro entry m inside
    rw [decide_eq_true_eq] at inside
    have child := (Dict.mem_bucket_iff _ entry.1 _).mpr ⟨entry.2, m, inside⟩
    have parent := (browse.mem_childrenByParent browse.hierarchyParentById entry.1 (browse.mappedId l.target)).mp child
    rw [hierarchy] at parent
    cases parent
  have index : (reverseParentIndex browse.published).get? (browse.mappedId l.target) =
      ((browse.nodesById.mapValues fun _ node => node.children).entries.find? fun entry =>
        browse.mappedId l.target ∈ entry.2).map Prod.fst := by
    rw [get?_reverseParentIndex]
    change ((browse.hierarchyChildrenById.entries.find? _).map Prod.fst).or _ = _
    rw [unlisted, Option.map_none, Option.none_or]
    rfl
  rw [← firstBrowsedParent_iff, ← index]
  have kind := browse.kindOf_published (browse.link_target leads.present) rfl
  unfold parentIdForNode
  rw [if_neg notRoot, show browse.published.hierarchyParentById.get? (browse.mappedId l.target) = none from hierarchy,
    show browse.published.parentById.get? (browse.mappedId l.target) = none from hierarchy, kind]
  cases ModelBuilder.kindForNode l.target.toOpcUaNodeInfo <;> simp

/-- **The four readers agree on every element exactly if every composed element
is shown below the parent it was browsed through.** -/
theorem oneParent_iff {model : PublishedModel} (built : browse.buildModel = .ok model) :
    (∀ id ∈ model.nodesById.keys, OneParent model id) ↔ browse.ParentsShown := by
  obtain ⟨-, rfl⟩ := browse.buildModel_ok built
  constructor
  · intro all l leads composed
    have inside := (browse.mem_keys_nodesById _).mpr ⟨_, browse.link_target leads.present, rfl⟩
    have resolved := (browse.resolvedParentId_iff _ _).mpr ⟨l, .inr ⟨leads, composed⟩, rfl, rfl⟩
    refine (browse.response_of_composed leads composed).mp ?_
    rw [(all _ inside).response, published_parent, resolved]
  · intro shown id inside
    refine ⟨?_, ?_, ?_, ?_⟩
    · rw [published_parent]
      exact browse.node_parent inside
    · rw [published_parent]
      cases top : browse.resolvedParentId id with
      | none => exact if_pos ((browse.mem_rootIds id).mpr ⟨inside, top⟩)
      | some parent =>
          obtain ⟨l, chosen, rfl, rfl⟩ := (browse.resolvedParentId_iff _ _).mp top
          rcases chosen with leads | ⟨leads, composed⟩
          · have notRoot : browse.mappedId l.target ∉ browse.published.rootIds := fun m => by
              rw [((browse.mem_rootIds _).mp m).2] at top
              cases top
            have hierarchy := (browse.hierarchyParent_iff _ _).mpr ⟨l, leads, rfl, rfl⟩
            unfold parentIdForNode
            rw [if_neg notRoot, show browse.published.hierarchyParentById.get? (browse.mappedId l.target) = _ from hierarchy]
          · exact (browse.response_of_composed leads composed).mpr (shown l leads composed)
    · rw [published_parent]
      exact browse.path_parent inside
    · rw [published_parent]
      exact ⟨fun top => (browse.mem_rootIds id).mpr ⟨inside, top⟩, fun m => ((browse.mem_rootIds id).mp m).2⟩

end I3x.Browse

namespace I3x

/-- A property that two objects own, browsed through the one with the greater
node id. -/
def Plant.browsedThrough : Browse :=
  browse [node "A" "Object" [hasProperty "C"], node "B" "Object" [hasProperty "C"],
    { node "C" "Variable" [] with parentNodeId := some "ns=1;s=B" }]

theorem Plant.browsedThrough_accepted : Plant.browsedThrough.refusal = none := by decide

/-- **The responses name the parent through which a property was browsed, not the
chosen one.** -/
theorem Browse.browsedThrough_parents_differ :
    Plant.browsedThrough.buildModel = .ok Plant.browsedThrough.published ∧
      ¬ ∀ id ∈ Plant.browsedThrough.published.nodesById.keys, Api.OneParent Plant.browsedThrough.published id := by
  refine ⟨Plant.browsedThrough.buildModel_accepted Plant.browsedThrough_accepted, fun all => ?_⟩
  have response := (all "property-7133d1e37f5c2c62" (by decide)).response
  have shown : Api.parentIdForNode Plant.browsedThrough.published "property-7133d1e37f5c2c62" =
      some "asset-cd1e6b2d19c59f72" := by decide
  have chosen : Plant.browsedThrough.published.parent "property-7133d1e37f5c2c62" =
      some "asset-5b7e0a0f0c568c33" := by decide
  rw [shown, chosen] at response
  exact absurd response (by decide)

theorem Browse.browsedThrough_oneParent_iff :
    (∀ id ∈ Plant.browsedThrough.published.nodesById.keys, Api.OneParent Plant.browsedThrough.published id) ↔
      Plant.browsedThrough.ParentsShown :=
  Plant.browsedThrough.oneParent_iff (Plant.browsedThrough.buildModel_accepted Plant.browsedThrough_accepted)

end I3x

import I3xServer.Model.Published

/-!
# References that survive

Which references of the browsed nodes are still visible as a relationship
between their elements. A hierarchy reference always is, since a parent that is
not chosen becomes a graph edge. A composition reference is lost unless its
source is chosen, and a graph reference is lost when a later node has the same
element id as its source.
-/
namespace I3x
open Container Mapper

namespace PublishedModel

/-- Some relationship of the first element contains the second. -/
def Related (model : PublishedModel) (first second : String) : Prop :=
  ∃ relationship, second ∈ model.relationshipsById.targets first relationship

end PublishedModel

namespace Browse
variable (browse : Browse)

/-- Every outgoing reference between nodes of the model relates their elements. -/
def ReferencesConserved (model : PublishedModel) : Prop :=
  ∀ source ∈ browse.sources, ∀ ref ∈ source.outgoingReferences, ∀ target,
    browse.bySourceNode.get? ref.targetNodeId = some target →
    model.Related (browse.mappedId source) (browse.mappedId target)

/-- A reference that the builder turns into an edge. -/
inductive Kept (l : Link) : Prop
  | hierarchy : l.relationshipClass = .hierarchy → Kept l
  | composition : l.relationshipClass = .composition →
      (∃ leading, browse.Leads .composition leading ∧
        browse.mappedId leading.target = browse.mappedId l.target ∧
        browse.mappedId leading.source = browse.mappedId l.source) → Kept l
  | graph : l.relationshipClass ≠ .hierarchy → l.relationshipClass ≠ .composition →
      browse.Latest l.source → Kept l

/-- A reference between two elements, seen from either of them. -/
def Joins (l : Link) (first second : String) : Prop :=
  (browse.mappedId l.source = first ∧ browse.mappedId l.target = second) ∨
    (browse.mappedId l.source = second ∧ browse.mappedId l.target = first)

theorem edge_of_structural {relationship first second : String} {childrenById : Dict String (List String)}
    {down up : String} (m : (⟨first, relationship, second⟩ : Edge) ∈ structuralEdges childrenById down up) :
    second ∈ childrenById.bucket first ∨ first ∈ childrenById.bucket second := by
  obtain ⟨parent, child, inside, eq | eq⟩ := (mem_structuralEdges _ _ _ _).mp m
  · obtain ⟨rfl, -, rfl⟩ := (Edge.mk.injEq _ _ _ _ _ _).mp eq
    exact Or.inl inside
  · obtain ⟨rfl, -, rfl⟩ := (Edge.mk.injEq _ _ _ _ _ _).mp eq
    exact Or.inr inside

theorem structural_edge {childrenById : Dict String (List String)} {parentId childId : String}
    (inside : childId ∈ childrenById.bucket parentId) (down up : String) :
    (⟨parentId, down, childId⟩ : Edge) ∈ structuralEdges childrenById down up ∧
      (⟨childId, up, parentId⟩ : Edge) ∈ structuralEdges childrenById down up :=
  ⟨(mem_structuralEdges _ _ _ _).mpr ⟨_, _, inside, Or.inl rfl⟩,
    (mem_structuralEdges _ _ _ _).mpr ⟨_, _, inside, Or.inr rfl⟩⟩

/-- A graph reference stems from a graph reference of the browsed nodes or from a
hierarchy candidate that was not chosen. -/
theorem GraphReference.link {first relationship second : String}
    (h : browse.GraphReference first relationship second) :
    ∃ l ∈ browse.links, browse.Kept l ∧ browse.Joins l first second := by
  obtain ⟨entry, m, rfl, -⟩ := (browse.graphReference_iff _ _ _).mp h
  rcases (browse.mem_graphEntriesById _ _).mp m with ⟨l, inside, latest, rfl, rfl⟩ | ⟨candidate, lost, rfl⟩
  · obtain ⟨present, notHierarchy, notComposition⟩ := (browse.mem_graphLinks l).mp inside
    exact ⟨l, present, .graph notHierarchy notComposition latest, Or.inl ⟨rfl, rfl⟩⟩
  · obtain ⟨-, -, inside, -⟩ := (browse.mem_demoted _ _).mp lost
    obtain ⟨l, present, within, target, rfl⟩ := (browse.mem_candidates _ _ _).mp inside
    exact ⟨l, present, .hierarchy within, Or.inr ⟨rfl, target⟩⟩

theorem related_iff_edge (first second : String) :
    browse.published.Related first second ↔ ∃ relationship, (⟨first, relationship, second⟩ : Edge) ∈ browse.edges := by
  simp only [PublishedModel.Related, published]
  exact exists_congr fun relationship => browse.mem_relationships first relationship second

theorem related_of_edge {first relationship second : String}
    (m : (⟨first, relationship, second⟩ : Edge) ∈ browse.edges) : browse.published.Related first second := by
  rw [related_iff_edge]
  exact ⟨relationship, m⟩

theorem related_of_hierarchy {parentId childId : String}
    (inside : childId ∈ browse.hierarchyChildrenById.bucket parentId) :
    browse.published.Related parentId childId ∧ browse.published.Related childId parentId :=
  have ⟨down, up⟩ := structural_edge inside "HasChildren" "HasParent"
  ⟨browse.related_of_edge ((browse.mem_edges _).mpr (.inl down)),
    browse.related_of_edge ((browse.mem_edges _).mpr (.inl up))⟩

theorem related_of_composition {parentId childId : String}
    (inside : childId ∈ browse.compositionChildrenById.bucket parentId) :
    browse.published.Related parentId childId ∧ browse.published.Related childId parentId :=
  have ⟨down, up⟩ := structural_edge inside "HasComponent" "ComponentOf"
  ⟨browse.related_of_edge ((browse.mem_edges _).mpr (.inr (.inl down))),
    browse.related_of_edge ((browse.mem_edges _).mpr (.inr (.inl up)))⟩

theorem related_of_reference {source relationship target : String}
    (h : browse.GraphReference source relationship target) :
    browse.published.Related source target ∧ browse.published.Related target source := by
  have out := (browse.mem_graphEdges _).mpr ⟨_, _, _, h, .inl rfl⟩
  have back := (browse.mem_graphEdges _).mpr ⟨_, _, _, h, .inr rfl⟩
  exact ⟨browse.related_of_edge ((browse.mem_edges _).mpr (.inr (.inr out))),
    browse.related_of_edge ((browse.mem_edges _).mpr (.inr (.inr back)))⟩

/-- What relates two elements: a structural parent or a graph reference, in
either direction. -/
theorem related_cases {first second : String} (h : browse.published.Related first second) :
    (second ∈ browse.hierarchyChildrenById.bucket first ∨ first ∈ browse.hierarchyChildrenById.bucket second) ∨
      (second ∈ browse.compositionChildrenById.bucket first ∨
        first ∈ browse.compositionChildrenById.bucket second) ∨
      ∃ relationship, browse.GraphReference first relationship second ∨
        browse.GraphReference second relationship first := by
  obtain ⟨relationship, m⟩ := (browse.related_iff_edge _ _).mp h
  rcases (browse.mem_edges _).mp m with edge | edge | edge
  · exact .inl (edge_of_structural edge)
  · exact .inr (.inl (edge_of_structural edge))
  · obtain ⟨source, id, target, reference, eq | eq⟩ := (browse.mem_graphEdges _).mp edge
    · obtain ⟨rfl, -, rfl⟩ := (Edge.mk.injEq _ _ _ _ _ _).mp eq
      exact .inr (.inr ⟨id, .inl reference⟩)
    · obtain ⟨rfl, -, rfl⟩ := (Edge.mk.injEq _ _ _ _ _ _).mp eq
      exact .inr (.inr ⟨id, .inr reference⟩)

theorem related_symm {first second : String} (h : browse.published.Related first second) :
    browse.published.Related second first := by
  rcases browse.related_cases h with (inside | inside) | (inside | inside) | ⟨relationship, reference | reference⟩
  · exact (browse.related_of_hierarchy inside).2
  · exact (browse.related_of_hierarchy inside).1
  · exact (browse.related_of_composition inside).2
  · exact (browse.related_of_composition inside).1
  · exact (browse.related_of_reference reference).2
  · exact (browse.related_of_reference reference).1

theorem related_of_graphEntry {source : String} {entry : GraphEntry}
    (m : entry ∈ browse.graphEntriesById.bucket source) : browse.published.Related source entry.target :=
  (browse.related_of_reference ((browse.graphReference_iff _ _ _).mpr ⟨entry, m, rfl, rfl⟩)).1

/-- Every hierarchy candidate of a child is its parent or one of its graph edges. -/
theorem related_of_hierarchyLink {l : Link} (present : l ∈ browse.links)
    (within : l.relationshipClass = .hierarchy) :
    browse.published.Related (browse.mappedId l.source) (browse.mappedId l.target) := by
  obtain ⟨chosen, found⟩ := browse.selectedByChild_isSome present within
  obtain ⟨leading, leads, target, rfl⟩ := browse.selectedByChild_eq found
  by_cases same : l.source.nodeId = leading.source.nodeId
  · refine (browse.related_of_hierarchy ((browse.mem_childrenByParent _ _ _).mpr
      ((browse.hierarchyParent_iff _ _).mpr ⟨leading, leads, target, ?_⟩))).1
    rw [browse.sources_eq (browse.link_source present) (browse.link_source leads.present) same]
  · have lost : (browse.mappedId l.target, browse.candidate l) ∈ browse.demoted :=
      (browse.mem_demoted _ _).mpr ⟨_, found, (browse.mem_candidates _ _ _).mpr ⟨l, present, within, rfl, rfl⟩,
        fun both => same both.1⟩
    exact browse.related_symm (browse.related_of_graphEntry
      ((browse.mem_graphEntriesById _ _).mpr (Or.inr ⟨_, lost, rfl⟩)))

theorem related_of_kept {l : Link} (present : l ∈ browse.links) (kept : browse.Kept l) :
    browse.published.Related (browse.mappedId l.source) (browse.mappedId l.target) := by
  cases kept with
  | hierarchy within => exact browse.related_of_hierarchyLink present within
  | composition within leading =>
      obtain ⟨leading, leads, target, source⟩ := leading
      exact (browse.related_of_composition ((browse.mem_childrenByParent _ _ _).mpr
        ((browse.compositionParent_iff _ _).mpr ⟨leading, leads, target, source⟩))).1
  | graph notHierarchy notComposition latest =>
      exact browse.related_of_graphEntry ((browse.mem_graphEntriesById _ _).mpr (Or.inl
        ⟨l, (browse.mem_graphLinks l).mpr ⟨present, notHierarchy, notComposition⟩, latest, rfl, rfl⟩))

/-- Two elements are related exactly if a kept reference joins them. -/
theorem related_iff (first second : String) :
    browse.published.Related first second ↔ ∃ l ∈ browse.links, browse.Kept l ∧ browse.Joins l first second := by
  constructor
  · have hierarchy {parentId childId : String} (inside : childId ∈ browse.hierarchyChildrenById.bucket parentId) :=
      (browse.hierarchyParent_iff _ _).mp ((browse.mem_childrenByParent _ _ _).mp inside)
    have composition {parentId childId : String}
        (inside : childId ∈ browse.compositionChildrenById.bucket parentId) :=
      (browse.compositionParent_iff _ _).mp ((browse.mem_childrenByParent _ _ _).mp inside)
    intro related
    rcases browse.related_cases related with
      (inside | inside) | (inside | inside) | ⟨relationship, reference | reference⟩
    · obtain ⟨l, leads, target, source⟩ := hierarchy inside
      exact ⟨l, leads.present, .hierarchy leads.within, .inl ⟨source, target⟩⟩
    · obtain ⟨l, leads, target, source⟩ := hierarchy inside
      exact ⟨l, leads.present, .hierarchy leads.within, .inr ⟨source, target⟩⟩
    · obtain ⟨l, leads, target, source⟩ := composition inside
      exact ⟨l, leads.present, .composition leads.within ⟨l, leads, rfl, rfl⟩, .inl ⟨source, target⟩⟩
    · obtain ⟨l, leads, target, source⟩ := composition inside
      exact ⟨l, leads.present, .composition leads.within ⟨l, leads, rfl, rfl⟩, .inr ⟨source, target⟩⟩
    · exact reference.link browse
    · obtain ⟨l, present, kept, joins⟩ := reference.link browse
      exact ⟨l, present, kept, joins.symm⟩
  · rintro ⟨l, present, kept, ⟨rfl, rfl⟩ | ⟨rfl, rfl⟩⟩
    · exact browse.related_of_kept present kept
    · exact browse.related_symm (browse.related_of_kept present kept)

/-- A reference that is kept, or whose elements another kept reference joins. -/
def Spared (l : Link) : Prop :=
  browse.Kept l ∨ ∃ other ∈ browse.links, browse.Kept other ∧
    browse.Joins other (browse.mappedId l.source) (browse.mappedId l.target)

theorem spared_iff {l : Link} (present : l ∈ browse.links) :
    browse.Spared l ↔ browse.published.Related (browse.mappedId l.source) (browse.mappedId l.target) := by
  rw [related_iff]
  exact ⟨fun h => h.elim (fun kept => ⟨l, present, kept, Or.inl ⟨rfl, rfl⟩⟩) id, Or.inr⟩

/-- The outgoing references of a node are the links that carry a reference type. -/
theorem exists_link {source target : BrowsedNode} {ref : OpcUaReferenceInfo} (inside : source ∈ browse.sources)
    (m : ref ∈ source.outgoingReferences) (found : browse.bySourceNode.get? ref.targetNodeId = some target) :
    ∃ l ∈ browse.links, l.referenceTypeId.isSome = true ∧ l.source = source ∧ l.target = target := by
  have entry : (⟨target, some ref.referenceTypeId, some ref.referenceBrowseName⟩ : ReferenceEntry) ∈
      browse.referenceEntries source := by
    rw [referenceEntries, if_neg (List.ne_nil_of_mem m)]
    exact List.mem_filterMap.mpr ⟨ref, m, by rw [found]; rfl⟩
  obtain ⟨kept, present, sameTarget, sameType⟩ := exists_unseenEntry entry List.not_mem_nil
  refine ⟨browse.link source kept, List.mem_flatMap.mpr ⟨source, inside, List.mem_map.mpr ⟨kept, present, rfl⟩⟩, ?_,
    rfl, ?_⟩
  · change kept.referenceTypeId.isSome = true
    rw [sameType]
    rfl
  · exact browse.sources_eq (browse.mem_referenceEntries (mem_unseenEntries present))
      (browse.mem_sources_of_get? found) sameTarget

theorem exists_reference {l : Link} (present : l ∈ browse.links) (outgoing : l.referenceTypeId.isSome = true) :
    ∃ ref ∈ l.source.outgoingReferences, browse.bySourceNode.get? ref.targetNodeId = some l.target := by
  obtain ⟨source, -, made⟩ := List.mem_flatMap.mp present
  obtain ⟨entry, m, rfl⟩ := List.mem_map.mp made
  have inside := mem_unseenEntries m
  rw [referenceEntries] at inside
  split at inside
  · obtain ⟨child, -, rfl⟩ := List.mem_map.mp inside
    cases outgoing
  · obtain ⟨ref, isRef, made⟩ := List.mem_filterMap.mp inside
    obtain ⟨target, found, rfl⟩ := Option.map_eq_some_iff.mp made
    exact ⟨ref, isRef, found⟩

/-- **The model shows every reference exactly if every reference is kept or runs
beside one that is.** -/
theorem referencesConserved_iff {model : PublishedModel} (built : browse.buildModel = .ok model) :
    browse.ReferencesConserved model ↔
      ∀ l ∈ browse.links, l.referenceTypeId.isSome = true → browse.Spared l := by
  obtain ⟨-, rfl⟩ := browse.buildModel_ok built
  constructor
  · intro conserved l present outgoing
    obtain ⟨ref, m, found⟩ := browse.exists_reference present outgoing
    exact (browse.spared_iff present).mpr (conserved l.source (browse.link_source present) ref m l.target found)
  · intro spared source inside ref m target found
    obtain ⟨l, present, outgoing, rfl, rfl⟩ := browse.exists_link inside m found
    exact (browse.spared_iff present).mp (spared l present outgoing)

end Browse

/-- Two objects with one property. -/
def Plant.shared : Browse :=
  browse [node "A" "Object" [hasProperty "C"], node "B" "Object" [hasProperty "C"], node "C" "Variable" []]

theorem Plant.shared_accepted : Plant.shared.refusal = none := by decide

/-- **The second owner of a property is not related to it.** -/
theorem Browse.shared_not_conserved :
    Plant.shared.buildModel = .ok Plant.shared.published ∧
      ¬ Plant.shared.ReferencesConserved Plant.shared.published := by
  refine ⟨Plant.shared.buildModel_accepted Plant.shared_accepted, fun conserved => ?_⟩
  obtain ⟨relationship, m⟩ := conserved (Plant.node "B" "Object" [Plant.hasProperty "C"]) (by decide)
    (Plant.hasProperty "C") (by decide) (Plant.node "C" "Variable" []) rfl
  have none : ((Plant.shared.relationshipsById.get? "asset-cd1e6b2d19c59f72").getD .empty).entries = [] := by decide
  have empty : ((Plant.shared.relationshipsById.get? "asset-cd1e6b2d19c59f72").getD .empty) = .empty :=
    Dict.ext_entries none
  change _ ∈ Dict.bucket ((Plant.shared.relationshipsById.get? "asset-cd1e6b2d19c59f72").getD .empty) _ at m
  rw [empty] at m
  cases m

theorem Browse.shared_conserved_iff :
    Plant.shared.ReferencesConserved Plant.shared.published ↔
      ∀ l ∈ Plant.shared.links, l.referenceTypeId.isSome = true → Plant.shared.Spared l :=
  Plant.shared.referencesConserved_iff (Plant.shared.buildModel_accepted Plant.shared_accepted)

end I3x

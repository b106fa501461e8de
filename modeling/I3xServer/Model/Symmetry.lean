import I3xServer.Model.Conservation

/-!
# Relationships in both directions

Every relationship id has an inverse, and an element is among the targets of a
relationship exactly if the other finds it among those of the inverse. The ids
of graph relationships keep clear of the structural ids, but a namespace whose
uri begins like an inverse id can make one graph id the inverse of another.
-/
namespace I3x
open Container Mapper

namespace PublishedModel
variable (model : PublishedModel)

/-- The pairs of relationship ids that are each other's inverse. -/
inductive Inverse : String → String → Prop
  | hierarchy : Inverse "HasChildren" "HasParent"
  | composition : Inverse "HasComponent" "ComponentOf"
  | graph {relationship : String} : relationship ∈ model.graphRelationshipNames →
      Inverse relationship (inverseRelationship relationship)

/-- What the relationship map and the structural indexes promise. -/
structure Symmetric : Prop where
  paired : ∀ relationship inverse, model.Inverse relationship inverse → ∀ first second,
    second ∈ model.relationshipsById.targets first relationship ↔
      first ∈ model.relationshipsById.targets second inverse
  nodup : ∀ id relationship, (model.relationshipsById.targets id relationship).Nodup
  hierarchy : ∀ parentId childId, childId ∈ model.hierarchyChildrenById.bucket parentId ↔
    model.hierarchyParentById.get? childId = some parentId
  composition : ∀ parentId childId, childId ∈ model.compositionChildrenById.bucket parentId ↔
    model.compositionParentById.get? childId = some parentId

end PublishedModel

/-! ## Ids of graph relationships -/

theorem colon_of_qualified (namespaceUri name : String) : ':' ∈ (namespaceUri ++ ":" ++ name).toList := by
  simp [String.toList_append]

theorem structural_no_colon {relationship : String} (structural : relationship ∈ structuralRelationships) :
    ':' ∉ relationship.toList := by
  simp only [structuralRelationships, List.mem_cons, List.not_mem_nil, or_false] at structural
  rcases structural with rfl | rfl | rfl | rfl <;> decide

/-- A graph relationship id is never a structural one. -/
theorem graphRelationshipId_not_structural (registered : List Registered) (name namespaceUri : String) :
    graphRelationshipId registered name namespaceUri ∉ structuralRelationships := by
  intro structural
  unfold graphRelationshipId at structural
  split at structural
  · exact structural_no_colon structural (colon_of_qualified namespaceUri name)
  · rename_i plain
    simp only [qualifies, Bool.or_eq_true, decide_eq_true_eq, not_or] at plain
    exact plain.1.1.2 structural

theorem inverseRelationship_not_structural (relationship : String) :
    inverseRelationship relationship ∉ structuralRelationships := by
  intro structural
  have start : 'i' ∈ (inverseRelationship relationship).toList.head? := by
    simp [inverseRelationship, String.toList_append]
  simp only [structuralRelationships, List.mem_cons, List.not_mem_nil, or_false] at structural
  rcases structural with eq | eq | eq | eq <;> rw [eq] at start <;> revert start <;> decide

theorem inverseRelationship_injective {first second : String}
    (h : inverseRelationship first = inverseRelationship second) : first = second := by
  have chars := congrArg String.toList h
  simp only [inverseRelationship, String.toList_append, List.append_cancel_left_eq] at chars
  exact String.toList_inj.mp chars

namespace Browse
variable (browse : Browse)

theorem GraphReference.not_structural {source relationship target : String}
    (h : browse.GraphReference source relationship target) : relationship ∉ structuralRelationships := by
  obtain ⟨entry, -, -, rfl⟩ := (browse.graphReference_iff _ _ _).mp h
  exact graphRelationshipId_not_structural _ _ _

theorem mem_relationships_graph (first relationship second : String)
    (graph : relationship ∉ structuralRelationships) :
    second ∈ browse.relationshipsById.targets first relationship ↔
      browse.GraphReference first relationship second ∨
        ∃ forward, relationship = inverseRelationship forward ∧ browse.GraphReference second forward first := by
  have clear {childrenById : Dict String (List String)} {down up : String} (isDown : down ∈ structuralRelationships)
      (isUp : up ∈ structuralRelationships) :
      (⟨first, relationship, second⟩ : Edge) ∉ structuralEdges childrenById down up := by
    intro m
    obtain ⟨_, _, _, eq | eq⟩ := (mem_structuralEdges _ _ _ _).mp m
    · exact graph (((Edge.mk.injEq _ _ _ _ _ _).mp eq).2.1 ▸ isDown)
    · exact graph (((Edge.mk.injEq _ _ _ _ _ _).mp eq).2.1 ▸ isUp)
  rw [mem_relationships, mem_edges, mem_graphEdges]
  constructor
  · rintro (m | m | ⟨source, id, target, reference, eq | eq⟩)
    · exact absurd m (clear (by decide) (by decide))
    · exact absurd m (clear (by decide) (by decide))
    · obtain ⟨rfl, rfl, rfl⟩ := (Edge.mk.injEq _ _ _ _ _ _).mp eq
      exact .inl reference
    · obtain ⟨rfl, rfl, rfl⟩ := (Edge.mk.injEq _ _ _ _ _ _).mp eq
      exact .inr ⟨id, rfl, reference⟩
  · rintro (reference | ⟨forward, rfl, reference⟩)
    · exact .inr (.inr ⟨_, _, _, reference, .inl rfl⟩)
    · exact .inr (.inr ⟨_, _, _, reference, .inr rfl⟩)

theorem mem_relationships_structural (first relationship second : String)
    (structural : relationship ∈ structuralRelationships) :
    second ∈ browse.relationshipsById.targets first relationship ↔
      (relationship = "HasChildren" ∧ second ∈ browse.hierarchyChildrenById.bucket first) ∨
      (relationship = "HasParent" ∧ first ∈ browse.hierarchyChildrenById.bucket second) ∨
      (relationship = "HasComponent" ∧ second ∈ browse.compositionChildrenById.bucket first) ∨
      (relationship = "ComponentOf" ∧ first ∈ browse.compositionChildrenById.bucket second) := by
  rw [mem_relationships, mem_edges, mem_structuralEdges, mem_structuralEdges, mem_graphEdges]
  constructor
  · rintro (⟨parent, child, inside, eq | eq⟩ | ⟨parent, child, inside, eq | eq⟩ | ⟨_, _, _, reference, eq | eq⟩)
    · obtain ⟨rfl, rfl, rfl⟩ := (Edge.mk.injEq _ _ _ _ _ _).mp eq
      exact .inl ⟨rfl, inside⟩
    · obtain ⟨rfl, rfl, rfl⟩ := (Edge.mk.injEq _ _ _ _ _ _).mp eq
      exact .inr (.inl ⟨rfl, inside⟩)
    · obtain ⟨rfl, rfl, rfl⟩ := (Edge.mk.injEq _ _ _ _ _ _).mp eq
      exact .inr (.inr (.inl ⟨rfl, inside⟩))
    · obtain ⟨rfl, rfl, rfl⟩ := (Edge.mk.injEq _ _ _ _ _ _).mp eq
      exact .inr (.inr (.inr ⟨rfl, inside⟩))
    · obtain ⟨rfl, rfl, rfl⟩ := (Edge.mk.injEq _ _ _ _ _ _).mp eq
      exact absurd structural (reference.not_structural browse)
    · obtain ⟨rfl, rfl, rfl⟩ := (Edge.mk.injEq _ _ _ _ _ _).mp eq
      exact absurd structural (inverseRelationship_not_structural _)
  · rintro (⟨rfl, inside⟩ | ⟨rfl, inside⟩ | ⟨rfl, inside⟩ | ⟨rfl, inside⟩)
    · exact .inl ⟨_, _, inside, .inl rfl⟩
    · exact .inl ⟨_, _, inside, .inr rfl⟩
    · exact .inr (.inl ⟨_, _, inside, .inl rfl⟩)
    · exact .inr (.inl ⟨_, _, inside, .inr rfl⟩)

/-- The first element refers to the second under a graph relationship id: by a
graph reference of its node, or by a hierarchy reference to it that lost against
another one. -/
inductive Refers (first relationship second : String) : Prop
  | graph (l : Link) : l ∈ browse.graphLinks → browse.Latest l.source → browse.mappedId l.source = first →
      browse.mappedId l.target = second →
      graphRelationshipId browse.registered l.name ((browse.referenceNamespace l.referenceTypeId).getD "") =
        relationship → Refers first relationship second
  | organizedBy (candidate : Candidate) : (first, candidate) ∈ browse.demoted →
      browse.mappedId candidate.parent = second →
      graphRelationshipId browse.registered "OrganizedBy" i3xNamespace = relationship →
      Refers first relationship second

theorem graphReference_iff_refers (first relationship second : String) :
    browse.GraphReference first relationship second ↔ browse.Refers first relationship second := by
  rw [graphReference_iff]
  constructor
  · rintro ⟨entry, m, rfl, rfl⟩
    rcases (browse.mem_graphEntriesById _ _).mp m with ⟨l, inside, latest, rfl, rfl⟩ | ⟨candidate, lost, rfl⟩
    · exact .graph l inside latest rfl rfl rfl
    · exact .organizedBy candidate lost rfl rfl
  · rintro (⟨l, inside, latest, rfl, rfl, rfl⟩ | ⟨candidate, lost, rfl, rfl⟩)
    · exact ⟨browse.graphEntry l, (browse.mem_graphEntriesById _ _).mpr (.inl ⟨l, inside, latest, rfl, rfl⟩),
        rfl, rfl⟩
    · exact ⟨browse.demotedEntry candidate, (browse.mem_graphEntriesById _ _).mpr (.inr ⟨candidate, lost, rfl⟩),
        rfl, rfl⟩

/-- Where the inverse id of one graph relationship is the id of another, the
references under the two ids are each other's reverse. -/
def InversesAgree : Prop :=
  ∀ relationship ∈ graphRelationshipIds browse.registered, ∀ first second,
    (∀ forward, relationship = inverseRelationship forward → browse.Refers second forward first →
      browse.Refers first relationship second ∨ browse.Refers second (inverseRelationship relationship) first) ∧
    (browse.Refers second (inverseRelationship relationship) first →
      browse.Refers first relationship second ∨
        ∃ forward, relationship = inverseRelationship forward ∧ browse.Refers second forward first)

theorem graphRelationshipIds_not_structural {relationship : String}
    (m : relationship ∈ graphRelationshipIds browse.registered) : relationship ∉ structuralRelationships := by
  obtain ⟨pair, -, rfl⟩ := List.mem_map.mp m
  exact graphRelationshipId_not_structural _ _ _

/-- One graph relationship is paired with its inverse exactly if its references
agree with those of the ids it shares. -/
theorem graph_paired_iff {relationship : String} (m : relationship ∈ graphRelationshipIds browse.registered)
    (first second : String) :
    (second ∈ browse.relationshipsById.targets first relationship ↔
        first ∈ browse.relationshipsById.targets second (inverseRelationship relationship)) ↔
      (∀ forward, relationship = inverseRelationship forward → browse.Refers second forward first →
        browse.Refers first relationship second ∨ browse.Refers second (inverseRelationship relationship) first) ∧
      (browse.Refers second (inverseRelationship relationship) first →
        browse.Refers first relationship second ∨
          ∃ forward, relationship = inverseRelationship forward ∧ browse.Refers second forward first) := by
  rw [mem_relationships_graph _ _ _ _ (browse.graphRelationshipIds_not_structural m),
    mem_relationships_graph _ _ _ _ (inverseRelationship_not_structural relationship)]
  simp only [graphReference_iff_refers]
  constructor
  · intro same
    refine ⟨fun forward eq reference => ?_, fun back => same.mpr (.inl back)⟩
    rcases same.mp (.inr ⟨forward, eq, reference⟩) with back | ⟨other, eq', straight⟩
    · exact .inr back
    · exact .inl (inverseRelationship_injective eq' ▸ straight)
  · rintro ⟨forwards, backs⟩
    constructor
    · rintro (straight | ⟨forward, eq, reference⟩)
      · exact .inr ⟨relationship, rfl, straight⟩
      · exact (forwards forward eq reference).elim (fun straight => .inr ⟨relationship, rfl, straight⟩) .inl
    · rintro (back | ⟨other, eq, straight⟩)
      · exact backs back
      · exact .inl (inverseRelationship_injective eq ▸ straight)

/-- **The relationships of a published model are symmetric exactly if the inverse
ids agree.** -/
theorem symmetric_iff {model : PublishedModel} (built : browse.buildModel = .ok model) :
    model.Symmetric ↔ browse.InversesAgree := by
  obtain ⟨-, rfl⟩ := browse.buildModel_ok built
  have map : browse.published.relationshipsById = browse.relationshipsById := by simp only [published]
  constructor
  · intro symmetric relationship m first second
    have paired := symmetric.paired _ _ (.graph m) first second
    rw [map] at paired
    exact (browse.graph_paired_iff m first second).mp paired
  · intro agree
    refine ⟨fun relationship inverse pair first second => ?_, fun id relationship => ?_, ?_, ?_⟩
    · rw [map]
      cases pair with
      | hierarchy =>
          rw [mem_relationships_structural _ _ _ _ (by decide), mem_relationships_structural _ _ _ _ (by decide)]
          simp
      | composition =>
          rw [mem_relationships_structural _ _ _ _ (by decide), mem_relationships_structural _ _ _ _ (by decide)]
          simp
      | graph m => exact (browse.graph_paired_iff m first second).mpr (agree _ m first second)
    · rw [map]
      exact browse.nodup_relationships id relationship
    · exact browse.mem_childrenByParent browse.hierarchyParentById
    · exact browse.mem_childrenByParent browse.compositionParentById

end Browse

/-- One object that feeds another under two reference types of the same name; the
namespace of one type begins like an inverse id. -/
def Plant.crossed : Browse :=
  { browse [node "A" "Object" [⟨"ns=1;s=B", "ns=2;i=1", "Feeds"⟩, ⟨"ns=1;s=B", "ns=3;i=1", "Feeds"⟩],
      node "B" "Object" []] with
    namespaceInfos := [⟨NodeIds.standardNamespace⟩, ⟨"urn:plant"⟩, ⟨"urn:line"⟩, ⟨"inverseOf_urn:line"⟩] }

theorem Plant.crossed_accepted : Plant.crossed.refusal = none := by decide

/-- **An inverse id that is also the id of a graph relationship has targets that
do not refer back.** -/
theorem Browse.crossed_not_symmetric :
    (∀ first ∈ Plant.crossed.sources, ∀ second ∈ Plant.crossed.sources,
      Plant.crossed.mappedId first = Plant.crossed.mappedId second → first = second) ∧
      Plant.crossed.buildModel = .ok Plant.crossed.published ∧ ¬ Plant.crossed.published.Symmetric := by
  refine ⟨by decide, Plant.crossed.buildModel_accepted Plant.crossed_accepted, fun symmetric => ?_⟩
  have id : "inverseOf_urn:line:Feeds" ∈ Plant.crossed.published.graphRelationshipNames := by decide
  have paired := symmetric.paired _ _ (.graph id) "asset-cd1e6b2d19c59f72" "asset-5b7e0a0f0c568c33"
  have there : Plant.crossed.published.relationshipsById.targets "asset-cd1e6b2d19c59f72"
      "inverseOf_urn:line:Feeds" = ["asset-5b7e0a0f0c568c33"] := by decide
  have back : Plant.crossed.published.relationshipsById.targets "asset-5b7e0a0f0c568c33"
      (inverseRelationship "inverseOf_urn:line:Feeds") = [] := by decide
  rw [there, back] at paired
  exact absurd (paired.mp List.mem_cons_self) List.not_mem_nil

theorem Browse.crossed_symmetric_iff : Plant.crossed.published.Symmetric ↔ Plant.crossed.InversesAgree :=
  Plant.crossed.symmetric_iff (Plant.crossed.buildModel_accepted Plant.crossed_accepted)

end I3x

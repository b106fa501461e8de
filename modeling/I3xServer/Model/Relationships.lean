import I3xServer.Container.Sorted
import I3xServer.Model.Planes

/-!
# Relationships

The two structural planes and the graph references become one map from elements
and relationship ids to target elements. Every edge is entered in both
directions. Graph relationship ids are qualified by a namespace where the name
alone would be ambiguous.
-/
namespace I3x
open Container Mapper

/-- The errors with which the builder refuses to publish a model. -/
inductive BuildError where
  | unresolvedNamespace (referenceTypeId : String)
  | ambiguousRelationshipId (relationshipId : String)
  deriving DecidableEq, Repr

/-- One graph reference of an element. -/
structure GraphEntry where
  name : String
  namespaceUri : String
  target : String

/-- A directed edge of the relationship map. -/
structure Edge where
  source : String
  relationship : String
  target : String
  deriving DecidableEq, Repr

abbrev Relationships := Dict String (Dict String (List String))

def appendRelationship (relationships : Relationships) (edge : Edge) : Relationships :=
  let byRelationship := (relationships.get? edge.source).getD .empty
  let targets := byRelationship.bucket edge.relationship
  relationships.set edge.source
    (byRelationship.set edge.relationship
      (if edge.target ∈ targets then targets else targets ++ [edge.target]))

/-- The targets of one relationship of one element. -/
def Relationships.targets (relationships : Relationships) (source relationship : String) : List String :=
  ((relationships.get? source).getD .empty).bucket relationship

def i3xNamespace : String := "https://cesmii.org/i3x"

def structuralRelationships : List String := ["HasParent", "HasChildren", "HasComponent", "ComponentOf"]

def inverseRelationship (relationship : String) : String := "inverseOf_" ++ relationship

/-- A registered name and the namespace it was registered for. -/
abbrev Registered := String × String

def namespacesOf (registered : List Registered) (name : String) : Finset String :=
  ((registered.filter fun pair => pair.1 = name).map Prod.snd).toFinset

def qualifies (registered : List Registered) (name : String) : Bool :=
  1 < (namespacesOf registered name).card || name ∈ structuralRelationships ||
    "inverseOf_".toList.isPrefixOf name.toList || ':' ∈ name.toList

def graphRelationshipId (registered : List Registered) (name namespaceUri : String) : String :=
  if qualifies registered name then namespaceUri ++ ":" ++ name else name

/-- The registered pairs in the order in which they receive their ids. -/
def orderedNames (registered : List Registered) : List Registered :=
  (sorted (registered.map Prod.fst).toFinset).flatMap fun name =>
    (sorted (namespacesOf registered name)).map fun namespaceUri => (name, namespaceUri)

def graphRelationshipIds (registered : List Registered) : List String :=
  (orderedNames registered).map fun pair => graphRelationshipId registered pair.1 pair.2

/-- The first element that occurred before. -/
def firstRepeated : List String → List String → Option String
  | _, [] => none
  | seen, id :: rest => if id ∈ seen then some id else firstRepeated (id :: seen) rest

theorem targets_appendRelationship (relationships : Relationships) (edge : Edge) (source relationship : String) :
    (appendRelationship relationships edge).targets source relationship =
      if source = edge.source ∧ relationship = edge.relationship then
        if edge.target ∈ relationships.targets source relationship then relationships.targets source relationship
        else relationships.targets source relationship ++ [edge.target]
      else relationships.targets source relationship := by
  simp only [Relationships.targets, appendRelationship, Dict.get?_set, Dict.bucket]
  by_cases here : source = edge.source
  · subst here
    by_cases same : relationship = edge.relationship
    · subst same
      simp only [if_true, Option.getD_some, Dict.get?_set_self, and_self]
      rfl
    · simp only [if_true, Option.getD_some, Dict.get?_set, if_neg same]
      exact (if_neg fun both => same both.2).symm
  · simp only [here, false_and, if_false]

/-- An edge enters its target once and changes nothing else. -/
theorem mem_targets_appendRelationship (relationships : Relationships) (edge : Edge)
    (source relationship target : String) :
    target ∈ (appendRelationship relationships edge).targets source relationship ↔
      target ∈ relationships.targets source relationship ∨ edge = ⟨source, relationship, target⟩ := by
  obtain ⟨s, r, t⟩ := edge
  rw [targets_appendRelationship, Edge.mk.injEq]
  by_cases here : source = s ∧ relationship = r
  · obtain ⟨rfl, rfl⟩ := here
    rw [if_pos ⟨rfl, rfl⟩]
    split
    · rename_i known
      exact ⟨Or.inl, fun h => h.elim id fun eq => eq.2.2 ▸ known⟩
    · rw [List.mem_append, List.mem_singleton]
      exact or_congr_right ⟨fun eq => ⟨rfl, rfl, eq.symm⟩, fun eq => eq.2.2.symm⟩
  · rw [if_neg here]
    exact ⟨Or.inl, fun h => h.resolve_right fun eq => here ⟨eq.1.symm, eq.2.1.symm⟩⟩

theorem nodup_targets_appendRelationship (relationships : Relationships) (edge : Edge) (source relationship : String)
    (nodup : (relationships.targets source relationship).Nodup) :
    ((appendRelationship relationships edge).targets source relationship).Nodup := by
  rw [targets_appendRelationship]
  split
  · split
    · exact nodup
    · rename_i fresh
      exact List.nodup_append'.mpr ⟨nodup, List.nodup_singleton _, List.disjoint_singleton.mpr fresh⟩
  · exact nodup

theorem mem_targets_foldl (relationships : Relationships) (edges : List Edge) (source relationship target : String) :
    target ∈ Relationships.targets (edges.foldl appendRelationship relationships) source relationship ↔
      target ∈ relationships.targets source relationship ∨ ⟨source, relationship, target⟩ ∈ edges := by
  induction edges generalizing relationships with
  | nil => simp
  | cons edge edges ih =>
      rw [List.foldl_cons, ih, mem_targets_appendRelationship, List.mem_cons, or_assoc, eq_comm]

theorem nodup_targets_foldl (relationships : Relationships) (edges : List Edge) (source relationship : String)
    (nodup : (relationships.targets source relationship).Nodup) :
    (Relationships.targets (edges.foldl appendRelationship relationships) source relationship).Nodup := by
  induction edges generalizing relationships with
  | nil => exact nodup
  | cons edge edges ih =>
      exact ih _ (nodup_targets_appendRelationship relationships edge source relationship nodup)

namespace Browse
variable (browse : Browse)

/-- References outside both structural planes; type references are among them. -/
def graphLinks : List Link :=
  browse.links.filter fun link =>
    ¬ (link.relationshipClass = .hierarchy ∨ link.relationshipClass = .composition)

def referenceNamespace (referenceTypeId : Option String) : Option String :=
  match referenceTypeId with
  | none => some i3xNamespace
  | some id => NodeIds.namespaceUriFromExpandedNodeId (browse.identity.expandedNodeId id)

def graphEntry (link : Link) : GraphEntry where
  name := link.name
  namespaceUri := (browse.referenceNamespace link.referenceTypeId).getD ""
  target := browse.mappedId link.target

def demotedEntry (candidate : Candidate) : GraphEntry where
  name := "OrganizedBy"
  namespaceUri := i3xNamespace
  target := browse.mappedId candidate.parent

def registered : List Registered :=
  (browse.graphLinks.map fun link => (link.name, (browse.graphEntry link).namespaceUri)) ++
    browse.demoted.map fun _ => ("OrganizedBy", i3xNamespace)

def graphRelatedBySource (source : BrowsedNode) : List GraphEntry :=
  (browse.graphLinks.filter fun link => link.source.nodeId = source.nodeId).map browse.graphEntry

def graphEntriesById : Dict String (List GraphEntry) :=
  (Dict.ofList (browse.sources.map fun node => (browse.mappedId node, browse.graphRelatedBySource node))).pushAll
    (browse.demoted.map fun entry => (entry.1, browse.demotedEntry entry.2))

def graphRelatedById : Dict String (List (String × String)) :=
  browse.graphEntriesById.mapValues fun _ entries => entries.map fun entry =>
    (graphRelationshipId browse.registered entry.name entry.namespaceUri, entry.target)

def structuralEdges (childrenById : Dict String (List String)) (down up : String) : List Edge :=
  childrenById.entries.flatMap fun entry =>
    entry.2.flatMap fun child => [⟨entry.1, down, child⟩, ⟨child, up, entry.1⟩]

def graphEdges : List Edge :=
  browse.graphRelatedById.entries.flatMap fun entry =>
    entry.2.flatMap fun relation =>
      [⟨entry.1, relation.1, relation.2⟩, ⟨relation.2, inverseRelationship relation.1, entry.1⟩]

/-- All edges in the order in which the builder appends them. -/
def edges : List Edge :=
  structuralEdges browse.hierarchyChildrenById "HasChildren" "HasParent" ++
    structuralEdges browse.compositionChildrenById "HasComponent" "ComponentOf" ++ browse.graphEdges

def noRelationships : Relationships :=
  Dict.ofList (browse.sources.map fun node => (browse.mappedId node, Dict.empty))

def relationshipsById : Relationships := browse.edges.foldl appendRelationship browse.noRelationships

/-- Why the model is not published, if it is not. -/
def refusal : Option BuildError :=
  match browse.graphLinks.find? fun link => (browse.referenceNamespace link.referenceTypeId).isNone with
  | some link => some (.unresolvedNamespace (link.referenceTypeId.getD ""))
  | none => (firstRepeated [] (graphRelationshipIds browse.registered)).map .ambiguousRelationshipId

/-! ## The edges of the map -/

theorem targets_noRelationships (source relationship : String) :
    browse.noRelationships.targets source relationship = [] := by
  rw [Relationships.targets, noRelationships, Dict.ofList, Dict.get?_update, Dict.get?_empty, Option.or_none]
  cases found : (browse.sources.map fun node =>
      (browse.mappedId node, (Dict.empty : Dict String (List String)))).reverse.lookup source with
  | none => rfl
  | some none =>
      have m := lookup_mem found
      simp only [List.mem_reverse, List.mem_map, Prod.mk.injEq] at m
      obtain ⟨_, _, _, rfl⟩ := m
      rfl

theorem mem_relationships (source relationship target : String) :
    target ∈ browse.relationshipsById.targets source relationship ↔ ⟨source, relationship, target⟩ ∈ browse.edges := by
  rw [relationshipsById, mem_targets_foldl, targets_noRelationships]
  simp only [List.not_mem_nil, false_or]

theorem nodup_relationships (source relationship : String) :
    (browse.relationshipsById.targets source relationship).Nodup :=
  nodup_targets_foldl _ _ _ _ (by rw [targets_noRelationships]; exact List.nodup_nil)

theorem mem_edges (edge : Edge) :
    edge ∈ browse.edges ↔
      edge ∈ structuralEdges browse.hierarchyChildrenById "HasChildren" "HasParent" ∨
        edge ∈ structuralEdges browse.compositionChildrenById "HasComponent" "ComponentOf" ∨
          edge ∈ browse.graphEdges := by
  rw [edges, List.mem_append, List.mem_append, or_assoc]

theorem mem_structuralEdges (childrenById : Dict String (List String)) (down up : String) (edge : Edge) :
    edge ∈ structuralEdges childrenById down up ↔
      ∃ parent child, child ∈ childrenById.bucket parent ∧
        (edge = ⟨parent, down, child⟩ ∨ edge = ⟨child, up, parent⟩) := by
  simp only [structuralEdges, List.mem_flatMap, List.mem_cons, List.not_mem_nil, or_false, Dict.mem_bucket_iff]
  constructor
  · rintro ⟨entry, m, child, inside, h⟩
    exact ⟨entry.1, child, ⟨entry.2, m, inside⟩, h⟩
  · rintro ⟨parent, child, ⟨children, m, inside⟩, h⟩
    exact ⟨(parent, children), m, child, inside, h⟩

/-- An element's graph references, under their published ids. -/
def GraphReference (source relationship target : String) : Prop :=
  (relationship, target) ∈ browse.graphRelatedById.bucket source

theorem mem_graphEdges (edge : Edge) :
    edge ∈ browse.graphEdges ↔
      ∃ source relationship target, browse.GraphReference source relationship target ∧
        (edge = ⟨source, relationship, target⟩ ∨ edge = ⟨target, inverseRelationship relationship, source⟩) := by
  simp only [graphEdges, GraphReference, List.mem_flatMap, List.mem_cons, List.not_mem_nil, or_false,
    Dict.mem_bucket_iff]
  constructor
  · rintro ⟨entry, m, relation, inside, h⟩
    exact ⟨entry.1, relation.1, relation.2, ⟨entry.2, m, inside⟩, h⟩
  · rintro ⟨source, relationship, target, ⟨relations, m, inside⟩, h⟩
    exact ⟨(source, relations), m, (relationship, target), inside, h⟩

theorem graphReference_iff (source relationship target : String) :
    browse.GraphReference source relationship target ↔
      ∃ entry ∈ browse.graphEntriesById.bucket source, entry.target = target ∧
        graphRelationshipId browse.registered entry.name entry.namespaceUri = relationship := by
  rw [GraphReference, graphRelatedById, Dict.bucket_mapValues, List.mem_map]
  simp only [Prod.mk.injEq]
  exact exists_congr fun entry => and_congr_right fun _ => And.comm

theorem bucket_ofList_latest {V : Type} (f : BrowsedNode → List V) (id : String) (v : V) :
    v ∈ (Dict.ofList (browse.sources.map fun node => (browse.mappedId node, f node))).bucket id ↔
      ∃ node, browse.Latest node ∧ browse.mappedId node = id ∧ v ∈ f node := by
  rw [Dict.mem_bucket_iff]
  simp only [Dict.mem_entries, get?_ofList_latest]
  constructor
  · rintro ⟨_, ⟨node, latest, same, rfl⟩, inside⟩
    exact ⟨node, latest, same, inside⟩
  · rintro ⟨node, latest, same, inside⟩
    exact ⟨_, ⟨node, latest, same, rfl⟩, inside⟩

theorem mem_graphRelatedBySource (source : BrowsedNode) (entry : GraphEntry) :
    entry ∈ browse.graphRelatedBySource source ↔
      ∃ l ∈ browse.graphLinks, l.source.nodeId = source.nodeId ∧ browse.graphEntry l = entry := by
  simp only [graphRelatedBySource, List.mem_map, List.mem_filter, decide_eq_true_eq, and_assoc]

theorem mem_graphLinks (l : Link) :
    l ∈ browse.graphLinks ↔
      l ∈ browse.links ∧ l.relationshipClass ≠ .hierarchy ∧ l.relationshipClass ≠ .composition := by
  simp only [graphLinks, List.mem_filter, decide_eq_true_eq, not_or, ne_eq]

theorem mem_demotedOf {candidates : List Candidate} {candidate chosen : Candidate}
    (pick : selected candidates = some chosen) :
    candidate ∈ demotedOf candidates ↔ candidate ∈ candidates ∧
      ¬ (candidate.parent.nodeId = chosen.parent.nodeId ∧ candidate.priority = chosen.priority) := by
  unfold demotedOf
  rw [pick]
  dsimp only
  split
  · rw [List.mem_filter, decide_eq_true_eq]
  · rename_i single
    refine ⟨nofun, fun ⟨m, other⟩ => ?_⟩
    have inside := (selected_spec pick).1
    have one : candidates.length = 1 := by
      have := List.length_pos_of_mem m
      omega
    obtain ⟨only, rfl⟩ := List.length_eq_one_iff.mp one
    rw [List.mem_singleton.mp m, List.mem_singleton.mp inside] at other
    exact absurd ⟨rfl, rfl⟩ other

theorem mem_demoted (childId : String) (candidate : Candidate) :
    (childId, candidate) ∈ browse.demoted ↔
      ∃ chosen, (browse.selectedByChild .hierarchy).get? childId = some chosen ∧
        candidate ∈ (browse.candidateParentsByChild .hierarchy).bucket childId ∧
        ¬ (candidate.parent.nodeId = chosen.parent.nodeId ∧ candidate.priority = chosen.priority) := by
  simp only [demoted, List.mem_flatMap, List.mem_map, Prod.mk.injEq, selectedByChild, Dict.get?_filterMapValues,
    Option.bind_eq_some_iff]
  constructor
  · rintro ⟨⟨child, candidates⟩, m, candidate, inside, rfl, rfl⟩
    have found := (Dict.mem_entries _ _ _).mp m
    cases pick : selected candidates with
    | none => simp [demotedOf, pick] at inside
    | some chosen =>
        obtain ⟨here, other⟩ := (mem_demotedOf pick).mp inside
        exact ⟨chosen, ⟨candidates, found, pick⟩, by rw [browse.candidates_bucket found]; exact here, other⟩
  · rintro ⟨chosen, ⟨candidates, found, pick⟩, inside, other⟩
    rw [browse.candidates_bucket found] at inside
    exact ⟨(childId, candidates), (Dict.mem_entries _ _ _).mpr found, candidate,
      (mem_demotedOf pick).mpr ⟨inside, other⟩, rfl, rfl⟩

theorem mem_graphEntriesById (source : String) (entry : GraphEntry) :
    entry ∈ browse.graphEntriesById.bucket source ↔
      (∃ l ∈ browse.graphLinks, browse.Latest l.source ∧ browse.mappedId l.source = source ∧
        browse.graphEntry l = entry) ∨
      ∃ candidate, (source, candidate) ∈ browse.demoted ∧ browse.demotedEntry candidate = entry := by
  rw [graphEntriesById, Dict.mem_bucket_pushAll, bucket_ofList_latest]
  refine or_congr ?_ ?_
  · constructor
    · rintro ⟨node, latest, rfl, m⟩
      obtain ⟨l, inside, same, rfl⟩ := (browse.mem_graphRelatedBySource _ _).mp m
      obtain ⟨before, after, shape, -⟩ := id latest
      have present : node ∈ browse.sources := by rw [shape]; simp
      have source := browse.link_source ((browse.mem_graphLinks l).mp inside).1
      have eq := browse.sources_eq source present same
      exact ⟨l, inside, eq ▸ latest, by rw [eq], rfl⟩
    · rintro ⟨l, inside, latest, rfl, rfl⟩
      exact ⟨l.source, latest, rfl, (browse.mem_graphRelatedBySource _ _).mpr ⟨l, inside, rfl, rfl⟩⟩
  · simp only [List.mem_map, Prod.mk.injEq]
    constructor
    · rintro ⟨⟨child, candidate⟩, m, rfl, rfl⟩
      exact ⟨candidate, m, rfl⟩
    · rintro ⟨candidate, m, rfl⟩
      exact ⟨(source, candidate), m, rfl, rfl⟩

end Browse
end I3x

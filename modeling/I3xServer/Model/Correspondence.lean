import I3xServer.Model.Vocabulary

/-!
# Two builds side by side

When the nodes of two browse results correspond, references included, and both
builds choose parents of one element id, the builds publish the same parents,
roots, relationship types and relationships.
-/
namespace I3x
open Container Mapper

namespace Browse

/-- References of two browse results that say the same about corresponding nodes. -/
structure Paired (alike : BrowsedNode → BrowsedNode → Prop) (first second : Browse) (l l' : Link) : Prop where
  source : alike l.source l'.source
  target : alike l.target l'.target
  name : l.name = l'.name
  relationshipClass : l.relationshipClass = l'.relationshipClass
  namespaceUri : first.referenceNamespace l.referenceTypeId = second.referenceNamespace l'.referenceTypeId

/-- Every node and reference of the first browse result has a counterpart in the second. -/
structure Mirrors (alike : BrowsedNode → BrowsedNode → Prop) (first second : Browse) : Prop where
  unicode : first.unicode = second.unicode
  node : ∀ n ∈ first.sources, ∃ n' ∈ second.sources, alike n n'
  id : ∀ n n', alike n n' → first.mappedId n = second.mappedId n'
  same : ∀ n n' m m', alike n n' → alike m m' → n.nodeId = m.nodeId → n'.nodeId = m'.nodeId
  latest : ∀ n n', alike n n' → first.Latest n → second.Latest n'
  link : ∀ l ∈ first.links, ∃ l' ∈ second.links, Paired alike first second l l'

/-- The planes in which parents are chosen. -/
def Structural (plane : ReferenceClass) : Prop := plane = .hierarchy ∨ plane = .composition

/-- Both builds also choose parents of one element id by references of one priority. -/
structure Follows (alike : BrowsedNode → BrowsedNode → Prop) (first second : Browse) : Prop
    extends Mirrors alike first second where
  chosen : ∀ plane, Structural plane → ∀ childId candidate, (first.selectedByChild plane).get? childId = some candidate →
    ∃ candidate', (second.selectedByChild plane).get? childId = some candidate' ∧
      first.mappedId candidate.parent = second.mappedId candidate'.parent ∧ candidate.priority = candidate'.priority

structure Matched (alike : BrowsedNode → BrowsedNode → Prop) (first second : Browse) : Prop where
  forward : Mirrors alike first second
  backward : Mirrors (flip alike) second first

structure Corresponds (alike : BrowsedNode → BrowsedNode → Prop) (first second : Browse) : Prop where
  forward : Follows alike first second
  backward : Follows (flip alike) second first

theorem Matched.symm {alike : BrowsedNode → BrowsedNode → Prop} {first second : Browse}
    (h : Matched alike first second) : Matched (flip alike) second first := ⟨h.backward, h.forward⟩

theorem Corresponds.symm {alike : BrowsedNode → BrowsedNode → Prop} {first second : Browse}
    (h : Corresponds alike first second) : Corresponds (flip alike) second first := ⟨h.backward, h.forward⟩

theorem Corresponds.matched {alike : BrowsedNode → BrowsedNode → Prop} {first second : Browse}
    (h : Corresponds alike first second) : Matched alike first second := ⟨h.forward.toMirrors, h.backward.toMirrors⟩

variable {alike : BrowsedNode → BrowsedNode → Prop} {first second : Browse}

/-- Choices that agree in one direction agree in the other. -/
theorem Follows.corresponds (forward : Follows alike first second) (backward : Mirrors (flip alike) second first) :
    Corresponds alike first second where
  forward := forward
  backward := by
    refine ⟨backward, fun plane structural childId candidate pick => ?_⟩
    obtain ⟨l', leads, target, rfl⟩ := second.selectedByChild_eq pick
    obtain ⟨l, present, pair⟩ := backward.link l' leads.present
    obtain ⟨chosen, found⟩ := first.selectedByChild_isSome present (pair.relationshipClass.symm.trans leads.within)
    rw [← backward.id _ _ pair.target, target] at found
    obtain ⟨candidate', pick', parents, priority⟩ := forward.chosen plane structural childId chosen found
    rw [pick, Option.some.injEq] at pick'
    subst pick'
    exact ⟨chosen, found, parents.symm, priority.symm⟩

/-! ## Parents and children -/

theorem Follows.planeParent (h : Follows alike first second) {plane : ReferenceClass} (structural : Structural plane)
    {childId parentId : String} (found : ((first.selectedByChild plane).mapValues fun _ selected => first.mappedId selected.parent).get? childId =
      some parentId) :
    ((second.selectedByChild plane).mapValues fun _ selected => second.mappedId selected.parent).get? childId =
      some parentId := by
  rw [Dict.get?_mapValues, Option.map_eq_some_iff] at found ⊢
  obtain ⟨candidate, pick, rfl⟩ := found
  obtain ⟨candidate', pick', parents, -⟩ := h.chosen plane structural childId candidate pick
  exact ⟨candidate', pick', parents.symm⟩

theorem Corresponds.hierarchyParent (h : Corresponds alike first second) (childId : String) :
    first.hierarchyParentById.get? childId = second.hierarchyParentById.get? childId :=
  Option.ext fun _ => ⟨h.forward.planeParent (.inl rfl), h.backward.planeParent (.inl rfl)⟩

theorem Corresponds.compositionParent (h : Corresponds alike first second) (childId : String) :
    first.compositionParentById.get? childId = second.compositionParentById.get? childId :=
  Option.ext fun _ => ⟨h.forward.planeParent (.inr rfl), h.backward.planeParent (.inr rfl)⟩

theorem Corresponds.hierarchyChildren (h : Corresponds alike first second) (parentId childId : String) :
    childId ∈ first.hierarchyChildrenById.bucket parentId ↔ childId ∈ second.hierarchyChildrenById.bucket parentId := by
  rw [hierarchyChildrenById, hierarchyChildrenById, mem_childrenByParent, mem_childrenByParent, h.hierarchyParent]

theorem Corresponds.compositionChildren (h : Corresponds alike first second) (parentId childId : String) :
    childId ∈ first.compositionChildrenById.bucket parentId ↔
      childId ∈ second.compositionChildrenById.bucket parentId := by
  rw [compositionChildrenById, compositionChildrenById, mem_childrenByParent, mem_childrenByParent,
    h.compositionParent]

theorem Follows.parentSource (h : Follows alike first second) (back : Follows (flip alike) second first)
    {childId : String} {parent : BrowsedNode} (found : first.parentSource childId = some parent) :
    ∃ parent', second.parentSource childId = some parent' ∧ first.mappedId parent = second.mappedId parent' := by
  unfold Browse.parentSource at found ⊢
  cases pick : (first.selectedByChild .hierarchy).get? childId with
  | some candidate =>
      rw [pick] at found
      cases found
      obtain ⟨candidate', pick', parents, -⟩ := h.chosen .hierarchy (.inl rfl) childId candidate pick
      rw [pick']
      exact ⟨candidate'.parent, rfl, parents⟩
  | none =>
      rw [pick] at found
      obtain ⟨candidate, pickComposition, rfl⟩ := Option.map_eq_some_iff.mp found
      obtain ⟨candidate', pick', parents, -⟩ := h.chosen .composition (.inr rfl) childId candidate pickComposition
      cases other : (second.selectedByChild .hierarchy).get? childId with
      | some unmatched =>
          obtain ⟨_, absurd, -⟩ := back.chosen .hierarchy (.inl rfl) childId unmatched other
          rw [pick] at absurd
          cases absurd
      | none => exact ⟨candidate'.parent, by rw [pick']; rfl, parents⟩

theorem Corresponds.resolvedParentId (h : Corresponds alike first second) (childId : String) :
    first.resolvedParentId childId = second.resolvedParentId childId := by
  rw [resolvedParentId_eq, resolvedParentId_eq]
  ext parentId
  rw [Option.map_eq_some_iff, Option.map_eq_some_iff]
  constructor
  · rintro ⟨parent, found, rfl⟩
    obtain ⟨parent', found', parents⟩ := h.forward.parentSource h.backward found
    exact ⟨parent', found', parents.symm⟩
  · rintro ⟨parent, found, rfl⟩
    obtain ⟨parent', found', parents⟩ := h.backward.parentSource h.forward found
    exact ⟨parent', found', parents.symm⟩

theorem Mirrors.key (h : Mirrors alike first second) {id : String} (m : id ∈ first.nodesById.keys) :
    id ∈ second.nodesById.keys := by
  rw [mem_keys_nodesById] at m ⊢
  obtain ⟨node, inside, rfl⟩ := m
  obtain ⟨node', inside', pair⟩ := h.node node inside
  exact ⟨node', inside', (h.id _ _ pair).symm⟩

theorem Matched.keys (h : Matched alike first second) (id : String) :
    id ∈ first.nodesById.keys ↔ id ∈ second.nodesById.keys := ⟨h.forward.key, h.backward.key⟩

theorem Corresponds.roots (h : Corresponds alike first second) (id : String) :
    id ∈ first.rootIds ↔ id ∈ second.rootIds := by
  rw [mem_rootIds, mem_rootIds, h.matched.keys, h.resolvedParentId]

/-! ## Graph references -/

theorem Mirrors.graphLink (h : Mirrors alike first second) {l : Link} (m : l ∈ first.graphLinks) :
    ∃ l' ∈ second.graphLinks, Paired alike first second l l' := by
  obtain ⟨present, notHierarchy, notComposition⟩ := (first.mem_graphLinks l).mp m
  obtain ⟨l', present', pair⟩ := h.link l present
  rw [pair.relationshipClass] at notHierarchy notComposition
  exact ⟨l', (second.mem_graphLinks l').mpr ⟨present', notHierarchy, notComposition⟩, pair⟩

theorem Mirrors.graphEntry (h : Mirrors alike first second) {l l' : Link} (pair : Paired alike first second l l') :
    first.graphEntry l = second.graphEntry l' := by
  rw [Browse.graphEntry, Browse.graphEntry, pair.name, pair.namespaceUri, h.id _ _ pair.target]

theorem Mirrors.candidate (h : Mirrors alike first second) {plane : ReferenceClass} {childId : String}
    {candidate : Candidate} (inside : candidate ∈ (first.candidateParentsByChild plane).bucket childId) :
    ∃ candidate' ∈ (second.candidateParentsByChild plane).bucket childId, alike candidate.parent candidate'.parent ∧
      candidate.priority = candidate'.priority := by
  obtain ⟨l, present, within, rfl, rfl⟩ := (first.mem_candidates _ _ _).mp inside
  obtain ⟨l', present', pair⟩ := h.link l present
  refine ⟨second.candidate l', (second.mem_candidates _ _ _).mpr ⟨l', present',
    pair.relationshipClass.symm.trans within, (h.id _ _ pair.target).symm, rfl⟩, pair.source, ?_⟩
  change hierarchyRelationshipPriority first.unicode l.name = hierarchyRelationshipPriority second.unicode l'.name
  rw [h.unicode, pair.name]

/-- An element with a losing candidate in one build has one in the other. -/
theorem Corresponds.demoted (h : Corresponds alike first second) {childId : String} {candidate : Candidate}
    (lost : (childId, candidate) ∈ first.demoted) :
    ∃ candidate', (childId, candidate') ∈ second.demoted ∧
      first.mappedId candidate.parent = second.mappedId candidate'.parent := by
  obtain ⟨chosen, pick, inside, other⟩ := (first.mem_demoted _ _).mp lost
  obtain ⟨chosen', pick', parents, priority⟩ := h.forward.chosen .hierarchy (.inl rfl) childId chosen pick
  obtain ⟨candidate', inside', alikeParents, samePriority⟩ := h.forward.candidate inside
  by_cases wins : candidate'.parent.nodeId = chosen'.parent.nodeId ∧ candidate'.priority = chosen'.priority
  · -- The counterpart is chosen by the other build, so the counterpart of the choice is lost there.
    obtain ⟨l, leads, target, rfl⟩ := first.selectedByChild_eq pick
    obtain ⟨lost', inLost, alikeLost, lostPriority⟩ :=
      h.forward.candidate ((first.mem_candidates _ _ _).mpr ⟨l, leads.present, leads.within, target, rfl⟩)
    have samePrio : candidate.priority = (first.candidate l).priority := by rw [samePriority, wins.2, priority]
    have sources : candidate'.parent = chosen'.parent := by
      obtain ⟨m', leads', -, rfl⟩ := second.selectedByChild_eq pick'
      obtain ⟨n', present', -, -, rfl⟩ := (second.mem_candidates _ _ _).mp inside'
      exact second.sources_eq (second.link_source present') (second.link_source leads'.present) wins.1
    refine ⟨lost', (second.mem_demoted _ _).mpr ⟨chosen', pick', inLost, fun both => other ⟨?_, samePrio⟩⟩, ?_⟩
    · exact h.backward.same _ _ _ _ alikeParents alikeLost (wins.1.trans both.1.symm)
    · rw [h.forward.id _ _ alikeParents, sources, ← parents, h.forward.id _ _ alikeLost]
  · exact ⟨candidate', (second.mem_demoted _ _).mpr ⟨chosen', pick', inside', wins⟩, h.forward.id _ _ alikeParents⟩

/-- Something is lost exactly if two hierarchy references to one element differ in
their source or their priority. -/
theorem exists_demoted_iff (browse : Browse) :
    (∃ entry, entry ∈ browse.demoted) ↔
      ∃ childId, ∃ candidate ∈ (browse.candidateParentsByChild .hierarchy).bucket childId,
        ∃ other ∈ (browse.candidateParentsByChild .hierarchy).bucket childId,
          ¬ (candidate.parent.nodeId = other.parent.nodeId ∧ candidate.priority = other.priority) := by
  constructor
  · rintro ⟨⟨childId, candidate⟩, lost⟩
    obtain ⟨chosen, pick, inside, differ⟩ := (browse.mem_demoted _ _).mp lost
    obtain ⟨l, leads, target, rfl⟩ := browse.selectedByChild_eq pick
    exact ⟨childId, candidate, inside, _, (browse.mem_candidates _ _ _).mpr ⟨l, leads.present, leads.within, target, rfl⟩,
      differ⟩
  · rintro ⟨childId, candidate, inside, other, inside', differ⟩
    obtain ⟨l, present, within, rfl, -⟩ := (browse.mem_candidates _ _ _).mp inside
    obtain ⟨chosen, pick⟩ := browse.selectedByChild_isSome present within
    by_cases wins : candidate.parent.nodeId = chosen.parent.nodeId ∧ candidate.priority = chosen.priority
    · refine ⟨_, (browse.mem_demoted _ other).mpr ⟨chosen, pick, inside', fun both => differ ?_⟩⟩
      exact ⟨wins.1.trans both.1.symm, wins.2.trans both.2.symm⟩
    · exact ⟨_, (browse.mem_demoted _ candidate).mpr ⟨chosen, pick, inside, wins⟩⟩

theorem Matched.exists_demoted (h : Matched alike first second) (lost : ∃ entry, entry ∈ first.demoted) :
    ∃ entry, entry ∈ second.demoted := by
  rw [exists_demoted_iff] at lost ⊢
  obtain ⟨childId, candidate, inside, other, inside', differ⟩ := lost
  obtain ⟨candidate', found, alikeParents, priority⟩ := h.forward.candidate inside
  obtain ⟨other', found', alikeParents', priority'⟩ := h.forward.candidate inside'
  refine ⟨childId, candidate', found, other', found', fun both => differ ⟨?_, ?_⟩⟩
  · exact h.backward.same _ _ _ _ alikeParents alikeParents' both.1
  · rw [priority, both.2, priority']

theorem Matched.registered_of (h : Matched alike first second) {pair : Registered}
    (m : pair ∈ first.registered) : pair ∈ second.registered := by
  rcases List.mem_append.mp m with graph | lost
  · obtain ⟨l, inside, rfl⟩ := List.mem_map.mp graph
    obtain ⟨l', inside', paired⟩ := h.forward.graphLink inside
    refine List.mem_append_left _ (List.mem_map.mpr ⟨l', inside', ?_⟩)
    rw [h.forward.graphEntry paired, paired.name]
  · obtain ⟨entry, demoted, rfl⟩ := List.mem_map.mp lost
    obtain ⟨entry', demoted'⟩ := h.exists_demoted ⟨entry, demoted⟩
    exact List.mem_append_right _ (List.mem_map.mpr ⟨_, demoted', rfl⟩)

theorem Matched.registered (h : Matched alike first second) (pair : Registered) :
    pair ∈ first.registered ↔ pair ∈ second.registered := ⟨h.registered_of, h.symm.registered_of⟩

end Browse

section
variable {registered other : List Registered} (same : ∀ pair, pair ∈ registered ↔ pair ∈ other)
include same

/-- The ids depend on the registered pairs as a set. -/
theorem namespacesOf_congr (name : String) : namespacesOf registered name = namespacesOf other name := by
  ext namespaceUri
  simp only [namespacesOf, List.mem_toFinset, List.mem_map, List.mem_filter, same]

theorem graphRelationshipId_congr (name namespaceUri : String) :
    graphRelationshipId registered name namespaceUri = graphRelationshipId other name namespaceUri := by
  have qualified : qualifies registered name = qualifies other name := by
    simp only [qualifies, namespacesOf_congr same]
  rw [graphRelationshipId, graphRelationshipId, qualified]

theorem orderedNames_congr : orderedNames registered = orderedNames other := by
  have names : (registered.map Prod.fst).toFinset = (other.map Prod.fst).toFinset := by
    ext name
    simp only [List.mem_toFinset, List.mem_map, same]
  simp only [orderedNames, names, namespacesOf_congr same]

theorem graphRelationshipIds_congr : graphRelationshipIds registered = graphRelationshipIds other := by
  simp only [graphRelationshipIds, orderedNames_congr same, graphRelationshipId_congr same]

end

namespace Browse
variable {alike : BrowsedNode → BrowsedNode → Prop} {first second : Browse}

theorem Corresponds.graphEntry_of (h : Corresponds alike first second) {source : String} {entry : GraphEntry}
    (m : entry ∈ first.graphEntriesById.bucket source) : entry ∈ second.graphEntriesById.bucket source := by
  rw [mem_graphEntriesById] at m ⊢
  rcases m with ⟨l, inside, latest, rfl, rfl⟩ | ⟨candidate, lost, rfl⟩
  · obtain ⟨l', inside', pair⟩ := h.forward.graphLink inside
    exact .inl ⟨l', inside', h.forward.latest _ _ pair.source latest, (h.forward.id _ _ pair.source).symm,
      (h.forward.graphEntry pair).symm⟩
  · obtain ⟨candidate', lost', parents⟩ := h.demoted lost
    refine .inr ⟨candidate', lost', ?_⟩
    rw [demotedEntry, demotedEntry, parents]

theorem Corresponds.graphReference (h : Corresponds alike first second) (source relationship target : String) :
    first.GraphReference source relationship target ↔ second.GraphReference source relationship target := by
  rw [graphReference_iff, graphReference_iff]
  simp only [graphRelationshipId_congr h.matched.registered]
  exact exists_congr fun entry => and_congr_left' ⟨h.graphEntry_of, h.symm.graphEntry_of⟩

/-! ## Relationships and vocabulary -/

theorem Corresponds.edges (h : Corresponds alike first second) (edge : Edge) :
    edge ∈ first.edges ↔ edge ∈ second.edges := by
  simp only [mem_edges, mem_structuralEdges, mem_graphEdges, h.hierarchyChildren, h.compositionChildren,
    h.graphReference]

theorem Corresponds.targets (h : Corresponds alike first second) (source relationship target : String) :
    target ∈ first.relationshipsById.targets source relationship ↔
      target ∈ second.relationshipsById.targets source relationship := by
  rw [mem_relationships, mem_relationships, h.edges]

theorem Matched.refused_of (h : Matched alike first second) (refused : first.refusal.isSome = true) :
    second.refusal.isSome = true := by
  unfold refusal at refused ⊢
  cases unresolved : second.graphLinks.find? fun link => (second.referenceNamespace link.referenceTypeId).isNone with
  | some l => rfl
  | none =>
      have resolved := List.find?_eq_none.mp unresolved
      cases clear : first.graphLinks.find? fun link => (first.referenceNamespace link.referenceTypeId).isNone with
      | some l =>
          obtain ⟨l', inside', pair⟩ := h.forward.graphLink (List.mem_of_find?_eq_some clear)
          have bad := List.find?_some clear
          rw [pair.namespaceUri] at bad
          exact absurd bad (resolved l' inside')
      | none =>
          rw [clear] at refused
          dsimp only at refused ⊢
          rw [← graphRelationshipIds_congr h.registered]
          exact refused

theorem Matched.refused (h : Matched alike first second) :
    first.refusal.isSome = second.refusal.isSome := by
  rw [Bool.eq_iff_iff]
  exact ⟨h.refused_of, h.symm.refused_of⟩

theorem bucket_eq_nil_congr {V : Type} {children children' : Dict String (List V)} {id : String}
    (same : ∀ v, v ∈ children.bucket id ↔ v ∈ children'.bucket id) :
    children.bucket id = [] ↔ children'.bucket id = [] := by
  simp only [List.eq_nil_iff_forall_not_mem, same]

theorem Corresponds.confidenceClass (h : Corresponds alike first second) (id : String) :
    first.confidenceClass id = second.confidenceClass id := by
  have graph : first.graphRelatedById.bucket id = [] ↔ second.graphRelatedById.bucket id = [] :=
    bucket_eq_nil_congr fun entry => h.graphReference id entry.1 entry.2
  simp only [Browse.confidenceClass, ne_eq, bucket_eq_nil_congr (h.compositionChildren id),
    bucket_eq_nil_congr (h.hierarchyChildren id), graph]

end Browse

/-! ## Published models that agree up to the order of lists -/

structure PublishedNode.SameUpToOrder (node node' : PublishedNode) : Prop where
  children : node.children.Perm node'.children
  relationships : ∀ relationship target,
    target ∈ node.relationships.bucket relationship ↔ target ∈ node'.relationships.bucket relationship
  rest : { node with children := [], relationships := .empty } = { node' with children := [], relationships := .empty }

/-- The elements, parents, roots, relationship types and relationships agree. -/
structure VocabularyModel.SameUpToOrder (model model' : VocabularyModel) : Prop where
  elements : ∀ id, Option.Rel PublishedNode.SameUpToOrder (model.nodesById.get? id) (model'.nodesById.get? id)
  hierarchyParents : ∀ id, model.hierarchyParentById.get? id = model'.hierarchyParentById.get? id
  compositionParents : ∀ id, model.compositionParentById.get? id = model'.compositionParentById.get? id
  roots : ∀ id, id ∈ model.rootIds ↔ id ∈ model'.rootIds
  names : model.graphRelationshipNames = model'.graphRelationshipNames
  namespaces : model.graphRelationshipNamespaceById = model'.graphRelationshipNamespaceById
  displayNames : model.graphRelationshipDisplayNameById = model'.graphRelationshipDisplayNameById
  targets : ∀ source relationship target, target ∈ model.relationshipsById.targets source relationship ↔
    target ∈ model'.relationshipsById.targets source relationship

/-- Both builds publish, and what they publish agrees, or both refuse. -/
inductive SameOutcome (agree : VocabularyModel → VocabularyModel → Prop) :
    Except BuildError VocabularyModel → Except BuildError VocabularyModel → Prop
  | published {model model' : VocabularyModel} : agree model model' → SameOutcome agree (.ok model) (.ok model')
  | refused (error error' : BuildError) : SameOutcome agree (.error error) (.error error')

namespace Browse
variable {alike : BrowsedNode → BrowsedNode → Prop} {first second : Browse}

theorem Matched.vocabulary (h : Matched alike first second) :
    first.graphRelationshipNamespaceById = second.graphRelationshipNamespaceById ∧
      first.graphRelationshipDisplayNameById = second.graphRelationshipDisplayNameById := by
  simp only [graphRelationshipNamespaceById, graphRelationshipDisplayNameById, orderedNames_congr h.registered,
    graphRelationshipId_congr h.registered, and_self]

theorem sameOutcome {agree : VocabularyModel → VocabularyModel → Prop}
    (refused : first.refusal.isSome = second.refusal.isSome)
    (published : agree first.publishedVocabulary second.publishedVocabulary) :
    SameOutcome agree first.buildVocabulary second.buildVocabulary := by
  unfold buildVocabulary
  cases error : first.refusal with
  | some reason =>
      rw [error] at refused
      obtain ⟨reason', found⟩ := Option.isSome_iff_exists.mp refused.symm
      rw [found]
      exact .refused reason reason'
  | none =>
      have accepted : second.refusal = none := by
        rw [← Option.not_isSome_iff_eq_none, ← refused, error]
        exact Bool.false_ne_true
      rw [accepted]
      exact .published published

end Browse
end I3x

import I3xServer.Container.Parallel
import I3xServer.Model.Correspondence

/-!
# The order of browsing

The builder fills dictionaries, keeps the first of several equal references and
the last of several nodes of one element id. The order of the browsed nodes and
of their references washes out where neither choice is between different things.
-/
namespace I3x
open Container Mapper

/-- The same node with its references in some order. -/
structure SameNode (first second : BrowsedNode) : Prop where
  rest : { first with outgoingReferences := [] } = { second with outgoingReferences := [] }
  references : first.outgoingReferences.Perm second.outgoingReferences

/-- The same nodes in some order, each with its references in some order. -/
def Reordered (nodes nodes' : List BrowsedNode) : Prop :=
  ∃ permuted, nodes.Perm permuted ∧ List.Forall₂ SameNode permuted nodes'

theorem SameNode.refl (node : BrowsedNode) : SameNode node node := ⟨rfl, List.Perm.refl _⟩

theorem SameNode.symm {first second : BrowsedNode} (h : SameNode first second) : SameNode second first :=
  ⟨h.rest.symm, h.references.symm⟩

/-- What does not read the references is the same for both. -/
theorem SameNode.congr {A : Type} {first second : BrowsedNode} (h : SameNode first second) (f : BrowsedNode → A)
    (blind : ∀ node : BrowsedNode, f { node with outgoingReferences := [] } = f node) : f first = f second := by
  rw [← blind first, ← blind second, h.rest]

theorem SameNode.shape {first second : BrowsedNode} (h : SameNode first second) :
    ∃ references, second = { first with outgoingReferences := references } := by
  obtain ⟨rest, -⟩ := h
  cases first
  cases second
  simp only [BrowsedNode.mk.injEq] at rest
  simp [rest]

theorem SameNode.info {first second : BrowsedNode} (h : SameNode first second) :
    first.toOpcUaNodeInfo = second.toOpcUaNodeInfo := h.congr _ fun _ => rfl

theorem SameNode.nodeId {first second : BrowsedNode} (h : SameNode first second) : first.nodeId = second.nodeId :=
  congrArg OpcUaNodeInfo.nodeId h.info

theorem Reordered.symm {nodes nodes' : List BrowsedNode} (h : Reordered nodes nodes') : Reordered nodes' nodes := by
  obtain ⟨permuted, perm, same⟩ := h
  have back : Relation.Comp (List.Forall₂ SameNode) List.Perm nodes' nodes :=
    ⟨permuted, same.flip.imp fun _ _ h => h.symm, perm.symm⟩
  rw [List.forall₂_comp_perm_eq_perm_comp_forall₂] at back
  exact back

theorem Reordered.mem {nodes nodes' : List BrowsedNode} (h : Reordered nodes nodes') {node : BrowsedNode}
    (m : node ∈ nodes) : ∃ node' ∈ nodes', SameNode node node' := by
  obtain ⟨permuted, perm, same⟩ := h
  exact exists_of_forall₂ same (perm.mem_iff.mp m)

theorem Reordered.infos {nodes nodes' : List BrowsedNode} (h : Reordered nodes nodes') :
    (nodes.map BrowsedNode.toOpcUaNodeInfo).Perm (nodes'.map BrowsedNode.toOpcUaNodeInfo) := by
  obtain ⟨permuted, perm, same⟩ := h
  refine (perm.map _).trans (List.Perm.of_eq ?_)
  clear perm
  induction same with
  | nil => rfl
  | cons pair _ ih => exact congrArg₂ List.cons pair.info ih

theorem Reordered.nodeIds {nodes nodes' : List BrowsedNode} (h : Reordered nodes nodes') :
    (nodes.map fun node => node.nodeId).Perm (nodes'.map fun node => node.nodeId) := by
  have ids := h.infos.map OpcUaNodeInfo.nodeId
  rwa [List.map_map, List.map_map] at ids

namespace Browse

def withNodes (browse : Browse) (opcNodes : List BrowsedNode) : Browse := { browse with opcNodes }

/-- No two browsed nodes share a node id. -/
def Distinct (browse : Browse) : Prop := (browse.opcNodes.map fun node => node.nodeId).Nodup

/-- No two browsed nodes share an element id. -/
def IdsApart (browse : Browse) : Prop := (browse.opcNodes.map browse.mappedId).Nodup

/-- References of one node with the same target and reference type carry the same name. -/
def OneName (browse : Browse) : Prop :=
  ∀ node ∈ browse.opcNodes, ∀ ref ∈ node.outgoingReferences, ∀ other ∈ node.outgoingReferences,
    ref.targetNodeId = other.targetNodeId → ref.referenceTypeId = other.referenceTypeId →
      ref.referenceBrowseName = other.referenceBrowseName

instance (browse : Browse) : Decidable browse.Distinct := inferInstanceAs (Decidable (List.Nodup _))

instance (browse : Browse) : Decidable browse.IdsApart := inferInstanceAs (Decidable (List.Nodup _))

instance (browse : Browse) : Decidable browse.OneName :=
  inferInstanceAs (Decidable (∀ node ∈ browse.opcNodes, ∀ ref ∈ node.outgoingReferences,
    ∀ other ∈ node.outgoingReferences, ref.targetNodeId = other.targetNodeId →
      ref.referenceTypeId = other.referenceTypeId → ref.referenceBrowseName = other.referenceBrowseName))

theorem mem_sources_of_distinct {browse : Browse} (distinct : browse.Distinct) (node : BrowsedNode) :
    node ∈ browse.sources ↔ node ∈ browse.opcNodes := by
  have keys : ((browse.opcNodes.map fun node => (node.nodeId, node)).reverse.map Prod.fst).Nodup := by
    rw [List.map_reverse, List.nodup_reverse, List.map_map]
    exact distinct
  rw [mem_sources, bySourceNode, Dict.ofList, Dict.get?_update, Dict.get?_empty, Option.or_none,
    lookup_eq_some _ keys, List.mem_reverse, List.mem_map]
  simp only [Prod.mk.injEq]
  constructor
  · rintro ⟨_, m, _, rfl⟩
    exact m
  · exact fun m => ⟨node, m, rfl, rfl⟩

theorem latest_of_apart {browse : Browse} (distinct : browse.Distinct) (apart : browse.IdsApart) {node : BrowsedNode}
    (m : node ∈ browse.sources) : browse.Latest node := by
  obtain ⟨before, after, shape⟩ := List.append_of_mem m
  refine ⟨before, after, shape, fun other later same => ?_⟩
  have nodup := browse.sources_nodup
  have inside : other ∈ browse.sources := by
    rw [shape]
    exact List.mem_append_right _ (List.mem_cons_of_mem _ later)
  have eq : other = node := List.inj_on_of_nodup_map apart ((mem_sources_of_distinct distinct other).mp inside)
    ((mem_sources_of_distinct distinct node).mp m) same
  rw [shape, List.nodup_append', List.nodup_cons] at nodup
  exact nodup.2.1.1 (eq ▸ later)

theorem mem_childSources {browse : Browse} (sourceId : String) (child : BrowsedNode) :
    child ∈ browse.childSources sourceId ↔ child ∈ browse.sources ∧
      ∃ node ∈ browse.opcNodes, node.nodeId = child.nodeId ∧ node.parentNodeId = some sourceId := by
  rw [childSources, ModelBuilder.childSourcesByParent_get, opcNodeInfos]
  simp only [List.mem_filterMap, List.mem_map, List.mem_filter, decide_eq_true_eq]
  constructor
  · rintro ⟨_, ⟨_, ⟨⟨node, m, rfl⟩, parent⟩, rfl⟩, found⟩
    exact ⟨browse.mem_sources_of_get? found, node, m, (browse.bySourceNode_key found).symm, parent⟩
  · rintro ⟨inside, node, m, same, parent⟩
    exact ⟨node.nodeId, ⟨_, ⟨⟨node, m, rfl⟩, parent⟩, rfl⟩, by rw [same]; exact (browse.mem_sources child).mp inside⟩

/-- De-duplication drops only what equals something it keeps. -/
theorem mem_linksOf {browse : Browse} (oneName : browse.OneName) {source : BrowsedNode} (m : source ∈ browse.opcNodes)
    (l : Link) : l ∈ browse.linksOf source ↔ ∃ entry ∈ browse.referenceEntries source, browse.link source entry = l := by
  rw [linksOf, List.mem_map]
  refine ⟨fun ⟨entry, inside, made⟩ => ⟨entry, mem_unseenEntries inside, made⟩, ?_⟩
  rintro ⟨entry, inside, rfl⟩
  obtain ⟨kept, first, target, type⟩ := exists_unseenEntry inside (List.not_mem_nil (a := (_ : String × Option String)))
  have present := mem_unseenEntries first
  have sameTarget := browse.sources_eq (browse.mem_referenceEntries present) (browse.mem_referenceEntries inside) target
  suffices same : kept = entry from ⟨kept, first, congrArg _ same⟩
  rw [referenceEntries] at present inside
  split at present
  · rename_i empty
    rw [if_pos empty] at inside
    obtain ⟨child, -, rfl⟩ := List.mem_map.mp present
    obtain ⟨other, -, rfl⟩ := List.mem_map.mp inside
    obtain rfl : child = other := sameTarget
    rfl
  · rename_i filled
    rw [if_neg filled] at inside
    obtain ⟨ref, refIn, made⟩ := List.mem_filterMap.mp present
    obtain ⟨other, otherIn, made'⟩ := List.mem_filterMap.mp inside
    obtain ⟨node, found, rfl⟩ := Option.map_eq_some_iff.mp made
    obtain ⟨node', found', rfl⟩ := Option.map_eq_some_iff.mp made'
    obtain rfl : node = node' := sameTarget
    have ids : ref.targetNodeId = other.targetNodeId :=
      (browse.bySourceNode_key found).symm.trans (browse.bySourceNode_key found')
    have types : ref.referenceTypeId = other.referenceTypeId := Option.some.inj type
    rw [types, oneName source m ref refIn other otherIn ids types]

/-! ## The reordered browse result -/

section
variable (browse : Browse) {nodes nodes' : List BrowsedNode}

/-- Nodes of two orders of one browse result that are the same. -/
structure Alike (nodes nodes' : List BrowsedNode) (node node' : BrowsedNode) : Prop where
  first : node ∈ nodes
  second : node' ∈ nodes'
  same : SameNode node node'

theorem Alike.flip {node node' : BrowsedNode} (h : Alike nodes nodes' node node') : Alike nodes' nodes node' node :=
  ⟨h.second, h.first, h.same.symm⟩

theorem mappedId_alike {node node' : BrowsedNode} (same : SameNode node node') :
    (browse.withNodes nodes).mappedId node = (browse.withNodes nodes').mappedId node' :=
  congrArg (ModelBuilder.mappedId browse.identity) same.info

theorem alike_of_get {id : String} {node : BrowsedNode} (h : Reordered nodes nodes')
    (distinct : (browse.withNodes nodes).Distinct) (distinct' : (browse.withNodes nodes').Distinct)
    (found : (browse.withNodes nodes).bySourceNode.get? id = some node) :
    ∃ node', (browse.withNodes nodes').bySourceNode.get? id = some node' ∧ Alike nodes nodes' node node' := by
  have inside := (mem_sources_of_distinct distinct node).mp ((browse.withNodes nodes).mem_sources_of_get? found)
  obtain ⟨node', inside', same⟩ := h.mem inside
  have source := (mem_sources _ _).mp ((mem_sources_of_distinct distinct' node').mpr inside')
  rw [← same.nodeId, (browse.withNodes nodes).bySourceNode_key found] at source
  exact ⟨node', source, inside, inside', same⟩

theorem referenceClass_alike {source source' : BrowsedNode} {entry entry' : ReferenceEntry}
    (same : SameNode source source') (target : SameNode entry.target entry'.target)
    (type : entry.referenceTypeId = entry'.referenceTypeId) (name : entry.referenceBrowseName = entry'.referenceBrowseName) :
    (browse.withNodes nodes).referenceClass source entry = (browse.withNodes nodes').referenceClass source' entry' := by
  have profiles : browse.activeProfiles source = browse.activeProfiles source' :=
    same.congr browse.activeProfiles fun _ => rfl
  have forced : forcedRelationshipClassForNode browse.unicode entry.target (browse.activeProfiles entry.target)
      (browse.typeDefinitionHierarchy entry.target) = forcedRelationshipClassForNode browse.unicode entry'.target
      (browse.activeProfiles entry'.target) (browse.typeDefinitionHierarchy entry'.target) :=
    target.congr (fun node => forcedRelationshipClassForNode browse.unicode node (browse.activeProfiles node)
      (browse.typeDefinitionHierarchy node)) fun _ => rfl
  have nodeClass : entry.target.nodeClass = entry'.target.nodeClass := congrArg OpcUaNodeInfo.nodeClass target.info
  change (forcedRelationshipClassForNode browse.unicode entry.target (browse.activeProfiles entry.target)
      (browse.typeDefinitionHierarchy entry.target)).getD (classifyWithProfiles browse.unicode
        (lineageTokens browse.unicode entry.referenceTypeId entry.referenceBrowseName
          ((entry.referenceTypeId.bind browse.referenceSupertypesById.get?).getD []))
        (some entry.target.nodeClass) (browse.activeProfiles source)) = _
  rw [forced, type, name, nodeClass, profiles]
  rfl

theorem link_alike {source source' : BrowsedNode} {entry entry' : ReferenceEntry}
    (same : Alike nodes nodes' source source') (target : Alike nodes nodes' entry.target entry'.target)
    (type : entry.referenceTypeId = entry'.referenceTypeId) (name : entry.referenceBrowseName = entry'.referenceBrowseName) :
    Paired (Alike nodes nodes') (browse.withNodes nodes) (browse.withNodes nodes')
      ((browse.withNodes nodes).link source entry) ((browse.withNodes nodes').link source' entry') where
  source := same
  target := target
  name := by
    have nodeClass : entry.target.nodeClass = entry'.target.nodeClass :=
      congrArg OpcUaNodeInfo.nodeClass target.same.info
    simp only [link, defaultRelationshipName, name, nodeClass]
  relationshipClass := browse.referenceClass_alike same.same target.same type name
  namespaceUri := congrArg browse.referenceNamespace type

theorem referenceEntry_alike {source source' : BrowsedNode} {entry : ReferenceEntry} (h : Reordered nodes nodes')
    (distinct : (browse.withNodes nodes).Distinct) (distinct' : (browse.withNodes nodes').Distinct)
    (same : Alike nodes nodes' source source') (m : entry ∈ (browse.withNodes nodes).referenceEntries source) :
    ∃ entry' ∈ (browse.withNodes nodes').referenceEntries source', Alike nodes nodes' entry.target entry'.target ∧
      entry.referenceTypeId = entry'.referenceTypeId ∧ entry.referenceBrowseName = entry'.referenceBrowseName := by
  have references := same.same.references
  rw [referenceEntries] at m
  split at m
  · rename_i empty
    rw [empty, List.nil_perm] at references
    obtain ⟨child, inside, rfl⟩ := List.mem_map.mp m
    obtain ⟨present, node, nodeIn, ids, parent⟩ := (mem_childSources _ _).mp inside
    obtain ⟨child', found, alike⟩ := browse.alike_of_get h distinct distinct' ((mem_sources _ _).mp present)
    obtain ⟨node', nodeIn', sameNode⟩ := h.mem nodeIn
    refine ⟨⟨child', none, some (defaultRelationshipName child')⟩, ?_, alike, rfl, ?_⟩
    · rw [referenceEntries, if_pos references]
      refine List.mem_map.mpr ⟨child', (mem_childSources _ _).mpr ⟨mem_sources_of_get? _ found, node', nodeIn', ?_, ?_⟩, rfl⟩
      · rw [← sameNode.nodeId, ids, alike.same.nodeId]
      · rw [← same.same.nodeId, ← parent]
        exact congrArg OpcUaNodeInfo.parentNodeId sameNode.info.symm
    · have nodeClass : child.nodeClass = child'.nodeClass := congrArg OpcUaNodeInfo.nodeClass alike.same.info
      simp only [defaultRelationshipName, nodeClass]
  · rename_i filled
    obtain ⟨ref, refIn, made⟩ := List.mem_filterMap.mp m
    obtain ⟨target, found, rfl⟩ := Option.map_eq_some_iff.mp made
    obtain ⟨target', found', alike⟩ := browse.alike_of_get h distinct distinct' found
    have refIn' := references.mem_iff.mp refIn
    refine ⟨⟨target', some ref.referenceTypeId, some ref.referenceBrowseName⟩, ?_, alike, rfl, rfl⟩
    rw [referenceEntries, if_neg (List.ne_nil_of_mem refIn')]
    exact List.mem_filterMap.mpr ⟨ref, refIn', by rw [found']; rfl⟩

/-- Neither the last node of an element id nor the first reference of several is a
choice between different things. -/
structure Choiceless (browse : Browse) : Prop where
  distinct : browse.Distinct
  apart : browse.IdsApart
  oneName : browse.OneName

theorem Choiceless.reordered (h : Reordered nodes nodes') (tidy : Choiceless (browse.withNodes nodes)) :
    Choiceless (browse.withNodes nodes') where
  distinct := h.nodeIds.nodup_iff.mp tidy.distinct
  apart := by
    have ids := h.infos.map (ModelBuilder.mappedId browse.identity)
    rw [List.map_map, List.map_map] at ids
    exact ids.nodup_iff.mp tidy.apart
  oneName := by
    intro node' m' ref refIn other otherIn
    obtain ⟨node, m, same⟩ := h.symm.mem m'
    exact tidy.oneName node m ref (same.references.mem_iff.mp refIn) other (same.references.mem_iff.mp otherIn)

theorem Choiceless.source {browse : Browse} (tidy : Choiceless browse) {node : BrowsedNode} :
    node ∈ browse.sources ↔ node ∈ browse.opcNodes := mem_sources_of_distinct tidy.distinct node

variable {browse}

theorem link_reordered (h : Reordered nodes nodes') (tidy : Choiceless (browse.withNodes nodes)) {l : Link}
    (m : l ∈ (browse.withNodes nodes).links) : ∃ l' ∈ (browse.withNodes nodes').links,
      Paired (Alike nodes nodes') (browse.withNodes nodes) (browse.withNodes nodes') l l' := by
  have tidy' := Choiceless.reordered browse h tidy
  obtain ⟨source, inside, made⟩ := List.mem_flatMap.mp m
  have sourceIn := tidy.source.mp inside
  obtain ⟨entry, entryIn, rfl⟩ := (mem_linksOf tidy.oneName sourceIn l).mp made
  obtain ⟨source', sourceIn', same⟩ := h.mem sourceIn
  have alike : Alike nodes nodes' source source' := ⟨sourceIn, sourceIn', same⟩
  obtain ⟨entry', entryIn', target, type, name⟩ :=
    browse.referenceEntry_alike h tidy.distinct tidy'.distinct alike entryIn
  refine ⟨_, List.mem_flatMap.mpr ⟨source', tidy'.source.mpr sourceIn', ?_⟩, browse.link_alike alike target type name⟩
  exact (mem_linksOf tidy'.oneName sourceIn' _).mpr ⟨entry', entryIn', rfl⟩

theorem Paired.key {l l' : Link} (pair : Paired (Alike nodes nodes') (browse.withNodes nodes) (browse.withNodes nodes') l l') :
    ((browse.withNodes nodes).candidate l).key = ((browse.withNodes nodes').candidate l').key := by
  simp only [Candidate.key, candidate, pair.name, pair.source.same.nodeId]
  rfl

/-- The least candidates of an element have the same key in both orders. -/
theorem selected_reordered (h : Reordered nodes nodes') (tidy : Choiceless (browse.withNodes nodes))
    {plane : ReferenceClass} {childId : String} {chosen : Candidate}
    (pick : ((browse.withNodes nodes).selectedByChild plane).get? childId = some chosen) :
    ∃ chosen', ((browse.withNodes nodes').selectedByChild plane).get? childId = some chosen' ∧
      Alike nodes nodes' chosen.parent chosen'.parent ∧ chosen.priority = chosen'.priority := by
  have tidy' := Choiceless.reordered browse h tidy
  obtain ⟨l, leads, target, rfl⟩ := selectedByChild_eq _ pick
  obtain ⟨l', present, pair⟩ := link_reordered h tidy leads.present
  have target' : (browse.withNodes nodes').mappedId l'.target = childId :=
    (browse.mappedId_alike pair.target.same).symm.trans target
  obtain ⟨chosen', pick'⟩ := selectedByChild_isSome _ present (pair.relationshipClass.symm.trans leads.within)
  rw [target'] at pick'
  refine ⟨chosen', pick', ?_⟩
  obtain ⟨other', leads', otherTarget', rfl⟩ := selectedByChild_eq _ pick'
  obtain ⟨other, otherPresent, otherPair⟩ := link_reordered h.symm tidy' leads'.present
  have otherTarget : (browse.withNodes nodes).mappedId other.target = (browse.withNodes nodes).mappedId l.target :=
    ((browse.mappedId_alike otherPair.target.same).symm.trans otherTarget').trans target.symm
  have keys : ((browse.withNodes nodes).candidate l).key = ((browse.withNodes nodes').candidate other').key := by
    refine le_antisymm ?_ ?_
    · rw [otherPair.key]
      exact leads.least other otherPresent (otherPair.relationshipClass.symm.trans leads'.within) otherTarget
    · rw [pair.key]
      exact leads'.least l' present (pair.relationshipClass.symm.trans leads.within) (target'.trans otherTarget'.symm)
  refine ⟨?_, congrArg (fun key => (ofLex key).1) keys⟩
  have ids : l.source.nodeId = other'.source.nodeId := congrArg (fun key => (ofLex (ofLex key).2).1) keys
  rw [pair.source.same.nodeId] at ids
  have sources := sources_eq _ (link_source _ present) (link_source _ leads'.present) ids
  change Alike nodes nodes' l.source other'.source
  rw [← sources]
  exact pair.source

theorem follows_reordered (h : Reordered nodes nodes') (tidy : Choiceless (browse.withNodes nodes)) :
    Follows (Alike nodes nodes') (browse.withNodes nodes) (browse.withNodes nodes') where
  unicode := rfl
  node n m := by
    obtain ⟨n', m', same⟩ := h.mem (tidy.source.mp m)
    exact ⟨n', (Choiceless.reordered browse h tidy).source.mpr m', tidy.source.mp m, m', same⟩
  id _ _ alike := browse.mappedId_alike alike.same
  same _ _ _ _ alike alike' ids := by rw [← alike.same.nodeId, ids, alike'.same.nodeId]
  latest _ _ alike _ :=
    have tidy' := Choiceless.reordered browse h tidy
    latest_of_apart tidy'.distinct tidy'.apart (tidy'.source.mpr alike.second)
  link _ := link_reordered h tidy
  chosen _ _ _ _ pick := by
    obtain ⟨chosen', pick', alike, priority⟩ := selected_reordered h tidy pick
    exact ⟨chosen', pick', browse.mappedId_alike alike.same, priority⟩

theorem corresponds_reordered (h : Reordered nodes nodes') (tidy : Choiceless (browse.withNodes nodes)) :
    Corresponds (Alike nodes nodes') (browse.withNodes nodes) (browse.withNodes nodes') where
  forward := follows_reordered h tidy
  backward := by
    have back := follows_reordered h.symm (Choiceless.reordered browse h tidy)
    have flipped : Alike nodes' nodes = flip (Alike nodes nodes') := by
      funext node' node
      exact propext ⟨Alike.flip, Alike.flip⟩
    rwa [flipped] at back

/-! ## The published nodes -/

theorem childIds_reordered (h : Reordered nodes nodes') (tidy : Choiceless (browse.withNodes nodes)) (sourceId : String) :
    (ModelBuilder.childIds browse.identity (browse.withNodes nodes).opcNodeInfos sourceId).Perm
      (ModelBuilder.childIds browse.identity (browse.withNodes nodes').opcNodeInfos sourceId) := by
  have tidy' := Choiceless.reordered browse h tidy
  have lookup : ∀ child, (ModelBuilder.bySourceNode (browse.withNodes nodes).opcNodeInfos).get? child =
      (ModelBuilder.bySourceNode (browse.withNodes nodes').opcNodeInfos).get? child := by
    intro child
    rw [bySourceNode_infos, bySourceNode_infos, Dict.get?_mapValues, Dict.get?_mapValues]
    ext info
    simp only [Option.map_eq_some_iff]
    constructor
    · rintro ⟨node, found, rfl⟩
      obtain ⟨node', found', alike⟩ := browse.alike_of_get h tidy.distinct tidy'.distinct found
      exact ⟨node', found', alike.same.info.symm⟩
    · rintro ⟨node, found, rfl⟩
      obtain ⟨node', found', alike⟩ := browse.alike_of_get h.symm tidy'.distinct tidy.distinct found
      exact ⟨node', found', alike.same.info.symm⟩
  have children := ((h.infos.filter fun info => info.parentNodeId = some sourceId).map OpcUaNodeInfo.nodeId)
  rw [ModelBuilder.childIds, ModelBuilder.childIds, ModelBuilder.childSourcesByParent_get,
    ModelBuilder.childSourcesByParent_get]
  simp only [lookup]
  exact children.filterMap _

theorem publishedNode_reordered (h : Reordered nodes nodes') (tidy : Choiceless (browse.withNodes nodes))
    {node node' : BrowsedNode} (alike : Alike nodes nodes' node node') :
    ((browse.withNodes nodes).publishedNode node).SameUpToOrder ((browse.withNodes nodes').publishedNode node') where
  children := by
    have children := childIds_reordered h tidy node.nodeId
    change (ModelBuilder.childIds browse.identity _ node.nodeId).Perm
      (ModelBuilder.childIds browse.identity _ node'.nodeId)
    rwa [alike.same.nodeId] at children ⊢
  relationships relationship target := by
    simp only [publishedNode]
    have id : (browse.withNodes nodes).mappedId node = (browse.withNodes nodes').mappedId node' :=
      browse.mappedId_alike alike.same
    rw [← id]
    exact (corresponds_reordered h tidy).targets ((browse.withNodes nodes).mappedId node) relationship target
  rest := by
    have pair := corresponds_reordered h tidy
    have parentId := pair.resolvedParentId ((browse.withNodes nodes).mappedId node)
    have confidence := pair.confidenceClass ((browse.withNodes nodes).mappedId node)
    have composed : ((browse.withNodes nodes).compositionChildrenById.bucket ((browse.withNodes nodes).mappedId node) = []) =
        ((browse.withNodes nodes').compositionChildrenById.bucket ((browse.withNodes nodes).mappedId node) = []) :=
      propext (bucket_eq_nil_congr (pair.compositionChildren _))
    obtain ⟨references, rfl⟩ := alike.same.shape
    simp only [publishedNode, ne_eq, parentId, confidence, composed]
    rfl

theorem node_of_id {browse : Browse} {id : String} {published : PublishedNode}
    (found : browse.nodesById.get? id = some published) : ∃ node ∈ browse.sources, browse.mappedId node = id ∧
      browse.publishedNode node = published := by
  obtain ⟨node, inside, same, rfl⟩ := browse.get?_nodesById found
  exact ⟨node, inside, same, rfl⟩

theorem elements_reordered (h : Reordered nodes nodes') (tidy : Choiceless (browse.withNodes nodes)) (id : String) :
    Option.Rel PublishedNode.SameUpToOrder ((browse.withNodes nodes).nodesById.get? id)
      ((browse.withNodes nodes').nodesById.get? id) := by
  have pair := corresponds_reordered h tidy
  cases found : (browse.withNodes nodes).nodesById.get? id with
  | none =>
      have absent : (browse.withNodes nodes').nodesById.get? id = none := by
        rw [Dict.get?_eq_none, ← pair.matched.keys, ← Dict.get?_eq_none]
        exact found
      rw [absent]
      exact .none
  | some published =>
      obtain ⟨node, inside, rfl, rfl⟩ := node_of_id found
      obtain ⟨node', inside', alike⟩ := pair.forward.node node inside
      have latest := pair.forward.latest _ _ alike (latest_of_apart tidy.distinct tidy.apart inside)
      have found' := ((browse.withNodes nodes').get?_nodesById_iff _ _).mpr
        ⟨node', latest, (pair.forward.id _ _ alike).symm, rfl⟩
      rw [found']
      exact .some (publishedNode_reordered h tidy alike)

theorem vocabulary_reordered (h : Reordered nodes nodes') (tidy : Choiceless (browse.withNodes nodes)) :
    (browse.withNodes nodes).publishedVocabulary.SameUpToOrder (browse.withNodes nodes').publishedVocabulary := by
  have pair := corresponds_reordered h tidy
  have ids := graphRelationshipIds_congr pair.matched.registered
  obtain ⟨namespaces, displayNames⟩ := pair.matched.vocabulary
  constructor <;> simp only [publishedVocabulary, published]
  · exact elements_reordered h tidy
  · exact pair.hierarchyParent
  · exact pair.compositionParent
  · exact pair.roots
  · exact ids
  · exact namespaces
  · exact displayNames
  · exact pair.targets

end

/-- The order in which nodes and references are browsed does not matter where no
two nodes share an element id and no two references of one node that share their
target and type differ in name. -/
theorem buildVocabulary_reordered (browse : Browse) {nodes : List BrowsedNode} (h : Reordered browse.opcNodes nodes)
    (distinct : browse.Distinct) (apart : browse.IdsApart) (oneName : browse.OneName) :
    SameOutcome VocabularyModel.SameUpToOrder browse.buildVocabulary (browse.withNodes nodes).buildVocabulary := by
  have tidy : Choiceless (browse.withNodes browse.opcNodes) := ⟨distinct, apart, oneName⟩
  have agree := vocabulary_reordered h tidy
  exact sameOutcome (corresponds_reordered h tidy).matched.refused agree

end Browse

namespace Plant

def flowsTo (name : String) : OpcUaReferenceInfo := ⟨"ns=1;s=" ++ name, "ns=1;i=4001", "FlowsTo"⟩

/-- One reference type under two names. -/
def renamed (references : List OpcUaReferenceInfo) : List BrowsedNode :=
  [node "A" "Object" references, node "B" "Object" []]

/-- A node that is known by its namespace index and by its namespace. -/
def doubled : List BrowsedNode :=
  [node "A" "Object" [flowsTo "B"], { node "A" "Object" [organizes "B"] with nodeId := "nsu=urn:plant;s=A" },
    node "B" "Object" []]

end Plant

namespace Browse

theorem not_sameOutcome {browse other : Browse} (accepted : browse.refusal = none) (accepted' : other.refusal = none)
    (differ : ¬ browse.publishedVocabulary.SameUpToOrder other.publishedVocabulary) :
    ¬ SameOutcome VocabularyModel.SameUpToOrder browse.buildVocabulary other.buildVocabulary := by
  intro same
  simp only [buildVocabulary, accepted, accepted'] at same
  cases same with
  | published agree => exact differ agree

end Browse

namespace Plant

def misnamed : OpcUaReferenceInfo := ⟨"ns=1;s=B", "i=35", "HasProperty"⟩

/-- Which name of a reference type stands first decides the parent. -/
theorem renaming_matters :
    Reordered (renamed [organizes "B", misnamed]) (renamed [misnamed, organizes "B"]) ∧
      (browse (renamed [organizes "B", misnamed])).Distinct ∧ (browse (renamed [organizes "B", misnamed])).IdsApart ∧
      ¬ SameOutcome VocabularyModel.SameUpToOrder (browse (renamed [organizes "B", misnamed])).buildVocabulary
        ((browse (renamed [organizes "B", misnamed])).withNodes (renamed [misnamed, organizes "B"])).buildVocabulary := by
  refine ⟨⟨_, .refl _, .cons ⟨rfl, .swap _ _ _⟩ (.cons (SameNode.refl _) .nil)⟩, by decide, by decide, ?_⟩
  refine Browse.not_sameOutcome (by decide) (by decide) fun agree => ?_
  have parents := agree.hierarchyParents "asset-cd1e6b2d19c59f72"
  simp only [Browse.publishedVocabulary, Browse.published] at parents
  exact absurd parents (by decide)

/-- Which node of an element id stands last decides the references. -/
theorem doubling_matters :
    Reordered doubled doubled.reverse ∧ (browse doubled).Distinct ∧ (browse doubled).OneName ∧
      ¬ SameOutcome VocabularyModel.SameUpToOrder (browse doubled).buildVocabulary
        ((browse doubled).withNodes doubled.reverse).buildVocabulary := by
  refine ⟨⟨_, (List.reverse_perm _).symm, .cons (SameNode.refl _) (.cons (SameNode.refl _) (.cons (SameNode.refl _) .nil))⟩,
    by decide, by decide, ?_⟩
  refine Browse.not_sameOutcome (by decide) (by decide) fun agree => ?_
  have targets := agree.targets "asset-5b7e0a0f0c568c33" "FlowsTo" "asset-cd1e6b2d19c59f72"
  simp only [Browse.publishedVocabulary, Browse.published] at targets
  exact absurd targets (by decide)

/-- A second name of a reference type, or a second node of an element id, is enough
for the order to show. -/
theorem order_matters :
    (Reordered (renamed [organizes "B", misnamed]) (renamed [misnamed, organizes "B"]) ∧
      (browse (renamed [organizes "B", misnamed])).Distinct ∧ (browse (renamed [organizes "B", misnamed])).IdsApart ∧
      ¬ SameOutcome VocabularyModel.SameUpToOrder (browse (renamed [organizes "B", misnamed])).buildVocabulary
        ((browse (renamed [organizes "B", misnamed])).withNodes (renamed [misnamed, organizes "B"])).buildVocabulary) ∧
    Reordered doubled doubled.reverse ∧ (browse doubled).Distinct ∧ (browse doubled).OneName ∧
      ¬ SameOutcome VocabularyModel.SameUpToOrder (browse doubled).buildVocabulary
        ((browse doubled).withNodes doubled.reverse).buildVocabulary :=
  ⟨renaming_matters, doubling_matters⟩

theorem line_reordered :
    SameOutcome VocabularyModel.SameUpToOrder (browse (renamed [organizes "B"])).buildVocabulary
      ((browse (renamed [organizes "B"])).withNodes (renamed [organizes "B"]).reverse).buildVocabulary :=
  Browse.buildVocabulary_reordered (browse (renamed [organizes "B"]))
    ⟨_, .swap _ _ _, .cons (SameNode.refl _) (.cons (SameNode.refl _) .nil)⟩ (by decide) (by decide) (by decide)

end Plant
end I3x

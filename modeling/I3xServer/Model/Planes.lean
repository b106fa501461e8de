import I3xServer.Container.Buckets
import I3xServer.Model.References
import Mathlib.Data.Prod.Lex
import Mathlib.Data.String.Basic

/-!
# Planes and parents

Hierarchy and composition references propose parents for their targets. In each
plane the least candidate of a child wins; the hierarchy candidates that lose
become graph edges, the composition candidates that lose do not.
-/
namespace I3x
open Container Mapper

/-- What the builder works on: the browsed nodes and what the client resolved
about their namespaces and types, with the text operations and the digest. -/
structure Browse where
  unicode : Unicode
  digest : String → String
  opcNodes : List BrowsedNode
  namespaceInfos : List OpcUaNamespaceInfo
  referenceSupertypesById : Dict String (List String)
  resolvedHierarchies : Dict String (List OpcUaTypeDefinitionInfo)

/-- A reference between two browsed nodes before it is classified. -/
structure ReferenceEntry where
  target : BrowsedNode
  referenceTypeId : Option String
  referenceBrowseName : Option String

/-- A classified reference. -/
structure Link where
  source : BrowsedNode
  target : BrowsedNode
  referenceTypeId : Option String
  name : String
  relationshipClass : ReferenceClass

/-- A parent that a reference proposes for its target. -/
structure Candidate where
  priority : Nat
  parent : BrowsedNode
  name : String

def Candidate.key (candidate : Candidate) : Nat ×ₗ String ×ₗ String :=
  toLex (candidate.priority, toLex (candidate.parent.nodeId, candidate.name))

/-- `sorted(candidates)[0]`. -/
def selected (candidates : List Candidate) : Option Candidate :=
  (candidates.insertionSort fun first second => first.key ≤ second.key).head?

def hierarchyRelationshipPriority (unicode : Unicode) (referenceName : String) : Nat :=
  let normalized := unicode.strip (unicode.lower referenceName)
  if normalized = "organizes" then 0
  else if normalized = "hascomponent" then 1
  else if normalized = "hasorderedcomponent" then 2
  else 99

/-- What a child without a reference of its own is related by. -/
def defaultRelationshipName (node : BrowsedNode) : String :=
  if node.nodeClass = "Variable" then "HasProperty" else "Organizes"

namespace Browse
variable (browse : Browse)

def identity : Identity where
  expandedNodeId := NodeIds.expandedNodeId browse.unicode browse.namespaceInfos
  digest := browse.digest

def bySourceNode : Dict String BrowsedNode :=
  Dict.ofList (browse.opcNodes.map fun node => (node.nodeId, node))

/-- The nodes of the model's sources, in the order in which the builder visits them. -/
def sources : List BrowsedNode := browse.bySourceNode.values

def mappedId (node : BrowsedNode) : String := ModelBuilder.mappedId browse.identity node.toOpcUaNodeInfo

/-- The browsed nodes as the lookup model sees them. -/
def opcNodeInfos : List OpcUaNodeInfo := browse.opcNodes.map BrowsedNode.toOpcUaNodeInfo

def childSources (sourceId : String) : List BrowsedNode :=
  (((ModelBuilder.childSourcesByParent browse.opcNodeInfos).get? sourceId).getD []).filterMap
    browse.bySourceNode.get?

/-- The type hierarchies with the namespaces that their node ids imply. -/
def typeDefinitionHierarchyById : Dict String (List OpcUaTypeDefinitionInfo) :=
  browse.resolvedHierarchies.mapValues fun _ hierarchy => hierarchy.map fun info =>
    { info with
      namespaceUri :=
        if info.namespaceUri.getD "" = "" then
          NodeIds.resolveNamespaceUri browse.unicode browse.namespaceInfos info.nodeId
        else info.namespaceUri }

def typeDefinitionHierarchy (node : BrowsedNode) : List OpcUaTypeDefinitionInfo :=
  (browse.typeDefinitionHierarchyById.get? (node.typeDefinitionId.getD "")).getD []

def activeProfiles (node : BrowsedNode) : List SemanticProfile :=
  activeProfilesForNode browse.unicode (browse.typeDefinitionHierarchy node)

/-- The outgoing references within the model; for a node without outgoing
references, those that its browsed children stand for. -/
def referenceEntries (node : BrowsedNode) : List ReferenceEntry :=
  if node.outgoingReferences = [] then
    (browse.childSources node.nodeId).map fun child =>
      ⟨child, none, some (defaultRelationshipName child)⟩
  else
    node.outgoingReferences.filterMap fun ref =>
      (browse.bySourceNode.get? ref.targetNodeId).map fun target =>
        ⟨target, some ref.referenceTypeId, some ref.referenceBrowseName⟩

/-- The first entry of every target and reference type, given those seen already. -/
def unseenEntries : List (String × Option String) → List ReferenceEntry → List ReferenceEntry
  | _, [] => []
  | seen, entry :: rest =>
      if (entry.target.nodeId, entry.referenceTypeId) ∈ seen then unseenEntries seen rest
      else entry :: unseenEntries ((entry.target.nodeId, entry.referenceTypeId) :: seen) rest

def referenceClass (source : BrowsedNode) (entry : ReferenceEntry) : ReferenceClass :=
  let supertypes := (entry.referenceTypeId.bind browse.referenceSupertypesById.get?).getD []
  let tokens := lineageTokens browse.unicode entry.referenceTypeId entry.referenceBrowseName supertypes
  let classified := classifyWithProfiles browse.unicode tokens (some entry.target.nodeClass)
    (browse.activeProfiles source)
  (forcedRelationshipClassForNode browse.unicode entry.target (browse.activeProfiles entry.target)
    (browse.typeDefinitionHierarchy entry.target)).getD classified

def link (source : BrowsedNode) (entry : ReferenceEntry) : Link where
  source
  target := entry.target
  referenceTypeId := entry.referenceTypeId
  name :=
    if entry.referenceBrowseName.getD "" = "" then defaultRelationshipName entry.target
    else entry.referenceBrowseName.getD ""
  relationshipClass := browse.referenceClass source entry

def linksOf (source : BrowsedNode) : List Link :=
  (unseenEntries [] (browse.referenceEntries source)).map (browse.link source)

def links : List Link := browse.sources.flatMap browse.linksOf

def candidate (link : Link) : Candidate :=
  ⟨hierarchyRelationshipPriority browse.unicode link.name, link.source, link.name⟩

/-- The candidate parents of every child in one plane. -/
def candidateParentsByChild (plane : ReferenceClass) : Dict String (List Candidate) :=
  Dict.empty.pushAll ((browse.links.filter fun link => link.relationshipClass = plane).map fun link =>
    (browse.mappedId link.target, browse.candidate link))

def selectedByChild (plane : ReferenceClass) : Dict String Candidate :=
  (browse.candidateParentsByChild plane).filterMapValues fun _ candidates => selected candidates

def hierarchyParentById : Dict String String :=
  (browse.selectedByChild .hierarchy).mapValues fun _ selected => browse.mappedId selected.parent

def compositionParentById : Dict String String :=
  (browse.selectedByChild .composition).mapValues fun _ selected => browse.mappedId selected.parent

/-- Every element with no children yet. -/
def noChildren : Dict String (List String) :=
  Dict.ofList (browse.sources.map fun node => (browse.mappedId node, []))

def childrenByParent (parentById : Dict String String) : Dict String (List String) :=
  browse.noChildren.pushAll (parentById.entries.map fun entry => (entry.2, entry.1))

def hierarchyChildrenById : Dict String (List String) := browse.childrenByParent browse.hierarchyParentById

def compositionChildrenById : Dict String (List String) :=
  browse.childrenByParent browse.compositionParentById

/-- The source node chosen as the parent of a child: the hierarchy's choice, and
the composition's where the hierarchy has none. -/
def parentSource (childId : String) : Option BrowsedNode :=
  match (browse.selectedByChild .hierarchy).get? childId with
  | some selected => some selected.parent
  | none => ((browse.selectedByChild .composition).get? childId).map Candidate.parent

/-- The candidates of one child that become graph edges. -/
def demotedOf (candidates : List Candidate) : List Candidate :=
  match selected candidates with
  | none => []
  | some chosen =>
      if 1 < candidates.length then
        candidates.filter fun candidate =>
          ¬ (candidate.parent.nodeId = chosen.parent.nodeId ∧ candidate.priority = chosen.priority)
      else []

def demoted : List (String × Candidate) :=
  (browse.candidateParentsByChild .hierarchy).entries.flatMap fun entry =>
    (demotedOf entry.2).map fun candidate => (entry.1, candidate)

/-! ## Nodes and references -/

theorem bySourceNode_key {id : String} {node : BrowsedNode} (found : browse.bySourceNode.get? id = some node) :
    node.nodeId = id := by
  rw [bySourceNode, Dict.ofList, Dict.get?_update, Dict.get?_empty, Option.or_none] at found
  have m := lookup_mem found
  simp only [List.mem_reverse, List.mem_map, Prod.mk.injEq] at m
  obtain ⟨_, _, rfl, rfl⟩ := m
  rfl

theorem mem_sources (node : BrowsedNode) :
    node ∈ browse.sources ↔ browse.bySourceNode.get? node.nodeId = some node := by
  rw [sources, Dict.mem_values]
  constructor
  · rintro ⟨id, found⟩
    rwa [browse.bySourceNode_key found]
  · exact fun found => ⟨_, found⟩

theorem mem_sources_of_get? {id : String} {node : BrowsedNode} (found : browse.bySourceNode.get? id = some node) :
    node ∈ browse.sources := (Dict.mem_values _ _).mpr ⟨id, found⟩

/-- Nodes of the model are determined by their node ids. -/
theorem sources_eq {first second : BrowsedNode} (m : first ∈ browse.sources) (n : second ∈ browse.sources)
    (same : first.nodeId = second.nodeId) : first = second := by
  rw [mem_sources] at m n
  rw [same, n, Option.some.injEq] at m
  exact m.symm

theorem sources_nodup : browse.sources.Nodup := by
  refine List.Nodup.of_map (fun node => node.nodeId) ?_
  have keys : (browse.sources.map fun node => node.nodeId) = browse.bySourceNode.keys := by
    simp only [sources, Dict.values, Dict.keys, List.map_map]
    refine List.map_congr_left fun e m => ?_
    exact browse.bySourceNode_key ((Dict.mem_entries _ e.1 e.2).mp m)
  rw [keys]
  exact browse.bySourceNode.nodup

/-- The last visited node among those that share its element id. -/
def Latest (node : BrowsedNode) : Prop :=
  ∃ before after, browse.sources = before ++ node :: after ∧
    ∀ other ∈ after, browse.mappedId other ≠ browse.mappedId node

/-- A dictionary that the builder fills node by node keeps the latest value. -/
theorem get?_ofList_latest {V : Type} (f : BrowsedNode → V) (id : String) (v : V) :
    (Dict.ofList (browse.sources.map fun node => (browse.mappedId node, f node))).get? id = some v ↔
      ∃ node, browse.Latest node ∧ browse.mappedId node = id ∧ f node = v := by
  unfold Latest
  generalize browse.sources = nodes
  induction nodes using List.reverseRecOn with
  | nil => simp [Dict.ofList]
  | append_singleton nodes last ih =>
      rw [List.map_append, Dict.ofList, Dict.update_append]
      change ((Dict.ofList (nodes.map fun node => (browse.mappedId node, f node))).set
        (browse.mappedId last) (f last)).get? id = some v ↔ _
      rw [Dict.get?_set]
      constructor
      · intro m
        by_cases same : id = browse.mappedId last
        · rw [if_pos same, Option.some.injEq] at m
          exact ⟨last, ⟨nodes, [], rfl, fun _ o => absurd o List.not_mem_nil⟩, same.symm, m⟩
        · rw [if_neg same] at m
          obtain ⟨node, ⟨before, after, rfl, later⟩, rfl, value⟩ := ih.mp m
          refine ⟨node, ⟨before, after ++ [last], by simp, fun other o => ?_⟩, rfl, value⟩
          rcases List.mem_append.mp o with o | o
          · exact later other o
          · exact List.mem_singleton.mp o ▸ fun eq => same eq.symm
      · rintro ⟨node, ⟨before, after, shape, later⟩, rfl, value⟩
        rcases List.eq_nil_or_concat after with rfl | ⟨init, final, rfl⟩
        · obtain ⟨rfl, rfl⟩ := List.append_inj' shape rfl |>.imp_right fun eq => List.singleton_inj.mp eq
          rw [if_pos rfl, value]
        · rw [List.concat_eq_append, ← List.cons_append, ← List.append_assoc] at shape
          obtain ⟨rfl, tail⟩ := List.append_inj' shape rfl
          obtain rfl := List.singleton_inj.mp tail
          have apart : browse.mappedId node ≠ browse.mappedId last := fun eq =>
            later last (by simp) eq.symm
          rw [if_neg apart]
          exact ih.mpr ⟨node, ⟨before, init, rfl, fun other o => later other (by simp [o])⟩, rfl, value⟩

theorem mem_unseenEntries {seen : List (String × Option String)} {entries : List ReferenceEntry}
    {entry : ReferenceEntry} (m : entry ∈ unseenEntries seen entries) : entry ∈ entries := by
  induction entries generalizing seen with
  | nil => exact m
  | cons head rest ih =>
      rw [unseenEntries] at m
      split at m
      · exact List.mem_cons_of_mem _ (ih m)
      · exact (List.mem_cons.mp m).elim (fun same => same ▸ List.mem_cons_self) fun later =>
          List.mem_cons_of_mem _ (ih later)

/-- De-duplication keeps an entry for every target and reference type. -/
theorem exists_unseenEntry {seen : List (String × Option String)} {entries : List ReferenceEntry}
    {entry : ReferenceEntry} (m : entry ∈ entries)
    (fresh : (entry.target.nodeId, entry.referenceTypeId) ∉ seen) :
    ∃ kept ∈ unseenEntries seen entries, kept.target.nodeId = entry.target.nodeId ∧
      kept.referenceTypeId = entry.referenceTypeId := by
  induction entries generalizing seen with
  | nil => cases m
  | cons head rest ih =>
      rw [unseenEntries]
      split
      · rename_i known
        rcases List.mem_cons.mp m with rfl | later
        · exact absurd known fresh
        · exact ih later fresh
      · by_cases same : (head.target.nodeId, head.referenceTypeId) = (entry.target.nodeId, entry.referenceTypeId)
        · exact ⟨head, List.mem_cons_self, congrArg Prod.fst same, congrArg Prod.snd same⟩
        · rcases List.mem_cons.mp m with rfl | later
          · exact absurd rfl same
          · obtain ⟨kept, inside, agree⟩ := ih later (by
              rw [List.mem_cons, not_or]
              exact ⟨fun eq => same eq.symm, fresh⟩)
            exact ⟨kept, List.mem_cons_of_mem _ inside, agree⟩

theorem mem_referenceEntries {node : BrowsedNode} {entry : ReferenceEntry}
    (m : entry ∈ browse.referenceEntries node) : entry.target ∈ browse.sources := by
  rw [referenceEntries] at m
  split at m
  · obtain ⟨child, inside, rfl⟩ := List.mem_map.mp m
    obtain ⟨id, -, found⟩ := List.mem_filterMap.mp inside
    exact browse.mem_sources_of_get? found
  · obtain ⟨ref, -, made⟩ := List.mem_filterMap.mp m
    obtain ⟨target, found, rfl⟩ := Option.map_eq_some_iff.mp made
    exact browse.mem_sources_of_get? found

theorem link_source {l : Link} (m : l ∈ browse.links) : l.source ∈ browse.sources := by
  obtain ⟨source, inside, made⟩ := List.mem_flatMap.mp m
  obtain ⟨entry, -, rfl⟩ := List.mem_map.mp made
  exact inside

theorem link_target {l : Link} (m : l ∈ browse.links) : l.target ∈ browse.sources := by
  obtain ⟨source, -, made⟩ := List.mem_flatMap.mp m
  obtain ⟨entry, inside, rfl⟩ := List.mem_map.mp made
  exact browse.mem_referenceEntries (mem_unseenEntries inside)

/-! ## The elected candidate -/

end Browse

theorem selected_spec {candidates : List Candidate} {chosen : Candidate} (h : selected candidates = some chosen) :
    chosen ∈ candidates ∧ ∀ other ∈ candidates, chosen.key ≤ other.key := by
  let le := fun first second : Candidate => first.key ≤ second.key
  have : IsTrans Candidate le := ⟨fun _ _ _ => le_trans⟩
  have : Std.Total le := ⟨fun _ _ => le_total _ _⟩
  have inside : ∀ c, c ∈ candidates.insertionSort le ↔ c ∈ candidates := fun _ => List.mem_insertionSort _
  have ordered := List.pairwise_insertionSort le candidates
  obtain ⟨rest, shape⟩ := List.head?_eq_some_iff.mp h
  change candidates.insertionSort le = _ at shape
  rw [shape, List.pairwise_cons] at ordered
  refine ⟨(inside chosen).mp (by rw [shape]; exact List.mem_cons_self), fun other m => ?_⟩
  rcases List.mem_cons.mp (shape ▸ (inside other).mpr m) with rfl | later
  · exact le_refl _
  · exact ordered.1 other later

theorem selected_isSome {candidates : List Candidate} {candidate : Candidate} (m : candidate ∈ candidates) :
    ∃ chosen, selected candidates = some chosen := by
  cases h : selected candidates with
  | some chosen => exact ⟨chosen, rfl⟩
  | none =>
      rw [selected, List.head?_eq_none_iff] at h
      have none := List.length_insertionSort (fun first second : Candidate => first.key ≤ second.key) candidates
      rw [h, List.length_nil] at none
      rw [List.length_eq_zero_iff.mp none.symm] at m
      cases m

namespace Browse
variable (browse : Browse)

theorem mem_candidates (plane : ReferenceClass) (childId : String) (candidate : Candidate) :
    candidate ∈ (browse.candidateParentsByChild plane).bucket childId ↔
      ∃ l ∈ browse.links, l.relationshipClass = plane ∧ browse.mappedId l.target = childId ∧
        browse.candidate l = candidate := by
  rw [candidateParentsByChild, Dict.mem_bucket_pushAll]
  simp [Dict.bucket, and_assoc]

theorem candidates_bucket {plane : ReferenceClass} {childId : String} {candidates : List Candidate}
    (found : (browse.candidateParentsByChild plane).get? childId = some candidates) :
    (browse.candidateParentsByChild plane).bucket childId = candidates := Dict.bucket_eq found

/-- A reference that no other reference of its plane to the same element precedes
in the builder's order. -/
structure Leads (plane : ReferenceClass) (l : Link) : Prop where
  present : l ∈ browse.links
  within : l.relationshipClass = plane
  least : ∀ other ∈ browse.links, other.relationshipClass = plane →
    browse.mappedId other.target = browse.mappedId l.target →
    (browse.candidate l).key ≤ (browse.candidate other).key

theorem selectedByChild_eq {plane : ReferenceClass} {childId : String} {chosen : Candidate}
    (h : (browse.selectedByChild plane).get? childId = some chosen) :
    ∃ l, browse.Leads plane l ∧ browse.mappedId l.target = childId ∧ browse.candidate l = chosen := by
  rw [selectedByChild, Dict.get?_filterMapValues, Option.bind_eq_some_iff] at h
  obtain ⟨candidates, found, pick⟩ := h
  obtain ⟨inside, least⟩ := selected_spec pick
  rw [← browse.candidates_bucket found] at inside least
  obtain ⟨l, present, within, rfl, rfl⟩ := (browse.mem_candidates _ _ _).mp inside
  exact ⟨l, ⟨present, within, fun other m same target =>
    least _ ((browse.mem_candidates _ _ _).mpr ⟨other, m, same, target, rfl⟩)⟩, rfl, rfl⟩

theorem selectedByChild_isSome {plane : ReferenceClass} {l : Link} (m : l ∈ browse.links)
    (within : l.relationshipClass = plane) :
    ∃ chosen, (browse.selectedByChild plane).get? (browse.mappedId l.target) = some chosen := by
  have inside := (browse.mem_candidates plane (browse.mappedId l.target) _).mpr ⟨l, m, within, rfl, rfl⟩
  cases found : (browse.candidateParentsByChild plane).get? (browse.mappedId l.target) with
  | none =>
      rw [Dict.bucket, found] at inside
      cases inside
  | some candidates =>
      rw [browse.candidates_bucket found] at inside
      obtain ⟨chosen, pick⟩ := selected_isSome inside
      exact ⟨chosen, by rw [selectedByChild, Dict.get?_filterMapValues, found]; exact pick⟩

/-- All references that lead for an element come from the same node. -/
theorem Leads.source_eq {plane : ReferenceClass} {l other : Link} (h : browse.Leads plane l)
    (h' : browse.Leads plane other) (target : browse.mappedId l.target = browse.mappedId other.target) :
    l.source = other.source := by
  have same := le_antisymm (h.least other h'.present h'.within target.symm)
    (h'.least l h.present h.within target)
  have parts := congrArg (fun key => (ofLex (ofLex key).2).1) same
  exact browse.sources_eq (browse.link_source h.present) (browse.link_source h'.present) parts

theorem selected_parent_iff (plane : ReferenceClass) (childId : String) (parent : BrowsedNode) :
    ((browse.selectedByChild plane).get? childId).map Candidate.parent = some parent ↔
      ∃ l, browse.Leads plane l ∧ browse.mappedId l.target = childId ∧ l.source = parent := by
  constructor
  · intro h
    obtain ⟨chosen, found, rfl⟩ := Option.map_eq_some_iff.mp h
    obtain ⟨l, leads, target, rfl⟩ := browse.selectedByChild_eq found
    exact ⟨l, leads, target, rfl⟩
  · rintro ⟨l, leads, rfl, rfl⟩
    obtain ⟨chosen, found⟩ := browse.selectedByChild_isSome leads.present leads.within
    obtain ⟨other, leads', target, rfl⟩ := browse.selectedByChild_eq found
    rw [found, Option.map_some, Option.some.injEq]
    exact leads'.source_eq browse leads target

/-- The parents of a plane are the elements whose references lead. -/
theorem planeParent_iff (plane : ReferenceClass) (childId parentId : String) :
    ((browse.selectedByChild plane).mapValues fun _ selected => browse.mappedId selected.parent).get? childId =
        some parentId ↔
      ∃ l, browse.Leads plane l ∧ browse.mappedId l.target = childId ∧ browse.mappedId l.source = parentId := by
  have same : ((browse.selectedByChild plane).mapValues fun _ selected => browse.mappedId selected.parent).get? childId =
      (((browse.selectedByChild plane).get? childId).map Candidate.parent).map browse.mappedId := by
    rw [Dict.get?_mapValues, Option.map_map]
    rfl
  rw [same, Option.map_eq_some_iff]
  constructor
  · rintro ⟨parent, found, rfl⟩
    obtain ⟨l, leads, target, rfl⟩ := (browse.selected_parent_iff _ _ _).mp found
    exact ⟨l, leads, target, rfl⟩
  · rintro ⟨l, leads, target, rfl⟩
    exact ⟨l.source, (browse.selected_parent_iff _ _ _).mpr ⟨l, leads, target, rfl⟩, rfl⟩

theorem hierarchyParent_iff (childId parentId : String) :
    browse.hierarchyParentById.get? childId = some parentId ↔
      ∃ l, browse.Leads .hierarchy l ∧ browse.mappedId l.target = childId ∧ browse.mappedId l.source = parentId :=
  browse.planeParent_iff .hierarchy childId parentId

theorem compositionParent_iff (childId parentId : String) :
    browse.compositionParentById.get? childId = some parentId ↔
      ∃ l, browse.Leads .composition l ∧ browse.mappedId l.target = childId ∧ browse.mappedId l.source = parentId :=
  browse.planeParent_iff .composition childId parentId

theorem selectedByChild_eq_none {plane : ReferenceClass} {childId : String} :
    (browse.selectedByChild plane).get? childId = none ↔
      ∀ l ∈ browse.links, l.relationshipClass = plane → browse.mappedId l.target ≠ childId := by
  constructor
  · rintro absent l m within rfl
    obtain ⟨chosen, found⟩ := browse.selectedByChild_isSome m within
    rw [absent] at found
    cases found
  · intro none
    cases found : (browse.selectedByChild plane).get? childId with
    | none => rfl
    | some chosen =>
        obtain ⟨l, leads, target, -⟩ := browse.selectedByChild_eq found
        exact absurd target (none l leads.present leads.within)

end Browse
end I3x

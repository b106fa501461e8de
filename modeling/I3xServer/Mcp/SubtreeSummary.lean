import I3xServer.Container.Counters
import I3xServer.Container.Unfolding
import I3xServer.Mcp.ModelIndex

/-!
# The summary of a subtree

A visit of the elements below a root in the chosen planes, down to some depth. An
element is not entered again below itself, but is entered again below others; the bound
on the nodes counts different elements only.
-/
namespace I3x.Mcp
open Container Mapper

structure NodeSummary where
  elementId : String
  displayName : String
  kind : NodeKind
  semanticRole : SemanticRole
  mappingConfidence : MappingConfidence
  typeElementId : String
  namespaceUri : Option String
  appliedProfileIds : List String
  parentId : Option String
  writable : Option Bool
  executable : Option Bool
  deriving DecidableEq, Repr

/-- The items under `children` of a summary, each with those below it. -/
inductive SubtreeChildren where
  | nil
  | cons (relationshipType : String) (node : NodeSummary) (below next : SubtreeChildren)
  deriving DecidableEq, Repr

namespace SubtreeChildren

/-- The ids of the nodes, in the order in which they are listed. -/
def ids : SubtreeChildren → List String
  | nil => []
  | cons _ node below next => node.elementId :: (below.ids ++ next.ids)

def height : SubtreeChildren → Nat
  | nil => 0
  | cons _ _ below next => max (below.height + 1) next.height

end SubtreeChildren

/-- Arguments in the bounds of the schema; all but the root have defaults. -/
structure SubtreeArguments where
  rootElementId : String
  maxDepth : Option Nat
  maxNodes : Option Nat
  includeHierarchy : Option Bool
  includeComposition : Option Bool
  includeProperties : Option Bool
  includeActions : Option Bool
  shallow : ∀ d ∈ maxDepth, d ≤ 32
  bounded : ∀ n ∈ maxNodes, 1 ≤ n ∧ n ≤ 500

namespace SubtreeArguments
variable (arguments : SubtreeArguments)

def depthBound : Nat := arguments.maxDepth.getD 4

def nodeBound : Nat := arguments.maxNodes.getD 200

theorem nodeBound_pos : 1 ≤ arguments.nodeBound := by
  rw [nodeBound]
  cases eq : arguments.maxNodes with
  | none => decide
  | some n => exact (arguments.bounded n eq).1

end SubtreeArguments

/-- What a visit has counted so far. -/
structure Tally where
  included : Dict String NodeSummary
  kindCounts : Dict NodeKind Nat
  roleCounts : Dict SemanticRole Nat
  truncated : Bool

namespace Tally

def count (tally : Tally) (node : NodeSummary) : Tally :=
  { tally with
    included := tally.included.set node.elementId node
    kindCounts := tally.kindCounts.bump node.kind
    roleCounts := tally.roleCounts.bump node.semanticRole }

def cut (tally : Tally) : Tally := { tally with truncated := true }

/-- The elements included so far. -/
def seen (tally : Tally) : Finset String := tally.included.keys.toFinset

theorem length_included (tally : Tally) : tally.included.length = tally.seen.card := by
  rw [seen, Dict.keys, List.toFinset_card_of_nodup tally.included.nodup, List.length_map, Dict.length]

theorem seen_count (tally : Tally) (node : NodeSummary) : (tally.count node).seen = insert node.elementId tally.seen := by
  ext id
  rw [seen, List.mem_toFinset, count, Dict.keys_set, Finset.mem_insert, seen, List.mem_toFinset]

/-- Every node listed between two tallies is counted once for each time it is listed. -/
structure Counts (before after : Tally) (ids : List String) : Prop where
  seen : after.seen = before.seen ∪ ids.toFinset
  kinds : after.kindCounts.total = before.kindCounts.total + ids.length
  roles : after.roleCounts.total = before.roleCounts.total + ids.length

theorem Counts.refl (tally : Tally) : tally.Counts tally [] := ⟨by simp, rfl, rfl⟩

theorem Counts.append {before middle after : Tally} {ids more : List String} (first : before.Counts middle ids)
    (second : middle.Counts after more) : before.Counts after (ids ++ more) where
  seen := by rw [second.seen, first.seen, List.toFinset_append, Finset.union_assoc]
  kinds := by rw [second.kinds, first.kinds, List.length_append, Nat.add_assoc]
  roles := by rw [second.roles, first.roles, List.length_append, Nat.add_assoc]

theorem Counts.cut {before after : Tally} {ids : List String} (counts : before.Counts after ids) :
    before.Counts after.cut ids := ⟨counts.seen, counts.kinds, counts.roles⟩

theorem counts_count (tally : Tally) (node : NodeSummary) : tally.Counts (tally.count node) [node.elementId] where
  seen := by
    rw [seen_count, Finset.union_comm]
    rfl
  kinds := Dict.total_bump _ _
  roles := Dict.total_bump _ _

end Tally

structure SubtreeSummary where
  modelRevision : String
  rootElementId : String
  totalNodes : Nat
  truncated : Bool
  root : NodeSummary
  children : SubtreeChildren
  byKind : Dict NodeKind Nat
  bySemanticRole : Dict SemanticRole Nat

/-- The ids of all nodes of the tree. -/
def SubtreeSummary.ids (summary : SubtreeSummary) : List String := summary.root.elementId :: summary.children.ids

namespace AccessModel
variable (server : Server) (model : AccessModel) (arguments : SubtreeArguments)

/-- `_model_node_summary`. -/
def nodeSummary (node : PublishedNode) : NodeSummary where
  elementId := node.id
  displayName := node.name
  kind := node.kind
  semanticRole := (model.semanticRoleById.get? node.id).getD node.semanticRole
  mappingConfidence := (model.mappingConfidenceById.get? node.id).getD node.mappingConfidence
  typeElementId := (Api.either node.type (Api.either node.sourceTypeId (some node.kind.text))).getD ""
  namespaceUri := Api.either (model.namespaceUriById.get? node.id).join node.namespaceUri
  appliedProfileIds := (model.appliedProfileIdsById.get? node.id).getD node.appliedProfileIds
  parentId := node.parentId
  writable := node.writable
  executable := node.userExecutable

/-- `_subtree_child_edges`. -/
def subtreeChildEdges (id : String) : List (String × String) :=
  (if arguments.includeHierarchy.getD true then
    (model.hierarchyChildrenById.bucket id).map fun child => ("HasChildren", child) else []) ++
  if arguments.includeComposition.getD true then
    (model.compositionChildrenById.bucket id).map fun child => ("HasComponent", child) else []

/-- The filters on properties and actions. -/
def leftOut (node : PublishedNode) : Bool :=
  decide (node.kind = .property) && !arguments.includeProperties.getD true ||
    decide (node.kind = .action) && !arguments.includeActions.getD true

/-- The loop over the edges of a node, with the visit of a child. -/
def visitEdges (visit : PublishedNode → List String → Tally → SubtreeChildren × Tally) (path : List String) :
    List (String × String) → Tally → SubtreeChildren × Tally
  | [], tally => (.nil, tally)
  | (relationshipType, childId) :: edges, tally =>
      match model.nodesById.get? childId with
      | none => visitEdges visit path edges tally
      | some child =>
          if childId ∈ path ∨ leftOut arguments child then visitEdges visit path edges tally
          else if arguments.nodeBound ≤ tally.included.length then (.nil, tally.cut)
          else
            let (below, tally) := visit child (childId :: path) tally
            let (next, tally) := visitEdges visit path edges tally
            (.cons relationshipType (model.nodeSummary child) below next, tally)

/-- `visit`, by the number of levels that are left. -/
def visit : Nat → PublishedNode → List String → Tally → SubtreeChildren × Tally
  | 0, node, _, tally =>
      let tally := tally.count (model.nodeSummary node)
      (.nil, if model.subtreeChildEdges arguments node.id = [] then tally else tally.cut)
  | levels + 1, node, path, tally =>
      model.visitEdges arguments (visit levels) path (model.subtreeChildEdges arguments node.id)
        (tally.count (model.nodeSummary node))

/-- `_summarize_subtree`. -/
def summarizeSubtree : Except Failure SubtreeSummary :=
  match model.nodesById.get? arguments.rootElementId with
  | none => .error (.http ⟨404, "Not Found", "Model element not found: " ++ arguments.rootElementId⟩)
  | some root =>
      let (children, tally) := model.visit arguments arguments.depthBound root [arguments.rootElementId]
        ⟨.empty, .empty, .empty, false⟩
      .ok
        { modelRevision := modelRevision server.digest model.toRevisedModel
          rootElementId := arguments.rootElementId
          totalNodes := tally.included.length
          truncated := tally.truncated
          root := model.nodeSummary root
          children
          byKind := tally.kindCounts
          bySemanticRole := tally.roleCounts }

/-! ## What a visit lists -/

/-- The children that a visit may enter: elements that pass the filters. -/
def subtreeChildren (id : String) : List String :=
  ((model.subtreeChildEdges arguments id).map Prod.snd).filter fun child =>
    ((model.nodesById.get? child).map fun node => !leftOut arguments node).getD false

/-- The elements that some edges lead to and that are not of the chain above. -/
def entered (path : List String) (edges : List (String × String)) : List String :=
  ((edges.map Prod.snd).filter fun child =>
    ((model.nodesById.get? child).map fun node => !leftOut arguments node).getD false).filter fun child => child ∉ path

/-- The elements below a root, as often as a visit without a bound on nodes lists them. -/
def unfolded (id : String) : List String :=
  unfolding (model.subtreeChildren arguments) arguments.depthBound [id] id

/-- What a visit between two tallies has to say about the list of ids it returns: they
are the bounded part of `whole`, counted, not deeper than `levels`; a visit that is not
cut off leaves out nothing that it may enter. -/
structure Lists (path : List String) (levels : Nat) (before after : Tally) (children : SubtreeChildren)
    (whole targets : List String) : Prop where
  ids : children.ids = capped arguments.nodeBound before.seen whole
  counts : before.Counts after children.ids
  height : children.height ≤ levels
  uncut : after.truncated = false → before.truncated = false ∧ (∀ child ∈ targets, child ∈ children.ids) ∧
    ∀ id ∈ children.ids, ∀ child ∈ model.subtreeChildren arguments id, child ∈ path ∨ child ∈ children.ids

variable {model arguments}

theorem entered_cons_none {path : List String} {edges : List (String × String)} {type child : String}
    (gone : model.nodesById.get? child = none) :
    model.entered arguments path ((type, child) :: edges) = model.entered arguments path edges := by
  rw [entered, List.map_cons, List.filter_cons_of_neg (by simp [gone])]
  rfl

theorem entered_cons_skip {path : List String} {edges : List (String × String)} {type child : String}
    {node : PublishedNode} (found : model.nodesById.get? child = some node)
    (skip : child ∈ path ∨ leftOut arguments node = true) :
    model.entered arguments path ((type, child) :: edges) = model.entered arguments path edges := by
  rw [entered, entered, List.filter_filter, List.filter_filter, List.map_cons, List.filter_cons_of_neg]
  rw [found]
  rcases skip with onPath | out
  · simp [onPath]
  · simp [out]

theorem entered_cons_visit {path : List String} {edges : List (String × String)} {type child : String}
    {node : PublishedNode} (found : model.nodesById.get? child = some node)
    (enter : ¬ (child ∈ path ∨ leftOut arguments node = true)) :
    model.entered arguments path ((type, child) :: edges) = child :: model.entered arguments path edges := by
  rw [not_or] at enter
  rw [entered, entered, List.filter_filter, List.filter_filter, List.map_cons, List.filter_cons_of_pos]
  simp [found, enter.1, enter.2]

/-- The loop over edges, where visits of the children list what is below them. -/
theorem visitEdges_lists {levels : Nat} {path : List String}
    {visit : PublishedNode → List String → Tally → SubtreeChildren × Tally}
    (visits : ∀ child node tally, model.nodesById.get? child = some node →
      model.Lists arguments (child :: path) levels (tally.count (model.nodeSummary node))
        (visit node (child :: path) tally).2 (visit node (child :: path) tally).1
        (unfolding (model.subtreeChildren arguments) levels (child :: path) child).tail
        ((model.subtreeChildren arguments child).filter fun b => b ∉ child :: path))
    (edges : List (String × String)) (tally : Tally) :
    model.Lists arguments path (levels + 1) tally (model.visitEdges arguments visit path edges tally).2
      (model.visitEdges arguments visit path edges tally).1
      ((model.entered arguments path edges).flatMap fun child =>
        unfolding (model.subtreeChildren arguments) levels (child :: path) child)
      (model.entered arguments path edges) := by
  induction edges generalizing tally with
  | nil => exact ⟨rfl, .refl tally, Nat.zero_le _, fun uncut => ⟨uncut, nofun, nofun⟩⟩
  | cons edge edges ih =>
      obtain ⟨type, child⟩ := edge
      cases found : model.nodesById.get? child with
      | none =>
          rw [entered_cons_none found, visitEdges, found]
          exact ih tally
      | some node =>
          by_cases skip : child ∈ path ∨ leftOut arguments node = true
          · rw [entered_cons_skip found skip, visitEdges, found]
            dsimp only
            rw [if_pos skip]
            exact ih tally
          · rw [entered_cons_visit found skip, visitEdges, found]
            dsimp only
            rw [if_neg skip, tally.length_included]
            by_cases full : arguments.nodeBound ≤ tally.seen.card
            · rw [if_pos full]
              exact ⟨(capped_full full _).symm, (Tally.Counts.refl tally).cut, Nat.zero_le _, nofun⟩
            · rw [if_neg full]
              have first := visits child node tally found
              generalize visit node (child :: path) tally = one at first
              obtain ⟨below, middle⟩ := one
              have second := ih middle
              generalize model.visitEdges arguments visit path edges middle = two at second
              obtain ⟨next, after⟩ := two
              dsimp only at first second ⊢
              have id : (model.nodeSummary node).elementId = child := model.keyed child node found
              have counted := ((tally.counts_count (model.nodeSummary node)).append first.counts)
              rw [id] at counted
              have start : unfolding (model.subtreeChildren arguments) levels (child :: path) child =
                  child :: (unfolding (model.subtreeChildren arguments) levels (child :: path) child).tail := by
                cases levels <;> rfl
              have belowIds := first.ids
              rw [Tally.seen_count, id] at belowIds
              refine ⟨?_, ?_, ?_, fun uncut => ?_⟩
              · rw [SubtreeChildren.ids, id, List.flatMap_cons, start, List.cons_append, capped, if_neg full, capped_append,
                  ← belowIds, second.ids, counted.seen]
                congr 3
                ext b
                simp only [List.toFinset_cons, Finset.mem_union, Finset.mem_insert, List.singleton_append]
                tauto
              · rw [SubtreeChildren.ids, id, ← List.cons_append]
                exact counted.append second.counts
              · exact max_le (Nat.succ_le_succ first.height) second.height
              · obtain ⟨uncut, targets, closed⟩ := second.uncut uncut
                obtain ⟨uncut, targets', closed'⟩ := first.uncut uncut
                refine ⟨uncut, fun b m => ?_, fun a m b edge => ?_⟩
                · rw [SubtreeChildren.ids, id]
                  rcases List.mem_cons.mp m with rfl | later
                  · exact List.mem_cons_self
                  · exact List.mem_cons_of_mem _ (List.mem_append_right _ (targets b later))
                · rw [SubtreeChildren.ids, id] at m ⊢
                  have deeper : ∀ b, b ∈ child :: path ∨ b ∈ below.ids → b ∈ path ∨ b ∈ child :: (below.ids ++ next.ids) := by
                    rintro b (above | inside)
                    · rcases List.mem_cons.mp above with rfl | onPath
                      · exact .inr List.mem_cons_self
                      · exact .inl onPath
                    · exact .inr (List.mem_cons_of_mem _ (List.mem_append_left _ inside))
                  rcases List.mem_cons.mp m with rfl | m
                  · refine deeper b ?_
                    by_cases above : b ∈ a :: path
                    · exact .inl above
                    · exact .inr (targets' b (List.mem_filter.mpr ⟨edge, decide_eq_true above⟩))
                  · rcases List.mem_append.mp m with inside | later
                    · exact deeper b (closed' a inside b edge)
                    · exact (closed a later b edge).imp (fun m => m) fun m =>
                        List.mem_cons_of_mem _ (List.mem_append_right _ m)

/-- A visit lists the bounded part of the unfolding below its node. -/
theorem visit_lists (levels : Nat) (path : List String) (child : String) (node : PublishedNode) (tally : Tally)
    (found : model.nodesById.get? child = some node) :
    model.Lists arguments path levels (tally.count (model.nodeSummary node)) (model.visit arguments levels node path tally).2
      (model.visit arguments levels node path tally).1
      (unfolding (model.subtreeChildren arguments) levels path child).tail
      ((model.subtreeChildren arguments child).filter fun b => b ∉ path) := by
  induction levels generalizing path child node tally with
  | zero =>
      rw [visit]
      split
      · next none =>
          refine ⟨rfl, .refl _, Nat.le_refl _, fun uncut => ⟨uncut, fun b m => ?_, nofun⟩⟩
          rw [subtreeChildren, ← model.keyed child node found, none] at m
          cases m
      · exact ⟨rfl, (Tally.Counts.refl _).cut, Nat.le_refl _, nofun⟩
  | succ levels ih =>
      have lists := visitEdges_lists (fun child node tally found => ih (child :: path) child node tally found)
        (model.subtreeChildEdges arguments child) (tally.count (model.nodeSummary node))
      rw [visit, model.keyed child node found]
      exact lists

/-! ## Summaries -/

/-- One element lies below another in the chosen planes, past the filters. -/
def Reaches (model : AccessModel) (arguments : SubtreeArguments) (id child : String) : Prop :=
  child ∈ model.subtreeChildren arguments id

/-- A summary within its bounds, whose counts are those of its elements. -/
structure Accurate (model : AccessModel) (arguments : SubtreeArguments) (summary : SubtreeSummary) : Prop where
  nodes : summary.ids.length ≤ arguments.nodeBound
  total : summary.totalNodes = summary.ids.toFinset.card
  kinds : summary.byKind.total = summary.totalNodes
  roles : summary.bySemanticRole.total = summary.totalNodes
  depth : summary.children.height ≤ arguments.depthBound
  complete : summary.truncated = false →
    ∀ id, Relation.ReflTransGen (model.Reaches arguments) arguments.rootElementId id → id ∈ summary.ids

/-- A summary of an element is made, and it is accurate exactly if the unfolding of the
element names no element twice before the bound on nodes. -/
theorem summarizeSubtree_accurate_iff (server : Server) (model : AccessModel) (arguments : SubtreeArguments) :
    (arguments.rootElementId ∉ model.nodesById.keys → ∃ error, model.summarizeSubtree server arguments = .error (.http error)) ∧
    (arguments.rootElementId ∈ model.nodesById.keys → ∃ summary, model.summarizeSubtree server arguments = .ok summary ∧
      (model.Accurate arguments summary ↔
        ((model.unfolded arguments arguments.rootElementId).take arguments.nodeBound).Nodup)) := by
  constructor
  · intro gone
    rw [summarizeSubtree, (Dict.get?_eq_none _ _).mpr gone]
    exact ⟨_, rfl⟩
  · intro m
    obtain ⟨root, found⟩ := (Dict.mem_keys _ _).mp m
    rw [summarizeSubtree, found]
    have lists := @visit_lists model arguments arguments.depthBound [arguments.rootElementId] arguments.rootElementId root
      ⟨.empty, .empty, .empty, false⟩ found
    have start := Tally.counts_count ⟨.empty, .empty, .empty, false⟩ (model.nodeSummary root)
    have id : (model.nodeSummary root).elementId = arguments.rootElementId := model.keyed _ root found
    dsimp only
    generalize model.visit arguments arguments.depthBound root [arguments.rootElementId] ⟨.empty, .empty, .empty, false⟩ =
      visited at lists
    obtain ⟨children, tally⟩ := visited
    dsimp only at lists ⊢
    refine ⟨_, rfl, ?_⟩
    have counted := start.append lists.counts
    rw [id] at counted
    have total : tally.included.length = (arguments.rootElementId :: children.ids).toFinset.card := by
      rw [Tally.length_included, counted.seen]
      rfl
    have kinds : tally.kindCounts.total = (arguments.rootElementId :: children.ids).length :=
      counted.kinds.trans (Nat.zero_add _)
    have roles : tally.roleCounts.total = (arguments.rootElementId :: children.ids).length :=
      counted.roles.trans (Nat.zero_add _)
    have unfolds : model.unfolded arguments arguments.rootElementId = arguments.rootElementId ::
        (unfolding (model.subtreeChildren arguments) arguments.depthBound [arguments.rootElementId]
          arguments.rootElementId).tail := by
      rw [unfolded]
      cases arguments.depthBound <;> rfl
    have listed := lists.ids
    rw [Tally.seen_count, id] at listed
    have cutOff := nodup_capped_iff (List.nodup_singleton arguments.rootElementId) arguments.nodeBound_pos
      (unfolding (model.subtreeChildren arguments) arguments.depthBound [arguments.rootElementId]
        arguments.rootElementId).tail
    have same : ([arguments.rootElementId] : List String).toFinset = insert arguments.rootElementId
        (Tally.seen ⟨.empty, .empty, .empty, false⟩) := rfl
    rw [same, ← listed, List.singleton_append, List.singleton_append, ← unfolds] at cutOff
    rw [← cutOff]
    constructor
    · intro accurate
      have counts := accurate.kinds
      rw [kinds, total, List.card_toFinset] at counts
      rw [← (List.dedup_sublist _).eq_of_length counts.symm]
      exact List.nodup_dedup _
    · intro distinct
      have size := List.toFinset_card_of_nodup distinct
      have few : (insert arguments.rootElementId (Tally.seen ⟨.empty, .empty, .empty, false⟩)).card ≤ arguments.nodeBound := by
        rw [← same]
        exact arguments.nodeBound_pos
      have bounded := card_capped few (unfolding (model.subtreeChildren arguments) arguments.depthBound
        [arguments.rootElementId] arguments.rootElementId).tail
      rw [← listed, ← same, ← List.toFinset_append, List.singleton_append] at bounded
      refine ⟨by rw [SubtreeSummary.ids, id, ← size]; exact bounded, by rw [SubtreeSummary.ids, id]; exact total,
        by rw [kinds, total, size], by rw [roles, total, size], lists.height, fun uncut other reach => ?_⟩
      obtain ⟨-, targets, closed⟩ := lists.uncut uncut
      rw [SubtreeSummary.ids, id]
      induction reach with
      | refl => exact List.mem_cons_self
      | @tail a b _ edge ih =>
          by_cases root' : b = arguments.rootElementId
          · exact root' ▸ List.mem_cons_self
          · have other : b ∉ [arguments.rootElementId] := fun m => root' (List.mem_singleton.mp m)
            refine List.mem_cons_of_mem _ ?_
            rcases List.mem_cons.mp ih with rfl | m
            · exact targets b (List.mem_filter.mpr ⟨edge, decide_eq_true other⟩)
            · exact (closed a m b edge).resolve_left other

/-- The second pump is a child of the first in both planes. -/
def twicePlaced : AccessModel :=
  { Sample.plant with
    hierarchyChildrenById := .ofList [("a", ["b"])]
    compositionChildrenById := .ofList [("a", ["b"])] }

def wholeSubtree : SubtreeArguments := ⟨"a", none, none, none, none, none, none, nofun, nofun⟩

theorem twicePlaced_inaccurate : ¬ ∀ (server : Server) (model : AccessModel) (arguments : SubtreeArguments)
    (summary : SubtreeSummary), model.summarizeSubtree server arguments = .ok summary →
      model.Accurate arguments summary := by
  intro all
  have counts : (twicePlaced.summarizeSubtree Sample.server wholeSubtree).map (fun summary =>
      (summary.totalNodes, summary.byKind.total)) = .ok (2, 3) := by decide
  cases made : twicePlaced.summarizeSubtree Sample.server wholeSubtree with
  | error failure =>
      rw [made] at counts
      cases counts
  | ok summary =>
      have kinds := (all _ _ _ _ made).kinds
      rw [made] at counts
      obtain ⟨total, byKind⟩ := Prod.mk.inj (Except.ok.inj counts)
      rw [total, byKind] at kinds
      exact absurd kinds (by decide)

/-- The hierarchy below the first pump, one level deep. -/
def hierarchySubtree : SubtreeArguments where
  rootElementId := "a"
  maxDepth := some 1
  maxNodes := some 2
  includeHierarchy := none
  includeComposition := some false
  includeProperties := some false
  includeActions := none
  shallow := by simp
  bounded := by simp

theorem summarizeSubtree_accurate_pump : ∃ summary,
    twicePlaced.summarizeSubtree Sample.server hierarchySubtree = .ok summary ∧
      twicePlaced.Accurate hierarchySubtree summary ∧ summary.ids = ["a", "b"] ∧ summary.truncated = false := by
  obtain ⟨summary, made, accurate⟩ := (summarizeSubtree_accurate_iff Sample.server twicePlaced hierarchySubtree).2 (by decide)
  have shown : (twicePlaced.summarizeSubtree Sample.server hierarchySubtree).map (fun summary =>
      (summary.ids, summary.truncated)) = .ok (["a", "b"], false) := by decide
  rw [made] at shown
  obtain ⟨ids, truncated⟩ := Prod.mk.inj (Except.ok.inj shown)
  exact ⟨summary, made, accurate.mpr (by decide), ids, truncated⟩

end AccessModel
end I3x.Mcp

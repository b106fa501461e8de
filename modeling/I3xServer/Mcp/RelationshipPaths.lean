import I3xServer.Container.BreadthFirst
import I3xServer.Mcp.SubtreeSummary
import Mathlib.Data.Finset.Image
import Mathlib.Order.Lattice

/-!
# Relationship paths

A breadth-first search along the stored relationships between elements, in chosen
planes and directions, with a bound on the depth and one on the elements visited.
-/
namespace I3x.Mcp
open Container Mapper

inductive DirectionFilter where
  | outgoing | incoming | either
  deriving DecidableEq, Repr

inductive Direction where
  | outgoing | incoming
  deriving DecidableEq, Repr

def Direction.text : Direction → String
  | .outgoing => "outgoing"
  | .incoming => "incoming"

def Plane.priority : Plane → Nat
  | .hierarchy => 0
  | .composition => 1
  | .graph => 2

theorem Direction.text_injective : Function.Injective Direction.text := by
  intro direction direction' same
  cases direction <;> cases direction' <;> first | rfl | exact absurd same (by decide)

theorem Plane.priority_injective : Function.Injective Plane.priority := by
  intro plane plane' same
  cases plane <;> cases plane' <;> first | rfl | exact absurd same (by decide)

/-- `_relationship_plane`. -/
def relationshipPlane (relationshipType : String) : Plane :=
  if relationshipType = "HasParent" ∨ relationshipType = "HasChildren" then .hierarchy
  else if relationshipType = "HasComponent" ∨ relationshipType = "ComponentOf" then .composition
  else .graph

/-- One step along a relationship, in or against its direction. -/
structure Step where
  neighbor : String
  relationshipType : String
  plane : Plane
  direction : Direction
  deriving Repr

/-- What steps are ordered by. -/
def Step.key (step : Step) : String ×ₗ Nat ×ₗ String ×ₗ String :=
  toLex (step.neighbor, toLex (step.plane.priority, toLex (step.relationshipType, step.direction.text)))

theorem Step.key_injective : Function.Injective Step.key := by
  rintro ⟨neighbor, type, plane, direction⟩ ⟨neighbor', type', plane', direction'⟩ same
  obtain ⟨rfl, rest⟩ := Prod.mk.inj (toLex_inj.mp same)
  obtain ⟨planes, rest⟩ := Prod.mk.inj (toLex_inj.mp rest)
  obtain ⟨rfl, directions⟩ := Prod.mk.inj (toLex_inj.mp rest)
  obtain rfl : plane = plane' := Plane.priority_injective planes
  obtain rfl : direction = direction' := Direction.text_injective directions
  rfl

instance : LinearOrder Step := .lift' Step.key Step.key_injective

inductive PathItem where
  | element (node : NodeSummary)
  | relationship (relationshipType : String) (plane : Plane) (direction : Direction)
  deriving DecidableEq, Repr

structure TraceArguments where
  sourceElementId : String
  targetElementId : String
  relationshipPlanes : Option (List Plane)
  direction : Option DirectionFilter
  maxDepth : Option Nat
  shallow : ∀ d ∈ maxDepth, d ≤ 32

def maxPathNodes : Nat := 5000

/-- A queued element with its depth and the path to it. -/
structure PathEntry where
  id : String
  depth : Nat
  path : List PathItem

def PathEntry.mark (entry : PathEntry) : String × Nat := (entry.id, entry.depth)

structure PathResult where
  found : Bool
  truncated : Bool
  pathLength : Option Nat
  path : List PathItem
  deriving DecidableEq, Repr

structure TracedPath extends PathResult where
  modelRevision : String
  deriving DecidableEq, Repr

namespace TraceArguments
variable (arguments : TraceArguments)

def planes : List Plane := arguments.relationshipPlanes.getD [.hierarchy, .composition, .graph]

def filter : DirectionFilter := arguments.direction.getD .either

def depthBound : Nat := arguments.maxDepth.getD 8

end TraceArguments

/-- How the loop over the neighbours of an element ends. -/
inductive Scan where
  | found (pathLength : Nat) (path : List PathItem)
  | capped (truncated : Bool)
  | next (queue : List PathEntry) (visited : Finset String)

namespace AccessModel
variable (server : Server) (model : AccessModel) (arguments : TraceArguments)

/-- `_model_relationships`. -/
def modelRelationships (node : PublishedNode) : Dict String (List String) :=
  (model.relationshipsById.get? node.id).getD node.relationships

/-- A stored relationship between elements. -/
structure StoredEdge where
  source : String
  relationshipType : String
  plane : Plane
  target : String

/-- The stored relationships between elements in the chosen planes. -/
def storedEdges : List StoredEdge :=
  model.nodesById.entries.flatMap fun entry => (model.modelRelationships entry.2).entries.flatMap fun relationship =>
    if relationshipPlane relationship.1 ∈ arguments.planes then
      (relationship.2.filter fun target => target ∈ model.nodesById.keys).map fun target =>
        ⟨entry.1, relationship.1, relationshipPlane relationship.1, target⟩
    else []

abbrev Adjacency := Dict String (Finset (String × String × Plane))

def noEdges : Adjacency := model.nodesById.mapValues fun _ _ => ∅

def outgoingById : Adjacency :=
  model.noEdges.addAll ((model.storedEdges arguments).map fun edge =>
    (edge.source, {(edge.target, edge.relationshipType, edge.plane)}))

def incomingById : Adjacency :=
  model.noEdges.addAll ((model.storedEdges arguments).map fun edge =>
    (edge.target, {(edge.source, edge.relationshipType, edge.plane)}))

def stepOf (direction : Direction) (edge : String × String × Plane) : Step := ⟨edge.1, edge.2.1, edge.2.2, direction⟩

/-- `neighbors`, in order. -/
def neighbors (id : String) : List Step :=
  sorted ((if arguments.filter = .outgoing ∨ arguments.filter = .either then
      ((model.outgoingById arguments).members id).image (stepOf .outgoing) else ∅) ∪
    if arguments.filter = .incoming ∨ arguments.filter = .either then
      ((model.incomingById arguments).members id).image (stepOf .incoming) else ∅)

/-- The item of an element in a path. -/
def elementItem (id : String) : List PathItem :=
  (model.nodesById.get? id).toList.map fun node => .element (model.nodeSummary node)

def stepItems (step : Step) : List PathItem :=
  .relationship step.relationshipType step.plane step.direction :: model.elementItem step.neighbor

def extend (entry : PathEntry) (step : Step) : PathEntry :=
  ⟨step.neighbor, entry.depth + 1, entry.path ++ model.stepItems step⟩

def scan (entry : PathEntry) : List Step → List PathEntry → Finset String → Scan
  | [], queue, visited => .next queue visited
  | step :: steps, queue, visited =>
      if step.neighbor ∈ visited then scan entry steps queue visited
      else if step.neighbor = arguments.targetElementId then
        .found (entry.depth + 1) (model.extend entry step).path
      else if maxPathNodes ≤ (insert step.neighbor visited).card then
        .capped (decide (queue ++ [model.extend entry step] ≠ []))
      else scan entry steps (queue ++ [model.extend entry step]) (insert step.neighbor visited)

def search : Nat → List PathEntry → Finset String → Bool → Option PathResult
  | _, [], _, truncated => some ⟨false, truncated, none, []⟩
  | 0, _ :: _, _, _ => none
  | fuel + 1, entry :: queue, visited, truncated =>
      if entry.id = arguments.targetElementId then some ⟨true, false, some entry.depth, entry.path⟩
      else if arguments.depthBound ≤ entry.depth then
        search fuel queue visited
          (truncated || (model.neighbors arguments entry.id).any fun step => step.neighbor ∉ visited)
      else
        match model.scan arguments entry (model.neighbors arguments entry.id) queue visited with
        | .found pathLength path => some ⟨true, false, some pathLength, path⟩
        | .capped truncated => some ⟨false, truncated, none, []⟩
        | .next queue visited => search fuel queue visited truncated

/-- `_trace_relationship_path`. -/
def traceRelationshipPath : Except Failure TracedPath :=
  match [arguments.sourceElementId, arguments.targetElementId].find? fun id => id ∉ model.nodesById.keys with
  | some id => .error (.http ⟨404, "Not Found", "Model element not found: " ++ id⟩)
  | none =>
      match model.search arguments (model.nodesById.keys.length + 1)
        [⟨arguments.sourceElementId, 0, model.elementItem arguments.sourceElementId⟩] {arguments.sourceElementId} false with
      | some result => .ok { result with modelRevision := modelRevision server.digest model.toRevisedModel }
      | none => .error .exhausted

/-! ## Chains of relationships -/

/-- A relationship of a type is stored from one element to another. -/
def Stored (source relationshipType target : String) : Prop :=
  target ∈ model.nodesById.keys ∧
    ∃ node, model.nodesById.get? source = some node ∧ target ∈ (model.modelRelationships node).bucket relationshipType

/-- A step along a stored relationship of the chosen planes in a chosen direction. -/
structure Stepped (id : String) (step : Step) : Prop where
  plane : step.plane = relationshipPlane step.relationshipType
  chosen : step.plane ∈ arguments.planes
  stored : match step.direction with
    | .outgoing => arguments.filter ≠ .incoming ∧ model.Stored id step.relationshipType step.neighbor
    | .incoming => arguments.filter ≠ .outgoing ∧ model.Stored step.neighbor step.relationshipType id

/-- A chain of steps from one element to another. -/
inductive Chain (source : String) : List Step → String → Prop
  | nil : Chain source [] source
  | snoc {id : String} {steps : List Step} {step : Step} : Chain source steps id → model.Stepped arguments id step →
      Chain source (steps ++ [step]) step.neighbor

/-- The items that a path shows for a chain. -/
def pathItems (source : String) (steps : List Step) : List PathItem :=
  model.elementItem source ++ steps.flatMap model.stepItems

variable {model arguments}

theorem mem_storedEdges (edge : StoredEdge) : edge ∈ model.storedEdges arguments ↔
    edge.plane = relationshipPlane edge.relationshipType ∧ edge.plane ∈ arguments.planes ∧
      model.Stored edge.source edge.relationshipType edge.target := by
  obtain ⟨source, type, plane, target⟩ := edge
  simp only [storedEdges, List.mem_flatMap, Stored]
  constructor
  · rintro ⟨⟨id, node⟩, inside, ⟨type', targets⟩, listed, m⟩
    split at m
    · next chosen =>
        simp only [List.mem_map, List.mem_filter, decide_eq_true_eq, StoredEdge.mk.injEq] at m
        obtain ⟨_, ⟨m, present⟩, rfl, rfl, rfl, rfl⟩ := m
        exact ⟨rfl, chosen, present, node, (Dict.mem_entries _ _ _).mp inside,
          (Dict.mem_bucket_iff _ _ _).mpr ⟨targets, listed, m⟩⟩
    · cases m
  · rintro ⟨rfl, chosen, present, node, found, m⟩
    obtain ⟨targets, listed, m⟩ := (Dict.mem_bucket_iff _ _ _).mp m
    refine ⟨(source, node), (Dict.mem_entries _ _ _).mpr found, (type, targets), listed, ?_⟩
    rw [if_pos chosen]
    exact List.mem_map.mpr ⟨target, List.mem_filter.mpr ⟨m, decide_eq_true present⟩, rfl⟩

theorem members_noEdges (id : String) : model.noEdges.members id = ∅ := by
  rw [Dict.members, noEdges, Dict.get?_mapValues]
  cases model.nodesById.get? id <;> rfl

/-- The neighbours of an element are its steps. -/
theorem mem_neighbors (id : String) (step : Step) :
    step ∈ model.neighbors arguments id ↔ model.Stepped arguments id step := by
  obtain ⟨neighbor, type, plane, direction⟩ := step
  have outgoing (edge : String × String × Plane) : edge ∈ (model.outgoingById arguments).members id ↔
      edge.2.2 = relationshipPlane edge.2.1 ∧ edge.2.2 ∈ arguments.planes ∧ model.Stored id edge.2.1 edge.1 := by
    rw [outgoingById, Dict.mem_members_addAll, members_noEdges]
    simp only [Finset.notMem_empty, false_or, List.mem_map]
    constructor
    · rintro ⟨_, ⟨stored, m, rfl⟩, rfl, same⟩
      cases Finset.mem_singleton.mp same
      exact (mem_storedEdges stored).mp m
    · intro stored
      exact ⟨_, ⟨⟨id, edge.2.1, edge.2.2, edge.1⟩, (mem_storedEdges _).mpr stored, rfl⟩, rfl, Finset.mem_singleton_self _⟩
  have incoming (edge : String × String × Plane) : edge ∈ (model.incomingById arguments).members id ↔
      edge.2.2 = relationshipPlane edge.2.1 ∧ edge.2.2 ∈ arguments.planes ∧ model.Stored edge.1 edge.2.1 id := by
    rw [incomingById, Dict.mem_members_addAll, members_noEdges]
    simp only [Finset.notMem_empty, false_or, List.mem_map]
    constructor
    · rintro ⟨_, ⟨stored, m, rfl⟩, rfl, same⟩
      cases Finset.mem_singleton.mp same
      exact (mem_storedEdges stored).mp m
    · intro stored
      exact ⟨_, ⟨⟨edge.1, edge.2.1, edge.2.2, id⟩, (mem_storedEdges _).mpr stored, rfl⟩, rfl, Finset.mem_singleton_self _⟩
  have image (way : Direction) (edges : Finset (String × String × Plane)) :
      (⟨neighbor, type, plane, direction⟩ : Step) ∈ edges.image (stepOf way) ↔
        way = direction ∧ (neighbor, type, plane) ∈ edges := by
    simp only [Finset.mem_image, stepOf, Step.mk.injEq, Prod.exists]
    constructor
    · rintro ⟨_, _, _, m, rfl, rfl, rfl, rfl⟩
      exact ⟨rfl, m⟩
    · rintro ⟨rfl, m⟩
      exact ⟨_, _, _, m, rfl, rfl, rfl, rfl⟩
  rw [neighbors, mem_sorted, Finset.mem_union]
  constructor
  · rintro (m | m)
    · split at m
      · next chosen =>
          obtain ⟨rfl, edge⟩ := (image _ _).mp m
          obtain ⟨same, inside, stored⟩ := (outgoing _).mp edge
          exact ⟨same, inside, by rcases chosen with eq | eq <;> rw [eq] <;> decide, stored⟩
      · cases m
    · split at m
      · next chosen =>
          obtain ⟨rfl, edge⟩ := (image _ _).mp m
          obtain ⟨same, inside, stored⟩ := (incoming _).mp edge
          exact ⟨same, inside, by rcases chosen with eq | eq <;> rw [eq] <;> decide, stored⟩
      · cases m
  · rintro ⟨same, inside, stored⟩
    cases direction with
    | outgoing =>
        refine .inl ?_
        rw [if_pos (by cases eq : arguments.filter <;> simp_all), image]
        exact ⟨rfl, (outgoing _).mpr ⟨same, inside, stored.2⟩⟩
    | incoming =>
        refine .inr ?_
        rw [if_pos (by cases eq : arguments.filter <;> simp_all), image]
        exact ⟨rfl, (incoming _).mpr ⟨same, inside, stored.2⟩⟩

/-! ## The search -/

def nextIds (model : AccessModel) (arguments : TraceArguments) (id : String) : List String :=
  (model.neighbors arguments id).map Step.neighbor

/-- A walk of the search is a chain. -/
theorem walk_iff_chain (source : String) (n : Nat) (id : String) :
    Walk (model.nextIds arguments) source n id ↔ ∃ steps, model.Chain arguments source steps id ∧ steps.length = n := by
  constructor
  · intro walk
    induction walk with
    | here => exact ⟨[], .nil, rfl⟩
    | step _ edge ih =>
        obtain ⟨steps, chain, rfl⟩ := ih
        obtain ⟨step, m, rfl⟩ := List.mem_map.mp edge
        exact ⟨_, .snoc chain ((mem_neighbors _ step).mp m), List.length_append⟩
  · rintro ⟨steps, chain, rfl⟩
    induction chain with
    | nil => exact .here
    | snoc _ stepped ih =>
        rw [List.length_append]
        exact .step ih (List.mem_map.mpr ⟨_, (mem_neighbors _ _).mpr stepped, rfl⟩)

theorem pathItems_snoc (source : String) (steps : List Step) (step : Step) :
    model.pathItems source (steps ++ [step]) = model.pathItems source steps ++ model.stepItems step := by
  rw [pathItems, pathItems, List.flatMap_append, List.flatMap_singleton, List.append_assoc]

/-- What the loop over neighbours does to the queue and the visited elements. -/
theorem scan_cases (entry : PathEntry) (steps : List Step) (queue : List PathEntry) (visited : Finset String) :
    (∃ step ∈ steps, step.neighbor = arguments.targetElementId ∧ step.neighbor ∉ visited ∧
      model.scan arguments entry steps queue visited = .found (entry.depth + 1) (model.extend entry step).path) ∨
    model.scan arguments entry steps queue visited = .capped true ∨
    ∃ fresh : List Step, model.scan arguments entry steps queue visited =
        .next (queue ++ fresh.map (model.extend entry)) (visited ∪ (fresh.map Step.neighbor).toFinset) ∧
      (fresh.map Step.neighbor).Nodup ∧
      (∀ step ∈ fresh, step ∈ steps ∧ step.neighbor ∉ visited ∧ step.neighbor ≠ arguments.targetElementId) ∧
      ∀ step ∈ steps, step.neighbor ∈ visited ∪ (fresh.map Step.neighbor).toFinset := by
  induction steps generalizing queue visited with
  | nil => exact .inr (.inr ⟨[], by simp [scan], List.nodup_nil, nofun, nofun⟩)
  | cons step steps ih =>
      rw [scan]
      by_cases old : step.neighbor ∈ visited
      · rw [if_pos old]
        rcases ih queue visited with ⟨hit, m, target, new, ran⟩ | ran | ⟨fresh, ran, distinct, each, all⟩
        · exact .inl ⟨hit, List.mem_cons_of_mem _ m, target, new, ran⟩
        · exact .inr (.inl ran)
        · refine .inr (.inr ⟨fresh, ran, distinct, fun other m => ?_, fun other m => ?_⟩)
          · exact ⟨List.mem_cons_of_mem _ (each other m).1, (each other m).2⟩
          · rcases List.mem_cons.mp m with rfl | later
            · exact Finset.mem_union_left _ old
            · exact all other later
      · rw [if_neg old]
        by_cases hit : step.neighbor = arguments.targetElementId
        · rw [if_pos hit]
          exact .inl ⟨step, List.mem_cons_self, hit, old, rfl⟩
        · rw [if_neg hit]
          by_cases full : maxPathNodes ≤ (insert step.neighbor visited).card
          · rw [if_pos full]
            refine .inr (.inl ?_)
            rw [decide_eq_true (List.append_ne_nil_of_right_ne_nil _ (List.cons_ne_nil _ _))]
          · rw [if_neg full]
            have more {id : String} : id ∈ insert step.neighbor visited ↔ id = step.neighbor ∨ id ∈ visited :=
              Finset.mem_insert
            rcases ih (queue ++ [model.extend entry step]) (insert step.neighbor visited) with
              ⟨other, m, target, new, ran⟩ | ran | ⟨fresh, ran, distinct, each, all⟩
            · exact .inl ⟨other, List.mem_cons_of_mem _ m, target, fun seen => new (more.mpr (.inr seen)), ran⟩
            · exact .inr (.inl ran)
            · have grown : insert step.neighbor visited ∪ (fresh.map Step.neighbor).toFinset =
                  visited ∪ ((step :: fresh).map Step.neighbor).toFinset := by
                rw [List.map_cons, List.toFinset_cons, Finset.insert_union, Finset.union_insert]
              rw [grown] at ran all
              refine .inr (.inr ⟨step :: fresh, ?_, ?_, fun other m => ?_, fun other m => ?_⟩)
              · rw [ran, List.map_cons, List.append_assoc]
                rfl
              · rw [List.map_cons, List.nodup_cons]
                refine ⟨fun m => ?_, distinct⟩
                obtain ⟨other, n, same⟩ := List.mem_map.mp m
                exact (each other n).2.1 (more.mpr (.inl same))
              · rcases List.mem_cons.mp m with rfl | later
                · exact ⟨List.mem_cons_self, old, hit⟩
                · obtain ⟨listed, new, other'⟩ := each other later
                  exact ⟨List.mem_cons_of_mem _ listed, fun seen => new (more.mpr (.inr seen)), other'⟩
              · rcases List.mem_cons.mp m with rfl | later
                · exact Finset.mem_union_right _ (by simp)
                · exact all other later

/-- A search under way: `done` are the elements it has gone on from. -/
structure Searching (model : AccessModel) (arguments : TraceArguments) (done : List (String × Nat))
    (queue : List PathEntry) (visited : Finset String) (truncated : Bool) : Prop where
  front : Front (model.nextIds arguments) arguments.sourceElementId (fun depth => decide (depth < arguments.depthBound))
    (queue.map PathEntry.mark) done
  distinct : ((done ++ queue.map PathEntry.mark).map Prod.fst).Nodup
  seen : visited = ((done ++ queue.map PathEntry.mark).map Prod.fst).toFinset
  paths : ∀ entry ∈ queue, ∃ steps, model.Chain arguments arguments.sourceElementId steps entry.id ∧
    steps.length = entry.depth ∧ entry.path = model.pathItems arguments.sourceElementId steps
  shallow : ∀ entry ∈ queue, entry.depth ≤ arguments.depthBound
  missed : ∀ entry ∈ done, entry.1 ≠ arguments.targetElementId
  cut : truncated = false → ∀ entry ∈ done, arguments.depthBound ≤ entry.2 →
    ∀ id ∈ model.nextIds arguments entry.1, id ∈ visited

/-- A result is a shortest chain within the depth, or it says that it was cut off, or
there is no chain. -/
structure Correct (model : AccessModel) (arguments : TraceArguments) (result : PathResult) : Prop where
  chain : result.found = true → ∃ steps,
    model.Chain arguments arguments.sourceElementId steps arguments.targetElementId ∧
    result.path = model.pathItems arguments.sourceElementId steps ∧ result.pathLength = some steps.length ∧
    steps.length ≤ arguments.depthBound ∧
    ∀ other, model.Chain arguments arguments.sourceElementId other arguments.targetElementId →
      steps.length ≤ other.length
  absent : result.found = false → result.truncated = false →
    ∀ steps, ¬ model.Chain arguments arguments.sourceElementId steps arguments.targetElementId

namespace Searching
variable {done : List (String × Nat)} {entry : PathEntry} {queue : List PathEntry} {visited : Finset String}
  {truncated : Bool}

theorem start : model.Searching arguments []
    [⟨arguments.sourceElementId, 0, model.elementItem arguments.sourceElementId⟩] {arguments.sourceElementId} false where
  front := front_start _ _ _
  distinct := List.nodup_singleton _
  seen := rfl
  paths entry m := by
    cases List.mem_singleton.mp m
    exact ⟨[], .nil, rfl, (List.append_nil _).symm⟩
  shallow entry m := by
    cases List.mem_singleton.mp m
    exact Nat.zero_le _
  missed := nofun
  cut := nofun

/-- What is no further away than the next element has been visited. -/
theorem near (searching : model.Searching arguments done (entry :: queue) visited truncated) {steps : List Step}
    {id : String} (chain : model.Chain arguments arguments.sourceElementId steps id) (within : steps.length ≤ entry.depth) :
    ∃ mark ∈ done ++ (entry :: queue).map PathEntry.mark, mark.1 = id ∧ mark.2 ≤ steps.length := by
  have bound := searching.shallow entry List.mem_cons_self
  exact searching.front.near ((walk_iff_chain _ _ _).mpr ⟨steps, chain, rfl⟩) within fun k less =>
    decide_eq_true (Nat.lt_of_lt_of_le less bound)

theorem finish (searching : model.Searching arguments done [] visited truncated) :
    model.Correct arguments ⟨false, truncated, none, []⟩ := by
  refine ⟨nofun, fun _ uncut steps chain => ?_⟩
  have closed {source : String} (start : source ∈ done.map Prod.fst) {steps : List Step} {id : String}
      (chain : model.Chain arguments source steps id) : id ∈ done.map Prod.fst := by
    induction chain with
    | nil => exact start
    | @snoc id steps step _ stepped ih =>
        obtain ⟨mark, m, rfl⟩ := List.mem_map.mp ih
        have edge : step.neighbor ∈ model.nextIds arguments mark.1 :=
          List.mem_map.mpr ⟨step, (mem_neighbors _ _).mpr stepped, rfl⟩
        by_cases open' : mark.2 < arguments.depthBound
        · obtain ⟨further, n, same, -⟩ := searching.front.closed mark m (decide_eq_true open') _ edge
          rw [List.map_nil, List.append_nil] at n
          exact List.mem_map.mpr ⟨further, n, same⟩
        · have seen := searching.cut uncut mark m (Nat.le_of_not_lt open') _ edge
          rwa [searching.seen, List.map_nil, List.append_nil, List.mem_toFinset] at seen
  obtain ⟨mark, m, same, -⟩ := searching.front.rooted
  rw [List.map_nil, List.append_nil] at m
  obtain ⟨hit, n, target⟩ := List.mem_map.mp (closed (List.mem_map.mpr ⟨mark, m, same⟩) chain)
  exact searching.missed hit n target

theorem hit (searching : model.Searching arguments done (entry :: queue) visited truncated)
    (target : entry.id = arguments.targetElementId) : model.Correct arguments ⟨true, false, some entry.depth, entry.path⟩ := by
  obtain ⟨steps, chain, length, path⟩ := searching.paths entry List.mem_cons_self
  refine ⟨fun _ => ⟨steps, target ▸ chain, path, by rw [length], ?_, fun other chain' => ?_⟩, nofun⟩
  · rw [length]
    exact searching.shallow entry List.mem_cons_self
  · rw [length]
    by_contra shorter
    have less := Nat.lt_of_not_le shorter
    obtain ⟨mark, m, same, near⟩ := searching.near chain' (Nat.le_of_lt less)
    have here : entry.mark ∈ done ++ (entry :: queue).map PathEntry.mark :=
      List.mem_append_right _ List.mem_cons_self
    have eq := List.inj_on_of_nodup_map searching.distinct m here (same.trans target.symm)
    rw [eq] at near
    exact absurd near (Nat.not_le_of_lt less)

theorem unvisited (searching : model.Searching arguments done (entry :: queue) visited truncated) :
    entry.id ∉ done.map Prod.fst := by
  have distinct := searching.distinct
  rw [List.map_append, List.nodup_append] at distinct
  exact fun m => distinct.2.2 _ m _ List.mem_cons_self rfl

theorem marks : done ++ [entry.mark] ++ queue.map PathEntry.mark = done ++ (entry :: queue).map PathEntry.mark := by
  rw [List.append_assoc]
  rfl

/-- Past an element at the bound on the depth. -/
theorem deep (searching : model.Searching arguments done (entry :: queue) visited truncated)
    (other : entry.id ≠ arguments.targetElementId) (bound : arguments.depthBound ≤ entry.depth) :
    model.Searching arguments (done ++ [entry.mark]) queue visited
      (truncated || (model.neighbors arguments entry.id).any fun step => step.neighbor ∉ visited) where
  front := by
    have closed : ¬ decide (entry.depth < arguments.depthBound) = true := by
      rw [decide_eq_true_eq]
      exact Nat.not_lt_of_le bound
    have none : ∀ id ∈ ([] : List String), decide (entry.depth < arguments.depthBound) = true ∧
        id ∈ model.nextIds arguments entry.id := nofun
    have grown := searching.front.grow searching.unvisited none fun open' => absurd open' closed
    rwa [List.map_nil, List.append_nil] at grown
  distinct := by
    rw [marks]
    exact searching.distinct
  seen := by
    rw [marks]
    exact searching.seen
  paths item m := searching.paths item (List.mem_cons_of_mem _ m)
  shallow item m := searching.shallow item (List.mem_cons_of_mem _ m)
  missed mark m := (List.mem_append.mp m).elim (searching.missed mark) fun here => by
    cases List.mem_singleton.mp here
    exact other
  cut uncut mark m deep id edge := by
    obtain ⟨before, here⟩ := Bool.or_eq_false_iff.mp uncut
    rcases List.mem_append.mp m with old | last
    · exact searching.cut before mark old deep id edge
    · cases List.mem_singleton.mp last
      obtain ⟨step, n, rfl⟩ := List.mem_map.mp edge
      have seen := List.any_eq_false.mp here step n
      simpa using seen

/-- A neighbour of the next element that is the target and has not been visited. -/
theorem found (searching : model.Searching arguments done (entry :: queue) visited truncated)
    (bound : ¬ arguments.depthBound ≤ entry.depth) {step : Step} (m : step ∈ model.neighbors arguments entry.id)
    (target : step.neighbor = arguments.targetElementId) (new : step.neighbor ∉ visited) :
    model.Correct arguments ⟨true, false, some (entry.depth + 1), (model.extend entry step).path⟩ := by
  obtain ⟨steps, chain, length, path⟩ := searching.paths entry List.mem_cons_self
  have size : (steps ++ [step]).length = entry.depth + 1 := by rw [List.length_append, length]; rfl
  refine ⟨fun _ => ⟨steps ++ [step], target ▸ .snoc chain ((mem_neighbors _ _).mp m), ?_, by rw [size], ?_,
    fun other chain' => ?_⟩, nofun⟩
  · rw [pathItems_snoc, ← path]
    rfl
  · rw [size]
    exact Nat.lt_of_not_le bound
  · rw [size]
    by_contra shorter
    obtain ⟨mark, n, same, -⟩ := searching.near chain' (Nat.le_of_lt_succ (Nat.lt_of_not_le shorter))
    refine new ?_
    rw [searching.seen, List.mem_toFinset]
    exact List.mem_map.mpr ⟨mark, n, same.trans target.symm⟩

/-- Past an element whose new neighbours are queued. -/
theorem advance (searching : model.Searching arguments done (entry :: queue) visited truncated)
    (other : entry.id ≠ arguments.targetElementId) (bound : ¬ arguments.depthBound ≤ entry.depth) {fresh : List Step}
    (distinct : (fresh.map Step.neighbor).Nodup)
    (each : ∀ step ∈ fresh, step ∈ model.neighbors arguments entry.id ∧ step.neighbor ∉ visited ∧
      step.neighbor ≠ arguments.targetElementId)
    (all : ∀ step ∈ model.neighbors arguments entry.id, step.neighbor ∈ visited ∪ (fresh.map Step.neighbor).toFinset) :
    model.Searching arguments (done ++ [entry.mark]) (queue ++ fresh.map (model.extend entry))
      (visited ∪ (fresh.map Step.neighbor).toFinset) truncated := by
  have marked : (queue ++ fresh.map (model.extend entry)).map PathEntry.mark =
      queue.map PathEntry.mark ++ (fresh.map Step.neighbor).map fun id => (id, entry.depth + 1) := by
    rw [List.map_append, List.map_map, List.map_map]
    rfl
  have ids : ((fresh.map Step.neighbor).map fun id => (id, entry.depth + 1)).map Prod.fst = fresh.map Step.neighbor := by
    rw [List.map_map]
    exact List.map_id _
  have listed : (done ++ [entry.mark] ++ (queue ++ fresh.map (model.extend entry)).map PathEntry.mark).map Prod.fst =
      (done ++ (entry :: queue).map PathEntry.mark).map Prod.fst ++ fresh.map Step.neighbor := by
    rw [marked, ← List.append_assoc, marks, List.map_append, ids]
  have open' : decide (entry.depth < arguments.depthBound) = true := decide_eq_true (Nat.lt_of_not_le bound)
  refine ⟨?_, ?_, ?_, fun item m => ?_, fun item m => ?_, fun mark m => ?_, fun uncut mark m deep id edge => ?_⟩
  · rw [marked]
    refine searching.front.grow searching.unvisited (fun id m => ?_) fun _ id edge => ?_
    · obtain ⟨step, n, rfl⟩ := List.mem_map.mp m
      exact ⟨open', List.mem_map.mpr ⟨step, (each step n).1, rfl⟩⟩
    · obtain ⟨step, n, rfl⟩ := List.mem_map.mp edge
      rcases Finset.mem_union.mp (all step n) with old | new
      · rw [searching.seen, List.mem_toFinset] at old
        exact .inr old
      · exact .inl (List.mem_toFinset.mp new)
  · rw [listed, List.nodup_append]
    refine ⟨searching.distinct, distinct, ?_⟩
    rintro id old _ new rfl
    obtain ⟨step, n, rfl⟩ := List.mem_map.mp new
    refine (each step n).2.1 ?_
    rw [searching.seen, List.mem_toFinset]
    exact old
  · rw [listed, List.toFinset_append, ← searching.seen]
  · rcases List.mem_append.mp m with old | new
    · exact searching.paths item (List.mem_cons_of_mem _ old)
    · obtain ⟨step, n, rfl⟩ := List.mem_map.mp new
      obtain ⟨steps, chain, length, path⟩ := searching.paths entry List.mem_cons_self
      refine ⟨steps ++ [step], .snoc chain ((mem_neighbors _ _).mp (each step n).1), ?_, ?_⟩
      · rw [List.length_append, length]
        rfl
      · rw [pathItems_snoc, ← path]
        rfl
  · rcases List.mem_append.mp m with old | new
    · exact searching.shallow item (List.mem_cons_of_mem _ old)
    · obtain ⟨step, n, rfl⟩ := List.mem_map.mp new
      exact Nat.lt_of_not_le bound
  · rcases List.mem_append.mp m with old | last
    · exact searching.missed mark old
    · cases List.mem_singleton.mp last
      exact other
  · rcases List.mem_append.mp m with old | last
    · exact Finset.mem_union_left _ (searching.cut uncut mark old deep id edge)
    · cases List.mem_singleton.mp last
      exact absurd deep bound

end Searching

/-- A search ends before its steps run out, with a correct result. -/
theorem search_correct {done : List (String × Nat)} {queue : List PathEntry} {visited : Finset String} {truncated : Bool}
    (searching : model.Searching arguments done queue visited truncated)
    (inside : ∀ id ∈ visited, id ∈ model.nodesById.keys) {fuel : Nat}
    (enough : model.nodesById.keys.length < done.length + fuel) :
    ∃ result, model.search arguments fuel queue visited truncated = some result ∧ model.Correct arguments result := by
  induction fuel generalizing done queue visited truncated with
  | zero =>
      have size : (done ++ queue.map PathEntry.mark).length ≤ model.nodesById.keys.length := by
        have within : (done ++ queue.map PathEntry.mark).map Prod.fst ⊆ model.nodesById.keys := by
          intro id m
          refine inside id ?_
          rw [searching.seen, List.mem_toFinset]
          exact m
        have less := (List.subperm_of_subset searching.distinct within).length_le
        rwa [List.length_map] at less
      rw [List.length_append] at size
      omega
  | succ fuel ih =>
      cases queue with
      | nil => exact ⟨_, rfl, searching.finish⟩
      | cons entry queue =>
          have further : model.nodesById.keys.length < (done ++ [entry.mark]).length + fuel := by
            rw [List.length_append, List.length_singleton]
            omega
          rw [search]
          by_cases target : entry.id = arguments.targetElementId
          · rw [if_pos target]
            exact ⟨_, rfl, searching.hit target⟩
          · rw [if_neg target]
            by_cases bound : arguments.depthBound ≤ entry.depth
            · rw [if_pos bound]
              exact ih (searching.deep target bound) inside further
            · rw [if_neg bound]
              rcases @scan_cases model arguments entry (model.neighbors arguments entry.id) queue visited with
                ⟨step, m, hit, new, ran⟩ | ran | ⟨fresh, ran, distinct, each, all⟩
              · rw [ran]
                exact ⟨_, rfl, searching.found bound m hit new⟩
              · rw [ran]
                exact ⟨_, rfl, nofun, nofun⟩
              · rw [ran]
                refine ih (searching.advance target bound distinct each all) (fun id m => ?_) further
                rcases Finset.mem_union.mp m with old | new
                · exact inside id old
                · obtain ⟨step, n, rfl⟩ := List.mem_map.mp (List.mem_toFinset.mp new)
                  obtain ⟨-, -, stored⟩ := (mem_neighbors _ _).mp (each step n).1
                  cases way : step.direction with
                  | outgoing =>
                      rw [way] at stored
                      exact stored.2.1
                  | incoming =>
                      rw [way] at stored
                      obtain ⟨-, -, node, found, -⟩ := stored
                      exact (Dict.mem_keys _ _).mpr ⟨node, found⟩

/-- Between two elements, a path that is found is a shortest chain within the depth, and
a result that is neither found nor cut off means that there is no chain. -/
theorem traceRelationshipPath_correct (server : Server) (model : AccessModel) (arguments : TraceArguments) :
    (arguments.sourceElementId ∈ model.nodesById.keys ∧ arguments.targetElementId ∈ model.nodesById.keys →
      ∃ traced, model.traceRelationshipPath server arguments = .ok traced ∧
        model.Correct arguments traced.toPathResult) ∧
    (¬ (arguments.sourceElementId ∈ model.nodesById.keys ∧ arguments.targetElementId ∈ model.nodesById.keys) →
      ∃ error, model.traceRelationshipPath server arguments = .error (.http error)) := by
  rw [traceRelationshipPath]
  constructor
  · rintro ⟨source, target⟩
    have present : [arguments.sourceElementId, arguments.targetElementId].find? (fun id => id ∉ model.nodesById.keys) =
        none := by
      rw [List.find?_eq_none]
      intro id m
      rcases List.mem_cons.mp m with rfl | m
      · simpa using source
      · cases List.mem_singleton.mp m
        simpa using target
    have steps : model.nodesById.keys.length < ([] : List (String × Nat)).length + (model.nodesById.keys.length + 1) := by
      rw [List.length_nil]
      omega
    obtain ⟨result, ran, correct⟩ := search_correct (.start : model.Searching arguments [] _ _ _)
      (fun id m => by cases Finset.mem_singleton.mp m; exact source) steps
    rw [present]
    dsimp only
    rw [ran]
    exact ⟨_, rfl, correct⟩
  · intro gone
    cases found : [arguments.sourceElementId, arguments.targetElementId].find? (fun id => id ∉ model.nodesById.keys) with
    | none =>
        rw [List.find?_eq_none] at found
        refine absurd ⟨?_, ?_⟩ gone
        · simpa using found _ List.mem_cons_self
        · simpa using found _ (List.mem_cons_of_mem _ (List.mem_singleton_self _))
    | some id => exact ⟨_, rfl⟩

/-- The first pump has the second as a child. -/
def pumpChild : AccessModel :=
  { Sample.plant with relationshipsById := .ofList [("a", .ofList [("HasChildren", ["b"])])] }

theorem traceRelationshipPath_correct_pump : ∃ traced,
    pumpChild.traceRelationshipPath Sample.server ⟨"a", "b", none, some .outgoing, none, nofun⟩ = .ok traced ∧
      traced.pathLength = some 1 ∧ pumpChild.Correct ⟨"a", "b", none, some .outgoing, none, nofun⟩ traced.toPathResult := by
  obtain ⟨traced, ran, correct⟩ := (traceRelationshipPath_correct Sample.server pumpChild
    ⟨"a", "b", none, some .outgoing, none, nofun⟩).1 ⟨by decide, by decide⟩
  have length : (pumpChild.traceRelationshipPath Sample.server ⟨"a", "b", none, some .outgoing, none, nofun⟩).map
      (fun traced => traced.pathLength) = .ok (some 1) := by decide
  rw [ran] at length
  exact ⟨traced, ran, Except.ok.inj length, correct⟩

end AccessModel
end I3x.Mcp

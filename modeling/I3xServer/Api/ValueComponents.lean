import I3xServer.Api.RelatedObjects
import I3xServer.Container.BreadthFirst
import Mathlib.Data.List.Pairwise

/-!
# Components of values

Values and histories of an element are answered with its components. The search for
them goes on from objects only, and one level further than the depth asks for.
-/
namespace I3x
open Container

/-- A model whose nodes stand under their own ids, as the builder leaves it. -/
structure KeyedModel extends PublishedModel where
  keyed : ∀ id node, nodesById.get? id = some node → node.id = id

/-- A node of a model. -/
structure KeyedModel.Element (model : KeyedModel) where
  node : PublishedNode
  present : model.nodesById.get? node.id = some node

/-- What the builder publishes is keyed. -/
def Browse.keyed (browse : Browse) : KeyedModel where
  toPublishedModel := browse.published
  keyed id node found := by
    obtain ⟨source, -, same, rfl⟩ := (browse.get?_nodesById_iff id node).mp found
    exact (browse.publishedNode_id source).trans same

namespace Api
variable (model : PublishedModel)

/-- The components of a node that exist. -/
def presentComponents (node : PublishedNode) : List PublishedNode :=
  (compositionChildrenForNode model node).filterMap model.nodesById.get?

def collectLoop (maxDepth : Nat) : Nat → List (String × Nat) → List String → List PublishedNode →
    Option (List PublishedNode)
  | _, [], _, components => some components
  | 0, _ :: _, _, _ => none
  | fuel + 1, (nodeId, depth) :: queue, visited, components =>
      if nodeId ∈ visited then collectLoop maxDepth fuel queue visited components
      else if maxDepth > 0 ∧ depth ≥ maxDepth then collectLoop maxDepth fuel queue (visited ++ [nodeId]) components
      else
        match model.nodesById.get? nodeId with
        | none => collectLoop maxDepth fuel queue (visited ++ [nodeId]) components
        | some current =>
            let children := presentComponents model current
            let objects := children.filter fun child => child.kind ≠ .property
            collectLoop maxDepth fuel (queue ++ objects.map fun child => (child.id, depth + 1)) (visited ++ [nodeId])
              (components ++ children.filter fun child => child.kind = .property)

/-- `_collect_value_component_nodes`. -/
def collectValueComponentNodes (fuel : Nat) (root : PublishedNode) (maxDepth : Nat) : Option (List PublishedNode) :=
  if maxDepth = 1 then some [] else collectLoop model maxDepth fuel [(root.id, 0)] [] []

/-! ## Depths -/

def componentsOf (id : String) : List PublishedNode :=
  match model.nodesById.get? id with
  | none => []
  | some node => presentComponents model node

/-- The properties that a node lists as components. -/
def listed (id : String) : List PublishedNode := (componentsOf model id).filter fun child => child.kind = .property

/-- The other components, from which the search goes on. -/
def followed (id : String) : List String :=
  ((componentsOf model id).filter fun child => child.kind ≠ .property).map fun child => child.id

/-- A node is some number of composition steps from another. -/
def Distance (root : PublishedNode) : Nat → String → Prop :=
  Walk (fun id => (componentsOf model id).map fun child => child.id) root.id

/-- A depth that is looked into: any depth, or one below the maximum. -/
def looksInto (maxDepth depth : Nat) : Bool := maxDepth = 0 || depth < maxDepth

/-- A node is reached through objects, at a depth that is looked into. -/
def Expanded (root : PublishedNode) (maxDepth : Nat) (id : String) : Prop :=
  ∃ depth, Walk (followed model) root.id depth id ∧ looksInto maxDepth depth = true

/-- Exactly the properties other than the root at composition distances below the
maximum, or at any distance, each once. -/
structure ComponentsExact (root : PublishedNode) (maxDepth : Nat) (components : List PublishedNode) : Prop where
  nodup : components.Nodup
  mem : ∀ component, component ∈ components ↔
    model.nodesById.get? component.id = some component ∧ component.kind = .property ∧ component ≠ root ∧
      ∃ distance, Distance model root distance component.id ∧ looksInto maxDepth distance = true

/-- The model has none of the shapes in which the search goes wrong. -/
structure Aligned (root : PublishedNode) (maxDepth : Nat) : Prop where
  /-- No node lists a property twice. -/
  once : ∀ id, Expanded model root maxDepth id → (listed model id).Nodup
  /-- No two nodes list the same property. -/
  apart : ∀ id other, Expanded model root maxDepth id → Expanded model root maxDepth other → id ≠ other →
    List.Disjoint (listed model id) (listed model other)
  /-- The root is not listed. -/
  other : ∀ id, Expanded model root maxDepth id → root ∉ listed model id
  /-- No property is listed at the maximal depth. -/
  near : maxDepth ≠ 0 → ∀ id, Expanded model root maxDepth id → ∀ component ∈ listed model id,
    ∃ distance < maxDepth, Distance model root distance component.id
  /-- No property is only found below another property. -/
  direct : ∀ component distance, model.nodesById.get? component.id = some component → component.kind = .property →
    component ≠ root → Distance model root distance component.id → looksInto maxDepth distance = true →
      ∃ id, Expanded model root maxDepth id ∧ component ∈ listed model id

/-! ## The loop -/

variable {model}

theorem mem_componentsOf {id : String} {component : PublishedNode} (m : component ∈ componentsOf model id) :
    ∃ key, model.nodesById.get? key = some component := by
  unfold componentsOf presentComponents at m
  split at m
  · cases m
  · obtain ⟨key, -, found⟩ := List.mem_filterMap.mp m
    exact ⟨key, found⟩

theorem looksInto_down (maxDepth : Nat) (k n : Nat) (le : k ≤ n) (deep : looksInto maxDepth n = true) :
    looksInto maxDepth k = true := by
  simp only [looksInto, Bool.or_eq_true, decide_eq_true_eq] at deep ⊢
  omega

theorem looksInto_iff {maxDepth : Nat} (bounded : maxDepth ≠ 0) (depth : Nat) :
    looksInto maxDepth depth = true ↔ depth < maxDepth := by
  rw [looksInto, Bool.or_eq_true, decide_eq_true_eq, decide_eq_true_eq, or_iff_right bounded]

theorem not_looksInto (maxDepth depth : Nat) :
    looksInto maxDepth depth = false ↔ maxDepth > 0 ∧ depth ≥ maxDepth := by
  rw [looksInto, Bool.or_eq_false_iff, decide_eq_false_iff_not, decide_eq_false_iff_not]
  omega

/-- The loop collects what the nodes of a breadth-first search list. -/
theorem collectLoop_eq (model : PublishedModel) (maxDepth fuel : Nat) (queue visited : List (String × Nat)) :
    collectLoop model maxDepth fuel queue (visited.map Prod.fst)
        (((visited.filter fun entry => looksInto maxDepth entry.2).map Prod.fst).flatMap (listed model)) =
      (breadthFirst (followed model) (looksInto maxDepth) fuel queue visited).map fun all =>
        ((all.filter fun entry => looksInto maxDepth entry.2).map Prod.fst).flatMap (listed model) := by
  induction fuel generalizing queue visited with
  | zero => cases queue <;> rfl
  | succ fuel ih =>
      cases queue with
      | nil => rfl
      | cons entry queue =>
          obtain ⟨id, depth⟩ := entry
          rw [collectLoop, breadthFirst]
          split
          · exact ih queue visited
          · have step := ih (queue ++ if looksInto maxDepth depth then
              (followed model id).map fun child => (child, depth + 1) else []) (visited ++ [(id, depth)])
            rw [← step, List.map_append, List.map_singleton, List.filter_append, List.map_append, List.flatMap_append]
            cases into : looksInto maxDepth depth with
            | false =>
                rw [if_pos ((not_looksInto _ _).mp into), List.filter_singleton, into]
                simp only [cond_false, Bool.false_eq_true, if_false, List.map_nil, List.flatMap_nil, List.append_nil]
            | true =>
                have shallow : ¬ (maxDepth > 0 ∧ depth ≥ maxDepth) := fun deep => by
                  rw [← not_looksInto, into] at deep
                  cases deep
                rw [if_neg shallow, List.filter_singleton, into]
                simp only [cond_true, if_true, List.map_singleton, List.flatMap_singleton]
                unfold listed followed componentsOf
                cases model.nodesById.get? id with
                | none => simp only [List.filter_nil, List.map_nil, List.append_nil]
                | some current => simp only [List.map_map, Function.comp_def]

/-! ## All components -/

theorem componentsOf_present {model : KeyedModel} {id : String} {component : PublishedNode}
    (m : component ∈ componentsOf model.toPublishedModel id) :
    model.nodesById.get? component.id = some component := by
  obtain ⟨key, found⟩ := mem_componentsOf m
  rwa [model.keyed key component found]

/-- The walks through objects are composition walks. -/
theorem walk_distance {root : PublishedNode} {n : Nat} {id : String} (walk : Walk (followed model) root.id n id) :
    Distance model root n id := by
  induction walk with
  | here => exact .here
  | step _ edge ih =>
      obtain ⟨child, m, rfl⟩ := List.mem_map.mp edge
      exact .step ih (List.mem_map.mpr ⟨child, (List.mem_filter.mp m).1, rfl⟩)

/-- The search ends, and lists what expanded nodes list. -/
theorem collectLoop_spec (model : KeyedModel) (root : model.Element) (maxDepth : Nat) :
    ∃ expanded : List String, expanded.Nodup ∧
      (∀ id, id ∈ expanded ↔ Expanded model.toPublishedModel root.node maxDepth id) ∧
      ∃ enough, ∀ fuel ≥ enough, collectLoop model.toPublishedModel maxDepth fuel [(root.node.id, 0)] [] [] =
        some (expanded.flatMap (listed model.toPublishedModel)) := by
  have inside : ∀ id ∈ model.nodesById.keys, followed model.toPublishedModel id ⊆ model.nodesById.keys := by
    intro id _ child m
    obtain ⟨component, n, rfl⟩ := List.mem_map.mp m
    exact (Dict.mem_keys _ _).mpr ⟨component, componentsOf_present (List.mem_filter.mp n).1⟩
  have start : ∀ entry ∈ [(root.node.id, 0)], entry.1 ∈ model.nodesById.keys := fun entry m => by
    cases List.mem_singleton.mp m
    exact (Dict.mem_keys _ _).mpr ⟨root.node, root.present⟩
  have front := front_start (followed model.toPublishedModel) root.node.id (looksInto maxDepth)
  obtain ⟨all, found, ended⟩ := breadthFirst_front inside start (Nat.le_refl _) front
  have distinct : ((all.filter fun entry => looksInto maxDepth entry.2).map Prod.fst).Nodup :=
    ended.distinct.sublist (List.Sublist.map _ List.filter_sublist)
  refine ⟨_, distinct, ended.expanded_iff (looksInto_down maxDepth),
    [(root.node.id, 0)].length + unvisitedEdges (followed model.toPublishedModel) [] model.nodesById.keys,
    fun fuel enough => ?_⟩
  have run := collectLoop_eq model.toPublishedModel maxDepth fuel [(root.node.id, 0)] []
  rw [breadthFirst_more found enough] at run
  exact run

/-- **The search answers exactly the components of the depth if and only if the depth
is one or the model has none of the wrong shapes.** -/
theorem components_exact_iff (model : KeyedModel) (root : model.Element) (maxDepth : Nat) :
    ∃ components, (∃ enough, ∀ fuel ≥ enough,
        collectValueComponentNodes model.toPublishedModel fuel root.node maxDepth = some components) ∧
      (ComponentsExact model.toPublishedModel root.node maxDepth components ↔
        maxDepth = 1 ∨ Aligned model.toPublishedModel root.node maxDepth) := by
  rcases Decidable.em (maxDepth = 1) with rfl | deeper
  · refine ⟨[], ⟨0, fun fuel _ => rfl⟩, iff_of_true ⟨List.nodup_nil, fun component => ?_⟩ (.inl rfl)⟩
    refine iff_of_false List.not_mem_nil ?_
    rintro ⟨present, -, other, distance, walk, near⟩
    have zero : distance = 0 := by simpa [looksInto] using near
    have same : component.id = root.node.id := by
      rw [zero] at walk
      generalize component.id = id at walk
      cases walk
      rfl
    rw [same, root.present] at present
    exact other (Option.some.inj present).symm
  · obtain ⟨expanded, distinct, mem, enough, run⟩ := collectLoop_spec model root maxDepth
    refine ⟨_, ⟨enough, fun fuel more => (if_neg deeper).trans (run fuel more)⟩, ?_⟩
    have listedBy (component : PublishedNode) :
        component ∈ expanded.flatMap (listed model.toPublishedModel) ↔
          ∃ id, Expanded model.toPublishedModel root.node maxDepth id ∧
            component ∈ listed model.toPublishedModel id := by
      simp only [List.mem_flatMap, mem]
    have nodup : (expanded.flatMap (listed model.toPublishedModel)).Nodup ↔
        (∀ id, Expanded model.toPublishedModel root.node maxDepth id → (listed model.toPublishedModel id).Nodup) ∧
        ∀ id other, Expanded model.toPublishedModel root.node maxDepth id →
          Expanded model.toPublishedModel root.node maxDepth other → id ≠ other →
            List.Disjoint (listed model.toPublishedModel id) (listed model.toPublishedModel other) := by
      rw [List.nodup_flatMap]
      constructor
      · rintro ⟨once, apart⟩
        refine ⟨fun id m => once id ((mem id).mpr m), fun id other m n different => ?_⟩
        have symmetric : Std.Symm (Function.onFun List.Disjoint (listed model.toPublishedModel)) :=
          ⟨fun _ _ => List.Disjoint.symm⟩
        exact apart.forall ((mem id).mpr m) ((mem other).mpr n) different
      · rintro ⟨once, apart⟩
        refine ⟨fun id m => once id ((mem id).mp m),
          distinct.pairwise_of_forall_ne fun id m other n different => ?_⟩
        exact apart id other ((mem id).mp m) ((mem other).mp n) different
    have isProperty {id : String} {component : PublishedNode} (m : component ∈ listed model.toPublishedModel id) :
        model.nodesById.get? component.id = some component ∧ component.kind = .property := by
      obtain ⟨inside, property⟩ := List.mem_filter.mp m
      exact ⟨componentsOf_present inside, of_decide_eq_true property⟩
    constructor
    · intro exact
      obtain ⟨once, apart⟩ := nodup.mp exact.nodup
      refine .inr ⟨once, apart, fun id open' m => ?_, fun bounded id open' component m => ?_,
        fun component distance present property other walk near => ?_⟩
      · exact ((exact.mem root.node).mp ((listedBy _).mpr ⟨id, open', m⟩)).2.2.1 rfl
      · obtain ⟨distance, walk, close⟩ := ((exact.mem component).mp ((listedBy _).mpr ⟨id, open', m⟩)).2.2.2
        exact ⟨distance, (looksInto_iff bounded distance).mp close, walk⟩
      · exact (listedBy component).mp ((exact.mem component).mpr ⟨present, property, other, distance, walk, near⟩)
    · intro aligned
      obtain ⟨once, apart, other, near, direct⟩ := aligned.resolve_left deeper
      refine ⟨nodup.mpr ⟨once, apart⟩, fun component => ?_⟩
      rw [listedBy]
      constructor
      · rintro ⟨id, open', m⟩
        obtain ⟨present, property⟩ := isProperty m
        refine ⟨present, property, fun same => other id open' (same ▸ m), ?_⟩
        rcases Decidable.em (maxDepth = 0) with rfl | bounded
        · obtain ⟨depth, walk, -⟩ := open'
          have edge : component.id ∈ (componentsOf model.toPublishedModel id).map fun child => child.id :=
            List.mem_map.mpr ⟨component, (List.mem_filter.mp m).1, rfl⟩
          exact ⟨depth + 1, .step (walk_distance walk) edge, rfl⟩
        · obtain ⟨distance, close, walk⟩ := near bounded id open' component m
          exact ⟨distance, walk, (looksInto_iff bounded distance).mpr close⟩
      · rintro ⟨present, property, different, distance, walk, close⟩
        exact direct component distance present property different walk close

/-- An object with a property, which has a property of its own. -/
def nestedBrowse : Browse := Plant.browse [Plant.node "A" "Object" [Plant.hasProperty "B"],
  Plant.node "B" "Variable" [Plant.hasProperty "C"], Plant.node "C" "Variable" []]

def nested : KeyedModel := nestedBrowse.keyed

def nestedRoot : PublishedNode := nestedBrowse.publishedNode (Plant.node "A" "Object" [Plant.hasProperty "B"])

def nestedProperty : PublishedNode := nestedBrowse.publishedNode (Plant.node "C" "Variable" [])

/-- **Without a limit, the property of the property is left out.** -/
theorem nested_not_exact : ¬ ∀ components,
    (∃ fuel, collectValueComponentNodes nested.toPublishedModel fuel nestedRoot 0 = some components) →
      ComponentsExact nested.toPublishedModel nestedRoot 0 components := by
  intro all
  have found : collectValueComponentNodes nested.toPublishedModel 5 nestedRoot 0 =
      some (listed nested.toPublishedModel nestedRoot.id) := rfl
  have exact := all _ ⟨5, found⟩
  have walk : Distance nested.toPublishedModel nestedRoot 2 nestedProperty.id :=
    .step (a := "property-cd1e6b2d19c59f72") (.step .here (by decide)) (by decide)
  have other : nestedProperty ≠ nestedRoot := fun same => absurd (congrArg (fun node => node.id) same) (by decide)
  have member := (exact.mem nestedProperty).mpr ⟨rfl, by decide, other, 2, walk, rfl⟩
  have inside : nestedProperty.id ∈ (listed nested.toPublishedModel nestedRoot.id).map fun child => child.id :=
    List.mem_map.mpr ⟨nestedProperty, member, rfl⟩
  exact absurd inside (by decide)

end Api
end I3x

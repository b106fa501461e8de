import I3xServer.Domain.Text
import I3xServer.Domain.ModelBuilder
import Mathlib.Data.Finset.Basic
import Mathlib.Data.Finset.Dedup

/-!
# From registered objects to monitored nodes

A subscription registers objects, each with a depth limit, and monitors the
source nodes of the properties below them. The walk below one object is a queue
without a memory of visited nodes, so a cycle of children keeps it from ending
when the depth is unlimited. It takes as fuel the number of queue entries it may
process; `none` says that more are left.
-/
namespace I3x.Subscriptions
open Container

def children (model : BuildResult) (node : ModelNode) : List String :=
  (model.childrenById.get? node.id).getD []

/-- The loop of the walk over the queue of node ids with their depths. -/
def walk (model : BuildResult) (depthLimit : Nat) :
    Nat → List (String × Nat) → Dict String String → Option (Dict String String)
  | _, [], result => some result
  | 0, _ :: _, _ => none
  | fuel + 1, (nodeId, depth) :: queue, result =>
      match model.nodesById.get? nodeId with
      | none => walk model depthLimit fuel queue result
      | some node =>
          if node.kind = .property then
            walk model depthLimit fuel queue (result.set node.sourceNodeId node.id)
          else if depthLimit ≠ 0 ∧ depthLimit ≤ depth then walk model depthLimit fuel queue result
          else
            walk model depthLimit fuel
              (queue ++ (children model node).map fun child => (child, depth + 1)) result

/-- The source node ids of the properties below `root`, with their element ids. -/
def collectPropertySourceMappings (fuel : Nat) (model : BuildResult) (root : ModelNode) (maxDepth : Int) :
    Option (Dict String String) :=
  if root.kind = .property then some (Dict.empty.set root.sourceNodeId root.id)
  else walk model maxDepth.toNat fuel [(root.id, 0)] .empty

def sourceIndex (model : BuildResult) : Dict String ModelNode :=
  Dict.ofList (model.nodes.map fun node => (node.sourceNodeId, node))

/-- The node that a registered id stands for: an element id, else a source node id. -/
def registeredNode (model : BuildResult) (elementId : String) : Option ModelNode :=
  match model.nodesById.get? elementId with
  | some node => some node
  | none => (sourceIndex model).get? elementId

structure Resolution where
  nodeIds : Finset String
  nodeToElementId : Dict String String

variable (text : Text) (fuel : Nat)

def resolveObject (model : BuildResult) (resolution : Resolution) (object : String × Int) :
    Option Resolution :=
  match registeredNode model object.1 with
  | none =>
      some
        { nodeIds := insert object.1 resolution.nodeIds
          nodeToElementId :=
            (resolution.nodeToElementId.set object.1 object.1).set (text.lower object.1) object.1 }
  | some node =>
      (collectPropertySourceMappings fuel model node object.2).map fun mappings =>
        { nodeIds := resolution.nodeIds ∪ mappings.keys.toFinset
          nodeToElementId := (resolution.nodeToElementId.update mappings.entries).update
            (mappings.entries.map fun entry => (text.lower entry.1, entry.2)) }

def resolveObjects (model : BuildResult) : List (String × Int) → Resolution → Option Resolution
  | [], resolution => some resolution
  | object :: objects, resolution =>
      (resolveObject text fuel model resolution object).bind (resolveObjects model objects)

def resolveMonitoredNodeIds (monitoredObjects : Dict String Int) (model : BuildResult) :
    Option Resolution :=
  resolveObjects text fuel model monitoredObjects.entries { nodeIds := ∅, nodeToElementId := .empty }

def registerObjects (monitoredObjects : Dict String Int) (elementIds : List String) (maxDepth : Int) :
    Dict String Int :=
  elementIds.foldl (fun objects elementId => objects.set elementId maxDepth) monitoredObjects

def unregisterObjects (monitoredObjects : Dict String Int) (elementIds : List String) :
    Dict String Int :=
  elementIds.foldl (fun objects elementId => objects.erase elementId) monitoredObjects

theorem get?_registerObjects (objects : Dict String Int) (ids : List String) (depth : Int) (id : String) :
    (registerObjects objects ids depth).get? id = if id ∈ ids then some depth else objects.get? id := by
  induction ids generalizing objects with
  | nil => simp [registerObjects]
  | cons first ids ih =>
      rw [registerObjects, List.foldl_cons]
      rw [show ids.foldl (fun objects elementId => objects.set elementId depth) (objects.set first depth) =
        registerObjects (objects.set first depth) ids depth from rfl, ih, Dict.get?_set]
      by_cases later : id ∈ ids
      · simp [later]
      · by_cases same : id = first <;> simp [later, same]

theorem get?_unregisterObjects (objects : Dict String Int) (ids : List String) (id : String) :
    (unregisterObjects objects ids).get? id = if id ∈ ids then none else objects.get? id := by
  induction ids generalizing objects with
  | nil => simp [unregisterObjects]
  | cons first ids ih =>
      rw [unregisterObjects, List.foldl_cons]
      rw [show ids.foldl (fun objects elementId => objects.erase elementId) (objects.erase first) =
        unregisterObjects (objects.erase first) ids from rfl, ih, Dict.get?_erase]
      by_cases later : id ∈ ids
      · simp [later]
      · by_cases same : id = first <;> simp [later, same]

/-! ## What the walk finds -/

/-- Below the node id `start`, met at depth `depth`, the walk reaches `node`. -/
inductive Found (model : BuildResult) (depthLimit : Nat) : String → Nat → ModelNode → Prop
  | here {start depth node} (present : model.nodesById.get? start = some node) :
      Found model depthLimit start depth node
  | child {start depth parent child node} (present : model.nodesById.get? start = some parent)
      (open_ : parent.kind ≠ .property) (within : depthLimit = 0 ∨ depth < depthLimit)
      (isChild : child ∈ children model parent) (rest : Found model depthLimit child (depth + 1) node) :
      Found model depthLimit start depth node

/-- A property that the walk still has to meet from its queue. -/
def Ahead (model : BuildResult) (depthLimit : Nat) (queue : List (String × Nat)) (node : ModelNode) : Prop :=
  node.kind = .property ∧ ∃ entry ∈ queue, Found model depthLimit entry.1 entry.2 node

section
variable {text} {fuel} {model : BuildResult} {depthLimit : Nat}

attribute [local simp] walk

theorem ahead_skip {nodeId : String} {depth : Nat} {queue : List (String × Nat)}
    (absent : model.nodesById.get? nodeId = none) (node : ModelNode) :
    Ahead model depthLimit ((nodeId, depth) :: queue) node ↔ Ahead model depthLimit queue node := by
  refine and_congr_right fun _ => ?_
  rw [List.exists_mem_cons_iff, or_iff_right]
  rintro (⟨present⟩ | ⟨present, _⟩) <;> cases absent.symm.trans present

theorem ahead_property {nodeId : String} {depth : Nat} {queue : List (String × Nat)} {met : ModelNode}
    (present : model.nodesById.get? nodeId = some met) (kind : met.kind = .property) (node : ModelNode) :
    Ahead model depthLimit ((nodeId, depth) :: queue) node ↔ node = met ∨ Ahead model depthLimit queue node := by
  have first : node.kind = .property →
      (Found model depthLimit nodeId depth node ↔ node = met) := by
    intro _
    constructor
    · rintro (⟨found⟩ | ⟨found, open_, _⟩)
      · exact (Option.some.inj (present.symm.trans found)).symm
      · cases present.symm.trans found
        exact absurd kind open_
    · rintro rfl
      exact .here present
  constructor
  · rintro ⟨isProperty, entry, m, found⟩
    rcases List.mem_cons.mp m with rfl | later
    · exact Or.inl ((first isProperty).mp found)
    · exact Or.inr ⟨isProperty, entry, later, found⟩
  · rintro (rfl | ⟨isProperty, entry, later, found⟩)
    · exact ⟨kind, _, List.mem_cons_self, .here present⟩
    · exact ⟨isProperty, entry, List.mem_cons_of_mem _ later, found⟩

theorem ahead_closed {nodeId : String} {depth : Nat} {queue : List (String × Nat)} {met : ModelNode}
    (present : model.nodesById.get? nodeId = some met) (kind : met.kind ≠ .property)
    (reached : depthLimit ≠ 0 ∧ depthLimit ≤ depth) (node : ModelNode) :
    Ahead model depthLimit ((nodeId, depth) :: queue) node ↔ Ahead model depthLimit queue node := by
  refine and_congr_right fun isProperty => ?_
  rw [List.exists_mem_cons_iff, or_iff_right]
  rintro (⟨found⟩ | ⟨_, _, within, _⟩)
  · cases present.symm.trans found
    exact kind isProperty
  · rcases within with unlimited | below
    · exact reached.1 unlimited
    · exact Nat.not_lt_of_le reached.2 below

theorem ahead_expand {nodeId : String} {depth : Nat} {queue : List (String × Nat)} {met : ModelNode}
    (present : model.nodesById.get? nodeId = some met) (kind : met.kind ≠ .property)
    (within : depthLimit = 0 ∨ depth < depthLimit) (node : ModelNode) :
    Ahead model depthLimit ((nodeId, depth) :: queue) node ↔
      Ahead model depthLimit (queue ++ (children model met).map fun child => (child, depth + 1)) node := by
  refine and_congr_right fun isProperty => ?_
  constructor
  · rintro ⟨entry, m, found⟩
    rcases List.mem_cons.mp m with rfl | later
    · rcases found with ⟨here⟩ | ⟨here, _, _, isChild, rest⟩
      · cases present.symm.trans here
        exact absurd isProperty kind
      · cases present.symm.trans here
        exact ⟨_, List.mem_append_right _ (List.mem_map.mpr ⟨_, isChild, rfl⟩), rest⟩
    · exact ⟨entry, List.mem_append_left _ later, found⟩
  · rintro ⟨entry, m, found⟩
    rcases List.mem_append.mp m with later | child
    · exact ⟨entry, List.mem_cons_of_mem _ later, found⟩
    · obtain ⟨child, isChild, rfl⟩ := List.mem_map.mp child
      exact ⟨_, List.mem_cons_self, .child present kind within isChild found⟩

theorem walk_nil (result : Dict String String) : walk model depthLimit fuel [] result = some result := by
  cases fuel <;> rfl

theorem walk_skip {nodeId : String} {depth : Nat} {queue : List (String × Nat)}
    (absent : model.nodesById.get? nodeId = none) (result : Dict String String) :
    walk model depthLimit (fuel + 1) ((nodeId, depth) :: queue) result =
      walk model depthLimit fuel queue result := by
  simp [absent]

theorem walk_property {nodeId : String} {depth : Nat} {queue : List (String × Nat)} {met : ModelNode}
    (present : model.nodesById.get? nodeId = some met) (kind : met.kind = .property)
    (result : Dict String String) :
    walk model depthLimit (fuel + 1) ((nodeId, depth) :: queue) result =
      walk model depthLimit fuel queue (result.set met.sourceNodeId met.id) := by
  simp [present, kind]

theorem walk_closed {nodeId : String} {depth : Nat} {queue : List (String × Nat)} {met : ModelNode}
    (present : model.nodesById.get? nodeId = some met) (kind : met.kind ≠ .property)
    (reached : depthLimit ≠ 0 ∧ depthLimit ≤ depth) (result : Dict String String) :
    walk model depthLimit (fuel + 1) ((nodeId, depth) :: queue) result =
      walk model depthLimit fuel queue result := by
  simp only [walk, present, if_neg kind, if_pos reached]

theorem walk_expand {nodeId : String} {depth : Nat} {queue : List (String × Nat)} {met : ModelNode}
    (present : model.nodesById.get? nodeId = some met) (kind : met.kind ≠ .property)
    (reached : ¬ (depthLimit ≠ 0 ∧ depthLimit ≤ depth)) (result : Dict String String) :
    walk model depthLimit (fuel + 1) ((nodeId, depth) :: queue) result = walk model depthLimit fuel
      (queue ++ (children model met).map fun child => (child, depth + 1)) result := by
  simp only [walk, present, if_neg kind, if_neg reached]

/-- The keys of a finished walk are the sources of the properties it had ahead. -/
theorem walk_keys {queue : List (String × Nat)} {result out : Dict String String}
    (done : walk model depthLimit fuel queue result = some out) (n : String) :
    n ∈ out.keys ↔ n ∈ result.keys ∨ ∃ node, Ahead model depthLimit queue node ∧ node.sourceNodeId = n := by
  induction fuel, queue, result using walk.induct model depthLimit with
  | case1 fuel result =>
      cases (walk_nil result).symm.trans done
      refine (or_iff_left ?_).symm
      rintro ⟨_, ⟨_, _, m, _⟩, _⟩
      cases m
  | case2 => cases done
  | case3 fuel nodeId depth queue result absent ih =>
      rw [walk_skip absent] at done
      simp only [ih done, ahead_skip absent]
  | case4 fuel nodeId depth queue result met present kind ih =>
      rw [walk_property present kind] at done
      rw [ih done, Dict.keys_set]
      simp only [ahead_property present kind, or_and_right, exists_or, exists_eq_left]
      tauto
  | case5 fuel nodeId depth queue result met present kind reached ih =>
      rw [walk_closed present kind reached] at done
      simp only [ih done, ahead_closed present kind reached]
  | case6 fuel nodeId depth queue result met present kind reached ih =>
      rw [walk_expand present kind reached] at done
      have within : depthLimit = 0 ∨ depth < depthLimit := by omega
      simp only [ih done, ahead_expand present kind within]

/-- Every entry a finished walk adds is a source with the element id it met. -/
theorem walk_entries {queue : List (String × Nat)} {result out : Dict String String}
    (done : walk model depthLimit fuel queue result = some out) (n e : String) (entry : out.get? n = some e) :
    result.get? n = some e ∨
      ∃ node, Ahead model depthLimit queue node ∧ node.sourceNodeId = n ∧ node.id = e := by
  induction fuel, queue, result using walk.induct model depthLimit with
  | case1 fuel result =>
      cases (walk_nil result).symm.trans done
      exact Or.inl entry
  | case2 => cases done
  | case3 fuel nodeId depth queue result absent ih =>
      rw [walk_skip absent] at done
      simpa only [ahead_skip absent] using ih done
  | case4 fuel nodeId depth queue result met present kind ih =>
      rw [walk_property present kind] at done
      simp only [ahead_property present kind]
      rcases ih done with old | ⟨node, ahead, rest⟩
      · rw [Dict.get?_set] at old
        by_cases same : n = met.sourceNodeId
        · rw [if_pos same, Option.some.injEq] at old
          exact Or.inr ⟨met, Or.inl rfl, same.symm, old⟩
        · rw [if_neg same] at old
          exact Or.inl old
      · exact Or.inr ⟨node, Or.inr ahead, rest⟩
  | case5 fuel nodeId depth queue result met present kind reached ih =>
      rw [walk_closed present kind reached] at done
      simpa only [ahead_closed present kind reached] using ih done
  | case6 fuel nodeId depth queue result met present kind reached ih =>
      rw [walk_expand present kind reached] at done
      have within : depthLimit = 0 ∨ depth < depthLimit := by omega
      simpa only [ahead_expand present kind within] using ih done

/-- A walk that ends does not depend on how much fuel is left. -/
theorem walk_mono {queue : List (String × Nat)} {result out : Dict String String} {more : Nat}
    (done : walk model depthLimit fuel queue result = some out) (enough : fuel ≤ more) :
    walk model depthLimit more queue result = some out := by
  induction fuel, queue, result using walk.induct model depthLimit generalizing more with
  | case1 fuel result => rwa [walk_nil] at done ⊢
  | case2 => cases done
  | case3 fuel nodeId depth queue result absent ih =>
      obtain ⟨more, rfl⟩ : ∃ k, more = k + 1 := ⟨more - 1, by omega⟩
      rw [walk_skip absent] at done ⊢
      exact ih done (by omega)
  | case4 fuel nodeId depth queue result met present kind ih =>
      obtain ⟨more, rfl⟩ : ∃ k, more = k + 1 := ⟨more - 1, by omega⟩
      rw [walk_property present kind] at done ⊢
      exact ih done (by omega)
  | case5 fuel nodeId depth queue result met present kind reached ih =>
      obtain ⟨more, rfl⟩ : ∃ k, more = k + 1 := ⟨more - 1, by omega⟩
      rw [walk_closed present kind reached] at done ⊢
      exact ih done (by omega)
  | case6 fuel nodeId depth queue result met present kind reached ih =>
      obtain ⟨more, rfl⟩ : ∃ k, more = k + 1 := ⟨more - 1, by omega⟩
      rw [walk_expand present kind reached] at done ⊢
      exact ih done (by omega)

end

/-- The properties found under `root` within the depth: `root` itself if it is one. -/
def PropertyUnder (model : BuildResult) (root : ModelNode) (maxDepth : Int) (node : ModelNode) : Prop :=
  if root.kind = .property then node = root
  else node.kind = .property ∧ Found model maxDepth.toNat root.id 0 node

section
variable {text} {fuel} {model : BuildResult}

theorem collect_keys {root : ModelNode} {maxDepth : Int} {mappings : Dict String String}
    (done : collectPropertySourceMappings fuel model root maxDepth = some mappings) (n : String) :
    n ∈ mappings.keys ↔ ∃ node, PropertyUnder model root maxDepth node ∧ node.sourceNodeId = n := by
  unfold collectPropertySourceMappings at done
  unfold PropertyUnder
  by_cases kind : root.kind = .property
  · simp only [kind, if_true, Option.some.injEq, exists_eq_left] at done ⊢
    subst done
    simp only [Dict.keys_set]
    exact (or_iff_left nofun).trans eq_comm
  · simp only [kind, if_false] at done ⊢
    rw [walk_keys done]
    simp only [Ahead, List.mem_singleton, exists_eq_left]
    exact or_iff_right nofun

theorem collect_entries {root : ModelNode} {maxDepth : Int} {mappings : Dict String String}
    (done : collectPropertySourceMappings fuel model root maxDepth = some mappings) {n e : String}
    (entry : mappings.get? n = some e) :
    ∃ node, PropertyUnder model root maxDepth node ∧ node.sourceNodeId = n ∧ node.id = e := by
  unfold collectPropertySourceMappings at done
  unfold PropertyUnder
  by_cases kind : root.kind = .property
  · simp only [kind, if_true, Option.some.injEq, exists_eq_left] at done ⊢
    subst done
    rw [Dict.get?_set] at entry
    by_cases same : n = root.sourceNodeId
    · rw [if_pos same, Option.some.injEq] at entry
      exact ⟨same.symm, entry⟩
    · rw [if_neg same] at entry
      cases entry
  · simp only [kind, if_false] at done ⊢
    rcases walk_entries done n e entry with old | new
    · cases old
    · simpa only [Ahead, List.mem_singleton, exists_eq_left] using new

end

/-! ## What one registered object contributes -/

/-- The source nodes one object makes a subscription monitor, with their labels;
an id that stands for no node contributes itself. -/
def contribution (fuel : Nat) (model : BuildResult) (object : String × Int) : Option (Dict String String) :=
  match registeredNode model object.1 with
  | none => some (Dict.empty.set object.1 object.1)
  | some node => collectPropertySourceMappings fuel model node object.2

section
variable {text} {fuel} {model : BuildResult}

theorem resolveObject_eq (resolution : Resolution) (object : String × Int) :
    resolveObject text fuel model resolution object = (contribution fuel model object).map fun mappings =>
      { nodeIds := resolution.nodeIds ∪ mappings.keys.toFinset
        nodeToElementId := (resolution.nodeToElementId.update mappings.entries).update
          (mappings.entries.map fun entry => (text.lower entry.1, entry.2)) } := by
  unfold resolveObject contribution
  cases registeredNode model object.1 with
  | some node => rfl
  | none =>
      simp only [Option.map_some, Option.some.injEq, Resolution.mk.injEq]
      refine ⟨?_, rfl⟩
      ext n
      rw [Finset.mem_insert, Finset.mem_union, List.mem_toFinset, Dict.keys_set]
      tauto

/-- The monitored nodes are the union of what the registered objects contribute. -/
theorem mem_resolveObjects {objects : List (String × Int)} {before after : Resolution}
    (done : resolveObjects text fuel model objects before = some after) (n : String) :
    n ∈ after.nodeIds ↔ n ∈ before.nodeIds ∨
      ∃ object ∈ objects, ∃ mappings, contribution fuel model object = some mappings ∧ n ∈ mappings.keys := by
  induction objects generalizing before with
  | nil =>
      cases done
      exact (or_iff_left nofun).symm
  | cons object objects ih =>
      obtain ⟨middle, first, rest⟩ := Option.bind_eq_some_iff.mp done
      rw [resolveObject_eq] at first
      obtain ⟨mappings, contributed, rfl⟩ := Option.map_eq_some_iff.mp first
      rw [ih rest, Finset.mem_union, List.mem_toFinset, List.exists_mem_cons_iff, or_assoc]
      refine or_congr_right (or_congr_left ?_)
      constructor
      · exact fun m => ⟨mappings, contributed, m⟩
      · rintro ⟨other, same, m⟩
        cases contributed.symm.trans same
        exact m

theorem resolveObjects_isSome (objects : List (String × Int)) (before : Resolution) :
    (∃ after, resolveObjects text fuel model objects before = some after) ↔
      ∀ object ∈ objects, ∃ mappings, contribution fuel model object = some mappings := by
  induction objects generalizing before with
  | nil => exact iff_of_true ⟨before, rfl⟩ nofun
  | cons object objects ih =>
      rw [List.forall_mem_cons]
      simp only [resolveObjects, resolveObject_eq, Option.bind_eq_some_iff, Option.map_eq_some_iff]
      constructor
      · rintro ⟨after, _, ⟨mappings, contributed, rfl⟩, rest⟩
        exact ⟨⟨mappings, contributed⟩, (ih _).mp ⟨after, rest⟩⟩
      · rintro ⟨⟨mappings, contributed⟩, others⟩
        obtain ⟨after, rest⟩ := (ih _).mpr others
        exact ⟨after, _, ⟨mappings, contributed, rfl⟩, rest⟩

theorem mem_resolveMonitoredNodeIds {objects : Dict String Int} {resolution : Resolution}
    (done : resolveMonitoredNodeIds text fuel objects model = some resolution) (n : String) :
    n ∈ resolution.nodeIds ↔ ∃ id depth, objects.get? id = some depth ∧
      ∃ mappings, contribution fuel model (id, depth) = some mappings ∧ n ∈ mappings.keys := by
  rw [mem_resolveObjects done, or_iff_right (Finset.notMem_empty n)]
  simp only [Prod.exists, Dict.mem_entries]

theorem resolveMonitoredNodeIds_isSome (objects : Dict String Int) :
    (∃ resolution, resolveMonitoredNodeIds text fuel objects model = some resolution) ↔
      ∀ id depth, objects.get? id = some depth →
        ∃ mappings, contribution fuel model (id, depth) = some mappings := by
  rw [resolveMonitoredNodeIds, resolveObjects_isSome]
  simp only [Prod.forall, Dict.mem_entries]

end
end I3x.Subscriptions

import I3xServer.Subscriptions.WalkOrder
import I3xServer.Subscriptions.Registry

/-!
# Which element an update is labelled with

The labels of a subscription are rebuilt from all registered objects, and each
property is written under its source node id and under its folded form. The last
write to a key decides, so a property whose folded source is another's source
can take that one's label.
-/
namespace I3x.Subscriptions
open Container
variable {V : Type}

/-! ## The last write to a label -/

/-- What one object writes into the labels: its mappings, then their folded forms. -/
def relabel (text : Text) (mappings : Dict String String) : List (String × String) :=
  mappings.entries ++ mappings.entries.map fun entry => (text.lower entry.1, entry.2)

section
variable {text : Text} {fuel : Nat} {model : BuildResult}

theorem mem_relabel_keys (mappings : Dict String String) (n : String) :
    n ∈ (relabel text mappings).map Prod.fst ↔
      n ∈ mappings.keys ∨ ∃ s ∈ mappings.keys, text.lower s = n := by
  simp only [relabel, List.map_append, List.mem_append, List.map_map, Dict.keys]
  refine or_congr_right ?_
  simp only [List.mem_map, Function.comp_apply, exists_exists_and_eq_and]

theorem resolveObject_label {resolution after : Resolution} {object : String × Int}
    (done : resolveObject text fuel model resolution object = some after) :
    ∃ mappings, contribution fuel model object = some mappings ∧
      after.nodeToElementId = resolution.nodeToElementId.update (relabel text mappings) := by
  rw [resolveObject_eq] at done
  obtain ⟨mappings, contributed, rfl⟩ := Option.map_eq_some_iff.mp done
  exact ⟨mappings, contributed, (Dict.update_append _ _ _).symm⟩

/-- The object writes the label of `n`. -/
def Touches (text : Text) (fuel : Nat) (model : BuildResult) (n : String) (object : String × Int) : Prop :=
  ∃ mappings, contribution fuel model object = some mappings ∧ n ∈ (relabel text mappings).map Prod.fst

theorem resolveObjects_untouched {objects : List (String × Int)} {before after : Resolution} {n : String}
    (done : resolveObjects text fuel model objects before = some after)
    (none_touches : ∀ object ∈ objects, ¬ Touches text fuel model n object) :
    after.nodeToElementId.get? n = before.nodeToElementId.get? n := by
  induction objects generalizing before with
  | nil => cases done; rfl
  | cons object objects ih =>
      obtain ⟨middle, first, rest⟩ := Option.bind_eq_some_iff.mp done
      obtain ⟨mappings, contributed, labels⟩ := resolveObject_label first
      rw [ih rest fun other m => none_touches other (List.mem_cons_of_mem _ m), labels, Dict.get?_update]
      have absent : (relabel text mappings).reverse.lookup n = none := by
        rw [lookup_eq_none, List.map_reverse, List.mem_reverse]
        exact fun m => none_touches object List.mem_cons_self ⟨mappings, contributed, m⟩
      rw [absent, Option.none_or]

theorem resolveObjects_label {before : List (String × Int)} {object : String × Int}
    {later : List (String × Int)} {start after : Resolution} {n : String}
    (done : resolveObjects text fuel model (before ++ object :: later) start = some after)
    (none_touches : ∀ other ∈ later, ¬ Touches text fuel model n other) {mappings : Dict String String}
    (contributed : contribution fuel model object = some mappings)
    (touched : n ∈ (relabel text mappings).map Prod.fst) :
    after.nodeToElementId.get? n = (relabel text mappings).reverse.lookup n := by
  induction before generalizing start with
  | nil =>
      obtain ⟨middle, first, rest⟩ := Option.bind_eq_some_iff.mp done
      obtain ⟨same, found, labels⟩ := resolveObject_label first
      cases contributed.symm.trans found
      rw [resolveObjects_untouched rest none_touches, labels, Dict.get?_update]
      cases written : (relabel text mappings).reverse.lookup n with
      | some e => rfl
      | none =>
          rw [lookup_eq_none, List.map_reverse, List.mem_reverse] at written
          exact absurd touched written
  | cons first before ih =>
      obtain ⟨middle, _, rest⟩ := Option.bind_eq_some_iff.mp done
      exact ih rest

theorem resolveObjects_contributes {objects : List (String × Int)} {before after : Resolution}
    (done : resolveObjects text fuel model objects before = some after) {object : String × Int}
    (m : object ∈ objects) : ∃ mappings, contribution fuel model object = some mappings :=
  (resolveObjects_isSome objects before).mp ⟨after, done⟩ object m

theorem exists_last {α : Type} {P : α → Prop} {xs : List α} (some_has : ∃ x ∈ xs, P x) :
    ∃ before x after, xs = before ++ x :: after ∧ P x ∧ ∀ y ∈ after, ¬ P y := by
  induction xs with
  | nil => obtain ⟨_, m, _⟩ := some_has; cases m
  | cons x xs ih =>
      by_cases later : ∃ y ∈ xs, P y
      · obtain ⟨before, y, after, rfl, here, none_after⟩ := ih later
        exact ⟨x :: before, y, after, rfl, here, none_after⟩
      · push Not at later
        obtain ⟨y, m, here⟩ := some_has
        rcases List.mem_cons.mp m with rfl | inside
        · exact ⟨[], y, xs, rfl, here, later⟩
        · exact absurd here (later y inside)

/-- The label that one object leaves at a source it maps is the source's own unless
a folded source is written there afterwards. -/
theorem relabel_last_iff {mappings : Dict String String} {n e : String} (own : mappings.get? n = some e)
    (only : ∀ s, mappings.get? s = some e → s = n) :
    (relabel text mappings).reverse.lookup n = some e ↔
      ∀ s ∈ mappings.keys, s ≠ n → text.lower s = n → text.lower n = n ∧ Precedes mappings.keys s n := by
  have exact_ : mappings.entries.reverse.lookup n = some e := by
    rw [lookup_eq_some _ (by rw [List.map_reverse, List.nodup_reverse]; exact mappings.nodup), List.mem_reverse]
    exact (mappings.mem_entries n e).mpr own
  by_cases folded : ∃ entry ∈ mappings.entries, text.lower entry.1 = n
  · obtain ⟨before, ⟨s, e'⟩, after, split, hit, none_after⟩ := exists_last folded
    have entry : mappings.get? s = some e' :=
      (mappings.mem_entries s e').mp (split ▸ List.mem_append_right _ List.mem_cons_self)
    have last : (relabel text mappings).reverse.lookup n = some e' := by
      have skipped : (after.map fun entry => (text.lower entry.1, entry.2)).reverse.lookup n = none := by
        rw [lookup_eq_none, List.map_reverse, List.mem_reverse, List.map_map]
        rintro again
        obtain ⟨entry, m, same⟩ := List.mem_map.mp again
        exact none_after entry m same
      rw [relabel, split, List.map_append, List.map_cons, List.reverse_append, List.reverse_append,
        List.reverse_cons, List.append_assoc, List.append_assoc, List.lookup_append, skipped, Option.none_or,
        List.singleton_append, lookup_cons_ite, if_pos hit.symm]
    have keys : mappings.keys = before.map Prod.fst ++ s :: after.map Prod.fst := by
      rw [Dict.keys, split, List.map_append, List.map_cons]
    have nodup : (before.map Prod.fst ++ s :: after.map Prod.fst).Nodup := keys ▸ mappings.nodup
    have skips {t : String} (m : t ∈ after.map Prod.fst) : text.lower t ≠ n := by
      obtain ⟨entry, inside, rfl⟩ := List.mem_map.mp m
      exact none_after entry inside
    rw [last]
    constructor
    · intro same t m other fold
      rw [Option.some.inj same] at entry
      cases only s entry
      refine ⟨hit, ?_⟩
      rw [keys] at m ⊢
      rcases List.mem_append.mp m with inside | inside
      · exact (precedes_iff_of_nodup nodup).mpr inside
      · rcases List.mem_cons.mp inside with same | inside
        · exact absurd same other
        · exact absurd fold (skips inside)
    · intro all
      by_cases same : s = n
      · rw [← entry, same, own]
      · have here : s ∈ mappings.keys := (mappings.mem_keys s).mpr ⟨e', entry⟩
        obtain ⟨fixed, before_n⟩ := all s here same hit
        have n_here : n ∈ mappings.keys := (mappings.mem_keys n).mpr ⟨e, own⟩
        rw [keys] at before_n n_here
        refine absurd ((precedes_iff_of_nodup nodup).mpr ?_) before_n.asymm
        rcases List.mem_append.mp n_here with inside | inside
        · exact inside
        · rcases List.mem_cons.mp inside with eq | inside
          · exact absurd eq.symm same
          · exact absurd fixed (skips inside)
  · push Not at folded
    refine iff_of_true ?_ fun s m _ fold => ?_
    · have skipped : (mappings.entries.map fun entry => (text.lower entry.1, entry.2)).reverse.lookup n = none := by
        rw [lookup_eq_none, List.map_reverse, List.mem_reverse, List.map_map]
        rintro again
        obtain ⟨entry, m, same⟩ := List.mem_map.mp again
        exact folded entry m same
      rw [relabel, List.reverse_append, List.lookup_append, skipped, Option.none_or, exact_]
    · obtain ⟨e', found⟩ := (mappings.mem_keys s).mp m
      exact absurd fold (folded _ ((mappings.mem_entries s e').mpr found))

end

/-! ## When a label is right -/

/-- The object covers the property and leaves it its label: every other property
below it whose folded source is this one's source is met before it, and this one
writes its own folded source again. -/
def KeepsLabel (text : Text) (model : BuildResult) (node : ModelNode) (object : String × Int) : Prop :=
  ∃ root, registeredNode model object.1 = some root ∧ PropertyUnder model root object.2 node ∧
    ∀ other, PropertyUnder model root object.2 other → other ≠ node →
      text.lower other.sourceNodeId = node.sourceNodeId →
        text.lower node.sourceNodeId = node.sourceNodeId ∧ MetBefore model root object.2 other node

/-- The object covers neither the property nor one whose folded source is its source. -/
def LeavesLabel (text : Text) (model : BuildResult) (node : ModelNode) (object : String × Int) : Prop :=
  ∀ root, registeredNode model object.1 = some root → ∀ other, PropertyUnder model root object.2 other →
    other ≠ node ∧ text.lower other.sourceNodeId ≠ node.sourceNodeId

/-- One registered object keeps the label of the property and the later ones leave it. -/
def LabelSettled (text : Text) (model : BuildResult) (objects : Dict String Int) (node : ModelNode) : Prop :=
  ∃ before object after, objects.entries = before ++ object :: after ∧ KeepsLabel text model node object ∧
    ∀ later ∈ after, LeavesLabel text model node later

/-- Every registered object is an element of the model. -/
def OfModel (model : BuildResult) (objects : Dict String Int) : Prop :=
  ∀ id ∈ objects.keys, id ∈ model.nodesById.keys

section
variable {text : Text} {fuel : Nat} {model : BuildResult} {objects : Dict String Int} {resolution : Resolution}

theorem OfModel.registered (known : OfModel model objects) (keyed : model.KeyedById) {object : String × Int}
    (m : object ∈ objects.entries) : ∃ root, registeredNode model object.1 = some root ∧
      model.nodesById.get? root.id = some root ∧ root.id = object.1 := by
  obtain ⟨root, found⟩ := (Dict.mem_keys _ _).mp (known object.1 (List.mem_map_of_mem m))
  have same : root.id = object.1 := keyed _ _ found
  refine ⟨root, ?_, same ▸ found, same⟩
  rw [registeredNode, found]

/-- What the mappings of an object hold for a property of the model. -/
theorem mappings_own (keyed : model.KeyedById) (distinct : model.SourcesDistinct) {root : ModelNode}
    (inside : root ∈ model.nodes) {maxDepth : Int} {mappings : Dict String String}
    (done : collectPropertySourceMappings fuel model root maxDepth = some mappings) {node : ModelNode}
    (known : node ∈ model.nodes) :
    (PropertyUnder model root maxDepth node ↔ mappings.get? node.sourceNodeId = some node.id) ∧
      ∀ s, mappings.get? s = some node.id → s = node.sourceNodeId := by
  have back {s : String} (found : mappings.get? s = some node.id) :
      PropertyUnder model root maxDepth node ∧ s = node.sourceNodeId := by
    obtain ⟨other, under, source, id⟩ := collect_entries done found
    have first := keyed.get?_id (under.mem inside).1
    rw [id, keyed.get?_id known, Option.some.injEq] at first
    subst first
    exact ⟨under, source.symm⟩
  refine ⟨⟨fun under => ?_, fun found => (back found).1⟩, fun s found => (back found).2⟩
  obtain ⟨e, found⟩ := (mappings.mem_keys _).mp ((collect_keys done _).mpr ⟨node, under, rfl⟩)
  obtain ⟨other, below, source, id⟩ := collect_entries done found
  rw [found, ← id, distinct other (below.mem inside).1 node known source]

theorem touches_iff (known : OfModel model objects) (keyed : model.KeyedById) (distinct : model.SourcesDistinct)
    {object : String × Int} (m : object ∈ objects.entries) {mappings : Dict String String}
    (contributed : contribution fuel model object = some mappings) {node : ModelNode} (inside : node ∈ model.nodes) :
    LeavesLabel text model node object ↔ ¬ Touches text fuel model node.sourceNodeId object := by
  obtain ⟨root, registered, present, _⟩ := known.registered keyed m
  have rooted : root ∈ model.nodes := (model.mem_nodes root).mpr ⟨_, present⟩
  have done : collectPropertySourceMappings fuel model root object.2 = some mappings := by
    rw [contribution, registered] at contributed
    exact contributed
  have touches : Touches text fuel model node.sourceNodeId object ↔
      ∃ other, PropertyUnder model root object.2 other ∧
        (other = node ∨ text.lower other.sourceNodeId = node.sourceNodeId) := by
    rw [Touches]
    simp only [contributed, Option.some.injEq, exists_eq_left', mem_relabel_keys, collect_keys done]
    constructor
    · rintro (⟨other, under, source⟩ | ⟨s, ⟨other, under, rfl⟩, folded⟩)
      · exact ⟨other, under, Or.inl (distinct other (under.mem rooted).1 node inside source)⟩
      · exact ⟨other, under, Or.inr folded⟩
    · rintro ⟨other, under, rfl | folded⟩
      · exact Or.inl ⟨other, under, rfl⟩
      · exact Or.inr ⟨_, ⟨other, under, rfl⟩, folded⟩
  rw [touches]
  constructor
  · rintro leaves ⟨other, under, same | folded⟩
    · exact (leaves root registered other under).1 same
    · exact (leaves root registered other under).2 folded
  · intro none_touches other_root found other under
    cases registered.symm.trans found
    exact ⟨fun same => none_touches ⟨other, under, Or.inl same⟩,
      fun folded => none_touches ⟨other, under, Or.inr folded⟩⟩

/-- The label under a property's source is its own id exactly when it is settled. -/
theorem label_own_iff (known : OfModel model objects) (keyed : model.KeyedById) (distinct : model.SourcesDistinct)
    (done : resolveMonitoredNodeIds text fuel objects model = some resolution) {node : ModelNode}
    (inside : node ∈ model.nodes) (monitored : node.sourceNodeId ∈ resolution.nodeIds) :
    resolution.nodeToElementId.get? node.sourceNodeId = some node.id ↔ LabelSettled text model objects node := by
  have keeps {object : String × Int} (m : object ∈ objects.entries) {mappings : Dict String String}
      (contributed : contribution fuel model object = some mappings) :
      KeepsLabel text model node object ↔ (relabel text mappings).reverse.lookup node.sourceNodeId = some node.id := by
    obtain ⟨root, registered, present, _⟩ := known.registered keyed m
    have rooted : root ∈ model.nodes := (model.mem_nodes root).mpr ⟨_, present⟩
    have collected : collectPropertySourceMappings fuel model root object.2 = some mappings := by
      rw [contribution, registered] at contributed
      exact contributed
    obtain ⟨own, only⟩ := mappings_own keyed distinct rooted collected inside
    have order {other : ModelNode} (under : PropertyUnder model root object.2 other) (different : other ≠ node) :=
      metBefore_iff distinct present collected under inside different
    constructor
    · rintro ⟨same, found, under, all⟩
      cases registered.symm.trans found
      refine (relabel_last_iff (own.mp under) only).mpr fun s here other folded => ?_
      obtain ⟨shadow, below, rfl⟩ := (collect_keys collected s).mp here
      have different : shadow ≠ node := fun eq => other (congrArg ModelNode.sourceNodeId eq)
      exact (all shadow below different folded).imp_right (order below different).mp
    · intro last
      have under : PropertyUnder model root object.2 node := by
        have written := lookup_mem last
        rw [List.mem_reverse, relabel, List.mem_append, List.mem_map] at written
        rcases written with entry | ⟨⟨s, e⟩, entry, same⟩
        · exact own.mpr ((mappings.mem_entries _ _).mp entry)
        · obtain ⟨_, rfl⟩ := Prod.mk.inj same
          have found := (mappings.mem_entries s node.id).mp entry
          exact own.mpr (only s found ▸ found)
      refine ⟨root, registered, under, fun other below different folded => ?_⟩
      have here := (collect_keys collected other.sourceNodeId).mpr ⟨other, below, rfl⟩
      have apart : other.sourceNodeId ≠ node.sourceNodeId :=
        fun same => different (distinct other (below.mem rooted).1 node inside same)
      exact ((relabel_last_iff (own.mp under) only).mp last _ here apart folded).imp_right
        (order below different).mpr
  constructor
  · intro label
    have touched : ∃ object ∈ objects.entries, Touches text fuel model node.sourceNodeId object := by
      obtain ⟨id, depth, there, mappings, contributed, here⟩ :=
        (mem_resolveMonitoredNodeIds done node.sourceNodeId).mp monitored
      exact ⟨(id, depth), (objects.mem_entries id depth).mpr there, mappings, contributed,
        (mem_relabel_keys _ _).mpr (Or.inl here)⟩
    obtain ⟨before, object, after, split, ⟨mappings, contributed, written⟩, none_after⟩ := exists_last touched
    have m : object ∈ objects.entries := split ▸ List.mem_append_right _ List.mem_cons_self
    refine ⟨before, object, after, split, ?_, fun later late => ?_⟩
    · rw [keeps m contributed, ← label]
      rw [resolveMonitoredNodeIds, split] at done
      exact (resolveObjects_label done none_after contributed written).symm
    · have there : later ∈ objects.entries :=
        split ▸ List.mem_append_right _ (List.mem_cons_of_mem _ late)
      obtain ⟨others, contributes⟩ := resolveObjects_contributes done there
      exact (touches_iff known keyed distinct there contributes inside).mpr (none_after later late)
  · rintro ⟨before, object, after, split, kept, leaves⟩
    have m : object ∈ objects.entries := split ▸ List.mem_append_right _ List.mem_cons_self
    obtain ⟨mappings, contributed⟩ := resolveObjects_contributes done m
    have none_after : ∀ later ∈ after, ¬ Touches text fuel model node.sourceNodeId later := by
      intro later late
      have there : later ∈ objects.entries :=
        split ▸ List.mem_append_right _ (List.mem_cons_of_mem _ late)
      obtain ⟨others, contributes⟩ := resolveObjects_contributes done there
      exact (touches_iff known keyed distinct there contributes inside).mp (leaves later late)
    have last := (keeps m contributed).mp kept
    rw [resolveMonitoredNodeIds, split] at done
    rw [resolveObjects_label done none_after contributed ?_, last]
    have written := List.mem_map_of_mem (f := Prod.fst) (lookup_mem last)
    rwa [List.map_reverse, List.mem_reverse] at written

end
/-! ## Every history of registrations -/

/-- A call that changes which objects a subscription has registered. -/
inductive MembershipCall where
  | registerItems (elementIds : List String) (maxDepth : Int)
  | unregisterItems (elementIds : List String)

namespace MembershipCall

def elementIds : MembershipCall → List String
  | .registerItems elementIds _ => elementIds
  | .unregisterItems elementIds => elementIds

def change : MembershipCall → Dict String Int → Dict String Int
  | .registerItems elementIds maxDepth, objects => registerObjects objects elementIds maxDepth
  | .unregisterItems elementIds, objects => unregisterObjects objects elementIds

/-- The call names elements of the model only. -/
def OfModel (model : BuildResult) (call : MembershipCall) : Prop :=
  ∀ id ∈ call.elementIds, id ∈ model.nodesById.keys

end MembershipCall

/-- The registered objects after the calls, from a new subscription. -/
def registeredAfter (calls : List MembershipCall) : Dict String Int :=
  calls.foldl (fun objects call => call.change objects) .empty

/-- The subscription has its objects, nodes and labels from the calls. -/
structure Registration (settings : Settings V) (model : BuildResult) (calls : List MembershipCall)
    (state : SubscriptionState V) : Prop where
  objects : state.monitoredObjects = registeredAfter calls
  resolved : ∃ fuel, resolveMonitoredNodeIds settings.text fuel state.monitoredObjects model =
    some ⟨state.monitoredNodeIds, state.nodeToElementId⟩

/-- The element id is that of the property with this source. -/
def NamesProperty (model : BuildResult) (nodeId elementId : String) : Prop :=
  ∃ node ∈ model.nodes, node.kind = .property ∧ node.sourceNodeId = nodeId ∧ elementId = node.id

/-- Every update that the value can queue for the monitored node after the calls
is labelled with the property of that source. -/
def RightlyLabelled (settings : Settings V) (model : BuildResult) (calls : List MembershipCall)
    (nodeId : String) (value : V) : Prop :=
  ∀ state, Registration settings model calls state → nodeId ∈ state.monitoredNodeIds →
    ∀ now id update, .queued id update ∈ (appendUpdate settings now state nodeId value).2 →
      NamesProperty model nodeId update.elementId

/-- The label of the property with this source is settled, and a single registered
object whose property's id is the source itself is that property. -/
def LabelClear (text : Text) (model : BuildResult) (objects : Dict String Int) (nodeId : String) : Prop :=
  ∀ node ∈ model.nodes, node.kind = .property → node.sourceNodeId = nodeId →
    LabelSettled text model objects node ∧
      ∀ object, objects.keys = [object] → node.id = nodeId → object = node.id

section
variable {settings : Settings V} {model : BuildResult} {calls : List MembershipCall}

theorem registeredAfter_concat (calls : List MembershipCall) (call : MembershipCall) :
    registeredAfter (calls ++ [call]) = call.change (registeredAfter calls) := List.foldl_concat ..

/-- Every registered id was named by a call. -/
theorem registeredAfter_all {P : String → Prop} (each : ∀ call ∈ calls, ∀ id ∈ call.elementIds, P id) {id : String}
    {maxDepth : Int} (there : (registeredAfter calls).get? id = some maxDepth) : P id := by
  induction calls using List.reverseRecOn generalizing maxDepth with
  | nil => cases there
  | append_singleton calls call ih =>
      have before := fun other m => each other (List.mem_append_left _ m)
      have now := each call (List.mem_append_right _ (List.mem_singleton_self call))
      rw [registeredAfter_concat] at there
      cases call with
      | registerItems ids depth =>
          rw [MembershipCall.change, get?_registerObjects] at there
          by_cases inside : id ∈ ids
          · exact now id inside
          · rw [if_neg inside] at there
            exact ih before there
      | unregisterItems ids =>
          rw [MembershipCall.change, get?_unregisterObjects] at there
          by_cases inside : id ∈ ids
          · rw [if_pos inside] at there
            cases there
          · rw [if_neg inside] at there
            exact ih before there

theorem registeredAfter_ofModel (known : ∀ call ∈ calls, call.OfModel model) :
    OfModel model (registeredAfter calls) := by
  intro id m
  obtain ⟨maxDepth, there⟩ := (Dict.mem_keys _ _).mp m
  exact registeredAfter_all known there

/-- A monitored node is the source of a property that the model has. -/
theorem monitored_property {text : Text} {fuel : Nat} {objects : Dict String Int} {resolution : Resolution}
    (known : OfModel model objects) (keyed : model.KeyedById)
    (done : resolveMonitoredNodeIds text fuel objects model = some resolution) {nodeId : String}
    (monitored : nodeId ∈ resolution.nodeIds) :
    ∃ node ∈ model.nodes, node.kind = .property ∧ node.sourceNodeId = nodeId := by
  obtain ⟨id, depth, there, mappings, contributed, here⟩ :=
    (mem_resolveMonitoredNodeIds done nodeId).mp monitored
  obtain ⟨root, registered, present, _⟩ := known.registered keyed ((objects.mem_entries id depth).mpr there)
  rw [contribution, registered] at contributed
  obtain ⟨node, under, source⟩ := (collect_keys contributed nodeId).mp here
  have inside := under.mem ((model.mem_nodes root).mpr ⟨_, present⟩)
  exact ⟨node, inside.1, inside.2, source⟩

/-- The label of an update comes from the table of labels, and from the only
registered object where the table gives the node id itself. -/
theorem labelFor_of_found (settings : Settings V) {state : SubscriptionState V} {nodeId e : String}
    (found : state.nodeToElementId.get? nodeId = some e) :
    (∃ object, state.monitoredObjects.keys = [object] ∧ e = nodeId ∧ labelFor settings state nodeId = object) ∨
    ((∀ object, state.monitoredObjects.keys = [object] → e ≠ nodeId) ∧ labelFor settings state nodeId = e) := by
  unfold labelFor
  simp only [found]
  split
  · rename_i object single
    by_cases same : e = nodeId
    · exact Or.inl ⟨object, single, same, if_pos same⟩
    · exact Or.inr ⟨fun _ _ => same, if_neg same⟩
  · rename_i several
    exact Or.inr ⟨fun object single => absurd single (several object), rfl⟩

theorem label_found {text : Text} {fuel : Nat} {objects : Dict String Int} {resolution : Resolution}
    (done : resolveMonitoredNodeIds text fuel objects model = some resolution) {nodeId : String}
    (monitored : nodeId ∈ resolution.nodeIds) : ∃ e, resolution.nodeToElementId.get? nodeId = some e := by
  obtain ⟨id, depth, there, mappings, contributed, here⟩ :=
    (mem_resolveMonitoredNodeIds done nodeId).mp monitored
  obtain ⟨before, object, after, split, ⟨maps, contributes, written⟩, none_after⟩ :=
    exists_last (P := Touches text fuel model nodeId) ⟨(id, depth), (objects.mem_entries id depth).mpr there,
      mappings, contributed, (mem_relabel_keys _ _).mpr (Or.inl here)⟩
  rw [resolveMonitoredNodeIds, split] at done
  rw [resolveObjects_label done none_after contributes written]
  cases last : (relabel text maps).reverse.lookup nodeId with
  | some e => exact ⟨e, rfl⟩
  | none =>
      rw [lookup_eq_none, List.map_reverse, List.mem_reverse] at last
      exact absurd written last

/-- A property that is itself the only registered object has its own label. -/
theorem settled_of_single {text : Text} {objects : Dict String Int} (keyed : model.KeyedById) {node : ModelNode}
    (inside : node ∈ model.nodes) (kind : node.kind = .property) (single : objects.keys = [node.id]) :
    LabelSettled text model objects node := by
  obtain ⟨⟨id, depth⟩, split, same⟩ := List.map_eq_singleton_iff.mp single
  cases same
  have registered : registeredNode model node.id = some node := by
    rw [registeredNode, keyed.get?_id inside]
  refine ⟨[], (node.id, depth), [], split, ⟨node, registered, ?_, fun other under different => ?_⟩, fun _ => nofun⟩
  · exact (if_pos kind).mpr rfl
  · exact absurd ((if_pos kind).mp under) different

theorem appendUpdate_queued {state : SubscriptionState V} {now : Nat} {nodeId : String} {value : V}
    {id : SubscriptionId} {update : SubscriptionUpdate V}
    (queued : .queued id update ∈ (appendUpdate settings now state nodeId value).2) :
    update.elementId = labelFor settings state nodeId ∧ update.nodeId = nodeId := by
  unfold appendUpdate at queued
  dsimp only at queued
  split at queued
  · cases queued
  · unfold pushNotes at queued
    split at queued
    · cases List.mem_singleton.mp queued
      exact ⟨rfl, rfl⟩
    · rcases List.mem_cons.mp queued with evicted | pushed
      · cases evicted
      · cases List.mem_singleton.mp pushed
        exact ⟨rfl, rfl⟩

/-- In a registered state the label of a monitored node names its property exactly
when the label is clear. -/
theorem labelFor_names_iff (keyed : model.KeyedById) (distinct : model.SourcesDistinct)
    (known : ∀ call ∈ calls, call.OfModel model) {state : SubscriptionState V}
    (registration : Registration settings model calls state) {nodeId : String}
    (monitored : nodeId ∈ state.monitoredNodeIds) :
    NamesProperty model nodeId (labelFor settings state nodeId) ↔
      LabelClear settings.text model (registeredAfter calls) nodeId := by
  obtain ⟨fuel, done⟩ := registration.resolved
  rw [registration.objects] at done
  have ofModel := registeredAfter_ofModel known
  obtain ⟨node, inside, kind, source⟩ := monitored_property ofModel keyed done monitored
  have only : ∀ other ∈ model.nodes, other.sourceNodeId = nodeId → other = node :=
    fun other m same => distinct other m node inside (same.trans source.symm)
  have names (e : String) : NamesProperty model nodeId e ↔ e = node.id := by
    constructor
    · rintro ⟨other, m, _, same, rfl⟩
      rw [only other m same]
    · exact fun same => ⟨node, inside, kind, source, same⟩
  have clear : LabelClear settings.text model (registeredAfter calls) nodeId ↔
      state.nodeToElementId.get? nodeId = some node.id ∧
        ∀ object, (registeredAfter calls).keys = [object] → node.id = nodeId → object = node.id := by
    rw [← source, label_own_iff ofModel keyed distinct done inside (source ▸ monitored), source]
    constructor
    · exact fun all => all node inside kind source
    · intro holds other m _ same
      rw [only other m same]
      exact holds
  obtain ⟨e, found⟩ : ∃ e, state.nodeToElementId.get? nodeId = some e := label_found done monitored
  rw [clear, found, Option.some.injEq, ← registration.objects]
  rcases labelFor_of_found settings found with ⟨object, single, same, label⟩ | ⟨apart, label⟩
  · rw [label, names]
    constructor
    · intro own
      have settled : LabelSettled settings.text model (registeredAfter calls) node :=
        settled_of_single keyed inside kind (by rw [← registration.objects, single, own])
      have there := (label_own_iff ofModel keyed distinct done inside (source ▸ monitored)).mpr settled
      rw [source] at there
      refine ⟨Option.some.inj (found.symm.trans there), fun other alone _ => ?_⟩
      cases single.symm.trans alone
      exact own
    · rintro ⟨own, alone⟩
      exact alone object single (own.symm.trans same)
  · rw [label, names]
    refine ⟨fun own => ⟨own, fun object single here => ?_⟩, And.left⟩
    exact absurd (own.trans here) (apart object single)

/-- After any calls that name elements of a built model, the updates for a
monitored node are labelled with its property exactly when the label is clear. -/
theorem rightlyLabelled_iff (settings : Settings V) (identity : Identity) (opcNodes : List OpcUaNodeInfo)
    (calls : List MembershipCall)
    (known : ∀ call ∈ calls, call.OfModel (ModelBuilder.build identity opcNodes)) {fuel : Nat}
    {resolution : Resolution}
    (done : resolveMonitoredNodeIds settings.text fuel (registeredAfter calls)
      (ModelBuilder.build identity opcNodes) = some resolution)
    {nodeId : String} (monitored : nodeId ∈ resolution.nodeIds) (value : V) :
    RightlyLabelled settings (ModelBuilder.build identity opcNodes) calls nodeId value ↔
      LabelClear settings.text (ModelBuilder.build identity opcNodes) (registeredAfter calls) nodeId := by
  have keyed := ModelBuilder.build_keyed identity opcNodes
  have distinct := ModelBuilder.build_sourcesDistinct identity opcNodes
  constructor
  · intro right
    let state : SubscriptionState V :=
      { newSubscription 0 none none 0 with
        monitoredObjects := registeredAfter calls
        monitoredNodeIds := resolution.nodeIds
        nodeToElementId := resolution.nodeToElementId }
    have registration : Registration settings (ModelBuilder.build identity opcNodes) calls state :=
      ⟨rfl, fuel, done⟩
    refine (labelFor_names_iff keyed distinct known registration monitored).mp ?_
    have room : overflowing settings state = none := if_neg (Nat.not_le_of_lt settings.maxUpdates_pos)
    refine right state registration monitored 0 state.subscriptionId
      (nextUpdate settings 0 state nodeId (settings.values.normalizeOpcuaValue value)) ?_
    have fresh : isCurrent settings state nodeId (settings.values.normalizeOpcuaValue value) = false := rfl
    rw [appendUpdate]
    simp only [fresh, Bool.false_eq_true, if_false, pushNotes, room]
    exact List.mem_singleton_self _
  · intro clear state registration here now id update queued
    rw [(appendUpdate_queued queued).1]
    exact (labelFor_names_iff keyed distinct known registration here).mpr clear

end

def inletA : String := "property-9f6bda939af951cf"
def inletB : String := "property-a0ed2a9513fbdeaf"

theorem inlets_ofModel : ∀ call ∈ [MembershipCall.registerItems [inletA, inletB] 1],
    call.OfModel ModelBuilder.inlets := by
  intro call m
  cases List.mem_singleton.mp m
  exact (by decide : ∀ id ∈ [inletA, inletB], id ∈ ModelBuilder.inlets.nodesById.keys)

/-- The labels of a subscription that registered both inlets. -/
def bothInlets : Resolution where
  nodeIds := {"ns=2;s=abc", "ns=2;s=ABC"}
  nodeToElementId := Dict.ofList [("ns=2;s=abc", inletB), ("ns=2;s=ABC", inletB)]

theorem bothInlets_resolved : resolveMonitoredNodeIds Text.ascii 4
    (registeredAfter [.registerItems [inletA, inletB] 1]) ModelBuilder.inlets = some bothInlets := by
  rfl

theorem rightlyLabelled_iff_upper :
    RightlyLabelled smallServer ModelBuilder.inlets [.registerItems [inletA, inletB] 1] "ns=2;s=ABC" 5 ↔
      LabelClear Text.ascii ModelBuilder.inlets (registeredAfter [.registerItems [inletA, inletB] 1])
        "ns=2;s=ABC" :=
  rightlyLabelled_iff smallServer ModelBuilder.inletIdentity _ _ inlets_ofModel bothInlets_resolved
    (by decide) 5

/-- With both inlets registered, the updates of the first are labelled as the second's. -/
theorem rightlyLabelled_fails_on_case_variant :
    ¬ RightlyLabelled smallServer ModelBuilder.inlets [.registerItems [inletA, inletB] 1] "ns=2;s=abc" 5 := by
  intro right
  let state : SubscriptionState Int :=
    { newSubscription 0 none none 0 with
      monitoredObjects := registeredAfter [.registerItems [inletA, inletB] 1]
      monitoredNodeIds := bothInlets.nodeIds
      nodeToElementId := bothInlets.nodeToElementId }
  have registration : Registration smallServer ModelBuilder.inlets [.registerItems [inletA, inletB] 1] state :=
    ⟨rfl, 4, bothInlets_resolved⟩
  obtain ⟨node, inside, _, source, same⟩ := right state registration (by decide) 0 0
    (nextUpdate smallServer 0 state "ns=2;s=abc" 5) (List.mem_singleton_self _)
  have label : labelFor smallServer state "ns=2;s=abc" = inletB := by decide
  have own : ∀ other ∈ ModelBuilder.inlets.nodes, other.sourceNodeId = "ns=2;s=abc" → other.id = inletA := by
    decide
  rw [show (nextUpdate smallServer 0 state "ns=2;s=abc" 5).elementId = inletB from label,
    own node inside source] at same
  exact absurd same (by decide)

end I3x.Subscriptions

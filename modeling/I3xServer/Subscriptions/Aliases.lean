import I3xServer.Api.ObjectLookup
import I3xServer.Subscriptions.Labels

/-!
# Validated ids and registered ids

The route validates ids with the lookup that also knows names, types and folded
source ids; the service resolves the ids it is given by element id and exact
source id only, and forgets an object under the spelling it was registered with.
-/
namespace I3x.Subscriptions
open Container Api
variable {V : Type}

/-- The source belongs to a property under the root within the depth. -/
def CoversSource (model : BuildResult) (root : ModelNode) (maxDepth : Int) (n : String) : Prop :=
  ∃ node, PropertyUnder model root maxDepth node ∧ node.sourceNodeId = n

/-- The children below the root form no cycle within the depth. -/
def FiniteBelow (model : BuildResult) (root : ModelNode) (maxDepth : Int) : Prop :=
  root.kind = .property ∨ ∃ k, level (expand model maxDepth.toNat) k [(root.id, 0)] = []

section
variable {model : BuildResult}

theorem collect_done_iff (root : ModelNode) (maxDepth : Int) :
    (∃ fuel mappings, collectPropertySourceMappings fuel model root maxDepth = some mappings) ↔
      FiniteBelow model root maxDepth := by
  unfold collectPropertySourceMappings FiniteBelow
  by_cases kind : root.kind = .property
  · simp only [kind, if_true, true_or, iff_true]
    exact ⟨0, _, rfl⟩
  · simp only [kind, if_false, false_or, ← traverse_done_iff, walk_eq_traverse, Option.map_eq_some_iff]
    constructor
    · rintro ⟨fuel, _, order, visited, _⟩
      exact ⟨fuel, order, visited⟩
    · rintro ⟨fuel, order, visited⟩
      exact ⟨fuel, _, order, visited, rfl⟩

theorem contribution_mono {fuel more : Nat} {object : String × Int} {mappings : Dict String String}
    (done : contribution fuel model object = some mappings) (enough : fuel ≤ more) :
    contribution more model object = some mappings := by
  unfold contribution at done ⊢
  cases registered : registeredNode model object.1 with
  | none => rwa [registered] at done
  | some node =>
      rw [registered] at done
      simp only [collectPropertySourceMappings] at done ⊢
      split_ifs at done ⊢
      · exact done
      · exact walk_mono done enough

theorem contribution_unique {fuel fuel' : Nat} {object : String × Int} {first second : Dict String String}
    (done : contribution fuel model object = some first) (again : contribution fuel' model object = some second) :
    first = second := by
  have one := contribution_mono done (Nat.le_max_left fuel fuel')
  have two := contribution_mono again (Nat.le_max_right fuel fuel')
  exact Option.some.inj (one.symm.trans two)

/-- The object makes its subscription monitor the node. -/
def Contributes (model : BuildResult) (object : String × Int) (n : String) : Prop :=
  ∃ fuel mappings, contribution fuel model object = some mappings ∧ n ∈ mappings.keys

def Resolves (model : BuildResult) (object : String × Int) : Prop :=
  ∃ fuel mappings, contribution fuel model object = some mappings

theorem resolves_of_node {object : String × Int} {node : ModelNode}
    (registered : registeredNode model object.1 = some node) :
    Resolves model object ↔ FiniteBelow model node object.2 := by
  rw [← collect_done_iff, Resolves]
  simp only [contribution, registered]

theorem contributes_of_node {object : String × Int} {node : ModelNode}
    (registered : registeredNode model object.1 = some node) (finite : FiniteBelow model node object.2)
    (n : String) : Contributes model object n ↔ CoversSource model node object.2 n := by
  constructor
  · rintro ⟨fuel, mappings, done, inside⟩
    rw [contribution, registered] at done
    exact (collect_keys done n).mp inside
  · intro covers
    obtain ⟨fuel, mappings, done⟩ := (resolves_of_node registered).mpr finite
    refine ⟨fuel, mappings, done, ?_⟩
    rw [contribution, registered] at done
    exact (collect_keys done n).mpr covers

/-- An id that stands for no node is monitored as it is written. -/
theorem contributes_raw {object : String × Int} (unknown : registeredNode model object.1 = none) (n : String) :
    Contributes model object n ↔ n = object.1 := by
  simp only [Contributes, contribution, unknown, Option.some.injEq, exists_eq_left', Dict.keys_set,
    exists_const]
  exact or_iff_left List.not_mem_nil

theorem registeredNode_of_source {node : ModelNode} (inside : node ∈ model.nodes) :
    ∃ other, registeredNode model node.sourceNodeId = some other := by
  unfold registeredNode
  cases model.nodesById.get? node.sourceNodeId with
  | some other => exact ⟨other, rfl⟩
  | none =>
      refine (Dict.mem_keys _ _).mp ((Dict.keys_update _ _ _).mpr (Or.inr ?_))
      rw [List.map_map]
      exact List.mem_map_of_mem inside

/-- Objects that each resolve do so with one amount of fuel. -/
theorem resolves_together {objects : List (String × Int)} (each : ∀ object ∈ objects, Resolves model object) :
    ∃ fuel, ∀ object ∈ objects, ∃ mappings, contribution fuel model object = some mappings := by
  induction objects with
  | nil => exact ⟨0, fun _ => nofun⟩
  | cons object objects ih =>
      obtain ⟨fuel, mappings, done⟩ := each object List.mem_cons_self
      obtain ⟨more, rest⟩ := ih fun other m => each other (List.mem_cons_of_mem _ m)
      refine ⟨max fuel more, fun other m => ?_⟩
      rcases List.mem_cons.mp m with rfl | later
      · exact ⟨mappings, contribution_mono done (Nat.le_max_left _ _)⟩
      · obtain ⟨others, found⟩ := rest other later
        exact ⟨others, contribution_mono found (Nat.le_max_right _ _)⟩

end

/-! ## States after calls -/

section
variable {settings : Settings V} {model : BuildResult} {calls : List MembershipCall}

/-- The calls return, and leave a registered state, when every object resolves. -/
theorem registration_iff : (∃ state : SubscriptionState V, Registration settings model calls state) ↔
    ∀ id maxDepth, (registeredAfter calls).get? id = some maxDepth → Resolves model (id, maxDepth) := by
  constructor
  · rintro ⟨state, objects, fuel, done⟩ id maxDepth found
    rw [← objects] at found
    exact ⟨fuel, (resolveMonitoredNodeIds_isSome _).mp ⟨_, done⟩ id maxDepth found⟩
  · intro each
    obtain ⟨fuel, all⟩ := resolves_together fun object m =>
      each object.1 object.2 (((registeredAfter calls).mem_entries _ _).mp m)
    obtain ⟨resolution, done⟩ : ∃ resolution,
        resolveMonitoredNodeIds settings.text fuel (registeredAfter calls) model = some resolution :=
      (resolveMonitoredNodeIds_isSome _).mpr
      fun id maxDepth found => all (id, maxDepth) ((Dict.mem_entries _ _ _).mpr found)
    exact ⟨{ newSubscription 0 none none 0 with
      monitoredObjects := registeredAfter calls
      monitoredNodeIds := resolution.nodeIds
      nodeToElementId := resolution.nodeToElementId }, rfl, fuel, done⟩

theorem Registration.monitors_iff {state : SubscriptionState V}
    (registration : Registration settings model calls state) (n : String) :
    n ∈ state.monitoredNodeIds ↔
      ∃ id maxDepth, (registeredAfter calls).get? id = some maxDepth ∧ Contributes model (id, maxDepth) n := by
  obtain ⟨objects, fuel, done⟩ := registration
  rw [objects] at done
  refine (mem_resolveMonitoredNodeIds done n).trans ?_
  constructor
  · rintro ⟨id, maxDepth, found, mappings, contributed, inside⟩
    exact ⟨id, maxDepth, found, fuel, mappings, contributed, inside⟩
  · rintro ⟨id, maxDepth, found, other, mappings, contributed, inside⟩
    obtain ⟨same, again⟩ := (resolveMonitoredNodeIds_isSome _).mp ⟨_, done⟩ id maxDepth found
    cases contribution_unique contributed again
    exact ⟨id, maxDepth, found, _, again, inside⟩

end

/-- A subscription that registers the id alone monitors the node. -/
def MonitorsAlone (settings : Settings V) (model : BuildResult) (id : String) (maxDepth : Int) (n : String) : Prop :=
  ∃ state : SubscriptionState V,
    Registration settings model [.registerItems [id] maxDepth] state ∧ n ∈ state.monitoredNodeIds

/-- The call names ids that validation accepts only. -/
def MembershipCall.Accepted (text : Text) (model : BuildResult) (call : MembershipCall) : Prop :=
  ∀ id ∈ call.elementIds, ∃ node, findModelNode text model id = some node

/-- The node's source is covered by a registered id that stands for another node. -/
def CoveredByOther (text : Text) (model : BuildResult) (objects : Dict String Int) (node : ModelNode) (n : String) :
    Prop :=
  ∃ other maxDepth covering, objects.get? other = some maxDepth ∧
    findModelNode text model other = some covering ∧ covering ≠ node ∧ CoversSource model covering maxDepth n

/-- Registration and removal follow the nodes that validation found: each id
monitors the sources under its node, a subscription what its ids monitor, and
after the spelling is unregistered a source of its node stays for another element only. -/
structure ResolvesAccepted (settings : Settings V) (model : BuildResult) (calls : List MembershipCall)
    (spelling : String) : Prop where
  registered : ∀ id maxDepth, (registeredAfter calls).get? id = some maxDepth →
    ∀ node, findModelNode settings.text model id = some node →
      (∃ state : SubscriptionState V, Registration settings model [.registerItems [id] maxDepth] state) ∧
        ∀ n, MonitorsAlone settings model id maxDepth n ↔ CoversSource model node maxDepth n
  together : ∀ state : SubscriptionState V, Registration settings model calls state →
    ∀ n, n ∈ state.monitoredNodeIds ↔ ∃ id maxDepth, (registeredAfter calls).get? id = some maxDepth ∧
      MonitorsAlone settings model id maxDepth n
  unregistered : ∀ node, findModelNode settings.text model spelling = some node →
    ∀ state : SubscriptionState V, Registration settings model (calls ++ [.unregisterItems [spelling]]) state →
      ∀ n ∈ state.monitoredNodeIds,
        (∃ id maxDepth, (registeredAfter calls).get? id = some maxDepth ∧
          findModelNode settings.text model id = some node ∧ CoversSource model node maxDepth n) →
          CoveredByOther settings.text model (registeredAfter (calls ++ [.unregisterItems [spelling]])) node n

/-- Every registered id is an element id or exact source id of a node with a finite
walk that covers what the validated node covers, and what other spellings of the
spelling's node cover is covered by another element as well. -/
structure SpelledPlainly (text : Text) (model : BuildResult) (objects : Dict String Int) (spelling : String) : Prop where
  named : ∀ id maxDepth, objects.get? id = some maxDepth →
    ∃ node, registeredNode model id = some node ∧ FiniteBelow model node maxDepth ∧
      ∀ found, findModelNode text model id = some found →
        ∀ n, CoversSource model node maxDepth n ↔ CoversSource model found maxDepth n
  alone : ∀ node, findModelNode text model spelling = some node →
    ∀ id maxDepth, objects.get? id = some maxDepth → id ≠ spelling → findModelNode text model id = some node →
      ∀ n, CoversSource model node maxDepth n → CoveredByOther text model (objects.erase spelling) node n

section
variable {settings : Settings V} {model : BuildResult} {calls : List MembershipCall}

theorem get?_single (id other : String) (maxDepth : Int) :
    (registeredAfter [.registerItems [id] maxDepth]).get? other = if other = id then some maxDepth else none :=
  Dict.get?_set _ _ _ _

theorem registersAlone_iff (id : String) (maxDepth : Int) :
    (∃ state : SubscriptionState V, Registration settings model [.registerItems [id] maxDepth] state) ↔
      Resolves model (id, maxDepth) := by
  rw [registration_iff]
  constructor
  · exact fun all => all id maxDepth (by rw [get?_single, if_pos rfl])
  · intro resolves other depth found
    rw [get?_single] at found
    split_ifs at found with same
    cases found
    exact same ▸ resolves

theorem monitorsAlone_iff (id : String) (maxDepth : Int) (n : String) :
    MonitorsAlone settings model id maxDepth n ↔ Contributes model (id, maxDepth) n := by
  constructor
  · rintro ⟨state, registration, inside⟩
    obtain ⟨other, depth, found, contributes⟩ := (registration.monitors_iff n).mp inside
    rw [get?_single] at found
    split_ifs at found with same
    cases found
    exact same ▸ contributes
  · intro contributes
    have resolves : Resolves model (id, maxDepth) := by
      obtain ⟨fuel, mappings, done, _⟩ := contributes
      exact ⟨fuel, mappings, done⟩
    obtain ⟨state, registration⟩ := (registersAlone_iff id maxDepth).mpr resolves
    refine ⟨state, registration, (registration.monitors_iff n).mpr ⟨id, maxDepth, ?_, contributes⟩⟩
    rw [get?_single, if_pos rfl]

theorem registeredAfter_unregister (calls : List MembershipCall) (spelling : String) :
    registeredAfter (calls ++ [.unregisterItems [spelling]]) = (registeredAfter calls).erase spelling :=
  registeredAfter_concat calls _

theorem findModelNode_coveredSource {text : Text} {id : String} {node : ModelNode}
    (found : findModelNode text model id = some node) {maxDepth : Int} {n : String}
    (covers : CoversSource model node maxDepth n) : ∃ other, registeredNode model n = some other := by
  obtain ⟨covered, under, rfl⟩ := covers
  exact registeredNode_of_source (under.mem (findModelNode_mem found)).1

/-- After any calls with accepted ids, registration and removal follow validation
exactly when the registered ids are spelled plainly. -/
theorem resolvesAccepted_iff (settings : Settings V) (model : BuildResult) (calls : List MembershipCall)
    (accepted : ∀ call ∈ calls, call.Accepted settings.text model) (spelling : String) :
    ResolvesAccepted settings model calls spelling ↔
      SpelledPlainly settings.text model (registeredAfter calls) spelling := by
  have validated {id : String} {maxDepth : Int} (there : (registeredAfter calls).get? id = some maxDepth) :
      ∃ node, findModelNode settings.text model id = some node := registeredAfter_all accepted there
  constructor
  · intro resolved
    have named : ∀ id maxDepth, (registeredAfter calls).get? id = some maxDepth →
        ∃ node, registeredNode model id = some node ∧ FiniteBelow model node maxDepth ∧
          ∀ found, findModelNode settings.text model id = some found →
            ∀ n, CoversSource model node maxDepth n ↔ CoversSource model found maxDepth n := by
      intro id maxDepth there
      obtain ⟨found, isFound⟩ := validated there
      obtain ⟨registers, exactly⟩ := resolved.registered id maxDepth there found isFound
      have resolves := (registersAlone_iff id maxDepth).mp registers
      cases registered : registeredNode model id with
      | none =>
          -- the raw id is monitored, but no source under the validated node is unknown
          have raw : Contributes model (id, maxDepth) id ↔ id = id := contributes_raw registered id
          have covers := (exactly id).mp ((monitorsAlone_iff id maxDepth id).mpr (raw.mpr rfl))
          obtain ⟨other, known⟩ := findModelNode_coveredSource isFound covers
          cases registered.symm.trans known
      | some node =>
          have reaches : Resolves model (id, maxDepth) ↔ FiniteBelow model node maxDepth :=
            resolves_of_node registered
          have finite := reaches.mp resolves
          have sources : ∀ n, Contributes model (id, maxDepth) n ↔ CoversSource model node maxDepth n :=
            contributes_of_node registered finite
          refine ⟨node, rfl, finite, fun again isAgain n => ?_⟩
          cases isFound.symm.trans isAgain
          rw [← exactly n, monitorsAlone_iff]
          exact (sources n).symm
    refine ⟨named, fun node found id maxDepth there apart same n covers => ?_⟩
    have remains : (registeredAfter (calls ++ [.unregisterItems [spelling]])).get? id = some maxDepth := by
      rw [registeredAfter_unregister, Dict.get?_erase_ne _ apart]
      exact there
    obtain ⟨state, registration⟩ : ∃ state : SubscriptionState V,
        Registration settings model (calls ++ [.unregisterItems [spelling]]) state := by
      refine registration_iff.mpr fun other depth left => ?_
      rw [registeredAfter_unregister, Dict.get?_erase] at left
      split_ifs at left
      obtain ⟨covering, isCovering⟩ := validated left
      exact (registersAlone_iff other depth).mp (resolved.registered other depth left covering isCovering).1
    have monitored : n ∈ state.monitoredNodeIds := by
      refine (registration.monitors_iff n).mpr ⟨id, maxDepth, remains, ?_⟩
      exact (monitorsAlone_iff id maxDepth n).mp
        (((resolved.registered id maxDepth there node same).2 n).mpr covers)
    rw [← registeredAfter_unregister]
    exact resolved.unregistered node found state registration n monitored ⟨id, maxDepth, there, same, covers⟩
  · intro plain
    have exactly {id : String} {maxDepth : Int} (there : (registeredAfter calls).get? id = some maxDepth)
        {found : ModelNode} (isFound : findModelNode settings.text model id = some found) (n : String) :
        Contributes model (id, maxDepth) n ↔ CoversSource model found maxDepth n := by
      obtain ⟨node, registered, finite, agrees⟩ := plain.named id maxDepth there
      have sources : Contributes model (id, maxDepth) n ↔ CoversSource model node maxDepth n :=
        contributes_of_node registered finite n
      exact sources.trans (agrees found isFound n)
    refine ⟨fun id maxDepth there found isFound => ?_, fun state registration n => ?_, ?_⟩
    · obtain ⟨node, registered, finite, _⟩ := plain.named id maxDepth there
      refine ⟨(registersAlone_iff id maxDepth).mpr ((resolves_of_node registered).mpr finite), fun n => ?_⟩
      rw [monitorsAlone_iff]
      exact exactly there isFound n
    · simp only [registration.monitors_iff n, monitorsAlone_iff]
    · rintro node found state registration n monitored _
      obtain ⟨id, maxDepth, left, contributes⟩ := (registration.monitors_iff n).mp monitored
      rw [registeredAfter_unregister] at left ⊢
      have there := left
      rw [Dict.get?_erase] at there
      split_ifs at there with apart
      obtain ⟨covering, isCovering⟩ := validated there
      have covers := (exactly there isCovering n).mp contributes
      by_cases same : covering = node
      · subst same
        exact plain.alone covering found id maxDepth there apart isCovering n covers
      · exact ⟨id, maxDepth, covering, left, isCovering, same, covers⟩

end
theorem inlets_accepted (id : String) (found : (findModelNode Text.ascii ModelBuilder.inlets id).isSome = true)
    (maxDepth : Int) : ∀ call ∈ [MembershipCall.registerItems [id] maxDepth],
      call.Accepted Text.ascii ModelBuilder.inlets := by
  intro call m
  cases List.mem_singleton.mp m
  intro other same
  cases List.mem_singleton.mp same
  exact Option.isSome_iff_exists.mp found

theorem resolvesAccepted_iff_element :
    ResolvesAccepted smallServer ModelBuilder.inlets [.registerItems [inletA] 1] "Inlet A" ↔
      SpelledPlainly Text.ascii ModelBuilder.inlets (registeredAfter [.registerItems [inletA] 1]) "Inlet A" :=
  resolvesAccepted_iff smallServer ModelBuilder.inlets _ (inlets_accepted inletA (by decide) 1) "Inlet A"

/-- An inlet registered by its display name is accepted and never monitored. -/
theorem resolvesAccepted_fails_on_name :
    ¬ ResolvesAccepted smallServer ModelBuilder.inlets [.registerItems ["Inlet A"] 1] "Inlet A" := by
  intro resolved
  let node : ModelNode := ⟨inletA, "Inlet A", .property, some "i=11", [], "ns=2;s=abc"⟩
  have found : findModelNode Text.ascii ModelBuilder.inlets "Inlet A" = some node := by decide
  obtain ⟨_, exactly⟩ := resolved.registered "Inlet A" 1 rfl node found
  obtain ⟨state, registration, inside⟩ := (exactly "ns=2;s=abc").mpr ⟨node, rfl, rfl⟩
  obtain ⟨id, depth, there, contributes⟩ := (registration.monitors_iff _).mp inside
  rw [get?_single] at there
  split_ifs at there with same
  have unknown : registeredNode ModelBuilder.inlets "Inlet A" = none := by decide
  rw [contributes_raw (by rw [same]; exact unknown)] at contributes
  rw [same] at contributes
  exact absurd contributes (by decide : ("ns=2;s=abc" : String) ≠ "Inlet A")

end I3x.Subscriptions

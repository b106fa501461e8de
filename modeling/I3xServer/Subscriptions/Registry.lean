import I3xServer.Subscriptions.Confinement

/-!
# How subscriptions enter, change and leave the registry

What the sections that change membership do, for the invariants that follow
subscriptions over a run.
-/
namespace I3x.Subscriptions
open Container Coroutine
variable {V : Type} {settings : Settings V} {A : String → V → Prop}

/-- The two states are of one subscription with one registration. -/
structure SameMembership (a b : SubscriptionState V) : Prop where
  subscriptionId : b.subscriptionId = a.subscriptionId
  clientId : b.clientId = a.clientId
  monitoredObjects : b.monitoredObjects = a.monitoredObjects
  monitoredNodeIds : b.monitoredNodeIds = a.monitoredNodeIds
  nodeToElementId : b.nodeToElementId = a.nodeToElementId
  handleToNodeId : b.handleToNodeId = a.handleToNodeId

theorem SameMembership.refl (a : SubscriptionState V) : SameMembership a a := ⟨rfl, rfl, rfl, rfl, rfl, rfl⟩

theorem SameMembership.trans {a b c : SubscriptionState V} (h : SameMembership a b)
    (k : SameMembership b c) : SameMembership a c where
  subscriptionId := k.subscriptionId.trans h.subscriptionId
  clientId := k.clientId.trans h.clientId
  monitoredObjects := k.monitoredObjects.trans h.monitoredObjects
  monitoredNodeIds := k.monitoredNodeIds.trans h.monitoredNodeIds
  nodeToElementId := k.nodeToElementId.trans h.nodeToElementId
  handleToNodeId := k.handleToNodeId.trans h.handleToNodeId

theorem appendUpdate_sameMembership (now : Nat) (state : SubscriptionState V) (nodeId : String) (value : V) :
    SameMembership state (appendUpdate settings now state nodeId value).1 := by
  simp only [appendUpdate, pushUpdate]
  split
  · exact .refl state
  · split
    · exact ⟨rfl, rfl, rfl, rfl, rfl, rfl⟩
    · exact ⟨rfl, rfl, rfl, rfl, rfl, rfl⟩

theorem acknowledge_sameMembership (state : SubscriptionState V) (value : Option Int) :
    SameMembership state (acknowledge state value) := by
  unfold acknowledge
  split
  · exact .refl state
  · split_ifs
    · exact ⟨rfl, rfl, rfl, rfl, rfl, rfl⟩
    · exact ⟨rfl, rfl, rfl, rfl, rfl, rfl⟩
    · exact .refl state

theorem SameQueue.sameMembership {a b : SubscriptionState V} (same : SameQueue a b) :
    SameMembership a b := by
  rw [same]
  exact ⟨rfl, rfl, rfl, rfl, rfl, rfl⟩

theorem QueueRun.sameMembership {state last : SubscriptionState V} {ns : List (Note V)}
    (run : QueueRun settings A state ns last) : SameMembership state last := by
  induction run with
  | refl state => exact .refl state
  | quiet same _ ih => exact same.sameMembership.trans ih
  | mark n silent _ ih => exact ih
  | append now nodeId value allowed _ ih => exact (appendUpdate_sameMembership now _ nodeId value).trans ih
  | acknowledge value _ ih => exact (acknowledge_sameMembership _ value).trans ih
  | report _ ih => exact ⟨ih.1, ih.2, ih.3, ih.4, ih.5, ih.6⟩

/-! ## Keys -/

/-- Subscriptions are stored under their own ids, and the next id is fresh. -/
structure WellKeyed (s : ServiceState V) : Prop where
  keyed : ∀ {id state}, s.subscriptions.get? id = some state → state.subscriptionId = id
  fresh : ∀ {id state}, s.subscriptions.get? id = some state → id < s.nextSubscription

theorem WellKeyed.empty : WellKeyed (.empty : ServiceState V) := ⟨nofun, nofun⟩

theorem WellKeyed.of_same {s s' : ServiceState V} (h : WellKeyed s)
    (subscriptions : s'.subscriptions = s.subscriptions)
    (next : s'.nextSubscription = s.nextSubscription) : WellKeyed s' where
  keyed found := h.keyed (subscriptions ▸ found)
  fresh found := next ▸ h.fresh (subscriptions ▸ found)

theorem get?_setSubscription (s : ServiceState V) (id other : SubscriptionId) (state : SubscriptionState V) :
    (s.setSubscription id state).subscriptions.get? other =
      if other = id then some state else s.subscriptions.get? other := by
  simp only [ServiceState.setSubscription, Dict.get?_set]

theorem WellKeyed.setSubscription {s : ServiceState V} (h : WellKeyed s) {id : SubscriptionId}
    {state state' : SubscriptionState V} (found : s.subscriptions.get? id = some state)
    (same : state'.subscriptionId = state.subscriptionId) : WellKeyed (s.setSubscription id state') where
  keyed {other stored} there := by
    rw [get?_setSubscription] at there
    split_ifs at there with here
    · cases there
      rw [same, here]
      exact h.keyed found
    · exact h.keyed there
  fresh {other stored} there := by
    rw [get?_setSubscription] at there
    split_ifs at there with here
    · rw [here]
      exact h.fresh found
    · exact h.fresh there

/-! ## Removal -/

/-- `s'` is `s` without the subscriptions of the list. -/
structure Removal (s : ServiceState V) (removed : List (SubscriptionState V)) (s' : ServiceState V) :
    Prop where
  rest : s' = { s with subscriptions := s'.subscriptions }
  get? : ∀ id, s'.subscriptions.get? id =
    if id ∈ removed.map (·.subscriptionId) then none else s.subscriptions.get? id
  stored : ∀ state ∈ removed, s.subscriptions.get? state.subscriptionId = some state
  nodup : (removed.map (·.subscriptionId)).Nodup

theorem Removal.nil (s : ServiceState V) : Removal s [] s where
  rest := rfl
  get? id := by simp only [List.map_nil, List.not_mem_nil, if_false]
  stored := nofun
  nodup := List.nodup_nil

/-- One subscription is removed before the others. -/
theorem Removal.cons {s s' : ServiceState V} {state : SubscriptionState V}
    {removed : List (SubscriptionState V)} (found : s.subscriptions.get? state.subscriptionId = some state)
    (h : Removal { s with subscriptions := s.subscriptions.erase state.subscriptionId } removed s') :
    Removal s (state :: removed) s' := by
  have absent : state.subscriptionId ∉ removed.map (·.subscriptionId) := by
    intro inside
    obtain ⟨other, m, same⟩ := List.mem_map.mp inside
    have stored := h.stored other m
    rw [same, Dict.get?_erase_self] at stored
    cases stored
  refine ⟨by rw [h.rest], ?_, ?_, ?_⟩
  · intro id
    rw [h.get?, List.map_cons]
    by_cases here : id = state.subscriptionId
    · subst here
      rw [if_pos List.mem_cons_self, if_neg absent, Dict.get?_erase_self]
    · rw [Dict.get?_erase_ne _ here]
      simp only [List.mem_cons, here, false_or]
  · intro other m
    rcases List.mem_cons.mp m with rfl | later
    · exact found
    · have stored := h.stored other later
      rw [Dict.get?_erase] at stored
      split_ifs at stored
      exact stored
  · rw [List.map_cons]
    exact List.nodup_cons.mpr ⟨absent, h.nodup⟩

theorem Removal.of_mem {s s' : ServiceState V} {removed : List (SubscriptionState V)}
    (h : Removal s removed s') {id : SubscriptionId} {state : SubscriptionState V}
    (found : s'.subscriptions.get? id = some state) : s.subscriptions.get? id = some state := by
  rw [h.get?] at found
  split_ifs at found
  exact found

theorem Removal.wellKeyed {s s' : ServiceState V} {removed : List (SubscriptionState V)}
    (h : Removal s removed s') (keys : WellKeyed s) : WellKeyed s' where
  keyed found := keys.keyed (h.of_mem found)
  fresh found := by
    rw [h.rest]
    exact keys.fresh (h.of_mem found)

theorem erase_wellKeyed {s : ServiceState V} (keys : WellKeyed s) (id : SubscriptionId) :
    WellKeyed { s with subscriptions := s.subscriptions.erase id } where
  keyed found := by
    rw [Dict.get?_erase] at found
    split_ifs at found
    exact keys.keyed found
  fresh found := by
    rw [Dict.get?_erase] at found
    split_ifs at found
    exact keys.fresh found

theorem deleteSection_removal {s : ServiceState V} (keys : WellKeyed s) (clientId : Option String)
    (ids : List SubscriptionId) :
    Removal s (deleteSection settings clientId ids s).1.1 (deleteSection settings clientId ids s).2.1 := by
  induction ids generalizing s with
  | nil => exact .nil s
  | cons id ids ih =>
      rw [deleteSection]
      cases found : s.inScope clientId id with
      | none => exact ih keys
      | some state =>
          have stored := inScope_get? found
          have named := keys.keyed stored
          refine Removal.cons (by rw [named]; exact stored) ?_
          rw [named]
          exact ih (erase_wellKeyed keys id)

theorem deleteSection_notes (s : ServiceState V) (clientId : Option String) (ids : List SubscriptionId) :
    (deleteSection settings clientId ids s).2.2 =
      (deleteSection settings clientId ids s).1.1.flatMap (removalNotes settings) := by
  induction ids generalizing s with
  | nil => rfl
  | cons id ids ih =>
      rw [deleteSection]
      cases s.inScope clientId id with
      | none => exact ih s
      | some state => exact congrArg (removalNotes settings state ++ ·) (ih _)

theorem eraseAll_removal {s : ServiceState V} (removed : List (SubscriptionState V))
    (stored : ∀ state ∈ removed, s.subscriptions.get? state.subscriptionId = some state)
    (nodup : (removed.map (·.subscriptionId)).Nodup) :
    Removal s removed
      { s with
        subscriptions := removed.foldl (fun d state => d.erase state.subscriptionId) s.subscriptions } := by
  induction removed generalizing s with
  | nil => exact .nil s
  | cons state removed ih =>
      rw [List.map_cons, List.nodup_cons] at nodup
      refine Removal.cons (stored state List.mem_cons_self) ?_
      have later : ∀ other ∈ removed,
          (s.subscriptions.erase state.subscriptionId).get? other.subscriptionId = some other := by
        intro other m
        have ne : other.subscriptionId ≠ state.subscriptionId := fun same =>
          nodup.1 (same ▸ List.mem_map_of_mem m)
        rw [Dict.get?_erase_ne _ ne]
        exact stored other (List.mem_cons_of_mem state m)
      exact ih (s := { s with subscriptions := s.subscriptions.erase state.subscriptionId }) later nodup.2

theorem values_ids {s : ServiceState V} (keys : WellKeyed s) :
    s.subscriptions.values.map (·.subscriptionId) = s.subscriptions.keys := by
  unfold Dict.values Dict.keys
  rw [List.map_map]
  refine List.map_congr_left ?_
  intro entry inside
  exact keys.keyed ((s.subscriptions.mem_entries entry.1 entry.2).mp inside)

theorem expireSection_removal {s : ServiceState V} (keys : WellKeyed s) (started : Nat) :
    Removal s (expireSection settings started s).1 (expireSection settings started s).2.1 := by
  refine eraseAll_removal _ ?_ ?_
  · intro state m
    obtain ⟨id, found⟩ := (s.subscriptions.mem_values state).mp (List.mem_filter.mp m).1
    rw [keys.keyed found]
    exact found
  · refine List.Nodup.sublist (List.Sublist.map _ List.filter_sublist) ?_
    rw [values_ids keys]
    exact s.subscriptions.nodup

/-! ## Registering and unregistering -/

/-- The subscription after its registered objects were replaced. -/
def remonitored (now : Nat) (state : SubscriptionState V) (monitoredObjects : Dict String Int)
    (resolution : Resolution) : SubscriptionState V :=
  { state with
    monitoredObjects := monitoredObjects
    monitoredNodeIds := resolution.nodeIds
    nodeToElementId := resolution.nodeToElementId
    lastValuesByNodeId :=
      state.lastValuesByNodeId.filterKeys fun nodeId => decide (nodeId ∈ resolution.nodeIds)
    lastActivity := now }

/-- The section changes nothing, or replaces the objects of a subscription in
scope by ones that resolve. -/
theorem membershipSection_cases (settings : Settings V) (clientId : Option String) (id : SubscriptionId)
    (change : Dict String Int → Dict String Int) (model : BuildResult) (fuel : Nat) (s : ServiceState V) :
    (∃ result, membershipSection settings clientId id change model fuel s = (result, s, []) ∧
      ∀ previous new, result ≠ .changed previous new) ∨
    ∃ state resolution, s.inScope clientId id = some state ∧
      resolveMonitoredNodeIds settings.text fuel (change state.monitoredObjects) model = some resolution ∧
      membershipSection settings clientId id change model fuel s =
        (.changed state.monitoredNodeIds resolution.nodeIds,
          s.setSubscription id (remonitored s.clock state (change state.monitoredObjects) resolution),
          (plannedDiff settings id state.monitoredNodeIds resolution.nodeIds).map .planned) := by
  unfold membershipSection
  cases found : s.inScope clientId id with
  | none => exact .inl ⟨.missing, rfl, nofun⟩
  | some state =>
      dsimp only
      cases resolved : resolveMonitoredNodeIds settings.text fuel (change state.monitoredObjects) model with
      | none => exact .inl ⟨.endless, rfl, nofun⟩
      | some resolution => exact .inr ⟨state, resolution, rfl, resolved, rfl⟩

theorem createSection_wellKeyed {s : ServiceState V} (h : WellKeyed s)
    (clientId displayName : Option String) (started : Nat) :
    WellKeyed (createSection clientId displayName started s).2.1 where
  keyed {id state} found := by
    change (s.setSubscription s.nextSubscription _).subscriptions.get? id = some state at found
    rw [get?_setSubscription] at found
    split_ifs at found with here
    · cases found
      exact here.symm
    · exact h.keyed found
  fresh {id state} found := by
    change (s.setSubscription s.nextSubscription _).subscriptions.get? id = some state at found
    change id < s.nextSubscription + 1
    rw [get?_setSubscription] at found
    split_ifs at found with here
    · exact Nat.lt_succ_of_le (Nat.le_of_eq here)
    · exact Nat.lt_succ_of_lt (h.fresh found)

/-- The part of the state that acquiring and releasing monitors leaves alone. -/
structure SameOutside (s s' : ServiceState V) : Prop where
  subscriptions : s'.subscriptions = s.subscriptions
  nextSubscription : s'.nextSubscription = s.nextSubscription
  nodeDatachangeQueue : s'.nodeDatachangeQueue = s.nodeDatachangeQueue
  served : s'.served = s.served

theorem acquireSection_outside (nodeId : String) (id : SubscriptionId) (s : ServiceState V) :
    SameOutside s (acquireSection nodeId id s).2.1 := by
  unfold acquireSection
  split
  · exact ⟨rfl, rfl, rfl, rfl⟩
  · exact ⟨rfl, rfl, rfl, rfl⟩

theorem releaseSection_outside (nodeId : String) (id : SubscriptionId) (s : ServiceState V) :
    SameOutside s (releaseSection nodeId id s).2.1 := by
  unfold releaseSection
  split
  · exact ⟨rfl, rfl, rfl, rfl⟩
  · dsimp only
    split
    · exact ⟨rfl, rfl, rfl, rfl⟩
    · exact ⟨rfl, rfl, rfl, rfl⟩

theorem acquireSection_notes (nodeId : String) (id : SubscriptionId) (s : ServiceState V) :
    (acquireSection nodeId id s).2.2 = [.performed ⟨nodeId, id, true⟩ (decide (s.Wanted nodeId id))] := by
  unfold acquireSection
  split <;> rfl

theorem releaseSection_notes (nodeId : String) (id : SubscriptionId) (s : ServiceState V) :
    (releaseSection nodeId id s).2.2 = [.performed ⟨nodeId, id, false⟩ (decide (s.Wanted nodeId id))] := by
  unfold releaseSection
  split
  · rfl
  · dsimp only
    split
    · rfl
    · rfl

variable {allowed : (Dict String Int → Dict String Int) → BuildResult → Prop}

theorem ServiceStep.wellKeyed {s s' : ServiceState V} {ns : List (Note V)}
    (step : ServiceStep settings A allowed s ns s') (h : WellKeyed s) : WellKeyed s' := by
  cases step with
  | routine step =>
      cases step with
      | queue found run => exact h.setSubscription found run.sameMembership.subscriptionId
      | upstream same plain => exact h.of_same same.subscriptions same.nextSubscription
      | notify nodeId value => exact h.of_same rfl rfl
      | dequeue queue => exact h.of_same rfl rfl
      | serve nodeId value => exact h.of_same rfl rfl
  | create clientId displayName started => exact createSection_wellKeyed h clientId displayName started
  | membership clientId id change model fuel may =>
      rcases membershipSection_cases settings clientId id change model fuel s with
        ⟨result, same, _⟩ | ⟨state, resolution, found, _, same⟩
      · rw [same]
        exact h
      · rw [same]
        exact h.setSubscription (inScope_get? found) rfl
  | delete clientId ids => exact (deleteSection_removal h clientId ids).wellKeyed h
  | expire started => exact (expireSection_removal h started).wellKeyed h
  | acquire nodeId id =>
      have same := acquireSection_outside nodeId id s
      exact h.of_same same.subscriptions same.nextSubscription
  | release nodeId id =>
      have same := releaseSection_outside nodeId id s
      exact h.of_same same.subscriptions same.nextSubscription

/-- A run of queue operations notes queue operations and plain events only. -/
theorem QueueRun.notes {state last : SubscriptionState V} {ns : List (Note V)}
    (run : QueueRun settings A state ns last) : ∀ n ∈ ns, n.Plain ∨ ¬ n.Silent := by
  induction run with
  | refl state => exact fun _ => nofun
  | quiet _ _ ih => exact ih
  | mark n plain _ ih =>
      intro m inside
      rcases List.mem_cons.mp inside with rfl | later
      · exact .inl plain
      · exact ih m later
  | append now nodeId value _ _ ih =>
      intro m inside
      rcases List.mem_append.mp inside with here | later
      · simp only [appendUpdate] at here
        split at here
        · cases here
        · unfold pushNotes at here
          split at here <;> simp only [List.mem_cons, List.not_mem_nil, or_false] at here
          · rw [here]
            exact .inr id
          · rcases here with rfl | rfl <;> exact .inr id
      · exact ih m later
  | acknowledge value _ ih =>
      intro m inside
      rcases List.mem_append.mp inside with here | later
      · obtain ⟨v, _, rfl⟩ := Option.map_eq_some_iff.mp (Option.mem_toList.mp here)
        exact .inr id
      · exact ih m later
  | report _ ih =>
      intro m inside
      rcases List.mem_cons.mp inside with rfl | later
      · exact .inr id
      · exact ih m later

theorem not_traffic {n : Note V} (ordinary : n.Plain ∨ ¬ n.Silent) : ¬ n.Traffic := by
  cases n <;> simp [Note.Plain, Note.Silent, Note.Traffic] at ordinary ⊢

theorem not_membership {n : Note V} (ordinary : n.Plain ∨ ¬ n.Silent) : ¬ n.Membership := by
  cases n <;> simp [Note.Plain, Note.Silent, Note.Membership] at ordinary ⊢

theorem Note.Membership.silent {n : Note V} (member : n.Membership) : n.Silent := by
  cases n <;> trivial

theorem Note.Membership.not_traffic {n : Note V} (member : n.Membership) : ¬ n.Traffic := by
  cases n <;> first | exact id | exact member.elim

/-- What a stretch without queue operations leaves of a subscription. -/
inductive Inherits (settings : Settings V) (allowed : (Dict String Int → Dict String Int) → BuildResult → Prop) :
    SubscriptionState V → SubscriptionState V → Prop
  | same (state) : Inherits settings allowed state state
  | remonitored (state) (change) (model) (fuel : Nat) (resolution) (now : Nat) (may : allowed change model)
      (resolved : resolveMonitoredNodeIds settings.text fuel (change state.monitoredObjects) model =
        some resolution) :
      Inherits settings allowed state (remonitored now state (change state.monitoredObjects) resolution)

/-- A subscription of `s'` was in `s`, or has just been created. -/
def Descends (settings : Settings V) (allowed : (Dict String Int → Dict String Int) → BuildResult → Prop)
    (s s' : ServiceState V) (ns : List (Note V)) : Prop :=
  ∀ id state', s'.subscriptions.get? id = some state' →
    (∃ state, s.subscriptions.get? id = some state ∧ Inherits settings allowed state state') ∨
    id = s.nextSubscription ∧ ns = [.created id] ∧
      ∃ clientId displayName now, state' = newSubscription id clientId displayName now

theorem Descends.of_get? {s s' : ServiceState V} {ns : List (Note V)}
    (kept : ∀ {id state}, s'.subscriptions.get? id = some state → s.subscriptions.get? id = some state) :
    Descends settings allowed s s' ns := fun _ state' found => .inl ⟨state', kept found, .same state'⟩

theorem planned_membership {ops : List MonitorOp} :
    ∀ n ∈ (ops.map .planned : List (Note V)), n.Membership := by
  intro n inside
  obtain ⟨op, _, rfl⟩ := List.mem_map.mp inside
  trivial

theorem removalNotes_membership {removed : List (SubscriptionState V)} :
    ∀ n ∈ removed.flatMap (removalNotes settings), n.Membership := by
  intro n inside
  obtain ⟨state, _, here⟩ := List.mem_flatMap.mp inside
  exact planned_membership n here

/-- A stretch works on the queue of one subscription, or on no queue at all. -/
theorem ServiceStep.queue_or_descends {s s' : ServiceState V} {ns : List (Note V)} (keys : WellKeyed s)
    (step : ServiceStep settings A allowed s ns s') :
    (∃ id state state', s.subscriptions.get? id = some state ∧ QueueRun settings A state ns state' ∧
      s' = s.setSubscription id state') ∨
    (∀ n ∈ ns, n.Silent) ∧ Descends settings allowed s s' ns := by
  cases step with
  | routine step =>
      cases step with
      | queue found run => exact .inl ⟨_, _, _, found, run, rfl⟩
      | upstream same plain =>
          exact .inr ⟨fun n inside => (plain n inside).silent, .of_get? fun found => same.subscriptions ▸ found⟩
      | notify nodeId value => exact .inr ⟨fun n inside => List.mem_singleton.mp inside ▸ trivial, .of_get? id⟩
      | dequeue queue => exact .inr ⟨fun n inside => List.mem_singleton.mp inside ▸ trivial, .of_get? id⟩
      | serve nodeId value => exact .inr ⟨fun n inside => List.mem_singleton.mp inside ▸ trivial, .of_get? id⟩
  | create clientId displayName started =>
      refine .inr ⟨fun n inside => ?_, fun id state' found => ?_⟩
      · rw [List.mem_singleton.mp inside]
        trivial
      · change (s.setSubscription s.nextSubscription _).subscriptions.get? id = some state' at found
        rw [get?_setSubscription] at found
        split_ifs at found with here
        · cases found
          exact .inr ⟨here, by rw [here]; rfl, clientId, displayName, started, by rw [here]⟩
        · exact .inl ⟨state', found, .same state'⟩
  | membership clientId id change model fuel may =>
      rcases membershipSection_cases settings clientId id change model fuel s with
        ⟨result, same, _⟩ | ⟨state, resolution, found, resolved, same⟩
      · rw [same]
        exact .inr ⟨fun _ => nofun, .of_get? fun found => found⟩
      · rw [same]
        refine .inr ⟨fun n inside => (planned_membership n inside).silent, fun other state' there => ?_⟩
        rw [get?_setSubscription] at there
        split_ifs at there with here
        · cases there
          rw [here]
          exact .inl ⟨state, inScope_get? found,
            .remonitored state change model fuel resolution s.clock may resolved⟩
        · exact .inl ⟨state', there, .same state'⟩
  | delete clientId ids =>
      rw [deleteSection_notes]
      exact .inr ⟨fun n inside => (removalNotes_membership n inside).silent,
        .of_get? (deleteSection_removal keys clientId ids).of_mem⟩
  | expire started =>
      exact .inr ⟨fun n inside => (removalNotes_membership n inside).silent,
        .of_get? (expireSection_removal keys started).of_mem⟩
  | acquire nodeId id =>
      rw [acquireSection_notes]
      refine .inr ⟨fun n inside => ?_, .of_get? fun found => ?_⟩
      · rw [List.mem_singleton.mp inside]
        trivial
      · rwa [(acquireSection_outside nodeId id s).subscriptions] at found
  | release nodeId id =>
      rw [releaseSection_notes]
      refine .inr ⟨fun n inside => ?_, .of_get? fun found => ?_⟩
      · rw [List.mem_singleton.mp inside]
        trivial
      · rwa [(releaseSection_outside nodeId id s).subscriptions] at found

/-- The notification queue and the upstream values stay as they are. -/
structure SameTraffic (s s' : ServiceState V) : Prop where
  nodeDatachangeQueue : s'.nodeDatachangeQueue = s.nodeDatachangeQueue
  served : s'.served = s.served

theorem Removal.sameTraffic {s s' : ServiceState V} {removed : List (SubscriptionState V)}
    (h : Removal s removed s') : SameTraffic s s' := by
  rw [h.rest]
  exact ⟨rfl, rfl⟩

/-- A stretch takes one notification from the queue or adds one, changes one
upstream value, or does not touch the traffic. -/
theorem ServiceStep.traffic {s s' : ServiceState V} {ns : List (Note V)} (keys : WellKeyed s)
    (step : ServiceStep settings A allowed s ns s') :
    (SameTraffic s s' ∧ ∀ n ∈ ns, ¬ n.Traffic) ∨
    (∃ nodeId value, ns = [.notified nodeId value] ∧
      s' = (enqueueNodeDatachange settings nodeId value s).2.1) ∨
    (∃ nodeId value rest, ns = [.dequeued nodeId value] ∧ s.nodeDatachangeQueue = (nodeId, value) :: rest ∧
      s' = { s with nodeDatachangeQueue := rest }) ∨
    ∃ nodeId value, ns = [.valueChanged nodeId value] ∧ s' = (changeValue nodeId value s).2.1 := by
  have single (n : Note V) (other : ¬ n.Traffic) : ∀ m ∈ [n], ¬ m.Traffic :=
    fun m inside => List.mem_singleton.mp inside ▸ other
  cases step with
  | routine step =>
      cases step with
      | queue found run => exact .inl ⟨⟨rfl, rfl⟩, fun n inside => not_traffic (run.notes n inside)⟩
      | upstream same plain =>
          exact .inl ⟨⟨same.nodeDatachangeQueue, same.served⟩, fun n inside =>
            not_traffic (.inl (plain n inside))⟩
      | notify nodeId value => exact .inr (.inl ⟨nodeId, value, rfl, rfl⟩)
      | dequeue queue => exact .inr (.inr (.inl ⟨_, _, _, rfl, queue, rfl⟩))
      | serve nodeId value => exact .inr (.inr (.inr ⟨nodeId, value, rfl, rfl⟩))
  | create clientId displayName started => exact .inl ⟨⟨rfl, rfl⟩, single _ nofun⟩
  | membership clientId id change model fuel may =>
      rcases membershipSection_cases settings clientId id change model fuel s with
        ⟨result, same, _⟩ | ⟨state, resolution, found, _, same⟩
      · rw [same]
        exact .inl ⟨⟨rfl, rfl⟩, fun _ => nofun⟩
      · rw [same]
        exact .inl ⟨⟨rfl, rfl⟩, fun n inside => (planned_membership n inside).not_traffic⟩
  | delete clientId ids =>
      rw [deleteSection_notes]
      exact .inl ⟨(deleteSection_removal keys clientId ids).sameTraffic, fun n inside =>
        (removalNotes_membership n inside).not_traffic⟩
  | expire started =>
      exact .inl ⟨(expireSection_removal keys started).sameTraffic, fun n inside =>
        (removalNotes_membership n inside).not_traffic⟩
  | acquire nodeId id =>
      have same := acquireSection_outside nodeId id s
      rw [acquireSection_notes]
      exact .inl ⟨⟨same.nodeDatachangeQueue, same.served⟩, single _ nofun⟩
  | release nodeId id =>
      have same := releaseSection_outside nodeId id s
      rw [releaseSection_notes]
      exact .inl ⟨⟨same.nodeDatachangeQueue, same.served⟩, single _ nofun⟩

end I3x.Subscriptions

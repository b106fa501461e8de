import I3xServer.Coroutine.Frame
import I3xServer.Subscriptions.MonitorRegistry

/-!
# Who created a subscription

The client id of a subscription is the one that its creating call was given; no
other call creates one and none changes the id.
-/
namespace I3x.Subscriptions
open Container Coroutine Program
variable {V : Type}

/-! ## Only `createSubscription` creates -/

/-- The update creates no subscription. -/
def Uncreating (_ : ServiceMemory V) (_ : ServiceState V) (ns : List (Note V)) (_ : ServiceState V) : Prop :=
  ∀ id, .created id ∉ ns

section
variable {settings : Settings V} {α : Type} {p : Act V α}

theorem within_uncreating (inside : p.Within (Stretches settings anyChange (· ≠ .membership))) :
    p.Within Uncreating :=
  (within_routine inside).mono fun _ _ _ _ step _ noted_ => step.not_membership _ noted_ trivial

theorem within_uncreating_locked {l : Lock} {f : Section V α} (silent : ∀ s id, .created id ∉ (f s).2.2) :
    (locked l f : Act V α).Within Uncreating := .locked fun _ => silent

variable (settings)

include settings in
theorem releaseNodeMonitor_uncreating (nodeId : String) (id : SubscriptionId) :
    (releaseNodeMonitor nodeId id : Act V Unit).Within Uncreating := by
  refine Within.bind (within_uncreating_locked fun s other inside => ?_) fun orphaned => ?_
  · rw [releaseSection_notes] at inside
    cases List.mem_singleton.mp inside
  · cases orphaned with
    | none => exact .ret _
    | some ref => exact within_uncreating (stopNodeMonitorRuntime_stretches settings anyChange nofun ref nodeId)

theorem acquireNodeMonitor_uncreating (nodeId : String) (id : SubscriptionId) :
    (acquireNodeMonitor settings nodeId id).Within Uncreating := by
  refine Within.bind (within_uncreating_locked fun s other inside => ?_) fun registered => ?_
  · rw [acquireSection_notes] at inside
    cases List.mem_singleton.mp inside
  · cases registered with
    | none => exact .ret _
    | some ref => exact within_uncreating (startNodeMonitorRuntime_stretches settings anyChange nofun ref nodeId)

theorem releaseAllNodes_uncreating (state : SubscriptionState V) :
    (releaseAllNodes settings state).Within Uncreating := by
  refine Within.bind (.forEach fun nodeId _ => releaseNodeMonitor_uncreating settings nodeId _) fun _ => ?_
  exact within_uncreating_locked fun _ _ => List.not_mem_nil

theorem removalNotes_uncreating {removed : List (SubscriptionState V)} (id : SubscriptionId) :
    .created id ∉ removed.flatMap (removalNotes settings) := by
  intro inside
  obtain ⟨state, _, noted_⟩ := List.mem_flatMap.mp inside
  obtain ⟨op, _, same⟩ := List.mem_map.mp noted_
  cases same

theorem deleteSubscriptions_uncreating (clientId : Option String) (ids : List SubscriptionId) :
    (deleteSubscriptions settings clientId ids).Within Uncreating := by
  refine Within.bind (within_uncreating_locked fun s id => ?_) fun found => ?_
  · rw [deleteSection_notes]
    exact removalNotes_uncreating settings id
  · exact Within.bind (.forEach fun state _ => releaseAllNodes_uncreating settings state) fun _ => .ret _

theorem expireSubscriptions_uncreating : (expireSubscriptions settings).Within Uncreating := by
  refine Within.bind (.read fun _ _ _ => List.not_mem_nil) fun started => ?_
  refine Within.bind (within_uncreating_locked fun _ => removalNotes_uncreating settings) fun removed => ?_
  exact .forEach fun state _ => releaseAllNodes_uncreating settings state

theorem changeMembership_uncreating (clientId : Option String) (id : SubscriptionId)
    (change : Dict String Int → Dict String Int) (model : BuildResult) (fuel : Nat) :
    (changeMembership settings clientId id change model fuel).Within Uncreating := by
  refine Within.acquire (Within.bind (.atomic fun _ s other inside => ?_) fun changed => ?_)
  · rcases membershipSection_cases settings clientId id change model fuel s with
      ⟨result, same, _⟩ | ⟨state, resolution, _, _, same⟩
    · rw [same] at inside
      cases inside
    · rw [same] at inside
      obtain ⟨op, _, planned⟩ := List.mem_map.mp inside
      cases planned
  · match changed with
    | .missing => exact .release (.ret _)
    | .endless => exact nofun
    | .changed previous new =>
        refine Within.release (Within.bind ?_ fun _ => .ret _)
        refine Within.bind (.forEach fun nodeId _ => releaseNodeMonitor_uncreating settings nodeId id) fun _ => ?_
        refine Within.bind (.forEach fun nodeId _ => acquireNodeMonitor_uncreating settings nodeId id) fun _ => ?_
        refine @within_uncreating V settings _ _ (Within.bind ?_ fun _ => ?_)
        · exact updateSubscriptionMode_stretches settings anyChange nofun id
        · exact seedInitialUpdates_stretches settings anyChange nofun id

/-- The call creates a subscription. -/
def Call.Creates : Call V → Prop
  | .createSubscription .. => True
  | _ => False

theorem program_uncreating (call : Call V) (other : ¬ call.Creates) : (program settings call).Within Uncreating := by
  have routine {call : Call V} (inside : (program settings call).Within
      (Stretches settings anyChange (· ≠ .membership))) : (program settings call).Within Uncreating :=
    within_uncreating inside
  cases call with
  | createSubscription clientId displayName => exact absurd trivial other
  | registerItems clientId id elementIds maxDepth model fuel =>
      exact Within.bind (changeMembership_uncreating settings clientId id _ model fuel) fun _ => .ret _
  | unregisterItems clientId id elementIds model fuel =>
      exact Within.bind (changeMembership_uncreating settings clientId id _ model fuel) fun _ => .ret _
  | deleteSubscriptions clientId ids =>
      exact Within.bind (deleteSubscriptions_uncreating settings clientId ids) fun _ => .ret _
  | expireSubscriptions => exact Within.bind (expireSubscriptions_uncreating settings) fun _ => .ret _
  | sync clientId id ack allow =>
      exact routine (Within.bind (sync_stretches settings anyChange nofun clientId id ack allow) fun _ => .ret _)
  | syncSubscription clientId id last =>
      exact routine (Within.bind (syncSubscription_stretches settings anyChange nofun clientId id last) fun _ => .ret _)
  | streamSubscription clientId id rounds =>
      exact routine (Within.bind (streamSubscription_stretches settings anyChange nofun nofun clientId id rounds)
        fun _ => .ret _)
  | nodeDatachange nodeId value =>
      refine Within.bind (.atomic fun _ s id inside => ?_) fun _ => .ret _
      cases List.mem_singleton.mp inside
  | nodeDatachangeTurn =>
      exact routine (Within.bind (nodeDatachangeTurn_stretches settings anyChange nofun) fun _ => .ret _)
  | sharedPollingTurn =>
      exact routine (Within.bind (sharedPollingTurn_stretches settings anyChange nofun) fun _ => .ret _)
  | clientReconnect survivors =>
      exact routine (Within.bind (handleClientReconnect_stretches settings anyChange nofun nofun survivors)
        fun _ => .ret _)
  | clockTick elapsed => exact Within.bind (.modify fun _ _ _ => List.not_mem_nil) fun _ => .ret _
  | valueChange nodeId value =>
      refine Within.bind (.atomic fun _ s id inside => ?_) fun _ => .ret _
      cases List.mem_singleton.mp inside

end

/-! ## The client id -/

/-- The subscription was created by a call with that client id. -/
def CreatedBy (h : ServiceHistory V) (id : SubscriptionId) (clientId : Option String) : Prop :=
  ∃ t displayName, t.call = .createSubscription clientId displayName ∧ .noted t (.created id) ∈ h

structure Owners (s : ServiceState V) (h : ServiceHistory V) : Prop where
  keys : WellKeyed s
  fresh : ∀ {t id}, .noted t (.created id) ∈ h → id < s.nextSubscription
  owner : ∀ {id clientId state}, CreatedBy h id clientId → s.subscriptions.get? id = some state →
    state.clientId = clientId
  origin : ∀ {id state}, s.subscriptions.get? id = some state → CreatedBy h id state.clientId

/-- The subscriptions of `s'` are subscriptions of `s`, of the same clients. -/
structure KeepsOwners (s s' : ServiceState V) : Prop where
  next : s'.nextSubscription = s.nextSubscription
  present : ∀ {id state'}, s'.subscriptions.get? id = some state' →
    ∃ state, s.subscriptions.get? id = some state ∧ state'.clientId = state.clientId

theorem KeepsOwners.of_get? {s s' : ServiceState V} (next : s'.nextSubscription = s.nextSubscription)
    (kept : ∀ {id state}, s'.subscriptions.get? id = some state → s.subscriptions.get? id = some state) :
    KeepsOwners s s' := ⟨next, fun found => ⟨_, kept found, rfl⟩⟩

theorem KeepsOwners.set {s : ServiceState V} {id : SubscriptionId} {state state' : SubscriptionState V}
    (found : s.subscriptions.get? id = some state) (same : state'.clientId = state.clientId) :
    KeepsOwners s (s.setSubscription id state') := by
  refine ⟨rfl, fun {other stored} there => ?_⟩
  rw [get?_setSubscription] at there
  split_ifs at there with here
  · cases there
    exact ⟨state, here ▸ found, same⟩
  · exact ⟨stored, there, rfl⟩

theorem Removal.keepsOwners {s s' : ServiceState V} {removed : List (SubscriptionState V)}
    (h : Removal s removed s') : KeepsOwners s s' := by
  refine .of_get? ?_ h.of_mem
  rw [h.rest]

theorem ServiceStep.keepsOwners {settings : Settings V} {A : String → V → Prop}
    {allowed : (Dict String Int → Dict String Int) → BuildResult → Prop} {s s' : ServiceState V}
    {ns : List (Note V)} (step : ServiceStep settings A allowed s ns s') (keys : WellKeyed s)
    (silent : ∀ id, .created id ∉ ns) : KeepsOwners s s' := by
  cases step with
  | routine step =>
      cases step with
      | queue found run => exact .set found run.sameMembership.clientId
      | upstream same plain => exact .of_get? same.nextSubscription fun found => same.subscriptions ▸ found
      | notify nodeId value => exact .of_get? rfl id
      | dequeue queue => exact .of_get? rfl id
      | serve nodeId value => exact .of_get? rfl id
  | create clientId displayName started => exact absurd List.mem_cons_self (silent _)
  | membership clientId id change model fuel may =>
      rcases membershipSection_cases settings clientId id change model fuel s with
        ⟨result, same, _⟩ | ⟨state, resolution, found, _, same⟩
      · rw [same]
        exact .of_get? rfl fun found => found
      · rw [same]
        exact .set (inScope_get? found) rfl
  | delete clientId ids => exact (deleteSection_removal keys clientId ids).keepsOwners
  | expire started => exact (expireSection_removal keys started).keepsOwners
  | acquire nodeId id =>
      have same := acquireSection_outside nodeId id s
      exact .of_get? same.nextSubscription fun found => same.subscriptions ▸ found
  | release nodeId id =>
      have same := releaseSection_outside nodeId id s
      exact .of_get? same.nextSubscription fun found => same.subscriptions ▸ found

section
variable {s s' : ServiceState V} {h : ServiceHistory V}

theorem createdBy_noted {t : ServiceTag V} {ns : List (Note V)} (silent : ∀ id, .created id ∉ ns)
    {id : SubscriptionId} {clientId : Option String} :
    CreatedBy (noted t ns ++ h) id clientId ↔ CreatedBy h id clientId := by
  refine exists_congr fun u => exists_congr fun name => and_congr_right fun _ => ?_
  refine ⟨fun inside => ?_, List.mem_append_right _⟩
  refine (List.mem_append.mp inside).resolve_left fun new => ?_
  obtain ⟨n, here, same⟩ := mem_noted.mp new
  cases same
  exact silent _ here

theorem Owners.event (old : Owners s h) {event : ServiceEvent V} (other : ∀ t n, event ≠ .noted t n) :
    Owners s (event :: h) where
  keys := old.keys
  fresh inside := old.fresh ((List.mem_cons.mp inside).resolve_left fun same => other _ _ same.symm)
  owner := fun ⟨t, name, call, inside⟩ =>
    old.owner ⟨t, name, call, (List.mem_cons.mp inside).resolve_left fun same => other _ _ same.symm⟩
  origin found := by
    obtain ⟨t, name, call, inside⟩ := old.origin found
    exact ⟨t, name, call, List.mem_cons_of_mem _ inside⟩

theorem Owners.keep {t : ServiceTag V} {ns : List (Note V)} (old : Owners s h) (keeps : KeepsOwners s s')
    (keys : WellKeyed s') (silent : ∀ id, .created id ∉ ns) : Owners s' (noted t ns ++ h) where
  keys := keys
  fresh {u id} inside := by
    rw [keeps.next]
    refine old.fresh (t := u) ((List.mem_append.mp inside).resolve_left fun new => ?_)
    obtain ⟨n, here, same⟩ := mem_noted.mp new
    cases same
    exact silent _ here
  owner {id clientId state'} made found := by
    obtain ⟨state, there, same⟩ := keeps.present found
    exact same.trans (old.owner ((createdBy_noted silent).mp made) there)
  origin {id state'} found := by
    obtain ⟨state, there, same⟩ := keeps.present found
    rw [createdBy_noted silent, same]
    exact old.origin there

/-- A call that creates a subscription owns it. -/
theorem Owners.create {t : ServiceTag V} {clientId displayName : Option String} (old : Owners s h) (started : Nat)
    (call : t.call = .createSubscription clientId displayName) :
    Owners (createSection clientId displayName started s).2.1
      (noted t (createSection clientId displayName started s).2.2 ++ h) := by
  have step := get?_setSubscription s s.nextSubscription
  have new {id : SubscriptionId} {owner : Option String} :
      CreatedBy (noted t [.created s.nextSubscription] ++ h) id owner ↔
        id = s.nextSubscription ∧ owner = clientId ∨ CreatedBy h id owner := by
    constructor
    · rintro ⟨u, name, made, inside⟩
      rcases List.mem_cons.mp inside with same | before
      · cases same
        cases call.symm.trans made
        exact .inl ⟨rfl, rfl⟩
      · exact .inr ⟨u, name, made, before⟩
    · rintro (⟨rfl, rfl⟩ | ⟨u, name, made, before⟩)
      · exact ⟨t, displayName, call, List.mem_cons_self⟩
      · exact ⟨u, name, made, List.mem_cons_of_mem _ before⟩
  refine ⟨createSection_wellKeyed old.keys clientId displayName started, fun {u id} inside => ?_,
    fun {id owner state} made found => ?_, fun {id state} found => ?_⟩
  · change id < s.nextSubscription + 1
    rcases List.mem_cons.mp inside with same | before
    · cases same
      exact Nat.lt_succ_self _
    · exact Nat.lt_succ_of_lt (old.fresh before)
  · change (s.setSubscription s.nextSubscription _).subscriptions.get? id = some state at found
    rw [step] at found
    split_ifs at found with here
    · cases found
      rcases new.mp made with ⟨_, rfl⟩ | ⟨u, name, _, before⟩
      · rfl
      · exact absurd (old.fresh before) (here ▸ Nat.lt_irrefl _)
    · rcases new.mp made with ⟨same, _⟩ | before
      · exact absurd same here
      · exact old.owner before found
  · change (s.setSubscription s.nextSubscription _).subscriptions.get? id = some state at found
    rw [step] at found
    refine new.mpr ?_
    split_ifs at found with here
    · cases found
      exact .inl ⟨here, rfl⟩
    · exact .inr (old.origin found)

end
end I3x.Subscriptions

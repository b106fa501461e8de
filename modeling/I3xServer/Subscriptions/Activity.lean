import I3xServer.Coroutine.Traces
import I3xServer.Subscriptions.Owners

/-!
# Which steps count as activity

A subscription's date of activity is written by the sections that belong to calls
of its own client, and by no others. `Uses` names those sections; every act of a
call is one of them, on the subscription the call names, or dates nothing.
-/
namespace I3x.Subscriptions
open Container Coroutine Program
variable {V : Type} (settings : Settings V)

/-- The subscription that a client's call is about. -/
def Call.subscription? : Call V → Option SubscriptionId
  | .registerItems _ id _ _ _ _ => some id
  | .unregisterItems _ id _ _ _ => some id
  | .sync _ id _ _ => some id
  | .syncSubscription _ id _ => some id
  | .streamSubscription _ id _ => some id
  | _ => none

/-- The server's own work: notifications, polls, reconnects and expiry passes. -/
def Call.Background : Call V → Prop
  | .nodeDatachange .. | .nodeDatachangeTurn | .sharedPollingTurn | .clientReconnect .. => True
  | .expireSubscriptions => True
  | _ => False

/-- A section that one of the client's own calls completes on the subscription: a
change of membership, a sync that is not refused, its refresh and report, and the
opening, waiting and closing of the newest stream. -/
inductive Uses (id : SubscriptionId) (s : ServiceState V) : ServiceState V → Prop
  | membership {clientId change model fuel previous new}
      (done : (membershipSection settings clientId id change model fuel s).1 = .changed previous new) :
      Uses id s (membershipSection settings clientId id change model fuel s).2.1
  | refresh {values} (live : (s.subscriptions.get? id).isSome) :
      Uses id s (refreshAppendSection settings id values s).2.1
  | syncStart {clientId ack allow shouldRefresh}
      (done : (syncStartSection clientId id ack allow s).1 = .proceed shouldRefresh) :
      Uses id s (syncStartSection clientId id ack allow s).2.1
  | syncReport {clientId} (done : (syncReportSection clientId id s).1.isSome) :
      Uses id s (syncReportSection clientId id s).2.1
  | activate {clientId} (done : (activateStreamSection clientId id s).1.isSome) :
      Uses id s (activateStreamSection clientId id s).2.1
  | waitStart {clientId afterSequence timeoutMs} (done : (s.inScope clientId id).isSome) :
      Uses id s (waitStartSection settings clientId id afterSequence timeoutMs s).2.1
  | waitResult {clientId afterSequence timedOut}
      (done : (waitResultSection clientId id afterSequence timedOut s).1.isSome) :
      Uses id s (waitResultSection clientId id afterSequence timedOut s).2.1
  | deactivate {generation} (newest : (isStreamActiveSection id generation s).1 = true) :
      Uses id s (deactivateStreamSection id generation s).2.1

/-- No subscription appears, and none gets another date of activity. -/
def Undated (s s' : ServiceState V) : Prop :=
  ∀ id state', s'.subscriptions.get? id = some state' →
    ∃ state, s.subscriptions.get? id = some state ∧ state'.lastActivity = state.lastActivity

/-- What an act of a call about `own` may do to the dates of activity. -/
def Active (own : Option SubscriptionId) (_ : ServiceMemory V) (s : ServiceState V) (_ : List (Note V))
    (s' : ServiceState V) : Prop := (∃ id, own = some id ∧ Uses settings id s s') ∨ Undated s s'

/-! ## What a use writes -/

variable {settings}

theorem appendUpdate_lastActivity (now : Nat) (state : SubscriptionState V) (nodeId : String) (value : V) :
    (appendUpdate settings now state nodeId value).1.lastActivity = state.lastActivity := by
  simp only [appendUpdate, pushUpdate]
  split
  · rfl
  · split <;> rfl

/-- A use is dated by the clock, and it writes nothing but its subscription. -/
theorem Uses.written {id : SubscriptionId} {s s' : ServiceState V} (uses : Uses settings id s s') :
    ∃ state state', s.subscriptions.get? id = some state ∧ s' = s.setSubscription id state' ∧
      state'.lastActivity = s.clock := by
  cases uses with
  | @membership clientId change model fuel previous new done =>
      rcases membershipSection_cases settings clientId id change model fuel s with
        ⟨result, same, unchanged⟩ | ⟨state, resolution, found, -, same⟩
      · rw [same] at done
        exact absurd done (unchanged previous new)
      · rw [same]
        exact ⟨state, _, inScope_get? found, rfl, rfl⟩
  | refresh live =>
      obtain ⟨state, found⟩ := Option.isSome_iff_exists.mp live
      simp only [refreshAppendSection, found]
      exact ⟨state, _, rfl, rfl, rfl⟩
  | @syncStart clientId ack allow shouldRefresh done =>
      unfold syncStartSection at done ⊢
      cases found : s.inScope clientId id with
      | none => rw [found] at done; cases done
      | some state =>
          rw [found] at done
          dsimp only at done ⊢
          split at done
          · cases done
          · rename_i accepted
            rw [if_neg accepted]
            exact ⟨state, _, inScope_get? found, rfl, rfl⟩
  | @syncReport clientId done =>
      unfold syncReportSection at done ⊢
      cases found : s.inScope clientId id with
      | none => rw [found] at done; cases done
      | some state => exact ⟨state, _, inScope_get? found, rfl, rfl⟩
  | @activate clientId done =>
      unfold activateStreamSection at done ⊢
      cases found : s.inScope clientId id with
      | none => rw [found] at done; cases done
      | some state => exact ⟨state, _, inScope_get? found, rfl, rfl⟩
  | @waitStart clientId afterSequence timeoutMs done =>
      unfold waitStartSection
      obtain ⟨state, found⟩ := Option.isSome_iff_exists.mp done
      rw [found]
      dsimp only
      split
      · exact ⟨state, _, inScope_get? found, rfl, rfl⟩
      · exact ⟨state, _, inScope_get? found, rfl, rfl⟩
  | @waitResult clientId afterSequence timedOut done =>
      unfold waitResultSection at done ⊢
      cases found : s.inScope clientId id with
      | none => rw [found] at done; cases done
      | some state => exact ⟨state, _, inScope_get? found, rfl, rfl⟩
  | @deactivate generation newest =>
      unfold isStreamActiveSection at newest
      unfold deactivateStreamSection
      cases found : s.subscriptions.get? id with
      | none => rw [found] at newest; cases newest
      | some state =>
          rw [found] at newest
          dsimp only at newest ⊢
          rw [if_pos (of_decide_eq_true newest)]
          exact ⟨state, _, rfl, rfl, rfl⟩

/-- After a use its subscription has the date of the clock, the others are as before. -/
theorem Uses.get? {id : SubscriptionId} {s s' : ServiceState V} (uses : Uses settings id s s') :
    (∃ state', s'.subscriptions.get? id = some state' ∧ state'.lastActivity = s.clock) ∧
      ∀ other, other ≠ id → s'.subscriptions.get? other = s.subscriptions.get? other := by
  obtain ⟨state, state', -, rfl, dated⟩ := uses.written
  refine ⟨⟨state', ?_, dated⟩, fun other different => ?_⟩
  · rw [get?_setSubscription, if_pos rfl]
  · rw [get?_setSubscription, if_neg different]

/-! ## What dates nothing -/

theorem Undated.of_same {s s' : ServiceState V} (same : s'.subscriptions = s.subscriptions) : Undated s s' :=
  fun _ state' found => ⟨state', same ▸ found, rfl⟩

theorem Undated.refl (s : ServiceState V) : Undated s s := .of_same rfl

theorem Undated.setSubscription {s : ServiceState V} {id : SubscriptionId} {state state' : SubscriptionState V}
    (found : s.subscriptions.get? id = some state) (same : state'.lastActivity = state.lastActivity) :
    Undated s (s.setSubscription id state') := by
  intro other stored there
  rw [get?_setSubscription] at there
  split_ifs at there with here
  · cases there
    exact ⟨state, here ▸ found, same⟩
  · exact ⟨stored, there, rfl⟩

/-- Subscriptions are only removed. -/
theorem Undated.of_removed {s s' : ServiceState V}
    (removed : ∀ id state, s'.subscriptions.get? id = some state → s.subscriptions.get? id = some state) :
    Undated s s' := fun id state' found => ⟨state', removed id state' found, rfl⟩

theorem deleteSection_undated (clientId : Option String) (ids : List SubscriptionId) (s : ServiceState V) :
    Undated s (deleteSection settings clientId ids s).2.1 := by
  refine .of_removed fun other state found => ?_
  induction ids generalizing s with
  | nil => exact found
  | cons id ids ih =>
      rw [deleteSection] at found
      cases scope : s.inScope clientId id with
      | none =>
          rw [scope] at found
          exact ih s found
      | some known =>
          rw [scope] at found
          have erased := ih _ found
          rw [Dict.get?_erase] at erased
          split_ifs at erased
          exact erased

theorem expireSection_undated (started : Nat) (s : ServiceState V) :
    Undated s (expireSection settings started s).2.1 := by
  refine .of_removed fun other state found => ?_
  have erased (removed : List (SubscriptionState V)) (d : Dict SubscriptionId (SubscriptionState V))
      (kept : (removed.foldl (fun d state => d.erase state.subscriptionId) d).get? other = some state) :
      d.get? other = some state := by
    induction removed generalizing d with
    | nil => exact kept
    | cons first removed ih =>
        have smaller := ih (d.erase first.subscriptionId) kept
        rw [Dict.get?_erase] at smaller
        split_ifs at smaller
        exact smaller
  exact erased _ _ found

theorem handleDatachangeSection_undated (id : SubscriptionId) (nodeId : String) (value : V)
    (clientHandle : Option Int) (s : ServiceState V) :
    Undated s (handleDatachangeSection settings id nodeId value clientHandle s).2.1 := by
  unfold handleDatachangeSection
  cases found : s.subscriptions.get? id with
  | none => exact .refl s
  | some state =>
      dsimp only
      split
      · exact .refl s
      · exact .setSubscription found (appendUpdate_lastActivity _ _ _ _)

theorem updateSubscriptionModeSection_undated (id : SubscriptionId) (s : ServiceState V) :
    Undated s (updateSubscriptionModeSection id s).2.1 := by
  unfold updateSubscriptionModeSection
  cases found : s.subscriptions.get? id with
  | none => exact .refl s
  | some state =>
      dsimp only
      split
      · exact .setSubscription found rfl
      · split
        · exact .setSubscription found rfl
        · exact .setSubscription found rfl

theorem waitTimeoutSection_undated (clientId : Option String) (id : SubscriptionId) (refresh : Bool)
    (threshold : Nat) (s : ServiceState V) :
    Undated s (waitTimeoutSection settings clientId id refresh threshold s).2.1 := by
  unfold waitTimeoutSection
  cases found : s.inScope clientId id with
  | none => exact .refl s
  | some state =>
      dsimp only
      split
      · exact .setSubscription (inScope_get? found) rfl
      · exact .refl s

theorem resetTimeoutSection_undated (clientId : Option String) (id : SubscriptionId) (s : ServiceState V) :
    Undated s (resetTimeoutSection clientId id s).2.1 := by
  unfold resetTimeoutSection
  cases found : s.inScope clientId id with
  | none => exact .refl s
  | some state => exact .setSubscription (inScope_get? found) rfl

/-! ## The sections of the client's own calls -/

theorem membershipSection_active (clientId : Option String) (id : SubscriptionId)
    (change : Dict String Int → Dict String Int) (model : BuildResult) (fuel : Nat) (s : ServiceState V) :
    Uses settings id s (membershipSection settings clientId id change model fuel s).2.1 ∨
      Undated s (membershipSection settings clientId id change model fuel s).2.1 := by
  rcases membershipSection_cases settings clientId id change model fuel s with
    ⟨result, same, -⟩ | ⟨state, resolution, found, -, same⟩
  · rw [same]
    exact .inr (.refl s)
  · exact .inl (.membership (congrArg Prod.fst same))

theorem refreshAppendSection_active (id : SubscriptionId) (values : List (String × V)) (s : ServiceState V) :
    Uses settings id s (refreshAppendSection settings id values s).2.1 ∨
      Undated s (refreshAppendSection settings id values s).2.1 := by
  cases found : s.subscriptions.get? id with
  | none =>
      right
      simp only [refreshAppendSection, found]
      exact .refl s
  | some state => exact .inl (.refresh (found ▸ rfl))

theorem syncStartSection_active (clientId : Option String) (id : SubscriptionId) (ack : Option Int)
    (allow : Bool) (s : ServiceState V) :
    Uses settings id s (syncStartSection clientId id ack allow s).2.1 ∨
      Undated s (syncStartSection clientId id ack allow s).2.1 := by
  cases found : s.inScope clientId id with
  | none =>
      right
      simp only [syncStartSection, found]
      exact .refl s
  | some state =>
      by_cases refused : (state.streamConnected && !allow) = true
      · right
        simp only [syncStartSection, found, refused, if_true]
        exact .refl s
      · have proceeds : ∃ refresh, (syncStartSection clientId id ack allow s).1 = .proceed refresh := by
          simp only [syncStartSection, found, refused, if_false, Bool.false_eq_true]
          exact ⟨_, rfl⟩
        obtain ⟨refresh, proceeds⟩ := proceeds
        exact .inl (.syncStart proceeds)

theorem syncReportSection_active (clientId : Option String) (id : SubscriptionId) (s : ServiceState V) :
    Uses settings id s (syncReportSection clientId id s).2.1 ∨ Undated s (syncReportSection clientId id s).2.1 := by
  cases found : s.inScope clientId id with
  | none =>
      right
      simp only [syncReportSection, found]
      exact .refl s
  | some state => exact .inl (.syncReport (by simp only [syncReportSection, found, Option.isSome_some]))

theorem activateStreamSection_active (clientId : Option String) (id : SubscriptionId) (s : ServiceState V) :
    Uses settings id s (activateStreamSection clientId id s).2.1 ∨
      Undated s (activateStreamSection clientId id s).2.1 := by
  cases found : s.inScope clientId id with
  | none =>
      right
      simp only [activateStreamSection, found]
      exact .refl s
  | some state => exact .inl (.activate (by simp only [activateStreamSection, found, Option.isSome_some]))

theorem waitStartSection_active (clientId : Option String) (id : SubscriptionId)
    (afterSequence timeoutMs : Nat) (s : ServiceState V) :
    Uses settings id s (waitStartSection settings clientId id afterSequence timeoutMs s).2.1 ∨
      Undated s (waitStartSection settings clientId id afterSequence timeoutMs s).2.1 := by
  cases found : s.inScope clientId id with
  | none =>
      right
      simp only [waitStartSection, found]
      exact .refl s
  | some state => exact .inl (.waitStart (found ▸ rfl))

theorem waitResultSection_active (clientId : Option String) (id : SubscriptionId) (afterSequence : Nat)
    (timedOut : Bool) (s : ServiceState V) :
    Uses settings id s (waitResultSection clientId id afterSequence timedOut s).2.1 ∨
      Undated s (waitResultSection clientId id afterSequence timedOut s).2.1 := by
  cases found : s.inScope clientId id with
  | none =>
      right
      simp only [waitResultSection, found]
      exact .refl s
  | some state => exact .inl (.waitResult (by simp only [waitResultSection, found, Option.isSome_some]))

theorem deactivateStreamSection_active (id : SubscriptionId) (generation : Nat) (s : ServiceState V) :
    Uses settings id s (deactivateStreamSection id generation s).2.1 ∨
      Undated s (deactivateStreamSection id generation s).2.1 := by
  by_cases newest : (isStreamActiveSection id generation s).1 = true
  · exact .inl (.deactivate newest)
  · right
    unfold deactivateStreamSection
    unfold isStreamActiveSection at newest
    cases found : s.subscriptions.get? id with
    | none => exact .refl s
    | some state =>
        rw [found] at newest
        dsimp only at newest ⊢
        rw [if_neg (by simpa only [decide_eq_true_eq] using newest)]
        exact .refl s

/-! ## The programs -/

section
variable (settings) {own : Option SubscriptionId}

theorem within_looks {α : Type} {l : Lock} {f : Section V α} (looks : Looks f) :
    (locked l f : Act V α).Within (Active settings own) := by
  refine .locked fun m s => .inr ?_
  rw [looks s]
  exact .refl s

/-- A section that uses the call's subscription or dates nothing. -/
theorem within_own {α : Type} {l : Lock} {f : Section V α} {id : SubscriptionId} (about : own = some id)
    (active : ∀ s, Uses settings id s (f s).2.1 ∨ Undated s (f s).2.1) :
    (locked l f : Act V α).Within (Active settings own) :=
  .locked fun _ s => (active s).imp (fun uses => ⟨id, about, uses⟩) fun undated => undated

theorem within_dateless {α : Type} {l : Lock} {f : Section V α} (undated : ∀ s, Undated s (f s).2.1) :
    (locked l f : Act V α).Within (Active settings own) := .locked fun _ s => .inr (undated s)

theorem within_reply (q : Request V) : (await q).Within (Active settings own) := .ask q

/-- Work on the monitors leaves the subscriptions and the values on their way alone. -/
theorem monitors_outside {m : ServiceMemory V} {s s' : ServiceState V} {ns : List (Note V)}
    (stretch : Stretches settings anyChange (Concern.monitors = ·) m s ns s') : SameOutside s s' := by
  obtain ⟨k, rfl, stretch⟩ := stretch
  cases stretch with
  | look => exact ⟨rfl, rfl, rfl, rfl⟩
  | startPolling ref nodeId =>
      unfold startPollingSection
      split <;> exact ⟨rfl, rfl, rfl, rfl⟩
  | clearMonitor ref => exact ⟨rfl, rfl, rfl, rfl⟩
  | freshBin => exact ⟨rfl, rfl, rfl, rfl⟩
  | commitNewBin ref nodeId binId uaSubscription capacity handle =>
      unfold commitNewBinSection
      split <;> exact ⟨rfl, rfl, rfl, rfl⟩
  | commitAdd ref nodeId binId handle =>
      unfold commitAddSection
      split
      · split <;> exact ⟨rfl, rfl, rfl, rfl⟩
      · exact ⟨rfl, rfl, rfl, rfl⟩
  | leaveBin nodeId binId =>
      unfold leaveBinSection
      split
      · exact ⟨rfl, rfl, rfl, rfl⟩
      · dsimp only
        split <;> exact ⟨rfl, rfl, rfl, rfl⟩
  | reconnect survivors =>
      have same := resyncBins_sameRegistry s survivors s.bins.entries
      exact ⟨same.subscriptions, same.nextSubscription, same.nodeDatachangeQueue, same.served⟩
  | backOff => exact ⟨rfl, rfl, rfl, rfl⟩
  | admissionStarted ref => exact ⟨rfl, rfl, rfl, rfl⟩
  | admissionEnded ref => exact ⟨rfl, rfl, rfl, rfl⟩

/-- The acts of a program that leave the subscriptions and the values on their way alone. -/
def Outside (_ : ServiceMemory V) (s : ServiceState V) (_ : List (Note V)) (s' : ServiceState V) : Prop :=
  SameOutside s s'

theorem within_active_of_outside {α : Type} {p : Act V α} (inside : p.Within Outside) :
    p.Within (Active settings own) := inside.mono fun _ _ _ _ same => .inr (.of_same same.subscriptions)

include settings in
theorem releaseNodeMonitor_outside (nodeId : String) (id : SubscriptionId) :
    (releaseNodeMonitor nodeId id : Act V Unit).Within Outside := by
  refine Within.bind (.locked fun _ s => releaseSection_outside nodeId id s) fun orphaned => ?_
  cases orphaned with
  | none => exact .ret _
  | some ref =>
      have inside : (stopNodeMonitorRuntime ref nodeId : Act V Unit).Within
          (Stretches settings anyChange (Concern.monitors = ·)) :=
        stopNodeMonitorRuntime_stretches settings anyChange rfl ref nodeId
      exact inside.mono fun _ _ _ _ stretch => monitors_outside settings stretch

theorem startNodeMonitorRuntime_outside (ref : MonitorRef) (nodeId : String) :
    (startNodeMonitorRuntime settings ref nodeId).Within Outside := by
  have inside : (startNodeMonitorRuntime settings ref nodeId).Within
      (Stretches settings anyChange (Concern.monitors = ·)) :=
    startNodeMonitorRuntime_stretches settings anyChange rfl ref nodeId
  exact inside.mono fun _ _ _ _ stretch => monitors_outside settings stretch

theorem acquireNodeMonitor_outside (nodeId : String) (id : SubscriptionId) :
    (acquireNodeMonitor settings nodeId id).Within Outside := by
  refine Within.bind (.locked fun _ s => acquireSection_outside nodeId id s) fun registered => ?_
  cases registered with
  | none => exact .ret _
  | some ref => exact startNodeMonitorRuntime_outside settings ref nodeId

theorem releaseAllNodes_outside (state : SubscriptionState V) :
    (releaseAllNodes settings state).Within Outside := by
  refine Within.bind (.forEach fun nodeId _ => releaseNodeMonitor_outside settings nodeId _) fun _ => ?_
  exact .locked fun _ s => ⟨rfl, rfl, rfl, rfl⟩

theorem updateSubscriptionMode_active (id : SubscriptionId) :
    (updateSubscriptionMode id : Act V Unit).Within (Active settings own) :=
  within_dateless settings fun s => updateSubscriptionModeSection_undated id s

theorem fanoutNodeValue_active (nodeId : String) (value : V) :
    (fanoutNodeValue settings nodeId value).Within (Active settings own) := by
  refine Within.bind (within_looks settings (subscribers_looks settings nodeId)) fun ids => ?_
  exact .forEach fun id _ => within_dateless settings fun s =>
    handleDatachangeSection_undated id nodeId value none s

theorem dequeueSection_undated (s : ServiceState V) : Undated s (dequeueSection s).2.1 := by
  unfold dequeueSection
  split <;> exact .of_same rfl

theorem nodeDatachangeTurn_active : (nodeDatachangeTurn settings).Within (Active settings own) := by
  refine Within.bind (.atomic fun _ s => .inr (dequeueSection_undated s)) fun item => ?_
  cases item with
  | none => exact .ret _
  | some item => exact fanoutNodeValue_active settings item.1 item.2

theorem sharedPollingTurn_active : (sharedPollingTurn settings).Within (Active settings own) := by
  refine Within.bind (within_looks settings fun _ => rfl) fun nodeIds => ?_
  split
  · exact .ret _
  · refine Within.bind (within_reply settings _) fun values => ?_
    cases values with
    | none => exact .ret _
    | some values => exact .forEach fun item _ => fanoutNodeValue_active settings item.1 item.2

theorem handleClientReconnect_active (survivors : Nat → Option (String → Option Int)) :
    (handleClientReconnect settings survivors).Within (Active settings own) := by
  refine Within.bind (within_dateless settings fun s => ?_) fun found => ?_
  · exact .of_same (resyncBins_sameRegistry s survivors s.bins.entries).subscriptions
  refine Within.bind (.forEach fun bin _ => ?_) fun _ => ?_
  · exact Within.bind (within_reply settings _) fun _ => .ret _
  refine Within.bind (.forEach fun nodeId _ => ?_) fun _ => ?_
  · refine Within.bind (within_looks settings (idleMonitor_looks nodeId)) fun idle => ?_
    cases idle with
    | none => exact .ret _
    | some ref => exact within_active_of_outside settings (startNodeMonitorRuntime_outside settings ref nodeId)
  refine Within.bind (within_looks settings fun _ => rfl) fun ids => ?_
  exact .forEach fun id _ => updateSubscriptionMode_active settings id

theorem deleteSubscriptions_active (clientId : Option String) (ids : List SubscriptionId) :
    (deleteSubscriptions settings clientId ids).Within (Active settings own) := by
  refine Within.bind (within_dateless settings fun s => deleteSection_undated clientId ids s) fun found => ?_
  exact Within.bind (.forEach fun state _ =>
    within_active_of_outside settings (releaseAllNodes_outside settings state)) fun _ => .ret _

theorem expireSubscriptions_active : (expireSubscriptions settings).Within (Active settings own) := by
  refine Within.bind (.read fun _ s => .inr (.refl s)) fun started => ?_
  refine Within.bind (within_dateless settings fun s => expireSection_undated started s) fun removed => ?_
  exact .forEach fun state _ => within_active_of_outside settings (releaseAllNodes_outside settings state)

variable {id : SubscriptionId} (about : own = some id)
include about

theorem refreshChangedValues_active : (refreshChangedValues settings id).Within (Active settings own) := by
  refine Within.bind (within_looks settings (refreshTargets_looks id)) fun nodeIds => ?_
  split
  · exact .ret _
  · refine Within.bind (within_reply settings _) fun values => ?_
    cases values with
    | none => exact .ret _
    | some values => exact within_own settings about fun s => refreshAppendSection_active id _ s

theorem applyMonitoredNodeDiff_active (previous new : Finset String) :
    (applyMonitoredNodeDiff settings id previous new).Within (Active settings own) := by
  refine Within.bind (.forEach fun nodeId _ =>
    within_active_of_outside settings (releaseNodeMonitor_outside settings nodeId id)) fun _ => ?_
  refine Within.bind (.forEach fun nodeId _ =>
    within_active_of_outside settings (acquireNodeMonitor_outside settings nodeId id)) fun _ => ?_
  refine Within.bind (updateSubscriptionMode_active settings id) fun _ => ?_
  unfold seedInitialUpdates
  split
  · exact refreshChangedValues_active settings about
  · exact .ret _

theorem changeMembership_active (clientId : Option String) (change : Dict String Int → Dict String Int)
    (model : BuildResult) (fuel : Nat) :
    (changeMembership settings clientId id change model fuel).Within (Active settings own) := by
  refine Within.acquire (Within.bind (.atomic fun _ s => ?_) fun changed => ?_)
  · exact (membershipSection_active clientId id change model fuel s).imp (fun uses => ⟨id, about, uses⟩)
      fun undated => undated
  · cases changed with
    | missing => exact .release (.ret _)
    | endless => exact fun _ reply => reply.elim
    | changed previous new =>
        exact .release (Within.bind (applyMonitoredNodeDiff_active settings about previous new) fun _ => .ret _)

theorem sync_active (clientId : Option String) (ack : Option Int) (allow : Bool) :
    (sync settings clientId id ack allow).Within (Active settings own) := by
  have report : (locked .main (syncReportSection clientId id) : Act V (Option (SubscriptionSyncResult V))).Within
      (Active settings own) := within_own settings about fun s => syncReportSection_active clientId id s
  refine Within.bind (within_own settings about fun s => syncStartSection_active clientId id ack allow s)
    fun started => ?_
  cases started with
  | missing => exact .ret _
  | refused => exact .ret _
  | proceed shouldRefresh =>
      cases shouldRefresh with
      | true => exact Within.bind (refreshChangedValues_active settings about) fun _ => report
      | false => exact report

theorem waitForUpdates_active (clientId : Option String) (afterSequence timeoutMs : Nat) :
    (waitForUpdates settings clientId id afterSequence timeoutMs).Within (Active settings own) := by
  have result (timedOut : Bool) :
      (locked .main (waitResultSection clientId id afterSequence timedOut) :
        Act V (Option (List (SubscriptionUpdate V)))).Within (Active settings own) :=
    within_own settings about fun s => waitResultSection_active clientId id afterSequence timedOut s
  refine Within.bind (within_own settings about fun s =>
    waitStartSection_active clientId id afterSequence timeoutMs s) fun started => ?_
  cases started with
  | missing => exact .ret _
  | ready updates => exact .ret _
  | wait refreshAfterTimeout threshold =>
      refine Within.bind (within_reply settings _) fun outcome => ?_
      cases (outcome : WaitOutcome) with
      | disconnected => exact .ret _
      | shutdown => exact .ret _
      | updated => exact Within.bind (result false) fun _ => .ret _
      | timeout =>
          refine Within.bind (within_dateless settings fun s =>
            waitTimeoutSection_undated clientId id refreshAfterTimeout threshold s) fun execute => ?_
          cases execute with
          | none => exact .ret _
          | some execute =>
              cases execute with
              | false => exact Within.bind (result true) fun _ => .ret _
              | true =>
                  refine Within.bind (within_dateless settings fun s =>
                    resetTimeoutSection_undated clientId id s) fun present => ?_
                  cases present with
                  | true =>
                      refine Within.bind (refreshChangedValues_active settings about) fun _ => ?_
                      exact Within.bind (result true) fun _ => .ret _
                  | false => exact .ret _

end

/-! ## Streams -/

section
variable (settings) {own : Option SubscriptionId} {id : SubscriptionId} (about : own = some id)
include about

theorem streamRounds_active (session : StreamSession V) (same : session.subscriptionId = id)
    (rounds lastSequence : Nat) :
    (streamRounds settings session rounds lastSequence).Within (Active settings own) := by
  induction rounds generalizing lastSequence with
  | zero => exact .ret _
  | succ rounds ih =>
      refine Within.bind (within_looks settings (isStreamActive_looks _ _)) fun active => ?_
      cases active with
      | false => exact Within.bind (within_reply settings _) fun _ => .ret _
      | true =>
          refine Within.bind (waitForUpdates_active settings (about.trans (congrArg some same.symm)) _ _ _)
            fun waited => ?_
          cases waited with
          | disconnected => exact .ret _
          | closed => exact Within.bind (within_reply settings _) fun _ => .ret _
          | ready updates =>
              dsimp only
              split
              · refine Within.bind (within_reply settings _) fun present => ?_
                cases (present : Bool) with
                | true => exact ih lastSequence
                | false => exact .ret _
              · refine Within.bind (within_reply settings _) fun present => ?_
                cases (present : Bool) with
                | true => exact ih _
                | false => exact .ret _

omit about in
theorem missDeactivation_active (id : SubscriptionId) (generation : Nat) :
    (missDeactivation id generation : Act V Unit).Within (Active settings own) :=
  .note fun _ s => .inr (.refl s)

theorem finallyDeactivate_active (generation : Nat) :
    (finallyDeactivate id generation : Act V Unit).Within (Active settings own) := by
  refine Within.bind (within_reply settings _) fun completed => ?_
  cases (completed : Bool) with
  | true => exact within_own settings about fun s => deactivateStreamSection_active _ _ s
  | false => exact missDeactivation_active settings id generation

theorem respondStream_active (session : StreamSession V) (same : session.subscriptionId = id) (rounds : Nat) :
    (respondStream settings session rounds).Within (Active settings own) := by
  have closing := finallyDeactivate_active settings (about.trans (congrArg some same.symm)) session.streamGeneration
  refine Within.bind (within_reply settings _) fun started => ?_
  cases (started : Bool) with
  | false => exact missDeactivation_active settings _ _
  | true =>
      rw [if_pos rfl]
      refine Within.bind (within_reply settings _) fun present => ?_
      cases (present : Bool) with
      | false => exact closing
      | true =>
          rw [if_pos rfl]
          split
          · exact Within.bind (streamRounds_active settings about session same rounds 0) fun _ => closing
          · refine Within.bind (within_reply settings _) fun present => ?_
            cases (present : Bool) with
            | true => exact Within.bind (streamRounds_active settings about session same rounds _) fun _ => closing
            | false => exact closing

omit about in
/-- A session is one of the subscription it was asked for. -/
theorem beginStreamSession_about (clientId : Option String) (id : SubscriptionId) :
    (beginStreamSession settings clientId id).Answers fun result =>
      ∀ session, result = .ok session → session.subscriptionId = id := by
  unfold beginStreamSession
  split
  · intro session same
    cases same
  · refine Program.Answers.bind fun opened => ?_
    cases opened with
    | none => intro session same; cases same
    | some opened =>
        refine Program.Answers.bind fun acknowledged => ?_
        cases acknowledged with
        | none => intro session same; cases same
        | some acknowledged =>
            intro session same
            cases same
            rfl

theorem beginStreamSession_active (clientId : Option String) :
    (beginStreamSession settings clientId id).Within (Active settings own) := by
  have activating (clientId : Option String) :
      (activateStream clientId id : Act V (Option Nat)).Within (Active settings own) :=
    within_own settings about fun s => activateStreamSection_active clientId id s
  unfold beginStreamSession
  split
  · exact .ret _
  · refine Within.bind (Within.bind (activating _) fun generation => ?_) fun opened => ?_
    · cases generation with
      | some generation => exact .ret _
      | none => exact Within.bind (activating none) fun _ => .ret _
    · cases opened with
      | none => exact .ret _
      | some opened =>
          refine Within.bind (sync_active settings about _ none true) fun acknowledged => ?_
          cases acknowledged with
          | none => exact .ret _
          | some acknowledged => exact .ret _

theorem streamSubscription_active (clientId : Option String) (rounds : Nat) :
    (streamSubscription settings clientId id rounds).Within (Active settings own) := by
  refine Within.bind_answers (beginStreamSession_active settings about clientId)
    (beginStreamSession_about settings clientId id) fun session same => ?_
  cases session with
  | error status => exact .ret _
  | ok session =>
      exact Within.bind (respondStream_active settings about session (same session rfl) rounds) fun _ => .ret _

theorem syncSubscription_active (clientId : Option String) (last : Option Int) :
    (syncSubscription settings clientId id last).Within (Active settings own) := by
  unfold syncSubscription
  split
  · exact .ret _
  · refine Within.bind (sync_active settings about _ last false) fun result => ?_
    cases result with
    | none => exact .ret _
    | some result => exact .ret _

end

/-- Every act of a call that creates nothing is a use of the subscription the call
is about, or it dates nothing. -/
theorem program_active (call : Call V) (other : ¬ call.Creates) :
    (program settings call).Within (Active settings call.subscription?) := by
  cases call with
  | createSubscription clientId displayName => exact absurd trivial other
  | registerItems clientId id elementIds maxDepth model fuel =>
      exact Within.bind (changeMembership_active settings rfl clientId _ model fuel) fun _ => .ret _
  | unregisterItems clientId id elementIds model fuel =>
      exact Within.bind (changeMembership_active settings rfl clientId _ model fuel) fun _ => .ret _
  | deleteSubscriptions clientId ids =>
      exact Within.bind (deleteSubscriptions_active settings clientId ids) fun _ => .ret _
  | expireSubscriptions => exact Within.bind (expireSubscriptions_active settings) fun _ => .ret _
  | sync clientId id ack allow => exact Within.bind (sync_active settings rfl clientId ack allow) fun _ => .ret _
  | syncSubscription clientId id last =>
      exact Within.bind (syncSubscription_active settings rfl clientId last) fun _ => .ret _
  | streamSubscription clientId id rounds =>
      exact Within.bind (streamSubscription_active settings rfl clientId rounds) fun _ => .ret _
  | nodeDatachange nodeId value =>
      exact Within.bind (.atomic fun _ s => .inr (.of_same rfl)) fun _ => .ret _
  | nodeDatachangeTurn => exact Within.bind (nodeDatachangeTurn_active settings) fun _ => .ret _
  | sharedPollingTurn => exact Within.bind (sharedPollingTurn_active settings) fun _ => .ret _
  | clientReconnect survivors =>
      exact Within.bind (handleClientReconnect_active settings survivors) fun _ => .ret _
  | clockTick elapsed => exact Within.bind (.modify fun _ s => .inr (.of_same rfl)) fun _ => .ret _
  | valueChange nodeId value => exact Within.bind (.atomic fun _ s => .inr (.of_same rfl)) fun _ => .ret _

end I3x.Subscriptions

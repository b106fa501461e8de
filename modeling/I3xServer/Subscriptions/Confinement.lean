import I3xServer.Subscriptions.Steps
import I3xServer.Subscriptions.Stretches

/-!
# Every program of the service stays within its steps

What each stretch may append, and from it the relations that the programs stay
within: `RoutineStep` for the ones that leave the registry of monitors alone,
`CallStep` for every call.
-/
namespace I3x.Subscriptions
open Container Coroutine Program
variable {V : Type} (settings : Settings V)

/-- The stretch delivers a value to a subscription that does not monitor its node. -/
def Strays (ns : List (Note V)) : Prop := ∃ id nodeId, .delivering id nodeId true ∈ ns

/-- Values are appended under the node they were heard for, unless they stray. -/
def RoutineStep (m : ServiceMemory V) (s : ServiceState V) (ns : List (Note V))
    (s' : ServiceState V) : Prop :=
  Routine settings (fun nodeId value => Heard m nodeId value ∨ Strays ns) s ns s'

/-- A value goes under its own node, or the delivery strays. -/
theorem deliveryTarget_cases {state : SubscriptionState V} {nodeId target : String}
    (chosen : deliveryTarget settings state nodeId none = some target) :
    target = nodeId ∨ isStray state nodeId = true := by
  unfold deliveryTarget at chosen
  dsimp only at chosen
  by_cases monitored : nodeId ∈ state.monitoredNodeIds
  · rw [if_pos monitored] at chosen
    exact .inl (Option.some.inj chosen).symm
  rw [if_neg monitored] at chosen
  split at chosen
  · cases chosen
  split at chosen
  · rename_i only single
    have one : state.monitoredNodeIds.card = 1 := by
      rw [← settings.nodeOrder.length_list, single, List.length_singleton]
    right
    simp only [isStray, monitored, one, not_false_eq_true, decide_true, Bool.and_self]
  · split at chosen
    · cases chosen
    · exact .inl (Option.some.inj chosen).symm

theorem handleDatachangeSection_notes {s : ServiceState V} {id : SubscriptionId} {state : SubscriptionState V}
    (nodeId : String) (value : V) (found : s.subscriptions.get? id = some state) :
    .delivering id nodeId (isStray state nodeId) ∈
      (handleDatachangeSection settings id nodeId value none s).2.2 := by
  unfold handleDatachangeSection
  rw [found]
  dsimp only
  split
  · exact List.mem_singleton_self _
  · exact List.mem_cons_self

theorem deliver_routine {m : ServiceMemory V} (id : SubscriptionId) {nodeId : String} {value : V}
    (heard : Heard m nodeId value) (s : ServiceState V) :
    RoutineStep settings m s (handleDatachangeSection settings id nodeId value none s).2.2
      (handleDatachangeSection settings id nodeId value none s).2.1 := by
  refine handleDatachange_routine id s nodeId value none fun state target found chosen => ?_
  rcases deliveryTarget_cases settings chosen with rfl | stray
  · exact .inl heard
  · refine .inr ⟨id, nodeId, ?_⟩
    rw [← stray]
    exact handleDatachangeSection_notes settings nodeId value found

section
variable (allowed : (Dict String Int → Dict String Int) → BuildResult → Prop)

/-- Every step of a call, with the values it may append. -/
def CallStep (m : ServiceMemory V) (s : ServiceState V) (ns : List (Note V))
    (s' : ServiceState V) : Prop :=
  ServiceStep settings (fun nodeId value => Heard m nodeId value ∨ Strays ns) allowed s ns s'

variable {settings allowed} {m : ServiceMemory V} {s s' : ServiceState V} {ns : List (Note V)}

theorem Stretch.routine {k : Concern} (stretch : Stretch settings allowed k m s ns s')
    (other : k ≠ .membership) : RoutineStep settings m s ns s' := by
  have marked (s : ServiceState V) (n : Note V) (plain : n.Plain) : RoutineStep settings m s [n] s :=
    .upstream (.refl s) fun m h => List.mem_singleton.mp h ▸ plain
  have upstream {s s' : ServiceState V} (same : SameRegistry s s') : RoutineStep settings m s [] s' :=
    .of_sameRegistry _ same
  cases stretch with
  | look => exact .unchanged s
  | deliver id nodeId value heard => exact deliver_routine settings id heard s
  | refresh id values heard => exact refreshAppend_routine id s values fun item inside => .inl (heard item inside)
  | notify nodeId value => exact .notify nodeId value s
  | dequeue => exact dequeue_routine _ s
  | serve nodeId value => exact .serve nodeId value s
  | tick elapsed => exact upstream ⟨rfl, rfl, rfl, rfl, fun _ => rfl, rfl, rfl⟩
  | syncStart clientId id ack allow => exact syncStart_routine _ clientId id s ack allow
  | syncReport clientId id => exact syncReport_routine _ clientId id s
  | waitStart clientId id afterSequence timeoutMs => exact waitStart_routine _ clientId id s afterSequence timeoutMs
  | waitTimeout clientId id refresh threshold => exact waitTimeout_routine _ clientId id s refresh threshold
  | resetTimeout clientId id => exact resetTimeout_routine _ clientId id s
  | waitResult clientId id afterSequence timedOut => exact waitResult_routine _ clientId id s afterSequence timedOut
  | updateMode id => exact updateMode_routine _ id s
  | activate clientId id => exact activateStream_routine _ clientId id s
  | deactivate id generation => exact deactivateStream_routine _ id s generation
  | missDeactivation id generation => exact marked s _ trivial
  | startPolling ref nodeId => exact startPolling_routine _ s ref nodeId
  | clearMonitor ref => exact clearMonitor_routine _ s ref
  | freshBin => exact upstream ⟨rfl, rfl, rfl, rfl, fun _ => rfl, rfl, rfl⟩
  | commitNewBin ref nodeId binId uaSubscription capacity handle =>
      exact commitNewBin_routine _ s ref nodeId binId uaSubscription capacity handle
  | commitAdd ref nodeId binId handle => exact commitAdd_routine _ s ref nodeId binId handle
  | leaveBin nodeId binId => exact leaveBin_routine _ s nodeId binId
  | reconnect survivors => exact reconnect_routine _ s survivors
  | backOff => exact upstream ⟨rfl, rfl, rfl, rfl, fun _ => rfl, rfl, rfl⟩
  | admissionStarted ref => exact marked s _ trivial
  | admissionEnded ref => exact marked s _ trivial
  | create | change | delete | expire | acquire | release => exact absurd rfl other

theorem Stretch.callStep {k : Concern} (stretch : Stretch settings allowed k m s ns s') :
    CallStep settings allowed m s ns s' := by
  by_cases membership : k = .membership
  · cases stretch with
    | look => exact .routine (.unchanged s)
    | create clientId displayName started => exact .create clientId displayName started s
    | change clientId id change model fuel may => exact .membership clientId id change model fuel may s
    | delete clientId ids => exact .delete clientId ids s
    | expire started => exact .expire started s
    | acquire nodeId id => exact .acquire nodeId id s
    | release nodeId id => exact .release nodeId id s
    | _ => cases membership
  · exact .routine (stretch.routine membership)

end

section
variable {settings} {allowed : (Dict String Int → Dict String Int) → BuildResult → Prop} {α : Type} {p : Act V α}

/-- A program that leaves membership alone stays within the routine steps. -/
theorem within_routine (inside : p.Within (Stretches settings allowed (· ≠ .membership))) :
    p.Within (RoutineStep settings) :=
  inside.mono fun _ _ _ _ ⟨_, other, stretch⟩ => stretch.routine other

theorem within_callStep (inside : p.Within (Stretches settings allowed fun _ => True)) :
    p.Within (CallStep settings allowed) := inside.mono fun _ _ _ _ ⟨_, _, stretch⟩ => stretch.callStep

end

/-- Every membership change may happen. -/
abbrev anyChange : (Dict String Int → Dict String Int) → BuildResult → Prop := fun _ _ => True

theorem changesAllowed_any (call : Call V) : call.ChangesAllowed anyChange := by
  cases call <;> trivial

theorem program_within (allowed : (Dict String Int → Dict String Int) → BuildResult → Prop) (call : Call V)
    (may : call.ChangesAllowed allowed) : (program settings call).Within (CallStep settings allowed) :=
  within_callStep (program_stretches settings allowed trivial trivial trivial call may fun _ => trivial)

/-! ## The programs that leave membership alone -/

theorem startNodeMonitorRuntime_routine (ref : MonitorRef) (nodeId : String) :
    (startNodeMonitorRuntime settings ref nodeId).Within (RoutineStep settings) :=
  within_routine (startNodeMonitorRuntime_stretches settings anyChange nofun ref nodeId)

theorem stopNodeMonitorRuntime_routine (ref : MonitorRef) (nodeId : String) :
    (stopNodeMonitorRuntime ref nodeId : Act V Unit).Within (RoutineStep settings) :=
  within_routine (stopNodeMonitorRuntime_stretches settings anyChange nofun ref nodeId)

theorem updateSubscriptionMode_routine (id : SubscriptionId) :
    (updateSubscriptionMode id : Act V Unit).Within (RoutineStep settings) :=
  within_routine (updateSubscriptionMode_stretches settings anyChange nofun id)

theorem handleClientReconnect_routine (survivors : Nat → Option (String → Option Int)) :
    (handleClientReconnect settings survivors).Within (RoutineStep settings) :=
  within_routine (handleClientReconnect_stretches settings anyChange nofun nofun survivors)

theorem nodeDatachangeTurn_within : (nodeDatachangeTurn settings).Within (RoutineStep settings) :=
  within_routine (nodeDatachangeTurn_stretches settings anyChange nofun)

theorem sharedPollingTurn_within : (sharedPollingTurn settings).Within (RoutineStep settings) :=
  within_routine (sharedPollingTurn_stretches settings anyChange nofun)

theorem refreshChangedValues_within (id : SubscriptionId) :
    (refreshChangedValues settings id).Within (RoutineStep settings) :=
  within_routine (refreshChangedValues_stretches settings anyChange nofun id)

theorem seedInitialUpdates_within (id : SubscriptionId) :
    (seedInitialUpdates settings id).Within (RoutineStep settings) :=
  within_routine (seedInitialUpdates_stretches settings anyChange nofun id)

theorem sync_within (clientId : Option String) (id : SubscriptionId) (ack : Option Int) (allow : Bool) :
    (sync settings clientId id ack allow).Within (RoutineStep settings) :=
  within_routine (sync_stretches settings anyChange nofun clientId id ack allow)

theorem syncSubscription_within (clientId : Option String) (id : SubscriptionId) (last : Option Int) :
    (syncSubscription settings clientId id last).Within (RoutineStep settings) :=
  within_routine (syncSubscription_stretches settings anyChange nofun clientId id last)

theorem streamSubscription_within (clientId : Option String) (id : SubscriptionId) (rounds : Nat) :
    (streamSubscription settings clientId id rounds).Within (RoutineStep settings) :=
  within_routine (streamSubscription_stretches settings anyChange nofun nofun clientId id rounds)

end I3x.Subscriptions

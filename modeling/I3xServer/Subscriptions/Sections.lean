import I3xServer.Subscriptions.Updates

/-!
# The sections of the service

Each definition is one stretch of the service between two suspension points,
under the name of the method it belongs to.
-/
namespace I3x.Subscriptions
open Container
variable {V : Type}

/-! ## Subscriptions -/

def newSubscription (id : SubscriptionId) (clientId displayName : Option String) (now : Nat) :
    SubscriptionState V where
  subscriptionId := id
  clientId := clientId
  displayName := displayName
  monitoredObjects := .empty
  monitoredNodeIds := ∅
  nodeToElementId := .empty
  handleToNodeId := .empty
  lastValuesByNodeId := .empty
  updates := []
  sequenceNumber := 0
  mode := .idle
  updateEvent := false
  activeStreamGeneration := 0
  streamConnected := false
  droppedFromSequence := none
  droppedToSequence := none
  lastActivity := now
  nativeRefreshInterval := none
  nativeTimeoutCount := 0

def createSection (clientId displayName : Option String) (now : Nat) : Section V SubscriptionId := fun s =>
  let id := s.nextSubscription
  let s' := s.setSubscription id (newSubscription id clientId displayName now)
  (id, { s' with nextSubscription := id + 1 }, [.created id])

def releases (settings : Settings V) (id : SubscriptionId) (nodeIds : Finset String) : List MonitorOp :=
  (settings.nodeOrder.list nodeIds).map fun nodeId => ⟨nodeId, id, false⟩

def acquisitions (settings : Settings V) (id : SubscriptionId) (nodeIds : Finset String) : List MonitorOp :=
  (settings.nodeOrder.list nodeIds).map fun nodeId => ⟨nodeId, id, true⟩

/-- What is left to do in the registry of monitors after a change of membership. -/
def plannedDiff (settings : Settings V) (id : SubscriptionId) (previous new : Finset String) :
    List MonitorOp :=
  releases settings id (previous \ new) ++ acquisitions settings id (new \ previous)

inductive MembershipChange where
  | missing
  | endless
  | changed (previous new : Finset String)

/-- The locked part of `register_items` and of `unregister_items`, which differ in
how they change the registered objects. -/
def membershipSection (settings : Settings V) (clientId : Option String) (id : SubscriptionId)
    (change : Dict String Int → Dict String Int) (model : BuildResult) (fuel : Nat) :
    Section V MembershipChange := fun s =>
  match s.inScope clientId id with
  | none => (.missing, s, [])
  | some state =>
      let monitoredObjects := change state.monitoredObjects
      match resolveMonitoredNodeIds settings.text fuel monitoredObjects model with
      | none => (.endless, s, [])
      | some resolution =>
          let state' :=
            { state with
              monitoredObjects := monitoredObjects
              monitoredNodeIds := resolution.nodeIds
              nodeToElementId := resolution.nodeToElementId
              lastValuesByNodeId :=
                state.lastValuesByNodeId.filterKeys fun nodeId => decide (nodeId ∈ resolution.nodeIds)
              lastActivity := s.clock }
          (.changed state.monitoredNodeIds resolution.nodeIds, s.setSubscription id state',
            (plannedDiff settings id state.monitoredNodeIds resolution.nodeIds).map .planned)

structure SubscriptionDeleteResult where
  success : Bool
  subscriptionId : SubscriptionId
  error : Option (Nat × String)
  deriving DecidableEq, Repr

/-- The notes of a removed subscription, whose monitors are to be released. -/
def removalNotes (settings : Settings V) (state : SubscriptionState V) : List (Note V) :=
  (releases settings state.subscriptionId state.monitoredNodeIds).map .planned

/-- The locked part of `delete_subscriptions`, one requested id at a time. -/
def deleteSection (settings : Settings V) (clientId : Option String) :
    List SubscriptionId → Section V (List (SubscriptionState V) × List SubscriptionDeleteResult)
  | [], s => (([], []), s, [])
  | id :: ids, s =>
      match s.inScope clientId id with
      | none =>
          let ((removed, results), s, notes) := deleteSection settings clientId ids s
          ((removed, ⟨false, id, some (404, "Subscription not found")⟩ :: results), s, notes)
      | some state =>
          let ((removed, results), s, notes) :=
            deleteSection settings clientId ids { s with subscriptions := s.subscriptions.erase id }
          ((state :: removed, ⟨true, id, none⟩ :: results), s, removalNotes settings state ++ notes)

def isStale (settings : Settings V) (now : Nat) (state : SubscriptionState V) : Bool :=
  state.lastActivity + settings.ttlMs ≤ now

def expireSection (settings : Settings V) (now : Nat) : Section V (List (SubscriptionState V)) := fun s =>
  let removed := s.subscriptions.values.filter (isStale settings now)
  let subscriptions := removed.foldl (fun d state => d.erase state.subscriptionId) s.subscriptions
  (removed, { s with subscriptions }, removed.flatMap (removalNotes settings))

/-! ## Sync, streams and waiting -/

inductive SyncStart where
  | missing
  | refused
  | proceed (shouldRefresh : Bool)
  deriving DecidableEq, Repr

def syncStartSection (clientId : Option String) (id : SubscriptionId) (acknowledgeSequence : Option Int)
    (allowWhenStreamActive : Bool) : Section V SyncStart := fun s =>
  match s.inScope clientId id with
  | none => (.missing, s, [])
  | some state =>
      if state.streamConnected && !allowWhenStreamActive then (.refused, s, [])
      else
        let state' := acknowledge state acknowledgeSequence
        let shouldRefresh :=
          acknowledgeSequence.isNone && state'.updates.isEmpty && decide (state'.monitoredNodeIds.Nonempty)
        (.proceed shouldRefresh, s.setSubscription id { state' with lastActivity := s.clock },
          (acknowledgeSequence.map fun value => Note.acknowledged state.subscriptionId value state.sequenceNumber).toList)

def syncReportSection (clientId : Option String) (id : SubscriptionId) :
    Section V (Option (SubscriptionSyncResult V)) := fun s =>
  match s.inScope clientId id with
  | none => (none, s, [])
  | some state =>
      let state' :=
        { state with droppedFromSequence := none, droppedToSequence := none, lastActivity := s.clock }
      (some (syncResult state), s.setSubscription id state',
        [.reported state.subscriptionId (syncResult state) state.sequenceNumber])

def activateStreamSection (clientId : Option String) (id : SubscriptionId) : Section V (Option Nat) := fun s =>
  match s.inScope clientId id with
  | none => (none, s, [])
  | some state =>
      let generation := state.activeStreamGeneration + 1
      let state' :=
        { state with
          activeStreamGeneration := generation, streamConnected := true
          lastActivity := s.clock, updateEvent := true }
      (some generation, s.setSubscription id state', [.streamActivated id])

def deactivateStreamSection (id : SubscriptionId) (generation : Nat) : Section V Unit := fun s =>
  match s.subscriptions.get? id with
  | none => ((), s, [])
  | some state =>
      if state.activeStreamGeneration = generation then
        ((), s.setSubscription id { state with streamConnected := false, lastActivity := s.clock }, [])
      else ((), s, [])

def isStreamActiveSection (id : SubscriptionId) (generation : Nat) : Section V Bool := fun s =>
  match s.subscriptions.get? id with
  | none => (false, s, [])
  | some state => (decide (state.activeStreamGeneration = generation), s, [])

inductive WaitStart (V : Type) where
  | missing
  | ready (updates : List (SubscriptionUpdate V))
  | wait (refreshAfterTimeout : Bool) (threshold : Nat)

/-- How many timeouts make up one refresh interval of a native subscription. -/
def refreshTimeoutThreshold (settings : Settings V) (state : SubscriptionState V) (timeoutMs : Nat) : Nat :=
  let interval :=
    match state.nativeRefreshInterval with
    | none => settings.intervalMs
    | some interval => if interval = 0 then settings.intervalMs else interval
  max 1 ((interval + (max 1 timeoutMs - 1)) / max 1 timeoutMs)

def waitStartSection (settings : Settings V) (clientId : Option String) (id : SubscriptionId)
    (afterSequence timeoutMs : Nat) : Section V (WaitStart V) := fun s =>
  match s.inScope clientId id with
  | none => (.missing, s, [])
  | some state =>
      let touched := { state with lastActivity := s.clock }
      match updatesAfter touched afterSequence with
      | [] =>
          let shouldRefresh :=
            decide (state.mode = .native) && decide (state.monitoredNodeIds.Nonempty) &&
              decide (settings.nativeTimeoutRefreshMode ≠ .strict)
          let threshold :=
            if shouldRefresh && decide (settings.nativeTimeoutRefreshMode = .adaptive) then
              refreshTimeoutThreshold settings state timeoutMs
            else 1
          (.wait shouldRefresh threshold, s.setSubscription id { touched with updateEvent := false }, [])
      | current => (.ready current, s.setSubscription id { touched with nativeTimeoutCount := 0 }, [])

/-- After a timeout: whether the values are refreshed before the wait answers. -/
def waitTimeoutSection (settings : Settings V) (clientId : Option String) (id : SubscriptionId)
    (refreshAfterTimeout : Bool) (threshold : Nat) : Section V (Option Bool) := fun s =>
  match s.inScope clientId id with
  | none => (none, s, [])
  | some state =>
      if refreshAfterTimeout then
        let count := state.nativeTimeoutCount + 1
        let execute := decide (settings.nativeTimeoutRefreshMode ≠ .adaptive) || decide (threshold ≤ count)
        (some execute, s.setSubscription id { state with nativeTimeoutCount := count }, [])
      else (some false, s, [])

def resetTimeoutSection (clientId : Option String) (id : SubscriptionId) : Section V Bool := fun s =>
  match s.inScope clientId id with
  | none => (false, s, [])
  | some state => (true, s.setSubscription id { state with nativeTimeoutCount := 0 }, [])

/-- The closing section of a wait; an update rather than a timeout resets the count. -/
def waitResultSection (clientId : Option String) (id : SubscriptionId) (afterSequence : Nat)
    (timedOut : Bool) : Section V (Option (List (SubscriptionUpdate V))) := fun s =>
  match s.inScope clientId id with
  | none => (none, s, [])
  | some state =>
      let count := if timedOut then state.nativeTimeoutCount else 0
      let state' := { state with lastActivity := s.clock, nativeTimeoutCount := count }
      (some (updatesAfter state afterSequence), s.setSubscription id state', [])

/-! ## Values -/

/-- The node whose value `handle_datachange` appends, `none` when it drops the value. -/
def deliveryTarget (settings : Settings V) (state : SubscriptionState V) (nodeId : String)
    (clientHandle : Option Int) : Option String :=
  let resolved :=
    match clientHandle with
    | none => nodeId
    | some handle => (state.handleToNodeId.get? handle).getD nodeId
  if resolved ∈ state.monitoredNodeIds then some resolved
  else
    let mapped :=
      (state.nodeToElementId.get? resolved).or (state.nodeToElementId.get? (settings.text.lower resolved))
    if mapped.isNone && decide (state.monitoredNodeIds = ∅) then none
    else
      match settings.nodeOrder.list state.monitoredNodeIds with
      | [only] => some only
      | _ => if mapped.isNone then none else some resolved

/-- The value is for a node that the subscription, which monitors one other node,
does not monitor. -/
def isStray (state : SubscriptionState V) (nodeId : String) : Bool :=
  decide (nodeId ∉ state.monitoredNodeIds) && decide (state.monitoredNodeIds.card = 1)

def handleDatachangeSection (settings : Settings V) (id : SubscriptionId) (nodeId : String) (value : V)
    (clientHandle : Option Int) : Section V Unit := fun s =>
  match s.subscriptions.get? id with
  | none => ((), s, [])
  | some state =>
      let seen := Note.delivering id nodeId (isStray state nodeId)
      match deliveryTarget settings state nodeId clientHandle with
      | none => ((), s, [seen])
      | some target =>
          let (state', notes) := appendUpdate settings s.clock state target value
          ((), s.setSubscription id { state' with nativeTimeoutCount := 0 }, seen :: notes)

def refreshTargetsSection (id : SubscriptionId) : Section V (List String) := fun s =>
  match s.subscriptions.get? id with
  | none => ([], s, [])
  | some state => if state.mode = .idle then ([], s, []) else (sorted state.monitoredNodeIds, s, [])

def refreshAppendSection (settings : Settings V) (id : SubscriptionId) (values : List (String × V)) :
    Section V Unit := fun s =>
  match s.subscriptions.get? id with
  | none => ((), s, [])
  | some state =>
      let (state', notes) := appendMonitored settings s.clock values state
      ((), s.setSubscription id { state' with lastActivity := s.clock }, notes)

def subscribersSection (settings : Settings V) (nodeId : String) : Section V (List SubscriptionId) := fun s =>
  match s.nodeMonitor nodeId with
  | none => ([], s, [])
  | some monitor => (settings.subscriberOrder.list monitor.subscriberIds, s, [])

def enqueueNodeDatachange (settings : Settings V) (nodeId : String) (value : V) : Section V Unit := fun s =>
  let queue :=
    if settings.queueSize ≤ s.nodeDatachangeQueue.length then s.nodeDatachangeQueue.tail
    else s.nodeDatachangeQueue
  ((), { s with nodeDatachangeQueue := queue ++ [(nodeId, value)] }, [.notified nodeId value])

def dequeueSection : Section V (Option (String × V)) := fun s =>
  match s.nodeDatachangeQueue with
  | [] => (none, s, [])
  | (nodeId, value) :: rest =>
      (some (nodeId, value), { s with nodeDatachangeQueue := rest }, [.dequeued nodeId value])

def polledNodesSection : Section V (List String) := fun s =>
  let polled := s.nodeMonitors.keys.filter fun nodeId =>
    match s.nodeMonitor nodeId with
    | some monitor => decide (monitor.mode = .polling)
    | none => false
  (polled.insertionSort (· ≤ ·), s, [])

/-! ## Node monitors and bins -/

/-- `some ref` if a new monitor object was registered, which has to be started. -/
def acquireSection (nodeId : String) (id : SubscriptionId) : Section V (Option MonitorRef) := fun s =>
  let seen := Note.performed ⟨nodeId, id, true⟩ (decide (s.Wanted nodeId id))
  match s.nodeMonitors.get? nodeId with
  | some ref =>
      let monitor := s.monitor ref
      (none, s.setMonitor ref { monitor with subscriberIds := insert id monitor.subscriberIds }, [seen])
  | none =>
      let ref := s.nextMonitor
      let monitor : NodeMonitor :=
        { nodeId, mode := .idle, subscriberIds := {id}, binId := none, nativeRefreshInterval := none }
      (some ref,
        { s.setMonitor ref monitor with
          nodeMonitors := s.nodeMonitors.set nodeId ref, nextMonitor := ref + 1 }, [seen])

/-- `some ref` if the last subscriber is gone and the monitor has to be stopped. -/
def releaseSection (nodeId : String) (id : SubscriptionId) : Section V (Option MonitorRef) := fun s =>
  let seen := Note.performed ⟨nodeId, id, false⟩ (decide (s.Wanted nodeId id))
  match s.nodeMonitors.get? nodeId with
  | none => (none, s, [seen])
  | some ref =>
      let monitor := s.monitor ref
      let subscriberIds := monitor.subscriberIds.erase id
      let s' := s.setMonitor ref { monitor with subscriberIds }
      if subscriberIds = ∅ then
        (some ref, { s' with nodeMonitors := s.nodeMonitors.erase nodeId }, [seen])
      else (none, s', [seen])

def updateSubscriptionModeSection (id : SubscriptionId) : Section V Unit := fun s =>
  match s.subscriptions.get? id with
  | none => ((), s, [])
  | some state =>
      if state.monitoredNodeIds = ∅ then
        ((), s.setSubscription id { state with mode := .idle, nativeRefreshInterval := none }, [])
      else
        let monitors : List (Option NodeMonitor) := (sorted state.monitoredNodeIds).map s.nodeMonitor
        let isNative := fun monitor : Option NodeMonitor =>
          match monitor with
          | some monitor => decide (monitor.mode = .native)
          | none => false
        if monitors.all isNative then
          let intervals := monitors.filterMap fun monitor => monitor.bind NodeMonitor.nativeRefreshInterval
          ((), s.setSubscription id { state with mode := .native, nativeRefreshInterval := intervals.min? }, [])
        else ((), s.setSubscription id { state with mode := .polling, nativeRefreshInterval := none }, [])

def totalMonitored (s : ServiceState V) : Nat := (s.bins.values.map fun bin => bin.nodeHandles.length).sum

inductive SlotChoice where
  | full
  | into (bin : ManagedBin)
  | open

def minPositive (value : Option Nat) : Option Nat :=
  match value with
  | some n => if 0 < n then some n else none
  | none => none

def defaultBinCapacity : Nat := 1000

def effectiveCapacity (caps : Capabilities) : Nat :=
  (minPositive caps.maxMonitoredItemsPerSubscription).getD defaultBinCapacity

def exceeds (count : Nat) (limit : Option Nat) : Bool :=
  match limit with
  | some limit => decide (limit < count)
  | none => false

def slotSection (caps : Capabilities) : Section V SlotChoice := fun s =>
  if exceeds (totalMonitored s + 1) caps.maxMonitoredItems then (.full, s, [])
  else
    match s.bins.values.find? fun bin => decide (bin.nodeHandles.length < bin.capacity) with
    | some bin => (.into bin, s, [])
    | none => (.open, s, [])

def canOpenNewBinSection (caps : Capabilities) : Section V Bool := fun s =>
  let binCount := s.bins.length
  (!exceeds (binCount + 1) caps.maxSubscriptions && !exceeds (binCount + 1) caps.maxSubscriptionsPerSession &&
    !exceeds (totalMonitored s + 1) caps.maxMonitoredItems, s, [])

def freshBinSection : Section V BinId := fun s => (s.nextBin, { s with nextBin := s.nextBin + 1 }, [])

/-- The registered monitor of the node is still this object. -/
def isLive (s : ServiceState V) (nodeId : String) (ref : MonitorRef) : Bool :=
  decide (s.nodeMonitors.get? nodeId = some ref)

def joinBin (s : ServiceState V) (ref : MonitorRef) (bin : ManagedBin) (nodeId : String) (handle : Int) :
    ServiceState V :=
  let bin' := { bin with nodeHandles := bin.nodeHandles.set nodeId handle }
  (s.setBin bin.binId bin').setMonitor ref
    { s.monitor ref with
      binId := some bin.binId, mode := .native, nativeRefreshInterval := bin.nativeRefreshInterval }

/-- Record a bin that was just created upstream, unless its monitor is gone. -/
def commitNewBinSection (ref : MonitorRef) (nodeId : String) (binId : BinId)
    (uaSubscription : UaSubscription) (capacity : Nat) (handle : Int) : Section V Bool := fun s =>
  if isLive s nodeId ref then
    let bin : ManagedBin :=
      { binId, uaSubscription, capacity, nodeHandles := .empty
        nativeRefreshInterval := some uaSubscription.refreshInterval }
    (true, joinBin s ref bin nodeId handle, [])
  else (false, s, [])

/-- Record a node in the bin it was added to, unless its monitor or the bin is gone. -/
def commitAddSection (ref : MonitorRef) (nodeId : String) (binId : BinId) (handle : Int) :
    Section V Bool := fun s =>
  match s.bins.get? binId with
  | some bin => if isLive s nodeId ref then (true, joinBin s ref bin nodeId handle, []) else (false, s, [])
  | none => (false, s, [])

def startPollingSection (ref : MonitorRef) (nodeId : String) : Section V Unit := fun s =>
  if isLive s nodeId ref then
    ((), s.setMonitor ref
      { s.monitor ref with mode := .polling, binId := none, nativeRefreshInterval := none }, [])
  else ((), s, [])

/-- The unlocked head of stopping a monitor. -/
def clearMonitorSection (ref : MonitorRef) : Section V (Option BinId) := fun s =>
  ((s.monitor ref).binId,
    s.setMonitor ref { s.monitor ref with mode := .idle, binId := none, nativeRefreshInterval := none }, [])

inductive BinExit where
  | gone
  | emptied (uaSubscription : UaSubscription)
  | left (uaSubscription : UaSubscription) (handle : Option Int)

def leaveBinSection (nodeId : String) (binId : BinId) : Section V BinExit := fun s =>
  match s.bins.get? binId with
  | none => (.gone, s, [])
  | some bin =>
      let nodeHandles := bin.nodeHandles.erase nodeId
      if nodeHandles.length = 0 then
        (.emptied bin.uaSubscription, { s with bins := s.bins.erase binId }, [])
      else
        (.left bin.uaSubscription (bin.nodeHandles.get? nodeId),
          s.setBin binId { bin with nodeHandles }, [])

/-- The handles that the upstream subscription still has for the nodes of a bin. -/
def survivingHandles (survivors : Nat → Option (String → Option Int)) (bin : ManagedBin) :
    Option (Dict String Int) :=
  (survivors bin.uaSubscription.id).map fun handleOf =>
    Dict.ofList (bin.nodeHandles.keys.filterMap fun nodeId =>
      (handleOf nodeId).map fun handle => (nodeId, handle))

def missingNodes (handles : Option (Dict String Int)) (bin : ManagedBin) : List String :=
  bin.nodeHandles.keys.filter fun nodeId =>
    match handles with
    | none => true
    | some handles => (handles.get? nodeId).isNone

/-- Put the monitors of lost nodes back to idle; the nodes whose monitor was in this bin. -/
def idleLost (binId : BinId) : List String → ServiceState V → List String × ServiceState V
  | [], s => ([], s)
  | nodeId :: rest, s =>
      match s.nodeMonitors.get? nodeId with
      | none => idleLost binId rest s
      | some ref =>
          if (s.monitor ref).binId = some binId then
            let (lost, s) :=
              idleLost binId rest (s.setMonitor ref { s.monitor ref with binId := none, mode := .idle })
            (nodeId :: lost, s)
          else idleLost binId rest s

/-- One bin after a reconnect: the dead bin if it is dropped, the lost nodes. -/
def resyncBin (survivors : Nat → Option (String → Option Int)) (binId : BinId) (bin : ManagedBin)
    (s : ServiceState V) : (Option ManagedBin × List String) × ServiceState V :=
  let handles := survivingHandles survivors bin
  let missing := missingNodes handles bin
  match handles with
  | some handles =>
      if handles.length = 0 then
        let (lost, s) := idleLost binId missing { s with bins := s.bins.erase binId }
        ((some bin, lost), s)
      else
        let (lost, s) := idleLost binId missing (s.setBin binId { bin with nodeHandles := handles })
        ((none, lost), s)
  | none =>
      let (lost, s) := idleLost binId missing { s with bins := s.bins.erase binId }
      ((some bin, lost), s)

def resyncBins (survivors : Nat → Option (String → Option Int)) :
    List (BinId × ManagedBin) → ServiceState V → (List ManagedBin × List String) × ServiceState V
  | [], s => (([], []), s)
  | (binId, bin) :: rest, s =>
      let ((dead, lost), s) := resyncBin survivors binId bin s
      let ((deadRest, lostRest), s) := resyncBins survivors rest s
      ((dead.toList ++ deadRest, lost ++ lostRest), s)

def reconnectSection (survivors : Nat → Option (String → Option Int)) :
    Section V (List ManagedBin × List String) := fun s =>
  let (result, s') := resyncBins survivors s.bins.entries s
  (result, s', [])

/-- The monitor of a lost node that is still registered and idle. -/
def idleMonitorSection (nodeId : String) : Section V (Option MonitorRef) := fun s =>
  match s.nodeMonitors.get? nodeId with
  | none => (none, s, [])
  | some ref => if (s.monitor ref).mode = .idle then (some ref, s, []) else (none, s, [])

end I3x.Subscriptions

import I3xServer.Subscriptions.Sections

/-!
# The coroutines of the subscription service

Each method is the program of its sections, its awaited calls and the methods it
awaits. The admission semaphore is left out: both places that take it hold the
admission lock, so it never makes a task wait.
-/
namespace I3x.Subscriptions
open Container Coroutine Program
variable {V : Type} (settings : Settings V)

def await (q : Request V) : Act V (Reply q) := ask q

def now : Act V Nat := read fun s => s.clock

/-- A computation that never ends; it is left by no reply. -/
def diverge {α : Type} : Act V α := .request .endless fun reply => nomatch reply

/-! ## Node monitors -/

def startPollingNodeMonitor (ref : MonitorRef) (nodeId : String) : Act V Unit :=
  locked .main (startPollingSection ref nodeId)

/-- The slot methods answer `none` when they raise. -/
def openNewBin (ref : MonitorRef) (nodeId : String) (capacity : Nat) : Act V (Option Bool) := do
  let binId ← atomic freshBinSection
  let created : Option UaSubscription ← await (.createDatachangeSubscription binId)
  match created with
  | none => pure none
  | some uaSubscription =>
      let subscribed : Option (Option Int) ← await (.subscribeDataChanges uaSubscription nodeId)
      match subscribed with
      | none => pure none
      | some none =>
          let _ ← await (.deleteSubscription uaSubscription)
          pure (some false)
      | some (some handle) =>
          acquire .main
          let committed ← atomic (commitNewBinSection ref nodeId binId uaSubscription capacity handle)
          if committed then
            release .main
            pure (some true)
          else
            -- the upstream subscription is deleted before the lock is given back
            let deleted : Bool ← await (.deleteSubscription uaSubscription)
            release .main
            pure (if deleted then some false else none)

def addNodeToBin (ref : MonitorRef) (nodeId : String) (targetBin : ManagedBin) : Act V (Option Bool) := do
  let subscribed : Option (Option Int) ← await (.subscribeDataChanges targetBin.uaSubscription nodeId)
  match subscribed with
  | none => pure none
  | some none => pure (some false)
  | some (some handle) =>
      acquire .main
      let committed ← atomic (commitAddSection ref nodeId targetBin.binId handle)
      if committed then
        release .main
        pure (some true)
      else
        let _ ← await (.unsubscribeDataChanges targetBin.uaSubscription handle)
        release .main
        pure (some false)

def findNativeBinSlot (ref : MonitorRef) (nodeId : String) (caps : Capabilities) : Act V (Option Bool) := do
  let choice ← locked .main (slotSection caps)
  match choice with
  | .full => pure (some false)
  | .into targetBin => addNodeToBin ref nodeId targetBin
  | .open =>
      let can ← locked .main (canOpenNewBinSection caps)
      if can then openNewBin ref nodeId (effectiveCapacity caps) else pure (some false)

def acquireNativeBinSlot (ref : MonitorRef) (nodeId : String) (caps : Capabilities) :
    Act V (Option Bool) := do
  acquire .admission
  let acquired ← findNativeBinSlot ref nodeId caps
  release .admission
  pure acquired

def admitNodeMonitor (ref : MonitorRef) (nodeId : String) : Act V Unit := do
  let backingOff ← read fun s => decide (s.clock < s.nativeBackoffUntil)
  if backingOff then startPollingNodeMonitor ref nodeId
  else
    let caps : Capabilities ← await .getSubscriptionCapabilities
    let acquired ← acquireNativeBinSlot ref nodeId caps
    match acquired with
    | some true => pure ()
    | some false => startPollingNodeMonitor ref nodeId
    | none =>
        modify fun s => { s with nativeBackoffUntil := s.clock + settings.nativeBackoffMs }
        startPollingNodeMonitor ref nodeId

def startNodeMonitorRuntime (ref : MonitorRef) (nodeId : String) : Act V Unit := do
  note fun _ => [.admissionStarted ref]
  admitNodeMonitor settings ref nodeId
  note fun _ => [.admissionEnded ref]

def stopNodeMonitorRuntime (ref : MonitorRef) (nodeId : String) : Act V Unit := do
  let binId ← atomic (clearMonitorSection ref)
  match binId with
  | none => pure ()
  | some binId =>
      let exit ← locked .main (leaveBinSection nodeId binId)
      match exit with
      | .gone => pure ()
      | .emptied uaSubscription =>
          let _ ← await (.deleteSubscription uaSubscription)
      | .left uaSubscription (some handle) =>
          let _ ← await (.unsubscribeDataChanges uaSubscription handle)
      | .left _ none => pure ()

def acquireNodeMonitor (nodeId : String) (id : SubscriptionId) : Act V Unit := do
  let registered ← locked .main (acquireSection nodeId id)
  match registered with
  | none => pure ()
  | some ref => startNodeMonitorRuntime settings ref nodeId

def releaseNodeMonitor (nodeId : String) (id : SubscriptionId) : Act V Unit := do
  let orphaned ← locked .main (releaseSection nodeId id)
  match orphaned with
  | none => pure ()
  | some ref => stopNodeMonitorRuntime ref nodeId

def releaseAllNodes (state : SubscriptionState V) : Act V Unit := do
  forEach (settings.nodeOrder.list state.monitoredNodeIds) fun nodeId =>
    releaseNodeMonitor nodeId state.subscriptionId
  -- the subscription object is out of the registry, its mode is read by nobody
  locked .main fun s => ((), s, [])

/-! ## Values -/

def handleDatachange (id : SubscriptionId) (nodeId : String) (value : V) (clientHandle : Option Int) :
    Act V Unit :=
  locked .main (handleDatachangeSection settings id nodeId value clientHandle)

def fanoutNodeValue (nodeId : String) (value : V) : Act V Unit := do
  let subscriberIds ← locked .main (subscribersSection settings nodeId)
  forEach subscriberIds fun id => handleDatachange settings id nodeId value none

/-- One turn of the loop over the notification queue. -/
def nodeDatachangeTurn : Act V Unit := do
  let item ← atomic dequeueSection
  match item with
  | none => pure ()
  | some (nodeId, value) => fanoutNodeValue settings nodeId value

/-- One turn of the shared polling loop, without the pause that ends it. -/
def sharedPollingTurn : Act V Unit := do
  let nodeIds ← locked .main polledNodesSection
  if nodeIds = [] then pure ()
  else
    let values : Option (List V) ← await (.readValues nodeIds)
    match values with
    | none => pure ()
    | some values => forEach (nodeIds.zip values) fun item => fanoutNodeValue settings item.1 item.2

def refreshChangedValues (id : SubscriptionId) : Act V Unit := do
  let nodeIds ← locked .main (refreshTargetsSection id)
  if nodeIds = [] then pure ()
  else
    let values : Option (List V) ← await (.readValues nodeIds)
    match values with
    | none => pure ()
    | some values => locked .main (refreshAppendSection settings id (nodeIds.zip values))

def seedInitialUpdates (id : SubscriptionId) : Act V Unit :=
  if settings.seedInitialValues then refreshChangedValues settings id else pure ()

def updateSubscriptionMode (id : SubscriptionId) : Act V Unit :=
  locked .main (updateSubscriptionModeSection id)

/-! ## Subscriptions -/

def createSubscription (clientId displayName : Option String) : Act V SubscriptionId := do
  let started ← now
  locked .main (createSection clientId displayName started)

def applyMonitoredNodeDiff (id : SubscriptionId) (previous new : Finset String) : Act V Unit := do
  forEach (settings.nodeOrder.list (previous \ new)) fun nodeId => releaseNodeMonitor nodeId id
  forEach (settings.nodeOrder.list (new \ previous)) fun nodeId => acquireNodeMonitor settings nodeId id
  updateSubscriptionMode id
  seedInitialUpdates settings id

def changeMembership (clientId : Option String) (id : SubscriptionId)
    (change : Dict String Int → Dict String Int) (model : BuildResult) (fuel : Nat) : Act V Bool := do
  acquire .main
  let changed ← atomic (membershipSection settings clientId id change model fuel)
  match changed with
  | .missing =>
      release .main
      pure false
  | .endless => diverge
  | .changed previous new =>
      release .main
      applyMonitoredNodeDiff settings id previous new
      pure true

def registerItems (clientId : Option String) (id : SubscriptionId) (elementIds : List String)
    (maxDepth : Int) (model : BuildResult) (fuel : Nat) : Act V Bool :=
  changeMembership settings clientId id (registerObjects · elementIds maxDepth) model fuel

def unregisterItems (clientId : Option String) (id : SubscriptionId) (elementIds : List String)
    (model : BuildResult) (fuel : Nat) : Act V Bool :=
  changeMembership settings clientId id (unregisterObjects · elementIds) model fuel

def deleteSubscriptions (clientId : Option String) (ids : List SubscriptionId) :
    Act V (List SubscriptionDeleteResult) := do
  let (removed, results) ← locked .main (deleteSection settings clientId ids)
  forEach removed fun state => releaseAllNodes settings state
  pure results

def expireSubscriptions : Act V Unit := do
  let started ← now
  let removed ← locked .main (expireSection settings started)
  forEach removed fun state => releaseAllNodes settings state

def handleClientReconnect (survivors : Nat → Option (String → Option Int)) : Act V Unit := do
  let (deadBins, lostNodeIds) ← locked .main (reconnectSection survivors)
  forEach deadBins fun bin => do
    let _ ← await (.deleteSubscription bin.uaSubscription)
  forEach (lostNodeIds.insertionSort (· ≤ ·)) fun nodeId => do
    let idle ← locked .main (idleMonitorSection nodeId)
    match idle with
    | none => pure ()
    | some ref => startNodeMonitorRuntime settings ref nodeId
  let ids ← locked .main fun s => (s.subscriptions.keys, s, [])
  forEach ids fun id => updateSubscriptionMode id

/-! ## Sync and streams -/

def sync (clientId : Option String) (id : SubscriptionId) (acknowledgeSequence : Option Int)
    (allowWhenStreamActive : Bool) : Act V (Option (SubscriptionSyncResult V)) := do
  let started ← locked .main (syncStartSection clientId id acknowledgeSequence allowWhenStreamActive)
  match started with
  | .missing => pure none
  | .refused =>
      pure (some
        { updates := [], queueOverflow := false, droppedFromSequence := none, droppedToSequence := none
          streamActive := true })
  | .proceed shouldRefresh =>
      if shouldRefresh then refreshChangedValues settings id
      locked .main (syncReportSection clientId id)

def activateStream (clientId : Option String) (id : SubscriptionId) : Act V (Option Nat) :=
  locked .main (activateStreamSection clientId id)

def deactivateStream (id : SubscriptionId) (generation : Nat) : Act V Unit :=
  locked .main (deactivateStreamSection id generation)

def isStreamActive (id : SubscriptionId) (generation : Nat) : Act V Bool :=
  locked .main (isStreamActiveSection id generation)

/-- How a wait ends: the stream is to be closed, updates are ready (none after a
timeout without news), or the client has gone. -/
inductive WaitResult (V : Type) where
  | closed
  | ready (updates : List (SubscriptionUpdate V))
  | disconnected

def WaitResult.ofOption : Option (List (SubscriptionUpdate V)) → WaitResult V
  | none => .closed
  | some updates => .ready updates

def waitForUpdates (clientId : Option String) (id : SubscriptionId) (afterSequence timeoutMs : Nat) :
    Act V (WaitResult V) := do
  let started ← locked .main (waitStartSection settings clientId id afterSequence timeoutMs)
  match started with
  | .missing => pure .closed
  | .ready updates => pure (.ready updates)
  | .wait refreshAfterTimeout threshold =>
      let outcome : WaitOutcome ← await (.waitForUpdate id)
      match outcome with
      | .disconnected => pure .disconnected
      | .shutdown => pure .closed
      | .updated =>
          let updates ← locked .main (waitResultSection clientId id afterSequence false)
          pure (.ofOption updates)
      | .timeout =>
          let execute ← locked .main (waitTimeoutSection settings clientId id refreshAfterTimeout threshold)
          match execute with
          | none => pure .closed
          | some false =>
              let updates ← locked .main (waitResultSection clientId id afterSequence true)
              pure (.ofOption updates)
          | some true =>
              let present ← locked .main (resetTimeoutSection clientId id)
              if present then
                refreshChangedValues settings id
                let updates ← locked .main (waitResultSection clientId id afterSequence true)
                pure (.ofOption updates)
              else pure .closed

end I3x.Subscriptions

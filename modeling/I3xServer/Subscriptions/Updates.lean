import I3xServer.Subscriptions.State

/-!
# The update queue of one subscription

Appending with the change filter and the overflow eviction, acknowledging, and
reading out a sync result.
-/
namespace I3x.Subscriptions
open Container
variable {V : Type} (settings : Settings V)

/-- The element id that an update for `nodeId` is labelled with. -/
def labelFor (state : SubscriptionState V) (nodeId : String) : String :=
  let elementId :=
    match state.nodeToElementId.get? nodeId with
    | some elementId => elementId
    | none => (state.nodeToElementId.get? (settings.text.lower nodeId)).getD nodeId
  match state.monitoredObjects.keys with
  | [object] => if elementId = nodeId then object else elementId
  | _ => elementId

/-- The value equals the last one queued for the node. -/
def isCurrent (state : SubscriptionState V) (nodeId : String) (value : V) : Bool :=
  match state.lastValuesByNodeId.get? nodeId with
  | some current => settings.values.same current value
  | none => false

def nextUpdate (now : Nat) (state : SubscriptionState V) (nodeId : String) (value : V) :
    SubscriptionUpdate V where
  sequenceNumber := state.sequenceNumber + 1
  elementId := labelFor settings state nodeId
  nodeId := nodeId
  value := value
  quality := if settings.values.isNull value then "GoodNoData" else "Good"
  timestamp := now

/-- The oldest update, when the queue has no room for another one. -/
def overflowing (state : SubscriptionState V) : Option (SubscriptionUpdate V) :=
  if settings.maxUpdatesPerSubscription ≤ state.updates.length then state.updates.head? else none

def pushUpdate (state : SubscriptionState V) (update : SubscriptionUpdate V) : SubscriptionState V :=
  let pushed :=
    { state with
      lastValuesByNodeId := state.lastValuesByNodeId.set update.nodeId update.value
      sequenceNumber := update.sequenceNumber
      updateEvent := true }
  match overflowing settings state with
  | none => { pushed with updates := state.updates ++ [update] }
  | some dropped =>
      { pushed with
        updates := state.updates.tail ++ [update]
        droppedFromSequence := state.droppedFromSequence.or (some dropped.sequenceNumber)
        droppedToSequence := some dropped.sequenceNumber }

def pushNotes (state : SubscriptionState V) (update : SubscriptionUpdate V) : List (Note V) :=
  match overflowing settings state with
  | none => [.queued state.subscriptionId update]
  | some dropped =>
      [.evicted state.subscriptionId dropped.sequenceNumber, .queued state.subscriptionId update]

def appendUpdate (now : Nat) (state : SubscriptionState V) (nodeId : String) (value : V) :
    SubscriptionState V × List (Note V) :=
  let value := settings.values.normalizeOpcuaValue value
  if isCurrent settings state nodeId value then (state, [])
  else
    let update := nextUpdate settings now state nodeId value
    (pushUpdate settings state update, pushNotes settings state update)

/-- Append the values read for several nodes, those that are still monitored. -/
def appendMonitored (now : Nat) :
    List (String × V) → SubscriptionState V → SubscriptionState V × List (Note V)
  | [], state => (state, [])
  | (nodeId, value) :: rest, state =>
      if nodeId ∈ state.monitoredNodeIds then
        let (state, notes) := appendUpdate settings now state nodeId value
        let (state, more) := appendMonitored now rest state
        (state, notes ++ more)
      else appendMonitored now rest state

def acknowledge (state : SubscriptionState V) (acknowledgeSequence : Option Int) : SubscriptionState V :=
  match acknowledgeSequence with
  | none => state
  | some value =>
      if value = -1 then { state with updates := [] }
      else if 0 ≤ value ∧ value ≤ state.sequenceNumber then
        { state with updates := state.updates.filter fun item => value < item.sequenceNumber }
      else state

def syncResult (state : SubscriptionState V) : SubscriptionSyncResult V where
  updates := state.updates
  queueOverflow := state.droppedFromSequence.isSome
  droppedFromSequence := state.droppedFromSequence
  droppedToSequence := state.droppedToSequence
  streamActive := false

def updatesAfter (state : SubscriptionState V) (afterSequence : Nat) : List (SubscriptionUpdate V) :=
  state.updates.filter fun item => afterSequence < item.sequenceNumber

end I3x.Subscriptions

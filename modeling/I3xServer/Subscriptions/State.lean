import I3xServer.Container.Sorted
import I3xServer.Coroutine.Program
import I3xServer.Subscriptions.MonitoredNodes
import Mathlib.Data.Finset.Card
import Mathlib.Data.Fintype.Defs
import Mathlib.Data.String.Basic
import Mathlib.Algebra.GroupWithZero.Nat

/-!
# State of the subscription service

Subscriptions, shared node monitors and native bins as the service keeps them.
Values are of any type with the operations the service applies to them. Time is
counted in milliseconds; fresh identifiers come from counters.
-/
namespace I3x.Subscriptions
open Container Coroutine

abbrev SubscriptionId := Nat
abbrev BinId := Nat
/-- The identity of a node monitor object; one node id can have several over time. -/
abbrev MonitorRef := Nat

/-- What the service does with a value: normalise it, compare it, test it for null. -/
structure ValueOps (V : Type) where
  normalizeOpcuaValue : V → V
  same : V → V → Bool
  isNull : V → Bool

inductive RefreshMode where
  | hybrid | strict | adaptive
  deriving DecidableEq, Repr

structure Settings (V : Type) where
  text : Text
  values : ValueOps V
  intervalMs : Nat
  maxUpdatesPerSubscription : Nat
  maxUpdates_pos : 0 < maxUpdatesPerSubscription
  ttlMs : Nat
  seedInitialValues : Bool
  nativeTimeoutRefreshMode : RefreshMode
  nativeBackoffMs : Nat
  /-- The order in which a set of node ids or of subscription ids is iterated. -/
  nodeOrder : Enumeration String
  subscriberOrder : Enumeration SubscriptionId

def Settings.queueSize {V : Type} (settings : Settings V) : Nat :=
  max 1000 settings.maxUpdatesPerSubscription

inductive Mode where
  | idle | polling | native
  deriving DecidableEq, Repr

structure SubscriptionUpdate (V : Type) where
  sequenceNumber : Nat
  elementId : String
  nodeId : String
  value : V
  quality : String
  timestamp : Nat
  deriving DecidableEq

structure SubscriptionSyncResult (V : Type) where
  updates : List (SubscriptionUpdate V)
  queueOverflow : Bool
  droppedFromSequence : Option Nat
  droppedToSequence : Option Nat
  streamActive : Bool
  deriving DecidableEq

structure SubscriptionState (V : Type) where
  subscriptionId : SubscriptionId
  clientId : Option String
  displayName : Option String
  monitoredObjects : Dict String Int
  monitoredNodeIds : Finset String
  nodeToElementId : Dict String String
  handleToNodeId : Dict Int String
  lastValuesByNodeId : Dict String V
  updates : List (SubscriptionUpdate V)
  sequenceNumber : Nat
  mode : Mode
  updateEvent : Bool
  activeStreamGeneration : Nat
  streamConnected : Bool
  droppedFromSequence : Option Nat
  droppedToSequence : Option Nat
  lastActivity : Nat
  nativeRefreshInterval : Option Nat
  nativeTimeoutCount : Nat

structure NodeMonitor where
  nodeId : String
  mode : Mode
  subscriberIds : Finset SubscriptionId
  binId : Option BinId
  nativeRefreshInterval : Option Nat

/-- An upstream subscription and the refresh interval that the service derives
from its revised parameters. -/
structure UaSubscription where
  id : Nat
  refreshInterval : Nat
  deriving DecidableEq, Repr

structure ManagedBin where
  binId : BinId
  uaSubscription : UaSubscription
  capacity : Nat
  nodeHandles : Dict String Int
  nativeRefreshInterval : Option Nat

structure Capabilities where
  maxSubscriptions : Option Nat
  maxMonitoredItems : Option Nat
  maxSubscriptionsPerSession : Option Nat
  maxMonitoredItemsPerSubscription : Option Nat
  deriving DecidableEq, Repr

/-- The service's fields, its clock, and the values the upstream server has given
each node so far, newest first. -/
structure ServiceState (V : Type) where
  subscriptions : Dict SubscriptionId (SubscriptionState V)
  nextSubscription : SubscriptionId
  nodeMonitors : Dict String MonitorRef
  monitor : MonitorRef → NodeMonitor
  nextMonitor : MonitorRef
  bins : Dict BinId ManagedBin
  nextBin : BinId
  nativeBackoffUntil : Nat
  nodeDatachangeQueue : List (String × V)
  clock : Nat
  served : String → List V

inductive Lock where
  | main | admission
  deriving DecidableEq, Repr

instance : Fintype Lock := ⟨{.main, .admission}, fun l => by cases l <;> decide⟩

/-- What one element of a stream tells the client. -/
inductive StreamEvent (V : Type) where
  | connected
  | updates (updates : List (SubscriptionUpdate V))
  | keepalive
  | close

/-- An entry or a removal of a subscription in the subscribers of a node's monitor. -/
structure MonitorOp where
  nodeId : String
  subscription : SubscriptionId
  acquires : Bool
  deriving DecidableEq, Repr

/-- Events that the sections of the service note in the history of a run. -/
inductive Note (V : Type) where
  | valueChanged (nodeId : String) (value : V)
  | notified (nodeId : String) (value : V)
  | dequeued (nodeId : String) (value : V)
  | created (subscription : SubscriptionId)
  | planned (op : MonitorOp)
  | performed (op : MonitorOp) (wanted : Bool)
  | admissionStarted (monitor : MonitorRef)
  | admissionEnded (monitor : MonitorRef)
  | delivering (subscription : SubscriptionId) (nodeId : String) (stray : Bool)
  | queued (subscription : SubscriptionId) (update : SubscriptionUpdate V)
  | evicted (subscription : SubscriptionId) (sequenceNumber : Nat)
  | acknowledged (subscription : SubscriptionId) (value : Int) (sequenceNumber : Nat)
  | reported (subscription : SubscriptionId) (result : SubscriptionSyncResult V) (sequenceNumber : Nat)
  | streamActivated (subscription : SubscriptionId)
  /-- A session ended without its final deactivation, while it was the newest or not. -/
  | deactivationMissed (subscription : SubscriptionId) (newest : Bool)

inductive WaitOutcome where
  | updated | timeout | shutdown | disconnected
  deriving DecidableEq, Repr

/-- Everything the service awaits, locks apart. `endless` is a computation that
never gives up the event loop. -/
inductive Request (V : Type) where
  | getSubscriptionCapabilities
  | createDatachangeSubscription (binId : BinId)
  | subscribeDataChanges (uaSubscription : UaSubscription) (nodeId : String)
  | unsubscribeDataChanges (uaSubscription : UaSubscription) (handle : Int)
  | deleteSubscription (uaSubscription : UaSubscription)
  | readValues (nodeIds : List String)
  | waitForUpdate (subscription : SubscriptionId)
  | startResponse (subscription : SubscriptionId)
  | emit (subscription : SubscriptionId) (event : StreamEvent V)
  | finalDeactivation (subscription : SubscriptionId)
  | endless

/-- The replies; `none` and `false` of the upstream calls stand for a raised
exception, `some none` of a subscribe call for a missing handle. -/
abbrev Reply {V : Type} : Request V → Type
  | .getSubscriptionCapabilities => Capabilities
  | .createDatachangeSubscription _ => Option UaSubscription
  | .subscribeDataChanges _ _ => Option (Option Int)
  | .unsubscribeDataChanges _ _ => Bool
  | .deleteSubscription _ => Bool
  | .readValues _ => Option (List V)
  | .waitForUpdate _ => WaitOutcome
  | .startResponse _ => Bool
  | .emit _ _ => Bool
  | .finalDeactivation _ => Bool
  | .endless => Empty

abbrev Act (V : Type) := Program (ServiceState V) Lock (Note V) (Request V) Reply

/-- A stretch of code without suspension: its result, the state it leaves, the
events it notes. -/
abbrev Section (V α : Type) := ServiceState V → α × ServiceState V × List (Note V)

namespace ServiceState
variable {V : Type}

def empty : ServiceState V where
  subscriptions := .empty
  nextSubscription := 0
  nodeMonitors := .empty
  monitor _ :=
    { nodeId := "", mode := .idle, subscriberIds := ∅, binId := none, nativeRefreshInterval := none }
  nextMonitor := 0
  bins := .empty
  nextBin := 0
  nativeBackoffUntil := 0
  nodeDatachangeQueue := []
  clock := 0
  served _ := []

def setSubscription (s : ServiceState V) (id : SubscriptionId) (state : SubscriptionState V) :
    ServiceState V := { s with subscriptions := s.subscriptions.set id state }

def setMonitor (s : ServiceState V) (ref : MonitorRef) (monitor : NodeMonitor) : ServiceState V :=
  { s with monitor := Function.update s.monitor ref monitor }

def setBin (s : ServiceState V) (id : BinId) (bin : ManagedBin) : ServiceState V :=
  { s with bins := s.bins.set id bin }

/-- The subscription of that id if the caller's client may see it. -/
def inScope (s : ServiceState V) (clientId : Option String) (id : SubscriptionId) :
    Option (SubscriptionState V) :=
  match s.subscriptions.get? id with
  | none => none
  | some state => if clientId.isSome ∧ state.clientId ≠ clientId then none else some state

/-- The registered monitor of a node. -/
def nodeMonitor (s : ServiceState V) (nodeId : String) : Option NodeMonitor :=
  (s.nodeMonitors.get? nodeId).map s.monitor

/-- A live subscription monitors the node. -/
def Wanted (s : ServiceState V) (nodeId : String) (id : SubscriptionId) : Prop :=
  ∃ state, s.subscriptions.get? id = some state ∧ nodeId ∈ state.monitoredNodeIds

instance (s : ServiceState V) (nodeId : String) (id : SubscriptionId) : Decidable (s.Wanted nodeId id) :=
  match found : s.subscriptions.get? id with
  | none => .isFalse fun ⟨_, same, _⟩ => nomatch found.symm.trans same
  | some state =>
      decidable_of_iff (nodeId ∈ state.monitoredNodeIds)
        ⟨fun m => ⟨state, found, m⟩, fun ⟨_, same, m⟩ => Option.some.inj (found.symm.trans same) ▸ m⟩

end ServiceState
end I3x.Subscriptions

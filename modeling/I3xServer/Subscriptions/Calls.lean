import I3xServer.Coroutine.History
import I3xServer.Subscriptions.Streams

/-!
# The service as a system of concurrent calls

Every request, background turn, notification and reconnect is a call; so are the
passing of time and the changes of values on the upstream server. Which calls
may be issued and what the upstream may answer is left open here: each group of
results states what it assumes.
-/
namespace I3x.Subscriptions
open Coroutine
variable {V : Type}

inductive Call (V : Type) where
  | createSubscription (clientId displayName : Option String)
  | registerItems (clientId : Option String) (id : SubscriptionId) (elementIds : List String)
      (maxDepth : Int) (model : BuildResult) (fuel : Nat)
  | unregisterItems (clientId : Option String) (id : SubscriptionId) (elementIds : List String)
      (model : BuildResult) (fuel : Nat)
  | deleteSubscriptions (clientId : Option String) (ids : List SubscriptionId)
  | expireSubscriptions
  | sync (clientId : Option String) (id : SubscriptionId) (acknowledgeSequence : Option Int)
      (allowWhenStreamActive : Bool)
  | syncSubscription (clientId : Option String) (id : SubscriptionId) (lastSequenceNumber : Option Int)
  | streamSubscription (clientId : Option String) (id : SubscriptionId) (rounds : Nat)
  | nodeDatachange (nodeId : String) (value : V)
  | nodeDatachangeTurn
  | sharedPollingTurn
  | clientReconnect (survivors : Nat → Option (String → Option Int))
  | clockTick (elapsed : Nat)
  | valueChange (nodeId : String) (value : V)

inductive Outcome (V : Type) where
  | done
  | createdSubscription (id : SubscriptionId)
  | membership (found : Bool)
  | deleted (results : List SubscriptionDeleteResult)
  | synced (result : Option (SubscriptionSyncResult V))
  | answered (response : SyncResponse V)
  | streamed (status : Nat)

/-- A node has a new value on the upstream server. -/
def changeValue (nodeId : String) (value : V) : Section V Unit := fun s =>
  ((), { s with served := Function.update s.served nodeId (value :: s.served nodeId) },
    [.valueChanged nodeId value])

def program (settings : Settings V) : Call V → Act V (Outcome V)
  | .createSubscription clientId displayName => do
      let id ← createSubscription clientId displayName
      pure (.createdSubscription id)
  | .registerItems clientId id elementIds maxDepth model fuel => do
      let found ← registerItems settings clientId id elementIds maxDepth model fuel
      pure (.membership found)
  | .unregisterItems clientId id elementIds model fuel => do
      let found ← unregisterItems settings clientId id elementIds model fuel
      pure (.membership found)
  | .deleteSubscriptions clientId ids => do
      let results ← deleteSubscriptions settings clientId ids
      pure (.deleted results)
  | .expireSubscriptions => do
      expireSubscriptions settings
      pure .done
  | .sync clientId id acknowledgeSequence allowWhenStreamActive => do
      let result ← sync settings clientId id acknowledgeSequence allowWhenStreamActive
      pure (.synced result)
  | .syncSubscription clientId id lastSequenceNumber => do
      let response ← syncSubscription settings clientId id lastSequenceNumber
      pure (.answered response)
  | .streamSubscription clientId id rounds => do
      let status ← streamSubscription settings clientId id rounds
      pure (.streamed status)
  | .nodeDatachange nodeId value => do
      Program.atomic (enqueueNodeDatachange settings nodeId value)
      pure .done
  | .nodeDatachangeTurn => do
      nodeDatachangeTurn settings
      pure .done
  | .sharedPollingTurn => do
      sharedPollingTurn settings
      pure .done
  | .clientReconnect survivors => do
      handleClientReconnect settings survivors
      pure .done
  | .clockTick elapsed => do
      Program.modify fun s => { s with clock := s.clock + elapsed }
      pure .done
  | .valueChange nodeId value => do
      Program.atomic (changeValue nodeId value)
      pure .done

abbrev ServiceTag (V : Type) := Tag (Call V)
abbrev ServiceEvent (V : Type) := Event (Note V) (Request V) Reply (Call V) (Outcome V)
abbrev ServiceConfig (V : Type) := Config (ServiceState V) Lock (Note V) (Request V) Reply (Call V) (Outcome V)

abbrev ServiceHistory (V : Type) := History (Note V) (Request V) Reply (Call V) (Outcome V)
abbrev ServiceMemory (V : Type) := Program.Memory (Note V) (Request V) Reply
abbrev ServiceView (V : Type) :=
  View (ServiceState V) Lock (Note V) (Request V) Reply (Call V) (Outcome V) (ServiceMemory V)

/-- What surrounds the service: the calls that may be issued in a state, given
the calls in flight, and the replies the upstream may give. -/
structure Surroundings (V : Type) where
  mayCall : ServiceState V → (ServiceTag V → Prop) → Call V → Prop
  mayReply : ServiceState V → ServiceState V → (q : Request V) → Reply q → Prop

/-- Surroundings of which nothing is assumed. -/
def Surroundings.any : Surroundings V where
  mayCall _ _ _ := True
  mayReply _ _ _ _ := True

def service (settings : Settings V) (around : Surroundings V) :
    System (ServiceState V) Lock (Note V) (Request V) Reply (Call V) (Outcome V) where
  program := program settings
  mayCall := around.mayCall
  mayReply := around.mayReply

/-- The configurations that the service can reach from its empty state. -/
def ServiceReachable (settings : Settings V) (around : Surroundings V) (c : ServiceConfig V) : Prop :=
  Reachable (service settings around) .empty c

/-! ## A small server -/

abbrev Decision (V : Type) := Choice Lock (Request V) Reply (Call V)

theorem allPermitted_any (settings : Settings V) (c : ServiceConfig V) (ds : List (Decision V)) :
    AllPermitted (service settings .any) c ds := by
  induction ds generalizing c with
  | nil => trivial
  | cons d ds ih =>
      refine ⟨?_, fun c' _ => ih c'⟩
      cases d with
      | spawn call => trivial
      | grant l => trivial
      | reply i oracle =>
          simp only [Permitted]
          split
          · split
            · exact fun _ _ => trivial
            · trivial
          · trivial

def readings : ValueOps Int where
  normalizeOpcuaValue value := value
  same current value := decide (current = value)
  isNull _ := false

/-- A server for integer readings that keeps two updates of a subscription. -/
def smallServer : Settings Int where
  text := .ascii
  values := readings
  intervalMs := 1000
  maxUpdatesPerSubscription := 2
  maxUpdates_pos := Nat.zero_lt_two
  ttlMs := 300000
  seedInitialValues := false
  nativeTimeoutRefreshMode := .strict
  nativeBackoffMs := 30000
  nodeOrder := .sorted
  subscriberOrder := .sorted

/-- An upstream where every call succeeds and every node reads 0. -/
def obliging : (q : Request Int) → Option (Reply q)
  | .getSubscriptionCapabilities => some ⟨none, none, none, none⟩
  | .createDatachangeSubscription binId => some (some ⟨binId, 1000⟩)
  | .subscribeDataChanges _ _ => some (some (some 1))
  | .unsubscribeDataChanges _ _ => some true
  | .deleteSubscription _ => some true
  | .readValues nodeIds => some (some (nodeIds.map fun _ => 0))
  | .waitForUpdate _ => some .timeout
  | .startResponse _ => some true
  | .emit _ _ => some true
  | .finalDeactivation _ => some true
  | .endless => none

/-- The small server after the decisions, if they can be carried out. -/
def smallRun (ds : List (Decision Int)) : Option (ServiceConfig Int) :=
  execAll (service smallServer .any) (Config.start .empty) ds

/-- No task waits for a lock or for a reply. -/
def atRest {C O : Type} (c : Config (ServiceState Int) Lock (Note Int) (Request Int) Reply C O) : Bool :=
  (c.waiting .main).isEmpty && (c.waiting .admission).isEmpty && c.pending.isEmpty

theorem not_inFlight_of_atRest {C O : Type}
    {c : Config (ServiceState Int) Lock (Note Int) (Request Int) Reply C O} (rest : atRest c = true) (t : Tag C) :
    ¬ c.InFlight t := by
  simp only [atRest, Bool.and_eq_true, List.isEmpty_iff] at rest
  obtain ⟨⟨main, admission⟩, pending⟩ := rest
  rintro ⟨x, (⟨l, inside⟩ | inside), _⟩
  · cases l with
    | main => exact absurd inside (main ▸ List.not_mem_nil)
    | admission => exact absurd inside (admission ▸ List.not_mem_nil)
  · exact absurd inside (pending ▸ List.not_mem_nil)

theorem smallRun_reachable {ds : List (Decision Int)} {c : ServiceConfig Int} (done : smallRun ds = some c) :
    ServiceReachable smallServer .any c :=
  reachable_execAll _ ds .start done (allPermitted_any smallServer _ ds)

end I3x.Subscriptions

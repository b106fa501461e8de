import I3xServer.Coroutine.Named
import I3xServer.Subscriptions.Calls

/-!
# Node monitors as a system of their own

The calls through which the service changes its monitors and bins. Every other
call of the service does so by acquiring and releasing nodes.
-/
namespace I3x.Subscriptions
open Coroutine
variable {V : Type}

inductive MonitorCall where
  | acquireNodeMonitor (nodeId : String) (id : SubscriptionId)
  | releaseNodeMonitor (nodeId : String) (id : SubscriptionId)
  | clientReconnect (survivors : Nat → Option (String → Option Int))
  | clockTick (elapsed : Nat)

def monitorProgram (settings : Settings V) : MonitorCall → Act V Unit
  | .acquireNodeMonitor nodeId id => acquireNodeMonitor settings nodeId id
  | .releaseNodeMonitor nodeId id => releaseNodeMonitor nodeId id
  | .clientReconnect survivors => handleClientReconnect settings survivors
  | .clockTick elapsed => Program.modify fun s => { s with clock := s.clock + elapsed }

abbrev MonitorTag := Tag MonitorCall
abbrev MonitorEvent (V : Type) := Event (Note V) (Request V) Reply MonitorCall Unit
abbrev MonitorHistory (V : Type) := History (Note V) (Request V) Reply MonitorCall Unit
abbrev MonitorConfig (V : Type) := Config (ServiceState V) Lock (Note V) (Request V) Reply MonitorCall Unit
abbrev MonitorView (V G : Type) := View (ServiceState V) Lock (Note V) (Request V) Reply MonitorCall Unit G

/-- What the upstream may answer to a request. -/
abbrev Upstream (V : Type) := (q : Request V) → Reply q → Prop

def monitors (settings : Settings V) (upstream : Upstream V) :
    System (ServiceState V) Lock (Note V) (Request V) Reply MonitorCall Unit where
  program := monitorProgram settings
  mayCall _ _ _ := True
  mayReply _ _ q r := upstream q r

def MonitorsReachable (settings : Settings V) (upstream : Upstream V) (c : MonitorConfig V) : Prop :=
  Reachable (monitors settings upstream) .empty c

/-- An upstream that may answer anything. -/
def Upstream.any : Upstream V := fun _ _ => True

/-! ## The monitors of the small server -/

abbrev MonitorDecision := Choice Lock (Request Int) Reply MonitorCall

/-- The replies of the decision are ones the upstream may give. -/
def Honest (upstream : Upstream Int) : MonitorDecision → Prop
  | .reply _ oracle => ∀ q r, oracle q = some r → upstream q r
  | _ => True

theorem allPermitted_of_honest {upstream : Upstream Int} {ds : List MonitorDecision}
    (honest : ∀ d ∈ ds, Honest upstream d) (c : MonitorConfig Int) :
    AllPermitted (monitors smallServer upstream) c ds := by
  induction ds generalizing c with
  | nil => trivial
  | cons d ds ih =>
      refine ⟨?_, fun c' _ => ih (fun e inside => honest e (List.mem_cons_of_mem d inside)) c'⟩
      have here := honest d List.mem_cons_self
      cases d with
      | spawn call => trivial
      | grant l => trivial
      | reply i oracle =>
          simp only [Permitted]
          split
          · split
            · exact fun r answered => here _ r answered
            · trivial
          · trivial

theorem honest_any (d : MonitorDecision) : Honest .any d := by
  cases d with
  | reply i oracle => exact fun _ _ _ => trivial
  | _ => trivial

/-- The monitors after the decisions, if they can be carried out. -/
def monitorRun (upstream : Upstream Int) (ds : List MonitorDecision) : Option (MonitorConfig Int) :=
  execAll (monitors smallServer upstream) (Config.start .empty) ds

theorem monitorRun_reachable {upstream : Upstream Int} {ds : List MonitorDecision} {c : MonitorConfig Int}
    (done : monitorRun upstream ds = some c) (honest : ∀ d ∈ ds, Honest upstream d) :
    MonitorsReachable smallServer upstream c :=
  reachable_execAll _ ds .start done (allPermitted_of_honest honest _)

end I3x.Subscriptions

import I3xServer.Subscriptions.Calls

/-!
# What one uninterrupted stretch of the service can do

`QueueRun` says how the update queue of one subscription moves, `Routine` adds
every stretch that leaves membership and the registry of monitors alone, and
`ServiceStep` the ones that do not. Every program of the service stays within
these relations; invariants are proved from them, not from the programs.
-/
namespace I3x.Subscriptions
open Container Coroutine
variable {V : Type}

/-- Two states of a subscription agree on registration, values and queue: they
differ in mode, stream and timing at most. -/
def SameQueue (a b : SubscriptionState V) : Prop :=
  b = { a with
    displayName := b.displayName, mode := b.mode, updateEvent := b.updateEvent
    activeStreamGeneration := b.activeStreamGeneration, streamConnected := b.streamConnected
    lastActivity := b.lastActivity, nativeRefreshInterval := b.nativeRefreshInterval
    nativeTimeoutCount := b.nativeTimeoutCount }

/-- Notes that do not speak about an update queue. -/
def Note.Silent : Note V → Prop
  | .queued .. | .evicted .. | .acknowledged .. | .reported .. => False
  | _ => True

/-- Notes about values on their way from the server to the subscriptions. -/
def Note.Traffic : Note V → Prop
  | .valueChanged .. | .notified .. | .dequeued .. => True
  | _ => False

/-- Notes about subscriptions that come and go and about their monitors. -/
def Note.Membership : Note V → Prop
  | .created .. | .planned .. | .performed .. => True
  | _ => False

/-- All other notes. -/
def Note.Plain : Note V → Prop
  | .admissionStarted .. | .admissionEnded .. | .delivering .. | .streamActivated ..
  | .deactivationMissed .. => True
  | _ => False

theorem Note.Plain.silent {n : Note V} (plain : n.Plain) : n.Silent := by
  cases n <;> trivial

variable (settings : Settings V)

/-- A run of queue operations on one subscription with the events it notes;
values are appended only where `A` allows it. -/
inductive QueueRun (A : String → V → Prop) :
    SubscriptionState V → List (Note V) → SubscriptionState V → Prop
  | refl (state) : QueueRun A state [] state
  | quiet {state next last ns} (same : SameQueue state next) (rest : QueueRun A next ns last) :
      QueueRun A state ns last
  | mark {state last ns} (n : Note V) (plain : n.Plain) (rest : QueueRun A state ns last) :
      QueueRun A state (n :: ns) last
  | append {state last ns} (now : Nat) (nodeId : String) (value : V) (allowed : A nodeId value)
      (rest : QueueRun A (appendUpdate settings now state nodeId value).1 ns last) :
      QueueRun A state ((appendUpdate settings now state nodeId value).2 ++ ns) last
  | acknowledge {state last ns} (value : Option Int)
      (rest : QueueRun A (acknowledge state value) ns last) :
      QueueRun A state
        ((value.map fun v => Note.acknowledged state.subscriptionId v state.sequenceNumber).toList ++ ns)
        last
  | report {state last ns}
      (rest : QueueRun A { state with droppedFromSequence := none, droppedToSequence := none } ns last) :
      QueueRun A state (.reported state.subscriptionId (syncResult state) state.sequenceNumber :: ns) last

variable {settings} {A : String → V → Prop}

theorem QueueRun.trans {first second third : SubscriptionState V} {ns ms : List (Note V)}
    (run : QueueRun settings A first ns second) (more : QueueRun settings A second ms third) :
    QueueRun settings A first (ns ++ ms) third := by
  induction run with
  | refl state => exact more
  | quiet same _ ih => exact .quiet same (ih more)
  | mark n plain _ ih => exact .mark n plain (ih more)
  | append now nodeId value allowed _ ih =>
      rw [List.append_assoc]
      exact .append now nodeId value allowed (ih more)
  | acknowledge value _ ih =>
      rw [List.append_assoc]
      exact .acknowledge value (ih more)
  | report _ ih => exact .report (ih more)

theorem QueueRun.of_same {state next : SubscriptionState V} (same : SameQueue state next) :
    QueueRun settings A state [] next := .quiet same (.refl next)

theorem SameQueue.refl (state : SubscriptionState V) : SameQueue state state := rfl

theorem SameQueue.trans {a b c : SubscriptionState V} (h : SameQueue a b) (k : SameQueue b c) :
    SameQueue a c := by
  rw [SameQueue, k, h]

/-- A run that does not speak about the queue leaves it alone. -/
theorem QueueRun.of_silent {state last : SubscriptionState V} {ns : List (Note V)}
    (run : QueueRun settings A state ns last) (silent : ∀ n ∈ ns, n.Silent) : SameQueue state last := by
  induction run with
  | refl state => exact .refl state
  | quiet same _ ih => exact same.trans (ih silent)
  | mark n _ _ ih => exact ih fun m inside => silent m (List.mem_cons_of_mem n inside)
  | @append state last ns now nodeId value _ _ ih =>
      have rest := ih fun m inside => silent m (List.mem_append_right _ inside)
      have first := fun m inside => silent m (List.mem_append_left _ inside)
      simp only [appendUpdate] at rest first
      split at rest
      · exact rest
      · rename_i fresh
        rw [if_neg fresh] at first
        unfold pushNotes at first
        split at first
        · exact (first _ List.mem_cons_self).elim
        · exact (first _ List.mem_cons_self).elim
  | acknowledge value _ ih =>
      have rest := ih fun m inside => silent m (List.mem_append_right _ inside)
      cases value with
      | none => exact rest
      | some v => exact (silent _ List.mem_cons_self).elim
  | report _ _ => exact (silent _ List.mem_cons_self).elim

theorem QueueRun.appendMonitored {now : Nat} {values : List (String × V)} {state : SubscriptionState V}
    (allowed : ∀ item ∈ values, A item.1 item.2) :
    QueueRun settings A state (Subscriptions.appendMonitored settings now values state).2
      (Subscriptions.appendMonitored settings now values state).1 := by
  induction values generalizing state with
  | nil => exact .refl state
  | cons item values ih =>
      have later := fun other m => allowed other (List.mem_cons_of_mem item m)
      simp only [Subscriptions.appendMonitored]
      split
      · exact .append now item.1 item.2 (allowed item List.mem_cons_self) (ih later)
      · exact ih later

variable (settings A)

/-- Subscriptions, the registry of monitors, the notification queue and the
upstream values are left alone. -/
structure SameRegistry (s s' : ServiceState V) : Prop where
  subscriptions : s'.subscriptions = s.subscriptions
  nextSubscription : s'.nextSubscription = s.nextSubscription
  nodeMonitors : s'.nodeMonitors = s.nodeMonitors
  nextMonitor : s'.nextMonitor = s.nextMonitor
  subscriberIds : ∀ ref, (s'.monitor ref).subscriberIds = (s.monitor ref).subscriberIds
  nodeDatachangeQueue : s'.nodeDatachangeQueue = s.nodeDatachangeQueue
  served : s'.served = s.served

/-- Stretches that change neither membership nor the registry of monitors. -/
inductive Routine : ServiceState V → List (Note V) → ServiceState V → Prop
  | queue {s id state state' ns} (found : s.subscriptions.get? id = some state)
      (run : QueueRun settings A state ns state') : Routine s ns (s.setSubscription id state')
  | upstream {s s' ns} (same : SameRegistry s s') (plain : ∀ n ∈ ns, n.Plain) : Routine s ns s'
  | notify (nodeId : String) (value : V) (s) :
      Routine s [.notified nodeId value] (enqueueNodeDatachange settings nodeId value s).2.1
  | dequeue {s nodeId value rest} (queue : s.nodeDatachangeQueue = (nodeId, value) :: rest) :
      Routine s [.dequeued nodeId value] { s with nodeDatachangeQueue := rest }
  | serve (nodeId : String) (value : V) (s) :
      Routine s [.valueChanged nodeId value] (changeValue nodeId value s).2.1

variable (allowed : (Dict String Int → Dict String Int) → BuildResult → Prop)

/-- Every stretch of the service; membership changes only as `allowed` says. -/
inductive ServiceStep : ServiceState V → List (Note V) → ServiceState V → Prop
  | routine {s ns s'} (step : Routine settings A s ns s') : ServiceStep s ns s'
  | create (clientId displayName : Option String) (started : Nat) (s) :
      ServiceStep s (createSection clientId displayName started s).2.2
        (createSection clientId displayName started s).2.1
  | membership (clientId : Option String) (id : SubscriptionId) (change) (model) (fuel : Nat)
      (may : allowed change model) (s) :
      ServiceStep s (membershipSection settings clientId id change model fuel s).2.2
        (membershipSection settings clientId id change model fuel s).2.1
  | delete (clientId : Option String) (ids : List SubscriptionId) (s) :
      ServiceStep s (deleteSection settings clientId ids s).2.2 (deleteSection settings clientId ids s).2.1
  | expire (started : Nat) (s) :
      ServiceStep s (expireSection settings started s).2.2 (expireSection settings started s).2.1
  | acquire (nodeId : String) (id : SubscriptionId) (s) :
      ServiceStep s (acquireSection nodeId id s).2.2 (acquireSection nodeId id s).2.1
  | release (nodeId : String) (id : SubscriptionId) (s) :
      ServiceStep s (releaseSection nodeId id s).2.2 (releaseSection nodeId id s).2.1

variable {settings A}

theorem SameRegistry.refl (s : ServiceState V) : SameRegistry s s :=
  ⟨rfl, rfl, rfl, rfl, fun _ => rfl, rfl, rfl⟩

theorem SameRegistry.trans {s t u : ServiceState V} (h : SameRegistry s t) (k : SameRegistry t u) :
    SameRegistry s u where
  subscriptions := k.subscriptions.trans h.subscriptions
  nextSubscription := k.nextSubscription.trans h.nextSubscription
  nodeMonitors := k.nodeMonitors.trans h.nodeMonitors
  nextMonitor := k.nextMonitor.trans h.nextMonitor
  subscriberIds ref := (k.subscriberIds ref).trans (h.subscriberIds ref)
  nodeDatachangeQueue := k.nodeDatachangeQueue.trans h.nodeDatachangeQueue
  served := k.served.trans h.served

theorem SameRegistry.setMonitor {s : ServiceState V} {ref : MonitorRef} {monitor : NodeMonitor}
    (same : monitor.subscriberIds = (s.monitor ref).subscriberIds) :
    SameRegistry s (s.setMonitor ref monitor) where
  subscriptions := rfl
  nextSubscription := rfl
  nodeMonitors := rfl
  nextMonitor := rfl
  subscriberIds other := by
    by_cases here : other = ref
    · subst here
      simpa only [ServiceState.setMonitor, Function.update_self] using same
    · simp only [ServiceState.setMonitor, Function.update_of_ne here]
  nodeDatachangeQueue := rfl
  served := rfl

theorem Routine.unchanged (s : ServiceState V) : Routine settings A s [] s :=
  .upstream (.refl s) fun _ => nofun

theorem Routine.of_same {s : ServiceState V} {id : SubscriptionId} {state state' : SubscriptionState V}
    (found : s.subscriptions.get? id = some state) (same : SameQueue state state') :
    Routine settings A s [] (s.setSubscription id state') := .queue found (.of_same same)

theorem inScope_get? {s : ServiceState V} {clientId : Option String} {id : SubscriptionId}
    {state : SubscriptionState V} (found : s.inScope clientId id = some state) :
    s.subscriptions.get? id = some state := by
  unfold ServiceState.inScope at found
  split at found
  · cases found
  · rename_i present
    split_ifs at found
    cases found
    exact present

/-! ## The sections -/

section
variable (A) (clientId : Option String) (id : SubscriptionId) (s : ServiceState V)

theorem syncStart_routine (ack : Option Int) (allow : Bool) :
    Routine settings A s (syncStartSection clientId id ack allow s).2.2
      (syncStartSection clientId id ack allow s).2.1 := by
  unfold syncStartSection
  cases found : s.inScope clientId id with
  | none => exact .unchanged s
  | some state =>
      dsimp only
      split
      · exact .unchanged s
      · have run : QueueRun settings A state
            ((ack.map fun v => Note.acknowledged state.subscriptionId v state.sequenceNumber).toList ++ [])
            { acknowledge state ack with lastActivity := s.clock } :=
          .acknowledge ack (.of_same rfl)
        rw [List.append_nil] at run
        exact .queue (inScope_get? found) run

theorem syncReport_routine :
    Routine settings A s (syncReportSection clientId id s).2.2 (syncReportSection clientId id s).2.1 := by
  unfold syncReportSection
  cases found : s.inScope clientId id with
  | none => exact .unchanged s
  | some state => exact .queue (inScope_get? found) (.report (.of_same rfl))

theorem activateStream_routine :
    Routine settings A s (activateStreamSection clientId id s).2.2
      (activateStreamSection clientId id s).2.1 := by
  unfold activateStreamSection
  cases found : s.inScope clientId id with
  | none => exact .unchanged s
  | some state => exact .queue (inScope_get? found) (.mark _ trivial (.of_same rfl))

theorem deactivateStream_routine (generation : Nat) :
    Routine settings A s (deactivateStreamSection id generation s).2.2
      (deactivateStreamSection id generation s).2.1 := by
  unfold deactivateStreamSection
  cases found : s.subscriptions.get? id with
  | none => exact .unchanged s
  | some state =>
      dsimp only
      split
      · exact .of_same found rfl
      · exact .unchanged s

theorem waitStart_routine (afterSequence timeoutMs : Nat) :
    Routine settings A s (waitStartSection settings clientId id afterSequence timeoutMs s).2.2
      (waitStartSection settings clientId id afterSequence timeoutMs s).2.1 := by
  unfold waitStartSection
  cases found : s.inScope clientId id with
  | none => exact .unchanged s
  | some state =>
      dsimp only
      split
      · exact .of_same (inScope_get? found) rfl
      · exact .of_same (inScope_get? found) rfl

theorem waitTimeout_routine (refreshAfterTimeout : Bool) (threshold : Nat) :
    Routine settings A s (waitTimeoutSection settings clientId id refreshAfterTimeout threshold s).2.2
      (waitTimeoutSection settings clientId id refreshAfterTimeout threshold s).2.1 := by
  unfold waitTimeoutSection
  cases found : s.inScope clientId id with
  | none => exact .unchanged s
  | some state =>
      dsimp only
      split
      · exact .of_same (inScope_get? found) rfl
      · exact .unchanged s

theorem resetTimeout_routine :
    Routine settings A s (resetTimeoutSection clientId id s).2.2 (resetTimeoutSection clientId id s).2.1 := by
  unfold resetTimeoutSection
  cases found : s.inScope clientId id with
  | none => exact .unchanged s
  | some state => exact .of_same (inScope_get? found) rfl

theorem waitResult_routine (afterSequence : Nat) (timedOut : Bool) :
    Routine settings A s (waitResultSection clientId id afterSequence timedOut s).2.2
      (waitResultSection clientId id afterSequence timedOut s).2.1 := by
  unfold waitResultSection
  cases found : s.inScope clientId id with
  | none => exact .unchanged s
  | some state => exact .of_same (inScope_get? found) rfl

theorem updateMode_routine :
    Routine settings A s (updateSubscriptionModeSection id s).2.2
      (updateSubscriptionModeSection id s).2.1 := by
  unfold updateSubscriptionModeSection
  cases found : s.subscriptions.get? id with
  | none => exact .unchanged s
  | some state =>
      dsimp only
      split
      · exact .of_same found rfl
      · split
        · exact .of_same found rfl
        · exact .of_same found rfl

variable {A}

/-- A delivered value is appended under the node that the delivery chooses. -/
theorem handleDatachange_routine (nodeId : String) (value : V) (clientHandle : Option Int)
    (may : ∀ state target, s.subscriptions.get? id = some state →
      deliveryTarget settings state nodeId clientHandle = some target → A target value) :
    Routine settings A s (handleDatachangeSection settings id nodeId value clientHandle s).2.2
      (handleDatachangeSection settings id nodeId value clientHandle s).2.1 := by
  unfold handleDatachangeSection
  cases found : s.subscriptions.get? id with
  | none => exact .unchanged s
  | some state =>
      dsimp only
      cases chosen : deliveryTarget settings state nodeId clientHandle with
      | none => exact .upstream (.refl s) fun n m => List.mem_singleton.mp m ▸ trivial
      | some target =>
          have run : QueueRun settings A state ((appendUpdate settings s.clock state target value).2 ++ [])
              { (appendUpdate settings s.clock state target value).1 with nativeTimeoutCount := 0 } :=
            .append s.clock target value (may state target found chosen) (.of_same rfl)
          rw [List.append_nil] at run
          exact .queue found (.mark _ trivial run)

theorem refreshAppend_routine (values : List (String × V)) (may : ∀ item ∈ values, A item.1 item.2) :
    Routine settings A s (refreshAppendSection settings id values s).2.2
      (refreshAppendSection settings id values s).2.1 := by
  unfold refreshAppendSection
  cases found : s.subscriptions.get? id with
  | none => exact .unchanged s
  | some state =>
      have touched : QueueRun settings A (appendMonitored settings s.clock values state).1 []
          { (appendMonitored settings s.clock values state).1 with lastActivity := s.clock } :=
        .of_same rfl
      have run := (QueueRun.appendMonitored may).trans touched
      rw [List.append_nil] at run
      exact .queue found run

end

section
variable (A) (s : ServiceState V)

theorem Routine.of_sameRegistry {s s' : ServiceState V} (same : SameRegistry s s') :
    Routine settings A s [] s' := .upstream same fun _ => nofun

theorem startPolling_routine (ref : MonitorRef) (nodeId : String) :
    Routine settings A s (startPollingSection ref nodeId s).2.2 (startPollingSection ref nodeId s).2.1 := by
  unfold startPollingSection
  split
  · exact .of_sameRegistry A (.setMonitor rfl)
  · exact .unchanged s

theorem clearMonitor_routine (ref : MonitorRef) :
    Routine settings A s (clearMonitorSection ref s).2.2 (clearMonitorSection ref s).2.1 :=
  .of_sameRegistry A (.setMonitor rfl)

theorem joinBin_sameRegistry (ref : MonitorRef) (bin : ManagedBin) (nodeId : String) (handle : Int) :
    SameRegistry s (joinBin s ref bin nodeId handle) := by
  have binOnly (b : ManagedBin) : SameRegistry s (s.setBin bin.binId b) := ⟨rfl, rfl, rfl, rfl, fun _ => rfl, rfl, rfl⟩
  exact (binOnly _).trans (.setMonitor rfl)

theorem commitNewBin_routine (ref : MonitorRef) (nodeId : String) (binId : BinId)
    (uaSubscription : UaSubscription) (capacity : Nat) (handle : Int) :
    Routine settings A s (commitNewBinSection ref nodeId binId uaSubscription capacity handle s).2.2
      (commitNewBinSection ref nodeId binId uaSubscription capacity handle s).2.1 := by
  unfold commitNewBinSection
  split
  · exact .of_sameRegistry A (joinBin_sameRegistry s ref _ nodeId handle)
  · exact .unchanged s

theorem commitAdd_routine (ref : MonitorRef) (nodeId : String) (binId : BinId) (handle : Int) :
    Routine settings A s (commitAddSection ref nodeId binId handle s).2.2
      (commitAddSection ref nodeId binId handle s).2.1 := by
  unfold commitAddSection
  split
  · split
    · exact .of_sameRegistry A (joinBin_sameRegistry s ref _ nodeId handle)
    · exact .unchanged s
  · exact .unchanged s

theorem leaveBin_routine (nodeId : String) (binId : BinId) :
    Routine settings A s (leaveBinSection nodeId binId s).2.2 (leaveBinSection nodeId binId s).2.1 := by
  unfold leaveBinSection
  split
  · exact .unchanged s
  · dsimp only
    split
    · exact .of_sameRegistry A ⟨rfl, rfl, rfl, rfl, fun _ => rfl, rfl, rfl⟩
    · exact .of_sameRegistry A ⟨rfl, rfl, rfl, rfl, fun _ => rfl, rfl, rfl⟩

theorem idleLost_sameRegistry (binId : BinId) (nodeIds : List String) :
    SameRegistry s (idleLost binId nodeIds s).2 := by
  induction nodeIds generalizing s with
  | nil => exact .refl s
  | cons nodeId rest ih =>
      rw [idleLost]
      split
      · exact ih s
      · split
        · refine SameRegistry.trans ?_ (ih _)
          exact .setMonitor rfl
        · exact ih s

theorem resyncBin_sameRegistry (survivors : Nat → Option (String → Option Int)) (binId : BinId)
    (bin : ManagedBin) : SameRegistry s (resyncBin survivors binId bin s).2 := by
  have binsOnly (bins : Dict BinId ManagedBin) : SameRegistry s { s with bins } :=
    ⟨rfl, rfl, rfl, rfl, fun _ => rfl, rfl, rfl⟩
  unfold resyncBin
  dsimp only
  split
  · split
    · exact (binsOnly _).trans (idleLost_sameRegistry _ binId _)
    · exact (binsOnly _).trans (idleLost_sameRegistry _ binId _)
  · exact (binsOnly _).trans (idleLost_sameRegistry _ binId _)

theorem resyncBins_sameRegistry (survivors : Nat → Option (String → Option Int))
    (entries : List (BinId × ManagedBin)) : SameRegistry s (resyncBins survivors entries s).2 := by
  induction entries generalizing s with
  | nil => exact .refl s
  | cons entry rest ih => exact (resyncBin_sameRegistry s survivors entry.1 entry.2).trans (ih _)

theorem reconnect_routine (survivors : Nat → Option (String → Option Int)) :
    Routine settings A s (reconnectSection survivors s).2.2 (reconnectSection survivors s).2.1 :=
  .of_sameRegistry A (resyncBins_sameRegistry s survivors _)

theorem dequeue_routine :
    Routine settings A s (dequeueSection s).2.2 (dequeueSection s).2.1 := by
  unfold dequeueSection
  split
  · exact .unchanged s
  · rename_i queue
    exact .dequeue queue

end

end I3x.Subscriptions

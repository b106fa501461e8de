import I3xServer.Subscriptions.Calls

/-!
# The stretches that the programs are made of

`Stretch` names every section that can change the state, under what it is
concerned with. Each program keeps to the stretches of its concerns, whatever the
outside replies; what a stretch does is said by the relations that contain it.
-/
namespace I3x.Subscriptions
open Container Coroutine Program
variable {V : Type}

/-- The task has read the value of the node, or has taken it from the queue. -/
def Heard (m : ServiceMemory V) (nodeId : String) (value : V) : Prop :=
  (∃ nodeIds values, .replied (.readValues nodeIds) (some values) ∈ m ∧ (nodeId, value) ∈ nodeIds.zip values) ∨
    .noted (.dequeued nodeId value) ∈ m

/-- What was heard is not forgotten. -/
theorem Heard.append {m : ServiceMemory V} {nodeId : String} {value : V}
    (heard : Heard m nodeId value) (more : ServiceMemory V) :
    Heard (more ++ m) nodeId value := by
  rcases heard with ⟨nodeIds, values, replied, zipped⟩ | dequeued
  · exact .inl ⟨nodeIds, values, List.mem_append_right _ replied, zipped⟩
  · exact .inr (List.mem_append_right _ dequeued)

inductive Concern where
  | queue | streams | membership | monitors
  deriving DecidableEq, Repr

/-- The section reads the state and notes nothing. -/
def Looks {α : Type} (f : Section V α) : Prop := ∀ s, (f s).2 = (s, [])

section
variable (settings : Settings V) (allowed : (Dict String Int → Dict String Int) → BuildResult → Prop)

/-- One section under its concern, with what the task remembers; membership
changes only as `allowed` says. -/
inductive Stretch :
    Concern → ServiceMemory V → ServiceState V → List (Note V) → ServiceState V → Prop
  | look {k} (m s) : Stretch k m s [] s
  -- the update queues and the values on their way to them
  | deliver {m} (id : SubscriptionId) (nodeId : String) (value : V) (heard : Heard m nodeId value) (s) :
      Stretch .queue m s (handleDatachangeSection settings id nodeId value none s).2.2
        (handleDatachangeSection settings id nodeId value none s).2.1
  | refresh {m} (id : SubscriptionId) (values : List (String × V))
      (heard : ∀ item ∈ values, Heard m item.1 item.2) (s) :
      Stretch .queue m s (refreshAppendSection settings id values s).2.2
        (refreshAppendSection settings id values s).2.1
  | notify {m} (nodeId : String) (value : V) (s) :
      Stretch .queue m s [.notified nodeId value] (enqueueNodeDatachange settings nodeId value s).2.1
  | dequeue {m} (s) : Stretch .queue m s (dequeueSection s).2.2 (dequeueSection s).2.1
  | serve {m} (nodeId : String) (value : V) (s) :
      Stretch .queue m s [.valueChanged nodeId value] (changeValue nodeId value s).2.1
  | tick {m} (elapsed : Nat) (s) : Stretch .queue m s [] { s with clock := s.clock + elapsed }
  | syncStart {m} (clientId : Option String) (id : SubscriptionId) (ack : Option Int) (allow : Bool) (s) :
      Stretch .queue m s (syncStartSection clientId id ack allow s).2.2
        (syncStartSection clientId id ack allow s).2.1
  | syncReport {m} (clientId : Option String) (id : SubscriptionId) (s) :
      Stretch .queue m s (syncReportSection clientId id s).2.2 (syncReportSection clientId id s).2.1
  | waitStart {m} (clientId : Option String) (id : SubscriptionId) (afterSequence timeoutMs : Nat) (s) :
      Stretch .queue m s (waitStartSection settings clientId id afterSequence timeoutMs s).2.2
        (waitStartSection settings clientId id afterSequence timeoutMs s).2.1
  | waitTimeout {m} (clientId : Option String) (id : SubscriptionId) (refresh : Bool) (threshold : Nat) (s) :
      Stretch .queue m s (waitTimeoutSection settings clientId id refresh threshold s).2.2
        (waitTimeoutSection settings clientId id refresh threshold s).2.1
  | resetTimeout {m} (clientId : Option String) (id : SubscriptionId) (s) :
      Stretch .queue m s (resetTimeoutSection clientId id s).2.2 (resetTimeoutSection clientId id s).2.1
  | waitResult {m} (clientId : Option String) (id : SubscriptionId) (afterSequence : Nat) (timedOut : Bool) (s) :
      Stretch .queue m s (waitResultSection clientId id afterSequence timedOut s).2.2
        (waitResultSection clientId id afterSequence timedOut s).2.1
  | updateMode {m} (id : SubscriptionId) (s) :
      Stretch .queue m s (updateSubscriptionModeSection id s).2.2 (updateSubscriptionModeSection id s).2.1
  -- the stream flag of a subscription
  | activate {m} (clientId : Option String) (id : SubscriptionId) (s) :
      Stretch .streams m s (activateStreamSection clientId id s).2.2 (activateStreamSection clientId id s).2.1
  | deactivate {m} (id : SubscriptionId) (generation : Nat) (s) :
      Stretch .streams m s (deactivateStreamSection id generation s).2.2
        (deactivateStreamSection id generation s).2.1
  | missDeactivation {m} (id : SubscriptionId) (generation : Nat) (s) :
      Stretch .streams m s [.deactivationMissed id (isStreamActiveSection id generation s).1] s
  -- subscriptions, their membership and the subscribers of the monitors
  | create {m} (clientId displayName : Option String) (started : Nat) (s) :
      Stretch .membership m s (createSection clientId displayName started s).2.2
        (createSection clientId displayName started s).2.1
  | change {m} (clientId : Option String) (id : SubscriptionId) (change) (model) (fuel : Nat)
      (may : allowed change model) (s) :
      Stretch .membership m s (membershipSection settings clientId id change model fuel s).2.2
        (membershipSection settings clientId id change model fuel s).2.1
  | delete {m} (clientId : Option String) (ids : List SubscriptionId) (s) :
      Stretch .membership m s (deleteSection settings clientId ids s).2.2
        (deleteSection settings clientId ids s).2.1
  | expire {m} (started : Nat) (s) :
      Stretch .membership m s (expireSection settings started s).2.2 (expireSection settings started s).2.1
  | acquire {m} (nodeId : String) (id : SubscriptionId) (s) :
      Stretch .membership m s (acquireSection nodeId id s).2.2 (acquireSection nodeId id s).2.1
  | release {m} (nodeId : String) (id : SubscriptionId) (s) :
      Stretch .membership m s (releaseSection nodeId id s).2.2 (releaseSection nodeId id s).2.1
  -- the modes of the monitors and the bins
  | startPolling {m} (ref : MonitorRef) (nodeId : String) (s) :
      Stretch .monitors m s (startPollingSection ref nodeId s).2.2 (startPollingSection ref nodeId s).2.1
  | clearMonitor {m} (ref : MonitorRef) (s) :
      Stretch .monitors m s (clearMonitorSection ref s).2.2 (clearMonitorSection ref s).2.1
  | freshBin {m} (s) : Stretch .monitors m s [] (freshBinSection s).2.1
  | commitNewBin {m} (ref : MonitorRef) (nodeId : String) (binId : BinId) (uaSubscription : UaSubscription)
      (capacity : Nat) (handle : Int) (s) :
      Stretch .monitors m s (commitNewBinSection ref nodeId binId uaSubscription capacity handle s).2.2
        (commitNewBinSection ref nodeId binId uaSubscription capacity handle s).2.1
  | commitAdd {m} (ref : MonitorRef) (nodeId : String) (binId : BinId) (handle : Int) (s) :
      Stretch .monitors m s (commitAddSection ref nodeId binId handle s).2.2
        (commitAddSection ref nodeId binId handle s).2.1
  | leaveBin {m} (nodeId : String) (binId : BinId) (s) :
      Stretch .monitors m s (leaveBinSection nodeId binId s).2.2 (leaveBinSection nodeId binId s).2.1
  | reconnect {m} (survivors : Nat → Option (String → Option Int)) (s) :
      Stretch .monitors m s (reconnectSection survivors s).2.2 (reconnectSection survivors s).2.1
  | backOff {m} (s : ServiceState V) :
      Stretch .monitors m s [] { s with nativeBackoffUntil := s.clock + settings.nativeBackoffMs }
  | admissionStarted {m} (ref : MonitorRef) (s) : Stretch .monitors m s [.admissionStarted ref] s
  | admissionEnded {m} (ref : MonitorRef) (s) : Stretch .monitors m s [.admissionEnded ref] s

/-- A stretch of one of the concerns. -/
def Stretches (concerns : Concern → Prop) (m : ServiceMemory V) (s : ServiceState V) (ns : List (Note V))
    (s' : ServiceState V) : Prop := ∃ k, concerns k ∧ Stretch settings allowed k m s ns s'

end

/-! ## Sections that only look -/

theorem isStreamActive_looks (id : SubscriptionId) (generation : Nat) :
    Looks (isStreamActiveSection id generation : Section V Bool) := by
  intro s
  unfold isStreamActiveSection
  cases s.subscriptions.get? id <;> rfl

theorem refreshTargets_looks (id : SubscriptionId) : Looks (refreshTargetsSection id : Section V (List String)) := by
  intro s
  unfold refreshTargetsSection
  cases s.subscriptions.get? id with
  | none => rfl
  | some state =>
      dsimp only
      split <;> rfl

theorem subscribers_looks (settings : Settings V) (nodeId : String) : Looks (subscribersSection settings nodeId) := by
  intro s
  unfold subscribersSection
  cases s.nodeMonitor nodeId <;> rfl

theorem slot_looks (caps : Capabilities) : Looks (slotSection caps : Section V SlotChoice) := by
  intro s
  unfold slotSection
  split
  · rfl
  · split <;> rfl

theorem idleMonitor_looks (nodeId : String) : Looks (idleMonitorSection nodeId : Section V (Option MonitorRef)) := by
  intro s
  unfold idleMonitorSection
  split
  · rfl
  · split <;> rfl

section
variable {α : Type} {settings : Settings V}
  {allowed : (Dict String Int → Dict String Int) → BuildResult → Prop} {concerns : Concern → Prop}

theorem within_look {l : Lock} {f : Section V α} {k : Concern} (may : concerns k) (looks : Looks f) :
    (locked l f : Act V α).Within (Stretches settings allowed concerns) := by
  refine .locked fun m s => ⟨k, may, ?_⟩
  rw [looks s]
  exact .look m s

theorem within_stretch {l : Lock} {f : Section V α} {k : Concern} (may : concerns k)
    (stretch : ∀ m s, Stretch settings allowed k m s (f s).2.2 (f s).2.1) :
    (locked l f : Act V α).Within (Stretches settings allowed concerns) :=
  .locked fun m s => ⟨k, may, stretch m s⟩

theorem within_await (q : Request V) : (await q).Within (Stretches settings allowed concerns) := .ask q

end

/-! ## Monitors -/

section
variable (settings : Settings V) (allowed : (Dict String Int → Dict String Int) → BuildResult → Prop)
  {concerns : Concern → Prop} (monitors : concerns .monitors)
include monitors

theorem startPollingNodeMonitor_stretches (ref : MonitorRef) (nodeId : String) :
    (startPollingNodeMonitor ref nodeId : Act V Unit).Within (Stretches settings allowed concerns) :=
  within_stretch monitors fun _ s => .startPolling ref nodeId s

theorem openNewBin_stretches (ref : MonitorRef) (nodeId : String) (capacity : Nat) :
    (openNewBin ref nodeId capacity : Act V (Option Bool)).Within (Stretches settings allowed concerns) := by
  refine Within.bind (.atomic fun _ s => ⟨_, monitors, .freshBin s⟩) fun binId => ?_
  refine Within.bind (within_await _) fun created => ?_
  match created with
  | none => exact .ret _
  | some uaSubscription =>
      refine Within.bind (within_await _) fun subscribed => ?_
      match subscribed with
      | none => exact .ret _
      | some none => exact Within.bind (within_await _) fun _ => .ret _
      | some (some handle) =>
          refine Within.acquire (Within.bind (.atomic fun _ s => ⟨_, monitors,
            .commitNewBin ref nodeId binId uaSubscription capacity handle s⟩) fun committed => ?_)
          cases committed with
          | true => exact .release (.ret _)
          | false => exact Within.bind (within_await _) fun _ => .release (.ret _)

theorem addNodeToBin_stretches (ref : MonitorRef) (nodeId : String) (targetBin : ManagedBin) :
    (addNodeToBin ref nodeId targetBin : Act V (Option Bool)).Within (Stretches settings allowed concerns) := by
  refine Within.bind (within_await _) fun subscribed => ?_
  match subscribed with
  | none => exact .ret _
  | some none => exact .ret _
  | some (some handle) =>
      refine Within.acquire (Within.bind (.atomic fun _ s => ⟨_, monitors,
        .commitAdd ref nodeId targetBin.binId handle s⟩) fun committed => ?_)
      cases committed with
      | true => exact .release (.ret _)
      | false => exact Within.bind (within_await _) fun _ => .release (.ret _)

theorem acquireNativeBinSlot_stretches (ref : MonitorRef) (nodeId : String) (caps : Capabilities) :
    (acquireNativeBinSlot ref nodeId caps : Act V (Option Bool)).Within
      (Stretches settings allowed concerns) := by
  refine Within.acquire (Within.bind ?_ fun _ => .release (.ret _))
  refine Within.bind (within_look monitors (slot_looks caps)) fun choice => ?_
  cases choice with
  | full => exact .ret _
  | into targetBin => exact addNodeToBin_stretches settings allowed monitors ref nodeId targetBin
  | «open» =>
      refine Within.bind (within_look monitors fun _ => rfl) fun can => ?_
      cases can with
      | true => exact openNewBin_stretches settings allowed monitors ref nodeId _
      | false => exact .ret _

theorem startNodeMonitorRuntime_stretches (ref : MonitorRef) (nodeId : String) :
    (startNodeMonitorRuntime settings ref nodeId).Within (Stretches settings allowed concerns) := by
  have polling := startPollingNodeMonitor_stretches settings allowed monitors ref nodeId
  refine Within.bind (.note fun _ s => ⟨_, monitors, .admissionStarted ref s⟩) fun _ => ?_
  refine Within.bind ?_ fun _ => .note fun _ s => ⟨_, monitors, .admissionEnded ref s⟩
  refine Within.bind (.read fun m s => ⟨_, monitors, .look m s⟩) fun backingOff => ?_
  cases backingOff with
  | true => exact polling
  | false =>
      refine Within.bind (within_await _) fun caps => ?_
      refine Within.bind (acquireNativeBinSlot_stretches settings allowed monitors ref nodeId caps)
        fun acquired => ?_
      match acquired with
      | some true => exact .ret _
      | some false => exact polling
      | none => exact Within.bind (.modify fun _ s => ⟨_, monitors, .backOff s⟩) fun _ => polling

theorem stopNodeMonitorRuntime_stretches (ref : MonitorRef) (nodeId : String) :
    (stopNodeMonitorRuntime ref nodeId : Act V Unit).Within (Stretches settings allowed concerns) := by
  refine Within.bind (.atomic fun _ s => ⟨_, monitors, .clearMonitor ref s⟩) fun binId => ?_
  cases binId with
  | none => exact .ret _
  | some binId =>
      refine Within.bind (within_stretch monitors fun _ s => .leaveBin nodeId binId s) fun exit => ?_
      match exit with
      | .gone => exact .ret _
      | .emptied _ => exact Within.bind (within_await _) fun _ => .ret _
      | .left _ (some _) => exact Within.bind (within_await _) fun _ => .ret _
      | .left _ none => exact .ret _

omit monitors in
theorem updateSubscriptionMode_stretches (queue : concerns .queue) (id : SubscriptionId) :
    (updateSubscriptionMode id : Act V Unit).Within (Stretches settings allowed concerns) :=
  within_stretch queue fun _ s => .updateMode id s

theorem handleClientReconnect_stretches (queue : concerns .queue)
    (survivors : Nat → Option (String → Option Int)) :
    (handleClientReconnect settings survivors).Within (Stretches settings allowed concerns) := by
  refine Within.bind (within_stretch monitors fun _ s => .reconnect survivors s) fun found => ?_
  refine Within.bind (.forEach fun bin _ => ?_) fun _ => ?_
  · exact Within.bind (within_await _) fun _ => .ret _
  refine Within.bind (.forEach fun nodeId _ => ?_) fun _ => ?_
  · refine Within.bind (within_look monitors (idleMonitor_looks nodeId)) fun idle => ?_
    cases idle with
    | none => exact .ret _
    | some ref => exact startNodeMonitorRuntime_stretches settings allowed monitors ref nodeId
  refine Within.bind (within_look monitors fun _ => rfl) fun ids => ?_
  exact .forEach fun id _ => updateSubscriptionMode_stretches settings allowed queue id

end

/-! ## Values -/

section
variable (settings : Settings V) (allowed : (Dict String Int → Dict String Int) → BuildResult → Prop)
  {concerns : Concern → Prop} (queue : concerns .queue)
include queue

theorem fanoutNodeValue_from {m : ServiceMemory V} {nodeId : String} {value : V}
    (heard : Heard m nodeId value) :
    (fanoutNodeValue settings nodeId value).WithinFrom (Stretches settings allowed concerns) m := by
  have listing : (locked .main (subscribersSection settings nodeId) : Act V (List SubscriptionId)).Within
      (Stretches settings allowed concerns) := within_look queue (subscribers_looks settings nodeId)
  refine (listing m).bind fun more ids => WithinFrom.forEach fun id _ further => ?_
  exact fun s => ⟨⟨_, queue, .deliver id nodeId value ((heard.append more).append further) s⟩, trivial⟩

theorem nodeDatachangeTurn_stretches :
    (nodeDatachangeTurn settings).Within (Stretches settings allowed concerns) := by
  refine fun m => WithinFrom.atomic_bind fun s => ⟨⟨_, queue, .dequeue s⟩, ?_⟩
  unfold dequeueSection
  cases s.nodeDatachangeQueue with
  | nil => trivial
  | cons item rest => exact fanoutNodeValue_from settings allowed queue (.inr List.mem_cons_self)

theorem sharedPollingTurn_stretches :
    (sharedPollingTurn settings).Within (Stretches settings allowed concerns) := by
  refine Within.bind (within_look queue fun _ => rfl) fun nodeIds m => ?_
  split
  · trivial
  · intro values
    match values with
    | none => trivial
    | some values =>
        refine WithinFrom.forEach fun item inside more => fanoutNodeValue_from settings allowed queue ?_
        have read : Heard (.replied (.readValues nodeIds) (some values) :: m) item.1 item.2 :=
          .inl ⟨nodeIds, values, List.mem_cons_self, inside⟩
        exact read.append more

theorem refreshChangedValues_stretches (id : SubscriptionId) :
    (refreshChangedValues settings id).Within (Stretches settings allowed concerns) := by
  refine Within.bind (within_look queue (refreshTargets_looks id)) fun nodeIds m => ?_
  split
  · trivial
  · intro values
    match values with
    | none => trivial
    | some values =>
        refine fun s => ⟨⟨_, queue, .refresh id _ (fun item inside => ?_) s⟩, trivial⟩
        exact .inl ⟨nodeIds, values, List.mem_cons_self, inside⟩

theorem seedInitialUpdates_stretches (id : SubscriptionId) :
    (seedInitialUpdates settings id).Within (Stretches settings allowed concerns) := by
  unfold seedInitialUpdates
  split
  · exact refreshChangedValues_stretches settings allowed queue id
  · exact .ret _

/-! ## Sync and waiting -/

theorem sync_stretches (clientId : Option String) (id : SubscriptionId) (ack : Option Int) (allow : Bool) :
    (sync settings clientId id ack allow).Within (Stretches settings allowed concerns) := by
  refine Within.bind (within_stretch queue fun _ s => .syncStart clientId id ack allow s) fun started => ?_
  match started with
  | .missing => exact .ret _
  | .refused => exact .ret _
  | .proceed true =>
      refine Within.bind (refreshChangedValues_stretches settings allowed queue id) fun _ => ?_
      exact within_stretch queue fun _ s => .syncReport clientId id s
  | .proceed false => exact within_stretch queue fun _ s => .syncReport clientId id s

theorem syncSubscription_stretches (clientId : Option String) (id : SubscriptionId) (last : Option Int) :
    (syncSubscription settings clientId id last).Within (Stretches settings allowed concerns) := by
  unfold syncSubscription
  split
  · exact .ret _
  · refine Within.bind (sync_stretches settings allowed queue _ id last false) fun result => ?_
    cases result with
    | none => exact .ret _
    | some result => exact .ret _

theorem waitForUpdates_stretches (clientId : Option String) (id : SubscriptionId)
    (afterSequence timeoutMs : Nat) :
    (waitForUpdates settings clientId id afterSequence timeoutMs).Within
      (Stretches settings allowed concerns) := by
  have result (timedOut : Bool) :
      (locked .main (waitResultSection clientId id afterSequence timedOut) :
        Act V (Option (List (SubscriptionUpdate V)))).Within (Stretches settings allowed concerns) :=
    within_stretch queue fun _ s => .waitResult clientId id afterSequence timedOut s
  refine Within.bind (within_stretch queue fun _ s => .waitStart clientId id afterSequence timeoutMs s)
    fun started => ?_
  match started with
  | .missing => exact .ret _
  | .ready updates => exact .ret _
  | .wait refreshAfterTimeout threshold =>
      refine Within.bind (within_await _) fun outcome => ?_
      match outcome with
      | .disconnected => exact .ret _
      | .shutdown => exact .ret _
      | .updated => exact Within.bind (result false) fun _ => .ret _
      | .timeout =>
          refine Within.bind (within_stretch queue fun _ s =>
            .waitTimeout clientId id refreshAfterTimeout threshold s) fun execute => ?_
          match execute with
          | none => exact .ret _
          | some false => exact Within.bind (result true) fun _ => .ret _
          | some true =>
              refine Within.bind (within_stretch queue fun _ s => .resetTimeout clientId id s) fun present => ?_
              match present with
              | true =>
                  refine Within.bind (refreshChangedValues_stretches settings allowed queue id) fun _ => ?_
                  exact Within.bind (result true) fun _ => .ret _
              | false => exact .ret _

/-! ## Streams -/

theorem streamRounds_stretches (session : StreamSession V) (rounds lastSequence : Nat) :
    (streamRounds settings session rounds lastSequence).Within (Stretches settings allowed concerns) := by
  induction rounds generalizing lastSequence with
  | zero => exact .ret _
  | succ rounds ih =>
      refine Within.bind (within_look queue (isStreamActive_looks _ _)) fun active => ?_
      match active with
      | false => exact Within.bind (within_await _) fun _ => .ret _
      | true =>
          refine Within.bind (waitForUpdates_stretches settings allowed queue _ _ _ _) fun waited => ?_
          match waited with
          | .disconnected => exact .ret _
          | .closed => exact Within.bind (within_await _) fun _ => .ret _
          | .ready updates =>
              dsimp only
              split
              · refine Within.bind (within_await _) fun present => ?_
                cases present with
                | true => exact ih lastSequence
                | false => exact .ret _
              · refine Within.bind (within_await _) fun present => ?_
                cases present with
                | true => exact ih _
                | false => exact .ret _

section
variable (streams : concerns .streams)
include streams

omit queue in
theorem missDeactivation_stretches (id : SubscriptionId) (generation : Nat) :
    (missDeactivation id generation : Act V Unit).Within (Stretches settings allowed concerns) :=
  .note fun _ s => ⟨_, streams, .missDeactivation _ _ s⟩

omit queue in
theorem finallyDeactivate_stretches (id : SubscriptionId) (generation : Nat) :
    (finallyDeactivate id generation : Act V Unit).Within (Stretches settings allowed concerns) := by
  refine Within.bind (within_await _) fun completed => ?_
  cases completed with
  | true => exact within_stretch streams fun _ s => .deactivate _ _ s
  | false => exact missDeactivation_stretches settings allowed streams id generation

theorem iterStreamEvents_stretches (session : StreamSession V) (rounds : Nat) :
    (iterStreamEvents settings session rounds).Within (Stretches settings allowed concerns) := by
  have closing := finallyDeactivate_stretches settings allowed streams session.subscriptionId
    session.streamGeneration
  refine Within.bind (within_await _) fun present => ?_
  cases present with
  | false => exact closing
  | true =>
      rw [if_pos rfl]
      split
      · exact Within.bind (streamRounds_stretches settings allowed queue session rounds 0)
          fun _ => closing
      · refine Within.bind (within_await _) fun present => ?_
        cases present with
        | true =>
            exact Within.bind (streamRounds_stretches settings allowed queue session rounds _)
              fun _ => closing
        | false => exact closing

theorem respondStream_stretches (session : StreamSession V) (rounds : Nat) :
    (respondStream settings session rounds).Within (Stretches settings allowed concerns) := by
  refine Within.bind (within_await _) fun started => ?_
  cases started with
  | true => exact iterStreamEvents_stretches settings allowed queue streams session rounds
  | false => exact missDeactivation_stretches settings allowed streams _ _

omit queue in
theorem openStream_stretches (clientId : String) (id : SubscriptionId) :
    (openStream clientId id : Act V (Option (Nat × Bool))).Within (Stretches settings allowed concerns) := by
  refine Within.bind (within_stretch streams fun _ s => .activate _ id s) fun generation => ?_
  match generation with
  | some generation => exact .ret _
  | none => exact Within.bind (within_stretch streams fun _ s => .activate none id s) fun _ => .ret _

theorem beginStreamSession_stretches (clientId : Option String) (id : SubscriptionId) :
    (beginStreamSession settings clientId id).Within (Stretches settings allowed concerns) := by
  unfold beginStreamSession
  split
  · exact .ret _
  · refine Within.bind (openStream_stretches settings allowed streams _ id) fun opened => ?_
    match opened with
    | none => exact .ret _
    | some (generation, relaxed) =>
        refine Within.bind (sync_stretches settings allowed queue _ id none true) fun acknowledged => ?_
        cases acknowledged with
        | none => exact .ret _
        | some acknowledged => exact .ret _

theorem streamSubscription_stretches (clientId : Option String) (id : SubscriptionId) (rounds : Nat) :
    (streamSubscription settings clientId id rounds).Within (Stretches settings allowed concerns) := by
  refine Within.bind (beginStreamSession_stretches settings allowed queue streams clientId id) fun session => ?_
  match session with
  | .error _ => exact .ret _
  | .ok session =>
      exact Within.bind (respondStream_stretches settings allowed queue streams session rounds) fun _ => .ret _

end
end

/-! ## Membership and calls -/

section
variable (settings : Settings V) (allowed : (Dict String Int → Dict String Int) → BuildResult → Prop)
  {concerns : Concern → Prop} (membership : concerns .membership) (monitors : concerns .monitors)

include membership in
theorem createSubscription_stretches (clientId displayName : Option String) :
    (createSubscription clientId displayName).Within (Stretches settings allowed concerns) :=
  Within.bind (.read fun m s => ⟨_, membership, .look m s⟩) fun started =>
    within_stretch membership fun _ s => .create clientId displayName started s

include membership monitors

theorem releaseNodeMonitor_stretches (nodeId : String) (id : SubscriptionId) :
    (releaseNodeMonitor nodeId id).Within (Stretches settings allowed concerns) := by
  refine Within.bind (within_stretch membership fun _ s => .release nodeId id s) fun orphaned => ?_
  cases orphaned with
  | none => exact .ret _
  | some ref => exact stopNodeMonitorRuntime_stretches settings allowed monitors ref nodeId

theorem acquireNodeMonitor_stretches (nodeId : String) (id : SubscriptionId) :
    (acquireNodeMonitor settings nodeId id).Within (Stretches settings allowed concerns) := by
  refine Within.bind (within_stretch membership fun _ s => .acquire nodeId id s) fun registered => ?_
  cases registered with
  | none => exact .ret _
  | some ref => exact startNodeMonitorRuntime_stretches settings allowed monitors ref nodeId

theorem releaseAllNodes_stretches (state : SubscriptionState V) :
    (releaseAllNodes settings state).Within (Stretches settings allowed concerns) := by
  refine Within.bind (.forEach fun nodeId _ =>
    releaseNodeMonitor_stretches settings allowed membership monitors nodeId _) fun _ => ?_
  exact within_look membership fun _ => rfl

theorem deleteSubscriptions_stretches (clientId : Option String) (ids : List SubscriptionId) :
    (deleteSubscriptions settings clientId ids).Within (Stretches settings allowed concerns) := by
  refine Within.bind (within_stretch membership fun _ s => .delete clientId ids s) fun found => ?_
  exact Within.bind (.forEach fun state _ =>
    releaseAllNodes_stretches settings allowed membership monitors state) fun _ => .ret _

theorem expireSubscriptions_stretches :
    (expireSubscriptions settings).Within (Stretches settings allowed concerns) := by
  refine Within.bind (.read fun m s => ⟨_, membership, .look m s⟩) fun started => ?_
  refine Within.bind (within_stretch membership fun _ s => .expire started s) fun removed => ?_
  exact .forEach fun state _ => releaseAllNodes_stretches settings allowed membership monitors state

variable (queue : concerns .queue)
include queue

theorem applyMonitoredNodeDiff_stretches (id : SubscriptionId) (previous new : Finset String) :
    (applyMonitoredNodeDiff settings id previous new).Within (Stretches settings allowed concerns) := by
  refine Within.bind (.forEach fun nodeId _ =>
    releaseNodeMonitor_stretches settings allowed membership monitors nodeId id) fun _ => ?_
  refine Within.bind (.forEach fun nodeId _ =>
    acquireNodeMonitor_stretches settings allowed membership monitors nodeId id) fun _ => ?_
  refine Within.bind (updateSubscriptionMode_stretches settings allowed queue id) fun _ => ?_
  exact seedInitialUpdates_stretches settings allowed queue id

theorem changeMembership_stretches (clientId : Option String) (id : SubscriptionId)
    (change : Dict String Int → Dict String Int) (model : BuildResult) (fuel : Nat)
    (may : allowed change model) :
    (changeMembership settings clientId id change model fuel).Within (Stretches settings allowed concerns) := by
  refine Within.acquire (Within.bind (.atomic fun _ s =>
    ⟨_, membership, .change clientId id change model fuel may s⟩) fun changed => ?_)
  match changed with
  | .missing => exact .release (.ret _)
  | .endless => exact nofun
  | .changed previous new =>
      refine Within.release (Within.bind ?_ fun _ => .ret _)
      exact applyMonitoredNodeDiff_stretches settings allowed membership monitors queue id previous new

/-- The membership changes that a call makes are allowed. -/
def Call.ChangesAllowed : Call V → Prop
  | .registerItems _ _ elementIds maxDepth model _ => allowed (registerObjects · elementIds maxDepth) model
  | .unregisterItems _ _ elementIds model _ => allowed (unregisterObjects · elementIds) model
  | _ => True

/-- The call opens a stream. -/
def Call.Streams : Call V → Prop
  | .streamSubscription .. => True
  | _ => False

/-- A call keeps to the concerns of the service, to streams only if it opens one. -/
theorem program_stretches (call : Call V) (may : call.ChangesAllowed allowed)
    (streams : call.Streams → concerns .streams) :
    (program settings call).Within (Stretches settings allowed concerns) := by
  cases call with
  | createSubscription clientId displayName =>
      exact Within.bind (createSubscription_stretches settings allowed membership clientId displayName)
        fun _ => .ret _
  | registerItems clientId id elementIds maxDepth model fuel =>
      exact Within.bind (changeMembership_stretches settings allowed membership monitors queue clientId id _
        model fuel may) fun _ => .ret _
  | unregisterItems clientId id elementIds model fuel =>
      exact Within.bind (changeMembership_stretches settings allowed membership monitors queue clientId id _
        model fuel may) fun _ => .ret _
  | deleteSubscriptions clientId ids =>
      exact Within.bind (deleteSubscriptions_stretches settings allowed membership monitors clientId ids)
        fun _ => .ret _
  | expireSubscriptions =>
      exact Within.bind (expireSubscriptions_stretches settings allowed membership monitors) fun _ => .ret _
  | sync clientId id ack allow =>
      exact Within.bind (sync_stretches settings allowed queue clientId id ack allow) fun _ => .ret _
  | syncSubscription clientId id last =>
      exact Within.bind (syncSubscription_stretches settings allowed queue clientId id last) fun _ => .ret _
  | streamSubscription clientId id rounds =>
      exact Within.bind (streamSubscription_stretches settings allowed queue (streams trivial) clientId id rounds)
        fun _ => .ret _
  | nodeDatachange nodeId value =>
      exact Within.bind (.atomic fun _ s => ⟨_, queue, .notify nodeId value s⟩) fun _ => .ret _
  | nodeDatachangeTurn =>
      exact Within.bind (nodeDatachangeTurn_stretches settings allowed queue) fun _ => .ret _
  | sharedPollingTurn =>
      exact Within.bind (sharedPollingTurn_stretches settings allowed queue) fun _ => .ret _
  | clientReconnect survivors =>
      exact Within.bind (handleClientReconnect_stretches settings allowed monitors queue survivors)
        fun _ => .ret _
  | clockTick elapsed =>
      exact Within.bind (.modify fun _ s => ⟨_, queue, .tick elapsed s⟩) fun _ => .ret _
  | valueChange nodeId value =>
      exact Within.bind (.atomic fun _ s => ⟨_, queue, .serve nodeId value s⟩) fun _ => .ret _

end
end I3x.Subscriptions

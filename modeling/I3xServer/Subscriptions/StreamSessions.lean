import I3xServer.Coroutine.Named
import I3xServer.Subscriptions.Confinement
import I3xServer.Subscriptions.Registry

/-!
# Stream sessions

A call that opens a stream takes the next generation of its subscription and sets
the stream flag; the response clears the flag when it ends, unless a newer
session has taken over. The flag is up exactly while the newest session is in
flight, or after it ended without its final deactivation.
-/
namespace I3x.Subscriptions
open Container Coroutine
variable {V : Type}

/-! ## What the other stretches leave of the streams -/

/-- Notes of the beginning and of the loss of a stream. -/
def Note.OfStream : Note V → Prop
  | .streamActivated .. | .deactivationMissed .. => True
  | _ => False

/-- The client, the generation and the stream flag are the same. -/
structure SameStream (a b : SubscriptionState V) : Prop where
  clientId : b.clientId = a.clientId
  activeStreamGeneration : b.activeStreamGeneration = a.activeStreamGeneration
  streamConnected : b.streamConnected = a.streamConnected

/-- A subscription of `s'` has the stream it had in `s`, or is new and has none. -/
structure KeepsStreams (s : ServiceState V) (ns : List (Note V)) (s' : ServiceState V) : Prop where
  notes : ∀ n ∈ ns, ¬ n.OfStream
  next : s.nextSubscription ≤ s'.nextSubscription
  present : ∀ {id state'}, s'.subscriptions.get? id = some state' →
    (∃ state, s.subscriptions.get? id = some state ∧ SameStream state state') ∨
      s.nextSubscription ≤ id ∧ state'.activeStreamGeneration = 0 ∧ state'.streamConnected = false

theorem SameStream.refl (state : SubscriptionState V) : SameStream state state := ⟨rfl, rfl, rfl⟩

theorem SameStream.trans {a b c : SubscriptionState V} (h : SameStream a b) (k : SameStream b c) :
    SameStream a c :=
  ⟨k.1.trans h.1, k.2.trans h.2, k.3.trans h.3⟩

theorem KeepsStreams.of_get? {s s' : ServiceState V} {ns : List (Note V)} (notes : ∀ n ∈ ns, ¬ n.OfStream)
    (next : s'.nextSubscription = s.nextSubscription)
    (kept : ∀ {id state}, s'.subscriptions.get? id = some state → s.subscriptions.get? id = some state) :
    KeepsStreams s ns s' :=
  ⟨notes, next.ge, fun found => .inl ⟨_, kept found, .refl _⟩⟩

theorem KeepsStreams.of_same {s s' : ServiceState V} {ns : List (Note V)} (notes : ∀ n ∈ ns, ¬ n.OfStream)
    (next : s'.nextSubscription = s.nextSubscription) (same : s'.subscriptions = s.subscriptions) :
    KeepsStreams s ns s' :=
  .of_get? notes next fun found => same ▸ found

theorem KeepsStreams.unchanged (s : ServiceState V) : KeepsStreams s [] s := .of_same (fun _ => nofun) rfl rfl

theorem KeepsStreams.set {s : ServiceState V} {ns : List (Note V)} {id : SubscriptionId}
    {state state' : SubscriptionState V} (notes : ∀ n ∈ ns, ¬ n.OfStream)
    (found : s.subscriptions.get? id = some state) (same : SameStream state state') :
    KeepsStreams s ns (s.setSubscription id state') := by
  refine ⟨notes, Nat.le_refl _, fun {other next} there => .inl ?_⟩
  rw [get?_setSubscription] at there
  split_ifs at there with here
  · cases there
    exact ⟨state, here ▸ found, same⟩
  · exact ⟨next, there, .refl next⟩

section
variable (settings : Settings V)

theorem appendUpdate_sameStream (now : Nat) (state : SubscriptionState V) (nodeId : String) (value : V) :
    SameStream state (appendUpdate settings now state nodeId value).1 := by
  simp only [appendUpdate]
  split
  · exact .refl state
  · unfold pushUpdate
    split
    · exact ⟨rfl, rfl, rfl⟩
    · exact ⟨rfl, rfl, rfl⟩

theorem appendMonitored_sameStream (now : Nat) (values : List (String × V)) (state : SubscriptionState V) :
    SameStream state (appendMonitored settings now values state).1 := by
  induction values generalizing state with
  | nil => exact .refl state
  | cons item values ih =>
      simp only [appendMonitored]
      split
      · exact (appendUpdate_sameStream settings now state item.1 item.2).trans (ih _)
      · exact ih state

theorem acknowledge_sameStream (state : SubscriptionState V) (ack : Option Int) :
    SameStream state (acknowledge state ack) := by
  unfold acknowledge
  split
  · exact .refl state
  · split_ifs
    · exact ⟨rfl, rfl, rfl⟩
    · exact ⟨rfl, rfl, rfl⟩
    · exact .refl state

theorem appendUpdate_notes (now : Nat) (state : SubscriptionState V) (nodeId : String) (value : V) :
    ∀ n ∈ (appendUpdate settings now state nodeId value).2, ¬ n.OfStream := by
  simp only [appendUpdate, pushNotes]
  split
  · exact fun _ inside => absurd inside List.not_mem_nil
  · split <;> simp [Note.OfStream]

theorem appendMonitored_notes (now : Nat) (values : List (String × V)) (state : SubscriptionState V) :
    ∀ n ∈ (appendMonitored settings now values state).2, ¬ n.OfStream := by
  induction values generalizing state with
  | nil => exact fun _ => nofun
  | cons item values ih =>
      simp only [appendMonitored]
      split
      · intro n inside
        rcases List.mem_append.mp inside with here | later
        · exact appendUpdate_notes settings now state item.1 item.2 n here
        · exact ih _ n later
      · exact ih state

variable (s : ServiceState V) (clientId : Option String) (id : SubscriptionId)

theorem handleDatachange_keepsStreams (nodeId : String) (value : V) (clientHandle : Option Int) :
    KeepsStreams s (handleDatachangeSection settings id nodeId value clientHandle s).2.2
      (handleDatachangeSection settings id nodeId value clientHandle s).2.1 := by
  unfold handleDatachangeSection
  cases found : s.subscriptions.get? id with
  | none => exact .unchanged s
  | some state =>
      dsimp only
      cases deliveryTarget settings state nodeId clientHandle with
      | none => exact .of_same (fun n inside => List.mem_singleton.mp inside ▸ not_false) rfl rfl
      | some target =>
          have same := appendUpdate_sameStream settings s.clock state target value
          refine .set (fun n inside => ?_) found ⟨same.1, same.2, same.3⟩
          rcases List.mem_cons.mp inside with rfl | later
          · exact not_false
          · exact appendUpdate_notes settings s.clock state target value n later

theorem refreshAppend_keepsStreams (values : List (String × V)) :
    KeepsStreams s (refreshAppendSection settings id values s).2.2
      (refreshAppendSection settings id values s).2.1 := by
  unfold refreshAppendSection
  cases found : s.subscriptions.get? id with
  | none => exact .unchanged s
  | some state =>
      have same := appendMonitored_sameStream settings s.clock values state
      exact .set (appendMonitored_notes settings s.clock values state) found ⟨same.1, same.2, same.3⟩

theorem syncStart_keepsStreams (ack : Option Int) (allow : Bool) :
    KeepsStreams s (syncStartSection clientId id ack allow s).2.2
      (syncStartSection clientId id ack allow s).2.1 := by
  unfold syncStartSection
  cases found : s.inScope clientId id with
  | none => exact .unchanged s
  | some state =>
      dsimp only
      split
      · exact .unchanged s
      · have same := acknowledge_sameStream state ack
        refine .set (fun n inside => ?_) (inScope_get? found) ⟨same.1, same.2, same.3⟩
        obtain ⟨value, _, rfl⟩ := Option.map_eq_some_iff.mp (Option.mem_toList.mp inside)
        exact not_false

theorem syncReport_keepsStreams :
    KeepsStreams s (syncReportSection clientId id s).2.2 (syncReportSection clientId id s).2.1 := by
  unfold syncReportSection
  cases found : s.inScope clientId id with
  | none => exact .unchanged s
  | some state =>
      refine .set (fun n inside => ?_) (inScope_get? found) ⟨rfl, rfl, rfl⟩
      rw [List.mem_singleton.mp inside]
      exact not_false

theorem waitStart_keepsStreams (afterSequence timeoutMs : Nat) :
    KeepsStreams s (waitStartSection settings clientId id afterSequence timeoutMs s).2.2
      (waitStartSection settings clientId id afterSequence timeoutMs s).2.1 := by
  unfold waitStartSection
  cases found : s.inScope clientId id with
  | none => exact .unchanged s
  | some state =>
      dsimp only
      split
      · exact .set (fun _ => nofun) (inScope_get? found) ⟨rfl, rfl, rfl⟩
      · exact .set (fun _ => nofun) (inScope_get? found) ⟨rfl, rfl, rfl⟩

theorem waitTimeout_keepsStreams (refresh : Bool) (threshold : Nat) :
    KeepsStreams s (waitTimeoutSection settings clientId id refresh threshold s).2.2
      (waitTimeoutSection settings clientId id refresh threshold s).2.1 := by
  unfold waitTimeoutSection
  cases found : s.inScope clientId id with
  | none => exact .unchanged s
  | some state =>
      dsimp only
      split
      · exact .set (fun _ => nofun) (inScope_get? found) ⟨rfl, rfl, rfl⟩
      · exact .unchanged s

theorem resetTimeout_keepsStreams :
    KeepsStreams s (resetTimeoutSection clientId id s).2.2 (resetTimeoutSection clientId id s).2.1 := by
  unfold resetTimeoutSection
  cases found : s.inScope clientId id with
  | none => exact .unchanged s
  | some state => exact .set (fun _ => nofun) (inScope_get? found) ⟨rfl, rfl, rfl⟩

theorem waitResult_keepsStreams (afterSequence : Nat) (timedOut : Bool) :
    KeepsStreams s (waitResultSection clientId id afterSequence timedOut s).2.2
      (waitResultSection clientId id afterSequence timedOut s).2.1 := by
  unfold waitResultSection
  cases found : s.inScope clientId id with
  | none => exact .unchanged s
  | some state => exact .set (fun _ => nofun) (inScope_get? found) ⟨rfl, rfl, rfl⟩

theorem updateMode_keepsStreams :
    KeepsStreams s (updateSubscriptionModeSection id s).2.2 (updateSubscriptionModeSection id s).2.1 := by
  unfold updateSubscriptionModeSection
  cases found : s.subscriptions.get? id with
  | none => exact .unchanged s
  | some state =>
      dsimp only
      split
      · exact .set (fun _ => nofun) found ⟨rfl, rfl, rfl⟩
      · split
        · exact .set (fun _ => nofun) found ⟨rfl, rfl, rfl⟩
        · exact .set (fun _ => nofun) found ⟨rfl, rfl, rfl⟩

theorem create_keepsStreams (displayName : Option String) (started : Nat) :
    KeepsStreams s (createSection clientId displayName started s).2.2
      (createSection clientId displayName started s).2.1 := by
  refine ⟨fun n inside => ?_, Nat.le_succ _, fun {other state'} found => ?_⟩
  · rw [List.mem_singleton.mp inside]
    exact not_false
  · change (s.setSubscription s.nextSubscription _).subscriptions.get? other = some state' at found
    rw [get?_setSubscription] at found
    split_ifs at found with here
    · cases found
      exact .inr ⟨here.ge, rfl, rfl⟩
    · exact .inl ⟨state', found, .refl state'⟩

end

theorem Note.Membership.not_ofStream {n : Note V} (member : n.Membership) : ¬ n.OfStream := by
  cases n <;> first | exact not_false | exact member.elim

theorem Removal.keepsStreams {settings : Settings V} {s s' : ServiceState V}
    {removed : List (SubscriptionState V)} (h : Removal s removed s') :
    KeepsStreams s (removed.flatMap (removalNotes settings)) s' := by
  refine .of_get? (fun n inside => (removalNotes_membership n inside).not_ofStream) ?_ h.of_mem
  rw [h.rest]

/-- Only the stretches of streams touch a stream. -/
theorem Stretch.keepsStreams {settings : Settings V}
    {allowed : (Dict String Int → Dict String Int) → BuildResult → Prop} {k : Concern} {m : ServiceMemory V}
    {s s' : ServiceState V} {ns : List (Note V)} (stretch : Stretch settings allowed k m s ns s')
    (keys : WellKeyed s) (other : k ≠ .streams) : KeepsStreams s ns s' := by
  have marked (n : Note V) (s : ServiceState V) (quiet : ¬ n.OfStream) : KeepsStreams s [n] s :=
    .of_same (fun m inside => List.mem_singleton.mp inside ▸ quiet) rfl rfl
  have upstream {s s' : ServiceState V} (same : SameRegistry s s') : KeepsStreams s [] s' :=
    .of_same (fun _ => nofun) same.nextSubscription same.subscriptions
  cases stretch with
  | look => exact .unchanged s
  | deliver id nodeId value heard => exact handleDatachange_keepsStreams settings s id nodeId value none
  | refresh id values heard => exact refreshAppend_keepsStreams settings s id values
  | notify nodeId value =>
      exact .of_same (fun n inside => List.mem_singleton.mp inside ▸ not_false) rfl rfl
  | dequeue =>
      unfold dequeueSection
      split
      · exact .unchanged s
      · exact .of_same (fun n inside => List.mem_singleton.mp inside ▸ not_false) rfl rfl
  | serve nodeId value =>
      exact .of_same (fun n inside => List.mem_singleton.mp inside ▸ not_false) rfl rfl
  | tick elapsed => exact .of_same (fun _ => nofun) rfl rfl
  | syncStart clientId id ack allow => exact syncStart_keepsStreams s clientId id ack allow
  | syncReport clientId id => exact syncReport_keepsStreams s clientId id
  | waitStart clientId id afterSequence timeoutMs =>
      exact waitStart_keepsStreams settings s clientId id afterSequence timeoutMs
  | waitTimeout clientId id refresh threshold =>
      exact waitTimeout_keepsStreams settings s clientId id refresh threshold
  | resetTimeout clientId id => exact resetTimeout_keepsStreams s clientId id
  | waitResult clientId id afterSequence timedOut =>
      exact waitResult_keepsStreams s clientId id afterSequence timedOut
  | updateMode id => exact updateMode_keepsStreams s id
  | activate | deactivate | missDeactivation => exact absurd rfl other
  | create clientId displayName started => exact create_keepsStreams s clientId displayName started
  | change clientId id change model fuel may =>
      rcases membershipSection_cases settings clientId id change model fuel s with
        ⟨result, same, _⟩ | ⟨state, resolution, found, _, same⟩
      · rw [same]
        exact .unchanged s
      · rw [same]
        exact .set (fun n inside => (planned_membership n inside).not_ofStream) (inScope_get? found) ⟨rfl, rfl, rfl⟩
  | delete clientId ids =>
      rw [deleteSection_notes]
      exact (deleteSection_removal keys clientId ids).keepsStreams
  | expire started => exact (expireSection_removal keys started).keepsStreams
  | acquire nodeId id =>
      have same := acquireSection_outside nodeId id s
      rw [acquireSection_notes]
      exact .of_same (fun n inside => List.mem_singleton.mp inside ▸ not_false) same.2 same.1
  | release nodeId id =>
      have same := releaseSection_outside nodeId id s
      rw [releaseSection_notes]
      exact .of_same (fun n inside => List.mem_singleton.mp inside ▸ not_false) same.2 same.1
  | startPolling ref nodeId =>
      unfold startPollingSection
      split
      · exact upstream (.setMonitor rfl)
      · exact .unchanged s
  | clearMonitor ref => exact upstream (.setMonitor rfl)
  | freshBin => exact upstream ⟨rfl, rfl, rfl, rfl, fun _ => rfl, rfl, rfl⟩
  | commitNewBin ref nodeId binId uaSubscription capacity handle =>
      unfold commitNewBinSection
      split
      · exact upstream (joinBin_sameRegistry s ref _ nodeId handle)
      · exact .unchanged s
  | commitAdd ref nodeId binId handle =>
      unfold commitAddSection
      split
      · split
        · exact upstream (joinBin_sameRegistry s ref _ nodeId handle)
        · exact .unchanged s
      · exact .unchanged s
  | leaveBin nodeId binId =>
      unfold leaveBinSection
      split
      · exact .unchanged s
      · dsimp only
        split
        · exact upstream ⟨rfl, rfl, rfl, rfl, fun _ => rfl, rfl, rfl⟩
        · exact upstream ⟨rfl, rfl, rfl, rfl, fun _ => rfl, rfl, rfl⟩
  | reconnect survivors => exact upstream (resyncBins_sameRegistry s survivors _)
  | backOff => exact upstream ⟨rfl, rfl, rfl, rfl, fun _ => rfl, rfl, rfl⟩
  | admissionStarted ref => exact marked _ s not_false
  | admissionEnded ref => exact marked _ s not_false

end I3x.Subscriptions

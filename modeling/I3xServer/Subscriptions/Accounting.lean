import I3xServer.Subscriptions.Registry

/-!
# Accounting for every sequence number

A subscription numbers its updates without gaps and keeps the last ones. What it
no longer keeps was acknowledged, or lies in an interval of dropped updates that
was reported or is still to be reported.
-/
namespace I3x.Subscriptions
open Container Coroutine
variable {V : Type} {settings : Settings V} {A : String → V → Prop}

/-- An acknowledgement of `value` at `sequenceNumber` covers the number `q`. -/
def Covers (value : Int) (sequenceNumber q : Nat) : Prop :=
  value = -1 ∧ q ≤ sequenceNumber ∨ 0 ≤ value ∧ value ≤ sequenceNumber ∧ (q : Int) ≤ value

def AcknowledgedIn (h : ServiceHistory V) (id : SubscriptionId) (q : Nat) : Prop :=
  ∃ t value sequenceNumber, Event.noted t (.acknowledged id value sequenceNumber) ∈ h ∧
    Covers value sequenceNumber q

def InRange (first last : Option Nat) (q : Nat) : Prop :=
  ∃ a b, first = some a ∧ last = some b ∧ a ≤ q ∧ q ≤ b

def ReportedIn (h : ServiceHistory V) (id : SubscriptionId) (q : Nat) : Prop :=
  ∃ t result sequenceNumber, Event.noted t (.reported id result sequenceNumber) ∈ h ∧
    InRange result.droppedFromSequence result.droppedToSequence q

/-- The number is in the result, acknowledged, or reported as dropped. -/
def Accounted (h : ServiceHistory V) (id : SubscriptionId) (result : SubscriptionSyncResult V) (q : Nat) :
    Prop :=
  (∃ update ∈ result.updates, update.sequenceNumber = q) ∨ AcknowledgedIn h id q ∨ ReportedIn h id q

def firstPending (state : SubscriptionState V) : Nat := state.sequenceNumber + 1 - state.updates.length

/-- The queue is the run of numbers that ends at the sequence number, within the
configured length. -/
structure Contiguous (settings : Settings V) (state : SubscriptionState V) : Prop where
  bounded : state.updates.length ≤ settings.maxUpdatesPerSubscription
  issued : state.updates.length ≤ state.sequenceNumber
  numbers : state.updates.map (·.sequenceNumber) =
    List.range' (firstPending state) state.updates.length

/-- What is known of a subscription after the history `h`. -/
structure Ledger (settings : Settings V) (h : ServiceHistory V) (state : SubscriptionState V) : Prop where
  contiguous : Contiguous settings state
  dropped : state.droppedFromSequence = none ∧ state.droppedToSequence = none ∨
    ∃ a b, state.droppedFromSequence = some a ∧ state.droppedToSequence = some b ∧ a ≤ b ∧
      b < firstPending state
  settled : ∀ q, 1 ≤ q → q < firstPending state →
    AcknowledgedIn h state.subscriptionId q ∨ ReportedIn h state.subscriptionId q ∨
      InRange state.droppedFromSequence state.droppedToSequence q

theorem AcknowledgedIn.mono {h h' : ServiceHistory V} {id : SubscriptionId} {q : Nat}
    (sub : ∀ event ∈ h, event ∈ h') (ack : AcknowledgedIn h id q) : AcknowledgedIn h' id q := by
  obtain ⟨t, value, n, inside, covers⟩ := ack
  exact ⟨t, value, n, sub _ inside, covers⟩

theorem ReportedIn.mono {h h' : ServiceHistory V} {id : SubscriptionId} {q : Nat}
    (sub : ∀ event ∈ h, event ∈ h') (reported : ReportedIn h id q) : ReportedIn h' id q := by
  obtain ⟨t, result, n, inside, range⟩ := reported
  exact ⟨t, result, n, sub _ inside, range⟩

theorem Ledger.mono {h h' : ServiceHistory V} {state : SubscriptionState V}
    (sub : ∀ event ∈ h, event ∈ h') (ledger : Ledger settings h state) : Ledger settings h' state where
  contiguous := ledger.contiguous
  dropped := ledger.dropped
  settled q pos low := by
    rcases ledger.settled q pos low with ack | reported | waiting
    · exact .inl (ack.mono sub)
    · exact .inr (.inl (reported.mono sub))
    · exact .inr (.inr waiting)

theorem Ledger.fresh (h : ServiceHistory V) (id : SubscriptionId) (clientId displayName : Option String)
    (now : Nat) : Ledger settings h (newSubscription id clientId displayName now) where
  contiguous := ⟨Nat.zero_le _, Nat.le_refl 0, rfl⟩
  dropped := .inl ⟨rfl, rfl⟩
  settled _ pos low := absurd low (Nat.not_lt.mpr pos)

theorem Ledger.of_same {h : ServiceHistory V} {state next : SubscriptionState V}
    (same : SameQueue state next) (ledger : Ledger settings h state) : Ledger settings h next := by
  rw [same]
  exact ⟨⟨ledger.1.1, ledger.1.2, ledger.1.3⟩, ledger.2, ledger.3⟩

/-! ## Appending -/

theorem overflowing_none {state : SubscriptionState V} (room : overflowing settings state = none) :
    state.updates.length < settings.maxUpdatesPerSubscription := by
  unfold overflowing at room
  split_ifs at room with full
  · have empty := List.head?_eq_none_iff.mp room
    have := settings.maxUpdates_pos
    simpa only [empty, List.length_nil] using this
  · exact Nat.lt_of_not_le full

theorem overflowing_some {state : SubscriptionState V} {oldest : SubscriptionUpdate V}
    (full : overflowing settings state = some oldest) : ∃ rest, state.updates = oldest :: rest := by
  unfold overflowing at full
  split_ifs at full
  exact List.head?_eq_some_iff.mp full

theorem Ledger.push_room {h h' : ServiceHistory V} {state : SubscriptionState V}
    {update : SubscriptionUpdate V} (ledger : Ledger settings h state) (sub : ∀ event ∈ h, event ∈ h')
    (room : overflowing settings state = none)
    (next : update.sequenceNumber = state.sequenceNumber + 1) :
    Ledger settings h' (pushUpdate settings state update) := by
  have short := overflowing_none room
  obtain ⟨⟨bounded, issued, numbers⟩, dropped, settled⟩ := ledger.mono sub
  have pushed : pushUpdate settings state update =
      { state with
        lastValuesByNodeId := state.lastValuesByNodeId.set update.nodeId update.value
        sequenceNumber := state.sequenceNumber + 1
        updateEvent := true
        updates := state.updates ++ [update] } := by
    simp only [pushUpdate, room, next]
  have first : firstPending (pushUpdate settings state update) = firstPending state := by
    rw [pushed]
    simp only [firstPending, List.length_append, List.length_singleton]
    omega
  refine ⟨⟨?_, ?_, ?_⟩, ?_, ?_⟩
  · rw [pushed]
    simp only [List.length_append, List.length_singleton]
    exact short
  · rw [pushed]
    simpa only [List.length_append, List.length_singleton, Nat.add_le_add_iff_right] using issued
  · rw [first, pushed]
    simp only [List.map_append, List.map_singleton, List.length_append, List.length_singleton, numbers,
      List.range'_concat, next, firstPending]
    congr 2
    omega
  · rw [first, pushed]
    exact dropped
  · rw [first, pushed]
    exact settled

theorem Ledger.push_full {h h' : ServiceHistory V} {state : SubscriptionState V}
    {update oldest : SubscriptionUpdate V} (ledger : Ledger settings h state)
    (sub : ∀ event ∈ h, event ∈ h') (full : overflowing settings state = some oldest)
    (next : update.sequenceNumber = state.sequenceNumber + 1) :
    Ledger settings h' (pushUpdate settings state update) := by
  obtain ⟨rest, queue⟩ := overflowing_some full
  obtain ⟨⟨bounded, issued, numbers⟩, dropped, settled⟩ := ledger.mono sub
  have length : state.updates.length = rest.length + 1 := by rw [queue, List.length_cons]
  rw [queue, List.map_cons, List.length_cons, List.range'_succ, List.cons.injEq] at numbers
  obtain ⟨number, numbers⟩ := numbers
  have pushed : pushUpdate settings state update =
      { state with
        lastValuesByNodeId := state.lastValuesByNodeId.set update.nodeId update.value
        sequenceNumber := state.sequenceNumber + 1
        updateEvent := true
        updates := rest ++ [update]
        droppedFromSequence := state.droppedFromSequence.or (some (firstPending state))
        droppedToSequence := some (firstPending state) } := by
    simp only [pushUpdate, full, next, queue, List.tail_cons, number]
  have first : firstPending (pushUpdate settings state update) = firstPending state + 1 := by
    rw [pushed]
    simp only [firstPending, List.length_append, List.length_singleton]
    omega
  refine ⟨⟨?_, ?_, ?_⟩, ?_, ?_⟩
  · rw [pushed]
    simpa only [List.length_append, List.length_singleton, length] using bounded
  · rw [pushed]
    simp only [List.length_append, List.length_singleton]
    omega
  · rw [first, pushed]
    simp only [List.map_append, List.map_singleton, List.length_append, List.length_singleton, numbers,
      List.range'_concat, next, firstPending]
    congr 2
    omega
  · rw [first, pushed]
    right
    rcases dropped with ⟨none_, _⟩ | ⟨a, b, from_, _, le, low⟩
    · exact ⟨_, _, by rw [none_]; rfl, rfl, Nat.le_refl _, Nat.lt_succ_self _⟩
    · exact ⟨a, _, by rw [from_]; rfl, rfl, by omega, Nat.lt_succ_self _⟩
  · rw [first, pushed]
    intro q pos low
    rcases Nat.lt_succ_iff_lt_or_eq.mp low with before | rfl
    · rcases settled q pos before with ack | reported | ⟨a, b, from_, _, low, high⟩
      · exact .inl ack
      · exact .inr (.inl reported)
      · exact .inr (.inr ⟨a, _, by rw [from_]; rfl, rfl, low, by omega⟩)
    · refine .inr (.inr ?_)
      rcases dropped with ⟨none_, _⟩ | ⟨a, b, from_, _, le, low⟩
      · exact ⟨_, _, by rw [none_]; rfl, rfl, Nat.le_refl _, Nat.le_refl _⟩
      · exact ⟨a, _, by rw [from_]; rfl, rfl, by omega, Nat.le_refl _⟩

theorem Ledger.append {h : ServiceHistory V} {state : SubscriptionState V} (ledger : Ledger settings h state)
    (t : ServiceTag V) (now : Nat) (nodeId : String) (value : V) :
    Ledger settings (noted t (appendUpdate settings now state nodeId value).2 ++ h)
      (appendUpdate settings now state nodeId value).1 := by
  have grows {ns : List (Note V)} : ∀ event ∈ h, event ∈ noted t ns ++ h :=
    fun event inside => List.mem_append_right _ inside
  simp only [appendUpdate]
  split
  · exact ledger
  · cases full : overflowing settings state with
    | none => exact ledger.push_room grows full rfl
    | some oldest => exact ledger.push_full grows full rfl

/-! ## Acknowledging and reporting -/

theorem filter_range' (v first n : Nat) :
    (List.range' first n).filter (fun q => decide (v < q)) =
      List.range' (max first (v + 1)) (first + n - max first (v + 1)) := by
  induction n generalizing first with
  | zero =>
      have none_left : first + 0 - max first (v + 1) = 0 := by omega
      rw [none_left]
      rfl
  | succ n ih =>
      rw [List.range'_succ, List.filter_cons, ih]
      by_cases above : v < first
      · have stay : max first (v + 1) = first := by omega
        have step : max (first + 1) (v + 1) = first + 1 := by omega
        have count : first + (n + 1) - first = (first + 1 + n - (first + 1)) + 1 := by omega
        rw [if_pos (decide_eq_true above), stay, step, count, List.range'_succ]
      · have stay : max first (v + 1) = max (first + 1) (v + 1) := by omega
        have count : first + (n + 1) = first + 1 + n := by omega
        rw [if_neg (by simpa only [decide_eq_true_eq] using above), stay, count]

/-- The updates above `v` are the end of the run. -/
theorem Contiguous.filter_numbers {state : SubscriptionState V} (contiguous : Contiguous settings state) (v : Nat) :
    (state.updates.filter fun item => decide (v < item.sequenceNumber)).map (·.sequenceNumber) =
      List.range' (max (firstPending state) (v + 1))
        (state.sequenceNumber + 1 - max (firstPending state) (v + 1)) := by
  have moved : (state.updates.filter fun item => decide (v < item.sequenceNumber)).map
      (·.sequenceNumber) = (state.updates.map (·.sequenceNumber)).filter fun q => decide (v < q) := by
    rw [List.filter_map]
    rfl
  have total : firstPending state + state.updates.length = state.sequenceNumber + 1 := by
    have := contiguous.issued
    unfold firstPending
    omega
  rw [moved, contiguous.numbers, filter_range', total]

theorem Contiguous.firstPending_filter {state : SubscriptionState V} (contiguous : Contiguous settings state)
    {v : Nat} (le : v ≤ state.sequenceNumber) :
    firstPending { state with updates := state.updates.filter fun item => decide (v < item.sequenceNumber) } =
      max (firstPending state) (v + 1) := by
  have kept := congrArg List.length (contiguous.filter_numbers v)
  rw [List.length_map, List.length_range'] at kept
  unfold firstPending at kept ⊢
  simp only
  omega

/-- Updates up to `v` leave the queue, each of them covered by an acknowledgement. -/
theorem Ledger.drop {h h' : ServiceHistory V} {state next : SubscriptionState V}
    (ledger : Ledger settings h state) (sub : ∀ event ∈ h, event ∈ h') (v : Nat)
    (le : v ≤ state.sequenceNumber)
    (covered : ∀ q, q ≤ v → AcknowledgedIn h' state.subscriptionId q)
    (result : next =
      { state with updates := state.updates.filter fun item => decide (v < item.sequenceNumber) }) :
    Ledger settings h' next := by
  have first : firstPending next = max (firstPending state) (v + 1) := by
    rw [result]
    exact ledger.contiguous.firstPending_filter le
  have kept : (next.updates.map (·.sequenceNumber)) =
      List.range' (max (firstPending state) (v + 1))
        (state.sequenceNumber + 1 - max (firstPending state) (v + 1)) := by
    rw [result]
    exact ledger.contiguous.filter_numbers v
  obtain ⟨⟨bounded, issued, numbers⟩, dropped, settled⟩ := ledger.mono sub
  have length : next.updates.length = state.sequenceNumber + 1 - max (firstPending state) (v + 1) := by
    rw [← List.length_map (f := fun item : SubscriptionUpdate V => item.sequenceNumber), kept,
      List.length_range']
  have number : next.sequenceNumber = state.sequenceNumber := by rw [result]
  have shorter : next.updates.length ≤ state.updates.length := by
    rw [length]
    unfold firstPending
    omega
  refine ⟨⟨shorter.trans bounded, by rw [number]; exact shorter.trans issued, ?_⟩, ?_, ?_⟩
  · rw [kept, first, length]
  · rcases dropped with absent | ⟨a, b, from_, to_, le, below⟩
    · rw [result]
      exact .inl absent
    · refine .inr ⟨a, b, by rw [result]; exact from_, by rw [result]; exact to_, le, ?_⟩
      rw [first]
      omega
  · intro q pos less
    have owner : next.subscriptionId = state.subscriptionId := by rw [result]
    rw [owner]
    by_cases inside : q ≤ v
    · exact .inl (covered q inside)
    · rw [first] at less
      have before : q < firstPending state := by omega
      rcases settled q pos before with ack | reported | waiting
      · exact .inl ack
      · exact .inr (.inl reported)
      · refine .inr (.inr ?_)
        rw [result]
        exact waiting

theorem Contiguous.mem_le {state : SubscriptionState V} (contiguous : Contiguous settings state)
    {update : SubscriptionUpdate V} (m : update ∈ state.updates) :
    update.sequenceNumber ≤ state.sequenceNumber := by
  have inside := List.mem_map_of_mem (f := fun item : SubscriptionUpdate V => item.sequenceNumber) m
  rw [contiguous.numbers, List.mem_range'_1] at inside
  have := contiguous.issued
  unfold firstPending at inside
  omega

theorem Contiguous.exists_mem {state : SubscriptionState V} (contiguous : Contiguous settings state)
    {q : Nat} (low : firstPending state ≤ q) (high : q ≤ state.sequenceNumber) :
    ∃ update ∈ state.updates, update.sequenceNumber = q := by
  have inside : q ∈ state.updates.map (·.sequenceNumber) := by
    rw [contiguous.numbers, List.mem_range'_1]
    unfold firstPending at low ⊢
    omega
  exact List.mem_map.mp inside

theorem Ledger.acknowledge {h : ServiceHistory V} {state : SubscriptionState V}
    (ledger : Ledger settings h state) (t : ServiceTag V) (value : Option Int) :
    Ledger settings
      (noted t (value.map fun v => Note.acknowledged state.subscriptionId v state.sequenceNumber).toList ++ h)
      (Subscriptions.acknowledge state value) := by
  cases value with
  | none => exact ledger
  | some v =>
      have grows : ∀ event ∈ h, event ∈ noted t [.acknowledged state.subscriptionId v state.sequenceNumber] ++ h :=
        fun event inside => List.mem_append_right _ inside
      have note : Event.noted t (.acknowledged state.subscriptionId v state.sequenceNumber) ∈
          noted t [.acknowledged state.subscriptionId v state.sequenceNumber] ++ h :=
        List.mem_append_left _ (mem_noted.mpr ⟨_, List.mem_singleton_self _, rfl⟩)
      simp only [Subscriptions.acknowledge, Option.map_some, Option.toList_some]
      split_ifs with clear within
      · refine ledger.drop grows state.sequenceNumber (Nat.le_refl _)
          (fun q le => ⟨t, v, _, note, .inl ⟨clear, le⟩⟩) ?_
        have none_left : (state.updates.filter fun item => decide (state.sequenceNumber < item.sequenceNumber)) =
            [] := by
          refine List.filter_eq_nil_iff.mpr fun item m => ?_
          simpa only [decide_eq_true_eq, not_lt] using ledger.contiguous.mem_le m
        rw [none_left]
      · obtain ⟨n, rfl⟩ := Int.eq_ofNat_of_zero_le within.1
        have le : n ≤ state.sequenceNumber := Int.ofNat_le.mp within.2
        refine ledger.drop grows n le (fun q below => ⟨t, _, _, note, .inr ⟨within.1, within.2, ?_⟩⟩) ?_
        · exact Int.ofNat_le.mpr below
        · simp only [Int.ofNat_lt]
      · exact ledger.mono grows

/-- A reported result leaves no number unaccounted for. -/
def Complete : ServiceEvent V → ServiceHistory V → Prop
  | .noted t (.reported id result sequenceNumber), earlier =>
      ∀ q, 1 ≤ q → q ≤ sequenceNumber →
        Accounted (.noted t (.reported id result sequenceNumber) :: earlier) id result q
  | _, _ => True

theorem Ledger.complete {h : ServiceHistory V} {state : SubscriptionState V} (ledger : Ledger settings h state)
    (t : ServiceTag V) :
    Complete (.noted t (.reported state.subscriptionId (syncResult state) state.sequenceNumber)) h := by
  intro q pos high
  by_cases pending : firstPending state ≤ q
  · exact .inl (ledger.contiguous.exists_mem pending high)
  · have grows : ∀ event ∈ h, event ∈
        (.noted t (.reported state.subscriptionId (syncResult state) state.sequenceNumber) :: h : ServiceHistory V) :=
      fun event inside => List.mem_cons_of_mem _ inside
    rcases ledger.settled q pos (Nat.lt_of_not_le pending) with ack | reported | waiting
    · exact .inr (.inl (ack.mono grows))
    · exact .inr (.inr (reported.mono grows))
    · exact .inr (.inr ⟨t, _, _, List.mem_cons_self, waiting⟩)

theorem Ledger.report {h : ServiceHistory V} {state : SubscriptionState V} (ledger : Ledger settings h state)
    (t : ServiceTag V) :
    Ledger settings (.noted t (.reported state.subscriptionId (syncResult state) state.sequenceNumber) :: h)
      { state with droppedFromSequence := none, droppedToSequence := none } where
  contiguous := ⟨ledger.contiguous.bounded, ledger.contiguous.issued, ledger.contiguous.numbers⟩
  dropped := .inl ⟨rfl, rfl⟩
  settled q pos low := by
    rcases ledger.settled q pos low with ack | reported | waiting
    · exact .inl (ack.mono fun _ => List.mem_cons_of_mem _)
    · exact .inr (.inl (reported.mono fun _ => List.mem_cons_of_mem _))
    · exact .inr (.inl ⟨t, _, _, List.mem_cons_self, waiting⟩)

/-! ## Whole runs -/

theorem QueueRun.ledger {state last : SubscriptionState V} {ns : List (Note V)}
    (run : QueueRun settings A state ns last) {h : ServiceHistory V} (t : ServiceTag V)
    (ledger : Ledger settings h state) (reports : Throughout Complete h) :
    Ledger settings (noted t ns ++ h) last ∧ Throughout Complete (noted t ns ++ h) := by
  induction run generalizing h with
  | refl state => exact ⟨ledger, reports⟩
  | quiet same _ ih => exact ih (ledger.of_same same) reports
  | mark n silent _ ih =>
      rw [noted_cons]
      refine ih (ledger.mono fun _ => List.mem_cons_of_mem _) (throughout_cons.mpr ⟨?_, reports⟩)
      cases n <;> trivial
  | @append state last ns now nodeId value allowed _ ih =>
      rw [noted_append]
      refine ih (ledger.append t now nodeId value) (reports.noted fun n inside before => ?_)
      simp only [appendUpdate] at inside
      split at inside
      · cases inside
      · unfold pushNotes at inside
        split at inside <;> simp only [List.mem_cons, List.not_mem_nil, or_false] at inside
        · rw [inside]
          trivial
        · rcases inside with rfl | rfl <;> trivial
  | acknowledge value _ ih =>
      rw [noted_append]
      refine ih (ledger.acknowledge t value) (reports.noted fun n inside before => ?_)
      obtain ⟨v, _, rfl⟩ := Option.map_eq_some_iff.mp (Option.mem_toList.mp inside)
      trivial
  | report _ ih =>
      rw [noted_cons]
      exact ih (ledger.report t) (throughout_cons.mpr ⟨ledger.complete t, reports⟩)

theorem Inherits.ledger {allowed : (Dict String Int → Dict String Int) → BuildResult → Prop}
    {state state' : SubscriptionState V} (inherits : Inherits settings allowed state state')
    {h : ServiceHistory V} (ledger : Ledger settings h state) : Ledger settings h state' := by
  cases inherits with
  | same => exact ledger
  | remonitored => exact ⟨⟨ledger.1.1, ledger.1.2, ledger.1.3⟩, ledger.2, ledger.3⟩

/-- The result that a sync has just returned accounts for every number of its
subscription, unless it only says that a stream is active. -/
def SyncAccounts (s : ServiceState V) (h : ServiceHistory V) : Prop :=
  ∀ tag clientId id ack allow result earlier state,
    h = .returned ⟨tag, .sync clientId id ack allow⟩ (.synced (some result)) :: earlier →
    result.streamActive = false → s.subscriptions.get? id = some state →
    ∀ q, 1 ≤ q → q ≤ state.sequenceNumber → Accounted h id result q

structure Books (settings : Settings V) (s : ServiceState V) (h : ServiceHistory V) : Prop where
  keys : WellKeyed s
  ledger : ∀ {id state}, s.subscriptions.get? id = some state → Ledger settings h state
  reports : Throughout Complete h
  sync : SyncAccounts s h

theorem SyncAccounts.cons {s : ServiceState V} {h : ServiceHistory V} {event : ServiceEvent V}
    (other : ∀ t o, event ≠ .returned t (.synced o)) : SyncAccounts s (event :: h) := by
  intro tag clientId id ack allow result earlier state same
  cases same
  exact absurd rfl (other _ _)

theorem SyncAccounts.returned {s : ServiceState V} {h : ServiceHistory V} {t : ServiceTag V} {o : Outcome V}
    (other : ∀ clientId id ack allow, t.call ≠ .sync clientId id ack allow) :
    SyncAccounts s (.returned t o :: h) := by
  intro tag clientId id ack allow result earlier state same
  cases same
  exact absurd rfl (other _ _ _ _)

theorem Books.cons {s : ServiceState V} {h : ServiceHistory V} {event : ServiceEvent V}
    (books : Books settings s h) (complete : Complete event h) (sync : SyncAccounts s (event :: h)) :
    Books settings s (event :: h) :=
  ⟨books.keys, fun found => (books.ledger found).mono fun _ => List.mem_cons_of_mem _,
    throughout_cons.mpr ⟨complete, books.reports⟩, sync⟩

/-- Without a note no number is issued, so a result that accounted for all still does. -/
theorem SyncAccounts.step {allowed : (Dict String Int → Dict String Int) → BuildResult → Prop}
    {s s' : ServiceState V} {h : ServiceHistory V} {ns : List (Note V)} (t : ServiceTag V)
    (keys : WellKeyed s) (step : ServiceStep settings A allowed s ns s') (sync : SyncAccounts s h) :
    SyncAccounts s' (noted t ns ++ h) := by
  intro tag clientId id ack allow result earlier state' same answered found q pos high
  have silent : ns = [] := by
    rcases List.eq_nil_or_concat ns with empty | ⟨before, n, rfl⟩
    · exact empty
    · rw [List.concat_eq_append, noted_append] at same
      cases same
  subst silent
  rcases step.queue_or_descends keys with ⟨other, state, next, there, run, rfl⟩ | ⟨_, descends⟩
  · rw [get?_setSubscription] at found
    split_ifs at found with here
    · cases found
      rw [run.of_silent fun _ => nofun] at high
      exact sync tag clientId id ack allow result earlier state same answered (here ▸ there) q pos high
    · exact sync tag clientId id ack allow result earlier state' same answered found q pos high
  · rcases descends id state' found with ⟨state, there, inherits⟩ | ⟨_, created, _⟩
    · cases inherits with
      | same => exact sync tag clientId id ack allow result earlier _ same answered there q pos high
      | remonitored =>
          exact sync tag clientId id ack allow result earlier state same answered there q pos high
    · cases created

section
variable {around : Surroundings V}

theorem books_kept : Kept (fun _ => CallStep settings anyChange) (Books settings) where
  act t m s h ns s' books _ step := by
    have sync := SyncAccounts.step t books.keys step books.sync
    have keys := step.wellKeyed books.keys
    rcases step.queue_or_descends books.keys with ⟨id, state, next, found, run, rfl⟩ | ⟨silent, descends⟩
    · obtain ⟨ledger, reports⟩ := run.ledger t (books.ledger found) books.reports
      refine ⟨keys, fun {other state'} there => ?_, reports, sync⟩
      rw [get?_setSubscription] at there
      split_ifs at there with here
      · cases there
        exact ledger
      · exact (books.ledger there).mono fun _ => List.mem_append_right _
    · have reports : Throughout Complete (noted t ns ++ h) := by
        refine books.reports.noted fun n inside before => ?_
        have quiet := silent n inside
        cases n <;> trivial
      refine ⟨keys, fun {other state'} there => ?_, reports, sync⟩
      rcases descends other state' there with ⟨state, before, inherits⟩ | ⟨_, _, clientId, name, now, rfl⟩
      · exact (inherits.ledger (books.ledger before)).mono fun _ => List.mem_append_right _
      · exact .fresh _ other clientId name now
  spawned s h t books := books.cons trivial (.cons fun _ _ => nofun)
  requested s h t q books := books.cons trivial (.cons fun _ _ => nofun)
  replied s h t q r books := books.cons trivial (.cons fun _ _ => nofun)

/-- The history ends with the report of what a sync is about to return. -/
def JustReported (t : ServiceTag V) (id : SubscriptionId) (result : SubscriptionSyncResult V)
    (s : ServiceState V) (h : ServiceHistory V) : Prop :=
  ∃ state rest, s.subscriptions.get? id = some state ∧ state.subscriptionId = id ∧
    h = .noted t (.reported id result state.sequenceNumber) :: rest

theorem JustReported.syncAccounts {t : ServiceTag V} {id : SubscriptionId}
    {result : SubscriptionSyncResult V} {s : ServiceState V} {h : ServiceHistory V}
    (reported : JustReported t id result s h) (books : Books settings s h) (tag : Nat)
    (clientId : Option String) (ack : Option Int) (allow : Bool) :
    SyncAccounts s (.returned ⟨tag, .sync clientId id ack allow⟩ (.synced (some result)) :: h) := by
  intro _ _ _ _ _ _ earlier state same _ found q pos high
  cases same
  obtain ⟨state, rest, there, _, rfl⟩ := reported
  cases there.symm.trans found
  have complete := (throughout_cons.mp books.reports).1 q pos high
  rcases complete with inside | ack | dropped
  · exact .inl inside
  · exact .inr (.inl (ack.mono fun _ => List.mem_cons_of_mem _))
  · exact .inr (.inr (dropped.mono fun _ => List.mem_cons_of_mem _))

/-- The section that ends a sync reports what it returns. -/
theorem syncReportSection_reports {s : ServiceState V} (keys : WellKeyed s) {h : ServiceHistory V}
    (t : ServiceTag V) (clientId : Option String) (id : SubscriptionId) {result : SubscriptionSyncResult V}
    (returns : (syncReportSection clientId id s).1 = some result) :
    JustReported t id result (syncReportSection clientId id s).2.1
      (noted t (syncReportSection clientId id s).2.2 ++ h) := by
  unfold syncReportSection at returns ⊢
  cases found : s.inScope clientId id with
  | none =>
      rw [found] at returns
      cases returns
  | some state =>
      rw [found] at returns
      cases returns
      have named : state.subscriptionId = id := keys.keyed (inScope_get? found)
      refine ⟨_, h, s.subscriptions.get?_set_self id _, named, ?_⟩
      rw [← named]
      rfl

/-- A sync ends without a result, with a refusal, or with the report of its last section. -/
theorem sync_ends {T : ServiceTag V → ServiceMemory V → ServiceState V → List (Note V) → ServiceState V → Prop}
    {J : ServiceState V → ServiceHistory V → Prop} (kept : Kept T J) {t : ServiceTag V}
    (clientId : Option String) (id : SubscriptionId) (ack : Option Int) (allow : Bool)
    (start : ∀ m s, T t m s (syncStartSection clientId id ack allow s).2.2
      (syncStartSection clientId id ack allow s).2.1)
    (refresh : (refreshChangedValues settings id).Within (T t)) {v : ServiceView V} (holds : Standing J v) :
    wp (service settings around).mayReply (StandingInv J) t
      (fun result v' => Standing J v' ∧ (∀ found, result = some found → found.streamActive = true) ∨
        ∃ u : ServiceView V, Standing J u ∧ result = (syncReportSection clientId id u.state).1 ∧
          v'.state = (syncReportSection clientId id u.state).2.1 ∧
          v'.history = noted t (syncReportSection clientId id u.state).2.2 ++ u.history ∧ v'.bag = u.bag)
      (sync settings clientId id ack allow) v := by
  have report (u : ServiceView V) (holds : Standing J u) :
      wp (service settings around).mayReply (StandingInv J) t
        (fun result v' => Standing J v' ∧ (∀ found, result = some found → found.streamActive = true) ∨
          ∃ u : ServiceView V, Standing J u ∧ result = (syncReportSection clientId id u.state).1 ∧
            v'.state = (syncReportSection clientId id u.state).2.1 ∧
            v'.history = noted t (syncReportSection clientId id u.state).2.2 ++ u.history ∧ v'.bag = u.bag)
        (Program.locked .main (syncReportSection clientId id)) u :=
    wp_locked_history Lock.main _ holds fun u' w inv state history bag => .inr ⟨u', inv, rfl, state, history, bag⟩
  refine wp_seq (kept.wp (T := T) (.locked start) holds) fun started u holds => ?_
  match started with
  | .missing => exact .inl ⟨holds, nofun⟩
  | .refused => exact .inl ⟨holds, fun found same => by cases same; rfl⟩
  | .proceed true => exact wp_seq (kept.wp (T := T) refresh holds) fun _ u holds => report u holds
  | .proceed false => exact report u holds

/-- A sync answers nothing, or refuses, or returns what it has just reported. -/
theorem sync_reports {T : ServiceTag V → ServiceMemory V → ServiceState V → List (Note V) → ServiceState V → Prop}
    {J : ServiceState V → ServiceHistory V → Prop} (kept : Kept T J) {t : ServiceTag V}
    (routine : ∀ m s ns s', RoutineStep settings m s ns s' → T t m s ns s')
    (keyed : ∀ s h, J s h → WellKeyed s) (clientId : Option String) (id : SubscriptionId)
    (ack : Option Int) (allow : Bool) {v : ServiceView V} (holds : Standing J v) :
    wp (service settings around).mayReply (StandingInv J) t
      (fun result v' => Standing J v' ∧ ∀ found, result = some found →
        found.streamActive = true ∨ JustReported t id found v'.state v'.history)
      (sync settings clientId id ack allow) v := by
  refine wp_mono (sync_ends kept clientId id ack allow
    (fun m s => routine m _ _ _ (syncStart_routine _ clientId id s ack allow))
    ((refreshChangedValues_within settings id).mono routine) holds) fun result w ended => ?_
  rcases ended with ⟨holds, refused⟩ | ⟨u, inv, rfl, state, history, bag⟩
  · exact ⟨holds, fun found same => .inl (refused found same)⟩
  · have step : RoutineStep settings [] u.state _ _ := syncReport_routine _ clientId id u.state
    have next := kept.act t [] _ _ _ _ inv.1 (fun _ => nofun) (routine _ _ _ _ step)
    rw [Standing, state, history, bag]
    refine ⟨inv.grow _ next, fun found returns => .inr ?_⟩
    exact syncReportSection_reports (keyed _ _ inv.1) t clientId id returns

theorem books_call (v : ServiceView V) (call : Call V) (holds : Standing (Books settings) v) :
    wp (service settings around).mayReply (StandingInv (Books settings)) ⟨v.calls, call⟩
      (fun o v' => Standing (Books settings) (v'.noting (.returned ⟨v.calls, call⟩ o)))
      ((service settings around).program call) (v.issued call) := by
  have kept : Kept (fun _ => CallStep settings anyChange) (Books settings) := books_kept
  have inside : ((service settings around).program call).Within (CallStep settings anyChange) :=
    program_within settings anyChange call (changesAllowed_any call)
  have plain (other : ∀ clientId id ack allow, call ≠ .sync clientId id ack allow) :=
    kept.call inside (fun _ _ o books => books.cons trivial (.returned other)) holds
  cases call with
  | sync clientId id ack allow =>
      have issued := holds.grow [_] (kept.spawned _ _ ⟨v.calls, .sync clientId id ack allow⟩ holds.1)
      refine wp_seq (sync_reports kept (fun _ _ _ _ step => .routine step) (fun _ _ books => books.keys)
        clientId id ack allow issued) fun result v' after => ?_
      obtain ⟨standing, reported⟩ := after
      refine standing.grow [_] (standing.1.cons trivial ?_)
      cases result with
      | none =>
          intro _ _ _ _ _ _ _ _ same
          cases same
      | some found =>
          rcases reported found rfl with refused | just
          · intro _ _ _ _ _ _ _ _ same active
            cases same
            rw [refused] at active
            cases active
          · exact just.syncAccounts standing.1 _ clientId ack allow
  | _ => exact plain fun _ _ _ _ => nofun

theorem reachable_books {c : ServiceConfig V} (h : ServiceReachable settings around c) :
    Books settings c.state c.history :=
  reachable_history ⟨.empty, nofun, .nil, fun _ _ _ _ _ _ _ _ => nofun⟩
    (fun v call holds _ => books_call v call holds) h

end

/-- In every reachable state each queue is contiguous, ends at the sequence
number and stays within its bound, and every result of a sync, apart from a
refusal while a stream is active, accounts for every number issued so far. -/
theorem sync_accounts_for_all {c : ServiceConfig V} (h : ServiceReachable settings .any c) :
    (∀ id state, c.state.subscriptions.get? id = some state → Contiguous settings state) ∧
    SyncAccounts c.state c.history ∧ Throughout Complete c.history := by
  have books := reachable_books h
  exact ⟨fun id state found => (books.ledger found).contiguous, books.sync, books.reports⟩

/-- A subscription monitors the first inlet. -/
def subscribed : List (Decision Int) :=
  [.spawn (.createSubscription (some "c") none), .grant .main,
    .spawn (.registerItems (some "c") 0 ["ns=2;s=abc"] 1 ModelBuilder.inlets 4), .grant .main, .grant .main]

/-- The monitor at hand gets a native bin of its own. -/
def admitted : List (Decision Int) :=
  [.reply 0 obliging, .grant .admission, .grant .main, .grant .main, .reply 0 obliging, .reply 0 obliging,
    .grant .main]

/-- The server notifies a value of the first inlet, and it is fanned out. -/
def notified (value : Int) : List (Decision Int) :=
  [.spawn (.nodeDatachange "ns=2;s=abc" value), .spawn .nodeDatachangeTurn, .grant .main, .grant .main]

/-- Three values arrive at a queue for two, then the client syncs. -/
def overflowThenSync : List (Decision Int) :=
  subscribed ++ notified 5 ++ notified 6 ++ notified 7 ++
    [.spawn (.sync (some "c") 0 none false), .grant .main, .grant .main]

theorem sync_accounts_for_all_overflow : ∃ c, smallRun overflowThenSync = some c ∧
    (∀ id state, c.state.subscriptions.get? id = some state → Contiguous smallServer state) ∧
    SyncAccounts c.state c.history ∧ Throughout Complete c.history := by
  obtain ⟨c, done⟩ := Option.isSome_iff_exists.mp (show (smallRun overflowThenSync).isSome = true from rfl)
  exact ⟨c, done, sync_accounts_for_all (smallRun_reachable done)⟩

/-- A value is pending when a stream opens, and a sync comes while it is open. -/
def syncWhileStreaming : List (Decision Int) :=
  subscribed ++ notified 5 ++
    [.spawn (.streamSubscription (some "c") 0 0), .grant .main,
      .spawn (.sync (some "c") 0 none false), .grant .main, .grant .main]

/-- Nothing was acknowledged or reported so far. -/
def unsettled (h : ServiceHistory Int) : Bool :=
  h.all fun event =>
    match event with
    | .noted _ (.acknowledged ..) => false
    | .noted _ (.reported ..) => false
    | _ => true

theorem unsettled_spec {h : ServiceHistory Int} (none_yet : unsettled h = true)
    {result : SubscriptionSyncResult Int} (empty : result.updates = []) (id : SubscriptionId) (q : Nat) :
    ¬ Accounted h id result q := by
  have each := List.all_eq_true.mp none_yet
  rintro (⟨update, m, _⟩ | ⟨t, value, n, m, _⟩ | ⟨t, result, n, m, _⟩)
  · rw [empty] at m
    cases m
  · exact absurd (each _ m) Bool.false_ne_true
  · exact absurd (each _ m) Bool.false_ne_true

/-- A refused sync leaves a pending number out of its result. -/
theorem refused_sync_leaves_pending : ∃ c : ServiceConfig Int, ServiceReachable smallServer .any c ∧
    ∃ tag clientId id ack allow result earlier state,
      c.history = .returned ⟨tag, .sync clientId id ack allow⟩ (.synced (some result)) :: earlier ∧
      c.state.subscriptions.get? id = some state ∧
      ∃ q, 1 ≤ q ∧ q ≤ state.sequenceNumber ∧ ¬ Accounted c.history id result q := by
  let c := (smallRun syncWhileStreaming).get rfl
  have done : smallRun syncWhileStreaming = some c := rfl
  have pending : unsettled c.history = true := rfl
  refine ⟨c, smallRun_reachable done, 5, some "c", 0, none, false, _, _, _, rfl, rfl, 1, Nat.le_refl 1, ?_, ?_⟩
  · exact Nat.le_refl 1
  · exact unsettled_spec pending rfl 0 1

end I3x.Subscriptions

import I3xServer.Coroutine.Named
import I3xServer.Subscriptions.LossReport

/-!
# What a stream delivers

The numbers that one stream call emits, in the order of its emissions. Every read
of the queue continues where the previous emission ended, so a number is left out
only if it had left the queue before that read.
-/
namespace I3x.Subscriptions
open Container Coroutine
variable {V : Type} {settings : Settings V} {A : String → V → Prop}

/-- The sequence numbers that an event emits over the stream of call number `n`. -/
def emission (n : Nat) : ServiceEvent V → List Nat
  | .requested ⟨m, .streamSubscription _ _ _⟩ (.emit _ (.updates updates)) =>
      if m = n then updates.map (·.sequenceNumber) else []
  | _ => []

/-- All numbers emitted over the stream, oldest first. -/
def emitted (n : Nat) : ServiceHistory V → List Nat
  | [] => []
  | event :: h => emitted n h ++ emission n event

/-- The number has left the queue by overflow or by an acknowledgement. -/
def Removed (h : ServiceHistory V) (id : SubscriptionId) (q : Nat) : Prop :=
  EvictedIn id q h ∨ AcknowledgedIn h id q

/-- Up to the last number of an emission every number from the first one on is
emitted, or was removed before. The read that an emission passes on, a preload
apart, is the last thing that happened before it. -/
def Passes : ServiceEvent V → ServiceHistory V → Prop
  | .requested ⟨n, .streamSubscription _ _ _⟩ (.emit id (.updates updates)), earlier =>
      ∀ q, (∃ a ∈ emitted n earlier ++ updates.map (·.sequenceNumber), a ≤ q) →
        (∃ update ∈ updates, q ≤ update.sequenceNumber) →
        q ∈ emitted n earlier ++ updates.map (·.sequenceNumber) ∨ Removed earlier id q
  | _, _ => True

theorem EvictedIn.mono {id : SubscriptionId} {q : Nat} {h h' : ServiceHistory V} (evicted : EvictedIn id q h)
    (sub : ∀ event ∈ h, event ∈ h') : EvictedIn id q h' := by
  obtain ⟨t, inside⟩ := evicted
  exact ⟨t, sub _ inside⟩

theorem Removed.mono {id : SubscriptionId} {q : Nat} {h h' : ServiceHistory V} (removed : Removed h id q)
    (sub : ∀ event ∈ h, event ∈ h') : Removed h' id q :=
  removed.imp (·.mono sub) (·.mono sub)

/-! ## Numbers that have left the queue -/

/-- Every number before the queue was removed from it. -/
def Departed (h : ServiceHistory V) (state : SubscriptionState V) : Prop :=
  ∀ q, 1 ≤ q → q < firstPending state → Removed h state.subscriptionId q

theorem Departed.grow {h : ServiceHistory V} {state : SubscriptionState V} (departed : Departed h state)
    (more : ServiceHistory V) : Departed (more ++ h) state :=
  fun q pos low => (departed q pos low).mono fun _ => List.mem_append_right more

theorem Departed.append {h : ServiceHistory V} {state : SubscriptionState V} (departed : Departed h state)
    (contiguous : Contiguous settings state) (t : ServiceTag V) (now : Nat) (nodeId : String) (value : V) :
    Departed (noted t (appendUpdate settings now state nodeId value).2 ++ h)
      (appendUpdate settings now state nodeId value).1 := by
  have owner : (appendUpdate settings now state nodeId value).1.subscriptionId = state.subscriptionId :=
    (appendUpdate_sameMembership now state nodeId value).subscriptionId
  intro q pos low
  rw [owner]
  have before (less : q < firstPending state) := departed.grow (noted t (appendUpdate settings now state nodeId value).2) q pos less
  simp only [appendUpdate] at low before ⊢
  split at low
  · rename_i current
    rw [if_pos current] at before ⊢
    exact before low
  · rename_i fresh
    rw [if_neg fresh] at before ⊢
    cases full : overflowing settings state with
    | none =>
        rw [firstPending_push_room full rfl] at low
        exact before low
    | some oldest =>
        have next : (nextUpdate settings now state nodeId (settings.values.normalizeOpcuaValue value)).sequenceNumber =
            state.sequenceNumber + 1 := rfl
        obtain ⟨number, moved⟩ := firstPending_push_full contiguous full next
        rw [moved] at low
        rcases Nat.lt_succ_iff_lt_or_eq.mp low with less | rfl
        · exact before less
        · refine .inl ⟨t, List.mem_append_left _ (mem_noted.mpr ⟨_, ?_, rfl⟩)⟩
          simp only [pushNotes, full, number, List.mem_cons, true_or]

theorem Departed.acknowledge {h : ServiceHistory V} {state : SubscriptionState V} (departed : Departed h state)
    (contiguous : Contiguous settings state) (t : ServiceTag V) (value : Option Int) :
    Departed
      (noted t (value.map fun v => Note.acknowledged state.subscriptionId v state.sequenceNumber).toList ++ h)
      (Subscriptions.acknowledge state value) := by
  cases value with
  | none => exact departed
  | some v =>
      intro q pos low
      rw [(acknowledge_sameMembership state (some v)).subscriptionId]
      by_cases before : q < firstPending state
      · exact departed.grow _ q pos before
      · obtain ⟨_, _, covered⟩ := firstPending_acknowledge contiguous v
        refine .inr ⟨t, v, state.sequenceNumber, List.mem_cons_self, covered q (Nat.le_of_not_lt before) low⟩

/-- A run of queue operations records the numbers that leave the queue. -/
theorem QueueRun.departed {state last : SubscriptionState V} {ns : List (Note V)}
    (run : QueueRun settings A state ns last) {h : ServiceHistory V} (t : ServiceTag V)
    (ledger : Ledger settings h state) (departed : Departed h state) : Departed (noted t ns ++ h) last := by
  induction run generalizing h with
  | refl state => exact departed
  | @quiet state next last ns same _ ih =>
      refine ih (ledger.of_same same) ?_
      rw [same]
      exact departed
  | mark n plain _ ih =>
      rw [noted_cons]
      exact ih (ledger.mono fun _ => List.mem_cons_of_mem _) (departed.grow [_])
  | append now nodeId value _ _ ih =>
      rw [noted_append]
      exact ih (ledger.append t now nodeId value) (departed.append ledger.contiguous t now nodeId value)
  | acknowledge value _ ih =>
      rw [noted_append]
      exact ih (ledger.acknowledge t value) (departed.acknowledge ledger.contiguous t value)
  | report _ ih =>
      rw [noted_cons]
      exact ih (ledger.report t) (departed.grow [_])

/-! ## The invariant -/

/-- The stream call has emitted nothing above `last` and has left out nothing that
was not removed. -/
structure Cursor (h : ServiceHistory V) (id : SubscriptionId) (n last : Nat) : Prop where
  le : ∀ a ∈ emitted n h, a ≤ last
  gapless : ∀ q, (∃ a ∈ emitted n h, a ≤ q) → q ≤ last → q ∈ emitted n h ∨ Removed h id q

/-- The ghost of a stream call that reads: its subscription and its cursor. -/
abbrev Position := Option (SubscriptionId × Nat)

structure Delivery (settings : Settings V) (s : ServiceState V) (h : ServiceHistory V)
    (B : Multiset (Entry (Call V) Position)) : Prop where
  books : LossBooks settings s h
  departed : ∀ {id state}, s.subscriptions.get? id = some state → Departed h state
  increasing : ∀ n, (emitted n h).Pairwise (· < ·)
  passes : Throughout Passes h
  silent : ∀ e ∈ B, e.ghost = none → emitted e.tag.id h = []
  cursors : ∀ e ∈ B, ∀ id last, e.ghost = some (id, last) → Cursor h id e.tag.id last

/-- The event emits no updates. -/
def Emitless (event : ServiceEvent V) : Prop := (∀ n, emission n event = []) ∧ ∀ h, Passes event h

/-- Only stream calls emit. -/
theorem emitless_of_other {t : ServiceTag V} (other : ¬ t.call.Streams) (q : Request V) :
    Emitless (.requested t q) := by
  obtain ⟨n, call⟩ := t
  cases call with
  | streamSubscription => exact absurd trivial other
  | _ => exact ⟨fun _ => rfl, fun _ => trivial⟩

theorem emitted_noted (n : Nat) (t : ServiceTag V) (ns : List (Note V)) (h : ServiceHistory V) :
    emitted n (noted t ns ++ h) = emitted n h := by
  induction ns generalizing h with
  | nil => rfl
  | cons note ns ih =>
      rw [noted_cons, ih]
      exact List.append_nil _

section
variable {s s' : ServiceState V} {h : ServiceHistory V} {B : Multiset (Entry (Call V) Position)}
  {t : ServiceTag V}

theorem Cursor.grow {h' : ServiceHistory V} {id : SubscriptionId} {n last : Nat} (cursor : Cursor h id n last)
    (same : emitted n h' = emitted n h) (sub : ∀ event ∈ h, event ∈ h') : Cursor h' id n last := by
  refine ⟨fun a inside => cursor.le a (same ▸ inside), fun q above below => ?_⟩
  rw [same] at above ⊢
  exact (cursor.gapless q above below).imp_right (·.mono sub)

/-- A step of the service emits nothing and forgets nothing. -/
theorem Delivery.act {m : ServiceMemory V} {ns : List (Note V)} (old : Delivery settings s h B)
    (step : CallStep settings anyChange m s ns s') : Delivery settings s' (noted t ns ++ h) B where
  books := lossBooks_act old.books step
  departed {id state'} found := by
    rcases step.queue_or_descends old.books.keys with ⟨other, state, next, there, run, rfl⟩ | ⟨_, descends⟩
    · rw [get?_setSubscription] at found
      split_ifs at found
      · cases found
        exact run.departed t (old.books.ledger there) (old.departed there)
      · exact (old.departed found).grow _
    · rcases descends id state' found with ⟨state, there, inherits⟩ | ⟨_, _, clientId, name, now, rfl⟩
      · cases inherits with
        | same => exact (old.departed there).grow _
        | remonitored => exact (old.departed there).grow _
      · exact fun q pos low => absurd low (Nat.not_lt.mpr pos)
  increasing n := by
    rw [emitted_noted]
    exact old.increasing n
  passes := old.passes.noted fun _ _ _ => trivial
  silent e inside free := by
    rw [emitted_noted]
    exact old.silent e inside free
  cursors e inside id last position :=
    (old.cursors e inside id last position).grow (emitted_noted _ t ns h) fun _ => List.mem_append_right _

theorem Delivery.event {event : ServiceEvent V} (old : Delivery settings s h B)
    (plain : ∀ u n, event ≠ .noted u n) (emitless : Emitless event) : Delivery settings s (event :: h) B := by
  have same (n : Nat) : emitted n (event :: h) = emitted n h := by
    rw [emitted, emitless.1, List.append_nil]
  refine ⟨old.books.cons plain, fun found => (old.departed found).grow [event], fun n => ?_,
    throughout_cons.mpr ⟨emitless.2 h, old.passes⟩, fun e inside free => ?_, fun e inside id last position => ?_⟩
  · rw [same]
    exact old.increasing n
  · rw [same]
    exact old.silent e inside free
  · exact (old.cursors e inside id last position).grow (same _) fun _ => List.mem_cons_of_mem _

theorem Delivery.leave {g : Position} (old : Delivery settings s h (⟨t, g⟩ ::ₘ B)) : Delivery settings s h B :=
  ⟨old.books, old.departed, old.increasing, old.passes,
    fun e inside => old.silent e (Multiset.mem_cons_of_mem inside),
    fun e inside => old.cursors e (Multiset.mem_cons_of_mem inside)⟩

/-- A call that has emitted nothing stands before every number. -/
theorem Delivery.begin (old : Delivery settings s h (⟨t, none⟩ ::ₘ B)) (id : SubscriptionId) :
    Delivery settings s h (⟨t, some (id, 0)⟩ ::ₘ B) := by
  have nothing := old.silent _ (Multiset.mem_cons_self _ _) rfl
  refine ⟨old.books, old.departed, old.increasing, old.passes, fun e inside free => ?_,
    fun e inside other last position => ?_⟩
  · rcases Multiset.mem_cons.mp inside with rfl | rest
    · cases free
    · exact old.silent e (Multiset.mem_cons_of_mem rest) free
  · rcases Multiset.mem_cons.mp inside with rfl | rest
    · cases position
      refine ⟨?_, ?_⟩
      · rw [nothing]
        exact fun _ => nofun
      · rw [nothing]
        exact fun _ ⟨_, none_, _⟩ => nomatch none_
    · exact old.cursors e (Multiset.mem_cons_of_mem rest) other last position

/-! ## Reading and emitting -/

/-- The updates are a run of numbers that begins at `first`. -/
def RunsFrom (first : Nat) (updates : List (SubscriptionUpdate V)) : Prop :=
  updates.map (·.sequenceNumber) = List.range' first updates.length

theorem RunsFrom.mem {first q : Nat} {updates : List (SubscriptionUpdate V)} (runs : RunsFrom first updates) :
    q ∈ updates.map (·.sequenceNumber) ↔ first ≤ q ∧ q < first + updates.length := by
  rw [runs, List.mem_range'_1]

theorem RunsFrom.last {first : Nat} {updates : List (SubscriptionUpdate V)} {last : SubscriptionUpdate V}
    (runs : RunsFrom first updates) (ends : updates.getLast? = some last) :
    last.sequenceNumber + 1 = first + updates.length := by
  obtain ⟨init, rfl⟩ := List.getLast?_eq_some_iff.mp ends
  unfold RunsFrom at runs
  rw [List.map_append, List.map_singleton, List.length_append, List.length_singleton, List.range'_concat] at runs
  have same := (List.append_inj' runs rfl).2
  rw [List.cons.injEq, one_mul] at same
  rw [same.1, List.length_append, List.length_singleton]
  omega

/-- The read continues after `last`: what it leaves out in between was removed. -/
def ReadsAfter (h : ServiceHistory V) (id : SubscriptionId) (last : Nat)
    (updates : List (SubscriptionUpdate V)) : Prop :=
  ∃ first, RunsFrom first updates ∧ last < first ∧ ∀ q, last < q → q < first → Removed h id q

theorem Delivery.reads (old : Delivery settings s h B) {id : SubscriptionId} {state : SubscriptionState V}
    (found : s.subscriptions.get? id = some state) (last : Nat) :
    ReadsAfter h id last (updatesAfter state last) := by
  have numbers := (old.books.ledger found).contiguous.filter_numbers last
  have length := congrArg List.length numbers
  rw [List.length_map, List.length_range'] at length
  refine ⟨max (firstPending state) (last + 1), ?_, ?_, fun q above below => ?_⟩
  · unfold RunsFrom updatesAfter
    rw [numbers, length]
  · exact Nat.lt_of_lt_of_le (Nat.lt_succ_self last) (Nat.le_max_right _ _)
  · have departed := old.departed found q (Nat.lt_of_le_of_lt (Nat.zero_le last) above) (by omega)
    rwa [old.books.keys.keyed found] at departed

/-- An emission moves the cursor of its stream to the last number it emits. -/
theorem Delivery.emit {n : Nat} {clientId : Option String} {target id : SubscriptionId} {rounds first last : Nat}
    {updates : List (SubscriptionUpdate V)} {end_ : SubscriptionUpdate V}
    (old : Delivery settings s h (⟨⟨n, .streamSubscription clientId target rounds⟩, some (id, last)⟩ ::ₘ B))
    (alone : ∀ e ∈ B, e.tag.id ≠ n) (runs : RunsFrom first updates) (ends : updates.getLast? = some end_)
    (after : last < first)
    (skipped : emitted n h = [] ∨ ∀ q, last < q → q < first → Removed h id q) :
    Delivery settings s
      (.requested ⟨n, .streamSubscription clientId target rounds⟩ (.emit id (.updates updates)) :: h)
      (⟨⟨n, .streamSubscription clientId target rounds⟩, some (id, end_.sequenceNumber)⟩ ::ₘ B) := by
  have cursor := old.cursors _ (Multiset.mem_cons_self _ _) id last rfl
  have final := runs.last ends
  have others {m : Nat} (other : n ≠ m) :
      emitted m (.requested ⟨n, .streamSubscription clientId target rounds⟩ (.emit id (.updates updates)) :: h) =
        emitted m h := by
    rw [emitted, emission, if_neg other, List.append_nil]
  have own : emitted n (.requested ⟨n, .streamSubscription clientId target rounds⟩ (.emit id (.updates updates)) :: h) =
      emitted n h ++ updates.map (·.sequenceNumber) := by
    rw [emitted, emission, if_pos rfl]
  have gapless : ∀ q, (∃ a ∈ emitted n h ++ updates.map (·.sequenceNumber), a ≤ q) → q ≤ end_.sequenceNumber →
      q ∈ emitted n h ++ updates.map (·.sequenceNumber) ∨ Removed h id q := by
    rintro q ⟨a, inside, above⟩ below
    by_cases read : first ≤ q
    · exact .inl (List.mem_append_right _ (runs.mem.mpr ⟨read, by omega⟩))
    rcases List.mem_append.mp inside with before | now
    · by_cases within : q ≤ last
      · exact (cursor.gapless q ⟨a, before, above⟩ within).imp_left (List.mem_append_left _)
      · refine .inr (skipped.resolve_left (List.ne_nil_of_mem before) q ?_ ?_)
        · exact Nat.lt_of_not_le within
        · exact Nat.lt_of_not_le read
    · exact absurd ((runs.mem.mp now).1.trans above) read
  refine ⟨old.books.cons fun _ _ => nofun, fun found => (old.departed found).grow [_], fun m => ?_,
    throughout_cons.mpr ⟨?_, old.passes⟩, fun e inside free => ?_, fun e inside other last' position => ?_⟩
  · by_cases here : n = m
    · subst here
      rw [own, List.pairwise_append]
      refine ⟨old.increasing n, ?_, fun a before b now => ?_⟩
      · rw [runs]
        exact List.pairwise_lt_range' 1
      · exact Nat.lt_of_le_of_lt (cursor.le a before) (Nat.lt_of_lt_of_le after (runs.mem.mp now).1)
    · rw [others here]
      exact old.increasing m
  · rintro q above ⟨update, inside, below⟩
    refine gapless q above (below.trans ?_)
    have bound := (runs.mem.mp (List.mem_map_of_mem inside)).2
    omega
  · rcases Multiset.mem_cons.mp inside with rfl | rest
    · cases free
    · rw [others (alone e rest).symm]
      exact old.silent e (Multiset.mem_cons_of_mem rest) free
  · rcases Multiset.mem_cons.mp inside with rfl | rest
    · cases position
      refine ⟨fun a emits => ?_, fun q above below => ?_⟩
      · rw [own] at emits
        rcases List.mem_append.mp emits with before | now
        · have := cursor.le a before
          have := List.length_pos_of_mem (List.mem_of_getLast? ends)
          omega
        · have := (runs.mem.mp now).2
          omega
      · rw [own] at above ⊢
        exact (gapless q above below).imp_right (·.mono fun _ => List.mem_cons_of_mem _)
    · exact (old.cursors e (Multiset.mem_cons_of_mem rest) other last' position).grow
        (others (alone e rest).symm) fun _ => List.mem_cons_of_mem _

end
/-! ## The programs -/

section
variable {t : ServiceTag V} {mayReply : ServiceState V → ServiceState V → (q : Request V) → Reply q → Prop}

/-- A view of the service with the positions of the stream calls. -/
abbrev DeliveryView (V : Type) :=
  View (ServiceState V) Lock (Note V) (Request V) Reply (Call V) (Outcome V) Position

theorem delivery_undisturbed (other : ¬ t.call.Streams) (g : Position) :
    Undisturbed (Delivery settings) t g (CallStep settings anyChange) where
  act _ _ _ _ _ _ old _ step := old.act step
  requested _ _ _ q old _ := old.event (fun _ _ => nofun) (emitless_of_other other q)
  replied _ _ _ _ _ old _ := old.event (fun _ _ => nofun) ⟨fun _ => rfl, fun _ => trivial⟩

/-- A critical section keeps the position of its call. -/
theorem locked_delivers {α : Type} {f : Section V α} {m : ServiceMemory V}
    (step : ∀ s, CallStep settings anyChange m s (f s).2.2 (f s).2.1) {g : Position} {v : DeliveryView V}
    (runs : Runs (Delivery settings) t g v) :
    wp mayReply (Named (Delivery settings)) t
      (fun a w => Runs (Delivery settings) t g w ∧ ∃ v' : DeliveryView V, Runs (Delivery settings) t g v' ∧
        a = (f v'.state).1 ∧ w.history = noted t (f v'.state).2.2 ++ v'.history)
      (Program.locked .main f) v := by
  refine wp_locked_named Lock.main f runs fun v' woken w state history bag running => ⟨⟨running, ?_⟩, v', woken, rfl, history⟩
  rw [state, history, bag]
  exact woken.holds.act (step _)

/-- A request that emits no updates keeps the position of its call. -/
theorem ask_delivers {q : Request V} (quiet : Emitless (.requested t q)) {g : Position} {v : DeliveryView V}
    (runs : Runs (Delivery settings) t g v) :
    wp mayReply (Named (Delivery settings)) t (fun _ w => Runs (Delivery settings) t g w) (await q) v := by
  refine wp_ask_named (runs.noting rfl (runs.holds.event (fun _ _ => nofun) quiet)) fun v' r _ woken => ?_
  exact woken.noting rfl (woken.holds.event (fun _ _ => nofun) ⟨fun _ => rfl, fun _ => trivial⟩)

/-- Requests other than the emission of updates. -/
def Request.Emitless : Request V → Prop
  | .emit _ (.updates _) => False
  | _ => True

theorem emitless_requested {q : Request V} (quiet : q.Emitless) : Emitless (.requested t q) := by
  obtain ⟨n, call⟩ := t
  have none_emitted (m : Nat) : emission m (.requested ⟨n, call⟩ q : ServiceEvent V) = [] := by
    unfold emission
    split
    · rename_i same
      cases same
      exact quiet.elim
    · rfl
  refine ⟨none_emitted, fun h => ?_⟩
  unfold Passes
  split
  · rename_i same
    cases same
    exact quiet.elim
  · trivial

theorem refresh_delivers (id : SubscriptionId) {g : Position} {v : DeliveryView V}
    (runs : Runs (Delivery settings) t g v) :
    wp mayReply (Named (Delivery settings)) t (fun _ w => Runs (Delivery settings) t g w)
      (refreshChangedValues settings id) v := by
  have looks (s : ServiceState V) : CallStep settings anyChange [] s (refreshTargetsSection id s).2.2
      (refreshTargetsSection id s).2.1 := by
    rw [refreshTargets_looks id s]
    exact (Stretch.look (k := .queue) [] s).callStep
  refine wp_seq (locked_delivers looks runs) fun nodeIds w after => ?_
  have runs := after.1
  split
  · exact runs
  · refine wp_seq (ask_delivers (emitless_requested (q := .readValues nodeIds) trivial) runs) fun values w runs => ?_
    cases values with
    | none => exact runs
    | some values =>
        refine wp_mono (locked_delivers (m := [.replied (.readValues nodeIds) (some values)])
          (fun s => (Stretch.refresh id _ (fun item inside => ?_) s).callStep) runs) fun _ _ after => after.1
        exact .inl ⟨nodeIds, values, List.mem_cons_self, inside⟩

/-- The updates of a sync result are a run of numbers. -/
theorem sync_delivers (clientId : Option String) (id : SubscriptionId) (ack : Option Int) (allow : Bool)
    {g : Position} {v : DeliveryView V} (runs : Runs (Delivery settings) t g v) :
    wp mayReply (Named (Delivery settings)) t
      (fun result w => Runs (Delivery settings) t g w ∧
        ∀ found, result = some found → ∃ first, 0 < first ∧ RunsFrom first found.updates)
      (sync settings clientId id ack allow) v := by
  have report (v : DeliveryView V) (runs : Runs (Delivery settings) t g v) :
      wp mayReply (Named (Delivery settings)) t
        (fun result w => Runs (Delivery settings) t g w ∧
          ∀ found, result = some found → ∃ first, 0 < first ∧ RunsFrom first found.updates)
        (Program.locked .main (syncReportSection clientId id)) v := by
    refine wp_mono (locked_delivers (m := []) (fun s => (Stretch.syncReport clientId id s).callStep) runs)
      fun result w ⟨runs, v', before, returns, _⟩ => ⟨runs, fun found same => ?_⟩
    subst same
    unfold syncReportSection at returns
    cases there : v'.state.inScope clientId id with
    | none =>
        rw [there] at returns
        cases returns
    | some state =>
        rw [there] at returns
        cases returns
        have contiguous := (before.holds.books.ledger (inScope_get? there)).contiguous
        refine ⟨firstPending state, ?_, contiguous.numbers⟩
        have := contiguous.issued
        unfold firstPending
        omega
  refine wp_seq (locked_delivers (m := []) (fun s => (Stretch.syncStart clientId id ack allow s).callStep) runs)
    fun started w ⟨runs, _⟩ => ?_
  match started with
  | .missing => exact ⟨runs, nofun⟩
  | .refused => exact ⟨runs, fun found same => ⟨1, Nat.one_pos, by cases same; rfl⟩⟩
  | .proceed false => exact report w runs
  | .proceed true => exact wp_seq (refresh_delivers id runs) fun _ w runs => report w runs

theorem begin_delivers (clientId : Option String) (id : SubscriptionId) {v : DeliveryView V}
    (runs : Runs (Delivery settings) t none v) :
    wp mayReply (Named (Delivery settings)) t
      (fun result w => Runs (Delivery settings) t none w ∧ ∀ session, result = .ok session →
        ∃ first, 0 < first ∧ RunsFrom first session.acknowledged.updates)
      (beginStreamSession settings clientId id) v := by
  unfold beginStreamSession
  split
  · refine ⟨runs, fun session same => ?_⟩
    cases same
  · rename_i client _
    have activates {scope : Option String} {v : DeliveryView V} (runs : Runs (Delivery settings) t none v) :
        wp mayReply (Named (Delivery settings)) t (fun _ w => Runs (Delivery settings) t none w)
          (activateStream scope id) v :=
      wp_mono (locked_delivers (m := []) (fun s => (Stretch.activate scope id s).callStep) runs) fun _ _ after => after.1
    have opens : wp mayReply (Named (Delivery settings)) t (fun _ w => Runs (Delivery settings) t none w)
        (openStream (settings.text.strip client) id) v := by
      refine wp_seq (activates runs) fun first w runs => ?_
      cases first with
      | some generation => exact runs
      | none => exact wp_seq (activates runs) fun _ w runs => runs
    refine wp_seq opens fun opened w runs => ?_
    cases opened with
    | none =>
        refine ⟨runs, fun session same => ?_⟩
        cases same
    | some opened =>
        refine wp_seq (sync_delivers _ id none true runs) fun acknowledged w after => ?_
        obtain ⟨runs, reads⟩ := after
        cases acknowledged with
        | none =>
            refine ⟨runs, fun session same => ?_⟩
            cases same
        | some acknowledged => exact ⟨runs, fun session same => by cases same; exact reads _ rfl⟩

/-- Updates that a wait returns continue after the given number. -/
theorem wait_delivers (clientId : Option String) (id : SubscriptionId) (last timeoutMs : Nat) {g : Position}
    {v : DeliveryView V} (runs : Runs (Delivery settings) t g v) :
    wp mayReply (Named (Delivery settings)) t
      (fun result w => Runs (Delivery settings) t g w ∧
        ∀ updates, result = .ready updates → ReadsAfter w.history id last updates)
      (waitForUpdates settings clientId id last timeoutMs) v := by
  have result (timedOut : Bool) {v : DeliveryView V} (runs : Runs (Delivery settings) t g v) :
      wp mayReply (Named (Delivery settings)) t
        (fun result w => Runs (Delivery settings) t g w ∧
          ∀ updates, result = .ready updates → ReadsAfter w.history id last updates)
        ((Program.locked .main (waitResultSection clientId id last timedOut)).bind fun updates =>
          .ret (WaitResult.ofOption updates)) v := by
    refine wp_seq (locked_delivers (m := []) (fun s => (Stretch.waitResult clientId id last timedOut s).callStep) runs)
      fun found w ⟨runs, v', before, returns, history⟩ => ⟨runs, fun updates same => ?_⟩
    unfold waitResultSection at returns history
    cases there : v'.state.inScope clientId id with
    | none =>
        rw [there] at returns
        cases returns
        cases same
    | some state =>
        rw [there] at returns history
        cases returns
        cases same
        rw [history]
        exact before.holds.reads (inScope_get? there) last
  refine wp_seq (locked_delivers (m := []) (fun s => (Stretch.waitStart clientId id last timeoutMs s).callStep) runs)
    fun started w ⟨runs, v', before, returns, history⟩ => ?_
  match started with
  | .missing => exact ⟨runs, nofun⟩
  | .ready updates =>
      refine ⟨runs, fun other same => ?_⟩
      cases same
      unfold waitStartSection at returns history
      cases there : v'.state.inScope clientId id with
      | none =>
          rw [there] at returns
          cases returns
      | some state =>
          rw [there] at returns history
          dsimp only at returns history
          have reads := before.holds.reads (inScope_get? there) last
          cases current : updatesAfter { state with lastActivity := v'.state.clock } last with
          | nil =>
              rw [current] at returns
              cases returns
          | cons head tail =>
              have same : updatesAfter state last = head :: tail := current
              rw [current] at returns history
              cases returns
              rw [history]
              rw [same] at reads
              exact reads
  | .wait refreshAfterTimeout threshold =>
      refine wp_seq (ask_delivers (emitless_requested (q := .waitForUpdate id) trivial) runs) fun outcome w runs => ?_
      match outcome with
      | .disconnected => exact ⟨runs, nofun⟩
      | .shutdown => exact ⟨runs, nofun⟩
      | .updated => exact result false runs
      | .timeout =>
          refine wp_seq (locked_delivers (m := []) (fun s =>
            (Stretch.waitTimeout clientId id refreshAfterTimeout threshold s).callStep) runs) fun execute w ⟨runs, _⟩ => ?_
          match execute with
          | none => exact ⟨runs, nofun⟩
          | some false => exact result true runs
          | some true =>
              refine wp_seq (locked_delivers (m := []) (fun s => (Stretch.resetTimeout clientId id s).callStep) runs)
                fun present w ⟨runs, _⟩ => ?_
              match present with
              | true => exact wp_seq (refresh_delivers id runs) fun _ w runs => result true runs
              | false => exact ⟨runs, nofun⟩

end

section
variable {mayReply : ServiceState V → ServiceState V → (q : Request V) → Reply q → Prop}
  {n rounds : Nat} {clientId : Option String} {target : SubscriptionId}

/-- A stream call and its position. -/
abbrev Reading (settings : Settings V) (n : Nat) (clientId : Option String) (target : SubscriptionId)
    (rounds : Nat) (g : Position) (v : DeliveryView V) : Prop :=
  Runs (Delivery settings) ⟨n, .streamSubscription clientId target rounds⟩ g v

/-- Emitting updates that continue at the position moves the position. -/
theorem emit_delivers {id : SubscriptionId} {first last : Nat} {updates : List (SubscriptionUpdate V)}
    {end_ : SubscriptionUpdate V} {v : DeliveryView V}
    (runs : Reading settings n clientId target rounds (some (id, last)) v) (run : RunsFrom first updates)
    (ends : updates.getLast? = some end_) (after : last < first)
    (skipped : emitted n v.history = [] ∨ ∀ q, last < q → q < first → Removed v.history id q) :
    wp mayReply (Named (Delivery settings)) ⟨n, .streamSubscription clientId target rounds⟩
      (fun _ w => Reading settings n clientId target rounds (some (id, end_.sequenceNumber)) w)
      (emit id (.updates updates)) v := by
  have emits := runs.holds.emit runs.running.alone run ends after skipped
  refine wp_ask_named (runs.noting rfl emits) fun v' r _ woken => ?_
  exact woken.noting rfl (woken.holds.event (fun _ _ => nofun) ⟨fun _ => rfl, fun _ => trivial⟩)

theorem rounds_deliver (session : StreamSession V) (left last : Nat) {v : DeliveryView V}
    (runs : Reading settings n clientId target rounds (some (session.subscriptionId, last)) v) :
    wp mayReply (Named (Delivery settings)) ⟨n, .streamSubscription clientId target rounds⟩
      (fun _ w => ∃ g, Reading settings n clientId target rounds g w)
      (streamRounds settings session left last) v := by
  induction left generalizing last v with
  | zero => exact ⟨_, runs⟩
  | succ left ih =>
      have looks (s : ServiceState V) : CallStep settings anyChange []
          s (isStreamActiveSection session.subscriptionId session.streamGeneration s).2.2
          (isStreamActiveSection session.subscriptionId session.streamGeneration s).2.1 := by
        rw [isStreamActive_looks _ _ s]
        exact (Stretch.look (k := .queue) [] s).callStep
      have tells {event : StreamEvent V} {g : Position} {v : DeliveryView V}
          (quiet : (Request.emit session.subscriptionId event).Emitless)
          (runs : Reading settings n clientId target rounds g v) :
          wp mayReply (Named (Delivery settings)) ⟨n, .streamSubscription clientId target rounds⟩
            (fun _ w => Reading settings n clientId target rounds g w) (emit session.subscriptionId event) v :=
        ask_delivers (emitless_requested quiet) runs
      refine wp_seq (locked_delivers looks runs) fun active w ⟨runs, _⟩ => ?_
      match active with
      | false => exact wp_seq (tells trivial runs) fun _ w runs => ⟨_, runs⟩
      | true =>
          refine wp_seq (wait_delivers _ _ last _ runs) fun waited w ⟨runs, reads⟩ => ?_
          match waited with
          | .disconnected => exact ⟨_, runs⟩
          | .closed => exact wp_seq (tells trivial runs) fun _ w runs => ⟨_, runs⟩
          | .ready updates =>
              obtain ⟨first, run, after, skipped⟩ := reads updates rfl
              dsimp only
              split
              · refine wp_seq (tells trivial runs) fun present w runs => ?_
                cases present with
                | true => exact ih last runs
                | false => exact ⟨_, runs⟩
              · rename_i end_ ends
                refine wp_seq (emit_delivers runs run ends after (.inr skipped)) fun present w runs => ?_
                cases present with
                | true => exact ih _ runs
                | false => exact ⟨_, runs⟩

theorem respond_delivers (session : StreamSession V) {first : Nat} (pos : 0 < first)
    (preload : RunsFrom first session.acknowledged.updates) (left : Nat) {v : DeliveryView V}
    (runs : Reading settings n clientId target rounds none v) :
    wp mayReply (Named (Delivery settings)) ⟨n, .streamSubscription clientId target rounds⟩
      (fun _ w => ∃ g, Reading settings n clientId target rounds g w)
      (respondStream settings session left) v := by
  have tells {q : Request V} {g : Position} {v : DeliveryView V} (quiet : q.Emitless)
      (runs : Reading settings n clientId target rounds g v) :
      wp mayReply (Named (Delivery settings)) ⟨n, .streamSubscription clientId target rounds⟩
        (fun _ w => Reading settings n clientId target rounds g w) (await q) v :=
    ask_delivers (emitless_requested quiet) runs
  have misses {g : Position} {v : DeliveryView V} (runs : Reading settings n clientId target rounds g v) :
      wp mayReply (Named (Delivery settings)) ⟨n, .streamSubscription clientId target rounds⟩
        (fun _ w => Reading settings n clientId target rounds g w)
        (missDeactivation session.subscriptionId session.streamGeneration) v := by
    refine ⟨runs.running.grow fun _ => tag_of_noted, ?_⟩
    exact runs.holds.act (m := []) ((Stretch.missDeactivation _ _ _).callStep)
  have closes {v : DeliveryView V} (runs : ∃ g, Reading settings n clientId target rounds g v) :
      wp mayReply (Named (Delivery settings)) ⟨n, .streamSubscription clientId target rounds⟩
        (fun _ w => ∃ g, Reading settings n clientId target rounds g w)
        (finallyDeactivate session.subscriptionId session.streamGeneration) v := by
    obtain ⟨g, runs⟩ := runs
    refine wp_seq (tells (q := .finalDeactivation session.subscriptionId) trivial runs) fun completed w runs => ?_
    cases completed with
    | true =>
        exact wp_mono (locked_delivers (m := []) (fun s => (Stretch.deactivate _ _ s).callStep) runs)
          fun _ _ after => ⟨g, after.1⟩
    | false => exact ⟨g, misses runs⟩
  refine wp_seq (tells (q := .startResponse session.subscriptionId) trivial runs) fun started w runs => ?_
  cases started with
  | false => exact ⟨none, misses runs⟩
  | true =>
      refine wp_seq (tells (q := .emit session.subscriptionId .connected) trivial runs) fun present w runs => ?_
      cases present with
      | false => exact closes ⟨_, runs⟩
      | true =>
          have begins (v : DeliveryView V) (runs : Reading settings n clientId target rounds none v) :
              Reading settings n clientId target rounds (some (session.subscriptionId, 0)) v :=
            ⟨runs.running, runs.holds.begin session.subscriptionId⟩
          rw [if_pos rfl]
          split
          · exact wp_seq (rounds_deliver session left 0 (begins w runs)) fun _ w runs => closes runs
          · rename_i end_ ends
            have nothing := runs.holds.silent _ (Multiset.mem_cons_self _ _) rfl
            refine wp_seq (emit_delivers (begins w runs) preload ends pos (.inl nothing)) fun present w runs => ?_
            cases present with
            | false => exact closes ⟨_, runs⟩
            | true => exact wp_seq (rounds_deliver session left _ runs) fun _ w runs => closes runs

end

/-! ## Every run -/

section
variable {around : Surroundings V}

theorem emitted_fresh {h : ServiceHistory V} {n : Nat} (fresh : ∀ event ∈ h, event.tag.id < n) : emitted n h = [] := by
  induction h with
  | nil => rfl
  | cons event h ih =>
      rw [emitted, ih fun other inside => fresh other (List.mem_cons_of_mem event inside), List.nil_append]
      unfold emission
      split
      · rename_i m _ _ _ _ updates
        have less : m < n := fresh _ List.mem_cons_self
        exact if_neg (Nat.ne_of_lt less)
      · rfl

theorem delivery_call (v : DeliveryView V) (call : Call V) (distinct : Distinct v.bag v.history v.calls)
    (old : Delivery settings v.state v.history v.bag) :
    wp (service settings around).mayReply (Named (Delivery settings)) ⟨v.calls, call⟩
      (Ends (Delivery settings) ⟨v.calls, call⟩) ((service settings around).program call) (v.issued call) := by
  have joined : Delivery settings v.state v.history (⟨⟨v.calls, call⟩, none⟩ ::ₘ v.bag) := by
    refine ⟨old.books, old.departed, old.increasing, old.passes, fun e inside free => ?_,
      fun e inside id last position => ?_⟩
    · rcases Multiset.mem_cons.mp inside with rfl | rest
      · exact emitted_fresh distinct.recorded
      · exact old.silent e rest free
    · rcases Multiset.mem_cons.mp inside with rfl | rest
      · cases position
      · exact old.cursors e rest id last position
  have issued : Runs (Delivery settings) ⟨v.calls, call⟩ none (v.issued call) :=
    ⟨distinct.spawn call, joined.event (fun _ _ => nofun) ⟨fun _ => rfl, fun _ => trivial⟩⟩
  have ends {g : Position} (o : Outcome V) (w : DeliveryView V)
      (runs : Runs (Delivery settings) ⟨v.calls, call⟩ g w) : Ends (Delivery settings) ⟨v.calls, call⟩ o w :=
    ⟨runs.running, runs.holds.leave.event (fun _ _ => nofun) ⟨fun _ => rfl, fun _ => trivial⟩⟩
  have plain (other : ¬ call.Streams) : wp (service settings around).mayReply (Named (Delivery settings))
      ⟨v.calls, call⟩ (Ends (Delivery settings) ⟨v.calls, call⟩) ((service settings around).program call)
      (v.issued call) := by
    have inside := program_within settings anyChange call (changesAllowed_any call)
    exact wp_mono ((delivery_undisturbed other none).wp inside issued) fun o w runs => ends o w runs
  cases call with
  | streamSubscription clientId id rounds =>
      refine wp_seq (wp_seq (begin_delivers clientId id issued) fun session w ⟨runs, preload⟩ => ?_)
        fun status w (after : ∃ g, Runs (Delivery settings) _ g w) => ends _ w after.choose_spec
      match session with
      | .error _ => exact ⟨_, runs⟩
      | .ok session =>
          obtain ⟨first, pos, run⟩ := preload session rfl
          exact wp_seq (respond_delivers session pos run rounds runs) fun _ w after => after
  | _ => exact plain id

/-- In every run the numbers emitted over a stream increase, and none is left out
that was still queued at the read that passed it. -/
theorem stream_delivers {c : ServiceConfig V} (h : ServiceReachable settings .any c) :
    (∀ n, (emitted n c.history).Pairwise (· < ·)) ∧ Throughout Passes c.history := by
  have start : Delivery settings (.empty : ServiceState V) [] 0 :=
    ⟨⟨.empty, nofun, .nil, fun _ _ => nofun, fun _ => ⟨nofun, .nil⟩⟩, nofun, fun _ => .nil, .nil, nofun, nofun⟩
  obtain ⟨v, machine, _, holds, _⟩ := reachable_named start
    (fun v call distinct old _ => delivery_call v call distinct old) h
  rw [← machine]
  exact ⟨holds.increasing, holds.passes⟩

end

/-- A stream preloads one update, waits, and reads the next one after a timeout. -/
def streamRead : List (Decision Int) :=
  subscribed ++ notified 5 ++
    [.spawn (.streamSubscription (some "c") 0 2), .grant .main, .grant .main, .grant .main,
      .reply 1 obliging, .reply 1 obliging, .reply 1 obliging, .grant .main, .grant .main] ++ notified 6 ++
    [.reply 1 obliging, .grant .main, .grant .main]

theorem stream_delivers_read : ∃ c, smallRun streamRead = some c ∧ emitted 4 c.history = [1, 2] ∧
    (∀ n, (emitted n c.history).Pairwise (· < ·)) ∧ Throughout Passes c.history := by
  let c := (smallRun streamRead).get rfl
  have done : smallRun streamRead = some c := rfl
  exact ⟨c, done, rfl, stream_delivers (smallRun_reachable done)⟩

end I3x.Subscriptions

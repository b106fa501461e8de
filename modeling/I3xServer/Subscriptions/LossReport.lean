import I3xServer.Subscriptions.Accounting

/-!
# What a reported interval of dropped updates holds

A subscription keeps the first and the last number it dropped since its last
report. As long as no acknowledgement removes updates between two evictions of
one report, the interval holds dropped numbers only.
-/
namespace I3x.Subscriptions
open Container Coroutine
variable {V : Type} {settings : Settings V} {A : String → V → Prop}

/-- The number that was evicted last since the last report. -/
def lastEvicted (id : SubscriptionId) : ServiceHistory V → Option Nat
  | [] => none
  | .noted _ (.evicted other q) :: h => if other = id then some q else lastEvicted id h
  | .noted _ (.reported other _ _) :: h => if other = id then none else lastEvicted id h
  | _ :: h => lastEvicted id h

/-- The number was evicted since the last report. -/
def EvictedSinceReport (id : SubscriptionId) (q : Nat) : ServiceHistory V → Prop
  | [] => False
  | .noted _ (.evicted other n) :: h => (other = id ∧ n = q) ∨ EvictedSinceReport id q h
  | .noted _ (.reported other _ _) :: h => other ≠ id ∧ EvictedSinceReport id q h
  | _ :: h => EvictedSinceReport id q h

/-- An acknowledgement covered the number since the last eviction. -/
def AckedSinceEviction (id : SubscriptionId) (q : Nat) : ServiceHistory V → Prop
  | [] => False
  | .noted _ (.acknowledged other value n) :: h => (other = id ∧ Covers value n q) ∨ AckedSinceEviction id q h
  | .noted _ (.evicted other _) :: h => other ≠ id ∧ AckedSinceEviction id q h
  | _ :: h => AckedSinceEviction id q h

def EvictedIn (id : SubscriptionId) (q : Nat) (h : ServiceHistory V) : Prop :=
  ∃ t, Event.noted t (.evicted id q) ∈ h

/-- An acknowledgement covered the number while no overflow had evicted it. -/
def RemovedByAck (id : SubscriptionId) (q : Nat) : ServiceHistory V → Prop
  | [] => False
  | .noted _ (.acknowledged other value n) :: h =>
      (other = id ∧ Covers value n q ∧ ¬ EvictedIn id q h) ∨ RemovedByAck id q h
  | _ :: h => RemovedByAck id q h

/-- A reported interval holds only numbers that were evicted since the previous
report, and none that an acknowledgement removed. -/
def ExactReport : ServiceEvent V → ServiceHistory V → Prop
  | .noted _ (.reported id result _), earlier =>
      ∀ q, InRange result.droppedFromSequence result.droppedToSequence q →
        EvictedSinceReport id q earlier ∧ ¬ RemovedByAck id q earlier
  | _, _ => True

/-- No acknowledgement has removed updates since the eviction that this one joins. -/
def JoinsEviction : ServiceEvent V → ServiceHistory V → Prop
  | .noted _ (.evicted id _), earlier =>
      ∀ b, lastEvicted id earlier = some b → ¬ AckedSinceEviction id (b + 1) earlier
  | _, _ => True

/-- The event evicts, acknowledges or reports updates of the subscription. -/
def Concerns (id : SubscriptionId) : ServiceEvent V → Prop
  | .noted _ (.evicted other _) => other = id
  | .noted _ (.acknowledged other _ _) => other = id
  | .noted _ (.reported other _ _) => other = id
  | _ => False

section
variable {id : SubscriptionId} {event : ServiceEvent V} {h : ServiceHistory V}

theorem lastEvicted_other (other : ¬ Concerns id event) : lastEvicted id (event :: h) = lastEvicted id h := by
  cases event with
  | noted t n => cases n <;> first | rfl | exact if_neg other
  | _ => rfl

theorem evictedSinceReport_other (other : ¬ Concerns id event) (q : Nat) :
    EvictedSinceReport id q (event :: h) ↔ EvictedSinceReport id q h := by
  cases event with
  | noted t n =>
      cases n with
      | evicted => exact or_iff_right fun same => other same.1
      | reported => exact and_iff_right other
      | _ => exact Iff.rfl
  | _ => exact Iff.rfl

theorem ackedSinceEviction_other (other : ¬ Concerns id event) (q : Nat) :
    AckedSinceEviction id q (event :: h) ↔ AckedSinceEviction id q h := by
  cases event with
  | noted t n =>
      cases n with
      | evicted => exact and_iff_right other
      | acknowledged => exact or_iff_right fun same => other same.1
      | _ => exact Iff.rfl
  | _ => exact Iff.rfl

theorem removedByAck_other (other : ¬ Concerns id event) (q : Nat) :
    RemovedByAck id q (event :: h) ↔ RemovedByAck id q h := by
  cases event with
  | noted t n =>
      cases n with
      | acknowledged => exact or_iff_right fun same => other same.1
      | _ => exact Iff.rfl
  | _ => exact Iff.rfl

theorem evictedIn_other (other : ¬ Concerns id event) (q : Nat) : EvictedIn id q (event :: h) ↔ EvictedIn id q h := by
  constructor
  · rintro ⟨t, inside⟩
    rcases List.mem_cons.mp inside with rfl | before
    · exact absurd rfl other
    · exact ⟨t, before⟩
  · rintro ⟨t, inside⟩
    exact ⟨t, List.mem_cons_of_mem _ inside⟩

end

theorem evictedSinceReport_in {id : SubscriptionId} {q : Nat} {h : ServiceHistory V}
    (evicted : EvictedSinceReport id q h) : EvictedIn id q h := by
  induction h with
  | nil => exact evicted.elim
  | cons event h ih =>
      have later (rest : EvictedSinceReport id q h) : EvictedIn id q (event :: h) := by
        obtain ⟨t, inside⟩ := ih rest
        exact ⟨t, List.mem_cons_of_mem _ inside⟩
      cases event with
      | noted t n =>
          cases n with
          | evicted other number =>
              rcases evicted with ⟨rfl, rfl⟩ | rest
              · exact ⟨t, List.mem_cons_self⟩
              · exact later rest
          | reported => exact later evicted.2
          | _ => exact later evicted
      | _ => exact later evicted

/-- What the history says about the losses of a subscription. -/
structure Losses (h : ServiceHistory V) (state : SubscriptionState V) : Prop where
  pending : state.droppedFromSequence = none ∧ state.droppedToSequence = none ∧
      lastEvicted state.subscriptionId h = none ∨
    ∃ a b, state.droppedFromSequence = some a ∧ state.droppedToSequence = some b ∧
      lastEvicted state.subscriptionId h = some b ∧
      (∀ q, a ≤ q → q ≤ b → EvictedSinceReport state.subscriptionId q h) ∧
      (firstPending state = b + 1 ∨ AckedSinceEviction state.subscriptionId (b + 1) h)
  evicted : ∀ q, EvictedIn state.subscriptionId q h →
    q < firstPending state ∧ ¬ RemovedByAck state.subscriptionId q h
  removed : ∀ q, RemovedByAck state.subscriptionId q h → q < firstPending state

theorem Losses.other {h : ServiceHistory V} {state : SubscriptionState V} {event : ServiceEvent V}
    (other : ¬ Concerns state.subscriptionId event) (losses : Losses h state) : Losses (event :: h) state where
  pending := by
    simp only [lastEvicted_other other, evictedSinceReport_other other, ackedSinceEviction_other other]
    exact losses.pending
  evicted q evicted := by
    rw [removedByAck_other other]
    exact losses.evicted q ((evictedIn_other other q).mp evicted)
  removed q removed := losses.removed q ((removedByAck_other other q).mp removed)

theorem Losses.others {h : ServiceHistory V} {state : SubscriptionState V} {t : ServiceTag V} {ns : List (Note V)}
    (others : ∀ n ∈ ns, ¬ Concerns state.subscriptionId (.noted t n : ServiceEvent V)) (losses : Losses h state) :
    Losses (noted t ns ++ h) state := by
  induction ns generalizing h with
  | nil => exact losses
  | cons n ns ih =>
      rw [noted_cons]
      exact ih (fun m inside => others m (List.mem_cons_of_mem _ inside)) (losses.other (others n List.mem_cons_self))

theorem Losses.of_same {h : ServiceHistory V} {state next : SubscriptionState V}
    (same : SameQueue state next) (losses : Losses h state) : Losses h next := by
  rw [same]
  exact ⟨losses.1, losses.2, losses.3⟩

theorem Losses.fresh {h : ServiceHistory V} {id : SubscriptionId}
    (unknown : ∀ event ∈ h, ¬ Concerns id event) (clientId displayName : Option String) (now : Nat) :
    Losses h (newSubscription id clientId displayName now) := by
  induction h with
  | nil => exact ⟨.inl ⟨rfl, rfl, rfl⟩, fun q ⟨_, inside⟩ => (List.not_mem_nil inside).elim, fun _ => False.elim⟩
  | cons event h ih =>
      refine Losses.other (unknown event List.mem_cons_self) (ih fun other inside => ?_)
      exact unknown other (List.mem_cons_of_mem _ inside)

/-! ## Queue operations -/

theorem firstPending_push_room {state : SubscriptionState V} {update : SubscriptionUpdate V}
    (room : overflowing settings state = none) (next : update.sequenceNumber = state.sequenceNumber + 1) :
    firstPending (pushUpdate settings state update) = firstPending state := by
  simp only [pushUpdate, room, next, firstPending, List.length_append, List.length_singleton]
  omega

theorem firstPending_push_full {state : SubscriptionState V} {update oldest : SubscriptionUpdate V}
    (contiguous : Contiguous settings state) (full : overflowing settings state = some oldest)
    (next : update.sequenceNumber = state.sequenceNumber + 1) :
    oldest.sequenceNumber = firstPending state ∧
      firstPending (pushUpdate settings state update) = firstPending state + 1 := by
  obtain ⟨rest, queue⟩ := overflowing_some full
  have numbers := contiguous.numbers
  have issued := contiguous.issued
  rw [queue, List.map_cons, List.length_cons, List.range'_succ, List.cons.injEq] at numbers
  rw [queue, List.length_cons] at issued
  refine ⟨numbers.1, ?_⟩
  simp only [pushUpdate, full, next, firstPending, queue, List.tail_cons, List.length_append,
    List.length_cons, List.length_nil]
  omega

theorem Losses.push_room {h : ServiceHistory V} {state : SubscriptionState V} {update : SubscriptionUpdate V}
    (losses : Losses h state) (room : overflowing settings state = none)
    (next : update.sequenceNumber = state.sequenceNumber + 1) : Losses h (pushUpdate settings state update) := by
  have first := firstPending_push_room room next
  have same : pushUpdate settings state update =
      { pushUpdate settings state update with
        subscriptionId := state.subscriptionId
        droppedFromSequence := state.droppedFromSequence
        droppedToSequence := state.droppedToSequence } := by
    simp only [pushUpdate, room]
  refine ⟨?_, ?_, ?_⟩
  · rw [first, same]
    exact losses.pending
  · rw [first, same]
    exact losses.evicted
  · rw [first, same]
    exact losses.removed

/-- An eviction that joins the pending interval follows right on it. -/
theorem Losses.push_full {h : ServiceHistory V} {state : SubscriptionState V} {update oldest : SubscriptionUpdate V}
    (losses : Losses h state) (contiguous : Contiguous settings state)
    (full : overflowing settings state = some oldest) (next : update.sequenceNumber = state.sequenceNumber + 1)
    (t : ServiceTag V) (joins : JoinsEviction (.noted t (.evicted state.subscriptionId oldest.sequenceNumber)) h) :
    Losses (.noted t (.evicted state.subscriptionId oldest.sequenceNumber) :: h) (pushUpdate settings state update) := by
  obtain ⟨number, first⟩ := firstPending_push_full contiguous full next
  rw [number] at joins ⊢
  have owner : (pushUpdate settings state update).subscriptionId = state.subscriptionId := by
    simp only [pushUpdate, full]
  have fields : (pushUpdate settings state update).droppedFromSequence =
        state.droppedFromSequence.or (some (firstPending state)) ∧
      (pushUpdate settings state update).droppedToSequence = some (firstPending state) := by
    simp only [pushUpdate, full, number, and_self]
  refine ⟨Or.inr ?_, ?_, ?_⟩
  · rw [first, owner, fields.1, fields.2]
    simp only [lastEvicted, if_true, EvictedSinceReport, true_and]
    rcases losses.pending with ⟨none_, _, _⟩ | ⟨a, b, from_, _, last, all, end_⟩
    · rw [none_]
      refine ⟨firstPending state, firstPending state, rfl, rfl, rfl, fun q low high => ?_, Or.inl rfl⟩
      exact Or.inl (Nat.le_antisymm low high)
    · have follows : firstPending state = b + 1 := end_.resolve_right (joins b last)
      rw [from_]
      refine ⟨a, firstPending state, rfl, rfl, rfl, fun q low high => ?_, Or.inl rfl⟩
      rcases Nat.lt_or_ge b q with above | within
      · exact Or.inl (by omega)
      · exact Or.inr (all q low within)
  · rw [first, owner]
    rintro q ⟨t', inside⟩
    rcases List.mem_cons.mp inside with same | before
    · cases same
      exact ⟨Nat.lt_succ_self _, fun removed => Nat.lt_irrefl _ (losses.removed _ removed)⟩
    · obtain ⟨less, kept⟩ := losses.evicted q ⟨t', before⟩
      exact ⟨Nat.lt_succ_of_lt less, kept⟩
  · rw [first, owner]
    exact fun q removed => Nat.lt_succ_of_lt (losses.removed q removed)

theorem Losses.append {h : ServiceHistory V} {state : SubscriptionState V} (losses : Losses h state)
    (contiguous : Contiguous settings state) (t : ServiceTag V) (now : Nat) (nodeId : String) (value : V)
    (joins : Throughout JoinsEviction (noted t (appendUpdate settings now state nodeId value).2 ++ h)) :
    Losses (noted t (appendUpdate settings now state nodeId value).2 ++ h)
      (appendUpdate settings now state nodeId value).1 := by
  simp only [appendUpdate] at joins ⊢
  split at joins
  · rename_i current
    rw [if_pos current]
    exact losses
  · rename_i fresh
    rw [if_neg fresh]
    unfold pushNotes at joins ⊢
    cases full : overflowing settings state with
    | none => exact Losses.other id (losses.push_room full rfl)
    | some oldest =>
        simp only [full] at joins
        rw [noted_cons] at joins ⊢
        have joining := (throughout_cons.mp joins.append_right).1
        exact Losses.other id (losses.push_full contiguous full rfl t joining)

/-- How far an acknowledgement moves the first number of the queue. -/
theorem firstPending_acknowledge {state : SubscriptionState V} (contiguous : Contiguous settings state) (v : Int) :
    firstPending state ≤ firstPending (acknowledge state (some v)) ∧
    (∀ q, Covers v state.sequenceNumber q → q < firstPending (acknowledge state (some v))) ∧
    (∀ q, firstPending state ≤ q → q < firstPending (acknowledge state (some v)) →
      Covers v state.sequenceNumber q) := by
  have issued := contiguous.issued
  have low : firstPending state ≤ state.sequenceNumber + 1 := Nat.sub_le _ _
  simp only [acknowledge]
  split_ifs with clear within
  · have empty : firstPending ({ state with updates := [] } : SubscriptionState V) = state.sequenceNumber + 1 := rfl
    rw [empty]
    refine ⟨low, fun q covers => ?_, fun q _ moved => Or.inl ⟨clear, by omega⟩⟩
    rcases covers with ⟨_, le⟩ | ⟨pos, _, _⟩ <;> omega
  · obtain ⟨n, rfl⟩ := Int.eq_ofNat_of_zero_le within.1
    have le : n ≤ state.sequenceNumber := Int.ofNat_le.mp within.2
    simp only [Int.ofNat_lt]
    rw [contiguous.firstPending_filter le]
    refine ⟨Nat.le_max_left _ _, fun q covers => ?_, fun q _ moved => Or.inr ⟨within.1, within.2, ?_⟩⟩
    · rcases covers with ⟨minus, _⟩ | ⟨_, _, below⟩
      · exact absurd minus clear
      · have := Int.ofNat_le.mp below
        omega
    · exact Int.ofNat_le.mpr (by omega)
  · refine ⟨Nat.le_refl _, fun q covers => ?_, fun q above moved => absurd moved (Nat.not_lt.mpr above)⟩
    rcases covers with ⟨minus, _⟩ | ⟨pos, top, _⟩
    · exact absurd minus clear
    · exact absurd ⟨pos, top⟩ within

theorem Losses.acknowledge {h : ServiceHistory V} {state : SubscriptionState V} (losses : Losses h state)
    (contiguous : Contiguous settings state) (t : ServiceTag V) (value : Option Int) :
    Losses
      (noted t (value.map fun v => Note.acknowledged state.subscriptionId v state.sequenceNumber).toList ++ h)
      (Subscriptions.acknowledge state value) := by
  cases value with
  | none => exact losses
  | some v =>
      obtain ⟨grows, covered, moved⟩ := firstPending_acknowledge contiguous v
      have fields : (Subscriptions.acknowledge state (some v)).subscriptionId = state.subscriptionId ∧
          (Subscriptions.acknowledge state (some v)).droppedFromSequence = state.droppedFromSequence ∧
          (Subscriptions.acknowledge state (some v)).droppedToSequence = state.droppedToSequence := by
        simp only [Subscriptions.acknowledge]
        split_ifs
        · exact ⟨rfl, rfl, rfl⟩
        · exact ⟨rfl, rfl, rfl⟩
        · exact ⟨rfl, rfl, rfl⟩
      obtain ⟨owner, from_, to_⟩ := fields
      generalize Subscriptions.acknowledge state (some v) = next at *
      have notes : (noted t [Note.acknowledged state.subscriptionId v state.sequenceNumber] ++ h :
          ServiceHistory V) = .noted t (.acknowledged state.subscriptionId v state.sequenceNumber) :: h := rfl
      simp only [Option.map_some, Option.toList_some, notes]
      refine ⟨?_, ?_, ?_⟩
      · rw [owner, from_, to_]
        simp only [lastEvicted, EvictedSinceReport, AckedSinceEviction, true_and]
        rcases losses.pending with absent | ⟨a, b, first, last, evicted, all, end_⟩
        · exact Or.inl absent
        · refine Or.inr ⟨a, b, first, last, evicted, all, ?_⟩
          rcases end_ with follows | acked
          · rcases Nat.eq_or_lt_of_le grows with same | further
            · exact Or.inl (same.symm.trans follows)
            · exact Or.inr (Or.inl (follows ▸ moved _ (Nat.le_refl _) further))
          · exact Or.inr (Or.inr acked)
      · rw [owner]
        rintro q ⟨t', inside⟩
        have before : EvictedIn state.subscriptionId q h :=
          ⟨t', (List.mem_cons.mp inside).resolve_left fun same => by cases same⟩
        obtain ⟨less, kept⟩ := losses.evicted q before
        refine ⟨Nat.lt_of_lt_of_le less grows, ?_⟩
        rintro (⟨_, _, never⟩ | removed)
        · exact never before
        · exact kept removed
      · rw [owner]
        rintro q (⟨_, covers, _⟩ | removed)
        · exact covered q covers
        · exact Nat.lt_of_lt_of_le (losses.removed q removed) grows

/-- The report is exact, and starts a new interval. -/
theorem Losses.report {h : ServiceHistory V} {state : SubscriptionState V} (losses : Losses h state)
    (t : ServiceTag V) :
    ExactReport (.noted t (.reported state.subscriptionId (syncResult state) state.sequenceNumber)) h ∧
    Losses (.noted t (.reported state.subscriptionId (syncResult state) state.sequenceNumber) :: h)
      { state with droppedFromSequence := none, droppedToSequence := none } := by
  refine ⟨?_, Or.inl ⟨rfl, rfl, if_pos rfl⟩, ?_, losses.removed⟩
  · rintro q ⟨a, b, from_, to_, low, high⟩
    rcases losses.pending with ⟨none_, _⟩ | ⟨a', b', first, last, _, all, _⟩
    · cases none_.symm.trans from_
    · cases first.symm.trans from_
      cases last.symm.trans to_
      have evicted := all q low high
      exact ⟨evicted, (losses.evicted q (evictedSinceReport_in evicted)).2⟩
  · rintro q ⟨t', inside⟩
    exact losses.evicted q ⟨t', (List.mem_cons.mp inside).resolve_left fun same => by cases same⟩

/-! ## Whole runs -/

/-- A run of queue operations on one subscription, as long as evictions join. -/
theorem QueueRun.losses {state last : SubscriptionState V} {ns : List (Note V)}
    (run : QueueRun settings A state ns last) {h : ServiceHistory V} (t : ServiceTag V)
    (ledger : Ledger settings h state) (losses : Losses h state) (exact_ : Throughout ExactReport h)
    (joins : Throughout JoinsEviction (noted t ns ++ h)) :
    Losses (noted t ns ++ h) last ∧ Throughout ExactReport (noted t ns ++ h) := by
  induction run generalizing h with
  | refl state => exact ⟨losses, exact_⟩
  | quiet same _ ih => exact ih (ledger.of_same same) (losses.of_same same) exact_ joins
  | mark n plain _ ih =>
      rw [noted_cons] at joins ⊢
      have other : ∀ id, ¬ Concerns id (.noted t n : ServiceEvent V) := by
        intro id
        cases n <;> first | exact plain.elim | exact fun none_ => none_
      refine ih (ledger.mono fun _ => List.mem_cons_of_mem _) (losses.other (other _)) ?_ joins
      refine throughout_cons.mpr ⟨?_, exact_⟩
      cases n <;> first | exact plain.elim | trivial
  | @append state last ns now nodeId value allowed _ ih =>
      rw [noted_append] at joins ⊢
      have first : Throughout JoinsEviction (noted t (appendUpdate settings now state nodeId value).2 ++ h) :=
        joins.append_right
      refine ih (ledger.append t now nodeId value) (losses.append ledger.contiguous t now nodeId value first)
        (exact_.noted fun n inside before => ?_) joins
      simp only [appendUpdate] at inside
      split at inside
      · cases inside
      · unfold pushNotes at inside
        split at inside <;> simp only [List.mem_cons, List.not_mem_nil, or_false] at inside
        · rw [inside]
          trivial
        · rcases inside with rfl | rfl <;> trivial
  | acknowledge value _ ih =>
      rw [noted_append] at joins ⊢
      refine ih (ledger.acknowledge t value) (losses.acknowledge ledger.contiguous t value)
        (exact_.noted fun n inside before => ?_) joins
      obtain ⟨v, _, rfl⟩ := Option.map_eq_some_iff.mp (Option.mem_toList.mp inside)
      trivial
  | report _ ih =>
      rw [noted_cons] at joins ⊢
      obtain ⟨here, next⟩ := losses.report t
      exact ih (ledger.report t) next (throughout_cons.mpr ⟨here, exact_⟩) joins

/-- The notes of a queue run concern its own subscription only. -/
theorem QueueRun.concerns {state last : SubscriptionState V} {ns : List (Note V)}
    (run : QueueRun settings A state ns last) (t : ServiceTag V) {id : SubscriptionId} :
    ∀ n ∈ ns, Concerns id (.noted t n : ServiceEvent V) → id = state.subscriptionId := by
  induction run with
  | refl state => exact fun _ => nofun
  | quiet same _ ih =>
      intro n inside concerns
      rw [ih n inside concerns]
      exact same.sameMembership.subscriptionId
  | mark n plain _ ih =>
      intro m inside concerns
      rcases List.mem_cons.mp inside with rfl | later
      · cases m <;> first | exact plain.elim | exact concerns.elim
      · exact ih m later concerns
  | @append state last ns now nodeId value allowed _ ih =>
      intro n inside concerns
      rcases List.mem_append.mp inside with here | later
      · simp only [appendUpdate] at here
        split at here
        · cases here
        · unfold pushNotes at here
          split at here
          · rw [List.mem_singleton.mp here] at concerns
            exact concerns.elim
          · rcases List.mem_cons.mp here with rfl | pushed
            · exact concerns.symm
            · rw [List.mem_singleton.mp pushed] at concerns
              exact concerns.elim
      · rw [ih n later concerns]
        exact (appendUpdate_sameMembership now state nodeId value).subscriptionId
  | @acknowledge state last ns value _ ih =>
      intro n inside concerns
      rcases List.mem_append.mp inside with here | later
      · obtain ⟨v, _, rfl⟩ := Option.map_eq_some_iff.mp (Option.mem_toList.mp here)
        exact concerns.symm
      · rw [ih n later concerns]
        exact (acknowledge_sameMembership state value).subscriptionId
  | report _ ih =>
      intro n inside concerns
      rcases List.mem_cons.mp inside with rfl | later
      · exact concerns.symm
      · exact ih n later concerns

/-- The losses of all subscriptions, as long as evictions join. -/
structure LossBooks (settings : Settings V) (s : ServiceState V) (h : ServiceHistory V) : Prop where
  keys : WellKeyed s
  ledger : ∀ {id state}, s.subscriptions.get? id = some state → Ledger settings h state
  reports : Throughout Complete h
  known : ∀ id, ∀ event ∈ h, Concerns id event → id < s.nextSubscription
  losses : Throughout JoinsEviction h →
    (∀ {id state}, s.subscriptions.get? id = some state → Losses h state) ∧ Throughout ExactReport h

theorem LossBooks.cons {s : ServiceState V} {h : ServiceHistory V} {event : ServiceEvent V}
    (books : LossBooks settings s h) (plain : ∀ t n, event ≠ .noted t n) : LossBooks settings s (event :: h) where
  keys := books.keys
  ledger found := (books.ledger found).mono fun _ => List.mem_cons_of_mem _
  reports := by
    refine throughout_cons.mpr ⟨?_, books.reports⟩
    cases event with
    | noted t n => exact absurd rfl (plain t n)
    | _ => trivial
  known id other inside concerns := by
    rcases List.mem_cons.mp inside with rfl | before
    · cases other with
      | noted t n => exact absurd rfl (plain t n)
      | _ => exact concerns.elim
    · exact books.known id other before concerns
  losses joins := by
    have other : ∀ id, ¬ Concerns id event := by
      intro id
      cases event with
      | noted t n => exact absurd rfl (plain t n)
      | _ => exact fun none_ => none_
    obtain ⟨held, exact_⟩ := books.losses (throughout_cons.mp joins).2
    refine ⟨fun found => (held found).other (other _), throughout_cons.mpr ⟨?_, exact_⟩⟩
    cases event with
    | noted t n => exact absurd rfl (plain t n)
    | _ => trivial

theorem ServiceStep.nextSubscription_le {allowed : (Dict String Int → Dict String Int) → BuildResult → Prop}
    {s s' : ServiceState V} {ns : List (Note V)} (keys : WellKeyed s)
    (step : ServiceStep settings A allowed s ns s') : s.nextSubscription ≤ s'.nextSubscription := by
  cases step with
  | routine step =>
      cases step with
      | upstream same => exact Nat.le_of_eq same.nextSubscription.symm
      | _ => exact Nat.le_refl _
  | create => exact Nat.le_succ _
  | membership clientId id change model fuel may =>
      rcases membershipSection_cases settings clientId id change model fuel s with
        ⟨result, same, _⟩ | ⟨state, resolution, found, resolved, same⟩
      · rw [same]
      · rw [same]
        exact Nat.le_refl _
  | delete clientId ids => rw [(deleteSection_removal keys clientId ids).rest]
  | expire started => rw [(expireSection_removal keys started).rest]
  | acquire nodeId id => rw [(acquireSection_outside nodeId id s).nextSubscription]
  | release nodeId id => rw [(releaseSection_outside nodeId id s).nextSubscription]

theorem lossBooks_act {allowed : (Dict String Int → Dict String Int) → BuildResult → Prop} {t : ServiceTag V}
    {m : ServiceMemory V} {s s' : ServiceState V} {h : ServiceHistory V} {ns : List (Note V)}
    (books : LossBooks settings s h) (step : CallStep settings allowed m s ns s') :
    LossBooks settings s' (noted t ns ++ h) := by
  have keys := step.wellKeyed books.keys
  have grows := step.nextSubscription_le books.keys
  rcases step.queue_or_descends books.keys with ⟨id, state, next, found, run, rfl⟩ | ⟨silent, descends⟩
  · have owner := books.keys.keyed found
    obtain ⟨ledger, reports⟩ := run.ledger t (books.ledger found) books.reports
    have apart {other : SubscriptionId} (different : other ≠ id) :
        ∀ n ∈ ns, ¬ Concerns other (.noted t n : ServiceEvent V) := by
      intro n inside concerns
      exact different ((run.concerns t n inside concerns).trans owner)
    refine ⟨keys, fun {other state'} there => ?_, reports, fun other event inside concerns => ?_, fun joins => ?_⟩
    · rw [get?_setSubscription] at there
      split_ifs at there with here
      · cases there
        exact ledger
      · exact (books.ledger there).mono fun _ => List.mem_append_right _
    · rcases List.mem_append.mp inside with new | before
      · obtain ⟨n, here, rfl⟩ := mem_noted.mp new
        rw [(run.concerns t n here concerns).trans owner]
        exact books.keys.fresh found
      · exact books.known other event before concerns
    · obtain ⟨held, exact_⟩ := books.losses joins.append_right
      obtain ⟨last, reported⟩ := run.losses t (books.ledger found) (held found) exact_ joins
      refine ⟨fun {other state'} there => ?_, reported⟩
      rw [get?_setSubscription] at there
      split_ifs at there with here
      · cases there
        exact last
      · refine (held there).others ?_
        rw [books.keys.keyed there]
        exact apart here
  · have plain : ∀ id, ∀ n ∈ ns, ¬ Concerns id (.noted t n : ServiceEvent V) := by
      intro id n inside concerns
      have quiet := silent n inside
      cases n <;> first | exact quiet.elim | exact concerns.elim
    have reports : Throughout Complete (noted t ns ++ h) := by
      refine books.reports.noted fun n inside before => ?_
      have quiet := silent n inside
      cases n <;> trivial
    refine ⟨keys, fun {other state'} there => ?_, reports, fun other event inside concerns => ?_, fun joins => ?_⟩
    · rcases descends other state' there with ⟨state, before, inherits⟩ | ⟨_, _, clientId, name, now, rfl⟩
      · exact (inherits.ledger (books.ledger before)).mono fun _ => List.mem_append_right _
      · exact .fresh _ other clientId name now
    · rcases List.mem_append.mp inside with new | before
      · obtain ⟨n, here, rfl⟩ := mem_noted.mp new
        exact absurd concerns (plain other n here)
      · exact Nat.lt_of_lt_of_le (books.known other event before concerns) grows
    · obtain ⟨held, exact_⟩ := books.losses joins.append_right
      refine ⟨fun {other state'} there => ?_, exact_.noted fun n inside before => ?_⟩
      · refine Losses.others (plain _) ?_
        rcases descends other state' there with ⟨state, before, inherits⟩ | ⟨fresh, _, clientId, name, now, rfl⟩
        · cases inherits with
          | same => exact held before
          | remonitored => exact ⟨(held before).1, (held before).2, (held before).3⟩
        · refine .fresh (fun event inside concerns => ?_) clientId name now
          exact Nat.lt_irrefl _ (fresh ▸ books.known other event inside concerns)
      · have quiet := silent n inside
        cases n <;> trivial

theorem reachable_lossBooks {around : Surroundings V} {c : ServiceConfig V}
    (h : ServiceReachable settings around c) : LossBooks settings c.state c.history := by
  have kept : Kept (fun _ => CallStep settings anyChange) (LossBooks settings) :=
    { act := fun _ _ _ _ _ _ books _ step => lossBooks_act books step
      spawned := fun _ _ _ books => books.cons fun _ _ => nofun
      requested := fun _ _ _ _ books => books.cons fun _ _ => nofun
      replied := fun _ _ _ _ _ books => books.cons fun _ _ => nofun }
  have start : LossBooks settings (.empty : ServiceState V) [] :=
    ⟨.empty, nofun, .nil, fun _ _ => nofun, fun _ => ⟨nofun, .nil⟩⟩
  refine reachable_history start (fun v call holds _ => ?_) h
  exact kept.call (program_within settings anyChange call (changesAllowed_any call))
    (fun _ _ _ books => books.cons fun _ _ => nofun) holds

/-- In every run in which no acknowledgement removes updates between two evictions
of one report, each reported interval holds evicted numbers only, and none that
an acknowledgement removed. -/
theorem reports_exact {c : ServiceConfig V} (h : ServiceReachable settings .any c)
    (joins : Throughout JoinsEviction c.history) : Throughout ExactReport c.history :=
  ((reachable_lossBooks h).losses joins).2

theorem ackedSinceEviction_in {id : SubscriptionId} {q : Nat} {h : ServiceHistory V}
    (acked : AckedSinceEviction id q h) : ∃ t v n, Event.noted t (.acknowledged id v n) ∈ h := by
  induction h with
  | nil => exact acked.elim
  | cons event h ih =>
      have later (rest : AckedSinceEviction id q h) : ∃ t v n, Event.noted t (.acknowledged id v n) ∈ event :: h := by
        obtain ⟨t, v, n, inside⟩ := ih rest
        exact ⟨t, v, n, List.mem_cons_of_mem _ inside⟩
      cases event with
      | noted t n =>
          cases n with
          | acknowledged other v n =>
              rcases acked with ⟨rfl, _⟩ | rest
              · exact ⟨t, v, n, List.mem_cons_self⟩
              · exact later rest
          | evicted => exact later acked.2
          | _ => exact later acked
      | _ => exact later acked

/-- Without acknowledgements every eviction joins. -/
theorem joins_of_unacknowledged {h : ServiceHistory V}
    (none_acks : ∀ t id v n, Event.noted t (.acknowledged id v n) ∉ h) : Throughout JoinsEviction h := by
  rintro later event earlier rfl
  unfold JoinsEviction
  split
  · intro b _ acked
    obtain ⟨t, v, n, inside⟩ := ackedSinceEviction_in acked
    exact none_acks t _ v n (List.mem_append_right _ (List.mem_cons_of_mem _ inside))
  · trivial

def isAcknowledgement : ServiceEvent V → Bool
  | .noted _ (.acknowledged ..) => true
  | _ => false

theorem reports_exact_overflow : ∃ c, smallRun overflowThenSync = some c ∧
    Throughout JoinsEviction c.history ∧ Throughout ExactReport c.history := by
  let c := (smallRun overflowThenSync).get rfl
  have done : smallRun overflowThenSync = some c := rfl
  have unacknowledged : c.history.all (fun event => !isAcknowledgement event) = true := rfl
  have joins : Throughout JoinsEviction c.history := joins_of_unacknowledged fun _ _ _ _ inside =>
    absurd (List.all_eq_true.mp unacknowledged _ inside) Bool.false_ne_true
  exact ⟨c, done, joins, reports_exact (smallRun_reachable done) joins⟩

/-- A subscription monitors both inlets in one native bin. -/
def bothSubscribed : List (Decision Int) :=
  [.spawn (.createSubscription (some "c") none), .grant .main,
    .spawn (.registerItems (some "c") 0 ["ns=2;s=abc", "ns=2;s=ABC"] 1 ModelBuilder.inlets 4),
    .grant .main, .grant .main] ++ admitted ++
    [.grant .main, .reply 0 obliging, .grant .admission, .grant .main, .reply 0 obliging, .grant .main,
      .grant .main]

/-- A sync that refreshes is waiting for its values while three notifications
overflow the queue; a second sync acknowledges the middle one, and the refresh
appends before that sync reports. -/
def acknowledgedInBetween : List (Decision Int) :=
  bothSubscribed ++
    [.spawn (.sync (some "c") 0 none false), .grant .main, .grant .main] ++
    notified 5 ++ notified 6 ++ notified 7 ++
    [.spawn (.sync (some "c") 0 (some 2) false), .reply 0 obliging, .grant .main, .grant .main, .grant .main]

theorem RemovedByAck.append {id : SubscriptionId} {q : Nat} {h : ServiceHistory V} (more : ServiceHistory V)
    (removed : RemovedByAck id q h) : RemovedByAck id q (more ++ h) := by
  induction more with
  | nil => exact removed
  | cons event more ih =>
      cases event with
      | noted t n =>
          cases n with
          | acknowledged => exact Or.inr ih
          | _ => exact ih
      | _ => exact ih

/-- The event is the eviction of the number. -/
def evictsNumber (id : SubscriptionId) (q : Nat) : ServiceEvent V → Bool
  | .noted _ (.evicted other n) => decide (other = id ∧ n = q)
  | _ => false

theorem not_evictedIn {id : SubscriptionId} {q : Nat} {h : ServiceHistory V}
    (none_evicts : h.all (fun event => !evictsNumber id q event) = true) : ¬ EvictedIn id q h := by
  rintro ⟨t, inside⟩
  have quiet := List.all_eq_true.mp none_evicts _ inside
  simp only [evictsNumber, and_self, decide_true, Bool.not_true, Bool.false_eq_true] at quiet

/-- The report of the second sync holds the number 2, which it acknowledged. -/
theorem reports_inexact : ∃ c : ServiceConfig Int, ServiceReachable smallServer .any c ∧
    ¬ Throughout ExactReport c.history := by
  let c := (smallRun acknowledgedInBetween).get rfl
  have done : smallRun acknowledgedInBetween = some c := rfl
  refine ⟨c, smallRun_reachable done, fun all => ?_⟩
  have unevicted : (c.history.drop 6).all (fun event => !evictsNumber 0 2 event) = true := rfl
  have covers : Covers 2 3 2 := Or.inr ⟨by decide, by decide, by decide⟩
  have removed : RemovedByAck 0 2 (c.history.drop 5) := Or.inl ⟨rfl, covers, not_evictedIn unevicted⟩
  exact (all [_] _ _ rfl 2 ⟨1, 3, rfl, rfl, by decide, by decide⟩).2 (removed.append [_, _, _])

end I3x.Subscriptions

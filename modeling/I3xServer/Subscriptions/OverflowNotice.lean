import I3xServer.Subscriptions.LossReport

/-!
# The overflow notice and the client

An update that overflowed before the client was shown it is owed to the client:
the next sync request that succeeds has to report it. A sync request does, as long
as no other sync has cleared the notice in between; the one that opens a stream
clears it and tells nobody.
-/
namespace I3x.Subscriptions
open Container Coroutine
variable {V : Type} {settings : Settings V} {A : String → V → Prop}

def SyncResponse.updates : SyncResponse V → List (SubscriptionUpdate V)
  | .error _ => []
  | .success updates => updates
  | .dropped updates _ _ => updates

def SyncResponse.Success : SyncResponse V → Prop
  | .error _ => False
  | _ => True

/-- The call is a request to `POST /subscriptions/sync`. -/
def Call.PostsSync : Call V → Prop
  | .syncSubscription .. => True
  | _ => False

/-- The event shows the number to the client, in a stream event or in the answer to
a sync request. -/
def Shows (id : SubscriptionId) (q : Nat) : ServiceEvent V → Prop
  | .requested _ (.emit other (.updates updates)) => other = id ∧ ∃ update ∈ updates, update.sequenceNumber = q
  | .returned ⟨_, .syncSubscription _ other _⟩ (.answered response) =>
      other = id ∧ ∃ update ∈ response.updates, update.sequenceNumber = q
  | _ => False

/-- The event is the successful answer to a sync request on the subscription. -/
def Succeeds (id : SubscriptionId) : ServiceEvent V → Prop
  | .returned ⟨_, .syncSubscription _ other _⟩ (.answered response) => other = id ∧ response.Success
  | _ => False

/-- The number was evicted before it was shown, and no sync request has succeeded since. -/
def Owed (id : SubscriptionId) (q : Nat) (h : ServiceHistory V) : Prop :=
  ∃ later t earlier, h = later ++ .noted t (.evicted id q) :: earlier ∧
    (∀ event ∈ earlier, ¬ Shows id q event) ∧ ∀ event ∈ later, ¬ Succeeds id event

/-- A sync request that succeeds reports every owed number as dropped. -/
def AnswersLoss : ServiceEvent V → ServiceHistory V → Prop
  | .returned ⟨_, .syncSubscription _ id _⟩ (.answered response), earlier =>
      response.Success → ∀ q, Owed id q earlier →
        response.status = 206 ∧ ∃ updates a b, response = .dropped updates (some a) (some b) ∧ a ≤ q ∧ q ≤ b
  | _, _ => True

/-- A report to anyone but a sync request finds no owed number. -/
def SparesNotice : ServiceEvent V → ServiceHistory V → Prop
  | .noted t (.reported id _ _), earlier => ¬ t.call.PostsSync → ∀ q, ¬ Owed id q earlier
  | _, _ => True

theorem owed_cons {id : SubscriptionId} {q : Nat} {event : ServiceEvent V} {h : ServiceHistory V}
    (owed : Owed id q (event :: h)) :
    (∃ t, event = .noted t (.evicted id q)) ∨ ¬ Succeeds id event ∧ Owed id q h := by
  obtain ⟨later, t, earlier, same, unseen, unanswered⟩ := owed
  cases later with
  | nil =>
      cases same
      exact .inl ⟨t, rfl⟩
  | cons first later =>
      cases same
      exact .inr ⟨unanswered _ List.mem_cons_self,
        later, t, earlier, rfl, unseen, fun other inside => unanswered other (List.mem_cons_of_mem _ inside)⟩

theorem Owed.evicted {id : SubscriptionId} {q : Nat} {h : ServiceHistory V}
    (owed : Owed id q h) : EvictedIn id q h := by
  obtain ⟨later, t, earlier, rfl, _⟩ := owed
  exact ⟨t, List.mem_append_right _ List.mem_cons_self⟩

/-! ## Queue operations -/

/-- Every owed number lies in the interval that the next report gives. -/
def Noticed (h : ServiceHistory V) (state : SubscriptionState V) : Prop :=
  ∀ q, Owed state.subscriptionId q h → InRange state.droppedFromSequence state.droppedToSequence q

theorem Noticed.other {h : ServiceHistory V} {state : SubscriptionState V} {event : ServiceEvent V}
    (other : ∀ t q, event ≠ .noted t (.evicted state.subscriptionId q)) (noticed : Noticed h state) :
    Noticed (event :: h) state := by
  intro q owed
  rcases owed_cons owed with ⟨t, same⟩ | ⟨_, before⟩
  · exact absurd same (other t q)
  · exact noticed q before

theorem Noticed.others {h : ServiceHistory V} {state : SubscriptionState V} {t : ServiceTag V} {ns : List (Note V)}
    (others : ∀ n ∈ ns, ∀ q, n ≠ .evicted state.subscriptionId q) (noticed : Noticed h state) :
    Noticed (noted t ns ++ h) state := by
  induction ns generalizing h with
  | nil => exact noticed
  | cons n ns ih =>
      rw [noted_cons]
      refine ih (fun m inside => others m (List.mem_cons_of_mem _ inside)) (noticed.other fun u q same => ?_)
      cases same
      exact others _ List.mem_cons_self q rfl

theorem Noticed.of_same {h : ServiceHistory V} {state next : SubscriptionState V} (same : SameQueue state next)
    (noticed : Noticed h state) : Noticed h next := by
  rw [same]
  exact noticed

/-- An eviction extends the interval to the number it evicts. -/
theorem Noticed.push_full {h : ServiceHistory V} {state : SubscriptionState V}
    {update oldest : SubscriptionUpdate V} (noticed : Noticed h state) (ledger : Ledger settings h state)
    (full : overflowing settings state = some oldest) (next : update.sequenceNumber = state.sequenceNumber + 1)
    (t : ServiceTag V) :
    Noticed (.noted t (.evicted state.subscriptionId oldest.sequenceNumber) :: h)
      (pushUpdate settings state update) := by
  obtain ⟨number, _⟩ := firstPending_push_full ledger.contiguous full next
  have pushed : (pushUpdate settings state update).subscriptionId = state.subscriptionId ∧
      (pushUpdate settings state update).droppedFromSequence =
        state.droppedFromSequence.or (some oldest.sequenceNumber) ∧
      (pushUpdate settings state update).droppedToSequence = some oldest.sequenceNumber := by
    simp only [pushUpdate, full, and_self]
  obtain ⟨owner, from_, to_⟩ := pushed
  rw [number] at from_ to_ ⊢
  intro q owed
  rw [owner] at owed
  rw [from_, to_]
  rcases owed_cons owed with ⟨_, same⟩ | ⟨_, before⟩
  · cases same
    rcases ledger.dropped with ⟨none_, _⟩ | ⟨a, b, first, _, le, below⟩
    · exact ⟨_, _, by rw [none_]; rfl, rfl, Nat.le_refl _, Nat.le_refl _⟩
    · exact ⟨a, _, by rw [first]; rfl, rfl, by omega, Nat.le_refl _⟩
  · obtain ⟨a, b, first, last, low, high⟩ := noticed q before
    rcases ledger.dropped with ⟨none_, _⟩ | ⟨_, b', _, last', _, below⟩
    · cases none_.symm.trans first
    · cases last.symm.trans last'
      exact ⟨a, _, by rw [first]; rfl, rfl, low, by omega⟩

theorem Noticed.append {h : ServiceHistory V} {state : SubscriptionState V} (noticed : Noticed h state)
    (ledger : Ledger settings h state) (t : ServiceTag V) (now : Nat) (nodeId : String) (value : V) :
    Noticed (noted t (appendUpdate settings now state nodeId value).2 ++ h)
      (appendUpdate settings now state nodeId value).1 := by
  simp only [appendUpdate]
  split
  · exact noticed
  · unfold pushNotes
    cases full : overflowing settings state with
    | none =>
        refine Noticed.other (fun _ _ same => by cases same) ?_
        simp only [pushUpdate, full]
        exact noticed
    | some oldest => exact Noticed.other (fun _ _ same => by cases same) (noticed.push_full ledger full rfl t)

theorem Noticed.acknowledge {h : ServiceHistory V} {state : SubscriptionState V} (noticed : Noticed h state)
    (t : ServiceTag V) (value : Option Int) :
    Noticed
      (noted t (value.map fun v => Note.acknowledged state.subscriptionId v state.sequenceNumber).toList ++ h)
      (Subscriptions.acknowledge state value) := by
  cases value with
  | none => exact noticed
  | some v =>
      refine Noticed.other (fun _ _ => nofun) ?_
      simp only [Subscriptions.acknowledge]
      split_ifs
      · exact noticed
      · exact noticed
      · exact noticed

def Note.IsReport : Note V → Prop
  | .reported .. => True
  | _ => False

theorem QueueRun.noticed {state last : SubscriptionState V} {ns : List (Note V)}
    (run : QueueRun settings A state ns last) {h : ServiceHistory V} (t : ServiceTag V)
    (ledger : Ledger settings h state) (noticed : Noticed h state)
    (spares : Throughout SparesNotice (noted t ns ++ h))
    (silent : t.call.PostsSync → ∀ n ∈ ns, ¬ n.IsReport) : Noticed (noted t ns ++ h) last := by
  induction run generalizing h with
  | refl state => exact noticed
  | quiet same _ ih => exact ih (ledger.of_same same) (noticed.of_same same) spares silent
  | mark n plain _ ih =>
      rw [noted_cons] at spares ⊢
      refine ih (ledger.mono fun _ => List.mem_cons_of_mem _) (noticed.other fun u q same => ?_) spares
        fun posts m inside => silent posts m (List.mem_cons_of_mem _ inside)
      cases same
      exact plain
  | append now nodeId value allowed _ ih =>
      rw [noted_append] at spares ⊢
      exact ih (ledger.append t now nodeId value) (noticed.append ledger t now nodeId value) spares
        fun posts m inside => silent posts m (List.mem_append_right _ inside)
  | acknowledge value _ ih =>
      rw [noted_append] at spares ⊢
      exact ih (ledger.acknowledge t value) (noticed.acknowledge t value) spares
        fun posts m inside => silent posts m (List.mem_append_right _ inside)
  | @report state last ns _ ih =>
      rw [noted_cons] at spares ⊢
      have other : ¬ t.call.PostsSync := fun posts => silent posts _ List.mem_cons_self trivial
      have settled := (throughout_cons.mp spares.append_right).1 other
      refine ih (ledger.report t) (fun q owed => ?_) spares fun posts => absurd posts other
      rcases owed_cons owed with ⟨_, same⟩ | ⟨_, before⟩
      · cases same
      · exact absurd before (settled q)

/-! ## Whole runs -/

/-- The notices of all subscriptions, as long as no report but an answer clears one. -/
structure Notices (settings : Settings V) (s : ServiceState V) (h : ServiceHistory V) : Prop where
  books : LossBooks settings s h
  noticed : Throughout SparesNotice h →
    (∀ {id state}, s.subscriptions.get? id = some state → Noticed h state) ∧ Throughout AnswersLoss h

theorem Notices.cons {s : ServiceState V} {h : ServiceHistory V} {event : ServiceEvent V}
    (notices : Notices settings s h) (plain : ∀ t n, event ≠ .noted t n) (answers : AnswersLoss event h) :
    Notices settings s (event :: h) := by
  refine ⟨notices.books.cons plain, fun spares => ?_⟩
  obtain ⟨noticed, before⟩ := notices.noticed (throughout_cons.mp spares).2
  exact ⟨fun found => (noticed found).other fun t q => plain t _, throughout_cons.mpr ⟨answers, before⟩⟩

/-- An update of a call; a sync request reports in its last section only. -/
def NoticeStep (settings : Settings V) (t : ServiceTag V) (m : ServiceMemory V) (s : ServiceState V)
    (ns : List (Note V)) (s' : ServiceState V) : Prop :=
  CallStep settings anyChange m s ns s' ∧ (t.call.PostsSync → ∀ n ∈ ns, ¬ n.IsReport)

theorem notices_act {t : ServiceTag V} {m : ServiceMemory V} {s s' : ServiceState V} {h : ServiceHistory V}
    {ns : List (Note V)} (notices : Notices settings s h) (step : NoticeStep settings t m s ns s') :
    Notices settings s' (noted t ns ++ h) := by
  have keys := notices.books.keys
  refine ⟨lossBooks_act notices.books step.1, fun spares => ?_⟩
  obtain ⟨noticed, answers⟩ := notices.noticed spares.append_right
  have unanswered : Throughout AnswersLoss (noted t ns ++ h) := answers.noted fun _ _ _ => trivial
  refine ⟨fun {id' state'} there => ?_, unanswered⟩
  rcases step.1.queue_or_descends keys with ⟨id, state, next, found, run, rfl⟩ | ⟨silent, descends⟩
  · rw [get?_setSubscription] at there
    split_ifs at there with here
    · cases there
      exact run.noticed t (notices.books.ledger found) (noticed found) spares step.2
    · refine (noticed there).others fun n inside q same => here ?_
      have concerns : Concerns state'.subscriptionId (.noted t n : ServiceEvent V) := by
        rw [same]
        rfl
      rw [keys.keyed there] at concerns
      exact (run.concerns t n inside concerns).trans (keys.keyed found)
  · have quiet : ∀ n ∈ ns, ∀ q, n ≠ .evicted state'.subscriptionId q := by
      intro n inside q same
      have none_ := silent n inside
      rw [same] at none_
      exact none_
    rcases descends id' state' there with ⟨state, before, inherits⟩ | ⟨fresh, _, clientId, name, now, rfl⟩
    · refine Noticed.others quiet ?_
      cases inherits with
      | same => exact noticed before
      | remonitored =>
          have was := noticed before
          exact was
    · refine Noticed.others quiet fun q owed => ?_
      obtain ⟨u, inside⟩ := owed.evicted
      exact absurd (fresh ▸ notices.books.known id' _ inside rfl) (Nat.lt_irrefl _)

theorem notices_kept : Kept (NoticeStep settings) (Notices settings) where
  act _ _ _ _ _ _ notices _ step := notices_act notices step
  spawned _ _ _ notices := notices.cons (fun _ _ => nofun) trivial
  requested _ _ _ _ notices := notices.cons (fun _ _ => nofun) trivial
  replied _ _ _ _ _ notices := notices.cons (fun _ _ => nofun) trivial

/-! ## A sync request -/

theorem appendMonitored_unreported (now : Nat) (values : List (String × V)) (state : SubscriptionState V) :
    ∀ n ∈ (appendMonitored settings now values state).2, ¬ n.IsReport := by
  induction values generalizing state with
  | nil => exact fun _ => nofun
  | cons item values ih =>
      simp only [appendMonitored]
      split
      · intro n inside
        rcases List.mem_append.mp inside with here | later
        · simp only [appendUpdate, pushNotes] at here
          split at here
          · cases here
          · split at here <;> simp only [List.mem_cons, List.not_mem_nil, or_false] at here
            · rw [here]
              exact id
            · rcases here with rfl | rfl <;> exact id
        · exact ih _ n later
      · exact ih state

theorem syncStart_step (t : ServiceTag V) (m : ServiceMemory V) (s : ServiceState V) (clientId : Option String)
    (id : SubscriptionId) (ack : Option Int) (allow : Bool) :
    NoticeStep settings t m s (syncStartSection clientId id ack allow s).2.2
      (syncStartSection clientId id ack allow s).2.1 := by
  refine ⟨.routine (syncStart_routine _ clientId id s ack allow), fun _ n inside => ?_⟩
  unfold syncStartSection at inside
  cases found : s.inScope clientId id with
  | none =>
      rw [found] at inside
      cases inside
  | some state =>
      rw [found] at inside
      dsimp only at inside
      split at inside
      · cases inside
      · obtain ⟨value, _, rfl⟩ := Option.map_eq_some_iff.mp (Option.mem_toList.mp inside)
        exact not_false

/-- A refresh appends and reports nothing. -/
theorem refreshChangedValues_step (t : ServiceTag V) (id : SubscriptionId) :
    (refreshChangedValues settings id).Within (NoticeStep settings t) := by
  refine Program.Within.and ((refreshChangedValues_within settings id).mono fun _ _ _ _ step => .routine step) ?_
  refine .bind (.locked fun _ s _ n inside => ?_) fun nodeIds => ?_
  · rw [refreshTargets_looks id s] at inside
    cases inside
  · by_cases empty : nodeIds = []
    · rw [if_pos empty]
      exact .ret _
    · rw [if_neg empty]
      refine .bind (.ask _) fun values => ?_
      match values with
      | none => exact .ret _
      | some values =>
          refine .locked fun _ s _ n inside => ?_
          unfold refreshAppendSection at inside
          cases found : s.subscriptions.get? id with
          | none =>
              rw [found] at inside
              cases inside
          | some state =>
              rw [found] at inside
              exact appendMonitored_unreported s.clock _ state n inside

theorem syncReportSection_none {s : ServiceState V} {clientId : Option String} {id : SubscriptionId}
    (missing : (syncReportSection clientId id s).1 = none) : (syncReportSection clientId id s).2 = (s, []) := by
  unfold syncReportSection at missing ⊢
  cases found : s.inScope clientId id with
  | none => rfl
  | some state =>
      rw [found] at missing
      cases missing

theorem SyncResponse.Success.ofResult {result : SubscriptionSyncResult V} (open_ : result.streamActive = false) :
    (SyncResponse.ofResult result).Success := by
  unfold SyncResponse.ofResult
  rw [open_]
  cases result.queueOverflow <;> trivial

/-- The report of a sync request and its answer, with nothing in between. -/
theorem Notices.answer {s : ServiceState V} {h : ServiceHistory V} (notices : Notices settings s h) (n : Nat)
    (clientId scope : Option String) (id : SubscriptionId) (ack : Option Int)
    {found : SubscriptionSyncResult V} (returns : (syncReportSection scope id s).1 = some found) :
    Notices settings (syncReportSection scope id s).2.1
      (.returned ⟨n, .syncSubscription clientId id ack⟩ (.answered (.ofResult found)) ::
        (noted ⟨n, .syncSubscription clientId id ack⟩ (syncReportSection scope id s).2.2 ++ h)) := by
  have routine : RoutineStep settings [] s _ _ := syncReport_routine _ scope id s
  have step : CallStep settings anyChange [] s _ _ := .routine routine
  refine ⟨(lossBooks_act notices.books step).cons fun _ _ => nofun, fun spares => ?_⟩
  obtain ⟨noticed, answers⟩ := notices.noticed (throughout_cons.mp spares).2.append_right
  unfold syncReportSection at returns ⊢
  cases present : s.inScope scope id with
  | none =>
      rw [present] at returns
      cases returns
  | some state =>
      rw [present] at returns
      cases returns
      have there := inScope_get? present
      have owner : state.subscriptionId = id := notices.books.keys.keyed there
      dsimp only
      have earlier {q : Nat} {other : SubscriptionId} (owed : Owed other q
          (noted ⟨n, .syncSubscription clientId id ack⟩
            [.reported state.subscriptionId (syncResult state) state.sequenceNumber] ++ h)) :
          Owed other q h := by
        rcases owed_cons owed with ⟨_, same⟩ | ⟨_, before⟩
        · cases same
        · exact before
      refine ⟨fun {other next} holds q owed => ?_, throughout_cons.mpr ⟨fun _ q owed => ?_, ?_⟩⟩
      · rcases owed_cons owed with ⟨_, same⟩ | ⟨unanswered, before⟩
        · cases same
        · rw [get?_setSubscription] at holds
          split_ifs at holds with here
          · cases holds
            exact absurd ⟨owner.symm, .ofResult rfl⟩ unanswered
          · exact noticed holds q (earlier before)
      · obtain ⟨a, b, first, last, low, high⟩ := noticed there q (owner ▸ earlier owed)
        have dropped : SyncResponse.ofResult (syncResult state) = .dropped state.updates (some a) (some b) := by
          simp only [SyncResponse.ofResult, syncResult, first, last, Bool.false_eq_true, if_false,
            Option.isSome_some, if_true]
        rw [dropped]
        exact ⟨rfl, _, _, _, rfl, low, high⟩
      · exact throughout_cons.mpr ⟨trivial, answers⟩

variable {around : Surroundings V}

theorem notices_call (v : ServiceView V) (call : Call V) (holds : Standing (Notices settings) v) :
    wp (service settings around).mayReply (StandingInv (Notices settings)) ⟨v.calls, call⟩
      (fun o v' => Standing (Notices settings) (v'.noting (.returned ⟨v.calls, call⟩ o)))
      ((service settings around).program call) (v.issued call) := by
  have plain (other : ¬ call.PostsSync) :=
    notices_kept.call (S := service settings around)
      ((program_within settings anyChange call (changesAllowed_any call)).mono fun _ _ _ _ step =>
        ⟨step, fun posts => absurd posts other⟩)
      (fun _ _ o notices => notices.cons (fun _ _ => nofun) (by cases call <;> first | trivial | exact absurd trivial other))
      holds
  cases call with
  | syncSubscription clientId id ack =>
      have issued : Standing (Notices settings) (v.issued (.syncSubscription clientId id ack)) :=
        holds.grow [_] (notices_kept.spawned _ _ ⟨v.calls, .syncSubscription clientId id ack⟩ holds.1)
      have failed {w : ServiceView V} (standing : Standing (Notices settings) w) (status : Nat) :
          Standing (Notices settings) (w.noting (.returned ⟨v.calls, .syncSubscription clientId id ack⟩
            (.answered (.error status)))) :=
        standing.grow [_] (standing.1.cons (fun _ _ => nofun) fun success => success.elim)
      refine wp_seq ?_ fun response v' done => done
      unfold syncSubscription
      cases requiredClientId settings clientId with
      | none => exact failed issued 400
      | some scope =>
          refine wp_seq (sync_ends notices_kept (some scope) id ack false
            (fun m s => syncStart_step _ m s (some scope) id ack false) (refreshChangedValues_step _ id) issued)
            fun result w ended => ?_
          rcases ended with ⟨standing, refused⟩ | ⟨u, inv, same, state, history, bag⟩
          · cases result with
            | none => exact failed standing 404
            | some found =>
                have error : SyncResponse.ofResult found = .error 400 := if_pos (refused found rfl)
                have answer := failed standing 400
                rw [← error] at answer
                exact answer
          · cases result with
            | none =>
                have unmoved := syncReportSection_none same.symm
                rw [unmoved] at state history
                have standing : Standing (Notices settings) w := by
                  rw [Standing, state, history, bag]
                  exact inv
                exact failed standing 404
            | some found =>
                have answer := inv.1.answer v.calls clientId (some scope) id ack same.symm
                change Remembering _ w.state (_ :: w.history) w.bag
                rw [state, history, bag]
                exact inv.grow (_ :: noted _ _) answer
  | _ => exact plain id

theorem reachable_notices {c : ServiceConfig V} (h : ServiceReachable settings around c) :
    Notices settings c.state c.history := by
  have start : LossBooks settings (.empty : ServiceState V) [] :=
    ⟨.empty, nofun, .nil, fun _ _ => nofun, fun _ => ⟨nofun, .nil⟩⟩
  exact reachable_history ⟨start, fun _ => ⟨nofun, .nil⟩⟩ (fun v call holds _ => notices_call v call holds) h

/-- In every run in which no report but the answer to a sync request clears the
notice of an owed number, the first sync request that succeeds after an
update was evicted unseen reports its number as dropped. -/
theorem first_answer_reports {c : ServiceConfig V} (h : ServiceReachable settings .any c)
    (spares : Throughout SparesNotice c.history) : Throughout AnswersLoss c.history :=
  ((reachable_notices h).noticed spares).2

/-- Three values arrive at a queue for two, then the client posts a sync request. -/
def overflowThenPost : List (Decision Int) :=
  subscribed ++ notified 5 ++ notified 6 ++ notified 7 ++
    [.spawn (.syncSubscription (some "c") 0 none), .grant .main, .grant .main]

/-- Every report is the one of a sync request. -/
def postedReport : ServiceEvent Int → Bool
  | .noted ⟨_, .syncSubscription ..⟩ (.reported ..) => true
  | .noted _ (.reported ..) => false
  | _ => true

theorem spares_of_posted {h : ServiceHistory Int} (posted : h.all postedReport = true) :
    Throughout SparesNotice h := by
  rintro later event earlier rfl
  have here := List.all_eq_true.mp posted event (List.mem_append_right _ List.mem_cons_self)
  unfold SparesNotice
  split
  · rename_i t id result number
    obtain ⟨n, call⟩ := t
    intro other
    cases call with
    | syncSubscription => exact absurd trivial other
    | _ => exact absurd here Bool.false_ne_true
  · trivial

theorem first_answer_reports_overflow : ∃ c, smallRun overflowThenPost = some c ∧
    Throughout SparesNotice c.history ∧ Throughout AnswersLoss c.history := by
  let c := (smallRun overflowThenPost).get rfl
  have done : smallRun overflowThenPost = some c := rfl
  have spares : Throughout SparesNotice c.history := spares_of_posted (show c.history.all postedReport = true from rfl)
  exact ⟨c, done, spares, first_answer_reports (smallRun_reachable done) spares⟩

/-- A stream is opened after the overflow and ends; then the client posts a sync request. -/
def overflowThenStream : List (Decision Int) :=
  subscribed ++ notified 5 ++ notified 6 ++ notified 7 ++
    [.spawn (.streamSubscription (some "c") 0 0), .grant .main, .grant .main, .grant .main, .reply 1 obliging,
      .reply 1 obliging, .reply 1 obliging, .reply 1 obliging, .grant .main,
      .spawn (.syncSubscription (some "c") 0 none), .grant .main, .grant .main]

def isAnswer : ServiceEvent Int → Bool
  | .returned _ (.answered _) => true
  | _ => false

def isDataEvent : ServiceEvent Int → Bool
  | .requested _ (.emit _ (.updates _)) => true
  | _ => false

theorem not_succeeds {id : SubscriptionId} {event : ServiceEvent Int} (other : isAnswer event = false) :
    ¬ Succeeds id event := by
  unfold Succeeds
  split
  · exact absurd other.symm Bool.false_ne_true
  · exact not_false

theorem not_shows {id : SubscriptionId} {q : Nat} {event : ServiceEvent Int}
    (other : (isAnswer event || isDataEvent event) = false) : ¬ Shows id q event := by
  unfold Shows
  split
  · exact absurd other.symm Bool.false_ne_true
  · exact absurd other.symm Bool.false_ne_true
  · exact not_false

/-- The stream has cleared the notice, and the sync request succeeds without one. -/
theorem stream_hides_overflow : ∃ c : ServiceConfig Int, ServiceReachable smallServer .any c ∧
    ¬ Throughout AnswersLoss c.history := by
  let c := (smallRun overflowThenStream).get rfl
  have done : smallRun overflowThenStream = some c := rfl
  refine ⟨c, smallRun_reachable done, fun all => ?_⟩
  have unseen : (c.history.drop 18).all (fun event => !(isAnswer event || isDataEvent event)) = true := rfl
  have unanswered : ((c.history.drop 1).take 16).all (fun event => !isAnswer event) = true := rfl
  have owed : Owed 0 1 (c.history.drop 1) :=
    ⟨(c.history.drop 1).take 16, _, c.history.drop 18, rfl,
      fun event inside => not_shows ((Bool.not_eq_true' _).mp (List.all_eq_true.mp unseen event inside)),
      fun event inside => not_succeeds ((Bool.not_eq_true' _).mp (List.all_eq_true.mp unanswered event inside))⟩
  have answer := all [] _ _ (show c.history = [] ++ _ :: c.history.drop 1 from rfl) trivial 1 owed
  exact absurd answer.1 (by decide)

end I3x.Subscriptions

import I3xServer.Subscriptions.Exclusivity
import I3xServer.Subscriptions.Owners

/-!
# Why a stream is closed

A stream whose client id, stripped, is the one that its subscription was created
with is told to close because a newer session has taken over, the subscription
is gone, or the service shuts down. Each of these reasons holds from then on.
-/
namespace I3x.Subscriptions
open Container Coroutine
variable {V : Type}

/-- A reason to close the stream that the call `t` has opened. -/
inductive ClosedFor (s : ServiceState V) (h : ServiceHistory V) (t : ServiceTag V) (id : SubscriptionId) : Prop
  | superseded (u : ServiceTag V) (later earlier : List (ServiceTag V))
      (order : sessions h id = u :: later ++ t :: earlier)
  | removed (gone : s.subscriptions.get? id = none)
  | shutDown (told : .replied t (.waitForUpdate id) .shutdown ∈ h)

/-- The call streams a subscription to the client, stripped, that created it. -/
def StreamsOwn (settings : Settings V) (h : ServiceHistory V) (t : ServiceTag V) (id : SubscriptionId) : Prop :=
  ∃ client rounds, t.call = .streamSubscription (some client) id rounds ∧
    CreatedBy h id (some (settings.text.strip client))

structure Closings (settings : Settings V) (s : ServiceState V) (h : ServiceHistory V) : Prop where
  owners : Owners s h
  closed : ∀ {t id}, t.call.Streams → .requested t (.emit id .close) ∈ h →
    id < s.nextSubscription ∧ (StreamsOwn settings h t id → ClosedFor s h t id)

/-- Requests that do not tell a client that its stream is closed. -/
def Unclosing (q : Request V) : Prop := ∀ id, q ≠ .emit id .close

section
variable {settings : Settings V} {s s' : ServiceState V} {h : ServiceHistory V} {t : ServiceTag V}

theorem ClosedFor.grow {id : SubscriptionId} (reason : ClosedFor s h t id) (more : ServiceHistory V)
    (gone : s.subscriptions.get? id = none → s'.subscriptions.get? id = none) : ClosedFor s' (more ++ h) t id := by
  cases reason with
  | superseded u later earlier order =>
      cases newer : sessions more id with
      | nil => exact .superseded u later earlier (by rw [sessions_append, newer, order]; rfl)
      | cons w rest =>
          refine .superseded w (rest ++ u :: later) earlier ?_
          rw [sessions_append, newer, order]
          simp
  | removed absent => exact .removed (gone absent)
  | shutDown told => exact .shutDown (List.mem_append_right _ told)

theorem KeepsOwners.gone (keeps : KeepsOwners s s') {id : SubscriptionId} (absent : s.subscriptions.get? id = none) :
    s'.subscriptions.get? id = none := by
  cases found : s'.subscriptions.get? id with
  | none => rfl
  | some state' =>
      obtain ⟨state, there, _⟩ := keeps.present found
      cases absent.symm.trans there

theorem StreamsOwn.of_noted {u : ServiceTag V} {ns : List (Note V)} (silent : ∀ id, .created id ∉ ns)
    {id : SubscriptionId} (own : StreamsOwn settings (noted u ns ++ h) t id) : StreamsOwn settings h t id := by
  obtain ⟨client, rounds, call, made⟩ := own
  exact ⟨client, rounds, call, (createdBy_noted silent).mp made⟩

theorem StreamsOwn.of_event {event : ServiceEvent V} (other : ∀ u n, event ≠ .noted u n) {id : SubscriptionId}
    (own : StreamsOwn settings (event :: h) t id) : StreamsOwn settings h t id := by
  obtain ⟨client, rounds, call, u, name, made, inside⟩ := own
  exact ⟨client, rounds, call, u, name, made, (List.mem_cons.mp inside).resolve_left fun same => other _ _ same.symm⟩

theorem requested_of_noted {u : ServiceTag V} {ns : List (Note V)} {q : Request V}
    (inside : .requested t q ∈ noted u ns ++ h) : .requested t q ∈ h := by
  refine (List.mem_append.mp inside).resolve_left fun new => ?_
  obtain ⟨n, _, same⟩ := mem_noted.mp new
  cases same

theorem Closings.keep {u : ServiceTag V} {ns : List (Note V)} (old : Closings settings s h)
    (keeps : KeepsOwners s s') (keys : WellKeyed s') (silent : ∀ id, .created id ∉ ns) :
    Closings settings s' (noted u ns ++ h) where
  owners := old.owners.keep keeps keys silent
  closed streams inside := by
    obtain ⟨less, reason⟩ := old.closed streams (requested_of_noted inside)
    rw [keeps.next]
    exact ⟨less, fun own => (reason (own.of_noted silent)).grow _ keeps.gone⟩

/-- An event that is neither a note nor the closing of a stream. -/
theorem Closings.event (old : Closings settings s h) {event : ServiceEvent V} (other : ∀ u n, event ≠ .noted u n)
    (open_ : ∀ u id, u.call.Streams → event ≠ .requested u (.emit id .close)) : Closings settings s (event :: h) where
  owners := old.owners.event other
  closed {t id} streams inside := by
    obtain ⟨less, reason⟩ := old.closed streams
      ((List.mem_cons.mp inside).resolve_left fun same => open_ t id streams same.symm)
    exact ⟨less, fun own => (reason (own.of_event other)).grow [event] fun absent => absent⟩

/-- A stream is told to close for a reason. -/
theorem Closings.close (old : Closings settings s h) {id : SubscriptionId} (less : id < s.nextSubscription)
    (reason : StreamsOwn settings h t id → ClosedFor s h t id) :
    Closings settings s (.requested t (.emit id .close) :: h) where
  owners := old.owners.event fun _ _ => nofun
  closed {u other} streams inside := by
    have plain (w : ServiceTag V) (n : Note V) :
        (.requested t (.emit id .close) : ServiceEvent V) ≠ .noted w n := fun same => nomatch same
    rcases List.mem_cons.mp inside with same | before
    · cases same
      exact ⟨less, fun own => (reason (own.of_event plain)).grow [_] fun absent => absent⟩
    · obtain ⟨less, reason⟩ := old.closed streams before
      exact ⟨less, fun own => (reason (own.of_event plain)).grow [_] fun absent => absent⟩

theorem Closings.create {u : ServiceTag V} {clientId displayName : Option String} (old : Closings settings s h)
    (started : Nat) (call : u.call = .createSubscription clientId displayName) :
    Closings settings (createSection clientId displayName started s).2.1
      (noted u (createSection clientId displayName started s).2.2 ++ h) where
  owners := old.owners.create started call
  closed {t id} streams inside := by
    obtain ⟨less, reason⟩ := old.closed streams (requested_of_noted inside)
    refine ⟨Nat.lt_succ_of_lt less, fun own => (reason ?_).grow _ fun absent => ?_⟩
    · obtain ⟨client, rounds, call, w, name, made, noted_⟩ := own
      refine ⟨client, rounds, call, w, name, made, (List.mem_cons.mp noted_).resolve_left fun same => ?_⟩
      cases same
      exact Nat.lt_irrefl _ less
    · change (s.setSubscription s.nextSubscription _).subscriptions.get? id = none
      rw [get?_setSubscription, if_neg (Nat.ne_of_lt less)]
      exact absent

theorem Closings.empty : Closings settings (.empty : ServiceState V) [] where
  owners := ⟨.empty, nofun, fun ⟨_, _, _, inside⟩ => absurd inside List.not_mem_nil, nofun⟩
  closed _ inside := absurd inside List.not_mem_nil

end

/-! ## The programs -/

section
variable {settings : Settings V} {t : ServiceTag V} {α : Type} {p : Act V α}

/-- A program that creates nothing and closes no stream keeps the reasons. -/
theorem keeps_closings (inside : p.Within (CallStep settings anyChange)) (uncreating : p.Within Uncreating)
    {P : Request V → Prop} (asks : p.Asks P) (unclosing : ∀ q, P q → t.call.Streams → Unclosing q) :
    p.Keeps (Closings settings) t := by
  have both := inside.and uncreating
  refine Program.Keeps.of_within (fun _ s ns s' h old moves => ?_) (fun q s h may old => ?_)
    (fun q r s h may old => old.event (fun _ _ => nofun) fun _ _ _ => nofun) (both []) asks
  · obtain ⟨step, silent⟩ := moves
    exact old.keep (step.keepsOwners old.owners.keys silent) (step.wellKeyed old.owners.keys) silent
  · refine old.event (fun _ _ => nofun) fun u id streams same => ?_
    cases same
    exact unclosing _ may streams id rfl

theorem keeps_of_queue (inside : p.Within (Stretches settings anyChange (· ≠ .membership)))
    (asks : p.Asks Unclosing) : p.Keeps (Closings settings) t :=
  keeps_closings (within_callStep (inside.mono fun _ _ _ _ ⟨k, _, stretch⟩ => ⟨k, trivial, stretch⟩))
    (within_uncreating inside) asks fun _ may _ => may

theorem refreshChangedValues_asks (id : SubscriptionId) : (refreshChangedValues settings id).Asks Unclosing := by
  refine Program.Asks.bind (.locked _ _) fun nodeIds => ?_
  split
  · trivial
  · refine Program.Asks.bind (.ask fun _ => nofun) fun values => ?_
    cases values with
    | none => trivial
    | some values => exact .locked _ _

theorem sync_asks (clientId : Option String) (id : SubscriptionId) (ack : Option Int) (allow : Bool) :
    (sync settings clientId id ack allow).Asks Unclosing := by
  refine Program.Asks.bind (.locked _ _) fun started => ?_
  match started with
  | .missing => trivial
  | .refused => trivial
  | .proceed false => exact .locked _ _
  | .proceed true => exact .bind (refreshChangedValues_asks id) fun _ => .locked _ _

theorem openStream_asks (clientId : String) (id : SubscriptionId) :
    (openStream clientId id : Act V (Option (Nat × Bool))).Asks Unclosing := by
  refine Program.Asks.bind (.locked _ _) fun generation => ?_
  match generation with
  | some generation => trivial
  | none => exact .bind (.locked _ _) fun _ => trivial

theorem beginStreamSession_asks (clientId : Option String) (id : SubscriptionId) :
    (beginStreamSession settings clientId id).Asks Unclosing := by
  unfold beginStreamSession
  split
  · trivial
  · refine Program.Asks.bind (openStream_asks _ id) fun opened => ?_
    match opened with
    | none => trivial
    | some (generation, relaxed) =>
        refine Program.Asks.bind (sync_asks _ id none true) fun acknowledged => ?_
        cases acknowledged with
        | none => trivial
        | some acknowledged => trivial

theorem finallyDeactivate_asks (id : SubscriptionId) (generation : Nat) :
    (finallyDeactivate id generation : Act V Unit).Asks Unclosing := by
  refine Program.Asks.bind (.ask fun _ => nofun) fun completed => ?_
  cases completed with
  | true => exact .locked _ _
  | false => exact fun _ => trivial

/-- A session carries the stripped client id of its request. -/
theorem beginStreamSession_answers (clientId : Option String) (id : SubscriptionId) :
    (beginStreamSession settings clientId id).Answers fun result => ∀ session, result = .ok session →
      ∃ client, clientId = some client ∧ session.clientId = settings.text.strip client := by
  unfold beginStreamSession
  split
  · exact nofun
  · rename_i client required
    have given : clientId = some client := by
      obtain ⟨given, same, kept⟩ := Option.bind_eq_some_iff.mp required
      split_ifs at kept
      exact same.trans kept
    refine Program.Answers.bind fun opened => ?_
    match opened with
    | none => exact nofun
    | some (generation, relaxed) =>
        refine Program.Answers.bind fun acknowledged => ?_
        cases acknowledged with
        | none => exact nofun
        | some acknowledged =>
            intro session same
            cases same
            exact ⟨client, given, rfl⟩

variable {mayReply : ServiceState V → ServiceState V → (q : Request V) → Reply q → Prop}

/-- The streams of the service together with the reasons for their closings. -/
abbrev Serving (settings : Settings V) := Framed (Streams (V := V)) (Closings settings)

/-- What a call may be about to tell the client of its stream. -/
def MayClose (settings : Settings V) (t : ServiceTag V) (id : SubscriptionId) (v : StreamView V) : Prop :=
  StreamsOwn settings v.history t id → ClosedFor v.state v.history t id

/-- The call streams the subscription of the opening to a client. -/
structure Serves (settings : Settings V) (t : ServiceTag V) (o : Opening) (session : StreamSession V) : Prop where
  subscriptionId : session.subscriptionId = o.id
  streamGeneration : session.streamGeneration = o.generation
  client : ∃ client rounds, t.call = .streamSubscription (some client) o.id rounds ∧
    session.clientId = settings.text.strip client

theorem quiet_wp {g : Option Opening} (inside : p.Within (Stretches settings anyChange (· = .queue)))
    (asks : p.Asks Unclosing) {v : StreamView V} (runs : Runs (Serving settings) t g v) :
    wp mayReply (Named (Serving settings)) t (fun _ w => Runs (Serving settings) t g w) p v := by
  have calm : p.Within (Stretches settings anyChange (· ≠ .streams)) :=
    inside.mono fun _ _ _ _ ⟨k, same, stretch⟩ => ⟨k, same ▸ nofun, stretch⟩
  have routine : p.Within (Stretches settings anyChange (· ≠ .membership)) :=
    inside.mono fun _ _ _ _ ⟨k, same, stretch⟩ => ⟨k, same ▸ nofun, stretch⟩
  obtain ⟨runs, closings⟩ := runs_framed.mp runs
  refine wp_mono (wp_frame ((streams_undisturbed g).wp calm runs) (keeps_of_queue routine asks) closings) ?_
  exact fun _ w both => runs_framed.mpr both

/-- A section of such a program, with the state that it leaves. -/
theorem quiet_locked {g : Option Opening} {l : Lock} (f : Section V α)
    (inside : ∀ s, Stretch settings anyChange .queue [] s (f s).2.2 (f s).2.1) {v : StreamView V}
    (runs : Runs (Serving settings) t g v) :
    wp mayReply (Named (Serving settings)) t
      (fun a w => Runs (Serving settings) t g w ∧ ∃ s, a = (f s).1 ∧ w.state = (f s).2.1)
      (.locked l f : Act V α) v := by
  refine wp_locked_named l f runs fun v' woken w state history bag running => ⟨⟨running, ?_⟩, _, rfl, state⟩
  have step : CallStep settings anyChange [] v'.state _ _ := (inside v'.state).callStep
  have silent : ∀ id, .created id ∉ (f v'.state).2.2 := fun id noted_ =>
    ((inside v'.state).routine nofun).not_membership _ noted_ trivial
  obtain ⟨old, closings⟩ := woken.holds
  rw [state, history, bag]
  refine ⟨(streams_undisturbed g).act [] _ _ _ _ _ old woken.running.alone ⟨.queue, nofun, inside v'.state⟩, ?_⟩
  exact closings.keep (step.keepsOwners closings.owners.keys silent) (step.wellKeyed closings.owners.keys) silent

/-- A session whose subscription its client does not see may close: the client is
another one, or the subscription is gone. -/
theorem mayClose_of_unseen {o : Opening} {session : StreamSession V} (serves : Serves settings t o session)
    {v : StreamView V} (closings : Closings settings v.state v.history)
    (unseen : v.state.inScope (some session.clientId) o.id = none) : MayClose settings t o.id v := by
  intro own
  obtain ⟨client, rounds, call, made⟩ := own
  obtain ⟨client', rounds', call', stripped⟩ := serves.client
  cases call.symm.trans call'
  refine .removed ?_
  cases found : v.state.subscriptions.get? o.id with
  | none => rfl
  | some state =>
      have owner := closings.owners.owner made found
      cases (inScope_of_visible found (.inr (owner.trans (congrArg some stripped.symm)))).symm.trans unseen

/-! ## Waiting -/

section
variable {s : ServiceState V} {clientId : Option String} {id : SubscriptionId}

theorem waitStart_missing {afterSequence timeoutMs : Nat}
    (missing : (waitStartSection settings clientId id afterSequence timeoutMs s).1 = .missing) :
    (waitStartSection settings clientId id afterSequence timeoutMs s).2.1.inScope clientId id = none := by
  unfold waitStartSection at missing ⊢
  cases found : s.inScope clientId id with
  | none => exact found
  | some state =>
      rw [found] at missing
      dsimp only at missing
      split at missing <;> cases missing

theorem waitTimeout_missing {refresh : Bool} {threshold : Nat}
    (missing : (waitTimeoutSection settings clientId id refresh threshold s).1 = none) :
    (waitTimeoutSection settings clientId id refresh threshold s).2.1.inScope clientId id = none := by
  unfold waitTimeoutSection at missing ⊢
  cases found : s.inScope clientId id with
  | none => exact found
  | some state =>
      rw [found] at missing
      dsimp only at missing
      split at missing <;> cases missing

theorem resetTimeout_missing (missing : (resetTimeoutSection clientId id s).1 = false) :
    (resetTimeoutSection clientId id s).2.1.inScope clientId id = none := by
  unfold resetTimeoutSection at missing ⊢
  cases found : s.inScope clientId id with
  | none => exact found
  | some state =>
      rw [found] at missing
      cases missing

theorem waitResult_missing {afterSequence : Nat} {timedOut : Bool}
    (missing : (waitResultSection clientId id afterSequence timedOut s).1 = none) :
    (waitResultSection clientId id afterSequence timedOut s).2.1.inScope clientId id = none := by
  unfold waitResultSection at missing ⊢
  cases found : s.inScope clientId id with
  | none => exact found
  | some state =>
      rw [found] at missing
      cases missing

end

section
variable {o : Opening} {session : StreamSession V}

/-- A session that is not active may close: it is superseded, or the subscription is gone. -/
theorem mayClose_of_inactive {v : StreamView V} (runs : Runs (Serving settings) t (some o) v)
    (inactive : (isStreamActiveSection o.id o.generation v.state).1 = false) : MayClose settings t o.id v := by
  intro _
  have holds := runs.holds.1.held _ (Multiset.mem_cons_self _ _) o rfl
  cases found : v.state.subscriptions.get? o.id with
  | none => exact .removed found
  | some state =>
      simp only [isStreamActiveSection, found, decide_eq_false_iff_not] at inactive
      obtain ⟨later, earlier, split, position⟩ := holds.opened
      have generation := runs.holds.1.generation found
      cases later with
      | nil =>
          rw [generation, position, split] at inactive
          exact absurd rfl inactive
      | cons u later => exact .superseded u later earlier split

theorem close_streams {v : StreamView V} (runs : Runs (Serving settings) t (some o) v)
    (reason : MayClose settings t o.id v) :
    wp mayReply (Named (Serving settings)) t (fun _ w => Runs (Serving settings) t (some o) w)
      (do
        let _ ← emit o.id .close
        pure ()) v := by
  obtain ⟨old, closings⟩ := runs.holds
  have holds := old.held _ (Multiset.mem_cons_self _ _) o rfl
  have told : Runs (Serving settings) t (some o) (v.noting (.requested t (.emit o.id .close))) :=
    runs.noting rfl ⟨old.event (fun _ _ => nofun), closings.close (old.opened holds.opened_ne) reason⟩
  refine wp_seq (wp_ask_named told fun v' present _ woken => ?_) fun (_ : Bool) w runs => runs
  obtain ⟨old, closings⟩ := woken.holds
  exact woken.noting rfl ⟨old.event (fun _ _ => nofun), closings.event (fun _ _ => nofun) fun _ _ _ => nofun⟩

variable (serves : Serves settings t o session)
include serves

theorem waitResult_closes (afterSequence : Nat) (timedOut : Bool) {v : StreamView V}
    (runs : Runs (Serving settings) t (some o) v) :
    wp mayReply (Named (Serving settings)) t
      (fun result w => Runs (Serving settings) t (some o) w ∧ (result = .closed → MayClose settings t o.id w))
      (do
        let updates ← Program.locked .main (waitResultSection (some session.clientId) o.id afterSequence timedOut)
        pure (WaitResult.ofOption updates)) v := by
  refine wp_seq (quiet_locked (waitResultSection (some session.clientId) o.id afterSequence timedOut)
    (fun s => .waitResult _ _ afterSequence timedOut s) runs) fun updates w there => ?_
  obtain ⟨runs, s, returns, state⟩ := there
  refine ⟨runs, fun closed => mayClose_of_unseen serves runs.holds.2 ?_⟩
  cases updates with
  | some updates => cases closed
  | none =>
      rw [state]
      exact waitResult_missing returns.symm

/-- A wait tells to close for a reason. -/
theorem waitForUpdates_closes (afterSequence timeoutMs : Nat) {v : StreamView V}
    (runs : Runs (Serving settings) t (some o) v) :
    wp mayReply (Named (Serving settings)) t
      (fun result w => Runs (Serving settings) t (some o) w ∧ (result = .closed → MayClose settings t o.id w))
      (waitForUpdates settings (some session.clientId) o.id afterSequence timeoutMs) v := by
  have unseen {w : StreamView V} (runs : Runs (Serving settings) t (some o) w)
      (absent : w.state.inScope (some session.clientId) o.id = none) :
      Runs (Serving settings) t (some o) w ∧ (WaitResult.closed = (.closed : WaitResult V) →
        MayClose settings t o.id w) :=
    ⟨runs, fun _ => mayClose_of_unseen serves runs.holds.2 absent⟩
  refine wp_seq (quiet_locked (waitStartSection settings (some session.clientId) o.id afterSequence timeoutMs)
    (fun s => .waitStart _ _ afterSequence timeoutMs s) runs) fun started w there => ?_
  obtain ⟨runs, s, returns, state⟩ := there
  match started with
  | .missing => exact unseen runs (state ▸ waitStart_missing returns.symm)
  | .ready updates => exact ⟨runs, nofun⟩
  | .wait refresh threshold =>
      have asked : Runs (Serving settings) t (some o) (w.noting (.requested t (.waitForUpdate o.id))) := by
        obtain ⟨old, closings⟩ := runs.holds
        exact runs.noting rfl ⟨old.event (fun _ _ => nofun), closings.event (fun _ _ => nofun) fun _ _ _ => nofun⟩
      have waits : wp mayReply (Named (Serving settings)) t
          (fun outcome w => Runs (Serving settings) t (some o) w ∧
            Event.replied t (.waitForUpdate o.id) outcome ∈ w.history)
          (await (.waitForUpdate o.id)) w := by
        refine wp_ask_named asked fun v' outcome _ woken => ?_
        obtain ⟨old, closings⟩ := woken.holds
        exact ⟨woken.noting rfl ⟨old.event (fun _ _ => nofun), closings.event (fun _ _ => nofun) (fun _ _ _ => nofun)⟩, List.mem_cons_self⟩
      refine wp_seq waits fun outcome w both => ?_
      obtain ⟨runs, told⟩ := both
      match outcome with
      | .disconnected => exact ⟨runs, nofun⟩
      | .shutdown => exact ⟨runs, fun _ _ => .shutDown told⟩
      | .updated => exact waitResult_closes serves afterSequence false runs
      | .timeout =>
          refine wp_seq (quiet_locked (waitTimeoutSection settings (some session.clientId) o.id refresh threshold)
              (fun s => .waitTimeout _ _ refresh threshold s) runs) fun execute w there => ?_
          obtain ⟨runs, s, returns, state⟩ := there
          match execute with
          | none => exact unseen runs (state ▸ waitTimeout_missing returns.symm)
          | some false => exact waitResult_closes serves afterSequence true runs
          | some true =>
              refine wp_seq (quiet_locked (resetTimeoutSection (some session.clientId) o.id)
                  (fun s => .resetTimeout _ _ s) runs) fun present w there => ?_
              obtain ⟨runs, s, returns, state⟩ := there
              cases present with
              | false => exact unseen runs (state ▸ resetTimeout_missing returns.symm)
              | true =>
                  refine wp_seq (quiet_wp (refreshChangedValues_stretches settings anyChange (by exact rfl) o.id)
                    (refreshChangedValues_asks o.id) runs) fun _ w runs => ?_
                  exact waitResult_closes serves afterSequence true runs

theorem streamRounds_closes (rounds lastSequence : Nat) {v : StreamView V}
    (runs : Runs (Serving settings) t (some o) v) :
    wp mayReply (Named (Serving settings)) t (fun _ w => Runs (Serving settings) t (some o) w)
      (streamRounds settings session rounds lastSequence) v := by
  induction rounds generalizing lastSequence v with
  | zero => exact runs
  | succ rounds ih =>
      have emits (event : StreamEvent V) (other : event ≠ .close) {v : StreamView V}
          (runs : Runs (Serving settings) t (some o) v) :
          wp mayReply (Named (Serving settings)) t (fun _ w => Runs (Serving settings) t (some o) w)
            (emit o.id event) v := by
        refine quiet_wp (within_await _) (.ask fun id same => ?_) runs
        cases same
        exact other rfl
      rw [streamRounds, serves.subscriptionId, serves.streamGeneration]
      refine wp_seq (quiet_locked (isStreamActiveSection o.id o.generation) (fun s => ?_) runs) fun active w there => ?_
      · rw [isStreamActive_looks]
        exact .look [] s
      obtain ⟨runs, s, returns, state⟩ := there
      have same : w.state = s := state.trans (congrArg Prod.fst (isStreamActive_looks o.id o.generation s))
      cases active with
      | false => exact close_streams runs (mayClose_of_inactive runs (same ▸ returns.symm))
      | true =>
          refine wp_seq (waitForUpdates_closes serves lastSequence streamTimeoutMs runs) fun waited w there => ?_
          obtain ⟨runs, reason⟩ := there
          cases waited with
          | disconnected => exact runs
          | closed => exact close_streams runs (reason rfl)
          | ready updates =>
              dsimp only
              split
              · refine wp_seq (emits .keepalive (fun same => by cases same) runs) fun present w runs => ?_
                cases present with
                | true => exact ih lastSequence runs
                | false => exact runs
              · refine wp_seq (emits (.updates updates) (fun same => by cases same) runs) fun present w runs => ?_
                cases present with
                | true => exact ih _ runs
                | false => exact runs

/-- A response closes its stream for a reason. -/
theorem respond_closes (rounds : Nat) {v : StreamView V} (runs : Runs (Serving settings) t (some o) v) :
    wp mayReply (Named (Serving settings)) t (fun _ w => ∀ outcome, Ends (Serving settings) t outcome w)
      (respondStream settings session rounds) v := by
  have ends {q : Act V Unit} {v : StreamView V} (closings : Closings settings v.state v.history)
      (keeps : q.Keeps (Closings settings) t)
      (spec : wp mayReply (Named Streams) t (fun _ w => ∀ outcome, Ends Streams t outcome w) q v) :
      wp mayReply (Named (Serving settings)) t (fun _ w => ∀ outcome, Ends (Serving settings) t outcome w) q v := by
    refine wp_mono (wp_frame spec keeps closings) fun _ w both outcome => ?_
    exact ⟨(both.1 outcome).1, (both.1 outcome).2, both.2.event (fun _ _ => nofun) fun _ _ _ => nofun⟩
  have closing {v : StreamView V} (runs : Runs (Serving settings) t (some o) v) :
      wp mayReply (Named (Serving settings)) t (fun _ w => ∀ outcome, Ends (Serving settings) t outcome w)
        (finallyDeactivate o.id o.generation) v := by
    refine ends runs.holds.2 (keeps_of_queue (finallyDeactivate_stretches settings anyChange nofun _ _) ?_)
      (finallyDeactivate_streams (runs_framed.mp runs).1)
    exact finallyDeactivate_asks o.id o.generation
  have emits (event : StreamEvent V) (other : event ≠ .close) {v : StreamView V}
      (runs : Runs (Serving settings) t (some o) v) :
      wp mayReply (Named (Serving settings)) t (fun _ w => Runs (Serving settings) t (some o) w)
        (emit o.id event) v := by
    refine quiet_wp (within_await _) (.ask fun id same => ?_) runs
    cases same
    exact other rfl
  rw [respondStream, iterStreamEvents, serves.subscriptionId, serves.streamGeneration]
  refine wp_seq (quiet_wp (within_await (.startResponse o.id)) (.ask fun _ => nofun) runs) fun started w runs => ?_
  cases started with
  | true =>
      refine wp_seq (emits .connected nofun runs) fun present w runs => ?_
      cases present with
      | false => exact closing runs
      | true =>
          rw [if_pos rfl]
          split
          · exact wp_seq (streamRounds_closes serves rounds 0 runs) fun _ w runs => closing runs
          · refine wp_seq (emits (.updates session.acknowledged.updates) (fun same => by cases same) runs)
              fun present w runs => ?_
            cases present with
            | false => exact closing runs
            | true => exact wp_seq (streamRounds_closes serves rounds _ runs) fun _ w runs => closing runs
  | false =>
      exact ends runs.holds.2 (keeps_of_queue (missDeactivation_stretches settings anyChange nofun _ _) fun _ => trivial)
        (missDeactivation_streams (runs_framed.mp runs).1)

end

theorem serving_call (v : StreamView V) (call : Call V) (distinct : Distinct v.bag v.history v.calls)
    (old : Serving settings v.state v.history v.bag) {around : Surroundings V} :
    wp (service settings around).mayReply (Named (Serving settings)) ⟨v.calls, call⟩
      (Ends (Serving settings) ⟨v.calls, call⟩) ((service settings around).program call) (v.issued call) := by
  have spec : wp (service settings around).mayReply (Named Streams) ⟨v.calls, call⟩
      (Ends Streams ⟨v.calls, call⟩) ((service settings around).program call) (v.issued call) :=
    streams_call v call distinct old.1
  have issued : Closings settings (v.issued call).state (v.issued call).history := old.2.event (fun _ _ => nofun) fun _ _ _ => nofun
  have framed (keeps : (program settings call).Keeps (Closings settings) ⟨v.calls, call⟩) :
      wp (service settings around).mayReply (Named (Serving settings)) ⟨v.calls, call⟩
        (Ends (Serving settings) ⟨v.calls, call⟩) ((service settings around).program call) (v.issued call) := by
    refine wp_mono (wp_frame spec keeps issued) fun outcome w both => ?_
    exact ⟨both.1.1, both.1.2, both.2.event (fun _ _ => nofun) fun _ _ _ => nofun⟩
  have plain (creates : ¬ call.Creates) (streams : ¬ call.Streams) :=
    framed (keeps_closings (program_within settings anyChange call (changesAllowed_any call))
      (program_uncreating settings call creates) (.any _) fun _ _ opens => absurd opens streams)
  cases call with
  | createSubscription clientId displayName =>
      refine framed fun s => ⟨fun h old => old, fun s' => ⟨fun h old => ?_, trivial⟩⟩
      exact old.create s.clock rfl
  | streamSubscription clientId id rounds =>
      have fresh : ∀ event ∈ v.history, event.tag ≠ ⟨v.calls, .streamSubscription clientId id rounds⟩ :=
        fun event inside same => Nat.lt_irrefl _ (congrArg Tag.id same ▸ distinct.recorded event inside)
      have runs : Runs Streams ⟨v.calls, _⟩ none (v.issued (.streamSubscription clientId id rounds)) :=
        ⟨distinct.spawn _, (old.1.join fresh).event fun _ _ => nofun⟩
      have begins := @wp_frame _ _ _ _ _ _ _ _ _ _ _ (service settings around).mayReply _ _ _ _ _ _
        (wp_answers (begin_streams clientId id runs) (beginStreamSession_answers clientId id))
        (keeps_of_queue (beginStreamSession_stretches settings anyChange nofun nofun clientId id)
          (beginStreamSession_asks clientId id)) issued
      refine wp_seq (wp_seq begins fun session w opened => ?_)
        fun status w (ends : ∀ o, Ends (Serving settings) _ o w) => ends (.streamed status)
      obtain ⟨⟨opened, answers⟩, closings⟩ := opened
      match session with
      | .error _ => exact fun o => ⟨(opened o).1, (opened o).2, closings.event (fun _ _ => nofun) fun _ _ _ => nofun⟩
      | .ok session =>
          obtain ⟨rfl, scope, runs⟩ := opened
          obtain ⟨client, rfl, stripped⟩ := answers session rfl
          have serves : Serves settings ⟨v.calls, .streamSubscription (some client) session.subscriptionId rounds⟩
              ⟨session.subscriptionId, session.streamGeneration, scope⟩ session :=
            ⟨rfl, rfl, client, rounds, rfl, stripped⟩
          exact wp_seq (respond_closes serves rounds (runs_framed.mpr ⟨runs, closings⟩)) fun _ w ends => ends
  | _ => exact plain not_false not_false

/-- In every state that the service reaches, every stream that was closed has been closed for a reason. -/
theorem reachable_closings {around : Surroundings V} {c : ServiceConfig V}
    (h : ServiceReachable settings around c) : Closings settings c.state c.history := by
  obtain ⟨v, machine, _, holds, _⟩ := reachable_named (J := Serving settings) ⟨streams_empty, .empty⟩
    (fun v call distinct old _ => serving_call v call distinct old) h
  rw [← machine]
  exact holds.2

end
end I3x.Subscriptions

import I3xServer.Subscriptions.StreamSessions

/-!
# At most one stream

The sessions of a subscription in the order of their activations, and what ties
the generation and the flag of the subscription to them in every reachable state.
-/
namespace I3x.Subscriptions
open Container Coroutine
variable {V : Type}

/-- The calls that have activated a stream of the subscription, newest first. -/
def sessions (h : ServiceHistory V) (id : SubscriptionId) : List (ServiceTag V) :=
  h.filterMap fun event =>
    match event with
    | .noted t (.streamActivated other) => if other = id then some t else none
    | _ => none

/-- The session ended without its final deactivation while it was the newest one. -/
def NewestMissed (h : ServiceHistory V) (id : SubscriptionId) (t : ServiceTag V) : Prop :=
  Event.noted t (.deactivationMissed id true) ∈ h

theorem mem_sessions {h : ServiceHistory V} {id : SubscriptionId} {t : ServiceTag V} :
    t ∈ sessions h id ↔ .noted t (.streamActivated id) ∈ h := by
  simp only [sessions, List.mem_filterMap]
  constructor
  · rintro ⟨event, inside, yields⟩
    split at yields
    · split_ifs at yields with same
      cases yields
      rw [← same]
      exact inside
    · cases yields
  · intro inside
    exact ⟨_, inside, by simp only [if_true]⟩

theorem sessions_append (newer h : ServiceHistory V) (id : SubscriptionId) :
    sessions (newer ++ h) id = sessions newer id ++ sessions h id := List.filterMap_append

/-- Events that are not about streams. -/
def Plainly (newer : ServiceHistory V) : Prop := ∀ t n, .noted t n ∈ newer → ¬ n.OfStream

theorem Plainly.sessions {newer : ServiceHistory V} (plain : Plainly newer) (h : ServiceHistory V)
    (id : SubscriptionId) : Subscriptions.sessions (newer ++ h) id = Subscriptions.sessions h id := by
  have none_new : Subscriptions.sessions newer id = [] := by
    refine List.eq_nil_iff_forall_not_mem.mpr fun t inside => ?_
    exact plain t _ (mem_sessions.mp inside) trivial
  rw [sessions_append, none_new, List.nil_append]

theorem Plainly.missed {newer : ServiceHistory V} (plain : Plainly newer) {h : ServiceHistory V}
    {id : SubscriptionId} {t : ServiceTag V} {newest : Bool} :
    .noted t (.deactivationMissed id newest) ∈ newer ++ h ↔ .noted t (.deactivationMissed id newest) ∈ h := by
  refine ⟨fun inside => ?_, List.mem_append_right _⟩
  exact (List.mem_append.mp inside).resolve_left fun new => plain t _ new trivial

theorem plainly_noted {t : ServiceTag V} {ns : List (Note V)} (plain : ∀ n ∈ ns, ¬ n.OfStream) :
    Plainly (noted t ns) := by
  intro u n inside
  obtain ⟨m, m_inside, same⟩ := mem_noted.mp inside
  cases same
  exact plain _ m_inside

theorem plainly_singleton {event : ServiceEvent V} (other : ∀ t n, event ≠ .noted t n) : Plainly [event] := by
  intro t n inside
  exact absurd (List.mem_singleton.mp inside).symm (other t n)

/-! ## What ties a subscription to its sessions -/

/-- What a call keeps in mind between its activation and its end. -/
structure Opening where
  id : SubscriptionId
  generation : Nat
  scope : Option String

/-- The scope of a session still sees its subscription. -/
def InScope (scope : Option String) (state : SubscriptionState V) : Prop :=
  scope = none ∨ state.clientId = scope

theorem inScope_of_visible {s : ServiceState V} {scope : Option String} {id : SubscriptionId}
    {state : SubscriptionState V} (found : s.subscriptions.get? id = some state) (visible : InScope scope state) :
    s.inScope scope id = some state := by
  unfold ServiceState.inScope
  rw [found]
  rcases visible with rfl | same
  · simp
  · simp [same]

theorem visible_of_inScope {s : ServiceState V} {scope : Option String} {id : SubscriptionId}
    {state : SubscriptionState V} (found : s.inScope scope id = some state) : InScope scope state := by
  unfold ServiceState.inScope at found
  split at found
  · cases found
  · split_ifs at found with foreign
    cases found
    cases scope with
    | none => exact .inl rfl
    | some client => exact .inr (by simpa using foreign)

/-- The call `t` is the session of that generation, and has not ended. -/
structure InSession (s : ServiceState V) (h : ServiceHistory V) (t : ServiceTag V) (o : Opening) : Prop where
  opened : ∃ later earlier, sessions h o.id = later ++ t :: earlier ∧ o.generation = earlier.length + 1
  only : ∀ id, t ∈ sessions h id → id = o.id
  visible : ∀ {state}, s.subscriptions.get? o.id = some state → InScope o.scope state
  unended : ∀ id newest, .noted t (.deactivationMissed id newest) ∉ h

/-- The newest session of the subscription is in flight, or missed its deactivation. -/
def Occupied (h : ServiceHistory V) (B : Multiset (Entry (Call V) (Option Opening))) (id : SubscriptionId) :
    Prop :=
  ∃ t, (sessions h id).head? = some t ∧ ((∃ e ∈ B, e.tag = t) ∨ NewestMissed h id t)

structure Streams (s : ServiceState V) (h : ServiceHistory V)
    (B : Multiset (Entry (Call V) (Option Opening))) : Prop where
  keys : WellKeyed s
  opened : ∀ {id}, sessions h id ≠ [] → id < s.nextSubscription
  nodup : ∀ id, (sessions h id).Nodup
  generation : ∀ {id state}, s.subscriptions.get? id = some state →
    state.activeStreamGeneration = (sessions h id).length
  connected : ∀ {id state}, s.subscriptions.get? id = some state →
    (state.streamConnected = true ↔ Occupied h B id)
  idle : ∀ e ∈ B, e.ghost = none →
    (∀ id, e.tag ∉ sessions h id) ∧ ∀ id newest, .noted e.tag (.deactivationMissed id newest) ∉ h
  held : ∀ e ∈ B, ∀ o, e.ghost = some o → InSession s h e.tag o

theorem streams_empty : Streams (.empty : ServiceState V) [] 0 where
  keys := .empty
  opened := fun some_ => absurd rfl some_
  nodup _ := List.nodup_nil
  generation := nofun
  connected := nofun
  idle := nofun
  held := nofun

section
variable {s s' : ServiceState V} {h newer : ServiceHistory V}
  {B : Multiset (Entry (Call V) (Option Opening))}

theorem Occupied.of_plain (plain : Plainly newer) {id : SubscriptionId} :
    Occupied (newer ++ h) B id ↔ Occupied h B id := by
  simp only [Occupied, NewestMissed, plain.sessions, plain.missed]

theorem InSession.keep {ns : List (Note V)} (keeps : KeepsStreams s ns s') (plain : Plainly newer)
    {t : ServiceTag V} {o : Opening} (inside : o.id < s.nextSubscription) (holds : InSession s h t o) :
    InSession s' (newer ++ h) t o where
  opened := by
    rw [plain.sessions]
    exact holds.opened
  only id m := holds.only id (plain.sessions h id ▸ m)
  visible found := by
    rcases keeps.present found with ⟨state, there, same⟩ | ⟨new, _⟩
    · exact (holds.visible there).imp_right same.clientId.trans
    · exact absurd inside (Nat.not_lt.mpr new)
  unended id newest m := holds.unended id newest (plain.missed.mp m)

theorem InSession.opened_ne {t : ServiceTag V} {o : Opening} (holds : InSession s h t o) : sessions h o.id ≠ [] := by
  obtain ⟨later, earlier, split, _⟩ := holds.opened
  rw [split]
  exact List.append_ne_nil_of_right_ne_nil later (List.cons_ne_nil t earlier)

/-- Steps and events that do not concern streams keep the streams. -/
theorem Streams.keep {ns : List (Note V)} (old : Streams s h B) (keeps : KeepsStreams s ns s')
    (keys : WellKeyed s') (plain : Plainly newer) : Streams s' (newer ++ h) B where
  keys := keys
  opened {id} some_ := by
    rw [plain.sessions] at some_
    exact Nat.lt_of_lt_of_le (old.opened some_) keeps.next
  nodup id := by
    rw [plain.sessions]
    exact old.nodup id
  generation {id state} found := by
    rw [plain.sessions]
    rcases keeps.present found with ⟨before, there, same⟩ | ⟨new, zero, _⟩
    · rw [same.activeStreamGeneration]
      exact old.generation there
    · have unopened : sessions h id = [] := by
        by_contra some_
        exact Nat.not_lt.mpr new (old.opened some_)
      rw [zero, unopened]
      rfl
  connected {id state} found := by
    rw [Occupied.of_plain plain]
    rcases keeps.present found with ⟨before, there, same⟩ | ⟨new, _, down⟩
    · rw [same.streamConnected]
      exact old.connected there
    · have unopened : sessions h id = [] := by
        by_contra some_
        exact Nat.not_lt.mpr new (old.opened some_)
      simp [down, Occupied, unopened]
  idle e inside free := by
    simp only [plain.sessions, plain.missed]
    exact old.idle e inside free
  held e inside o holding :=
    (old.held e inside o holding).keep keeps plain (old.opened (old.held e inside o holding).opened_ne)

theorem Streams.event (old : Streams s h B) {event : ServiceEvent V} (other : ∀ t n, event ≠ .noted t n) :
    Streams s (event :: h) B :=
  old.keep (.unchanged s) old.keys (plainly_singleton other)

/-! ## Opening and ending a session -/

theorem sessions_activated (t : ServiceTag V) (id other : SubscriptionId) :
    sessions (.noted t (.streamActivated id) :: h) other =
      if id = other then t :: sessions h other else sessions h other := by
  unfold sessions
  by_cases here : id = other
  · simp only [List.filterMap_cons, if_pos here]
  · simp only [List.filterMap_cons, if_neg here]

/-- A call without a session activates the stream and becomes the newest session. -/
theorem Streams.activate {t : ServiceTag V} {clientId : Option String} {id : SubscriptionId}
    {state state' : SubscriptionState V} (old : Streams s h (⟨t, none⟩ ::ₘ B))
    (alone : ∀ e ∈ B, e.tag ≠ t) (found : s.subscriptions.get? id = some state)
    (visible : InScope clientId state) (same : state'.subscriptionId = state.subscriptionId)
    (client : state'.clientId = state.clientId)
    (next : state'.activeStreamGeneration = state.activeStreamGeneration + 1)
    (up : state'.streamConnected = true) :
    Streams (s.setSubscription id state') (.noted t (.streamActivated id) :: h)
      (⟨t, some ⟨id, state'.activeStreamGeneration, clientId⟩⟩ ::ₘ B) := by
  obtain ⟨unopened, unmissed⟩ := old.idle _ (Multiset.mem_cons_self _ _) rfl
  have missed {u : ServiceTag V} {other : SubscriptionId} {newest : Bool} :
      Event.noted u (.deactivationMissed other newest) ∈ Event.noted t (.streamActivated id) :: h ↔
        Event.noted u (.deactivationMissed other newest) ∈ h := by
    simp
  refine ⟨old.keys.setSubscription found same, fun {other} _ => ?_, fun other => ?_,
    fun {other stored} there => ?_, fun {other stored} there => ?_, fun e inside free => ?_,
    fun e inside o holding => ?_⟩
  · rename_i some_
    rw [sessions_activated] at some_
    split_ifs at some_ with here
    · exact here ▸ old.keys.fresh found
    · exact old.opened some_
  · rw [sessions_activated]
    split_ifs
    · exact List.nodup_cons.mpr ⟨unopened other, old.nodup other⟩
    · exact old.nodup other
  · rw [get?_setSubscription] at there
    rw [sessions_activated]
    split_ifs at there with here
    · cases there
      rw [if_pos here.symm, next, old.generation found, here]
      rfl
    · rw [if_neg (Ne.symm here)]
      exact old.generation there
  · rw [get?_setSubscription] at there
    split_ifs at there with here
    · cases there
      subst here
      refine ⟨fun _ => ⟨t, ?_, .inl ⟨_, Multiset.mem_cons_self _ _, rfl⟩⟩, fun _ => up⟩
      rw [sessions_activated, if_pos rfl]
      rfl
    · rw [old.connected there, Occupied, Occupied]
      simp only [sessions_activated, if_neg (Ne.symm here), NewestMissed, missed, Multiset.mem_cons,
        exists_eq_or_imp]
  · rcases Multiset.mem_cons.mp inside with rfl | other
    · cases free
    · obtain ⟨out, unmissed⟩ := old.idle e (Multiset.mem_cons_of_mem other) free
      refine ⟨fun o m => ?_, fun o newest m => unmissed o newest (missed.mp m)⟩
      rw [sessions_activated] at m
      split_ifs at m
      · exact (List.mem_cons.mp m).elim (alone e other) (out o)
      · exact out o m
  · rcases Multiset.mem_cons.mp inside with rfl | other
    · cases holding
      refine ⟨⟨[], sessions h id, ?_, ?_⟩, fun o m => ?_, fun {stored} there => ?_, fun o newest m => ?_⟩
      · rw [sessions_activated, if_pos rfl]
        rfl
      · rw [next, old.generation found]
      · rw [sessions_activated] at m
        split_ifs at m with here
        · exact here.symm
        · exact absurd m (unopened o)
      · rw [ServiceState.setSubscription, Dict.get?_set_self] at there
        cases there
        exact visible.imp_right client.trans
      · exact unmissed o newest (missed.mp m)
    · have before := old.held e (Multiset.mem_cons_of_mem other) o holding
      obtain ⟨later, earlier, split, position⟩ := before.opened
      refine ⟨?_, fun o' m => ?_, fun {stored} there => ?_, fun o' newest m => before.unended o' newest (missed.mp m)⟩
      · rw [sessions_activated]
        split_ifs with here
        · exact ⟨t :: later, earlier, by rw [split, List.cons_append], position⟩
        · exact ⟨later, earlier, split, position⟩
      · rw [sessions_activated] at m
        split_ifs at m
        · exact (List.mem_cons.mp m).elim (fun same => absurd same (alone e other)) (before.only o')
        · exact before.only o' m
      · rw [get?_setSubscription] at there
        split_ifs at there with here
        · cases there
          exact (before.visible (here ▸ found)).imp_right client.trans
        · exact before.visible there

/-- A call without a session ends. -/
theorem Streams.leave {t : ServiceTag V} (old : Streams s h (⟨t, none⟩ ::ₘ B)) : Streams s h B where
  keys := old.keys
  opened := old.opened
  nodup := old.nodup
  generation := old.generation
  connected {id state} found := by
    obtain ⟨unopened, _⟩ := old.idle _ (Multiset.mem_cons_self _ _) rfl
    rw [old.connected found]
    constructor
    · rintro ⟨u, newest, (⟨e, inside, same⟩ | missed)⟩
      · rcases Multiset.mem_cons.mp inside with rfl | other
        · exact absurd (same ▸ List.mem_of_mem_head? newest) (unopened id)
        · exact ⟨u, newest, .inl ⟨e, other, same⟩⟩
      · exact ⟨u, newest, .inr missed⟩
    · rintro ⟨u, newest, (⟨e, inside, same⟩ | missed)⟩
      · exact ⟨u, newest, .inl ⟨e, Multiset.mem_cons_of_mem inside, same⟩⟩
      · exact ⟨u, newest, .inr missed⟩
  idle e inside free := old.idle e (Multiset.mem_cons_of_mem inside) free
  held e inside o holding := old.held e (Multiset.mem_cons_of_mem inside) o holding

/-- Being the newest session is a matter of the generation. -/
theorem Streams.newest_iff {t : ServiceTag V} {o : Opening} {state : SubscriptionState V}
    (old : Streams s h B) (holds : InSession s h t o) (found : s.subscriptions.get? o.id = some state) :
    (sessions h o.id).head? = some t ↔ state.activeStreamGeneration = o.generation := by
  obtain ⟨later, earlier, split, position⟩ := holds.opened
  have nodup := old.nodup o.id
  rw [old.generation found, position, split]
  rw [split] at nodup
  cases later with
  | nil => simp
  | cons u later =>
      have apart : u ≠ t := by
        rintro rfl
        exact (List.nodup_cons.mp nodup).1 (List.mem_append_right _ List.mem_cons_self)
      simp only [List.cons_append, List.head?_cons, Option.some.injEq, apart, List.length_cons,
        List.length_append, false_iff]
      omega

/-- A session ends: its subscription is gone, or the flag is cleared if the session
is the newest one and does not miss its deactivation. -/
theorem Streams.close {t : ServiceTag V} {o : Opening} (old : Streams s h (⟨t, some o⟩ ::ₘ B))
    (alone : ∀ e ∈ B, e.tag ≠ t) (keys : WellKeyed s') (next : s'.nextSubscription = s.nextSubscription)
    (others : ∀ id ≠ o.id, s'.subscriptions.get? id = s.subscriptions.get? id)
    (own : ∀ {state'}, s'.subscriptions.get? o.id = some state' → ∃ state,
      s.subscriptions.get? o.id = some state ∧ state'.activeStreamGeneration = state.activeStreamGeneration ∧
      state'.clientId = state.clientId ∧
      (state'.streamConnected = true ↔ state.streamConnected = true ∧
        ((sessions h o.id).head? = some t → NewestMissed newer o.id t)))
    (same : ∀ id, sessions newer id = [])
    (mine : ∀ u id newest, .noted u (.deactivationMissed id newest) ∈ newer → u = t) :
    Streams s' (newer ++ h) B := by
  have holds := old.held _ (Multiset.mem_cons_self _ _) o rfl
  have unopened (id : SubscriptionId) : sessions (newer ++ h) id = sessions h id := by
    rw [sessions_append, same, List.nil_append]
  have unmissed {u : ServiceTag V} (other : u ≠ t) {id : SubscriptionId} {newest : Bool} :
      .noted u (.deactivationMissed id newest) ∈ newer ++ h ↔ .noted u (.deactivationMissed id newest) ∈ h := by
    refine ⟨fun inside => ?_, List.mem_append_right _⟩
    exact (List.mem_append.mp inside).resolve_left fun new => other (mine _ _ _ new)
  have stored {id : SubscriptionId} {state' : SubscriptionState V} (there : s'.subscriptions.get? id = some state') :
      ∃ state, s.subscriptions.get? id = some state ∧
        state'.activeStreamGeneration = state.activeStreamGeneration ∧ state'.clientId = state.clientId := by
    by_cases here : id = o.id
    · subst here
      obtain ⟨state, found, generation, client, _⟩ := own there
      exact ⟨state, found, generation, client⟩
    · exact ⟨state', others id here ▸ there, rfl, rfl⟩
  refine ⟨keys, fun {id} some_ => ?_, fun id => ?_, fun {id state'} there => ?_, fun {id state'} there => ?_,
    fun e inside free => ?_, fun e inside o' holding => ?_⟩
  · rw [unopened] at some_
    rw [next]
    exact old.opened some_
  · rw [unopened]
    exact old.nodup id
  · obtain ⟨state, found, generation, _⟩ := stored there
    rw [unopened, generation]
    exact old.generation found
  · have left {u : ServiceTag V} (other : u ≠ t) :
        ((∃ e ∈ ⟨t, some o⟩ ::ₘ B, e.tag = u) ∨ NewestMissed h id u) ↔
          ((∃ e ∈ B, e.tag = u) ∨ NewestMissed (newer ++ h) id u) := by
      simp only [Multiset.mem_cons, exists_eq_or_imp, Ne.symm other, false_or, NewestMissed, unmissed other]
    by_cases here : id = o.id
    · subst here
      obtain ⟨state, found, _, _, flag⟩ := own there
      rw [flag, old.connected found]
      simp only [Occupied, unopened]
      constructor
      · rintro ⟨⟨u, newest, reason⟩, drops⟩
        by_cases mine_ : u = t
        · subst mine_
          exact ⟨u, newest, .inr (List.mem_append_left _ (drops newest))⟩
        · exact ⟨u, newest, (left mine_).mp reason⟩
      · rintro ⟨u, newest, reason⟩
        by_cases mine_ : u = t
        · subst mine_
          refine ⟨⟨u, newest, .inl ⟨_, Multiset.mem_cons_self _ _, rfl⟩⟩, fun _ => ?_⟩
          rcases reason with ⟨e, inside, tag⟩ | missed
          · exact absurd tag (alone e inside)
          · exact (List.mem_append.mp missed).resolve_right (holds.unended _ _)
        · refine ⟨⟨u, newest, (left mine_).mpr reason⟩, fun first => ?_⟩
          exact absurd (Option.some.inj (newest.symm.trans first)) mine_
    · rw [others id here] at there
      rw [old.connected there]
      simp only [Occupied, unopened]
      refine exists_congr fun u => and_congr_right fun newest => left ?_
      rintro rfl
      exact here (holds.only id (List.mem_of_mem_head? newest))
  · obtain ⟨out, clear⟩ := old.idle e (Multiset.mem_cons_of_mem inside) free
    refine ⟨fun id => ?_, fun id newest => ?_⟩
    · rw [unopened]
      exact out id
    · rw [unmissed (alone e inside)]
      exact clear id newest
  · have before := old.held e (Multiset.mem_cons_of_mem inside) o' holding
    refine ⟨?_, fun id m => before.only id (unopened id ▸ m), fun {state'} there => ?_, fun id newest => ?_⟩
    · rw [unopened]
      exact before.opened
    · obtain ⟨state, found, _, client⟩ := stored there
      exact (before.visible found).imp_right client.trans
    · rw [unmissed (alone e inside)]
      exact before.unended id newest

end

/-! ## The programs -/

section
variable {settings : Settings V} {t : ServiceTag V}
  {mayReply : ServiceState V → ServiceState V → (q : Request V) → Reply q → Prop}

/-- A view of the service with the openings of the suspended calls. -/
abbrev StreamView (V : Type) :=
  View (ServiceState V) Lock (Note V) (Request V) Reply (Call V) (Outcome V) (Option Opening)

theorem streams_undisturbed (g : Option Opening) :
    Undisturbed (Streams (V := V)) t g (Stretches settings anyChange (· ≠ .streams)) where
  act _ _ _ _ _ _ old _ moves := by
    obtain ⟨k, other, stretch⟩ := moves
    have keeps := stretch.keepsStreams old.keys other
    exact old.keep keeps (stretch.callStep.wellKeyed old.keys) (plainly_noted keeps.notes)
  requested _ _ _ _ old _ := old.event fun _ _ => nofun
  replied _ _ _ _ _ old _ := old.event fun _ _ => nofun

theorem syncStart_missing {s : ServiceState V} {clientId : Option String} {id : SubscriptionId}
    {ack : Option Int} {allow : Bool} (missing : (syncStartSection clientId id ack allow s).1 = .missing) :
    s.inScope clientId id = none := by
  unfold syncStartSection at missing
  cases found : s.inScope clientId id with
  | none => rfl
  | some state =>
      rw [found] at missing
      dsimp only at missing
      split at missing <;> cases missing

theorem syncStart_refused {s : ServiceState V} {clientId : Option String} {id : SubscriptionId}
    {ack : Option Int} {allow : Bool} (refused : (syncStartSection clientId id ack allow s).1 = .refused) :
    allow = false := by
  unfold syncStartSection at refused
  cases found : s.inScope clientId id with
  | none =>
      rw [found] at refused
      cases refused
  | some state =>
      rw [found] at refused
      dsimp only at refused
      split at refused
      · rename_i both
        rw [Bool.and_eq_true, Bool.not_eq_true'] at both
        exact both.2
      · cases refused

theorem syncReport_missing {s : ServiceState V} {clientId : Option String} {id : SubscriptionId}
    (missing : (syncReportSection clientId id s).1 = none) :
    s.inScope clientId id = none ∧ (syncReportSection clientId id s).2.1 = s := by
  unfold syncReportSection at missing ⊢
  cases found : s.inScope clientId id with
  | none => exact ⟨rfl, rfl⟩
  | some state =>
      rw [found] at missing
      cases missing

theorem Streams.absent {s : ServiceState V} {h : ServiceHistory V}
    {B : Multiset (Entry (Call V) (Option Opening))} {o : Opening} (old : Streams s h (⟨t, some o⟩ ::ₘ B))
    (unseen : s.inScope o.scope o.id = none) : s.subscriptions.get? o.id = none := by
  cases found : s.subscriptions.get? o.id with
  | none => rfl
  | some state =>
      have visible := (old.held _ (Multiset.mem_cons_self _ _) o rfl).visible found
      cases (inScope_of_visible found visible).symm.trans unseen

/-- The sync that preloads a session fails only if the subscription is gone. -/
theorem preload_streams {o : Opening} {v : StreamView V} (runs : Runs Streams t (some o) v) :
    wp mayReply (Named Streams) t
      (fun result w => Runs Streams t (some o) w ∧
        (result = none → w.state.subscriptions.get? o.id = none))
      (sync settings o.scope o.id none true) v := by
  have calm : Undisturbed Streams t (some o) (Stretches settings anyChange (· ≠ .streams)) :=
    streams_undisturbed (some o)
  have report (v : StreamView V) (runs : Runs Streams t (some o) v) :
      wp mayReply (Named Streams) t
        (fun result w => Runs Streams t (some o) w ∧
          (result = none → w.state.subscriptions.get? o.id = none))
        (Program.locked .main (syncReportSection o.scope o.id)) v := by
    refine wp_mono (calm.wp_locked Lock.main
      (fun s => ⟨.queue, nofun, .syncReport o.scope o.id s⟩) runs) fun result w ⟨runs, v', before, returns, state⟩ =>
      ⟨runs, fun missing => ?_⟩
    obtain ⟨unseen, same⟩ := syncReport_missing (returns ▸ missing)
    rw [state, same]
    exact before.holds.absent unseen
  refine wp_seq (calm.wp_locked Lock.main
    (fun s => ⟨.queue, nofun, .syncStart o.scope o.id none true s⟩) runs) fun started w ⟨runs, v', before, returns, state⟩ => ?_
  match started with
  | .missing =>
      refine ⟨runs, fun _ => ?_⟩
      have unseen := syncStart_missing returns.symm
      rw [state]
      simp only [syncStartSection, unseen]
      exact before.holds.absent unseen
  | .refused => cases syncStart_refused returns.symm
  | .proceed false => exact report w runs
  | .proceed true =>
      refine wp_seq (calm.wp (refreshChangedValues_stretches settings anyChange nofun o.id) runs) ?_
      exact fun _ w runs => report w runs

/-- How an activation changes the state. -/
theorem activateStream_cases (clientId : Option String) (id : SubscriptionId) (s : ServiceState V) :
    (s.inScope clientId id = none ∧ activateStreamSection clientId id s = (none, s, [])) ∨
    ∃ state state', s.inScope clientId id = some state ∧
      state'.subscriptionId = state.subscriptionId ∧ state'.clientId = state.clientId ∧
      state'.activeStreamGeneration = state.activeStreamGeneration + 1 ∧ state'.streamConnected = true ∧
      activateStreamSection clientId id s =
        (some state'.activeStreamGeneration, s.setSubscription id state', [.streamActivated id]) := by
  unfold activateStreamSection
  cases found : s.inScope clientId id with
  | none => exact .inl ⟨rfl, rfl⟩
  | some state =>
      refine .inr ⟨state,
        { state with
          activeStreamGeneration := state.activeStreamGeneration + 1, streamConnected := true
          lastActivity := s.clock, updateEvent := true }, rfl, rfl, rfl, rfl, rfl, rfl⟩

/-- A stream is activated in the given scope, or nothing has changed. -/
theorem activate_streams (clientId : Option String) (id : SubscriptionId) {v : StreamView V}
    (runs : Runs Streams t none v) :
    wp mayReply (Named Streams) t
      (fun result w => match result with
        | none => Runs Streams t none w
        | some generation => Runs Streams t (some ⟨id, generation, clientId⟩) w)
      (activateStream clientId id) v := by
  refine wp_locked_named Lock.main _ runs fun v' woken w state history bag running => ?_
  rcases activateStream_cases clientId id v'.state with ⟨_, same⟩ | ⟨before, after, found, own, client, next, up, same⟩
  · rw [same] at state history ⊢
    refine ⟨running, ?_⟩
    rw [state, history, bag]
    exact woken.holds
  · rw [same] at state history ⊢
    refine ⟨running, ?_⟩
    rw [state, history, bag]
    exact woken.holds.activate woken.running.other (inScope_get? found) (visible_of_inScope found) own client next up

theorem open_streams (clientId : String) (id : SubscriptionId) {v : StreamView V}
    (runs : Runs Streams t none v) :
    wp mayReply (Named Streams) t
      (fun result w => match result with
        | none => Runs Streams t none w
        | some (generation, relaxed) =>
            Runs Streams t (some ⟨id, generation, if relaxed then none else some clientId⟩) w)
      (openStream clientId id) v := by
  refine wp_seq (activate_streams (some clientId) id runs) fun first w opened => ?_
  match first with
  | some generation => exact opened
  | none =>
      refine wp_seq (activate_streams none id opened) fun relaxed w opened => ?_
      match relaxed with
      | some generation => exact opened
      | none => exact opened

theorem ends_idle {v : StreamView V} (runs : Runs Streams t none v) (o : Outcome V) : Ends Streams t o v :=
  ⟨runs.running, runs.holds.leave.event fun _ _ => nofun⟩

theorem ends_absent {o : Opening} {v : StreamView V} (runs : Runs Streams t (some o) v)
    (gone : v.state.subscriptions.get? o.id = none) (outcome : Outcome V) : Ends Streams t outcome v := by
  refine ⟨runs.running, ?_⟩
  have closed : Streams v.state ([.returned t outcome] ++ v.history) v.bag :=
    runs.holds.close runs.running.other runs.holds.keys rfl (fun _ _ => rfl)
      (fun found => by cases gone.symm.trans found) (fun _ => rfl) fun _ _ _ => by simp
  exact closed

/-- Opening a stream yields a session, or the call may end with an error. -/
theorem begin_streams (clientId : Option String) (id : SubscriptionId) {v : StreamView V}
    (runs : Runs Streams t none v) :
    wp mayReply (Named Streams) t
      (fun result w => match result with
        | .error _ => ∀ o, Ends Streams t o w
        | .ok session => session.subscriptionId = id ∧
            ∃ scope, Runs Streams t (some ⟨id, session.streamGeneration, scope⟩) w)
      (beginStreamSession settings clientId id) v := by
  unfold beginStreamSession
  split
  · exact ends_idle runs
  · rename_i client _
    refine wp_seq (open_streams (settings.text.strip client) id runs) fun opened w holding => ?_
    cases opened with
    | none => exact ends_idle holding
    | some opened =>
        refine wp_seq (preload_streams holding) fun acknowledged w after => ?_
        obtain ⟨runs, gone⟩ := after
        cases acknowledged with
        | none => exact ends_absent runs (gone rfl)
        | some acknowledged => exact ⟨rfl, _, runs⟩

/-- A deactivation clears the flag of the newest session. -/
theorem deactivate_streams {o : Opening} {v : StreamView V} (runs : Runs Streams t (some o) v) :
    wp mayReply (Named Streams) t (fun _ w => ∀ outcome, Ends Streams t outcome w)
      (deactivateStream o.id o.generation) v := by
  refine wp_locked_named Lock.main _ runs fun v' woken w state history bag running outcome => ⟨running, ?_⟩
  have old := woken.holds
  have holds := old.held _ (Multiset.mem_cons_self _ _) o rfl
  rw [state, history, bag]
  have closes {s' : ServiceState V} {ns : List (Note V)} (silent : ns = [])
      (keys : WellKeyed s') (next : s'.nextSubscription = v'.state.nextSubscription)
      (others : ∀ id ≠ o.id, s'.subscriptions.get? id = v'.state.subscriptions.get? id)
      (own : ∀ {state'}, s'.subscriptions.get? o.id = some state' → ∃ state,
        v'.state.subscriptions.get? o.id = some state ∧
        state'.activeStreamGeneration = state.activeStreamGeneration ∧ state'.clientId = state.clientId ∧
        (state'.streamConnected = true ↔ state.streamConnected = true ∧
          (sessions v'.history o.id).head? ≠ some t)) :
      Streams s' (.returned t outcome :: (noted t ns ++ v'.history)) v'.bag := by
    subst silent
    change Streams s' ([.returned t outcome] ++ v'.history) v'.bag
    refine old.close woken.running.other keys next others (fun found => ?_) (fun _ => rfl) fun _ _ _ => by simp
    obtain ⟨state, there, generation, client, flag⟩ := own found
    refine ⟨state, there, generation, client, flag.trans (and_congr_right fun _ => ?_)⟩
    simp [NewestMissed]
  unfold deactivateStreamSection
  cases found : v'.state.subscriptions.get? o.id with
  | none =>
      exact closes rfl old.keys rfl (fun _ _ => rfl) fun there => by cases found.symm.trans there
  | some current =>
      dsimp only
      have newest := old.newest_iff holds found
      split
      · rename_i same
        refine closes rfl (old.keys.setSubscription found rfl) rfl (fun id other => ?_) fun there => ?_
        · rw [get?_setSubscription, if_neg other]
        · rw [ServiceState.setSubscription, Dict.get?_set_self] at there
          cases there
          refine ⟨current, found, rfl, rfl, ?_⟩
          simp [newest.mpr same]
      · rename_i other
        refine closes rfl old.keys rfl (fun _ _ => rfl) fun {state'} there => ?_
        refine ⟨state', there, rfl, rfl, ?_⟩
        cases found.symm.trans there
        simp [newest, other]

/-- A session that misses its deactivation leaves the flag as it is. -/
theorem missDeactivation_streams {o : Opening} {v : StreamView V} (runs : Runs Streams t (some o) v) :
    wp mayReply (Named Streams) t (fun _ w => ∀ outcome, Ends Streams t outcome w)
      (missDeactivation o.id o.generation) v := by
  intro outcome
  refine ⟨runs.running.grow fun _ => tag_of_noted, ?_⟩
  have old := runs.holds
  have holds := old.held _ (Multiset.mem_cons_self _ _) o rfl
  change Streams v.state ([.returned t outcome, .noted t (.deactivationMissed o.id
    (isStreamActiveSection o.id o.generation v.state).1)] ++ v.history) v.bag
  refine old.close runs.running.other old.keys rfl (fun _ _ => rfl) (fun {state} found => ?_)
    (fun _ => rfl) ?_
  · have newest := old.newest_iff holds found
    refine ⟨state, found, rfl, rfl, (and_iff_left fun first => ?_).symm⟩
    have active : (isStreamActiveSection o.id o.generation v.state).1 = true := by
      simp only [isStreamActiveSection, found, newest.mp first, decide_true]
    simp [NewestMissed, active]
  · intro u id newest inside
    simp only [List.mem_cons, reduceCtorEq, false_or, List.not_mem_nil, or_false] at inside
    cases inside
    rfl

/-- The end of a generator clears the flag of the newest session, or misses it. -/
theorem finallyDeactivate_streams {o : Opening} {v : StreamView V} (runs : Runs Streams t (some o) v) :
    wp mayReply (Named Streams) t (fun _ w => ∀ outcome, Ends Streams t outcome w)
      (finallyDeactivate o.id o.generation) v := by
  have waits : wp mayReply (Named Streams) t (fun _ w => Runs Streams t (some o) w)
      (await (.finalDeactivation o.id)) v := by
    refine wp_ask_named (runs.noting rfl (runs.holds.event fun _ _ => nofun)) fun v' _ _ woken => ?_
    exact woken.noting rfl (woken.holds.event fun _ _ => nofun)
  refine wp_seq waits fun completed w runs => ?_
  cases (completed : Bool) with
  | true => exact deactivate_streams runs
  | false => exact missDeactivation_streams runs

/-- A response runs to its end, or is dropped before its first event. -/
theorem respond_streams {session : StreamSession V} {scope : Option String} (rounds : Nat) {v : StreamView V}
    (runs : Runs Streams t (some ⟨session.subscriptionId, session.streamGeneration, scope⟩) v) :
    wp mayReply (Named Streams) t (fun _ w => ∀ outcome, Ends Streams t outcome w)
      (respondStream settings session rounds) v := by
  have calm : Undisturbed Streams t (some ⟨session.subscriptionId, session.streamGeneration, scope⟩)
      (Stretches settings anyChange (· ≠ .streams)) := streams_undisturbed _
  have emits {event : StreamEvent V} {v : StreamView V}
      (runs : Runs Streams t (some ⟨session.subscriptionId, session.streamGeneration, scope⟩) v) :
      wp mayReply (Named Streams) t
        (fun _ w => Runs Streams t (some ⟨session.subscriptionId, session.streamGeneration, scope⟩) w)
        (emit session.subscriptionId event) v :=
    calm.wp (within_await (.emit session.subscriptionId event)) runs
  refine wp_seq (calm.wp (within_await _) runs) fun started w runs => ?_
  cases started with
  | true =>
      refine wp_seq (emits runs) fun present w runs => ?_
      cases present with
      | false => exact finallyDeactivate_streams runs
      | true =>
          rw [if_pos rfl]
          split
          · refine wp_seq (calm.wp (streamRounds_stretches settings anyChange (by decide) session rounds 0) runs) ?_
            exact fun _ w runs => finallyDeactivate_streams runs
          · refine wp_seq (emits runs) fun present w runs => ?_
            cases present with
            | false => exact finallyDeactivate_streams runs
            | true =>
                refine wp_seq (calm.wp (streamRounds_stretches settings anyChange (by decide) session rounds _) runs) ?_
                exact fun _ w runs => finallyDeactivate_streams runs
  | false => exact missDeactivation_streams runs

end

/-! ## Every reachable state -/

section
variable {settings : Settings V} {around : Surroundings V}

/-- A call that has done nothing yet joins the suspended ones. -/
theorem Streams.join {s : ServiceState V} {h : ServiceHistory V}
    {B : Multiset (Entry (Call V) (Option Opening))} {t : ServiceTag V} (old : Streams s h B)
    (fresh : ∀ event ∈ h, event.tag ≠ t) : Streams s h (⟨t, none⟩ ::ₘ B) where
  keys := old.keys
  opened := old.opened
  nodup := old.nodup
  generation := old.generation
  connected {id state} found := by
    rw [old.connected found]
    refine exists_congr fun u => and_congr_right fun newest => or_congr_left ?_
    have apart : t ≠ u := fun same => fresh _ (mem_sessions.mp (List.mem_of_mem_head? newest)) same.symm
    simp only [Multiset.mem_cons, exists_eq_or_imp, apart, false_or]
  idle e inside free := by
    rcases Multiset.mem_cons.mp inside with rfl | other
    · exact ⟨fun id m => fresh _ (mem_sessions.mp m) rfl, fun id newest m => fresh _ m rfl⟩
    · exact old.idle e other free
  held e inside o holding := by
    rcases Multiset.mem_cons.mp inside with rfl | other
    · cases holding
    · exact old.held e other o holding

theorem streams_call (v : StreamView V) (call : Call V) (distinct : Distinct v.bag v.history v.calls)
    (old : Streams v.state v.history v.bag) :
    wp (service settings around).mayReply (Named Streams) ⟨v.calls, call⟩ (Ends Streams ⟨v.calls, call⟩)
      ((service settings around).program call) (v.issued call) := by
  have fresh : ∀ event ∈ v.history, event.tag ≠ ⟨v.calls, call⟩ := fun event inside same =>
    Nat.lt_irrefl _ (congrArg Tag.id same ▸ distinct.recorded event inside)
  have issued : Runs Streams ⟨v.calls, call⟩ none (v.issued call) :=
    ⟨distinct.spawn call, (old.join fresh).event fun _ _ => nofun⟩
  have plain (other : ¬ call.Streams) : wp (service settings around).mayReply (Named Streams) ⟨v.calls, call⟩
      (Ends Streams ⟨v.calls, call⟩) ((service settings around).program call) (v.issued call) := by
    have inside : (program settings call).Within (Stretches settings anyChange (· ≠ .streams)) :=
      program_stretches settings anyChange nofun nofun nofun call (changesAllowed_any call)
        fun opens => absurd opens other
    exact wp_mono ((streams_undisturbed none).wp inside issued) fun o w runs => ends_idle runs o
  cases call with
  | streamSubscription clientId id rounds =>
      refine wp_seq (wp_seq (begin_streams clientId id issued) fun session w opened => ?_)
        fun status w (ends : ∀ o, Ends Streams _ o w) => ends (.streamed status)
      match session with
      | .error _ => exact opened
      | .ok session =>
          obtain ⟨rfl, scope, runs⟩ := opened
          exact wp_seq (respond_streams rounds runs) fun _ w ends => ends
  | _ => exact plain id

theorem reachable_streams {c : ServiceConfig V} (h : ServiceReachable settings around c) :
    ∃ B : Multiset (Entry (Call V) (Option Opening)), Streams c.state c.history B ∧
      ∀ t, (∃ e ∈ B, e.tag = t) ↔ c.InFlight t := by
  obtain ⟨v, machine, _, holds, inFlight⟩ := reachable_named streams_empty
    (fun v call distinct old _ => streams_call v call distinct old) h
  refine ⟨v.bag, ?_, fun t => ?_⟩
  · rw [← machine]
    exact holds
  · rw [← inFlight t]
    simp only [View.InFlight, View.mem_bag]

/-- The newest session of the subscription was opened and its response has not ended. -/
def Streaming (c : ServiceConfig V) (id : SubscriptionId) : Prop :=
  ∃ t, (sessions c.history id).head? = some t ∧ c.InFlight t

/-- The flag is up while the newest session is in flight, and after it missed its deactivation. -/
theorem streamConnected_iff {c : ServiceConfig V} (h : ServiceReachable settings around c)
    {id : SubscriptionId} {state : SubscriptionState V} (found : c.state.subscriptions.get? id = some state) :
    state.streamConnected = true ↔
      ∃ t, (sessions c.history id).head? = some t ∧ (c.InFlight t ∨ NewestMissed c.history id t) := by
  obtain ⟨B, streams, inFlight⟩ := reachable_streams h
  rw [streams.connected found]
  simp only [Occupied, inFlight]

theorem activeStreamGeneration_eq {c : ServiceConfig V} (h : ServiceReachable settings around c)
    {id : SubscriptionId} {state : SubscriptionState V} (found : c.state.subscriptions.get? id = some state) :
    state.activeStreamGeneration = (sessions c.history id).length := by
  obtain ⟨B, streams, _⟩ := reachable_streams h
  exact streams.generation found

/-- Streams exclude each other and plain syncs in the state of `c` and in the steps
from it: generations number the sessions and the newest one is active, the flag
says whether that session is open, an older session that ends leaves the flag,
and a plain sync is refused while the newest session is open. -/
structure StreamExclusive (settings : Settings V) (around : Surroundings V) (c : ServiceConfig V) : Prop where
  numbered : ∀ {clientId id generation}, (activateStreamSection clientId id c.state).1 = some generation →
    generation = (sessions c.history id).length + 1
  oneActive : ∀ {id state}, c.state.subscriptions.get? id = some state → ∀ generation,
    (isStreamActiveSection id generation c.state).1 = true ↔ generation = (sessions c.history id).length
  connected : ∀ {id state}, c.state.subscriptions.get? id = some state →
    (state.streamConnected = true ↔ Streaming c id)
  olderEnds : ∀ {c' : ServiceConfig V} {t id state state'}, Step (service settings around) c c' →
    c.InFlight t → ¬ c'.InFlight t → t ∈ sessions c'.history id →
    (sessions c'.history id).head? ≠ some t → c.state.subscriptions.get? id = some state →
    c'.state.subscriptions.get? id = some state' → state'.streamConnected = state.streamConnected
  refused : ∀ {clientId id state} ack, c.state.inScope clientId id = some state →
    ((syncStartSection clientId id ack false c.state).1 = .refused ↔ Streaming c id)

/-- No newest session of a subscription ended without its final deactivation: by a response that
is dropped before its first event, or by a cancelled wait for the lock. -/
def NewestDeactivated (h : ServiceHistory V) : Prop := ∀ id t, ¬ NewestMissed h id t

theorem activateStream_numbered {c : ServiceConfig V} (h : ServiceReachable settings around c)
    {clientId : Option String} {id : SubscriptionId} {generation : Nat}
    (activated : (activateStreamSection clientId id c.state).1 = some generation) :
    generation = (sessions c.history id).length + 1 := by
  rcases activateStream_cases clientId id c.state with ⟨_, same⟩ | ⟨state, state', found, _, _, next, _, same⟩
  · rw [same] at activated
    cases activated
  · rw [same] at activated
    cases activated
    rw [next, activeStreamGeneration_eq h (inScope_get? found)]

/-- A session that ends while a newer one exists leaves the flag alone. -/
theorem olderEnds_keeps {c c' : ServiceConfig V} (h : ServiceReachable settings around c)
    (step : Step (service settings around) c c') {t : ServiceTag V} {id : SubscriptionId}
    {state state' : SubscriptionState V} (running : c.InFlight t) (ended : ¬ c'.InFlight t)
    (older : (sessions c'.history id).head? ≠ some t) (found : c.state.subscriptions.get? id = some state)
    (found' : c'.state.subscriptions.get? id = some state') :
    state'.streamConnected = state.streamConnected := by
  obtain ⟨u, events, history, own, others⟩ := step_moves step
  have moved : t = u := by
    by_contra apart
    exact ended ((others t apart).mpr running)
  subst moved
  -- what the ending call adds is no activation, which would make it the newest session
  have unopened : sessions events id = [] := by
    by_contra some_
    obtain ⟨w, rest, newer⟩ := List.exists_cons_of_ne_nil some_
    have same : w = t := own _ (mem_sessions.mp (newer ▸ List.mem_cons_self))
    rw [history, sessions_append, newer, same] at older
    exact older rfl
  have same : sessions c'.history id = sessions c.history id := by
    rw [history, sessions_append, unopened, List.nil_append]
  have flag := streamConnected_iff h found
  have flag' := streamConnected_iff (.step h step) found'
  rw [Bool.eq_iff_iff, flag', flag, same]
  refine exists_congr fun w => and_congr_right fun newest => ?_
  have apart : w ≠ t := by
    rintro rfl
    rw [same] at older
    exact older newest
  refine or_congr (others w apart) ?_
  unfold NewestMissed
  rw [history, List.mem_append]
  exact or_iff_right fun inside => apart (own _ inside)

theorem syncStart_refused_iff {s : ServiceState V} {clientId : Option String} {id : SubscriptionId}
    {state : SubscriptionState V} (ack : Option Int) (found : s.inScope clientId id = some state) :
    (syncStartSection clientId id ack false s).1 = .refused ↔ state.streamConnected = true := by
  simp only [syncStartSection, found]
  cases state.streamConnected <;> simp

/-- Streams are exclusive in every state of a run in which no newest session misses its
final deactivation. -/
theorem streams_exclusive {c : ServiceConfig V} (h : ServiceReachable settings .any c)
    (deactivated : NewestDeactivated c.history) : StreamExclusive settings .any c := by
  have connected {id : SubscriptionId} {state : SubscriptionState V}
      (found : c.state.subscriptions.get? id = some state) : state.streamConnected = true ↔ Streaming c id := by
    rw [streamConnected_iff h found, Streaming]
    exact exists_congr fun t => and_congr_right fun _ => or_iff_left (deactivated id t)
  refine ⟨activateStream_numbered h, fun found generation => ?_, connected, ?_, fun ack found => ?_⟩
  · simp only [isStreamActiveSection, found, decide_eq_true_eq, activeStreamGeneration_eq h found]
    exact eq_comm
  · intro c' t id state state' step running ended _ older found found'
    exact olderEnds_keeps h step running ended older found found'
  · rw [syncStart_refused_iff ack found]
    exact connected (inScope_get? found)

end

/-- A client opens a stream on a subscription and the response begins. -/
def streamOpened : List (Decision Int) :=
  [.spawn (.createSubscription (some "c") none), .grant .main,
    .spawn (.streamSubscription (some "c") 0 3), .grant .main, .grant .main, .grant .main, .reply 0 obliging]

/-- A second stream takes over, whereupon the first one closes and ends. -/
def streamSuperseded : List (Decision Int) :=
  streamOpened ++
    [.spawn (.streamSubscription (some "c") 0 3), .grant .main, .grant .main, .grant .main, .reply 0 obliging,
      .grant .main, .reply 1 obliging, .reply 1 obliging, .grant .main]

/-- No session has missed its deactivation so far. -/
def unmissed (h : ServiceHistory Int) : Bool :=
  h.all fun event =>
    match event with
    | .noted _ (.deactivationMissed ..) => false
    | _ => true

theorem unmissed_spec {h : ServiceHistory Int} (none_yet : unmissed h = true) : NewestDeactivated h :=
  fun _ _ inside => absurd (List.all_eq_true.mp none_yet _ inside) Bool.false_ne_true

theorem streams_exclusive_opened : ∃ c, smallRun streamSuperseded = some c ∧ NewestDeactivated c.history ∧
    (sessions c.history 0).length = 2 ∧ c.pending.length = 1 ∧ StreamExclusive smallServer .any c := by
  let c := (smallRun streamSuperseded).get rfl
  have done : smallRun streamSuperseded = some c := rfl
  have deactivated : NewestDeactivated c.history := unmissed_spec rfl
  exact ⟨c, done, deactivated, rfl, rfl, streams_exclusive (smallRun_reachable done) deactivated⟩

/-- What remains of a session that has missed its deactivation: the flag is up and
refuses the next sync, with no session left. -/
theorem stays_connected {ds : List (Decision Int)} {c : ServiceConfig Int} (done : smallRun ds = some c)
    (rest : atRest c = true) {state : SubscriptionState Int} (found : c.state.subscriptions.get? 0 = some state)
    (up : state.streamConnected = true) (own : state.clientId = some "c") :
    ServiceReachable smallServer .any c ∧
    ∃ state, c.state.subscriptions.get? 0 = some state ∧ state.streamConnected = true ∧ ¬ Streaming c 0 ∧
      c.state.inScope (some "c") 0 = some state ∧
      (syncStartSection (some "c") 0 none false c.state).1 = .refused := by
  have visible := inScope_of_visible found (.inr own)
  refine ⟨smallRun_reachable done, state, found, up, ?_, visible, (syncStart_refused_iff none visible).mpr up⟩
  rintro ⟨t, _, running⟩
  exact not_inFlight_of_atRest rest t running

/-- A client that goes away as soon as its stream is opened. -/
def streamDropped : List (Decision Int) :=
  [.spawn (.createSubscription (some "c") none), .grant .main,
    .spawn (.streamSubscription (some "c") 0 3), .grant .main, .grant .main, .grant .main,
    .reply 0 fun q =>
      match q with
      | .startResponse _ => some false
      | other => obliging other]

theorem dropped_stream_stays_connected : ∃ c : ServiceConfig Int, ServiceReachable smallServer .any c ∧
    ∃ state, c.state.subscriptions.get? 0 = some state ∧ state.streamConnected = true ∧ ¬ Streaming c 0 ∧
      c.state.inScope (some "c") 0 = some state ∧
      (syncStartSection (some "c") 0 none false c.state).1 = .refused := by
  let c := (smallRun streamDropped).get rfl
  have done : smallRun streamDropped = some c := rfl
  exact ⟨c, stays_connected done rfl rfl rfl rfl⟩

/-- A client that goes away during its stream, with the final deactivation cancelled as well. -/
def streamCancelled : List (Decision Int) :=
  streamOpened ++
    [.reply 0 fun q =>
      match q with
      | .emit .. => some false
      | other => obliging other,
    .reply 0 fun q =>
      match q with
      | .finalDeactivation _ => some false
      | other => obliging other]

theorem cancelled_stream_stays_connected : ∃ c : ServiceConfig Int, ServiceReachable smallServer .any c ∧
    ∃ state, c.state.subscriptions.get? 0 = some state ∧ state.streamConnected = true ∧ ¬ Streaming c 0 ∧
      c.state.inScope (some "c") 0 = some state ∧
      (syncStartSection (some "c") 0 none false c.state).1 = .refused := by
  let c := (smallRun streamCancelled).get rfl
  have done : smallRun streamCancelled = some c := rfl
  exact ⟨c, stays_connected done rfl rfl rfl rfl⟩

end I3x.Subscriptions

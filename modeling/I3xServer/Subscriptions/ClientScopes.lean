import I3xServer.Subscriptions.StreamClosings

/-!
# Client scopes

The routes treat the client id of a request differently: create, register,
unregister and sync pass it on as it is, list and delete strip it, and a stream
strips it, opens its session without a scope if need be, and waits in the
stripped scope. They agree on a subscription for the client ids that stripping
treats like the one it was created with.
-/
namespace I3x.Subscriptions
open Container Coroutine
variable {V : Type}

/-! ## Listing -/

structure SubscriptionDetail where
  subscriptionId : SubscriptionId
  clientId : Option String
  displayName : Option String
  monitoredObjects : List (String × Int)
  mode : Mode

def toDetail (state : SubscriptionState V) : SubscriptionDetail where
  subscriptionId := state.subscriptionId
  clientId := state.clientId
  displayName := state.displayName
  monitoredObjects := state.monitoredObjects.entries
  mode := state.mode

/-- `list_subscriptions`, which holds the lock for its first part and does not suspend after it. -/
def listSubscriptionsSection (clientId : Option String) (subscriptionIds : Option (List SubscriptionId)) :
    Section V (List SubscriptionDetail) := fun s =>
  let values := s.subscriptions.values.filter fun item => clientId.isNone || decide (item.clientId = clientId)
  let values :=
    match subscriptionIds with
    | none => values
    | some allowed => values.filter fun item => decide (item.subscriptionId ∈ allowed)
  (values.map toDetail, s, [])

/-- One item of the answer to a list request: the detail, or the error that there is none. -/
def mapSubscriptionDetailBulkItems (details : List SubscriptionDetail)
    (requestedIds : Option (List SubscriptionId)) : List (SubscriptionId × Option SubscriptionDetail) :=
  let detailById := Dict.ofList (details.map fun item => (item.subscriptionId, item))
  match requestedIds with
  | none => details.map fun item => (item.subscriptionId, some item)
  | some ids => ids.map fun id => (id, detailById.get? id)

/-! ## Requests with a client id -/

/-- A request on subscriptions, streams apart. -/
inductive ScopedRequest where
  | register (id : SubscriptionId) (elementIds : List String) (maxDepth : Int) (model : BuildResult) (fuel : Nat)
  | unregister (id : SubscriptionId) (elementIds : List String) (model : BuildResult) (fuel : Nat)
  | sync (id : SubscriptionId) (lastSequenceNumber : Option Int)
  | list (subscriptionIds : List SubscriptionId)
  | delete (subscriptionIds : List SubscriptionId)

/-- What the section that looks the subscription up tells the request. -/
inductive ScopedAnswer (V : Type) where
  | invalidClient
  | membership (change : MembershipChange)
  | sync (start : SyncStart)
  | listed (items : List (SubscriptionId × Option SubscriptionDetail))
  | deleted (removed : List (SubscriptionState V)) (results : List SubscriptionDeleteResult)

namespace ScopedRequest

/-- The routes of these requests strip the client id. -/
def Strips : ScopedRequest → Prop
  | .list _ | .delete _ => True
  | _ => False

instance (r : ScopedRequest) : Decidable r.Strips := by
  cases r <;> first | exact .isTrue trivial | exact .isFalse not_false

/-- The client id that the route passes on, none if it answers that there is none. -/
def scope (settings : Settings V) (r : ScopedRequest) (clientId : String) : Option String :=
  (requiredClientId settings (some clientId)).map fun clientId =>
    if r.Strips then settings.text.strip clientId else clientId

/-- `body.subscriptionIds or None` of a list request. -/
def filtered (subscriptionIds : List SubscriptionId) : Option (List SubscriptionId) :=
  if subscriptionIds = [] then none else some subscriptionIds

/-- The request is about the subscription. -/
def Names (id : SubscriptionId) : ScopedRequest → Prop
  | .register other .. | .unregister other .. | .sync other _ => other = id
  | .list ids => ids = [] ∨ id ∈ ids
  | .delete ids => id ∈ ids

/-- The section that looks up the subscriptions of the request. -/
def lookup (settings : Settings V) (scope : String) : ScopedRequest → Section V (ScopedAnswer V)
  | .register id elementIds maxDepth model fuel, s =>
      let (change, s, notes) :=
        membershipSection settings (some scope) id (registerObjects · elementIds maxDepth) model fuel s
      (.membership change, s, notes)
  | .unregister id elementIds model fuel, s =>
      let (change, s, notes) := membershipSection settings (some scope) id (unregisterObjects · elementIds) model fuel s
      (.membership change, s, notes)
  | .sync id last, s =>
      let (start, s, notes) := syncStartSection (some scope) id last false s
      (.sync start, s, notes)
  | .list ids, s =>
      let (details, s, notes) := listSubscriptionsSection (some scope) (filtered ids) s
      (.listed (mapSubscriptionDetailBulkItems details (filtered ids)), s, notes)
  | .delete ids, s =>
      let ((removed, results), s, notes) := deleteSection settings (some scope) ids s
      (.deleted removed results, s, notes)

/-- The request with the client id as it was sent. -/
def answer (settings : Settings V) (r : ScopedRequest) (clientId : String) : Section V (ScopedAnswer V) := fun s =>
  match r.scope settings clientId with
  | none => (.invalidClient, s, [])
  | some scope => r.lookup settings scope s

end ScopedRequest

/-- The answer shows that there is such a subscription. -/
def ScopedAnswer.Finds (id : SubscriptionId) : ScopedAnswer V → Prop
  | .invalidClient => False
  | .membership change => change ≠ .missing
  | .sync start => start ≠ .missing
  | .listed items => ∃ detail, (id, some detail) ∈ items
  | .deleted _ results => ⟨true, id, none⟩ ∈ results

/-- The state in which there is no such subscription. -/
def ServiceState.without (s : ServiceState V) (id : SubscriptionId) : ServiceState V :=
  { s with subscriptions := s.subscriptions.erase id }

/-- The request does not find, reveal or change the subscription: it is answered as
if there were none, and leaves the one there is. -/
structure Blind (settings : Settings V) (s : ServiceState V) (id : SubscriptionId) (r : ScopedRequest)
    (clientId : String) : Prop where
  unfound : ¬ (r.answer settings clientId s).1.Finds id
  unrevealed : (r.answer settings clientId s).1 = (r.answer settings clientId (s.without id)).1
  unchanged : (r.answer settings clientId s).2.1.subscriptions.get? id = s.subscriptions.get? id

/-- The request finds the subscription exactly if it carries the owner's client id. -/
structure ScopeAgrees (settings : Settings V) (s : ServiceState V) (id : SubscriptionId) (owner : String)
    (r : ScopedRequest) (clientId : String) : Prop where
  own : clientId = owner → (r.answer settings clientId s).1.Finds id
  foreign : clientId ≠ owner → Blind settings s id r clientId

/-- The sections of a stream see the subscription: one of those that open it, and
every one of its waits. -/
structure StreamServed (settings : Settings V) (s : ServiceState V) (id : SubscriptionId) (clientId : String) :
    Prop where
  opens : (activateStreamSection (some (settings.text.strip clientId)) id s).1.isSome ∨
    (activateStreamSection none id s).1.isSome
  waits : ∀ afterSequence,
    (waitStartSection settings (some (settings.text.strip clientId)) id afterSequence streamTimeoutMs s).1 ≠ .missing
  timesOut : ∀ refresh threshold,
    (waitTimeoutSection settings (some (settings.text.strip clientId)) id refresh threshold s).1.isSome
  resets : (resetTimeoutSection (some (settings.text.strip clientId)) id s).1 = true
  resumes : ∀ afterSequence timedOut,
    (waitResultSection (some (settings.text.strip clientId)) id afterSequence timedOut s).1.isSome

/-- The routes take the client id for one. -/
def NonBlank (settings : Settings V) (clientId : String) : Prop := clientId ≠ "" ∧ settings.text.strip clientId ≠ ""

/-! ## What a lookup sees -/

section
variable {settings : Settings V} {s s' : ServiceState V} {id : SubscriptionId} {scope : Option String}

theorem inScope_without (s : ServiceState V) (id other : SubscriptionId) (scope : Option String) :
    (s.without id).inScope scope other = if other = id then none else s.inScope scope other := by
  unfold ServiceState.inScope ServiceState.without
  rw [Dict.get?_erase]
  split_ifs with here
  · rfl
  · rfl

/-- Hiding an unseen subscription changes nothing for the caller. -/
theorem inScope_hidden (unseen : s.inScope scope id = none) (other : SubscriptionId) :
    (s.without id).inScope scope other = s.inScope scope other := by
  rw [inScope_without]
  split_ifs with here
  · rw [here, unseen]
  · rfl

theorem membershipSection_unseen (unseen : s.inScope scope id = none) (change : Dict String Int → Dict String Int)
    (model : BuildResult) (fuel : Nat) :
    membershipSection settings scope id change model fuel s = (.missing, s, []) := by
  simp only [membershipSection, unseen]

theorem syncStartSection_unseen (unseen : s.inScope scope id = none) (ack : Option Int) (allow : Bool) :
    syncStartSection scope id ack allow s = (.missing, s, []) := by
  simp only [syncStartSection, unseen]

theorem membershipSection_seen {state : SubscriptionState V} (seen : s.inScope scope id = some state)
    (change : Dict String Int → Dict String Int) (model : BuildResult) (fuel : Nat) :
    (membershipSection settings scope id change model fuel s).1 ≠ .missing := by
  simp only [membershipSection, seen]
  split <;> exact nofun

theorem syncStartSection_seen {state : SubscriptionState V} (seen : s.inScope scope id = some state)
    (ack : Option Int) (allow : Bool) : (syncStartSection scope id ack allow s).1 ≠ .missing := by
  simp only [syncStartSection, seen]
  split <;> exact fun same => by cases same

/-! ## Deleting -/

theorem deleteSection_congr (ids : List SubscriptionId)
    (same : ∀ other, s.inScope scope other = s'.inScope scope other) :
    (deleteSection settings scope ids s).1 = (deleteSection settings scope ids s').1 := by
  induction ids generalizing s s' with
  | nil => rfl
  | cons id ids ih =>
      simp only [deleteSection]
      rw [← same id]
      cases s.inScope scope id with
      | none => simp only [ih same]
      | some state =>
          have rest : ∀ other, (s.without id).inScope scope other = (s'.without id).inScope scope other := by
            intro other
            rw [inScope_without, inScope_without, same]
          have later := ih rest
          simp only [ServiceState.without] at later
          simp only [later]

theorem deleteSection_keeps (ids : List SubscriptionId) (unseen : s.inScope scope id = none) :
    (deleteSection settings scope ids s).2.1.subscriptions.get? id = s.subscriptions.get? id := by
  induction ids generalizing s with
  | nil => rfl
  | cons other ids ih =>
      simp only [deleteSection]
      cases found : s.inScope scope other with
      | none => exact ih unseen
      | some state =>
          have apart : id ≠ other := by
            rintro rfl
            cases found.symm.trans unseen
          have hidden : (s.without other).inScope scope id = none := by
            rw [inScope_without, if_neg apart, unseen]
          exact (ih hidden).trans (Dict.get?_erase_ne _ apart)

/-- A requested subscription is deleted exactly if the caller sees it. -/
theorem deleteSection_finds (ids : List SubscriptionId) :
    ⟨true, id, none⟩ ∈ (deleteSection settings scope ids s).1.2 ↔ id ∈ ids ∧ (s.inScope scope id).isSome := by
  induction ids generalizing s with
  | nil => simp [deleteSection]
  | cons other ids ih =>
      simp only [deleteSection]
      cases found : s.inScope scope other with
      | none =>
          simp only [List.mem_cons, ih]
          constructor
          · rintro (failed | ⟨inside, seen⟩)
            · cases failed
            · exact ⟨.inr inside, seen⟩
          · rintro ⟨rfl | inside, seen⟩
            · rw [found] at seen
              cases seen
            · exact .inr ⟨inside, seen⟩
      | some state =>
          have rest := ih (s := s.without other)
          simp only [ServiceState.without] at rest
          simp only [List.mem_cons, rest]
          change _ ∨ _ ∧ ((s.without other).inScope scope id).isSome = true ↔ _
          rw [inScope_without]
          by_cases here : id = other
          · subst here
            simp [found]
          · simp [here]

/-! ## Listing and its items -/

theorem values_filter_erase {K W : Type} [DecidableEq K] (d : Dict K W) {k : K} {p : W → Bool}
    (dropped : ∀ w, d.get? k = some w → p w = false) : (d.erase k).values.filter p = d.values.filter p := by
  unfold Dict.erase Dict.filterKeys Dict.values
  rw [List.filter_map, List.filter_map, List.filter_filter]
  refine congrArg _ (List.filter_congr fun e inside => ?_)
  by_cases here : e.1 = k
  · have out : p e.2 = false := dropped e.2 ((d.mem_entries k e.2).mp (here ▸ inside))
    simp [here, out]
  · simp [here]

theorem listSubscriptionsSection_hidden {owner : String} (ids : Option (List SubscriptionId))
    (unseen : s.inScope (some owner) id = none) :
    (listSubscriptionsSection (some owner) ids (s.without id)).1 = (listSubscriptionsSection (some owner) ids s).1 := by
  have same := values_filter_erase s.subscriptions (k := id)
    (p := fun item => (some owner).isNone || decide (item.clientId = some owner)) fun state found => by
      unfold ServiceState.inScope at unseen
      rw [found] at unseen
      simpa using unseen
  simp only [listSubscriptionsSection, ServiceState.without, same]

theorem mem_listSubscriptionsSection {owner : String} (ids : List SubscriptionId) (keys : WellKeyed s)
    {state : SubscriptionState V} (found : s.subscriptions.get? id = some state) (names : ids = [] ∨ id ∈ ids) :
    id ∈ (listSubscriptionsSection (some owner) (ScopedRequest.filtered ids) s).1.map (·.subscriptionId) ↔
      state.clientId = some owner := by
  have listed : id ∈ (listSubscriptionsSection (some owner) (ScopedRequest.filtered ids) s).1.map (·.subscriptionId) ↔
      ∃ item ∈ s.subscriptions.values, item.clientId = some owner ∧ item.subscriptionId = id := by
    unfold listSubscriptionsSection ScopedRequest.filtered
    rcases names with rfl | inside
    · simp [toDetail, and_assoc]
    · have some_ : ids ≠ [] := List.ne_nil_of_mem inside
      simp only [if_neg some_, List.map_map, List.mem_map, List.mem_filter, Function.comp_apply, toDetail,
        Option.isNone_some, Bool.false_or, decide_eq_true_eq]
      constructor
      · rintro ⟨item, ⟨⟨there, client⟩, _⟩, same⟩
        exact ⟨item, there, client, same⟩
      · rintro ⟨item, there, client, rfl⟩
        exact ⟨item, ⟨⟨there, client⟩, inside⟩, rfl⟩
  rw [listed]
  constructor
  · rintro ⟨item, there, client, same⟩
    obtain ⟨k, stored⟩ := (s.subscriptions.mem_values item).mp there
    have key : k = id := (keys.keyed stored).symm.trans same
    rw [key, found] at stored
    cases stored
    exact client
  · intro client
    exact ⟨state, (s.subscriptions.mem_values state).mpr ⟨id, found⟩, client, keys.keyed found⟩

/-- The answer to a list request shows the subscriptions that were listed. -/
theorem mapSubscriptionDetailBulkItems_finds (details : List SubscriptionDetail) (ids : List SubscriptionId)
    (names : ids = [] ∨ id ∈ ids) :
    (∃ detail, (id, some detail) ∈ mapSubscriptionDetailBulkItems details (ScopedRequest.filtered ids)) ↔
      id ∈ details.map (·.subscriptionId) := by
  unfold mapSubscriptionDetailBulkItems ScopedRequest.filtered
  rcases names with rfl | inside
  · simp only [if_true, List.mem_map, Prod.mk.injEq, Option.some.injEq]
    constructor
    · rintro ⟨detail, item, there, same, rfl⟩
      exact ⟨item, there, same⟩
    · rintro ⟨item, there, same⟩
      exact ⟨item, item, there, same, rfl⟩
  · have some_ : ids ≠ [] := List.ne_nil_of_mem inside
    have stored : id ∈ details.map (·.subscriptionId) ↔
        ∃ detail, (Dict.ofList (details.map fun item => (item.subscriptionId, item))).get? id = some detail := by
      rw [← Dict.mem_keys, Dict.ofList, Dict.keys_update, List.map_map]
      simp [Dict.keys, Dict.empty]
    rw [stored]
    simp only [if_neg some_, List.mem_map, Prod.mk.injEq]
    constructor
    · rintro ⟨detail, other, _, rfl, same⟩
      exact ⟨detail, same⟩
    · rintro ⟨detail, same⟩
      exact ⟨detail, id, inside, rfl, same⟩

/-! ## Requests -/

namespace ScopedRequest

theorem inScope_owner {owner : String} {state : SubscriptionState V} (found : s.subscriptions.get? id = some state)
    (owned : state.clientId = some owner) (client : String) :
    s.inScope (some client) id = if client = owner then some state else none := by
  unfold ServiceState.inScope
  rw [found]
  simp only [Option.isSome_some, true_and, owned, ne_eq, Option.some.injEq, ite_not]
  exact if_congr eq_comm rfl rfl

/-- A lookup in the owner's scope finds the subscription. -/
theorem lookup_finds {owner : String} {state : SubscriptionState V} {r : ScopedRequest} (keys : WellKeyed s)
    (found : s.subscriptions.get? id = some state) (owned : state.clientId = some owner) (names : r.Names id) :
    (r.lookup settings owner s).1.Finds id := by
  have seen : s.inScope (some owner) id = some state := (inScope_owner found owned owner).trans (if_pos rfl)
  cases r with
  | register other elementIds maxDepth model fuel =>
      cases names
      exact membershipSection_seen seen (registerObjects · elementIds maxDepth) model fuel
  | unregister other elementIds model fuel =>
      cases names
      exact membershipSection_seen seen (unregisterObjects · elementIds) model fuel
  | sync other last =>
      cases names
      exact syncStartSection_seen seen last false
  | list ids =>
      refine (mapSubscriptionDetailBulkItems_finds _ ids names).mpr ?_
      exact (mem_listSubscriptionsSection ids keys found names).mpr owned
  | delete ids => exact (deleteSection_finds ids).mpr ⟨names, seen ▸ rfl⟩

/-- A lookup in another scope is blind to it. -/
theorem lookup_blind (settings : Settings V) {owner client : String} {state : SubscriptionState V} {r : ScopedRequest}
    (keys : WellKeyed s)
    (found : s.subscriptions.get? id = some state) (owned : state.clientId = some owner) (names : r.Names id)
    (other : client ≠ owner) :
    ¬ (r.lookup settings client s).1.Finds id ∧
      (r.lookup settings client s).1 = (r.lookup settings client (s.without id)).1 ∧
      (r.lookup settings client s).2.1.subscriptions.get? id = s.subscriptions.get? id := by
  have unseen : s.inScope (some client) id = none := (inScope_owner found owned client).trans (if_neg other)
  have hidden : (s.without id).inScope (some client) id = none := by rw [inScope_without, if_pos rfl]
  cases r with
  | register target elementIds maxDepth model fuel =>
      cases names
      simp only [lookup, membershipSection_unseen unseen, membershipSection_unseen hidden]
      exact ⟨fun finds => finds rfl, trivial, trivial⟩
  | unregister target elementIds model fuel =>
      cases names
      simp only [lookup, membershipSection_unseen unseen, membershipSection_unseen hidden]
      exact ⟨fun finds => finds rfl, trivial, trivial⟩
  | sync target last =>
      cases names
      simp only [lookup, syncStartSection_unseen unseen, syncStartSection_unseen hidden]
      exact ⟨fun finds => finds rfl, trivial, trivial⟩
  | list ids =>
      refine ⟨fun finds => ?_, ?_, rfl⟩
      · have listed := (mapSubscriptionDetailBulkItems_finds _ ids names).mp finds
        have client := (mem_listSubscriptionsSection ids keys found names).mp listed
        exact other (Option.some.inj (client.symm.trans owned))
      · simp only [lookup, listSubscriptionsSection_hidden _ unseen]
  | delete ids =>
      refine ⟨fun finds => ?_, ?_, deleteSection_keeps ids unseen⟩
      · have seen := ((deleteSection_finds ids).mp finds).2
        rw [unseen] at seen
        cases seen
      · have same : (deleteSection settings (some client) ids s).1 =
            (deleteSection settings (some client) ids (s.without id)).1 :=
          deleteSection_congr ids fun other => (inScope_hidden unseen other).symm
        simp only [lookup, same]

end ScopedRequest

/-- Which client ids a route passes on as the owner's. -/
theorem scope_eq_iff {owner : String} (valid : NonBlank settings owner) (r : ScopedRequest) (client : String) :
    r.scope settings client = some owner ↔ if r.Strips then settings.text.strip client = owner else client = owner := by
  unfold ScopedRequest.scope requiredClientId
  rw [Option.bind_some]
  by_cases blank : settings.text.strip client = ""
  · rw [if_pos blank, Option.map_none]
    refine iff_of_false nofun ?_
    split_ifs with strips
    · exact fun same => valid.1 (same.symm.trans blank)
    · rintro rfl
      exact valid.2 blank
  · rw [if_neg blank, Option.map_some, Option.some.injEq]
    split_ifs with strips
    · exact Iff.rfl
    · exact Iff.rfl

theorem scopeAgrees_iff {owner : String} {state : SubscriptionState V} {r : ScopedRequest} (keys : WellKeyed s)
    (found : s.subscriptions.get? id = some state) (owned : state.clientId = some owner)
    (valid : NonBlank settings owner) (names : r.Names id) (client : String) :
    ScopeAgrees settings s id owner r client ↔
      (r.Strips → (settings.text.strip client = owner ↔ client = owner)) := by
  have passes := scope_eq_iff valid r client
  have finds (passed : r.scope settings client = some owner) : (r.answer settings client s).1.Finds id := by
    simp only [ScopedRequest.answer, passed]
    exact r.lookup_finds keys found owned names
  have blind (other : r.scope settings client ≠ some owner) : Blind settings s id r client := by
    cases passed : r.scope settings client with
    | none =>
        constructor
        · simp only [ScopedRequest.answer, passed]
          exact not_false
        · simp only [ScopedRequest.answer, passed]
        · simp only [ScopedRequest.answer, passed]
    | some scope =>
        have apart : scope ≠ owner := fun same => other (same ▸ passed)
        obtain ⟨unfound, unrevealed, unchanged⟩ := r.lookup_blind settings keys found owned names apart
        constructor
        · simpa only [ScopedRequest.answer, passed] using unfound
        · simpa only [ScopedRequest.answer, passed] using unrevealed
        · simpa only [ScopedRequest.answer, passed] using unchanged
  constructor
  · intro agrees strips
    rw [if_pos strips] at passes
    constructor
    · intro same
      by_contra foreign
      exact (agrees.foreign foreign).unfound (finds (passes.mpr same))
    · intro same
      by_contra other
      exact (blind (fun passed => other (passes.mp passed))).unfound (agrees.own same)
  · intro agree
    have exactly : r.scope settings client = some owner ↔ client = owner := by
      rw [passes]
      split_ifs with strips
      · exact agree strips
      · exact Iff.rfl
    exact ⟨fun own => finds (exactly.mpr own), fun foreign => blind fun passed => foreign (exactly.mp passed)⟩

/-! ## Streams -/

theorem waitStartSection_seen {state : SubscriptionState V} (seen : s.inScope scope id = some state)
    (afterSequence timeoutMs : Nat) : (waitStartSection settings scope id afterSequence timeoutMs s).1 ≠ .missing := by
  simp only [waitStartSection, seen]
  split <;> exact nofun

theorem waitTimeoutSection_seen {state : SubscriptionState V} (seen : s.inScope scope id = some state)
    (refresh : Bool) (threshold : Nat) : (waitTimeoutSection settings scope id refresh threshold s).1.isSome := by
  simp only [waitTimeoutSection, seen]
  split <;> rfl

/-- A stream is opened whatever its client id; it is served exactly in the owner's scope. -/
theorem streamServed_iff {owner : String} {state : SubscriptionState V}
    (found : s.subscriptions.get? id = some state) (owned : state.clientId = some owner) (client : String) :
    StreamServed settings s id client ↔ settings.text.strip client = owner := by
  have seen := ScopedRequest.inScope_owner found owned (settings.text.strip client)
  constructor
  · intro served
    by_contra other
    rw [if_neg other] at seen
    refine served.waits 0 ?_
    simp only [waitStartSection, seen]
  · intro same
    rw [if_pos same] at seen
    refine ⟨.inl ?_, fun afterSequence => waitStartSection_seen seen afterSequence _,
      fun refresh threshold => waitTimeoutSection_seen seen refresh threshold, ?_, fun afterSequence timedOut => ?_⟩
    · simp only [activateStreamSection, seen, Option.isSome_some]
    · simp only [resetTimeoutSection, seen]
    · simp only [waitResultSection, seen, Option.isSome_some]

end

/-! ## Every reachable state -/

section
variable {settings : Settings V} {around : Surroundings V}

/-- The client ids under which the routes agree on a subscription of the owner, and
its streams in every state that the service reaches. -/
theorem client_scopes_agree_iff {c : ServiceConfig V} (h : ServiceReachable settings around c)
    {id : SubscriptionId} {owner : String} (made : CreatedBy c.history id (some owner))
    (valid : NonBlank settings owner) :
    (∀ state, c.state.subscriptions.get? id = some state → ∀ client,
      (∀ r : ScopedRequest, r.Names id → (ScopeAgrees settings c.state id owner r client ↔
        (r.Strips → (settings.text.strip client = owner ↔ client = owner)))) ∧
      (StreamServed settings c.state id client ↔ settings.text.strip client = owner)) ∧
    ∀ t client rounds, t.call = .streamSubscription (some client) id rounds → settings.text.strip client = owner →
      .requested t (.emit id .close) ∈ c.history → ClosedFor c.state c.history t id := by
  have closings := reachable_closings h
  refine ⟨fun state found client => ?_, fun t client rounds call same closed => ?_⟩
  · have owned : state.clientId = some owner := closings.owners.owner made found
    exact ⟨fun r names => scopeAgrees_iff closings.owners.keys found owned valid names client,
      streamServed_iff found owned client⟩
  · have streams : t.call.Streams := by
      rw [call]
      trivial
    exact (closings.closed streams closed).2 ⟨client, rounds, call, same ▸ made⟩

end

/-- A client creates a subscription. -/
def clientCreated (client : String) : List (Decision Int) :=
  [.spawn (.createSubscription (some client) none), .grant .main]

theorem client_scopes_agree_plain : ∃ c, smallRun (clientCreated "c") = some c ∧
    ScopeAgrees smallServer c.state 0 "c" (.list []) "c" ∧ StreamServed smallServer c.state 0 "c" := by
  let c := (smallRun (clientCreated "c")).get rfl
  have done : smallRun (clientCreated "c") = some c := rfl
  have made : CreatedBy c.history 0 (some "c") := ⟨⟨0, _⟩, none, rfl, .tail _ (.head _)⟩
  have stripped : smallServer.text.strip "c" = "c" := by decide
  have agree := (client_scopes_agree_iff (smallRun_reachable done) made ⟨by decide, by decide⟩).1 _ rfl "c"
  exact ⟨c, done, (agree.1 (.list []) (.inl rfl)).mpr fun _ => ⟨fun _ => rfl, fun _ => stripped⟩,
    agree.2.mpr stripped⟩

/-- A client whose id begins with a blank does not find its own subscription in a
list, and its stream does not wait. -/
theorem padded_client_unlisted : ∃ c : ServiceConfig Int, ServiceReachable smallServer .any c ∧
    CreatedBy c.history 0 (some " c") ∧ NonBlank smallServer " c" ∧ (c.state.subscriptions.get? 0).isSome ∧
    ¬ ScopeAgrees smallServer c.state 0 " c" (.list []) " c" ∧ ¬ StreamServed smallServer c.state 0 " c" := by
  let c := (smallRun (clientCreated " c")).get rfl
  have done : smallRun (clientCreated " c") = some c := rfl
  refine ⟨c, smallRun_reachable done, ⟨⟨0, _⟩, none, rfl, .tail _ (.head _)⟩, ⟨by decide, by decide⟩, rfl,
    fun agrees => ?_, fun served => ?_⟩
  · have nothing : ((ScopedRequest.list []).answer smallServer " c" c.state).1 = .listed [] := rfl
    have finds := agrees.own rfl
    rw [nothing] at finds
    obtain ⟨_, inside⟩ := finds
    cases inside
  · exact served.waits 0 rfl

end I3x.Subscriptions

import I3xServer.Subscriptions.Accounting

/-!
# Which node a queued value comes from

A value is produced for a node when the server notifies it or when a read of the
node returns it. As long as no delivery strays, every value that is queued or
remembered under a node was produced for that node.
-/
namespace I3x.Subscriptions
open Container Coroutine
variable {V : Type} {settings : Settings V} {A : String → V → Prop}

/-- A notification or a read of the node gave the value. -/
def Produced (h : ServiceHistory V) (nodeId : String) (value : V) : Prop :=
  (∃ t, Event.noted t (.notified nodeId value) ∈ h) ∨
    ∃ t nodeIds values, Event.replied t (.readValues nodeIds) (some values) ∈ h ∧
      (nodeId, value) ∈ nodeIds.zip values

/-- The value is a normalised value that the node itself produced. -/
def OwnValue (settings : Settings V) (h : ServiceHistory V) (nodeId : String) (value : V) : Prop :=
  ∃ produced, Produced h nodeId produced ∧ value = settings.values.normalizeOpcuaValue produced

/-- No value was delivered to a subscription that does not monitor its node while
it monitors exactly one other node. -/
def Straight (h : ServiceHistory V) : Prop := ∀ t id nodeId, Event.noted t (.delivering id nodeId true) ∉ h

theorem Produced.mono {h h' : ServiceHistory V} {nodeId : String} {value : V}
    (sub : ∀ event ∈ h, event ∈ h') (produced : Produced h nodeId value) : Produced h' nodeId value := by
  rcases produced with ⟨t, notified⟩ | ⟨t, nodeIds, values, replied, zipped⟩
  · exact .inl ⟨t, sub _ notified⟩
  · exact .inr ⟨t, nodeIds, values, sub _ replied, zipped⟩

theorem OwnValue.mono {h h' : ServiceHistory V} {nodeId : String} {value : V}
    (sub : ∀ event ∈ h, event ∈ h') (own : OwnValue settings h nodeId value) :
    OwnValue settings h' nodeId value := by
  obtain ⟨produced, before, same⟩ := own
  exact ⟨produced, before.mono sub, same⟩

/-- `P` holds of every value that the subscription holds, with its node. -/
structure Holds (P : String → V → Prop) (state : SubscriptionState V) : Prop where
  updates : ∀ update ∈ state.updates, P update.nodeId update.value
  last : ∀ nodeId value, state.lastValuesByNodeId.get? nodeId = some value → P nodeId value

section
variable {P : String → V → Prop} {state : SubscriptionState V}

theorem Holds.mono {P' : String → V → Prop} (weaker : ∀ nodeId value, P nodeId value → P' nodeId value)
    (holds : Holds P state) : Holds P' state :=
  ⟨fun update m => weaker _ _ (holds.updates update m), fun nodeId value found =>
    weaker _ _ (holds.last nodeId value found)⟩

theorem Holds.push (holds : Holds P state) (update : SubscriptionUpdate V)
    (new : P update.nodeId update.value) : Holds P (pushUpdate settings state update) := by
  have last : ∀ nodeId value,
      (state.lastValuesByNodeId.set update.nodeId update.value).get? nodeId = some value →
        P nodeId value := by
    intro nodeId value found
    rw [Dict.get?_set] at found
    split_ifs at found with here
    · cases found
      rw [here]
      exact new
    · exact holds.last nodeId value found
  have added {old : List (SubscriptionUpdate V)} (sub : ∀ item ∈ old, item ∈ state.updates) :
      ∀ item ∈ old ++ [update], P item.nodeId item.value := by
    intro item inside
    rcases List.mem_append.mp inside with before | here
    · exact holds.updates item (sub item before)
    · rw [List.mem_singleton.mp here]
      exact new
  unfold pushUpdate
  dsimp only
  split
  · exact ⟨added fun _ inside => inside, last⟩
  · exact ⟨added fun _ inside => List.mem_of_mem_tail inside, last⟩

theorem Holds.acknowledge (holds : Holds P state) (value : Option Int) :
    Holds P (Subscriptions.acknowledge state value) := by
  unfold Subscriptions.acknowledge
  split
  · exact holds
  · split_ifs
    · exact ⟨fun _ => nofun, holds.last⟩
    · exact ⟨fun update inside => holds.updates update (List.mem_of_mem_filter inside), holds.last⟩
    · exact holds

/-- Values that are appended under their own node keep all of them attributed. -/
theorem QueueRun.holds {last : SubscriptionState V} {ns : List (Note V)}
    (run : QueueRun settings A state ns last)
    (sound : ∀ nodeId value, A nodeId value → P nodeId (settings.values.normalizeOpcuaValue value))
    (holds : Holds P state) :
    Holds P last ∧ ∀ id update, .queued id update ∈ ns → P update.nodeId update.value := by
  induction run with
  | refl state => exact ⟨holds, fun _ _ => nofun⟩
  | quiet same _ ih =>
      refine ih ?_
      rw [same]
      exact ⟨holds.updates, holds.last⟩
  | mark n plain _ ih =>
      obtain ⟨rest, queued⟩ := ih holds
      refine ⟨rest, fun id update inside => ?_⟩
      rcases List.mem_cons.mp inside with rfl | later
      · cases plain
      · exact queued id update later
  | @append state last ns now nodeId value allowed _ ih =>
      have new := sound nodeId value allowed
      unfold appendUpdate at ih ⊢
      dsimp only at ih ⊢
      by_cases current : isCurrent settings state nodeId (settings.values.normalizeOpcuaValue value) = true
      · rw [if_pos current] at ih ⊢
        exact ih holds
      · rw [if_neg current] at ih ⊢
        obtain ⟨rest, queued⟩ := ih (holds.push _ new)
        refine ⟨rest, fun id update inside => ?_⟩
        rcases List.mem_append.mp inside with here | later
        · unfold pushNotes at here
          split at here
          · cases List.mem_singleton.mp here
            exact new
          · rcases List.mem_cons.mp here with evicted | pushed
            · cases evicted
            · cases List.mem_singleton.mp pushed
              exact new
        · exact queued id update later
  | acknowledge value _ ih =>
      obtain ⟨rest, queued⟩ := ih (holds.acknowledge value)
      refine ⟨rest, fun id update inside => ?_⟩
      rcases List.mem_append.mp inside with here | later
      · obtain ⟨v, _, same⟩ := Option.map_eq_some_iff.mp (Option.mem_toList.mp here)
        cases same
      · exact queued id update later
  | report _ ih =>
      obtain ⟨rest, queued⟩ := ih ⟨holds.updates, holds.last⟩
      refine ⟨rest, fun id update inside => ?_⟩
      rcases List.mem_cons.mp inside with here | later
      · cases here
      · exact queued id update later

theorem Inherits.holds {allowed : (Dict String Int → Dict String Int) → BuildResult → Prop}
    {state' : SubscriptionState V} (inherits : Inherits settings allowed state state') (holds : Holds P state) :
    Holds P state' := by
  cases inherits with
  | same => exact holds
  | remonitored =>
      refine ⟨holds.updates, fun nodeId value found => ?_⟩
      simp only [Subscriptions.remonitored, Dict.get?_filterKeys] at found
      split_ifs at found
      exact holds.last nodeId value found

theorem Holds.fresh (id : SubscriptionId) (clientId displayName : Option String) (now : Nat) :
    Holds P (newSubscription id clientId displayName now) := ⟨fun _ => nofun, nofun⟩

end

/-! ## Whole runs -/

/-- Where the values of a state come from after the history `h`. -/
structure Attribution (settings : Settings V) (s : ServiceState V) (h : ServiceHistory V) : Prop where
  waiting : ∀ item ∈ s.nodeDatachangeQueue, Produced h item.1 item.2
  taken : ∀ t nodeId value, Event.noted t (.dequeued nodeId value) ∈ h → Produced h nodeId value
  held : ∀ id state, s.subscriptions.get? id = some state → Holds (OwnValue settings h) state
  queued : ∀ t id update, Event.noted t (.queued id update) ∈ h →
    OwnValue settings h update.nodeId update.value

/-- The attribution holds as long as no delivery strays. -/
structure Sourced (settings : Settings V) (s : ServiceState V) (h : ServiceHistory V) : Prop where
  keys : WellKeyed s
  attribution : Straight h → Attribution settings s h

theorem Heard.produced {h : ServiceHistory V} {t : ServiceTag V} {m : ServiceMemory V} {nodeId : String}
    {value : V} (known : ∀ w ∈ m, Program.Witness.event t w ∈ h)
    (taken : ∀ t nodeId value, Event.noted t (.dequeued nodeId value) ∈ h → Produced h nodeId value)
    (heard : Heard m nodeId value) : Produced h nodeId value := by
  rcases heard with ⟨nodeIds, values, replied, zipped⟩ | dequeued
  · exact .inr ⟨t, nodeIds, values, known _ replied, zipped⟩
  · exact taken t nodeId value (known _ dequeued)

/-- What a stretch adds to an attribution: new entries of the notification queue,
taken notifications, held values and queued updates, each from a produced value. -/
theorem Attribution.extend {s s' : ServiceState V} {h : ServiceHistory V} {t : ServiceTag V}
    {ns : List (Note V)} (old : Attribution settings s h)
    (waiting : ∀ item ∈ s'.nodeDatachangeQueue, item ∈ s.nodeDatachangeQueue ∨ .notified item.1 item.2 ∈ ns)
    (taken : ∀ nodeId value, .dequeued nodeId value ∈ ns → (nodeId, value) ∈ s.nodeDatachangeQueue)
    (held : ∀ id state, s'.subscriptions.get? id = some state → Holds (OwnValue settings h) state)
    (queued : ∀ id update, .queued id update ∈ ns → OwnValue settings h update.nodeId update.value) :
    Attribution settings s' (noted t ns ++ h) := by
  have grows : ∀ event ∈ h, event ∈ noted t ns ++ h := fun _ => List.mem_append_right _
  refine ⟨?_, ?_, ?_, ?_⟩
  · intro item inside
    rcases waiting item inside with before | new
    · exact (old.waiting item before).mono grows
    · exact .inl ⟨t, List.mem_append_left _ (mem_noted.mpr ⟨_, new, rfl⟩)⟩
  · intro t' nodeId value inside
    rcases List.mem_append.mp inside with new | before
    · obtain ⟨n, here, same⟩ := mem_noted.mp new
      cases same
      exact (old.waiting _ (taken nodeId value here)).mono grows
    · exact (old.taken t' nodeId value before).mono grows
  · intro id state found
    exact (held id state found).mono fun _ _ own => own.mono grows
  · intro t' id update inside
    rcases List.mem_append.mp inside with new | before
    · obtain ⟨n, here, same⟩ := mem_noted.mp new
      cases same
      exact (queued id update here).mono grows
    · exact (old.queued t' id update before).mono grows

theorem sourced_act {allowed : (Dict String Int → Dict String Int) → BuildResult → Prop} {t : ServiceTag V}
    {m : ServiceMemory V} {s s' : ServiceState V} {h : ServiceHistory V} {ns : List (Note V)}
    (sourced : Sourced settings s h) (known : ∀ w ∈ m, Program.Witness.event t w ∈ h)
    (step : CallStep settings allowed m s ns s') : Sourced settings s' (noted t ns ++ h) := by
  refine ⟨step.wellKeyed sourced.keys, fun straight => ?_⟩
  have old := sourced.attribution fun t id nodeId inside => straight t id nodeId (List.mem_append_right _ inside)
  have own (nodeId : String) (value : V) (may : Heard m nodeId value ∨ Strays ns) :
      OwnValue settings h nodeId (settings.values.normalizeOpcuaValue value) := by
    rcases may with heard | ⟨id, stray, inside⟩
    · exact ⟨value, heard.produced known old.taken, rfl⟩
    · exact absurd (List.mem_append_left _ (mem_noted.mpr ⟨_, inside, rfl⟩)) (straight t id stray)
  rcases step.traffic sourced.keys with ⟨⟨queue, _⟩, plain⟩ | ⟨nodeId, value, rfl, rfl⟩ |
    ⟨nodeId, value, rest, rfl, queue, rfl⟩ | ⟨nodeId, value, rfl, rfl⟩
  · have waiting : ∀ item ∈ s'.nodeDatachangeQueue,
        item ∈ s.nodeDatachangeQueue ∨ .notified item.1 item.2 ∈ ns := by
      intro item inside
      rw [queue] at inside
      exact .inl inside
    have taken : ∀ nodeId value, .dequeued nodeId value ∈ ns → (nodeId, value) ∈ s.nodeDatachangeQueue :=
      fun nodeId value inside => (plain _ inside trivial).elim
    rcases step.queue_or_descends sourced.keys with ⟨id, state, next, found, run, rfl⟩ | ⟨silent, descends⟩
    · obtain ⟨last, queued⟩ := run.holds own (old.held id state found)
      refine old.extend waiting taken (fun other state' there => ?_) queued
      rw [get?_setSubscription] at there
      split_ifs at there
      · cases there
        exact last
      · exact old.held other state' there
    · refine old.extend waiting taken (fun id state' there => ?_) fun id update inside => ?_
      · rcases descends id state' there with ⟨state, before, inherits⟩ | ⟨_, _, clientId, name, now, rfl⟩
        · exact inherits.holds (old.held id state before)
        · exact .fresh id clientId name now
      · exact (silent _ inside).elim
  · refine old.extend (fun item inside => ?_) (fun _ _ inside => ?_) old.held fun _ _ inside => ?_
    · simp only [enqueueNodeDatachange, List.mem_append, List.mem_singleton] at inside
      rcases inside with before | rfl
      · split at before
        · exact .inl (List.mem_of_mem_tail before)
        · exact .inl before
      · exact .inr List.mem_cons_self
    · cases List.mem_singleton.mp inside
    · cases List.mem_singleton.mp inside
  · refine old.extend (fun item inside => ?_) (fun _ _ inside => ?_) old.held fun _ _ inside => ?_
    · rw [queue]
      exact .inl (List.mem_cons_of_mem _ inside)
    · cases List.mem_singleton.mp inside
      rw [queue]
      exact List.mem_cons_self
    · cases List.mem_singleton.mp inside
  · refine old.extend (fun _ inside => .inl inside) (fun _ _ inside => ?_) old.held fun _ _ inside => ?_
    · cases List.mem_singleton.mp inside
    · cases List.mem_singleton.mp inside

/-- An event that is no note leaves the sources alone. -/
theorem Sourced.cons {s : ServiceState V} {h : ServiceHistory V} {event : ServiceEvent V}
    (plain : ∀ t n, event ≠ .noted t n) (sourced : Sourced settings s h) :
    Sourced settings s (event :: h) := by
  refine ⟨sourced.keys, fun straight => ?_⟩
  have grows : ∀ e ∈ h, e ∈ event :: h := fun _ => List.mem_cons_of_mem _
  have old := sourced.attribution fun t id nodeId inside => straight t id nodeId (grows _ inside)
  refine ⟨fun item inside => (old.waiting item inside).mono grows, ?_, fun id state found => ?_, ?_⟩
  · intro t nodeId value inside
    rcases List.mem_cons.mp inside with here | before
    · exact absurd here.symm (plain _ _)
    · exact (old.taken t nodeId value before).mono grows
  · exact (old.held id state found).mono fun _ _ own => own.mono grows
  · intro t id update inside
    rcases List.mem_cons.mp inside with here | before
    · exact absurd here.symm (plain _ _)
    · exact (old.queued t id update before).mono grows

theorem sourced_kept : Kept (fun _ => CallStep settings anyChange) (Sourced settings) where
  act _ _ _ _ _ _ sourced known step := sourced_act sourced known step
  spawned _ _ _ sourced := sourced.cons fun _ _ => nofun
  requested _ _ _ _ sourced := sourced.cons fun _ _ => nofun
  replied _ _ _ _ _ sourced := sourced.cons fun _ _ => nofun

theorem reachable_sourced {around : Surroundings V} {c : ServiceConfig V}
    (h : ServiceReachable settings around c) : Sourced settings c.state c.history := by
  have start : Sourced settings (.empty : ServiceState V) [] :=
    ⟨.empty, fun _ => ⟨fun _ => nofun, fun _ _ _ => nofun, fun _ _ => nofun, fun _ _ _ => nofun⟩⟩
  refine reachable_history start (fun v call holds _ => ?_) h
  exact sourced_kept.call (program_within settings anyChange call (changesAllowed_any call))
    (fun _ _ _ sourced => sourced.cons fun _ _ => nofun) holds

/-- In every run without a stray delivery, each queued update and each remembered
value carries a normalised value that its own node produced. -/
theorem values_attributed {c : ServiceConfig V} (h : ServiceReachable settings .any c)
    (straight : Straight c.history) :
    (∀ t id update, Event.noted t (.queued id update) ∈ c.history →
      OwnValue settings c.history update.nodeId update.value) ∧
    ∀ id state nodeId value, c.state.subscriptions.get? id = some state →
      state.lastValuesByNodeId.get? nodeId = some value → OwnValue settings c.history nodeId value := by
  have attribution := (reachable_sourced h).attribution straight
  exact ⟨attribution.queued, fun id state nodeId value found => (attribution.held id state found).last nodeId value⟩

/-- The event is a stray delivery. -/
def isStrayEvent : ServiceEvent V → Bool
  | .noted _ (.delivering _ _ true) => true
  | _ => false

theorem straight_of_all {h : ServiceHistory V} (none_strays : h.all (fun event => !isStrayEvent event) = true) :
    Straight h := fun _ _ _ inside =>
  absurd (List.all_eq_true.mp none_strays _ inside) Bool.false_ne_true

theorem values_attributed_overflow : ∃ c, smallRun overflowThenSync = some c ∧ Straight c.history ∧
    (∀ t id update, Event.noted t (.queued id update) ∈ c.history →
      OwnValue smallServer c.history update.nodeId update.value) ∧
    ∀ id state nodeId value, c.state.subscriptions.get? id = some state →
      state.lastValuesByNodeId.get? nodeId = some value → OwnValue smallServer c.history nodeId value := by
  let c := (smallRun overflowThenSync).get rfl
  have done : smallRun overflowThenSync = some c := rfl
  have straight : Straight c.history := straight_of_all rfl
  exact ⟨c, done, straight, values_attributed (smallRun_reachable done) straight⟩

/-- The first inlet is unregistered and the second registered while a value of the
first is being fanned out. -/
def swapDuringFanout : List (Decision Int) :=
  subscribed ++
    [.spawn (.nodeDatachange "ns=2;s=abc" 5), .spawn .nodeDatachangeTurn,
      .spawn (.registerItems (some "c") 0 ["ns=2;s=ABC"] 1 ModelBuilder.inlets 4),
      .spawn (.unregisterItems (some "c") 0 ["ns=2;s=abc"] ModelBuilder.inlets 4),
      .grant .main, .grant .main, .grant .main, .grant .main]

/-- The event can give a value to the node. -/
def gives (nodeId : String) : ServiceEvent V → Bool
  | .noted _ (.notified other _) => decide (other = nodeId)
  | .replied _ (.readValues _) _ => true
  | _ => false

theorem not_produced {h : ServiceHistory V} {nodeId : String} {value : V}
    (none_gives : h.all (fun event => !gives nodeId event) = true) : ¬ Produced h nodeId value := by
  have each := List.all_eq_true.mp none_gives
  rintro (⟨t, notified⟩ | ⟨t, nodeIds, values, replied, _⟩)
  · have quiet := each _ notified
    simp only [gives, decide_true, Bool.not_true, Bool.false_eq_true] at quiet
  · exact absurd (each _ replied) Bool.false_ne_true

/-- A value of the first inlet is queued for the second one, which gave none. -/
theorem fanout_misattributes : ∃ c : ServiceConfig Int, ServiceReachable smallServer .any c ∧
    ∃ t id update, Event.noted t (.queued id update) ∈ c.history ∧
      ¬ OwnValue smallServer c.history update.nodeId update.value := by
  let c := (smallRun swapDuringFanout).get rfl
  have done : smallRun swapDuringFanout = some c := rfl
  refine ⟨c, smallRun_reachable done, _, _, _, List.mem_cons_of_mem _ List.mem_cons_self, ?_⟩
  rintro ⟨produced, given, _⟩
  have none_gives : c.history.all (fun event => !gives "ns=2;s=ABC" event) = true := rfl
  exact not_produced none_gives given

end I3x.Subscriptions

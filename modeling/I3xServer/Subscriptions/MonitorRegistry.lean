import I3xServer.Subscriptions.Accounting

/-!
# Subscribers of node monitors

A call changes what a subscription monitors under one lock section and adjusts
the subscribers of the node monitors in later ones. Each task carries the
operations it still has to perform; where a registered subscriber and a
monitoring subscription disagree, some task carries the operation that is due.
-/
namespace I3x.Subscriptions
open Container Coroutine
variable {V : Type} {settings : Settings V}

/-- The subscription is a subscriber of the node's registered monitor. -/
def Registered (s : ServiceState V) (nodeId : String) (id : SubscriptionId) : Prop :=
  ∃ ref, s.nodeMonitors.get? nodeId = some ref ∧ id ∈ (s.monitor ref).subscriberIds

def MonitorOp.opposite (op : MonitorOp) : MonitorOp := { op with acquires := !op.acquires }

/-- A call has announced the operation and has not performed it yet. -/
def Outstanding (h : ServiceHistory V) (op : MonitorOp) : Prop :=
  ∃ t, Event.noted t (.planned op) ∈ h ∧ ∀ wanted, Event.noted t (.performed op wanted) ∉ h

/-- An operation is performed while it agrees with what the subscription monitors,
or else the opposite one is still outstanding. -/
def Timely : ServiceEvent V → ServiceHistory V → Prop
  | .noted _ (.performed op wanted), earlier => wanted = op.acquires ∨ Outstanding earlier op.opposite
  | _, _ => True

/-- The calls that change which nodes subscriptions monitor. -/
def Call.ChangesMembership : Call V → Prop
  | .createSubscription .. | .registerItems .. | .unregisterItems .. => True
  | .deleteSubscriptions .. | .expireSubscriptions => True
  | _ => False

/-- The operation that the disagreement about its node and subscription calls for. -/
structure Due (s : ServiceState V) (op : MonitorOp) : Prop where
  wanted : s.Wanted op.nodeId op.subscription ↔ op.acquires = true
  registered : Registered s op.nodeId op.subscription ↔ op.acquires = false

/-- Monitors are registered under one node each and have subscribers. -/
structure Tidy (s : ServiceState V) : Prop where
  fresh : ∀ {nodeId ref}, s.nodeMonitors.get? nodeId = some ref → ref < s.nextMonitor
  single : ∀ {nodeId other ref}, s.nodeMonitors.get? nodeId = some ref →
    s.nodeMonitors.get? other = some ref → nodeId = other
  occupied : ∀ {nodeId ref}, s.nodeMonitors.get? nodeId = some ref →
    (s.monitor ref).subscriberIds.Nonempty

abbrev OpsEntry (V : Type) := Entry (Call V) (List MonitorOp)

/-- The invariant; each suspended task carries the operations it has still to perform. -/
structure RegistryInv (s : ServiceState V) (h : ServiceHistory V) (B : Multiset (OpsEntry V)) : Prop where
  keys : WellKeyed s
  tidy : Tidy s
  promised : ∀ t op, Event.noted t (.planned op) ∈ h →
    (∃ wanted, Event.noted t (.performed op wanted) ∈ h) ∨ ∃ e ∈ B, e.tag = t ∧ op ∈ e.ghost
  members : ∀ e ∈ B, e.ghost ≠ [] → e.tag.call.ChangesMembership
  due : Throughout Timely h → ∀ op, Due s op → ∃ e ∈ B, op ∈ e.ghost

/-! ## Single operations -/

theorem mem_setMonitor {s : ServiceState V} {ref other : MonitorRef} {monitor : NodeMonitor}
    {id : SubscriptionId} : id ∈ ((s.setMonitor ref monitor).monitor other).subscriberIds ↔
      if other = ref then id ∈ monitor.subscriberIds else id ∈ (s.monitor other).subscriberIds := by
  simp only [ServiceState.setMonitor, Function.update_apply]
  split_ifs <;> rfl

theorem acquireSection_registered {s : ServiceState V} (tidy : Tidy s) (nodeId other : String)
    (id member : SubscriptionId) : Registered (acquireSection nodeId id s).2.1 other member ↔
      (other = nodeId ∧ member = id) ∨ Registered s other member := by
  unfold acquireSection
  cases found : s.nodeMonitors.get? nodeId with
  | some ref =>
      constructor
      · rintro ⟨at_, there, inside⟩
        rw [mem_setMonitor] at inside
        split_ifs at inside with here
        · rcases Finset.mem_insert.mp inside with rfl | before
          · subst here
            exact .inl ⟨tidy.single there found, rfl⟩
          · exact .inr ⟨at_, there, here ▸ before⟩
        · exact .inr ⟨at_, there, inside⟩
      · rintro (⟨rfl, rfl⟩ | ⟨at_, there, inside⟩)
        · refine ⟨ref, found, ?_⟩
          rw [mem_setMonitor, if_pos rfl]
          exact Finset.mem_insert_self _ _
        · refine ⟨at_, there, ?_⟩
          rw [mem_setMonitor]
          split_ifs with here
          · exact Finset.mem_insert_of_mem (here ▸ inside)
          · exact inside
  | none =>
      dsimp only
      constructor
      · rintro ⟨at_, there, inside⟩
        dsimp only at there
        rw [Dict.get?_set] at there
        rw [mem_setMonitor] at inside
        split_ifs at there with here
        · cases there
          rw [if_pos rfl] at inside
          exact .inl ⟨here, Finset.mem_singleton.mp inside⟩
        · have old := tidy.fresh there
          rw [if_neg (Nat.ne_of_lt old)] at inside
          exact .inr ⟨at_, there, inside⟩
      · rintro (⟨rfl, rfl⟩ | ⟨at_, there, inside⟩)
        · refine ⟨s.nextMonitor, Dict.get?_set_self _ _ _, ?_⟩
          rw [mem_setMonitor, if_pos rfl]
          exact Finset.mem_singleton_self _
        · have elsewhere : other ≠ nodeId := fun same => by
            rw [same, found] at there
            cases there
          refine ⟨at_, (Dict.get?_set_ne _ _ elsewhere).trans there, ?_⟩
          rw [mem_setMonitor, if_neg (Nat.ne_of_lt (tidy.fresh there))]
          exact inside

theorem acquireSection_tidy {s : ServiceState V} (tidy : Tidy s) (nodeId : String) (id : SubscriptionId) :
    Tidy (acquireSection nodeId id s).2.1 := by
  unfold acquireSection
  cases found : s.nodeMonitors.get? nodeId with
  | some ref =>
      refine ⟨tidy.fresh, tidy.single, fun {other at_} there => ?_⟩
      obtain ⟨member, inside⟩ := tidy.occupied there
      refine ⟨member, ?_⟩
      rw [mem_setMonitor]
      split_ifs with here
      · exact Finset.mem_insert_of_mem (here ▸ inside)
      · exact inside
  | none =>
      refine ⟨fun {other at_} there => ?_, fun {first second at_} there again => ?_, fun {other at_} there => ?_⟩
      · rw [Dict.get?_set] at there
        split_ifs at there
        · cases there
          exact Nat.lt_succ_self _
        · exact Nat.lt_succ_of_lt (tidy.fresh there)
      · rw [Dict.get?_set] at there again
        split_ifs at there again with here also also
        · exact here.trans also.symm
        · cases there
          exact absurd (tidy.fresh again) (Nat.lt_irrefl _)
        · cases again
          exact absurd (tidy.fresh there) (Nat.lt_irrefl _)
        · exact tidy.single there again
      · rw [Dict.get?_set] at there
        split_ifs at there with here
        · cases there
          refine ⟨id, ?_⟩
          rw [mem_setMonitor, if_pos rfl]
          exact Finset.mem_singleton_self _
        · obtain ⟨member, inside⟩ := tidy.occupied there
          refine ⟨member, ?_⟩
          rw [mem_setMonitor, if_neg (Nat.ne_of_lt (tidy.fresh there))]
          exact inside

theorem releaseSection_registered {s : ServiceState V} (tidy : Tidy s) (nodeId other : String)
    (id member : SubscriptionId) : Registered (releaseSection nodeId id s).2.1 other member ↔
      ¬ (other = nodeId ∧ member = id) ∧ Registered s other member := by
  unfold releaseSection
  cases found : s.nodeMonitors.get? nodeId with
  | none =>
      refine ⟨fun registered => ⟨?_, registered⟩, fun both => both.2⟩
      rintro ⟨rfl, rfl⟩
      obtain ⟨ref, there, _⟩ := registered
      rw [found] at there
      cases there
  | some ref =>
      have erased {at_ : MonitorRef} (there : s.nodeMonitors.get? other = some at_) :
          member ∈ ((s.setMonitor ref { s.monitor ref with
            subscriberIds := (s.monitor ref).subscriberIds.erase id }).monitor at_).subscriberIds ↔
          ¬ (other = nodeId ∧ member = id) ∧ member ∈ (s.monitor at_).subscriberIds := by
        rw [mem_setMonitor]
        split_ifs with here
        · subst here
          have same : other = nodeId := tidy.single there found
          simp only [Finset.mem_erase, same, true_and]
        · have apart : other ≠ nodeId := fun same => here (by
            rw [same, found] at there
            exact (Option.some.inj there).symm)
          simp only [apart, false_and, not_false_eq_true, true_and]
      dsimp only
      split_ifs with last
      · constructor
        · rintro ⟨at_, there, inside⟩
          dsimp only at there
          rw [Dict.get?_erase] at there
          split_ifs at there
          obtain ⟨apart, before⟩ := (erased there).mp inside
          exact ⟨apart, at_, there, before⟩
        · rintro ⟨apart, at_, there, inside⟩
          have elsewhere : other ≠ nodeId := by
            rintro rfl
            cases found.symm.trans there
            have gone := Finset.eq_empty_iff_forall_notMem.mp last member
            exact gone (Finset.mem_erase.mpr ⟨fun same => apart ⟨rfl, same⟩, inside⟩)
          exact ⟨at_, (Dict.get?_erase_ne _ elsewhere).trans there, (erased there).mpr ⟨apart, inside⟩⟩
      · constructor
        · rintro ⟨at_, there, inside⟩
          obtain ⟨apart, before⟩ := (erased there).mp inside
          exact ⟨apart, at_, there, before⟩
        · rintro ⟨apart, at_, there, inside⟩
          exact ⟨at_, there, (erased there).mpr ⟨apart, inside⟩⟩

theorem releaseSection_tidy {s : ServiceState V} (tidy : Tidy s) (nodeId : String) (id : SubscriptionId) :
    Tidy (releaseSection nodeId id s).2.1 := by
  unfold releaseSection
  cases found : s.nodeMonitors.get? nodeId with
  | none => exact tidy
  | some ref =>
      dsimp only
      split_ifs with last
      · refine ⟨fun {other at_} there => ?_, fun {first second at_} there again => ?_, fun {other at_} there => ?_⟩
        · rw [Dict.get?_erase] at there
          split_ifs at there
          exact tidy.fresh there
        · rw [Dict.get?_erase] at there again
          split_ifs at there again
          exact tidy.single there again
        · rw [Dict.get?_erase] at there
          split_ifs at there with here
          obtain ⟨member, inside⟩ := tidy.occupied there
          refine ⟨member, ?_⟩
          rw [mem_setMonitor]
          split_ifs with same
          · subst same
            exact absurd (tidy.single there found) here
          · exact inside
      · refine ⟨tidy.fresh, tidy.single, fun {other at_} there => ?_⟩
        obtain ⟨member, inside⟩ := tidy.occupied there
        by_cases here : at_ = ref
        · obtain ⟨kept, remains⟩ := Finset.nonempty_iff_ne_empty.mpr last
          refine ⟨kept, ?_⟩
          rw [mem_setMonitor, if_pos here]
          exact remains
        · refine ⟨member, ?_⟩
          rw [mem_setMonitor, if_neg here]
          exact inside

/-! ## Steps of one task -/

section
variable {s s' : ServiceState V} {h : ServiceHistory V} {B : Multiset (OpsEntry V)} {t : ServiceTag V}
  {g g' : List MonitorOp} {ns : List (Note V)}

/-- The running task turns its operations `g` into `g'`. What becomes due has to be
due before and not struck off the list, or be carried by a task. -/
theorem RegistryInv.move (old : RegistryInv s h (⟨t, g⟩ ::ₘ B)) (keys : WellKeyed s') (tidy : Tidy s')
    (planned : ∀ op, .planned op ∈ ns → op ∈ g')
    (kept : ∀ op ∈ g, op ∈ g' ∨ ∃ wanted, .performed op wanted ∈ ns)
    (member : g' ≠ [] → t.call.ChangesMembership)
    (due : Throughout Timely (noted t ns ++ h) → ∀ op, Due s' op →
      Due s op ∧ (op ∈ g → op ∈ g') ∨ (∃ e ∈ B, op ∈ e.ghost) ∨ op ∈ g') :
    RegistryInv s' (noted t ns ++ h) (⟨t, g'⟩ ::ₘ B) := by
  have own : (⟨t, g'⟩ : OpsEntry V) ∈ ⟨t, g'⟩ ::ₘ B := Multiset.mem_cons_self _ _
  refine ⟨keys, tidy, fun t' op inside => ?_, fun e inside => ?_, fun timely op is_due => ?_⟩
  · rcases List.mem_append.mp inside with new | before
    · obtain ⟨n, here, same⟩ := mem_noted.mp new
      cases same
      exact .inr ⟨_, own, rfl, planned op here⟩
    · rcases old.promised t' op before with ⟨wanted, done⟩ | ⟨e, there, tag, carried⟩
      · exact .inl ⟨wanted, List.mem_append_right _ done⟩
      · rcases Multiset.mem_cons.mp there with rfl | other
        · rcases kept op carried with still | ⟨wanted, performed⟩
          · exact .inr ⟨_, own, tag, still⟩
          · exact .inl ⟨wanted, List.mem_append_left _ (mem_noted.mpr ⟨_, performed, by rw [← tag]⟩)⟩
        · exact .inr ⟨e, Multiset.mem_cons_of_mem other, tag, carried⟩
  · rcases Multiset.mem_cons.mp inside with rfl | other
    · exact member
    · exact old.members e (Multiset.mem_cons_of_mem other)
  · rcases due timely op is_due with ⟨before, still⟩ | ⟨e, other, carried⟩ | mine
    · obtain ⟨e, there, carried⟩ := old.due timely.append_right op before
      rcases Multiset.mem_cons.mp there with rfl | other
      · exact ⟨_, own, still carried⟩
      · exact ⟨e, Multiset.mem_cons_of_mem other, carried⟩
    · exact ⟨e, Multiset.mem_cons_of_mem other, carried⟩
    · exact ⟨_, own, mine⟩

/-- Nothing changes for who monitors what. -/
structure SameMembers (s s' : ServiceState V) : Prop where
  wanted : ∀ nodeId id, s'.Wanted nodeId id ↔ s.Wanted nodeId id
  nodeMonitors : s'.nodeMonitors = s.nodeMonitors
  nextMonitor : s'.nextMonitor = s.nextMonitor
  subscriberIds : ∀ ref, (s'.monitor ref).subscriberIds = (s.monitor ref).subscriberIds

theorem registered_congr (nodeMonitors : s'.nodeMonitors = s.nodeMonitors)
    (subscriberIds : ∀ ref, (s'.monitor ref).subscriberIds = (s.monitor ref).subscriberIds)
    (nodeId : String) (id : SubscriptionId) : Registered s' nodeId id ↔ Registered s nodeId id := by
  simp only [Registered, nodeMonitors, subscriberIds]

theorem Tidy.congr (tidy : Tidy s) (nodeMonitors : s'.nodeMonitors = s.nodeMonitors)
    (nextMonitor : s'.nextMonitor = s.nextMonitor)
    (subscriberIds : ∀ ref, (s'.monitor ref).subscriberIds = (s.monitor ref).subscriberIds) : Tidy s' where
  fresh there := nextMonitor ▸ tidy.fresh (nodeMonitors ▸ there)
  single there again := tidy.single (nodeMonitors ▸ there) (nodeMonitors ▸ again)
  occupied there := subscriberIds _ ▸ tidy.occupied (nodeMonitors ▸ there)

theorem Due.congr (same : SameMembers s s') {op : MonitorOp} (due : Due s' op) : Due s op :=
  ⟨(same.wanted _ _).symm.trans due.wanted,
    (registered_congr same.nodeMonitors same.subscriberIds _ _).symm.trans due.registered⟩

theorem wanted_setSubscription {id other : SubscriptionId} {state : SubscriptionState V} {nodeId : String} :
    (s.setSubscription id state).Wanted nodeId other ↔
      if other = id then nodeId ∈ state.monitoredNodeIds else s.Wanted nodeId other := by
  simp only [ServiceState.Wanted, get?_setSubscription]
  split_ifs with here
  · simp only [Option.some.injEq, exists_eq_left']
  · rfl

theorem wanted_of_get? {id : SubscriptionId} {state : SubscriptionState V} {nodeId : String}
    (found : s.subscriptions.get? id = some state) : s.Wanted nodeId id ↔ nodeId ∈ state.monitoredNodeIds := by
  simp only [ServiceState.Wanted, found, Option.some.injEq, exists_eq_left']

theorem Routine.sameMembers {A : String → V → Prop} (step : Routine settings A s ns s') : SameMembers s s' := by
  cases step with
  | @queue _ id state state' _ found run =>
      refine ⟨fun nodeId other => ?_, rfl, rfl, fun _ => rfl⟩
      rw [wanted_setSubscription]
      split_ifs with here
      · rw [here, wanted_of_get? found, run.sameMembership.monitoredNodeIds]
      · rfl
  | upstream same plain =>
      refine ⟨fun nodeId id => ?_, same.nodeMonitors, same.nextMonitor, same.subscriberIds⟩
      simp only [ServiceState.Wanted, same.subscriptions]
  | notify => exact ⟨fun _ _ => Iff.rfl, rfl, rfl, fun _ => rfl⟩
  | dequeue => exact ⟨fun _ _ => Iff.rfl, rfl, rfl, fun _ => rfl⟩
  | serve => exact ⟨fun _ _ => Iff.rfl, rfl, rfl, fun _ => rfl⟩

theorem Routine.not_membership {A : String → V → Prop} (step : Routine settings A s ns s') :
    ∀ n ∈ ns, ¬ n.Membership := by
  cases step with
  | queue found run => exact fun n inside => Subscriptions.not_membership (run.notes n inside)
  | upstream same plain => exact fun n inside => Subscriptions.not_membership (.inl (plain n inside))
  | notify => exact fun n inside => List.mem_singleton.mp inside ▸ id
  | dequeue => exact fun n inside => List.mem_singleton.mp inside ▸ id
  | serve => exact fun n inside => List.mem_singleton.mp inside ▸ id

theorem RegistryInv.routine {A : String → V → Prop} (old : RegistryInv s h (⟨t, g⟩ ::ₘ B))
    (step : Routine settings A s ns s') : RegistryInv s' (noted t ns ++ h) (⟨t, g⟩ ::ₘ B) := by
  have same := step.sameMembers
  have step' : ServiceStep settings A anyChange s ns s' := .routine step
  have keys := step'.wellKeyed old.keys
  refine old.move keys (old.tidy.congr same.nodeMonitors same.nextMonitor same.subscriberIds) ?_ ?_ ?_ ?_
  · exact fun op inside => (step.not_membership _ inside trivial).elim
  · exact fun op inside => .inl inside
  · exact old.members _ (Multiset.mem_cons_self _ _)
  · exact fun _ op due => .inl ⟨due.congr same, fun mine => mine⟩

/-- A change of membership after which the task carries all that it made due. -/
theorem RegistryInv.plan (old : RegistryInv s h (⟨t, []⟩ ::ₘ B)) (keys : WellKeyed s')
    (nodeMonitors : s'.nodeMonitors = s.nodeMonitors) (nextMonitor : s'.nextMonitor = s.nextMonitor)
    (subscriberIds : ∀ ref, (s'.monitor ref).subscriberIds = (s.monitor ref).subscriberIds)
    (planned : ∀ op, .planned op ∈ ns → op ∈ g') (member : t.call.ChangesMembership)
    (changed : ∀ nodeId id, (s'.Wanted nodeId id ↔ s.Wanted nodeId id) ∨
      (s'.Wanted nodeId id → ⟨nodeId, id, true⟩ ∈ g') ∧ (¬ s'.Wanted nodeId id → ⟨nodeId, id, false⟩ ∈ g')) :
    RegistryInv s' (noted t ns ++ h) (⟨t, g'⟩ ::ₘ B) := by
  refine old.move keys (old.tidy.congr nodeMonitors nextMonitor subscriberIds) planned (fun _ => nofun)
    (fun _ => member) fun _ op due => ?_
  rcases changed op.nodeId op.subscription with same | ⟨acquire, release⟩
  · refine .inl ⟨⟨same.symm.trans due.wanted, ?_⟩, nofun⟩
    exact (registered_congr nodeMonitors subscriberIds _ _).symm.trans due.registered
  · refine .inr (.inr ?_)
    obtain ⟨nodeId, id, acquires⟩ := op
    cases acquires with
    | true => exact acquire (due.wanted.mpr rfl)
    | false => exact release fun wanted => Bool.false_ne_true (due.wanted.mp wanted)

/-- The task performs the first operation of its list. -/
theorem RegistryInv.perform {op : MonitorOp} (old : RegistryInv s h (⟨t, op :: g⟩ ::ₘ B))
    (keys : WellKeyed s') (tidy : Tidy s') (subscriptions : s'.subscriptions = s.subscriptions)
    (effect : ∀ nodeId id, Registered s' nodeId id ↔
      if nodeId = op.nodeId ∧ id = op.subscription then op.acquires = true else Registered s nodeId id) :
    RegistryInv s' (noted t [.performed op (decide (s.Wanted op.nodeId op.subscription))] ++ h)
      (⟨t, g⟩ ::ₘ B) := by
  refine old.move keys tidy ?_ ?_ ?_ fun timely other due => ?_
  · intro other inside
    cases List.mem_singleton.mp inside
  · intro other inside
    rcases List.mem_cons.mp inside with rfl | later
    · exact .inr ⟨_, List.mem_singleton_self _⟩
    · exact .inl later
  · exact fun _ => old.members _ (Multiset.mem_cons_self _ _) (List.cons_ne_nil _ _)
  · have wanted : s.Wanted other.nodeId other.subscription ↔ other.acquires = true := by
      simpa only [ServiceState.Wanted, subscriptions] using due.wanted
    have registered := (effect _ _).symm.trans due.registered
    split_ifs at registered with here
    · -- the operation just performed contradicts what is due: it came late
      obtain ⟨node, subscription⟩ := here
      have flipped : other = op.opposite := by
        obtain ⟨otherNode, otherId, otherAcquires⟩ := other
        have inverse : otherAcquires = !op.acquires := by
          cases otherAcquires <;> cases acquires : op.acquires <;> simp [acquires] at registered ⊢
        cases node
        cases subscription
        rw [MonitorOp.opposite, ← inverse]
      rcases (throughout_cons.mp timely).1 with agrees | ⟨t', planned, undone⟩
      · rw [← node, ← subscription] at agrees
        have clash : (op.acquires = true) ↔ other.acquires = true := by
          rw [← agrees, decide_eq_true_iff]
          exact wanted
        rw [flipped, MonitorOp.opposite] at clash
        cases acquires : op.acquires <;> simp [acquires] at clash
      · rw [← flipped] at planned undone
        rcases old.promised t' other planned with ⟨w, done⟩ | ⟨e, there, _, carried⟩
        · exact absurd done (undone w)
        · rcases Multiset.mem_cons.mp there with rfl | elsewhere
          · rcases List.mem_cons.mp carried with same | later
            · rw [flipped] at same
              have fixed := congrArg MonitorOp.acquires same
              cases acquires : op.acquires <;> simp [MonitorOp.opposite, acquires] at fixed
            · exact .inr (.inr later)
          · exact .inr (.inl ⟨e, elsewhere, carried⟩)
    · refine .inl ⟨⟨wanted, registered⟩, fun mine => ?_⟩
      rcases List.mem_cons.mp mine with rfl | later
      · exact absurd ⟨rfl, rfl⟩ here
      · exact later

/-! ## Calls come and go -/

/-- Events that are no notes, and idle tasks, do not matter. -/
theorem RegistryInv.event {event : ServiceEvent V} (plain : ∀ t n, event ≠ .noted t n)
    (old : RegistryInv s h B) : RegistryInv s (event :: h) B := by
  refine ⟨old.keys, old.tidy, fun t op inside => ?_, old.members, fun timely => old.due (throughout_cons.mp timely).2⟩
  rcases List.mem_cons.mp inside with here | before
  · exact absurd here.symm (plain _ _)
  · rcases old.promised t op before with ⟨wanted, done⟩ | carried
    · exact .inl ⟨wanted, List.mem_cons_of_mem _ done⟩
    · exact .inr carried

theorem RegistryInv.enter (old : RegistryInv s h B) : RegistryInv s h (⟨t, []⟩ ::ₘ B) := by
  refine ⟨old.keys, old.tidy, fun t' op inside => ?_, fun e inside => ?_, fun timely op due => ?_⟩
  · rcases old.promised t' op inside with done | ⟨e, there, carried⟩
    · exact .inl done
    · exact .inr ⟨e, Multiset.mem_cons_of_mem there, carried⟩
  · rcases Multiset.mem_cons.mp inside with rfl | other
    · exact fun some_left => absurd rfl some_left
    · exact old.members e other
  · obtain ⟨e, there, carried⟩ := old.due timely op due
    exact ⟨e, Multiset.mem_cons_of_mem there, carried⟩

theorem RegistryInv.leave (old : RegistryInv s h (⟨t, []⟩ ::ₘ B)) : RegistryInv s h B := by
  have remaining {e : OpsEntry V} {op : MonitorOp} (there : e ∈ (⟨t, []⟩ : OpsEntry V) ::ₘ B)
      (carried : op ∈ e.ghost) : e ∈ B := by
    rcases Multiset.mem_cons.mp there with rfl | other
    · cases carried
    · exact other
  refine ⟨old.keys, old.tidy, fun t' op inside => ?_, fun e inside => ?_, fun timely op due => ?_⟩
  · rcases old.promised t' op inside with done | ⟨e, there, tag, carried⟩
    · exact .inl done
    · exact .inr ⟨e, remaining there carried, tag, carried⟩
  · exact old.members e (Multiset.mem_cons_of_mem inside)
  · obtain ⟨e, there, carried⟩ := old.due timely op due
    exact ⟨e, remaining there carried, carried⟩

theorem registry_quiet : Quiet (RegistryInv : ServiceState V → ServiceHistory V → _ → Prop) where
  requested _ _ _ _ _ old := old.event fun _ _ => nofun
  replied _ _ _ _ _ _ old := old.event fun _ _ => nofun

end

/-! ## Programs -/

section
variable {around : Surroundings V} {t : ServiceTag V} {α : Type}

abbrev OpsView (V : Type) :=
  View (ServiceState V) Lock (Note V) (Request V) Reply (Call V) (Outcome V) (List MonitorOp)

/-- The running task has the operations `g` still to perform. -/
abbrev Owes (t : ServiceTag V) (g : List MonitorOp) (v : OpsView V) : Prop := Carries RegistryInv t g v

/-- From `v` on, the program of the task keeps the invariant at each suspension and
ends with `post`. -/
abbrev Performs (around : Surroundings V) (t : ServiceTag V) (post : α → OpsView V → Prop) (p : Act V α)
    (v : OpsView V) : Prop := wp around.mayReply (Unordered RegistryInv) t post p v

theorem routine_performs {p : Act V α} (inside : p.Within (RoutineStep settings)) {g : List MonitorOp}
    {v : OpsView V} (owes : Owes t g v) : Performs around t (fun _ v' => Owes t g v') p v := by
  have stable : Stable around.mayReply (Unordered RegistryInv) t (RoutineStep settings) fun _ => Owes t g :=
    Carries.stable registry_quiet fun _ _ _ _ _ _ old step => old.routine step
  exact wp_mono (wp_of_within stable (inside []) owes) fun _ _ ⟨_, holds⟩ => holds

theorem releaseNodeMonitor_performs (settings : Settings V) {nodeId : String} {id : SubscriptionId}
    {g : List MonitorOp} {v : OpsView V} (owes : Owes t (⟨nodeId, id, false⟩ :: g) v) :
    Performs around t (fun _ v' => Owes t g v') (releaseNodeMonitor nodeId id) v := by
  refine wp_seq (M := fun _ v' => Owes t g v')
    (wp_locked_unordered Lock.main _ _ owes fun v' inv w state history bag => ?_) fun orphaned v' owes => ?_
  · have old : RegistryInv v'.state v'.history (⟨t, ⟨nodeId, id, false⟩ :: g⟩ ::ₘ v'.bag) := inv
    have outside := releaseSection_outside nodeId id v'.state
    rw [Owes, Carries, state, history, bag, releaseSection_notes]
    refine old.perform (old.keys.of_same outside.subscriptions outside.nextSubscription)
      (releaseSection_tidy old.tidy nodeId id) outside.subscriptions fun other member => ?_
    rw [releaseSection_registered old.tidy]
    split_ifs with here
    · simp only [here, and_self, not_true_eq_false, false_and]
    · simp only [here, not_false_eq_true, true_and]
  · cases orphaned with
    | none => exact owes
    | some ref => exact routine_performs (stopNodeMonitorRuntime_routine settings ref nodeId) owes

theorem acquireNodeMonitor_performs {nodeId : String} {id : SubscriptionId} {g : List MonitorOp}
    {v : OpsView V} (owes : Owes t (⟨nodeId, id, true⟩ :: g) v) :
    Performs around t (fun _ v' => Owes t g v') (acquireNodeMonitor settings nodeId id) v := by
  refine wp_seq (M := fun _ v' => Owes t g v')
    (wp_locked_unordered Lock.main _ _ owes fun v' inv w state history bag => ?_) fun registered v' owes => ?_
  · have old : RegistryInv v'.state v'.history (⟨t, ⟨nodeId, id, true⟩ :: g⟩ ::ₘ v'.bag) := inv
    have outside := acquireSection_outside nodeId id v'.state
    rw [Owes, Carries, state, history, bag, acquireSection_notes]
    refine old.perform (old.keys.of_same outside.subscriptions outside.nextSubscription)
      (acquireSection_tidy old.tidy nodeId id) outside.subscriptions fun other member => ?_
    rw [acquireSection_registered old.tidy]
    split_ifs with here
    · simp only [here, and_self, true_or]
    · simp only [here, false_or]
  · cases registered with
    | none => exact owes
    | some ref => exact routine_performs (startNodeMonitorRuntime_routine settings ref nodeId) owes

theorem releaseEach_performs (settings : Settings V) (nodeIds : List String) (id : SubscriptionId)
    (rest : List MonitorOp) {v : OpsView V}
    (owes : Owes t (nodeIds.map (fun nodeId => ⟨nodeId, id, false⟩) ++ rest) v) :
    Performs around t (fun _ v' => Owes t rest v')
      (Program.forEach nodeIds fun nodeId => releaseNodeMonitor nodeId id) v :=
  wp_forEach (fun left v => Owes t (left.map (fun nodeId => ⟨nodeId, id, false⟩) ++ rest) v)
    (fun _ _ _ owes => releaseNodeMonitor_performs settings owes) nodeIds owes

theorem acquireEach_performs (nodeIds : List String) (id : SubscriptionId) {v : OpsView V}
    (owes : Owes t (nodeIds.map fun nodeId => ⟨nodeId, id, true⟩) v) :
    Performs around t (fun _ v' => Owes t [] v')
      (Program.forEach nodeIds fun nodeId => acquireNodeMonitor settings nodeId id) v :=
  wp_forEach (fun left v => Owes t (left.map fun nodeId => ⟨nodeId, id, true⟩) v)
    (fun _ _ _ owes => acquireNodeMonitor_performs owes) nodeIds owes

theorem releaseAllNodes_performs (state : SubscriptionState V) (rest : List MonitorOp) {v : OpsView V}
    (owes : Owes t (releases settings state.subscriptionId state.monitoredNodeIds ++ rest) v) :
    Performs around t (fun _ v' => Owes t rest v') (releaseAllNodes settings state) v := by
  refine wp_seq (releaseEach_performs settings _ state.subscriptionId rest owes) fun _ v' owes => ?_
  have closing : (Program.locked .main fun s => ((), s, []) : Act V Unit).Within (RoutineStep settings) :=
    .locked fun _ s => .unchanged s
  exact routine_performs closing owes

theorem applyMonitoredNodeDiff_performs (id : SubscriptionId) (previous new : Finset String) {v : OpsView V}
    (owes : Owes t (plannedDiff settings id previous new) v) :
    Performs around t (fun _ v' => Owes t [] v') (applyMonitoredNodeDiff settings id previous new) v := by
  refine wp_seq (releaseEach_performs settings _ id _ owes) fun _ v' owes => ?_
  refine wp_seq (acquireEach_performs _ id owes) fun _ v' owes => ?_
  refine wp_seq (routine_performs (updateSubscriptionMode_routine settings id) owes) fun _ v' owes => ?_
  exact routine_performs (seedInitialUpdates_within settings id) owes

/-- What a change of membership leaves its call to do. -/
def MembershipChange.ops (settings : Settings V) (id : SubscriptionId) : MembershipChange → List MonitorOp
  | .changed previous new => plannedDiff settings id previous new
  | _ => []

theorem mem_plannedDiff (settings : Settings V) (id : SubscriptionId) (previous new : Finset String)
    (nodeId : String) :
    (nodeId ∈ new → nodeId ∉ previous → ⟨nodeId, id, true⟩ ∈ plannedDiff settings id previous new) ∧
      (nodeId ∈ previous → nodeId ∉ new → ⟨nodeId, id, false⟩ ∈ plannedDiff settings id previous new) := by
  constructor
  · intro inside outside
    refine List.mem_append_right _ (List.mem_map_of_mem ?_)
    exact (settings.nodeOrder.mem_list _ _).mpr (Finset.mem_sdiff.mpr ⟨inside, outside⟩)
  · intro inside outside
    refine List.mem_append_left _ (List.mem_map_of_mem ?_)
    exact (settings.nodeOrder.mem_list _ _).mpr (Finset.mem_sdiff.mpr ⟨inside, outside⟩)

theorem membershipSection_plans (clientId : Option String) (id : SubscriptionId)
    (change : Dict String Int → Dict String Int) (model : BuildResult) (fuel : Nat)
    {s : ServiceState V} {h : ServiceHistory V} {B : Multiset (OpsEntry V)}
    (member : t.call.ChangesMembership) (old : RegistryInv s h (⟨t, []⟩ ::ₘ B)) :
    RegistryInv (membershipSection settings clientId id change model fuel s).2.1
      (noted t (membershipSection settings clientId id change model fuel s).2.2 ++ h)
      (⟨t, (membershipSection settings clientId id change model fuel s).1.ops settings id⟩ ::ₘ B) := by
  have step : ServiceStep settings (fun _ _ => True) anyChange s _ _ :=
    .membership clientId id change model fuel trivial s
  have keys := step.wellKeyed old.keys
  rcases membershipSection_cases settings clientId id change model fuel s with
    ⟨result, same, unchanged⟩ | ⟨state, resolution, found, _, same⟩
  · have nothing : result.ops settings id = [] := by
      cases result with
      | changed previous new => exact absurd rfl (unchanged previous new)
      | _ => rfl
    rw [same, nothing]
    exact old
  · rw [same] at keys ⊢
    refine old.plan keys rfl rfl (fun _ => rfl) (fun op inside => ?_) member fun nodeId other => ?_
    · obtain ⟨planned, there, noted_⟩ := List.mem_map.mp inside
      cases noted_
      exact there
    · rw [wanted_setSubscription]
      split_ifs with here
      · subst here
        rw [wanted_of_get? (inScope_get? found)]
        change (nodeId ∈ resolution.nodeIds ↔ _) ∨ (nodeId ∈ resolution.nodeIds → _) ∧
          (nodeId ∉ resolution.nodeIds → _)
        have ops := mem_plannedDiff settings other state.monitoredNodeIds resolution.nodeIds nodeId
        by_cases before : nodeId ∈ state.monitoredNodeIds
        · by_cases after : nodeId ∈ resolution.nodeIds
          · exact .inl (iff_of_true after before)
          · exact .inr ⟨fun inside => absurd inside after, fun _ => ops.2 before after⟩
        · by_cases after : nodeId ∈ resolution.nodeIds
          · exact .inr ⟨fun _ => ops.1 after before, fun outside => absurd after outside⟩
          · exact .inl (iff_of_false after before)
      · exact .inl Iff.rfl

theorem changeMembership_performs (clientId : Option String) (id : SubscriptionId)
    (change : Dict String Int → Dict String Int) (model : BuildResult) (fuel : Nat)
    (member : t.call.ChangesMembership) {v : OpsView V} (owes : Owes t [] v) :
    Performs around t (fun _ v' => Owes t [] v')
      (changeMembership settings clientId id change model fuel) v := by
  refine wp_seq (M := fun _ v' => Owes t [] v')
    (wp_acquire_unordered Lock.main [] owes fun v' inv => inv) fun _ v' owes => ?_
  refine wp_seq (M := fun changed v' => Owes t (MembershipChange.ops settings id changed) v')
    (wp_atomic _ (membershipSection_plans clientId id change model fuel member owes)) fun changed v' owes => ?_
  match changed with
  | .missing => exact owes
  | .endless =>
      refine ⟨[], (unordered_park _ _).mpr (registry_quiet.requested _ _ _ t .endless owes), fun _ reply => ?_⟩
      exact nomatch reply
  | .changed previous new =>
      refine wp_seq (p := Program.release Lock.main) (M := fun _ v' => Owes t (plannedDiff settings id previous new) v')
        owes fun _ v' owes => ?_
      exact wp_seq (applyMonitoredNodeDiff_performs id previous new owes) fun _ v' owes => owes

/-- Removed subscriptions leave their releases to the call. -/
theorem removal_plans {s s' : ServiceState V} {h : ServiceHistory V} {B : Multiset (OpsEntry V)}
    {removed : List (SubscriptionState V)} (removal : Removal s removed s')
    (member : t.call.ChangesMembership) (old : RegistryInv s h (⟨t, []⟩ ::ₘ B)) :
    RegistryInv s' (noted t (removed.flatMap (removalNotes settings)) ++ h)
      (⟨t, removed.flatMap fun state => releases settings state.subscriptionId state.monitoredNodeIds⟩ ::ₘ B) := by
  have same : s' = { s with subscriptions := s'.subscriptions } := removal.rest
  refine old.plan (removal.wellKeyed old.keys) (by rw [same]) (by rw [same]) (fun _ => by rw [same])
    (fun op inside => ?_) member fun nodeId id => ?_
  · obtain ⟨state, there, noted_⟩ := List.mem_flatMap.mp inside
    obtain ⟨planned, carried, here⟩ := List.mem_map.mp noted_
    cases here
    exact List.mem_flatMap.mpr ⟨state, there, carried⟩
  · by_cases gone : id ∈ removed.map (·.subscriptionId)
    · have absent : ¬ s'.Wanted nodeId id := by
        rintro ⟨state, found, _⟩
        rw [removal.get?, if_pos gone] at found
        cases found
      by_cases before : s.Wanted nodeId id
      · refine .inr ⟨fun wanted => absurd wanted absent, fun _ => ?_⟩
        obtain ⟨state, there, rfl⟩ := List.mem_map.mp gone
        refine List.mem_flatMap.mpr ⟨state, there, List.mem_map_of_mem ?_⟩
        rw [settings.nodeOrder.mem_list]
        exact (wanted_of_get? (removal.stored state there)).mp before
      · exact .inl (iff_of_false absent before)
    · left
      simp only [ServiceState.Wanted, removal.get?, if_neg gone]

theorem releaseRemoved_performs (removed : List (SubscriptionState V)) {v : OpsView V}
    (owes : Owes t
      (removed.flatMap fun state => releases settings state.subscriptionId state.monitoredNodeIds) v) :
    Performs around t (fun _ v' => Owes t [] v')
      (Program.forEach removed fun state => releaseAllNodes settings state) v :=
  wp_forEach (fun left v =>
      Owes t (left.flatMap fun state => releases settings state.subscriptionId state.monitoredNodeIds) v)
    (fun state _ _ owes => releaseAllNodes_performs state _ owes) removed owes

theorem deleteSubscriptions_performs (clientId : Option String) (ids : List SubscriptionId)
    (member : t.call.ChangesMembership) {v : OpsView V} (owes : Owes t [] v) :
    Performs around t (fun _ v' => Owes t [] v') (deleteSubscriptions settings clientId ids) v := by
  refine wp_seq (M := fun found v' => Owes t
      (found.1.flatMap fun state => releases settings state.subscriptionId state.monitoredNodeIds) v')
    (wp_locked_unordered Lock.main _ [] owes fun v' inv w state history bag => ?_) fun found v' owes => ?_
  · rw [Owes, Carries, state, history, bag, deleteSection_notes]
    exact removal_plans (deleteSection_removal inv.keys clientId ids) member inv
  · exact wp_seq (releaseRemoved_performs found.1 owes) fun _ v' owes => owes

theorem expireSubscriptions_performs (member : t.call.ChangesMembership) {v : OpsView V} (owes : Owes t [] v) :
    Performs around t (fun _ v' => Owes t [] v') (expireSubscriptions settings) v := by
  refine wp_seq (M := fun _ v' => Owes t [] v') owes fun started v' owes => ?_
  refine wp_seq (M := fun removed v' => Owes t
      (removed.flatMap fun state => releases settings state.subscriptionId state.monitoredNodeIds) v')
    (wp_locked_unordered Lock.main _ [] owes fun v' inv w state history bag => ?_) fun removed v' owes => ?_
  · rw [Owes, Carries, state, history, bag]
    exact removal_plans (expireSection_removal inv.keys started) member inv
  · exact releaseRemoved_performs removed owes

theorem createSubscription_performs (clientId displayName : Option String)
    (member : t.call.ChangesMembership) {v : OpsView V} (owes : Owes t [] v) :
    Performs around t (fun _ v' => Owes t [] v') (createSubscription clientId displayName) v := by
  refine wp_seq (M := fun _ v' => Owes t [] v') owes fun started v' owes => ?_
  refine wp_locked_unordered Lock.main _ [] owes fun v' inv w state history bag => ?_
  have old : RegistryInv v'.state v'.history (⟨t, []⟩ ::ₘ v'.bag) := inv
  rw [Owes, Carries, state, history, bag]
  refine old.plan (createSection_wellKeyed old.keys clientId displayName started) rfl rfl (fun _ => rfl)
    (fun op inside => ?_) member fun nodeId id => .inl ?_
  · cases List.mem_singleton.mp inside
  · change (v'.state.setSubscription v'.state.nextSubscription _).Wanted nodeId id ↔ _
    rw [wanted_setSubscription]
    split_ifs with here
    · refine iff_of_false (Finset.notMem_empty nodeId) ?_
      rintro ⟨state, found, _⟩
      exact absurd (old.keys.fresh found) (here ▸ Nat.lt_irrefl _)
    · rfl

theorem program_performs (call : Call V) {n : Nat} {v : OpsView V} (owes : Owes ⟨n, call⟩ [] v) :
    Performs around ⟨n, call⟩ (fun _ v' => Owes ⟨n, call⟩ [] v') (program settings call) v := by
  have plain {p : Act V (Outcome V)} (inside : p.Within (RoutineStep settings)) :
      Performs around ⟨n, call⟩ (fun _ v' => Owes ⟨n, call⟩ [] v') p v := routine_performs inside owes
  cases call with
  | createSubscription clientId displayName =>
      exact wp_seq (createSubscription_performs clientId displayName (by trivial) owes) fun _ _ owes => owes
  | registerItems clientId id elementIds maxDepth model fuel =>
      exact wp_seq (changeMembership_performs clientId id _ model fuel (by trivial) owes) fun _ _ owes => owes
  | unregisterItems clientId id elementIds model fuel =>
      exact wp_seq (changeMembership_performs clientId id _ model fuel (by trivial) owes) fun _ _ owes => owes
  | deleteSubscriptions clientId ids =>
      exact wp_seq (deleteSubscriptions_performs clientId ids (by trivial) owes) fun _ _ owes => owes
  | expireSubscriptions =>
      exact wp_seq (expireSubscriptions_performs (by trivial) owes) fun _ _ owes => owes
  | sync clientId id ack allow =>
      exact plain (.bind (sync_within settings clientId id ack allow) fun _ => .ret _)
  | syncSubscription clientId id last =>
      exact plain (.bind (syncSubscription_within settings clientId id last) fun _ => .ret _)
  | streamSubscription clientId id rounds =>
      exact plain (.bind (streamSubscription_within settings clientId id rounds) fun _ => .ret _)
  | nodeDatachange nodeId value =>
      exact plain (.bind (.atomic fun _ s => .notify nodeId value s) fun _ => .ret _)
  | nodeDatachangeTurn => exact plain (.bind (nodeDatachangeTurn_within settings) fun _ => .ret _)
  | sharedPollingTurn => exact plain (.bind (sharedPollingTurn_within settings) fun _ => .ret _)
  | clientReconnect survivors =>
      exact plain (.bind (handleClientReconnect_routine settings survivors) fun _ => .ret _)
  | clockTick elapsed =>
      exact plain (.bind (.modify fun _ s =>
        .of_sameRegistry _ ⟨rfl, rfl, rfl, rfl, fun _ => rfl, rfl, rfl⟩) fun _ => .ret _)
  | valueChange nodeId value =>
      exact plain (.bind (.atomic fun _ s => .serve nodeId value s) fun _ => .ret _)

theorem registry_start : RegistryInv (.empty : ServiceState V) [] 0 where
  keys := .empty
  tidy := ⟨nofun, nofun, nofun⟩
  promised _ _ := nofun
  members e inside := absurd inside (Multiset.notMem_zero e)
  due _ op due := by
    obtain ⟨wanted, registered⟩ := due
    have unwanted : ¬ (.empty : ServiceState V).Wanted op.nodeId op.subscription := by
      rintro ⟨_, found, _⟩
      cases found
    have unregistered : ¬ Registered (.empty : ServiceState V) op.nodeId op.subscription := by
      rintro ⟨_, found, _⟩
      cases found
    cases acquires : op.acquires with
    | true => exact absurd (wanted.mpr acquires) unwanted
    | false => exact absurd (registered.mpr acquires) unregistered

/-- A reachable configuration with the operations its tasks still owe. -/
theorem reachable_registry {c : ServiceConfig V} (h : ServiceReachable settings around c) :
    ∃ B : Multiset (OpsEntry V), RegistryInv c.state c.history B ∧ ∀ e ∈ B, c.InFlight e.tag := by
  have calls (v : OpsView V) (call : Call V) (inv : Unordered RegistryInv v) :
      wp (service settings around).mayReply (Unordered RegistryInv) ⟨v.calls, call⟩
        (Finish (Unordered RegistryInv) ⟨v.calls, call⟩) ((service settings around).program call)
        (v.issued call) := by
    have old : RegistryInv v.state v.history v.bag := inv
    have spawned : RegistryInv v.state (.spawned ⟨v.calls, call⟩ :: v.history) v.bag :=
      old.event fun _ _ => nofun
    have issued : Owes ⟨v.calls, call⟩ [] (v.issued call) := spawned.enter
    refine wp_mono (program_performs call issued) fun o v' owes => ?_
    have done : RegistryInv v'.state v'.history (⟨⟨v.calls, call⟩, []⟩ ::ₘ v'.bag) := owes
    exact done.leave.event fun _ _ => nofun
  obtain ⟨v, machine, aligned, inv⟩ := reachable_represented (S := service settings around)
    (I := Unordered RegistryInv) registry_start (fun v call inv _ => calls v call inv) h
  refine ⟨v.bag, ?_, fun e inside => ?_⟩
  · rw [← machine]
    exact inv
  · exact (aligned.inFlight_iff e.tag).mp ⟨e, (v.mem_bag e).mp inside, rfl⟩

end

/-- In every state of a timely run in which no call that changes membership is in
flight, the registered monitors are those of the monitored nodes, and the
subscribers of each are the live subscriptions that monitor its node. -/
theorem registry_consistent {c : ServiceConfig V} (h : ServiceReachable settings .any c)
    (timely : Throughout Timely c.history) (settled : ∀ t, c.InFlight t → ¬ t.call.ChangesMembership) :
    (∀ nodeId, nodeId ∈ c.state.nodeMonitors.keys ↔ ∃ id, c.state.Wanted nodeId id) ∧
    ∀ nodeId ref, c.state.nodeMonitors.get? nodeId = some ref →
      ∀ id, id ∈ (c.state.monitor ref).subscriberIds ↔ c.state.Wanted nodeId id := by
  obtain ⟨B, inv, inFlight⟩ := reachable_registry h
  have nothing_due (op : MonitorOp) : ¬ Due c.state op := by
    intro due
    obtain ⟨e, inside, carried⟩ := inv.due timely op due
    exact settled e.tag (inFlight e inside) (inv.members e inside (List.ne_nil_of_mem carried))
  have agrees (nodeId : String) (id : SubscriptionId) :
      Registered c.state nodeId id ↔ c.state.Wanted nodeId id := by
    by_contra differ
    by_cases wanted : c.state.Wanted nodeId id
    · have unregistered : ¬ Registered c.state nodeId id := fun there => differ (iff_of_true there wanted)
      exact nothing_due ⟨nodeId, id, true⟩ ⟨iff_of_true wanted rfl, iff_of_false unregistered nofun⟩
    · have registered : Registered c.state nodeId id := by
        by_contra absent
        exact differ (iff_of_false absent wanted)
      exact nothing_due ⟨nodeId, id, false⟩ ⟨iff_of_false wanted nofun, iff_of_true registered rfl⟩
  refine ⟨fun nodeId => ?_, fun nodeId ref found id => ?_⟩
  · rw [Dict.mem_keys]
    constructor
    · rintro ⟨ref, found⟩
      obtain ⟨id, inside⟩ := inv.tidy.occupied found
      exact ⟨id, (agrees nodeId id).mp ⟨ref, found, inside⟩⟩
    · rintro ⟨id, wanted⟩
      obtain ⟨ref, found, _⟩ := (agrees nodeId id).mpr wanted
      exact ⟨ref, found⟩
  · rw [← agrees]
    constructor
    · exact fun inside => ⟨ref, found, inside⟩
    · rintro ⟨other, there, inside⟩
      cases found.symm.trans there
      exact inside

/-! ## A registration that is overtaken -/

/-- Every operation was performed while the membership asked for it. -/
def allWanted (h : ServiceHistory Int) : Bool :=
  h.all fun event =>
    match event with
    | .noted _ (.performed op wanted) => decide (wanted = op.acquires)
    | _ => true

theorem timely_of_allWanted {h : ServiceHistory Int} (wanted : allWanted h = true) : Throughout Timely h := by
  rintro later event earlier rfl
  have each := List.all_eq_true.mp wanted event (List.mem_append_right _ List.mem_cons_self)
  unfold Timely
  split
  · exact .inl (of_decide_eq_true each)
  · trivial

/-- A subscription monitors the first inlet, which is admitted, and is deleted. -/
def subscribedThenDeleted : List (Decision Int) :=
  subscribed ++ admitted ++
    [.grant .main, .spawn (.deleteSubscriptions (some "c") [0]), .grant .main, .grant .main, .grant .main,
      .reply 0 obliging, .grant .main]

theorem registry_consistent_deleted : ∃ c, smallRun subscribedThenDeleted = some c ∧
    Throughout Timely c.history ∧ (∀ t, c.InFlight t → ¬ t.call.ChangesMembership) ∧
    (∀ nodeId, nodeId ∈ c.state.nodeMonitors.keys ↔ ∃ id, c.state.Wanted nodeId id) ∧
    ∀ nodeId ref, c.state.nodeMonitors.get? nodeId = some ref →
      ∀ id, id ∈ (c.state.monitor ref).subscriberIds ↔ c.state.Wanted nodeId id := by
  let c := (smallRun subscribedThenDeleted).get rfl
  have done : smallRun subscribedThenDeleted = some c := rfl
  have timely : Throughout Timely c.history := timely_of_allWanted rfl
  have settled (t : ServiceTag Int) (inFlight : c.InFlight t) : ¬ t.call.ChangesMembership :=
    absurd inFlight (not_inFlight_of_atRest rfl t)
  exact ⟨c, done, timely, settled, registry_consistent (smallRun_reachable done) timely settled⟩

/-- Both inlets are unregistered while the first monitor of their registration is
still being admitted; the registration then goes on with the other one. -/
def unregisteredDuringAdmission : List (Decision Int) :=
  [.spawn (.createSubscription (some "c") none), .grant .main,
    .spawn (.registerItems (some "c") 0 ["ns=2;s=abc", "ns=2;s=ABC"] 1 ModelBuilder.inlets 4),
    .grant .main, .grant .main,
    .spawn (.unregisterItems (some "c") 0 ["ns=2;s=abc", "ns=2;s=ABC"] ModelBuilder.inlets 4),
    .grant .main, .grant .main, .grant .main, .grant .main] ++
    admitted ++ [.reply 0 obliging, .grant .main, .grant .main] ++ admitted ++ [.grant .main]

/-- A monitor stays registered for a subscription that monitors nothing. -/
theorem registry_leaks : ∃ c : ServiceConfig Int, ServiceReachable smallServer .any c ∧
    (∀ t, ¬ c.InFlight t) ∧
    ∃ nodeId, nodeId ∈ c.state.nodeMonitors.keys ∧ ¬ ∃ id, c.state.Wanted nodeId id := by
  let c := (smallRun unregisteredDuringAdmission).get rfl
  have done : smallRun unregisteredDuringAdmission = some c := rfl
  refine ⟨c, smallRun_reachable done, not_inFlight_of_atRest rfl, "ns=2;s=abc", ?_, ?_⟩
  · exact List.mem_cons_self
  · rintro ⟨id, state, found, inside⟩
    have only : c.state.subscriptions.entries.map (fun entry => entry.2.monitoredNodeIds) = [∅] := rfl
    have listed := List.mem_map_of_mem (f := fun entry => entry.2.monitoredNodeIds)
      ((c.state.subscriptions.mem_entries id state).mpr found)
    rw [only, List.mem_singleton] at listed
    rw [listed] at inside
    exact absurd inside (Finset.notMem_empty _)

end I3x.Subscriptions

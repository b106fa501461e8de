import I3xServer.Subscriptions.Labels

/-!
# The labels of a run

When all registrations of a run name elements of one model, every queued update
carries the label that a history of such registrations gives its node.
-/
namespace I3x.Subscriptions
open Container Coroutine
variable {V : Type}

section
variable {settings : Settings V} {model : BuildResult}

theorem labelFor_of_sameMembership {a b : SubscriptionState V} (same : SameMembership a b) (nodeId : String) :
    labelFor settings a nodeId = labelFor settings b nodeId := by
  unfold labelFor
  rw [same.nodeToElementId, same.monitoredObjects]

theorem QueueRun.labels {A : String → V → Prop} {state last : SubscriptionState V} {ns : List (Note V)}
    (run : QueueRun settings A state ns last) {id : SubscriptionId} {update : SubscriptionUpdate V}
    (queued : .queued id update ∈ ns) : update.elementId = labelFor settings state update.nodeId := by
  induction run with
  | refl => cases queued
  | quiet same _ ih =>
      rw [ih queued]
      exact (labelFor_of_sameMembership same.sameMembership _).symm
  | mark n plain _ ih =>
      rcases List.mem_cons.mp queued with rfl | later
      · cases plain
      · exact ih later
  | @append state last ns now nodeId value allowed _ ih =>
      rcases List.mem_append.mp queued with here | later
      · obtain ⟨label, node⟩ := appendUpdate_queued here
        rw [label, node]
      · rw [ih later]
        exact (labelFor_of_sameMembership (appendUpdate_sameMembership now state nodeId value) _).symm
  | @acknowledge state last ns value _ ih =>
      rcases List.mem_append.mp queued with here | later
      · obtain ⟨v, _, same⟩ := Option.map_eq_some_iff.mp (Option.mem_toList.mp here)
        cases same
      · rw [ih later]
        exact (labelFor_of_sameMembership (acknowledge_sameMembership state value) _).symm
  | report _ ih =>
      rcases List.mem_cons.mp queued with here | later
      · cases here
      · exact ih later

/-- The change is made by a call that names elements of the model. -/
def ofModelChange (model : BuildResult) (change : Dict String Int → Dict String Int) (used : BuildResult) : Prop :=
  used = model ∧ ∃ call : MembershipCall, call.OfModel model ∧ change = call.change

def Enrolled (settings : Settings V) (model : BuildResult) (state : SubscriptionState V) : Prop :=
  ∃ calls, (∀ call ∈ calls, MembershipCall.OfModel model call) ∧ Registration settings model calls state

/-- Every subscription has its labels from calls on the model, and each queued
update the label that the labels of its moment gave. -/
structure Labelling (settings : Settings V) (model : BuildResult) (s : ServiceState V) (h : ServiceHistory V) :
    Prop where
  keys : WellKeyed s
  registered : ∀ id state, s.subscriptions.get? id = some state → Enrolled settings model state
  queued : ∀ t id update, Event.noted t (.queued id update) ∈ h →
    ∃ state, Enrolled settings model state ∧ update.elementId = labelFor settings state update.nodeId

theorem Enrolled.of_sameMembership {a b : SubscriptionState V} (same : SameMembership a b)
    (registered : Enrolled settings model a) : Enrolled settings model b := by
  obtain ⟨calls, known, objects, fuel, done⟩ := registered
  refine ⟨calls, known, ?_, fuel, ?_⟩
  · rw [same.monitoredObjects, objects]
  · rw [same.monitoredObjects, done, same.monitoredNodeIds, same.nodeToElementId]

theorem Inherits.registered {state state' : SubscriptionState V}
    (inherits : Inherits settings (ofModelChange model) state state')
    (before : Enrolled settings model state) : Enrolled settings model state' := by
  cases inherits with
  | same => exact before
  | remonitored change used fuel resolution now may resolved =>
      obtain ⟨calls, known, objects, _⟩ := before
      obtain ⟨rfl, call, names, rfl⟩ := may
      refine ⟨calls ++ [call], fun other m => ?_, ?_, fuel, resolved⟩
      · rcases List.mem_append.mp m with old | new
        · exact known other old
        · exact (List.mem_singleton.mp new) ▸ names
      · rw [registeredAfter_concat, ← objects]
        rfl

theorem Labelling.act {t : ServiceTag V} {m : ServiceMemory V} {s s' : ServiceState V} {h : ServiceHistory V}
    {ns : List (Note V)} (labelling : Labelling settings model s h)
    (step : CallStep settings (ofModelChange model) m s ns s') :
    Labelling settings model s' (noted t ns ++ h) := by
  refine ⟨step.wellKeyed labelling.keys, ?_, ?_⟩
  · intro id state' found
    rcases step.queue_or_descends labelling.keys with ⟨other, state, next, there, run, rfl⟩ | ⟨_, descends⟩
    · rw [get?_setSubscription] at found
      split_ifs at found with here
      · cases found
        exact (labelling.registered other state there).of_sameMembership run.sameMembership
      · exact labelling.registered id state' found
    · rcases descends id state' found with ⟨state, before, inherits⟩ | ⟨_, _, clientId, name, now, rfl⟩
      · exact inherits.registered (labelling.registered id state before)
      · exact ⟨[], fun _ => nofun, rfl, 0, rfl⟩
  · intro t' id update inside
    rcases List.mem_append.mp inside with new | before
    · obtain ⟨n, here, same⟩ := mem_noted.mp new
      cases same
      rcases step.queue_or_descends labelling.keys with ⟨other, state, next, there, run, rfl⟩ | ⟨silent, _⟩
      · exact ⟨state, labelling.registered other state there, run.labels here⟩
      · exact (silent _ here).elim
    · exact labelling.queued t' id update before

theorem Labelling.cons {s : ServiceState V} {h : ServiceHistory V} {event : ServiceEvent V}
    (plain : ∀ t n, event ≠ .noted t n) (labelling : Labelling settings model s h) :
    Labelling settings model s (event :: h) := by
  refine ⟨labelling.keys, labelling.registered, fun t id update inside => ?_⟩
  rcases List.mem_cons.mp inside with here | before
  · exact absurd here.symm (plain _ _)
  · exact labelling.queued t id update before

/-- When all membership calls of a run name elements of one model, each queued
update carries the label that a history of such calls gives its node. -/
theorem reachable_labelling {around : Surroundings V} {c : ServiceConfig V}
    (only : ∀ s inFlight call, around.mayCall s inFlight call → call.ChangesAllowed (ofModelChange model))
    (h : ServiceReachable settings around c) : Labelling settings model c.state c.history := by
  have kept : Kept (fun _ => CallStep settings (ofModelChange model)) (Labelling settings model) :=
    { act := fun _ _ _ _ _ _ labelling _ step => labelling.act step
      spawned := fun _ _ _ labelling => labelling.cons fun _ _ => nofun
      requested := fun _ _ _ _ labelling => labelling.cons fun _ _ => nofun
      replied := fun _ _ _ _ _ labelling => labelling.cons fun _ _ => nofun }
  have start : Labelling settings model (.empty : ServiceState V) [] := ⟨.empty, nofun, fun _ _ _ => nofun⟩
  refine reachable_history start (fun v call holds may => ?_) h
  exact kept.call (program_within settings (ofModelChange model) call (only _ _ _ may))
    (fun _ _ _ labelling => labelling.cons fun _ _ => nofun) holds

/-- Each queued update names the property of its node exactly when the label was
clear among the objects registered at that moment. -/
theorem queued_names_iff {around : Surroundings V} {c : ServiceConfig V} (keyed : model.KeyedById)
    (distinct : model.SourcesDistinct)
    (only : ∀ s inFlight call, around.mayCall s inFlight call → call.ChangesAllowed (ofModelChange model))
    (h : ServiceReachable settings around c) {t : ServiceTag V} {id : SubscriptionId}
    {update : SubscriptionUpdate V} (queued : Event.noted t (.queued id update) ∈ c.history) :
    ∃ calls state, (∀ call ∈ calls, MembershipCall.OfModel model call) ∧
      Registration settings model calls state ∧ (update.nodeId ∈ state.monitoredNodeIds →
        (NamesProperty model update.nodeId update.elementId ↔
          LabelClear settings.text model (registeredAfter calls) update.nodeId)) := by
  obtain ⟨state, ⟨calls, known, registration⟩, label⟩ := (reachable_labelling only h).queued t id update queued
  refine ⟨calls, state, known, registration, fun monitored => ?_⟩
  rw [label]
  exact labelFor_names_iff keyed distinct known registration monitored

end
end I3x.Subscriptions

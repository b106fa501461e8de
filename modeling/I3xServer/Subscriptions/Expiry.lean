import I3xServer.Subscriptions.Activity

/-!
# Expiry depends on the client only

The date of activity that a subscription stores is the clock at the last use that
its client made of it, or at the beginning of the call that created it. So an
expiry pass, which compares dates, removes exactly the subscriptions that their
clients have left alone for the time to live.
-/
namespace I3x.Subscriptions
open Container Coroutine Program
variable {V : Type} (settings : Settings V)

abbrev ServiceMoment (V : Type) := Moment (ServiceState V) (Note V) (Call V)

/-- The act is the one that creates the subscription. -/
def Begins (id : SubscriptionId) (m : ServiceMoment V) : Prop := m.tag.call.Creates ∧ .created id ∈ m.notes

/-- The act is a use that a call of the client makes of the subscription. -/
def Continues (id : SubscriptionId) (m : ServiceMoment V) : Prop :=
  m.tag.call.subscription? = some id ∧ Uses settings id m.before m.after

/-- The clock at the last use of the subscription in these acts, newest first; its
creation counts with the clock at which the creating call began. -/
inductive LastUse (id : SubscriptionId) : List (ServiceMoment V) → Nat → Prop
  | created {m earlier reading} (begins : Begins id m) (first : past m.tag.id earlier = [reading]) :
      LastUse id (m :: earlier) reading.before.clock
  | used {m earlier} (continues : Continues settings id m) : LastUse id (m :: earlier) m.before.clock
  | before {m earlier date} (uncreated : ¬ Begins id m) (unused : ¬ Continues settings id m)
      (last : LastUse id earlier date) : LastUse id (m :: earlier) date

variable {settings}

theorem Begins.not_continues {id other : SubscriptionId} {m : ServiceMoment V} (begins : Begins id m) :
    ¬ Continues settings other m := by
  obtain ⟨⟨n, call⟩, before, notes, after⟩ := m
  obtain ⟨creates, -⟩ := begins
  rintro ⟨about, -⟩
  cases call <;> first | exact creates | cases about

theorem LastUse.unique {id : SubscriptionId} {trace : List (ServiceMoment V)} {first second : Nat}
    (one : LastUse settings id trace first) (other : LastUse settings id trace second) : first = second := by
  induction one with
  | created begins start =>
      cases other with
      | created _ start' =>
          have same := List.cons.inj (start.symm.trans start')
          rw [same.1]
      | used continues => exact absurd continues begins.not_continues
      | before uncreated _ _ => exact absurd begins uncreated
  | used continues =>
      cases other with
      | created begins _ => exact absurd continues begins.not_continues
      | used _ => rfl
      | before _ unused _ => exact absurd continues unused
  | before uncreated unused _ ih =>
      cases other with
      | created begins _ => exact absurd begins uncreated
      | used continues => exact absurd continues unused
      | before _ _ last => exact ih last

/-! ## The stored dates -/

/-- Every stored date of activity is the one of the last use. -/
structure Dated (settings : Settings V) (s : ServiceState V) (trace : List (ServiceMoment V)) : Prop where
  keys : WellKeyed s
  last : ∀ {id state}, s.subscriptions.get? id = some state → LastUse settings id trace state.lastActivity

variable (settings) in
/-- The creating call reads the clock, and then stores a subscription with that date. -/
theorem create_acts {t : ServiceTag V} {clientId displayName : Option String} {acts : List (ServiceMoment V)}
    {f : ServiceState V → ServiceState V} {log : ServiceState V → List (Note V)}
    {k : ServiceState V → Act V (Outcome V)}
    (path : Program.Performs t (program settings (.createSubscription clientId displayName)) acts (.act f log k)) :
    (f = id ∧ log = fun _ => []) ∨ ∃ reading, acts = [reading] ∧
      f = (fun s => (createSection clientId displayName reading.before.clock s).2.1) ∧
      log = fun s => (createSection clientId displayName reading.before.clock s).2.2 := by
  rcases path.act_cases with ⟨-, same⟩ | ⟨s, more, rfl, locking⟩
  · obtain ⟨rfl, rfl, -⟩ := Program.act.inj same
    exact .inl ⟨rfl, rfl⟩
  · rcases locking.lock_cases with ⟨-, same⟩ | storing
    · cases same
    rcases storing.act_cases with ⟨rfl, same⟩ | ⟨s', more, rfl, leaving⟩
    · obtain ⟨rfl, rfl, -⟩ := Program.act.inj same
      exact .inr ⟨_, rfl, rfl, rfl⟩
    · rcases leaving.unlock_cases with ⟨-, same⟩ | done
      · cases same
      · cases done.of_ret

theorem dated_create {s : ServiceState V} {trace : List (ServiceMoment V)} (dated : Dated settings s trace)
    {n : Nat} {clientId displayName : Option String} {reading : ServiceMoment V}
    (first : past n trace = [reading]) :
    Dated settings (createSection clientId displayName reading.before.clock s).2.1
      (⟨⟨n, .createSubscription clientId displayName⟩, s,
        (createSection clientId displayName reading.before.clock s).2.2,
        (createSection clientId displayName reading.before.clock s).2.1⟩ :: trace) where
  keys := createSection_wellKeyed dated.keys _ _ _
  last {id state} found := by
    change (s.setSubscription s.nextSubscription _).subscriptions.get? id = some state at found
    rw [get?_setSubscription] at found
    split_ifs at found with here
    · cases found
      exact .created ⟨trivial, by rw [here]; exact List.mem_singleton_self _⟩ first
    · refine .before (fun begins => here ?_) (fun continues => nomatch continues.1) (dated.last found)
      exact Note.created.inj (List.mem_singleton.mp begins.2)

/-- An act of any other call dates its own subscription with the clock or dates nothing. -/
theorem dated_active {s s' : ServiceState V} {trace : List (ServiceMoment V)} {t : ServiceTag V}
    {m : ServiceMemory V} {ns : List (Note V)} (dated : Dated settings s trace) (keys : WellKeyed s')
    (other : ¬ t.call.Creates) (active : Active settings t.call.subscription? m s ns s') :
    Dated settings s' (⟨t, s, ns, s'⟩ :: trace) where
  keys := keys
  last {id state'} found := by
    by_cases used : t.call.subscription? = some id ∧ Uses settings id s s'
    · obtain ⟨stored, there, date⟩ := used.2.get?.1
      cases there.symm.trans found
      rw [date]
      exact .used (m := ⟨t, s, ns, s'⟩) used
    · have earlier : ∃ state, s.subscriptions.get? id = some state ∧ state'.lastActivity = state.lastActivity := by
        rcases active with ⟨named, about, uses⟩ | undated
        · have different : id ≠ named := fun same => used (same ▸ ⟨about, uses⟩)
          rw [uses.get?.2 id different] at found
          exact ⟨state', found, rfl⟩
        · exact undated id state' found
      obtain ⟨state, stored, same⟩ := earlier
      rw [same]
      exact .before (fun begins => other begins.1) used (dated.last stored)

theorem dated_keeps (around : Surroundings V) : ActKeeps (service settings around) (Dated settings) := by
  rintro s trace ⟨n, call⟩ f log k dated path
  obtain ⟨_, step⟩ := path.within (program_within settings anyChange call (changesAllowed_any call) []) s
  have keys := ServiceStep.wellKeyed step dated.keys
  by_cases creates : call.Creates
  · cases call with
    | createSubscription clientId displayName =>
        rcases create_acts settings path with ⟨rfl, rfl⟩ | ⟨reading, first, rfl, rfl⟩
        · refine ⟨keys, fun found => .before (fun begins => ?_) (fun continues => ?_) (dated.last found)⟩
          · cases begins.2
          · cases continues.1
        · exact dated_create dated first
    | _ => exact creates.elim
  · obtain ⟨_, active⟩ := path.within (program_active call creates []) s
    exact dated_active dated keys creates active

theorem dated_empty : Dated settings (.empty : ServiceState V) [] := ⟨.empty, nofun⟩

/-! ## Expiry passes -/

variable (settings) in
/-- An expiry pass reads the clock, removes what is stale by that clock, and then
releases monitors. -/
theorem expire_acts {t : ServiceTag V} {acts : List (ServiceMoment V)}
    {f : ServiceState V → ServiceState V} {log : ServiceState V → List (Note V)}
    {k : ServiceState V → Act V (Outcome V)}
    (path : Program.Performs t (program settings .expireSubscriptions) acts (.act f log k)) :
    (acts = [] ∧ f = id) ∨
    (∃ reading, acts = [reading] ∧ f = fun s => (expireSection settings reading.before.clock s).2.1) ∨
    (2 ≤ acts.length ∧ ∀ s, SameOutside s (f s)) := by
  rcases path.act_cases with ⟨rfl, same⟩ | ⟨s, more, rfl, locking⟩
  · obtain ⟨rfl, -, -⟩ := Program.act.inj same
    exact .inl ⟨rfl, rfl⟩
  · rcases locking.lock_cases with ⟨-, same⟩ | removing
    · cases same
    rcases removing.act_cases with ⟨rfl, same⟩ | ⟨s', more, rfl, leaving⟩
    · obtain ⟨rfl, -, -⟩ := Program.act.inj same
      exact .inr (.inl ⟨_, rfl, rfl⟩)
    · refine .inr (.inr ⟨Nat.le_add_left 2 more.length, fun s₀ => ?_⟩)
      rcases leaving.unlock_cases with ⟨-, same⟩ | releasing
      · cases same
      have outside : (((forEach (expireSection settings s.clock s').1 fun state =>
          releaseAllNodes settings state).bind fun _ => .ret .done : Act V (Outcome V))).Within Outside :=
        Within.bind (.forEach fun state _ => releaseAllNodes_outside settings state) fun _ => .ret _
      exact (releasing.within (outside []) s₀).choose_spec

/-- What the removing act of an expiry pass does: exactly the live subscriptions that
were not used for the time to live before the pass began are gone, and everything
else is as before. -/
structure ExpiresUnused (settings : Settings V) (m : ServiceMoment V) (earlier : List (ServiceMoment V))
    (reading : ServiceMoment V) : Prop where
  removed : ∀ {id state}, m.before.subscriptions.get? id = some state →
    (m.after.subscriptions.get? id = none ↔
      ∃ date, LastUse settings id earlier date ∧ date + settings.ttlMs ≤ reading.before.clock)
  kept : ∀ {id state}, m.after.subscriptions.get? id = some state → m.before.subscriptions.get? id = some state
  rest : m.after = { m.before with subscriptions := m.after.subscriptions }

theorem expireSection_removes {s : ServiceState V} {earlier : List (ServiceMoment V)}
    (dated : Dated settings s earlier) (started : Nat) :
    Removal s (expireSection settings started s).1 (expireSection settings started s).2.1 :=
  expireSection_removal dated.keys started

theorem expireSection_unused {s : ServiceState V} {earlier : List (ServiceMoment V)}
    (dated : Dated settings s earlier) (t : ServiceTag V) (ns : List (Note V)) (reading : ServiceMoment V) :
    ExpiresUnused settings ⟨t, s, ns, (expireSection settings reading.before.clock s).2.1⟩ earlier reading where
  removed {id state} found := by
    have removal := expireSection_removes dated reading.before.clock
    have last := dated.last found
    dsimp only at found ⊢
    rw [removal.get?]
    constructor
    · intro gone
      split_ifs at gone with listed
      · obtain ⟨other, inside, same⟩ := List.mem_map.mp listed
        obtain ⟨live, stale⟩ := List.mem_filter.mp inside
        have stored := removal.stored other inside
        rw [same, found] at stored
        cases stored
        exact ⟨_, last, of_decide_eq_true stale⟩
      · rw [found] at gone
        cases gone
    · rintro ⟨date, used, stale⟩
      rw [used.unique last] at stale
      rw [if_pos]
      refine List.mem_map.mpr ⟨state, List.mem_filter.mpr ⟨?_, decide_eq_true stale⟩, dated.keys.keyed found⟩
      exact (s.subscriptions.mem_values state).mpr ⟨id, found⟩
  kept found := (expireSection_removes dated reading.before.clock).of_mem found
  rest := (expireSection_removes dated reading.before.clock).rest

/-- The server's own work never changes a date of activity, and of the acts of an
expiry pass the second removes exactly the unused subscriptions, while the others
leave all subscriptions and the notifications under way alone. -/
theorem expiry_by_use (around : Surroundings V) {c : ServiceConfig V}
    {trace later earlier : List (ServiceMoment V)} {m : ServiceMoment V}
    (run : Traced (service settings around) .empty c trace) (split : trace = later ++ m :: earlier) :
    (m.tag.call.Background → Undated m.before m.after) ∧
    (m.tag.call = .expireSubscriptions →
      (past m.tag.id earlier = [] → m.after = m.before) ∧
      (∀ reading, past m.tag.id earlier = [reading] → ExpiresUnused settings m earlier reading) ∧
      (2 ≤ (past m.tag.id earlier).length → SameOutside m.before m.after)) := by
  obtain ⟨dated, -, f, log, k, path, notes, after⟩ := run.moment (dated_keeps around) dated_empty split
  obtain ⟨⟨n, call⟩, s, ns, s'⟩ := m
  dsimp only at *
  subst after
  constructor
  · intro background
    have other : ¬ call.Creates := by
      intro creates
      cases call <;> first | exact creates | exact background
    obtain ⟨_, ⟨id, about, -⟩ | undated⟩ := path.within (program_active call other []) s
    · cases call <;> first | exact background.elim | cases about
    · exact undated
  · rintro rfl
    rcases expire_acts settings path with ⟨none, rfl⟩ | ⟨first, one, rfl⟩ | ⟨two, outside⟩
    · rw [none]
      exact ⟨fun _ => rfl, fun reading same => absurd same.symm (List.cons_ne_nil reading []),
        fun short => absurd short (Nat.not_succ_le_zero 1)⟩
    · rw [one]
      refine ⟨fun same => absurd same (List.cons_ne_nil first []), fun reading same => ?_,
        fun short => absurd short (by simp)⟩
      cases same
      exact expireSection_unused dated _ _ _
    · refine ⟨fun none => ?_, fun reading one => ?_, fun _ => outside s⟩
      · rw [none] at two
        exact absurd two (Nat.not_succ_le_zero 1)
      · rw [one] at two
        exact absurd two (by simp)

/-- Two subscriptions, of which the second is synced within the time to live. -/
def expiringRun : List (Decision Int) :=
  [.spawn (.createSubscription none none), .grant .main, .spawn (.createSubscription none none), .grant .main,
    .spawn (.clockTick 200000), .spawn (.sync none 1 none false), .grant .main, .grant .main,
    .spawn (.clockTick 150000), .spawn .expireSubscriptions, .grant .main]

def expiringActs : List (ServiceMoment Int) :=
  trailAll (service smallServer .any) (Config.start .empty) expiringRun []

theorem expiry_by_use_synced : ∃ m earlier reading, expiringActs = m :: earlier ∧
    past m.tag.id earlier = [reading] ∧ m.before.subscriptions.keys = [0, 1] ∧
    m.after.subscriptions.keys = [1] ∧ ExpiresUnused smallServer m earlier reading := by
  let c := (smallRun expiringRun).get rfl
  have done : smallRun expiringRun = some c := rfl
  have run : Traced (service smallServer .any) .empty c expiringActs :=
    traced_execAll expiringRun .start done (allPermitted_any smallServer _ expiringRun)
  have split : expiringActs = [] ++ expiringActs.head (by decide) :: expiringActs.tail := rfl
  exact ⟨_, _, _, rfl, rfl, rfl, rfl, ((expiry_by_use .any run split).2 rfl).2.1 _ rfl⟩

end I3x.Subscriptions

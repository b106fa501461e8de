import I3xServer.Serving.ModelCache

/-!
# One build at a time

Builds never overlap, whatever the order in which requests, the preload and the
periodic refresh run; so the cache always holds the model of the newest build.
-/
namespace I3x.Serving
open Coroutine Program
variable {M : Type} {settings : PreloadSettings}

/-- Where a suspended task is: before it knows that the preload is over, after that,
in its build inside the lock, in the build of the preload, or behind that. -/
inductive Phase where
  | fresh | ready | building | preloading | warming
  deriving DecidableEq, Repr

/-- The task is in a build. -/
def Phase.Builds : Phase → Prop
  | .building | .preloading => True
  | .fresh | .ready | .warming => False

/-- The task is the preload. -/
def Phase.Starts : Phase → Prop
  | .preloading | .warming => True
  | .fresh | .ready | .building => False

instance : DecidablePred Phase.Builds := fun phase => by
  cases phase <;> unfold Phase.Builds <;> infer_instance

instance : DecidablePred Phase.Starts := fun phase => by
  cases phase <;> unfold Phase.Starts <;> infer_instance

theorem Phase.builds_iff {g : Phase} : g.Builds ↔ g = .building ∨ g = .preloading := by
  cases g <;> simp [Phase.Builds]

abbrev CacheEntries := Multiset (Entry CacheCall Phase)

/-- The tasks that are in a build. -/
def builders (B : CacheEntries) : Multiset CacheTag := (B.filter fun e => e.ghost.Builds).map Entry.tag

/-- What holds whenever all tasks are suspended. -/
structure Flights (settings : PreloadSettings) (s : CacheState M) (h : CacheHistory M) (B : CacheEntries) : Prop where
  cached : s.modelCache = lastBuilt h
  builder : builders B = (openBuild h).elim 0 fun t => {t}
  orderly : Throughout Orderly h
  ready : ∀ e ∈ B, e.ghost = .ready ∨ e.ghost = .building → s.startup = .finished
  starting : ∀ e ∈ B, e.ghost.Starts → s.startup = .building
  one : (B.filter fun e => e.ghost.Starts).card ≤ 1
  off : settings.mode = .off → s.startup = .finished

theorem builders_cons (t : CacheTag) (g : Phase) (B : CacheEntries) :
    builders (⟨t, g⟩ ::ₘ B) = if g.Builds then t ::ₘ builders B else builders B := by
  unfold builders
  split
  · rename_i builds
    rw [Multiset.filter_cons_of_pos _ (by exact builds), Multiset.map_cons]
  · rename_i idle
    rw [Multiset.filter_cons_of_neg _ (by exact idle)]

/-- An event that neither begins nor ends a build and is orderly anyway. -/
structure Neutral (event : CacheEvent M) (h : CacheHistory M) : Prop where
  built : event.built? = none
  opened : openBuild (event :: h) = openBuild h
  orderly : Orderly event h

section
variable {s : CacheState M} {h : CacheHistory M} {B : CacheEntries} {t : CacheTag}

theorem Flights.event (flights : Flights settings s h B) {e : CacheEvent M} (neutral : Neutral e h) :
    Flights settings s (e :: h) B where
  cached := by
    rw [flights.cached, lastBuilt, lastBuilt, List.findSome?_cons, neutral.built]
  builder := by rw [neutral.opened, flights.builder]
  orderly := throughout_cons.mpr ⟨neutral.orderly, flights.orderly⟩
  ready := flights.ready
  starting := flights.starting
  one := flights.one
  off := flights.off

/-- A task that is not in a build may stand beside the others. -/
theorem Flights.file (flights : Flights settings s h B) {g : Phase} (idle : ¬ g.Builds) (later : ¬ g.Starts)
    (passed : g = .ready → s.startup = .finished) : Flights settings s h (⟨t, g⟩ ::ₘ B) where
  cached := flights.cached
  builder := by rw [builders_cons, if_neg idle, flights.builder]
  orderly := flights.orderly
  ready e inside phase := by
    rcases Multiset.mem_cons.mp inside with rfl | other
    · rcases phase with ready | building
      · exact passed ready
      · exact absurd (Phase.builds_iff.mpr (.inl building)) idle
    · exact flights.ready e other phase
  starting e inside starts := by
    rcases Multiset.mem_cons.mp inside with rfl | other
    · exact absurd starts later
    · exact flights.starting e other starts
  one := by
    rw [Multiset.filter_cons_of_neg _ (by exact later)]
    exact flights.one
  off := flights.off

theorem Flights.unfile {g : Phase} (flights : Flights settings s h (⟨t, g⟩ ::ₘ B)) (idle : ¬ g.Builds) :
    Flights settings s h B where
  cached := flights.cached
  builder := by
    have all := flights.builder
    rwa [builders_cons, if_neg idle] at all
  orderly := flights.orderly
  ready e inside := flights.ready e (Multiset.mem_cons_of_mem inside)
  starting e inside := flights.starting e (Multiset.mem_cons_of_mem inside)
  one := (Multiset.card_le_card (Multiset.filter_le_filter _ (Multiset.le_cons_self B _))).trans flights.one
  off := flights.off

/-- No one is in a build when no task has such a phase. -/
theorem Flights.none_open (flights : Flights settings s h B) (idle : ∀ e ∈ B, ¬ e.ghost.Builds) :
    openBuild h = none := by
  have empty : builders B = 0 := by
    rw [builders, Multiset.filter_eq_nil.mpr idle, Multiset.map_zero]
  have all := flights.builder
  rw [empty] at all
  cases opened : openBuild h with
  | none => rfl
  | some t =>
      rw [opened] at all
      exact absurd all.symm (Multiset.singleton_ne_zero t)

/-- A build begins. -/
theorem Flights.begin (flights : Flights settings s h B) {g : Phase} (builds : g.Builds)
    (idle : ∀ e ∈ B, ¬ e.ghost.Builds) (lazily : t.call = .getOrBuildModel → lastBuilt h = none)
    (passed : g = .building → s.startup = .finished)
    (first : g.Starts → s.startup = .building ∧ ∀ e ∈ B, ¬ e.ghost.Starts) :
    Flights settings s (.requested t .build :: h) (⟨t, g⟩ ::ₘ B) where
  cached := flights.cached
  builder := by
    have empty : builders B = 0 := by
      rw [builders, Multiset.filter_eq_nil.mpr idle, Multiset.map_zero]
    rw [builders_cons, if_pos builds, empty]
    rfl
  orderly := throughout_cons.mpr ⟨⟨flights.none_open idle, lazily⟩, flights.orderly⟩
  ready e inside phase := by
    rcases Multiset.mem_cons.mp inside with rfl | other
    · rcases phase with ready | building
      · exact absurd (Phase.builds_iff.mp builds) (by rw [show g = .ready from ready]; decide)
      · exact passed building
    · exact flights.ready e other phase
  starting e inside starts := by
    rcases Multiset.mem_cons.mp inside with rfl | other
    · exact (first starts).1
    · exact flights.starting e other starts
  one := by
    by_cases starts : g.Starts
    · rw [Multiset.filter_cons_of_pos _ (by exact starts), Multiset.filter_eq_nil.mpr (first starts).2]
      exact Nat.le_refl 1
    · rw [Multiset.filter_cons_of_neg _ (by exact starts)]
      exact flights.one
  off := flights.off

/-- Beside a task that is in a build no other is. -/
theorem Flights.alone {g : Phase} (flights : Flights settings s h (⟨t, g⟩ ::ₘ B)) (builds : g.Builds) :
    openBuild h = some t ∧ ∀ e ∈ B, ¬ e.ghost.Builds := by
  have all := flights.builder
  rw [builders_cons, if_pos builds] at all
  cases opened : openBuild h with
  | none =>
      rw [opened] at all
      exact absurd all Multiset.cons_ne_zero
  | some u =>
      rw [opened] at all
      obtain ⟨rfl, none⟩ := (Multiset.singleton_eq_cons_iff _).mp all.symm
      rw [builders, Multiset.map_eq_zero, Multiset.filter_eq_nil] at none
      exact ⟨rfl, none⟩

/-- A build ends, and its model is stored if there is one. -/
theorem Flights.finish {g : Phase} (flights : Flights settings s h (⟨t, g⟩ ::ₘ B)) (builds : g.Builds)
    (built : Option M) : Flights settings { s with modelCache := built.or s.modelCache }
      (.replied t .build built :: h) B := by
  obtain ⟨opened, alone⟩ := flights.alone builds
  refine ⟨?_, ?_, throughout_cons.mpr ⟨opened, flights.orderly⟩, fun e inside => ?_, fun e inside => ?_, ?_, flights.off⟩
  · rw [flights.cached, lastBuilt, lastBuilt, List.findSome?_cons]
    cases built <;> rfl
  · rw [builders, Multiset.filter_eq_nil.mpr alone]
    rfl
  · exact flights.ready e (Multiset.mem_cons_of_mem inside)
  · exact flights.starting e (Multiset.mem_cons_of_mem inside)
  · exact (Multiset.card_le_card (Multiset.filter_le_filter _ (Multiset.le_cons_self B _))).trans flights.one

/-- The preload is a single task. -/
theorem Flights.only {g : Phase} (flights : Flights settings s h (⟨t, g⟩ ::ₘ B)) (starts : g.Starts) :
    ∀ e ∈ B, ¬ e.ghost.Starts := by
  have one := flights.one
  rw [Multiset.filter_cons_of_pos _ (by exact starts), Multiset.card_cons] at one
  exact Multiset.filter_eq_nil.mp (Multiset.card_eq_zero.mp (Nat.le_zero.mp (Nat.le_of_succ_le_succ one)))

/-- The preload has built its model and is not over yet. -/
theorem Flights.warm (flights : Flights settings s h B) (only : ∀ e ∈ B, ¬ e.ghost.Starts)
    (starting : s.startup = .building) : Flights settings s h (⟨t, .warming⟩ ::ₘ B) where
  cached := flights.cached
  builder := by rw [builders_cons, if_neg (show ¬ Phase.Builds .warming from id), flights.builder]
  orderly := flights.orderly
  ready e inside phase := by
    rcases Multiset.mem_cons.mp inside with rfl | other
    · rcases phase with ready | building
      · cases ready
      · cases building
    · exact flights.ready e other phase
  starting e inside starts := by
    rcases Multiset.mem_cons.mp inside with rfl | other
    · exact starting
    · exact flights.starting e other starts
  one := by
    rw [Multiset.filter_cons_of_pos _ (by trivial), Multiset.filter_eq_nil.mpr only]
    exact Nat.le_refl 1
  off := flights.off

/-- Nobody is past the preload, or is the preload, before it begins. -/
theorem Flights.unstarted (flights : Flights settings s h B) (first : s.startup = .waiting) :
    ∀ e ∈ B, ¬ e.ghost.Builds ∧ ¬ e.ghost.Starts := by
  intro e inside
  have later : ¬ e.ghost.Starts := by
    intro starts
    rw [flights.starting e inside starts] at first
    cases first
  refine ⟨fun builds => ?_, later⟩
  rcases Phase.builds_iff.mp builds with building | preloading
  · rw [flights.ready e inside (.inr building)] at first
    cases first
  · exact later (preloading ▸ trivial)

/-- The preload reports how far it is while no other task is the preload. -/
theorem Flights.report (flights : Flights settings s h B) (only : ∀ e ∈ B, ¬ e.ghost.Starts)
    (under : s.startup ≠ .finished) (startup : Startup) : Flights settings { s with startup } h B where
  cached := flights.cached
  builder := flights.builder
  orderly := flights.orderly
  ready e inside phase := absurd (flights.ready e inside phase) under
  starting e inside starts := absurd starts (only e inside)
  one := flights.one
  off off := absurd (flights.off off) under

end

/-! ## The programs -/

abbrev CacheView (M : Type) :=
  View (CacheState M) CacheLock Empty CacheRequest (CacheReply M) CacheCall (CacheOutcome M) Phase

/-- The lock is held exactly while a task is in a build inside it. -/
structure Serves (settings : PreloadSettings) (v : CacheView M) : Prop where
  flights : Flights settings v.state v.history v.bag
  held : v.held .modelLock = true ↔ ∃ e ∈ v.bag, e.ghost = .building

section
variable {t : CacheTag} {v w : CacheView M} {g : Phase}

theorem Serves.suspend (serves : Serves settings v) (idle : ¬ g.Builds) (later : ¬ g.Starts) (passed : g = .ready → v.state.startup = .finished)
    (machine : w.toMachine = v.toMachine) (bag : w.bag = ⟨t, g⟩ ::ₘ v.bag) : Serves settings w := by
  have state : w.state = v.state := congrArg Machine.state machine
  have history : w.history = v.history := congrArg Machine.history machine
  have held : w.held = v.held := congrArg Machine.held machine
  refine ⟨?_, ?_⟩
  · rw [state, history, bag]
    exact serves.flights.file idle later passed
  · rw [held, bag, serves.held]
    constructor
    · rintro ⟨e, inside, building⟩
      exact ⟨e, Multiset.mem_cons_of_mem inside, building⟩
    · rintro ⟨e, inside, building⟩
      rcases Multiset.mem_cons.mp inside with rfl | other
      · exact absurd (Phase.builds_iff.mpr (.inl building)) idle
      · exact ⟨e, other, building⟩

theorem Serves.resume (serves : Serves settings w) (idle : ¬ g.Builds) (machine : w.toMachine = v.toMachine)
    (bag : w.bag = ⟨t, g⟩ ::ₘ v.bag) : Serves settings v ∧ (g = .ready → v.state.startup = .finished) := by
  have state : w.state = v.state := congrArg Machine.state machine
  have history : w.history = v.history := congrArg Machine.history machine
  have held : w.held = v.held := congrArg Machine.held machine
  obtain ⟨flights, lock⟩ := serves
  rw [state, history, bag] at flights
  rw [held, bag] at lock
  refine ⟨⟨flights.unfile idle, lock.trans ⟨?_, ?_⟩⟩, fun ready => ?_⟩
  · rintro ⟨e, inside, building⟩
    rcases Multiset.mem_cons.mp inside with rfl | other
    · exact absurd (Phase.builds_iff.mpr (.inl building)) idle
    · exact ⟨e, other, building⟩
  · rintro ⟨e, inside, building⟩
    exact ⟨e, Multiset.mem_cons_of_mem inside, building⟩
  · exact flights.ready _ (Multiset.mem_cons_self _ _) (.inl ready)

theorem Serves.noting (serves : Serves settings v) {e : CacheEvent M} (neutral : Neutral e v.history) :
    Serves settings (v.noting e) := ⟨serves.flights.event neutral, serves.held⟩

/-- Awaiting anything but a build. -/
theorem wp_await {q : CacheRequest} (other : q ≠ .build) {P : CacheReply M q → CacheView M → Prop}
    (serves : Serves settings v) (idle : ¬ g.Builds) (later : ¬ g.Starts)
    (passed : g = .ready → v.state.startup = .finished)
    (next : ∀ (v' : CacheView M) r, Serves settings v' →
      (q = .modelPreloadTask ∨ g = .ready → v'.state.startup = .finished) → P r v') :
    wp (modelCache settings).mayReply (Serves settings) t P (await q) v := by
  have asked : Neutral (M := M) (.requested t q) v.history := by
    cases q with
    | build => exact absurd rfl other
    | modelPreloadTask => exact ⟨rfl, rfl, trivial⟩
    | warm => exact ⟨rfl, rfl, trivial⟩
  refine ⟨g, (serves.noting asked).suspend idle later passed rfl (View.bag_park _ _), fun v' r may parked => ?_⟩
  obtain ⟨serves', ready⟩ := parked.resume (v := v') idle rfl (View.bag_park v' _)
  have answered : Neutral (M := M) (.replied t q r) v'.history := by
    cases q with
    | build => exact absurd rfl other
    | modelPreloadTask => exact ⟨rfl, rfl, trivial⟩
    | warm => exact ⟨rfl, rfl, trivial⟩
  refine next _ r (serves'.noting answered) ?_
  rintro (preload | here)
  · exact may preload
  · exact ready here

theorem wp_awaitModelPreload {P : Unit → CacheView M → Prop} (serves : Serves settings v)
    (served : settings.mode = .blocking → v.state.startup = .finished)
    (next : ∀ v' : CacheView M, Serves settings v' → v'.state.startup = .finished → P () v') :
    wp (modelCache settings).mayReply (Serves settings) t P (awaitModelPreload settings) v := by
  change wp _ _ t P (if preloading settings v.state then (await .modelPreloadTask).bind fun _ => .ret ()
    else .ret ()) v
  split
  · rw [wp_bind]
    exact wp_await (q := .modelPreloadTask) (fun same => by cases same) serves (g := .fresh) id id
      (fun same => by cases same) fun v' _ serves' passed => next v' serves' (passed (.inl rfl))
  · rename_i idle
    refine next v serves ?_
    simp only [preloading, Bool.and_eq_true, decide_eq_true_eq, not_and, not_not] at idle
    cases mode : settings.mode with
    | off => exact serves.flights.off mode
    | blocking => exact served mode
    | background => exact idle mode

/-- A build inside the lock: what follows it stores the model. -/
theorem wp_build {P : Option M → CacheView M → Prop} (flights : Flights settings v.state v.history v.bag)
    (held : v.held .modelLock = true) (free : ∀ e ∈ v.bag, e.ghost ≠ .building) (passed : v.state.startup = .finished)
    (lazily : t.call = .getOrBuildModel → v.state.modelCache = none)
    (next : ∀ (v' : CacheView M) (built : Option M), v'.held .modelLock = true →
      (∀ e ∈ v'.bag, e.ghost ≠ .building) → v'.state.startup = .finished →
      Flights settings { v'.state with modelCache := built.or v'.state.modelCache }
        (.replied t .build built :: v'.history) v'.bag →
      P built (v'.noting (.replied t .build built))) :
    wp (modelCache settings).mayReply (Serves settings) t P (await .build) v := by
  have idle : ∀ e ∈ v.bag, ¬ e.ghost.Builds := by
    intro e inside builds
    rcases Phase.builds_iff.mp builds with building | preloading
    · exact free e inside building
    · rw [flights.starting e inside (preloading ▸ trivial)] at passed
      cases passed
  refine ⟨.building, ⟨?_, ?_⟩, fun v' built _ parked => ?_⟩
  · rw [View.bag_park]
    refine flights.begin trivial idle (fun lazy => ?_) (fun _ => passed) (fun starts => starts.elim)
    rw [← flights.cached]
    exact lazily lazy
  · rw [View.bag_park]
    exact ⟨fun _ => ⟨_, Multiset.mem_cons_self _ _, rfl⟩, fun _ => held⟩
  · obtain ⟨flights', lock⟩ := parked
    rw [View.bag_park] at flights' lock
    have passed' : v'.state.startup = .finished := flights'.ready _ (Multiset.mem_cons_self _ _) (.inr rfl)
    refine next v' built (lock.mpr ⟨_, Multiset.mem_cons_self _ _, rfl⟩) (fun e inside building => ?_) passed'
      (flights'.finish trivial built)
    exact (flights'.alone trivial).2 e inside (Phase.builds_iff.mpr (.inl building))

theorem held_setHeld (v : CacheView M) (b : Bool) : (v.setHeld .modelLock b).held .modelLock = b := by
  change Function.update v.held .modelLock b .modelLock = b
  rw [Function.update_self]

/-- Entering the lock, after the preload. -/
theorem wp_acquire {P : Unit → CacheView M → Prop} (serves : Serves settings v) (passed : v.state.startup = .finished)
    (next : ∀ v' : CacheView M, Flights settings v'.state v'.history v'.bag → v'.held .modelLock = true →
      (∀ e ∈ v'.bag, e.ghost ≠ .building) → v'.state.startup = .finished → P () v') :
    wp (modelCache settings).mayReply (Serves settings) t P (acquire .modelLock) v := by
  refine ⟨.ready, serves.suspend id id (fun _ => passed) rfl (View.bag_enqueue v _ _), fun v' free queued => ?_⟩
  obtain ⟨serves', ready⟩ := queued.resume (v := v') id rfl (View.bag_ahead v' _ _)
  refine next _ serves'.flights (held_setHeld v' true) (fun e inside building => ?_) (ready rfl)
  rw [serves'.held.mpr ⟨e, inside, building⟩] at free
  cases free

/-- Leaving the lock with no build under way. -/
theorem Serves.release (flights : Flights settings v.state v.history v.bag)
    (free : ∀ e ∈ v.bag, e.ghost ≠ .building) : Serves settings (v.setHeld .modelLock false) := by
  refine ⟨flights, ?_⟩
  rw [held_setHeld]
  exact ⟨fun held => (nomatch held), fun ⟨e, inside, building⟩ => absurd building (free e inside)⟩

theorem wp_getOrBuildModel {P : Option M → CacheView M → Prop} (serves : Serves settings v)
    (served : settings.mode = .blocking → v.state.startup = .finished)
    (answered : ∀ (v' : CacheView M) model, Serves settings v' → lastBuilt v'.history = some model →
      P (some model) v')
    (failed : ∀ v' : CacheView M, Serves settings v' → .replied t .build none ∈ v'.history → P none v') :
    wp (modelCache settings).mayReply (Serves settings) t P (getOrBuildModel settings) v := by
  refine wp_seq (wp_awaitModelPreload serves served (P := fun _ w => Serves settings w ∧ w.state.startup = .finished)
    fun w serves passed => ⟨serves, passed⟩) ?_
  rintro - w ⟨serves, passed⟩
  refine wp_seq (M := fun cache w' => w.state.modelCache = cache ∧ w = w') ⟨rfl, rfl⟩ ?_
  rintro _ _ ⟨rfl, rfl⟩
  cases found : w.state.modelCache with
  | some model => exact answered w model serves (by rw [← serves.flights.cached, found])
  | none =>
      refine wp_seq (wp_acquire serves passed (P := fun _ w => Flights settings w.state w.history w.bag ∧
        w.held .modelLock = true ∧ (∀ e ∈ w.bag, e.ghost ≠ .building) ∧ w.state.startup = .finished)
        fun w flights held free passed => ⟨flights, held, free, passed⟩) ?_
      rintro - u ⟨flights, held, free, passed⟩
      refine wp_seq (M := fun cache u' => u.state.modelCache = cache ∧ u = u') ⟨rfl, rfl⟩ ?_
      rintro _ _ ⟨rfl, rfl⟩
      cases again : u.state.modelCache with
      | some model => exact answered _ model (.release flights free) (by rw [← again, flights.cached]; rfl)
      | none =>
          refine wp_seq (wp_build flights held free passed (fun _ => again) (P := fun built u =>
            Serves settings (({ u with state := { u.state with modelCache := built.or u.state.modelCache } } :
              CacheView M).setHeld .modelLock false) ∧ .replied t .build built ∈ u.history)
            fun u' built held free passed done => ⟨.release done free, List.mem_cons_self⟩) ?_
          rintro built u' ⟨done, mine⟩
          cases built with
          | none => exact failed _ done mine
          | some model => exact answered _ model done (show lastBuilt _ = _ from done.flights.cached.symm)

theorem wp_periodicModelRefresh {P : Unit → CacheView M → Prop} (serves : Serves settings v)
    (served : settings.mode = .blocking → v.state.startup = .finished) (other : t.call ≠ .getOrBuildModel)
    (ended : ∀ v' : CacheView M, Serves settings v' → P () v') :
    wp (modelCache settings).mayReply (Serves settings) t P (periodicModelRefresh settings) v := by
  refine wp_seq (wp_awaitModelPreload serves served (P := fun _ w => Serves settings w ∧ w.state.startup = .finished)
    fun w serves passed => ⟨serves, passed⟩) ?_
  rintro - w ⟨serves, passed⟩
  refine wp_seq (wp_acquire serves passed (P := fun _ w => Flights settings w.state w.history w.bag ∧
    w.held .modelLock = true ∧ (∀ e ∈ w.bag, e.ghost ≠ .building) ∧ w.state.startup = .finished)
    fun w flights held free passed => ⟨flights, held, free, passed⟩) ?_
  rintro - u ⟨flights, held, free, passed⟩
  refine wp_seq (wp_build flights held free passed (fun own => absurd own other) (P := fun built u =>
    Serves settings (({ u with state := { u.state with modelCache := built.or u.state.modelCache } } :
      CacheView M).setHeld .modelLock false) ∧ u.state.startup = .finished)
    fun u' built held free passed done => ⟨.release done free, passed⟩) ?_
  rintro built u' ⟨done, passed⟩
  cases built with
  | none => exact ended _ done
  | some model =>
      change wp _ _ t P ((await .warm).bind fun _ => .ret ()) (({ u' with
        state := { u'.state with modelCache := some model } } : CacheView M).setHeld .modelLock false)
      rw [wp_bind]
      exact wp_await (q := .warm) nofun done (g := .ready) id id (fun _ => passed) fun w _ serves _ => ended w serves

/-- The preload waits for something: its build, or the warming behind it. -/
theorem Serves.preload (flights : Flights settings v.state v.history (⟨t, g⟩ ::ₘ v.bag)) (starts : g.Starts)
    (held : v.held .modelLock = true ↔ ∃ e ∈ v.bag, e.ghost = .building) :
    Serves settings (v.park ⟨t, g⟩) := by
  refine ⟨by rw [View.bag_park]; exact flights, ?_⟩
  rw [View.bag_park]
  refine Iff.trans held ⟨?_, ?_⟩
  · rintro ⟨e, inside, building⟩
    exact ⟨e, Multiset.mem_cons_of_mem inside, building⟩
  · rintro ⟨e, inside, building⟩
    rcases Multiset.mem_cons.mp inside with rfl | other
    · exact absurd (show Phase.Starts .building from building ▸ starts) id
    · exact ⟨e, other, building⟩

theorem Serves.preloaded (serves : Serves settings (v.park ⟨t, g⟩)) (starts : g.Starts) :
    Flights settings v.state v.history (⟨t, g⟩ ::ₘ v.bag) ∧
      (v.held .modelLock = true ↔ ∃ e ∈ v.bag, e.ghost = .building) := by
  obtain ⟨flights, held⟩ := serves
  rw [View.bag_park] at flights held
  refine ⟨flights, Iff.trans held ⟨?_, ?_⟩⟩
  · rintro ⟨e, inside, building⟩
    rcases Multiset.mem_cons.mp inside with rfl | other
    · exact absurd (show Phase.Starts .building from building ▸ starts) id
    · exact ⟨e, other, building⟩
  · rintro ⟨e, inside, building⟩
    exact ⟨e, Multiset.mem_cons_of_mem inside, building⟩

theorem wp_runModelPreload {P : Unit → CacheView M → Prop} (serves : Serves settings v)
    (first : v.state.startup = .waiting) (other : t.call ≠ .getOrBuildModel)
    (ended : ∀ v' : CacheView M, Serves settings v' → P () v') :
    wp (modelCache settings).mayReply (Serves settings) t P (runModelPreload settings) v := by
  have free := serves.flights.unstarted first
  have started := serves.flights.report (fun e inside => (free e inside).2) (by rw [first]; nofun) .building
  refine ⟨.preloading, Serves.preload (started.begin trivial (fun e inside => (free e inside).1)
    (fun own => absurd own other) nofun fun _ => ⟨rfl, fun e inside => (free e inside).2⟩) trivial serves.held, ?_⟩
  intro v' built _ parked
  obtain ⟨flights, held⟩ := parked.preloaded trivial
  have starting : v'.state.startup = .building := flights.starting _ (Multiset.mem_cons_self _ _) trivial
  have under : v'.state.startup ≠ .finished := by
    rw [starting]
    nofun
  have only := flights.only trivial
  have done := flights.finish trivial built
  cases built with
  | none => exact ended _ ⟨done.report only under _, held⟩
  | some preload =>
      change wp _ _ t P (if settings.mode = .blocking then
          (await .warm).bind fun _ => modify fun s => { s with startup := .finished }
        else modify fun s => { s with startup := .finished })
        ((v'.noting (.replied t .build (some preload))).acting t
          (fun s => { s with modelCache := some preload }) fun _ => [])
      split
      · have warming := (done.event (e := .requested t .warm) ⟨rfl, rfl, trivial⟩).warm (t := t) only starting
        refine ⟨.warming, Serves.preload warming trivial held, fun w _ _ parked => ?_⟩
        obtain ⟨flights, held⟩ := parked.preloaded trivial
        have starting : w.state.startup = .building := flights.starting _ (Multiset.mem_cons_self _ _) trivial
        have rest := (flights.unfile id).event (e := .replied t .warm ()) ⟨rfl, rfl, trivial⟩
        exact ended _ ⟨rest.report (flights.only trivial) (by rw [starting]; nofun) _, held⟩
      · exact ended _ ⟨done.report only under _, held⟩

end

/-! ## All runs -/

theorem wp_cacheProgram {v : CacheView M} {call : CacheCall} (serves : Serves settings v)
    (may : MayCall settings v.state call) :
    wp (modelCache settings).mayReply (Serves settings) ⟨v.calls, call⟩ (Finish (Serves settings) ⟨v.calls, call⟩)
      (cacheProgram settings call) (v.issued call) := by
  have spawned : Neutral (M := M) (.spawned ⟨v.calls, call⟩) v.history := ⟨rfl, rfl, trivial⟩
  have issued : Serves settings (v.issued call) := ⟨serves.flights.event spawned, serves.held⟩
  have ends (w : CacheView M) (serves : Serves settings w) :
      Finish (Serves settings) ⟨v.calls, call⟩ (.done : CacheOutcome M) w := serves.noting ⟨rfl, rfl, trivial⟩
  cases call with
  | runModelPreload => exact wp_seq (wp_runModelPreload issued may nofun ends) fun _ _ serves => serves
  | periodicModelRefresh => exact wp_seq (wp_periodicModelRefresh issued may nofun ends) fun _ _ serves => serves
  | getOrBuildModel =>
      refine wp_seq (wp_getOrBuildModel issued may (P := fun model w =>
        Finish (Serves settings) ⟨v.calls, .getOrBuildModel⟩ (.model model) w) (fun w model serves last => ?_)
        fun w serves failed => ?_) fun _ _ serves => serves
      · exact serves.noting ⟨rfl, rfl, last⟩
      · exact serves.noting ⟨rfl, rfl, failed⟩

/-- In every run builds never overlap, a request builds only while no build has ever
succeeded, the cache holds the model of the newest build, and a request is answered
with that model, or with an error after its own build raised. -/
theorem builds_single_flight {c : CacheConfig M} (run : Reachable (modelCache settings) (.initial settings) c) :
    c.state.modelCache = lastBuilt c.history ∧ Throughout Orderly c.history := by
  have start : Serves settings (View.start (CacheState.initial settings) : CacheView M) := by
    have empty : (View.start (CacheState.initial settings) : CacheView M).bag = 0 := by
      refine Multiset.eq_zero_of_forall_notMem fun e inside => ?_
      rw [View.mem_bag] at inside
      rcases inside with ⟨l, queued⟩ | parked
      · cases queued
      · cases parked
    refine ⟨?_, ?_⟩
    · rw [empty]
      refine ⟨rfl, rfl, .nil, nofun, nofun, Nat.zero_le 1, fun off => ?_⟩
      exact if_pos off
    · rw [empty]
      exact ⟨nofun, nofun⟩
  obtain ⟨v, machine, _, holds⟩ :=
    reachable_represented (I := Serves settings) start (fun v call serves may => wp_cacheProgram serves may) run
  rw [← machine]
  exact ⟨holds.flights.cached, holds.flights.orderly⟩

/-- A server that preloads nothing. -/
def lazyServer : PreloadSettings := ⟨.off, false⟩

/-- Every build that ends makes this model. -/
def answering (model : Nat) : (q : CacheRequest) → Option (CacheReply Nat q)
  | .build => some (some model)
  | .modelPreloadTask => some ()
  | .warm => some ()

/-- Two requests that find no model: the second waits for the build of the first. -/
def twoRequests : List (Choice CacheLock CacheRequest (CacheReply Nat) CacheCall) :=
  [.spawn .getOrBuildModel, .grant .modelLock, .spawn .getOrBuildModel, .reply 0 (answering 7), .grant .modelLock]

theorem twoRequests_permitted :
    AllPermitted (modelCache lazyServer) (Config.start (.initial lazyServer)) twoRequests := by
  refine ⟨nofun, fun c done => ?_⟩
  cases done
  refine ⟨trivial, fun c done => ?_⟩
  cases done
  refine ⟨nofun, fun c done => ?_⟩
  cases done
  refine ⟨fun r _ => nofun, fun c done => ?_⟩
  cases done
  exact ⟨trivial, fun c done => trivial⟩

theorem twoRequests_built : ((execAll (modelCache lazyServer) (Config.start (.initial lazyServer)) twoRequests).any
    fun c => c.state.modelCache == some 7) = true := by decide +kernel

/-- A server that serves while it preloads. -/
def backgroundServer : PreloadSettings := ⟨.background, false⟩

/-- A request and a refresh wait for the preload. Once it is done the refresh builds
again, a second request is served during that build, and then the model is replaced. -/
def refreshedPreload : List (Choice CacheLock CacheRequest (CacheReply Nat) CacheCall) :=
  [.spawn .runModelPreload, .spawn .getOrBuildModel, .spawn .periodicModelRefresh, .reply 0 (answering 7),
    .reply 0 (answering 7), .reply 0 (answering 7), .grant .modelLock, .spawn .getOrBuildModel,
    .reply 0 (answering 8), .reply 0 (answering 8)]

theorem refreshedPreload_permitted :
    AllPermitted (modelCache backgroundServer) (Config.start (.initial backgroundServer)) refreshedPreload := by
  refine ⟨rfl, fun c done => ?_⟩
  cases done
  refine ⟨nofun, fun c done => ?_⟩
  cases done
  refine ⟨nofun, fun c done => ?_⟩
  cases done
  refine ⟨fun r _ => nofun, fun c done => ?_⟩
  cases done
  refine ⟨fun r _ _ => rfl, fun c done => ?_⟩
  cases done
  refine ⟨fun r _ _ => rfl, fun c done => ?_⟩
  cases done
  refine ⟨trivial, fun c done => ?_⟩
  cases done
  refine ⟨nofun, fun c done => ?_⟩
  cases done
  refine ⟨fun r _ => nofun, fun c done => ?_⟩
  cases done
  exact ⟨fun r _ => nofun, fun c done => trivial⟩

/-- What the requests are answered, the last one first. -/
def answers (h : CacheHistory Nat) : List (Option Nat) :=
  h.filterMap fun
    | .returned _ (.model model) => some model
    | _ => none

theorem refreshedPreload_built :
    ((execAll (modelCache backgroundServer) (Config.start (.initial backgroundServer)) refreshedPreload).any
      fun c => c.state.modelCache == some 8 && answers c.history == [some 7, some 7]) = true := by decide +kernel

theorem builds_single_flight_two :
    (∃ c : CacheConfig Nat,
      execAll (modelCache lazyServer) (Config.start (.initial lazyServer)) twoRequests = some c ∧
      c.state.modelCache = some 7 ∧ lastBuilt c.history = some 7 ∧ Throughout Orderly c.history) ∧
    ∃ c : CacheConfig Nat,
      execAll (modelCache backgroundServer) (Config.start (.initial backgroundServer)) refreshedPreload = some c ∧
      c.state.modelCache = some 8 ∧ lastBuilt c.history = some 8 ∧ answers c.history = [some 7, some 7] ∧
      Throughout Orderly c.history := by
  refine ⟨?_, ?_⟩
  · obtain ⟨c, done, cached⟩ := (Option.any_eq_true _ _).mp twoRequests_built
    have kept : c.state.modelCache = some 7 := beq_iff_eq.mp cached
    obtain ⟨newest, orderly⟩ :=
      builds_single_flight (reachable_execAll _ twoRequests .start done twoRequests_permitted)
    exact ⟨c, done, kept, newest ▸ kept, orderly⟩
  · obtain ⟨c, done, ended⟩ := (Option.any_eq_true _ _).mp refreshedPreload_built
    obtain ⟨cached, answered⟩ := Bool.and_eq_true_iff.mp ended
    have kept : c.state.modelCache = some 8 := beq_iff_eq.mp cached
    obtain ⟨newest, orderly⟩ :=
      builds_single_flight (reachable_execAll _ refreshedPreload .start done refreshedPreload_permitted)
    exact ⟨c, done, kept, newest ▸ kept, beq_iff_eq.mp answered, orderly⟩

end I3x.Serving

import I3xServer.Coroutine.Transitions
import Mathlib.Logic.Function.Basic
import Mathlib.Data.List.Nodup

/-!
# The metadata cache

The client keeps its browsed metadata under one cache entry a key. An access
serves what is there and starts at most one load in the background; a lost
connection marks the entries stale. A load that began before that still stores
its result afterwards, as if nothing had happened.
-/
namespace I3x.OpcUa

inductive MetadataKey where
  | namespaceInfos | objectTypes
  deriving DecidableEq, Repr

/-- A cache entry. No time stands for an invalidated one. The epoch tells during
which connection its load began; the code does not record it. -/
structure CacheEntry (V : Type) where
  cachedAt : Option Nat
  value : V
  epoch : Nat
  deriving DecidableEq, Repr

/-- How far a load is: created, reading from the server since some epoch, or ended
with its callback not yet run. A load that found a fresh entry never began to read. -/
inductive LoadPhase where
  | scheduled
  | reading (epoch : Nat)
  | ended (begun : Option Nat)
  deriving DecidableEq, Repr

def LoadPhase.running : LoadPhase → Bool
  | .scheduled | .reading _ => true
  | .ended _ => false

/-- The load begins, or began, after the last loss of the connection. -/
def LoadPhase.Since (epoch : Nat) : LoadPhase → Prop
  | .scheduled => True
  | .reading began => began = epoch
  | .ended begun => begun = some epoch

structure MetadataLoad where
  id : Nat
  key : MetadataKey
  phase : LoadPhase
  deriving DecidableEq, Repr

/-- The part of the client that serves metadata. `loads` holds every task whose
callback has not run, `metadataLoadTasks` the one registered for each key. -/
structure MetadataClient (V : Type) where
  clock : Nat
  ttl : Nat
  epoch : Nat
  cache : MetadataKey → Option (CacheEntry V)
  metadataLoadTasks : MetadataKey → Option Nat
  loads : List MetadataLoad
  nextId : Nat

/-- What can happen. Loads are shielded, so nothing cancels one before it begins. -/
inductive MetadataAction (V : Type) where
  | tick (duration : Nat)
  | access (key : MetadataKey)
  | begin (id : Nat)
  | complete (id : Nat) (value : V)
  | fail (id : Nat)
  | finish (id : Nat)
  | reconnected
  | disconnected

namespace MetadataClient
variable {V : Type}

def initial (ttl : Nat) : MetadataClient V where
  clock := 0
  ttl
  epoch := 0
  cache _ := none
  metadataLoadTasks _ := none
  loads := []
  nextId := 0

/-- `_is_metadata_cache_entry_fresh`. -/
def isFresh (client : MetadataClient V) (entry : CacheEntry V) : Bool :=
  match entry.cachedAt with
  | none => false
  | some cachedAt => client.ttl = 0 || client.clock - cachedAt ≤ client.ttl

def freshAt (client : MetadataClient V) (key : MetadataKey) : Bool := (client.cache key).any client.isFresh

def invalidateMetadataEntry (entry : CacheEntry V) : CacheEntry V := { entry with cachedAt := none }

/-- What `_on_asyncua_reconnected` does to the metadata. -/
def invalidated (client : MetadataClient V) : MetadataClient V :=
  { client with epoch := client.epoch + 1, cache := fun key => (client.cache key).map invalidateMetadataEntry }

/-- What `disconnect` does to the metadata. -/
def cleared (client : MetadataClient V) : MetadataClient V :=
  { client with epoch := client.epoch + 1, cache := fun _ => none }

def startMetadataLoad (client : MetadataClient V) (key : MetadataKey) : MetadataClient V :=
  match client.metadataLoadTasks key with
  | some _ => client
  | none =>
      { client with
        metadataLoadTasks := Function.update client.metadataLoadTasks key (some client.nextId)
        loads := client.loads ++ [⟨client.nextId, key, .scheduled⟩]
        nextId := client.nextId + 1 }

def getCachedMetadata (client : MetadataClient V) (key : MetadataKey) : MetadataClient V :=
  if client.freshAt key then client else client.startMetadataLoad key

def find (client : MetadataClient V) (id : Nat) : Option MetadataLoad := client.loads.find? fun load => load.id = id

def setPhase (client : MetadataClient V) (id : Nat) (phase : LoadPhase) : MetadataClient V :=
  { client with loads := client.loads.map fun load => if load.id = id then { load with phase } else load }

def store (client : MetadataClient V) (key : MetadataKey) (value : V) (epoch : Nat) : MetadataClient V :=
  { client with cache := Function.update client.cache key (some ⟨some client.clock, value, epoch⟩) }

/-- `_finish_metadata_load`. -/
def finishMetadataLoad (client : MetadataClient V) (load : MetadataLoad) : MetadataClient V :=
  { client with
    loads := client.loads.filter fun other => other.id ≠ load.id
    metadataLoadTasks :=
      if client.metadataLoadTasks load.key = some load.id then Function.update client.metadataLoadTasks load.key none
      else client.metadataLoadTasks }

def step (client : MetadataClient V) : MetadataAction V → Option (MetadataClient V)
  | .tick duration => some { client with clock := client.clock + duration }
  | .access key => some (client.getCachedMetadata key)
  | .begin id =>
      match client.find id with
      | some ⟨_, key, .scheduled⟩ =>
          some (client.setPhase id (if client.freshAt key then .ended none else .reading client.epoch))
      | _ => none
  | .complete id value =>
      match client.find id with
      | some ⟨_, key, .reading epoch⟩ => some ((client.store key value epoch).setPhase id (.ended (some epoch)))
      | _ => none
  | .fail id =>
      match client.find id with
      | some ⟨_, _, .reading epoch⟩ => some (client.setPhase id (.ended (some epoch)))
      | _ => none
  | .finish id =>
      match client.find id with
      | some load => if load.phase.running then none else some (client.finishMetadataLoad load)
      | none => none
  | .reconnected => some client.invalidated
  | .disconnected => some client.cleared

/-! ## What can be asked of the cache -/

/-- The loads of a key that have not ended. -/
def inFlight (client : MetadataClient V) (key : MetadataKey) : List MetadataLoad :=
  client.loads.filter fun load => load.key = key ∧ load.phase.running

/-- An entry that counts as fresh was loaded during the present connection. -/
def CurrentEntry (client : MetadataClient V) (key : MetadataKey) : Prop :=
  ∀ entry, client.cache key = some entry → entry.cachedAt ≠ none → entry.epoch = client.epoch

/-- The key has been loaded during the present connection, or its registered load
begins or began during it. -/
def Renewed (client : MetadataClient V) (key : MetadataKey) : Prop :=
  (∃ entry, client.cache key = some entry ∧ entry.cachedAt ≠ none ∧ entry.epoch = client.epoch) ∨
    ∃ load ∈ client.loads, load.key = key ∧ client.metadataLoadTasks key = some load.id ∧
      load.phase.Since client.epoch

/-- No connection is lost while a load of the key has begun and is not finished. -/
def Undisturbed (key : MetadataKey) (client : MetadataClient V) : MetadataAction V → Prop
  | .reconnected | .disconnected => ∀ load ∈ client.loads, load.key = key → load.phase = .scheduled
  | _ => True

/-! ## The registered loads -/

/-- Every task is the one registered for its key, and every registered one is a
task that still has to be finished. -/
structure Registered (client : MetadataClient V) : Prop where
  ids : (client.loads.map MetadataLoad.id).Nodup
  bound : ∀ load ∈ client.loads, load.id < client.nextId
  owned : ∀ load ∈ client.loads, client.metadataLoadTasks load.key = some load.id
  held : ∀ key id, client.metadataLoadTasks key = some id → ∃ load ∈ client.loads, load.id = id ∧ load.key = key

theorem mem_setPhase {client : MetadataClient V} {id : Nat} {phase : LoadPhase} {load : MetadataLoad} :
    load ∈ (client.setPhase id phase).loads ↔
      ∃ old ∈ client.loads, (if old.id = id then { old with phase } else old) = load := List.mem_map

theorem setPhase_ids (client : MetadataClient V) (id : Nat) (phase : LoadPhase) :
    (client.setPhase id phase).loads.map MetadataLoad.id = client.loads.map MetadataLoad.id := by
  rw [setPhase, List.map_map]
  refine List.map_congr_left fun load _ => ?_
  rw [Function.comp_apply]
  split <;> rfl

theorem find_eq {client : MetadataClient V} {id : Nat} {load : MetadataLoad} (found : client.find id = some load) :
    load ∈ client.loads ∧ load.id = id :=
  ⟨List.mem_of_find?_eq_some found, by simpa using List.find?_some found⟩

theorem Registered.unique {client : MetadataClient V} (registered : client.Registered) {first second : MetadataLoad}
    (m : first ∈ client.loads) (n : second ∈ client.loads) (same : first.key = second.key) : first = second := by
  have one := registered.owned first m
  rw [same, registered.owned second n, Option.some.injEq] at one
  exact List.inj_on_of_nodup_map registered.ids m n one.symm

/-- **At most one load of a key is in flight.** -/
theorem Registered.inFlight_le {client : MetadataClient V} (registered : client.Registered) (key : MetadataKey) :
    (client.inFlight key).length ≤ 1 := by
  have nodup : (client.inFlight key).Nodup := (List.Nodup.of_map _ registered.ids).filter _
  have same : ∀ first ∈ client.inFlight key, ∀ second ∈ client.inFlight key, first = second := by
    intro first m second n
    obtain ⟨here, one⟩ := List.mem_filter.mp m
    obtain ⟨there, two⟩ := List.mem_filter.mp n
    rw [decide_eq_true_eq] at one two
    exact registered.unique here there (one.1.trans two.1.symm)
  match shape : client.inFlight key with
  | [] => exact Nat.zero_le 1
  | [_] => exact Nat.le_refl 1
  | first :: second :: rest =>
      rw [shape] at nodup same
      have eq := same first List.mem_cons_self second (List.mem_cons_of_mem _ List.mem_cons_self)
      rw [eq] at nodup
      exact absurd List.mem_cons_self (List.nodup_cons.mp nodup).1

theorem Registered.setPhase {client : MetadataClient V} (registered : client.Registered) (id : Nat) (phase : LoadPhase) :
    (client.setPhase id phase).Registered where
  ids := by
    rw [setPhase_ids]
    exact registered.ids
  bound load m := by
    obtain ⟨old, inside, rfl⟩ := mem_setPhase.mp m
    have below := registered.bound old inside
    split <;> exact below
  owned load m := by
    obtain ⟨old, inside, rfl⟩ := mem_setPhase.mp m
    have own := registered.owned old inside
    split <;> exact own
  held key other found := by
    obtain ⟨load, inside, rfl, rfl⟩ := registered.held key other found
    refine ⟨_, mem_setPhase.mpr ⟨load, inside, rfl⟩, ?_, ?_⟩ <;> split <;> rfl

/-- Clock, cache and epoch play no part in the registration. -/
theorem Registered.congr {client other : MetadataClient V} (registered : client.Registered)
    (loads : other.loads = client.loads) (tasks : other.metadataLoadTasks = client.metadataLoadTasks)
    (next : other.nextId = client.nextId) : other.Registered where
  ids := loads ▸ registered.ids
  bound load m := next ▸ registered.bound load (loads ▸ m)
  owned load m := tasks ▸ registered.owned load (loads ▸ m)
  held key id found := by
    rw [tasks] at found
    rw [loads]
    exact registered.held key id found

theorem Registered.startMetadataLoad {client : MetadataClient V} (registered : client.Registered) (key : MetadataKey) :
    (client.startMetadataLoad key).Registered := by
  unfold MetadataClient.startMetadataLoad
  split
  · exact registered
  · rename_i free
    have fresh : ∀ load ∈ client.loads, load.key ≠ key := fun load m same => by
      have own := registered.owned load m
      rw [same, free] at own
      cases own
    refine ⟨?_, fun load m => ?_, fun load m => ?_, fun other id found => ?_⟩
    · rw [List.map_append, List.nodup_append']
      refine ⟨registered.ids, List.nodup_singleton _, List.disjoint_singleton.mpr fun m => ?_⟩
      obtain ⟨load, inside, same⟩ := List.mem_map.mp m
      exact absurd (registered.bound load inside) (by rw [same]; exact Nat.lt_irrefl _)
    · rcases List.mem_append.mp m with old | new
      · exact Nat.lt_succ_of_lt (registered.bound load old)
      · rw [List.mem_singleton.mp new]
        exact Nat.lt_succ_self _
    · rcases List.mem_append.mp m with old | new
      · exact (Function.update_of_ne (fresh load old) _ _).trans (registered.owned load old)
      · rw [List.mem_singleton.mp new]
        exact Function.update_self ..
    · dsimp only at found
      by_cases same : other = key
      · subst same
        rw [Function.update_self, Option.some.injEq] at found
        exact ⟨_, List.mem_append_right _ (List.mem_singleton.mpr rfl), found, rfl⟩
      · rw [Function.update_of_ne same] at found
        obtain ⟨load, inside, eq⟩ := registered.held other id found
        exact ⟨load, List.mem_append_left _ inside, eq⟩

theorem Registered.finishMetadataLoad {client : MetadataClient V} (registered : client.Registered) {load : MetadataLoad}
    (m : load ∈ client.loads) : (client.finishMetadataLoad load).Registered := by
  have own := registered.owned load m
  unfold MetadataClient.finishMetadataLoad
  rw [if_pos own]
  have others : ∀ other ∈ client.loads.filter fun other => other.id ≠ load.id,
      other ∈ client.loads ∧ other.key ≠ load.key := fun other n => by
    obtain ⟨inside, apart⟩ := List.mem_filter.mp n
    rw [decide_eq_true_eq] at apart
    exact ⟨inside, fun same => apart (congrArg MetadataLoad.id (registered.unique inside m same))⟩
  refine ⟨?_, fun other n => registered.bound other (others other n).1, fun other n => ?_, fun key id found => ?_⟩
  · exact registered.ids.sublist (List.filter_sublist.map _)
  · exact (Function.update_of_ne (others other n).2 _ _).trans (registered.owned other (others other n).1)
  · dsimp only at found
    by_cases same : key = load.key
    · rw [same, Function.update_self] at found
      cases found
    · rw [Function.update_of_ne same] at found
      obtain ⟨other, inside, id, other_key⟩ := registered.held key id found
      refine ⟨other, List.mem_filter.mpr ⟨inside, ?_⟩, id, other_key⟩
      rw [decide_eq_true_eq]
      intro eq
      exact same (other_key ▸ congrArg MetadataLoad.key (List.inj_on_of_nodup_map registered.ids inside m eq))

/-! ## Single steps -/

/-- What one action does, with what it needs of the load it is about. -/
inductive Steps (client : MetadataClient V) : MetadataAction V → MetadataClient V → Prop
  | tick (duration : Nat) : Steps client (.tick duration) { client with clock := client.clock + duration }
  | access (key : MetadataKey) : Steps client (.access key) (client.getCachedMetadata key)
  | hit {load : MetadataLoad} : load ∈ client.loads → load.phase = .scheduled → client.freshAt load.key = true →
      Steps client (.begin load.id) (client.setPhase load.id (.ended none))
  | begin {load : MetadataLoad} : load ∈ client.loads → load.phase = .scheduled → client.freshAt load.key = false →
      Steps client (.begin load.id) (client.setPhase load.id (.reading client.epoch))
  | complete {load : MetadataLoad} {epoch : Nat} (value : V) : load ∈ client.loads → load.phase = .reading epoch →
      Steps client (.complete load.id value)
        ((client.store load.key value epoch).setPhase load.id (.ended (some epoch)))
  | fail {load : MetadataLoad} {epoch : Nat} : load ∈ client.loads → load.phase = .reading epoch →
      Steps client (.fail load.id) (client.setPhase load.id (.ended (some epoch)))
  | finish {load : MetadataLoad} : load ∈ client.loads → load.phase.running = false →
      Steps client (.finish load.id) (client.finishMetadataLoad load)
  | reconnected : Steps client .reconnected client.invalidated
  | disconnected : Steps client .disconnected client.cleared

theorem steps_of_step {client next : MetadataClient V} {action : MetadataAction V}
    (h : client.step action = some next) : client.Steps action next := by
  cases action with
  | tick duration =>
      cases h
      exact .tick duration
  | access key =>
      cases h
      exact .access key
  | begin id =>
      simp only [step] at h
      split at h
      · rename_i key found
        obtain ⟨m, rfl⟩ := find_eq found
        cases h
        cases fresh : client.freshAt key with
        | true => exact .hit m rfl fresh
        | false => exact .begin m rfl fresh
      · cases h
  | complete id value =>
      simp only [step] at h
      split at h
      · rename_i found
        obtain ⟨m, rfl⟩ := find_eq found
        cases h
        exact .complete value m rfl
      · cases h
  | fail id =>
      simp only [step] at h
      split at h
      · rename_i found
        obtain ⟨m, rfl⟩ := find_eq found
        cases h
        exact .fail m rfl
      · cases h
  | finish id =>
      simp only [step] at h
      split at h
      · rename_i load found
        obtain ⟨m, rfl⟩ := find_eq found
        cases running : load.phase.running with
        | true =>
            rw [running] at h
            cases h
        | false =>
            rw [running] at h
            cases h
            exact .finish m running
      · cases h
  | reconnected =>
      cases h
      exact .reconnected
  | disconnected =>
      cases h
      exact .disconnected

theorem Registered.step {client next : MetadataClient V} {action : MetadataAction V} (registered : client.Registered)
    (h : client.Steps action next) : next.Registered := by
  cases h with
  | tick => exact registered.congr rfl rfl rfl
  | access key =>
      unfold getCachedMetadata
      split
      · exact registered
      · exact registered.startMetadataLoad key
  | hit => exact registered.setPhase _ _
  | begin => exact registered.setPhase _ _
  | @complete load epoch value =>
      have stored : (client.store load.key value epoch).Registered := registered.congr rfl rfl rfl
      exact stored.setPhase _ _
  | fail => exact registered.setPhase _ _
  | finish m => exact registered.finishMetadataLoad m
  | reconnected => exact registered.congr rfl rfl rfl
  | disconnected => exact registered.congr rfl rfl rfl

/-! ## Loads that still have to begin -/

/-- A load that has not begun finds no fresh entry, so no load ends without
having begun. -/
structure Waiting (client : MetadataClient V) : Prop extends Registered client where
  stale : ∀ load ∈ client.loads, load.phase = .scheduled → client.freshAt load.key = false
  begun : ∀ load ∈ client.loads, ∃ epoch ≤ client.epoch, load.phase.Since epoch

theorem freshAt_false {client other : MetadataClient V} {key : MetadataKey} (stale : client.freshAt key = false)
    (aged : other.freshAt key = true → client.freshAt key = true) : other.freshAt key = false := by
  cases fresh : other.freshAt key with
  | false => rfl
  | true =>
      rw [aged fresh] at stale
      cases stale

theorem freshAt_tick {client : MetadataClient V} {key : MetadataKey} {duration : Nat}
    (fresh : freshAt { client with clock := client.clock + duration } key = true) : client.freshAt key = true := by
  unfold freshAt at fresh ⊢
  cases entry : client.cache key with
  | none =>
      rw [entry] at fresh
      cases fresh
  | some entry =>
      simp only [entry, Option.any_some, isFresh] at fresh ⊢
      split at fresh
      · cases fresh
      · simp only [Bool.or_eq_true, decide_eq_true_eq] at fresh ⊢
        omega

theorem freshAt_invalidated (client : MetadataClient V) (key : MetadataKey) : client.invalidated.freshAt key = false := by
  simp only [freshAt, invalidated]
  cases client.cache key <;> rfl

theorem mem_startMetadataLoad {client : MetadataClient V} {key : MetadataKey} {load : MetadataLoad}
    (m : load ∈ (client.startMetadataLoad key).loads) :
    load ∈ client.loads ∨ load = ⟨client.nextId, key, .scheduled⟩ := by
  unfold startMetadataLoad at m
  split at m
  · exact .inl m
  · exact (List.mem_append.mp m).imp_right List.mem_singleton.mp

theorem startMetadataLoad_cache (client : MetadataClient V) (key : MetadataKey) :
    (client.startMetadataLoad key).cache = client.cache ∧ (client.startMetadataLoad key).epoch = client.epoch := by
  unfold startMetadataLoad
  split <;> exact ⟨rfl, rfl⟩

theorem freshAt_startMetadataLoad (client : MetadataClient V) (key other : MetadataKey) :
    (client.startMetadataLoad key).freshAt other = client.freshAt other := by
  unfold startMetadataLoad
  split <;> rfl

theorem freshAt_store (client : MetadataClient V) {key other : MetadataKey} (apart : other ≠ key) (value : V)
    (epoch : Nat) : (client.store key value epoch).freshAt other = client.freshAt other := by
  change (Function.update client.cache key _ other).any client.isFresh = _
  rw [Function.update_of_ne apart, freshAt]

theorem Waiting.setPhase {client : MetadataClient V} (waiting : client.Waiting) (id : Nat) {phase : LoadPhase}
    (begun : ∃ epoch ≤ client.epoch, phase.Since epoch) (started : phase ≠ .scheduled) : (client.setPhase id phase).Waiting where
  toRegistered := waiting.toRegistered.setPhase id phase
  stale load m scheduled := by
    obtain ⟨old, inside, rfl⟩ := mem_setPhase.mp m
    by_cases same : old.id = id
    · rw [if_pos same] at scheduled
      exact absurd scheduled started
    · rw [if_neg same] at scheduled ⊢
      exact waiting.stale old inside scheduled
  begun load m := by
    obtain ⟨old, inside, rfl⟩ := mem_setPhase.mp m
    split
    · exact begun
    · exact waiting.begun old inside

theorem Waiting.begun_of_reading {client : MetadataClient V} (waiting : client.Waiting) {load : MetadataLoad}
    (m : load ∈ client.loads) {epoch : Nat} (reading : load.phase = .reading epoch) :
    ∃ began ≤ client.epoch, (LoadPhase.ended (some epoch)).Since began := by
  obtain ⟨began, past, since⟩ := waiting.begun load m
  rw [reading] at since
  exact ⟨began, past, congrArg some since⟩

theorem Waiting.begun_later {client : MetadataClient V} (waiting : client.Waiting) :
    ∀ load ∈ client.loads, ∃ epoch ≤ client.epoch + 1, load.phase.Since epoch := fun load m => by
  obtain ⟨epoch, past, since⟩ := waiting.begun load m
  exact ⟨epoch, Nat.le_succ_of_le past, since⟩

theorem Waiting.step {client next : MetadataClient V} {action : MetadataAction V} (waiting : client.Waiting)
    (h : client.Steps action next) : next.Waiting := by
  have registered := waiting.toRegistered.step h
  cases h with
  | tick =>
      exact ⟨registered, fun load m scheduled => freshAt_false (waiting.stale load m scheduled) freshAt_tick,
        waiting.begun⟩
  | access key =>
      cases fresh : client.freshAt key with
      | true =>
          rw [getCachedMetadata, if_pos fresh]
          exact waiting
      | false =>
          rw [getCachedMetadata, if_neg (by rw [fresh]; exact nofun)] at registered ⊢
          have epoch := (startMetadataLoad_cache client key).2
          refine ⟨registered, fun load m scheduled => ?_, fun load m => ?_⟩
          · rw [freshAt_startMetadataLoad]
            rcases mem_startMetadataLoad m with old | rfl
            · exact waiting.stale load old scheduled
            · exact fresh
          · rw [epoch]
            rcases mem_startMetadataLoad m with old | rfl
            · exact waiting.begun load old
            · exact ⟨_, Nat.le_refl _, True.intro⟩
  | hit m scheduled fresh => exact absurd (waiting.stale _ m scheduled) (by rw [fresh]; exact nofun)
  | begin => exact waiting.setPhase _ ⟨_, Nat.le_refl _, rfl⟩ nofun
  | @complete load epoch value m reading =>
      refine ⟨registered, fun other n scheduled => ?_, fun other n => ?_⟩
      · obtain ⟨old, inside, rfl⟩ := mem_setPhase.mp n
        by_cases same : old.id = load.id
        · rw [if_pos same] at scheduled
          cases scheduled
        · rw [if_neg same] at scheduled ⊢
          have apart : old.key ≠ load.key := fun eq =>
            same (congrArg MetadataLoad.id (waiting.unique inside m eq))
          exact (freshAt_store client apart value epoch).trans (waiting.stale old inside scheduled)
      · obtain ⟨old, inside, rfl⟩ := mem_setPhase.mp n
        split
        · exact waiting.begun_of_reading m reading
        · exact waiting.begun old inside
  | fail m reading => exact waiting.setPhase _ (waiting.begun_of_reading m reading) nofun
  | finish =>
      exact ⟨registered, fun load m => waiting.stale load (List.mem_of_mem_filter m),
        fun load m => waiting.begun load (List.mem_of_mem_filter m)⟩
  | reconnected =>
      exact ⟨registered, fun load _ _ => freshAt_invalidated client load.key, waiting.begun_later⟩
  | disconnected => exact ⟨registered, fun _ _ _ => rfl, waiting.begun_later⟩

/-! ## One connection -/

/-- The entry and the loads of a key all belong to the present connection. -/
structure Current (key : MetadataKey) (client : MetadataClient V) : Prop extends Waiting client where
  entry : client.CurrentEntry key
  since : ∀ load ∈ client.loads, load.key = key → load.phase.Since client.epoch

theorem Current.setPhase {key : MetadataKey} {client : MetadataClient V} (current : client.Current key)
    {load : MetadataLoad} (m : load ∈ client.loads) {phase : LoadPhase}
    (begun : ∃ epoch ≤ client.epoch, phase.Since epoch) (started : phase ≠ .scheduled)
    (since : load.key = key → phase.Since client.epoch) :
    (client.setPhase load.id phase).Current key where
  toWaiting := current.toWaiting.setPhase load.id begun started
  entry := current.entry
  since other n own := by
    obtain ⟨old, inside, rfl⟩ := mem_setPhase.mp n
    by_cases same : old.id = load.id
    · have eq : old = load := List.inj_on_of_nodup_map current.ids inside m same
      rw [if_pos same] at own ⊢
      exact since (eq ▸ own)
    · rw [if_neg same] at own ⊢
      exact current.since old inside own

theorem Current.step {key : MetadataKey} {client next : MetadataClient V} {action : MetadataAction V}
    (current : client.Current key) (undisturbed : client.Undisturbed key action) (h : client.Steps action next) :
    next.Current key := by
  have waiting := current.toWaiting.step h
  cases h with
  | tick => exact ⟨waiting, current.entry, current.since⟩
  | access other =>
      unfold getCachedMetadata at waiting ⊢
      split at waiting <;> rename_i fresh
      · rw [if_pos fresh]
        exact current
      · rw [if_neg fresh]
        obtain ⟨cache, epoch⟩ := startMetadataLoad_cache client other
        refine ⟨waiting, fun entry found => ?_, fun load m own => ?_⟩
        · rw [epoch]
          exact current.entry entry (cache ▸ found)
        · rw [epoch]
          rcases mem_startMetadataLoad m with old | rfl
          · exact current.since load old own
          · exact True.intro
  | hit m scheduled fresh => exact absurd (current.stale _ m scheduled) (by rw [fresh]; exact nofun)
  | begin m => exact current.setPhase m ⟨_, Nat.le_refl _, rfl⟩ nofun fun _ => rfl
  | @complete load epoch value m reading =>
      have began : load.key = key → epoch = client.epoch := fun own => by
        have since := current.since load m own
        rw [reading] at since
        exact since
      refine ⟨waiting, fun entry found filled => ?_, fun other n own => ?_⟩
      · change Function.update client.cache load.key _ key = some entry at found
        by_cases own : key = load.key
        · rw [own, Function.update_self, Option.some.injEq] at found
          rw [← found]
          exact began own.symm
        · rw [Function.update_of_ne own] at found
          exact current.entry entry found filled
      · obtain ⟨old, inside, rfl⟩ := mem_setPhase.mp n
        by_cases same : old.id = load.id
        · have eq : old = load := List.inj_on_of_nodup_map current.ids inside m same
          rw [if_pos same] at own ⊢
          exact congrArg some (began (eq ▸ own))
        · rw [if_neg same] at own ⊢
          exact current.since old inside own
  | fail m reading =>
      refine current.setPhase m (current.begun_of_reading m reading) nofun fun own => ?_
      have since := current.since _ m own
      rw [reading] at since
      exact congrArg some since
  | finish => exact ⟨waiting, current.entry, fun load m => current.since load (List.mem_of_mem_filter m)⟩
  | reconnected =>
      refine ⟨waiting, fun entry found filled => ?_, fun load m own => ?_⟩
      · obtain ⟨old, -, rfl⟩ := Option.map_eq_some_iff.mp found
        exact absurd rfl filled
      · rw [undisturbed load m own]
        exact True.intro
  | disconnected =>
      refine ⟨waiting, fun entry found => ?_, fun load m own => ?_⟩
      · cases found
      · rw [undisturbed load m own]
        exact True.intro

/-- An access leads to metadata of the present connection. -/
theorem Current.renewed {key : MetadataKey} {client : MetadataClient V} (current : client.Current key) :
    (client.getCachedMetadata key).Renewed key := by
  unfold getCachedMetadata
  split
  · rename_i fresh
    left
    unfold freshAt at fresh
    cases found : client.cache key with
    | none =>
        rw [found] at fresh
        cases fresh
    | some entry =>
        rw [found, Option.any_some] at fresh
        have filled : entry.cachedAt ≠ none := fun none_at => by
          rw [isFresh, none_at] at fresh
          cases fresh
        exact ⟨entry, rfl, filled, current.entry entry found filled⟩
  · right
    unfold startMetadataLoad
    split
    · rename_i id registered
      obtain ⟨load, m, rfl, rfl⟩ := current.held key id registered
      exact ⟨load, m, rfl, registered, current.since load m rfl⟩
    · exact ⟨_, List.mem_append_right _ (List.mem_singleton.mpr rfl), rfl, Function.update_self .., True.intro⟩

theorem initial_current (key : MetadataKey) (ttl : Nat) : (initial ttl : MetadataClient V).Current key where
  ids := List.nodup_nil
  bound := nofun
  owned := nofun
  held := nofun
  stale := nofun
  begun := nofun
  entry := nofun
  since := nofun

/-! ## When metadata stays current -/

theorem Registered.find {client : MetadataClient V} (registered : client.Registered) {load : MetadataLoad}
    (m : load ∈ client.loads) : client.find load.id = some load := by
  cases found : client.find load.id with
  | none => exact absurd (List.find?_eq_none.mp found load m) (by simp)
  | some other =>
      obtain ⟨inside, same⟩ := find_eq found
      rw [List.inj_on_of_nodup_map registered.ids inside m same]

/-- A load that the loss of the connection overtook can store its result as fresh,
or it is what the next access waits for. -/
theorem Waiting.overtaken_load {client lost : MetadataClient V} (waiting : client.Waiting) (registered : lost.Registered)
    (loads : lost.loads = client.loads) (epoch : lost.epoch = client.epoch + 1) {load : MetadataLoad}
    (stale : ∀ entry, lost.cache load.key = some entry → entry.cachedAt = none) (m : load ∈ client.loads)
    (begun : load.phase ≠ .scheduled) (value : V) :
    ∃ action next, lost.step action = some next ∧
      (¬ next.CurrentEntry load.key ∨ action = .access load.key ∧ ¬ next.Renewed load.key) := by
  obtain ⟨began, past, since⟩ := waiting.begun load m
  have found := registered.find (loads ▸ m)
  have own := registered.owned load (loads ▸ m)
  obtain ⟨id, key, phase⟩ := load
  dsimp only at found own stale
  cases phase with
  | scheduled => exact absurd rfl begun
  | reading start =>
      have taken : lost.step (.complete id value) =
          some ((lost.store key value start).setPhase id (.ended (some start))) := by
        simp only [MetadataClient.step, found]
      refine ⟨_, _, taken, .inl fun current => ?_⟩
      have kept := current _ (Function.update_self ..) nofun
      have here : start = lost.epoch := kept
      have there : start = began := since
      omega
  | ended start =>
      have shut : lost.freshAt key = false := by
        unfold freshAt
        cases entry : lost.cache key with
        | none => rfl
        | some kept => rw [Option.any_some, isFresh, stale kept entry]
      have waits : lost.getCachedMetadata key = lost := by
        rw [getCachedMetadata, if_neg (by rw [shut]; exact nofun), startMetadataLoad, own]
      refine ⟨.access key, lost, congrArg some waits, .inr ⟨rfl, ?_⟩⟩
      rintro (⟨entry, cached, filled, -⟩ | ⟨other, inside, same, -, renewed⟩)
      · exact filled (stale entry cached)
      · rw [registered.unique inside (loads ▸ m) same] at renewed
        have here : start = some lost.epoch := renewed
        have there : start = some began := since
        rw [here, Option.some.injEq] at there
        omega

/-- From a state that is disturbed by the loss of the connection, one more step
suffices. -/
theorem Waiting.overtaken {client : MetadataClient V} (waiting : client.Waiting) {key : MetadataKey}
    {event : MetadataAction V} (disturbed : ¬ client.Undisturbed key event) (value : V) :
    ∃ action next, Transitions.run MetadataClient.step client [event, action] = some next ∧
      (¬ next.CurrentEntry key ∨ action = .access key ∧ ¬ next.Renewed key) := by
  have both {lost : MetadataClient V} (first : client.step event = some lost)
      (loads : lost.loads = client.loads) (epoch : lost.epoch = client.epoch + 1)
      (stale : ∀ entry, lost.cache key = some entry → entry.cachedAt = none)
      (overtaken : ¬ ∀ load ∈ client.loads, load.key = key → load.phase = .scheduled) :
      ∃ action next, Transitions.run MetadataClient.step client [event, action] = some next ∧
        (¬ next.CurrentEntry key ∨ action = .access key ∧ ¬ next.Renewed key) := by
    simp only [not_forall] at overtaken
    obtain ⟨load, m, rfl, begun⟩ := overtaken
    have registered := waiting.toRegistered.step (steps_of_step first)
    obtain ⟨action, next, second, violated⟩ :=
      waiting.overtaken_load registered loads epoch stale m begun value
    exact ⟨action, next, Transitions.run_cons.mpr ⟨_, first, Transitions.run_cons.mpr ⟨_, second, rfl⟩⟩, violated⟩
  cases event with
  | reconnected =>
      refine both rfl rfl rfl (fun entry found => ?_) disturbed
      obtain ⟨_, -, rfl⟩ := Option.map_eq_some_iff.mp found
      rfl
  | disconnected => exact both rfl rfl rfl nofun disturbed
  | _ => exact absurd True.intro disturbed

/-- **The metadata of a key stays current in every run in which no connection is
lost during a load of the key, and from every other state on it can be lost.** -/
theorem metadata_current (ttl : Nat) (key : MetadataKey) {actions : List (MetadataAction V)} {client : MetadataClient V}
    (ran : Transitions.run step (initial ttl) actions = some client) :
    (client.inFlight key).length ≤ 1 ∧
      (Transitions.Meets step (Undisturbed key) (initial ttl) actions →
        client.CurrentEntry key ∧ ∀ next, client.step (.access key) = some next → next.Renewed key) ∧
      (Nonempty V → ∀ event, ¬ client.Undisturbed key event → ∃ action next,
        Transitions.run step client [event, action] = some next ∧
          (¬ next.CurrentEntry key ∨ action = .access key ∧ ¬ next.Renewed key)) := by
  have waiting : client.Waiting := Transitions.run_invariant
    (fun _ _ _ here taken => here.step (steps_of_step taken)) (initial_current key ttl).toWaiting ran
  refine ⟨waiting.toRegistered.inFlight_le key, fun met => ?_, fun ⟨value⟩ _ disturbed => waiting.overtaken disturbed value⟩
  have current : client.Current key := Transitions.run_keeps
    (fun _ _ _ here undisturbed taken => here.step undisturbed (steps_of_step taken)) (initial_current key ttl) met ran
  refine ⟨current.entry, fun next taken => ?_⟩
  cases taken
  exact current.renewed

/-- The connection is lost and restored after a load of the namespaces has finished; the
next access loads them again. -/
def renewedRun : List (MetadataAction String) :=
  [.access .namespaceInfos, .begin 0, .complete 0 "urn:old", .finish 0, .reconnected, .access .namespaceInfos,
    .begin 1, .complete 1 "urn:new"]

theorem renewedRun_undisturbed :
    Transitions.Meets step (Undisturbed .namespaceInfos) (initial 0) renewedRun := by
  refine ⟨trivial, fun _ accessed => ?_⟩
  cases accessed
  refine ⟨trivial, fun _ begun => ?_⟩
  cases begun
  refine ⟨trivial, fun _ completed => ?_⟩
  cases completed
  refine ⟨trivial, fun _ finished => ?_⟩
  cases finished
  exact ⟨nofun, fun _ _ => ⟨trivial, fun _ _ => ⟨trivial, fun _ _ => ⟨trivial, fun _ _ => trivial⟩⟩⟩⟩

/-- The namespaces that were loaded after the reconnect are current. Another reconnect
before the callback of their load has run would leave the next access with that load. -/
theorem renewedRun_current :
    ∃ client, Transitions.run step (initial 0) renewedRun = some client ∧
      client.cache .namespaceInfos = some ⟨some 0, "urn:new", 1⟩ ∧
      (client.inFlight .namespaceInfos).length ≤ 1 ∧ client.CurrentEntry .namespaceInfos ∧
      (∀ next, client.step (.access .namespaceInfos) = some next → next.Renewed .namespaceInfos) ∧
      ∃ action next, Transitions.run step client [.reconnected, action] = some next ∧
        (¬ next.CurrentEntry .namespaceInfos ∨ action = .access .namespaceInfos ∧ ¬ next.Renewed .namespaceInfos) := by
  obtain ⟨one, current, overtaken⟩ := @metadata_current String 0 .namespaceInfos renewedRun _ rfl
  obtain ⟨entry, renewed⟩ := current renewedRun_undisturbed
  exact ⟨_, rfl, rfl, one, entry, renewed, overtaken ⟨"urn:new"⟩ .reconnected fun undisturbed =>
    absurd (undisturbed _ List.mem_cons_self rfl) nofun⟩

/-- A load of the namespaces during which the connection is lost and restored. -/
def overtakenRun : List (MetadataAction String) :=
  [.access .namespaceInfos, .begin 0, .reconnected, .complete 0 "urn:old"]

/-- **Metadata read before a reconnect is fresh after it**, and without a time to
live it stays so. -/
theorem overtakenRun_stale :
    ∃ client, Transitions.run step (initial 0) overtakenRun = some client ∧
      ¬ client.CurrentEntry .namespaceInfos ∧
        ∀ duration, client.freshAt .namespaceInfos = true ∧
          freshAt { client with clock := client.clock + duration } .namespaceInfos = true := by
  refine ⟨_, rfl, fun current => ?_, fun _ => ⟨rfl, rfl⟩⟩
  have eq := current ⟨some 0, "urn:old", 0⟩ rfl nofun
  cases eq

end MetadataClient
end I3x.OpcUa

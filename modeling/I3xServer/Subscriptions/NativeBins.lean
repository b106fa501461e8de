import I3xServer.Subscriptions.BinCustody
import I3xServer.Subscriptions.MonitorRegistry

/-!
# The bins of the native monitors

A node gets into a bin when its admission commits, and leaves it when its monitor
is stopped or a reconnect loses it. In between the admission has let go of the main
lock several times; what it knew then still holds, because only the holder of the
admission lock fills bins, and because a stopped monitor, which queues for the main
lock at once, is out of its bin before a later monitor of the node chooses one.
-/
namespace I3x.Subscriptions
open Container Coroutine
variable {V : Type}

/-- An admission of the monitor has started and has not ended. -/
def Admitting (ref : MonitorRef) : MonitorHistory V → Prop
  | [] => False
  | .noted _ (.admissionStarted other) :: h => other = ref ∨ Admitting ref h
  | .noted _ (.admissionEnded other) :: h => other ≠ ref ∧ Admitting ref h
  | _ :: h => Admitting ref h

/-- No admission of a monitor starts during another one of the same monitor. -/
def SingleAdmission : MonitorEvent V → MonitorHistory V → Prop
  | .noted _ (.admissionStarted ref), earlier => ¬ Admitting ref earlier
  | _, _ => True

/-- The count is within a limit, if there is one. -/
def Below (count : Nat) (limit : Option Nat) : Prop := ∀ n, limit = some n → count ≤ n

/-- The node is a key of the bin. -/
def InBin (s : ServiceState V) (nodeId : String) (binId : BinId) : Prop :=
  ∃ bin, s.bins.get? binId = some bin ∧ nodeId ∈ bin.nodeHandles.keys

structure BinInvariant (caps : Capabilities) (s : ServiceState V) : Prop where
  nonempty : ∀ {binId bin}, s.bins.get? binId = some bin → 0 < bin.nodeHandles.length
  capacity : ∀ {binId bin}, s.bins.get? binId = some bin → bin.nodeHandles.length ≤ bin.capacity
  items : Below (totalMonitored s) caps.maxMonitoredItems
  subscriptions : Below s.bins.length caps.maxSubscriptions
  perSession : Below s.bins.length caps.maxSubscriptionsPerSession
  apart : ∀ {nodeId binId other}, InBin s nodeId binId → InBin s nodeId other → binId = other
  native : ∀ {nodeId ref}, s.nodeMonitors.get? nodeId = some ref → ∀ binId,
    (s.monitor ref).mode = .native ∧ (s.monitor ref).binId = some binId ↔ InBin s nodeId binId

/-! ## Stages -/

/-- How far an admission has come. In all phases but `waiting` and `ending` its call
holds the admission lock. -/
inductive Phase where
  | waiting
  | choosing
  | chosen
  | allowed
  | opening (binId : BinId)
  | adding (binId : BinId)
  | failing
  | placed
  | ending
  deriving DecidableEq

/-- What a call is about to do to the bins. -/
inductive Stage where
  | free
  | leaving (nodeId : String) (binId : BinId)
  | admitting (ref : MonitorRef) (nodeId : String) (phase : Phase)

def Phase.holds : Phase → Bool
  | .waiting | .ending => false
  | _ => true

/-- The slot is chosen, and the node has still to get there. -/
def Phase.Chosen : Phase → Prop
  | .chosen | .allowed | .opening _ | .adding _ => True
  | _ => False

/-- The node may have got into a bin. -/
def Phase.Committed : Phase → Prop
  | .placed | .ending => True
  | _ => False

def Stage.ref : Stage → Option MonitorRef
  | .admitting ref _ _ => some ref
  | _ => none

def Stage.holds : Stage → Bool
  | .admitting _ _ phase => phase.holds
  | _ => false

abbrev StageEntry := Entry MonitorCall Stage

section
variable (caps : Capabilities) (s : ServiceState V)

def RoomForNode : Prop := Below (totalMonitored s + 1) caps.maxMonitoredItems

def RoomForBin : Prop :=
  Below (s.bins.length + 1) caps.maxSubscriptions ∧ Below (s.bins.length + 1) caps.maxSubscriptionsPerSession

/-- What an admission knows of the bins it has chosen from. -/
def Phase.Fits : Phase → Prop
  | .allowed => RoomForNode caps s ∧ RoomForBin caps s
  | .opening binId => RoomForNode caps s ∧ RoomForBin caps s ∧ binId < s.nextBin ∧ s.bins.get? binId = none
  | .adding binId => RoomForNode caps s ∧
      ∀ bin, s.bins.get? binId = some bin → bin.nodeHandles.length < bin.capacity
  | _ => True

/-- The registered monitor of the node, if there is one, is in no bin. -/
def Unbound (nodeId : String) : Prop :=
  ∀ ref, s.nodeMonitors.get? nodeId = some ref → (s.monitor ref).binId = none

def Bound (nodeId : String) (binId : BinId) : Prop :=
  ∃ ref, s.nodeMonitors.get? nodeId = some ref ∧ (s.monitor ref).binId = some binId

def Stage.Sound : Stage → Prop
  | .free => True
  | .leaving nodeId _ => Unbound s nodeId
  | .admitting ref nodeId phase => ref < s.nextMonitor ∧ phase.Fits caps s ∧
      (¬ phase.Committed → s.nodeMonitors.get? nodeId = some ref → (s.monitor ref).binId = none)

/-- An admission of the registered monitor has chosen its slot. -/
def Stage.HasChosen (nodeId : String) : Stage → Prop
  | .admitting ref other phase => other = nodeId ∧ phase.Chosen ∧ s.nodeMonitors.get? nodeId = some ref
  | _ => False

/-- An admission of the registered monitor is about to choose its slot. -/
def Stage.IsChoosing (nodeId : String) : Stage → Prop
  | .admitting ref other .choosing => other = nodeId ∧ s.nodeMonitors.get? nodeId = some ref
  | _ => False

/-- The bins by themselves. -/
structure BinsFit : Prop where
  keyed : ∀ {binId bin}, s.bins.get? binId = some bin → bin.binId = binId ∧ binId < s.nextBin
  filled : ∀ {binId bin}, s.bins.get? binId = some bin →
    0 < bin.nodeHandles.length ∧ bin.nodeHandles.length ≤ bin.capacity
  items : Below (totalMonitored s) caps.maxMonitoredItems
  subscriptions : Below s.bins.length caps.maxSubscriptions
  perSession : Below s.bins.length caps.maxSubscriptionsPerSession

/-- Registered monitors know the bin of their node. -/
structure Tied : Prop where
  tidy : Tidy s
  coherent : ∀ {nodeId ref}, s.nodeMonitors.get? nodeId = some ref →
    ((s.monitor ref).mode = .native ↔ (s.monitor ref).binId ≠ none)
  bound : ∀ {nodeId binId}, Bound s nodeId binId → InBin s nodeId binId

end

/-- The invariant, with the stages of the suspended calls. -/
structure BinsInv (caps : Capabilities) (s : ServiceState V) (h : MonitorHistory V) (locked : Bool)
    (B : Multiset StageEntry) : Prop where
  fit : BinsFit caps s
  tied : Tied s
  placed : ∀ {nodeId binId}, InBin s nodeId binId →
    Bound s nodeId binId ∨ ∃ e ∈ B, e.ghost = .leaving nodeId binId
  sound : ∀ e ∈ B, e.ghost.Sound caps s
  admitting : ∀ e ∈ B, ∀ ref, e.ghost.ref = some ref → Admitting ref h
  clear : ∀ e ∈ B, ∀ e' ∈ B, ∀ nodeId binId, e.ghost.HasChosen s nodeId → e'.ghost ≠ .leaving nodeId binId
  single : (B.filterMap fun e => e.ghost.ref).Nodup
  holders : B.countP (fun e => e.ghost.holds = true) ≤ locked.toNat

/-! ## Counting -/

theorem below_of_exceeds {count : Nat} {limit : Option Nat} (within : exceeds count limit = false) :
    Below count limit := by
  rintro n rfl
  exact Nat.le_of_not_lt (of_decide_eq_false within)

theorem Below.of_le {count count' : Nat} {limit : Option Nat} (below : Below count limit) (le : count' ≤ count) :
    Below count' limit := fun n same => le.trans (below n same)

section
variable {s s' : ServiceState V} {binId : BinId} {bin old : ManagedBin}

theorem totalMonitored_eq (s : ServiceState V) :
    totalMonitored s = (s.bins.entries.map fun e => e.2.nodeHandles.length).sum := by
  unfold totalMonitored Dict.values
  rw [List.map_map]
  rfl

theorem totalMonitored_set (bins : s'.bins = s.bins.set binId bin) (found : s.bins.get? binId = some old) :
    totalMonitored s' + old.nodeHandles.length = totalMonitored s + bin.nodeHandles.length := by
  have after := ((s.bins.perm_set binId bin).map fun e => e.2.nodeHandles.length).sum_eq
  have before := ((s.bins.perm_erase found).map fun e => e.2.nodeHandles.length).sum_eq
  simp only [List.map_cons, List.sum_cons] at after before
  rw [totalMonitored_eq, totalMonitored_eq, bins]
  omega

theorem totalMonitored_set_of_none (bins : s'.bins = s.bins.set binId bin) (absent : s.bins.get? binId = none) :
    totalMonitored s' = totalMonitored s + bin.nodeHandles.length := by
  have after := ((s.bins.perm_set binId bin).map fun e => e.2.nodeHandles.length).sum_eq
  rw [s.bins.erase_of_none absent, List.map_cons, List.sum_cons] at after
  rw [totalMonitored_eq, totalMonitored_eq, bins, after, Nat.add_comm]

theorem totalMonitored_erase_le (bins : s'.bins = s.bins.erase binId) (found : s.bins.get? binId = some old) :
    totalMonitored s' ≤ totalMonitored s := by
  have before := ((s.bins.perm_erase found).map fun e => e.2.nodeHandles.length).sum_eq
  rw [List.map_cons, List.sum_cons] at before
  rw [totalMonitored_eq, totalMonitored_eq, bins]
  omega

theorem length_set (d : Dict BinId ManagedBin) (found : d.get? binId = some old) :
    (d.set binId bin).length = d.length :=
  (d.perm_set binId bin).length_eq.trans (d.perm_erase found).length_eq.symm

end

/-! ## Steps that fill no bin -/

/-- Bins only lose nodes, or vanish. -/
structure Shrinks (s s' : ServiceState V) : Prop where
  nextBin : s.nextBin ≤ s'.nextBin
  bins : ∀ {binId bin'}, s'.bins.get? binId = some bin' → ∃ bin, s.bins.get? binId = some bin ∧
    bin'.binId = bin.binId ∧ bin'.capacity = bin.capacity ∧ bin'.nodeHandles.keys ⊆ bin.nodeHandles.keys ∧
    bin'.nodeHandles.length ≤ bin.nodeHandles.length ∧
    (0 < bin.nodeHandles.length → 0 < bin'.nodeHandles.length)
  total : totalMonitored s' ≤ totalMonitored s
  count : s'.bins.length ≤ s.bins.length

/-- No bin gets a node, and no registered monitor a bin. -/
structure Calm (s s' : ServiceState V) : Prop where
  shrinks : Shrinks s s'
  nextMonitor : s.nextMonitor ≤ s'.nextMonitor
  registered : ∀ {nodeId ref}, s'.nodeMonitors.get? nodeId = some ref →
    s.nodeMonitors.get? nodeId = some ref ∨ s.nextMonitor ≤ ref ∧ (s'.monitor ref).binId = none
  unbound : ∀ {ref}, ref < s.nextMonitor → (s.monitor ref).binId = none → (s'.monitor ref).binId = none

section
variable {caps : Capabilities} {s s' s'' : ServiceState V} {h h' : MonitorHistory V}
  {locked locked' : Bool} {B : Multiset StageEntry} {t : MonitorTag} {g g' : Stage}

theorem Shrinks.of_bins (bins : s'.bins = s.bins) (nextBin : s.nextBin ≤ s'.nextBin) : Shrinks s s' where
  nextBin := nextBin
  bins found := ⟨_, bins ▸ found, rfl, rfl, List.Subset.refl _, Nat.le_refl _, id⟩
  total := by unfold totalMonitored; rw [bins]
  count := by rw [bins]

theorem Shrinks.trans (first : Shrinks s s') (second : Shrinks s' s'') : Shrinks s s'' where
  nextBin := first.nextBin.trans second.nextBin
  bins found := by
    obtain ⟨bin', there, named', capacity', keys', length', filled'⟩ := second.bins found
    obtain ⟨bin, before, named, capacity, keys, length, filled⟩ := first.bins there
    exact ⟨bin, before, named'.trans named, capacity'.trans capacity, List.Subset.trans keys' keys, length'.trans length,
      fun pos => filled' (filled pos)⟩
  total := second.total.trans first.total
  count := second.count.trans first.count

theorem Shrinks.inBin (shrinks : Shrinks s s') {nodeId : String} {binId : BinId} (inside : InBin s' nodeId binId) :
    InBin s nodeId binId := by
  obtain ⟨bin', found, member⟩ := inside
  obtain ⟨bin, before, _, _, keys, _⟩ := shrinks.bins found
  exact ⟨bin, before, keys member⟩

theorem BinsFit.shrinks (fit : BinsFit caps s) (shrinks : Shrinks s s') : BinsFit caps s' where
  keyed found := by
    obtain ⟨bin, before, named, _⟩ := shrinks.bins found
    obtain ⟨own, less⟩ := fit.keyed before
    exact ⟨named.trans own, Nat.lt_of_lt_of_le less shrinks.nextBin⟩
  filled found := by
    obtain ⟨bin, before, _, capacity, _, length, filled⟩ := shrinks.bins found
    obtain ⟨pos, within⟩ := fit.filled before
    exact ⟨filled pos, capacity ▸ length.trans within⟩
  items := fit.items.of_le shrinks.total
  subscriptions := fit.subscriptions.of_le shrinks.count
  perSession := fit.perSession.of_le shrinks.count

theorem Phase.Fits.shrinks {phase : Phase} (fits : phase.Fits caps s) (shrinks : Shrinks s s') :
    phase.Fits caps s' := by
  have node (room : RoomForNode caps s) : RoomForNode caps s' := room.of_le (Nat.succ_le_succ shrinks.total)
  have bin (room : RoomForBin caps s) : RoomForBin caps s' :=
    ⟨room.1.of_le (Nat.succ_le_succ shrinks.count), room.2.of_le (Nat.succ_le_succ shrinks.count)⟩
  cases phase with
  | allowed => exact ⟨node fits.1, bin fits.2⟩
  | opening binId =>
      obtain ⟨items, bins, issued, absent⟩ := fits
      refine ⟨node items, bin bins, Nat.lt_of_lt_of_le issued shrinks.nextBin, ?_⟩
      rw [Option.eq_none_iff_forall_ne_some]
      intro bin' found
      obtain ⟨_, before, _⟩ := shrinks.bins found
      rw [absent] at before
      cases before
  | adding binId =>
      obtain ⟨items, room⟩ := fits
      refine ⟨node items, fun bin' found => ?_⟩
      obtain ⟨bin, before, _, capacity, _, length, _⟩ := shrinks.bins found
      rw [capacity]
      exact Nat.lt_of_le_of_lt length (room bin before)
  | _ => trivial

theorem Stage.Sound.calm (sound : g.Sound caps s) (tied : Tied s) (calm : Calm s s') : g.Sound caps s' := by
  have unbound {nodeId : String} {ref : MonitorRef} (there : s'.nodeMonitors.get? nodeId = some ref)
      (before : s.nodeMonitors.get? nodeId = some ref → (s.monitor ref).binId = none) :
      (s'.monitor ref).binId = none := by
    rcases calm.registered there with old | ⟨_, none_⟩
    · exact calm.unbound (tied.tidy.fresh old) (before old)
    · exact none_
  cases g with
  | free => trivial
  | leaving nodeId binId => exact fun ref there => unbound there (sound ref)
  | admitting ref nodeId phase =>
      obtain ⟨old, fits, before⟩ := sound
      exact ⟨Nat.lt_of_lt_of_le old calm.nextMonitor, fits.shrinks calm.shrinks, fun early there =>
        unbound there (before early)⟩

theorem Stage.HasChosen.calm {nodeId : String} (chosen : g.HasChosen s' nodeId) (sound : g.Sound caps s)
    (calm : Calm s s') : g.HasChosen s nodeId := by
  cases g with
  | admitting ref other phase =>
      obtain ⟨same, late, there⟩ := chosen
      rcases calm.registered there with old | ⟨fresh, _⟩
      · exact ⟨same, late, old⟩
      · exact absurd sound.1 (Nat.not_lt.mpr fresh)
  | _ => exact chosen.elim

/-- The suspended tasks stay in their stages while no bin fills. -/
theorem BinsInv.settle (old : BinsInv caps s h locked B) (calm : Calm s s') (tied : Tied s')
    (bound : ∀ {nodeId binId}, InBin s' nodeId binId → Bound s nodeId binId → Bound s' nodeId binId) :
    BinsInv caps s' h locked B where
  fit := old.fit.shrinks calm.shrinks
  tied := tied
  placed inside := (old.placed (calm.shrinks.inBin inside)).imp_left (bound inside)
  sound e there := (old.sound e there).calm old.tied calm
  admitting := old.admitting
  clear e there e' there' _ _ late leaves := old.clear e there e' there' _ _ (late.calm (old.sound e there) calm) leaves
  single := old.single
  holders := old.holders

theorem BinsInv.later (old : BinsInv caps s h locked B) (notes : ∀ ref, Admitting ref h → Admitting ref h') :
    BinsInv caps s h' locked B :=
  { old with admitting := fun e there ref same => notes ref (old.admitting e there ref same) }

/-- One call moves on to another stage of the same admission while no bin fills. -/
theorem BinsInv.turn (old : BinsInv caps s h locked (⟨t, g⟩ ::ₘ B)) (calm : Calm s s') (tied : Tied s')
    (bound : ∀ {nodeId binId}, InBin s' nodeId binId → Bound s nodeId binId →
      Bound s' nodeId binId ∨ g' = .leaving nodeId binId)
    (left : ∀ {nodeId binId}, g = .leaving nodeId binId → InBin s' nodeId binId → g' = .leaving nodeId binId)
    (own : g'.Sound caps s')
    (chosen : ∀ {nodeId}, g'.HasChosen s' nodeId → ∀ e ∈ B, ∀ binId, e.ghost ≠ .leaving nodeId binId)
    (gone : ∀ {nodeId binId}, g' = .leaving nodeId binId → s'.nodeMonitors.get? nodeId = none)
    (ref : g'.ref = g.ref) (holders : (⟨t, g'⟩ ::ₘ B).countP (fun e => e.ghost.holds = true) ≤ locked'.toNat) :
    BinsInv caps s' h locked' (⟨t, g'⟩ ::ₘ B) where
  fit := old.fit.shrinks calm.shrinks
  tied := tied
  placed inside := by
    rcases old.placed (calm.shrinks.inBin inside) with known | ⟨e, there, leaves⟩
    · exact (bound inside known).imp_right fun same => ⟨_, Multiset.mem_cons_self _ _, same⟩
    · rcases Multiset.mem_cons.mp there with rfl | other
      · exact .inr ⟨_, Multiset.mem_cons_self _ _, left leaves inside⟩
      · exact .inr ⟨e, Multiset.mem_cons_of_mem other, leaves⟩
  sound e there := by
    rcases Multiset.mem_cons.mp there with rfl | other
    · exact own
    · exact (old.sound e (Multiset.mem_cons_of_mem other)).calm old.tied calm
  admitting e there at_ same := by
    rcases Multiset.mem_cons.mp there with rfl | other
    · exact old.admitting _ (Multiset.mem_cons_self _ _) at_ (ref ▸ same)
    · exact old.admitting e (Multiset.mem_cons_of_mem other) at_ same
  clear e there e' there' nodeId binId late leaves := by
    rcases Multiset.mem_cons.mp there with rfl | other
    · rcases Multiset.mem_cons.mp there' with rfl | other'
      · rw [leaves] at late
        exact late
      · exact chosen late e' other' binId leaves
    · rcases Multiset.mem_cons.mp there' with rfl | other'
      · obtain ⟨tag, ghost⟩ := e
        cases ghost with
        | admitting at_ node phase => exact absurd ((gone leaves).symm.trans late.2.2) nofun
        | _ => exact late
      · have before := late.calm (old.sound e (Multiset.mem_cons_of_mem other)) calm
        exact old.clear e (Multiset.mem_cons_of_mem other) e' (Multiset.mem_cons_of_mem other') _ _ before leaves
  single := by
    have single := old.single
    rw [Multiset.filterMap_cons] at single ⊢
    rw [ref]
    exact single
  holders := holders

theorem BinsInv.holders_of (old : BinsInv caps s h locked (⟨t, g⟩ ::ₘ B)) (holds : g'.holds = g.holds) :
    (⟨t, g'⟩ ::ₘ B).countP (fun e => e.ghost.holds = true) ≤ locked.toNat := by
  have holders := old.holders
  rw [Multiset.countP_cons] at holders ⊢
  rw [holds]
  exact holders

theorem Calm.refl (s : ServiceState V) : Calm s s where
  shrinks := .of_bins rfl (Nat.le_refl _)
  nextMonitor := Nat.le_refl _
  registered there := .inl there
  unbound _ none_ := none_

/-- An admission goes on to a phase whose knowledge it has gained. -/
theorem BinsInv.rephase {ref : MonitorRef} {nodeId : String} {phase phase' : Phase}
    (old : BinsInv caps s h locked (⟨t, .admitting ref nodeId phase⟩ ::ₘ B)) (fits : phase'.Fits caps s)
    (early : phase.Committed → phase'.Committed)
    (chosen : phase'.Chosen → s.nodeMonitors.get? nodeId = some ref →
      phase.Chosen ∨ ∀ e ∈ B, ∀ binId, e.ghost ≠ .leaving nodeId binId)
    (holders : ((⟨t, .admitting ref nodeId phase'⟩ : StageEntry) ::ₘ B).countP (fun e => e.ghost.holds = true) ≤
      locked'.toNat) :
    BinsInv caps s h locked' (⟨t, .admitting ref nodeId phase'⟩ ::ₘ B) := by
  have own : (⟨t, .admitting ref nodeId phase⟩ : StageEntry) ∈ ⟨t, .admitting ref nodeId phase⟩ ::ₘ B :=
    Multiset.mem_cons_self _ _
  obtain ⟨issued, _, unbound⟩ := old.sound _ own
  refine old.turn (.refl s) old.tied (fun _ known => .inl known) nofun ⟨issued, fits, fun open_ => unbound (mt early open_)⟩ ?_
    nofun rfl holders
  rintro other ⟨rfl, late, there⟩ e inside binId leaves
  rcases chosen late there with before | clear
  · exact old.clear _ own e (Multiset.mem_cons_of_mem inside) _ _ ⟨rfl, before, there⟩ leaves
  · exact clear e inside binId leaves

theorem BinsInv.phase {ref : MonitorRef} {nodeId : String} {phase phase' : Phase}
    (old : BinsInv caps s h locked (⟨t, .admitting ref nodeId phase⟩ ::ₘ B)) (fits : phase'.Fits caps s)
    (early : ¬ phase.Committed)
    (chosen : phase'.Chosen → s.nodeMonitors.get? nodeId = some ref →
      phase.Chosen ∨ ∀ e ∈ B, ∀ binId, e.ghost ≠ .leaving nodeId binId)
    (holds : phase'.holds = phase.holds) :
    BinsInv caps s h locked (⟨t, .admitting ref nodeId phase'⟩ ::ₘ B) :=
  old.rephase fits (fun committed => absurd committed early) chosen (old.holders_of holds)

end

/-! ## Sections that leave the bins alone -/

/-- The bins and the monitors' places in them stay; new monitors are idle. -/
structure SamePlaces (s s' : ServiceState V) : Prop where
  bins : s'.bins = s.bins
  nextBin : s.nextBin ≤ s'.nextBin
  nextMonitor : s.nextMonitor ≤ s'.nextMonitor
  place : ∀ {ref}, ref < s.nextMonitor →
    (s'.monitor ref).mode = (s.monitor ref).mode ∧ (s'.monitor ref).binId = (s.monitor ref).binId
  registered : ∀ {nodeId ref}, s'.nodeMonitors.get? nodeId = some ref → s.nodeMonitors.get? nodeId = some ref ∨
    s.nextMonitor ≤ ref ∧ (s'.monitor ref).mode = .idle ∧ (s'.monitor ref).binId = none

section
variable {caps : Capabilities} {s s' : ServiceState V} {h : MonitorHistory V} {locked : Bool}
  {B : Multiset StageEntry} {t : MonitorTag}

theorem InBin.of_bins {nodeId : String} {binId : BinId} (inside : InBin s nodeId binId) (bins : s'.bins = s.bins) :
    InBin s' nodeId binId := by
  unfold InBin
  rw [bins]
  exact inside

theorem SamePlaces.calm (same : SamePlaces s s') : Calm s s' where
  shrinks := .of_bins same.bins same.nextBin
  nextMonitor := same.nextMonitor
  registered there := (same.registered there).imp_right fun ⟨fresh, _, none_⟩ => ⟨fresh, none_⟩
  unbound old none_ := (same.place old).2.trans none_

theorem SamePlaces.tied (same : SamePlaces s s') (tied : Tied s) (tidy : Tidy s') : Tied s' where
  tidy := tidy
  coherent there := by
    rcases same.registered there with old | ⟨_, idle, none_⟩
    · obtain ⟨mode, binId⟩ := same.place (tied.tidy.fresh old)
      rw [mode, binId]
      exact tied.coherent old
    · rw [idle, none_]
      exact iff_of_false nofun fun neq => neq rfl
  bound := by
    rintro nodeId binId ⟨ref, there, inside⟩
    rcases same.registered there with old | ⟨_, _, none_⟩
    · have before : Bound s nodeId binId := ⟨ref, old, (same.place (tied.tidy.fresh old)).2.symm.trans inside⟩
      exact (tied.bound before).of_bins same.bins
    · rw [none_] at inside
      cases inside

/-- No monitor is unregistered. -/
theorem BinsInv.same (old : BinsInv caps s h locked B) (same : SamePlaces s s') (tidy : Tidy s')
    (kept : ∀ {nodeId ref}, s.nodeMonitors.get? nodeId = some ref → s'.nodeMonitors.get? nodeId = some ref) :
    BinsInv caps s' h locked B := by
  refine old.settle same.calm (same.tied old.tied tidy) ?_
  rintro nodeId binId _ ⟨ref, there, inside⟩
  exact ⟨ref, kept there, (same.place (old.tied.tidy.fresh there)).2.trans inside⟩

theorem SamePlaces.of_setMonitor {ref : MonitorRef} {monitor : NodeMonitor} (mode : monitor.mode = (s.monitor ref).mode)
    (binId : monitor.binId = (s.monitor ref).binId) : SamePlaces s (s.setMonitor ref monitor) where
  bins := rfl
  nextBin := Nat.le_refl _
  nextMonitor := Nat.le_refl _
  place {other} _ := by
    simp only [ServiceState.setMonitor, Function.update_apply]
    split_ifs with here
    · rw [here]
      exact ⟨mode, binId⟩
    · exact ⟨rfl, rfl⟩
  registered there := .inl there

theorem acquireSection_places (nodeId : String) (id : SubscriptionId) : SamePlaces s (acquireSection nodeId id s).2.1 := by
  unfold acquireSection
  cases found : s.nodeMonitors.get? nodeId with
  | some ref => exact .of_setMonitor rfl rfl
  | none =>
      dsimp only
      refine ⟨rfl, Nat.le_refl _, Nat.le_succ _, fun {ref} old => ?_, fun {other ref} there => ?_⟩
      · simp only [ServiceState.setMonitor, Function.update_of_ne (Nat.ne_of_lt old), and_self]
      · rw [Dict.get?_set] at there
        split_ifs at there
        · cases there
          simp only [ServiceState.setMonitor, Function.update_self, Nat.le_refl, and_self, or_true]
        · exact .inl there

theorem acquireSection_kept {nodeId other : String} {id : SubscriptionId} {ref : MonitorRef}
    (there : s.nodeMonitors.get? other = some ref) :
    (acquireSection nodeId id s).2.1.nodeMonitors.get? other = some ref := by
  unfold acquireSection
  cases found : s.nodeMonitors.get? nodeId with
  | some at_ => exact there
  | none =>
      refine (Dict.get?_set_ne _ _ ?_).trans there
      rintro rfl
      rw [found] at there
      cases there

theorem BinsInv.acquire (old : BinsInv caps s h locked B) (nodeId : String) (id : SubscriptionId) :
    BinsInv caps (acquireSection nodeId id s).2.1 h locked B :=
  old.same (acquireSection_places nodeId id) (acquireSection_tidy old.tied.tidy nodeId id) acquireSection_kept

/-- A new monitor is in no bin. -/
theorem acquireSection_new {nodeId : String} {id : SubscriptionId} {ref : MonitorRef}
    (new : (acquireSection nodeId id s).1 = some ref) :
    (Stage.admitting ref nodeId .waiting).Sound caps (acquireSection nodeId id s).2.1 := by
  unfold acquireSection at new ⊢
  cases found : s.nodeMonitors.get? nodeId with
  | some at_ =>
      rw [found] at new
      cases new
  | none =>
      rw [found] at new
      cases new
      refine ⟨Nat.lt_succ_self _, trivial, fun _ _ => ?_⟩
      simp only [ServiceState.setMonitor, Function.update_self]

/-- What a call has to do after it took the last subscriber of a monitor away. -/
def Stage.stopping (s : ServiceState V) (nodeId : String) : Option MonitorRef → Stage
  | none => .free
  | some ref =>
      match (s.monitor ref).binId with
      | none => .free
      | some binId => .leaving nodeId binId

/-- The last subscriber of a monitor is gone; a call that has cleared the monitor's
place still has to take the node out of its bin. -/
theorem BinsInv.orphan (old : BinsInv caps s h locked (⟨t, .free⟩ ::ₘ B)) {nodeId : String} {ref : MonitorRef}
    (found : s.nodeMonitors.get? nodeId = some ref) (same : SamePlaces s s') (tidy : Tidy s')
    (erased : s'.nodeMonitors = s.nodeMonitors.erase nodeId) :
    BinsInv caps s' h locked (⟨t, .stopping s' nodeId (some ref)⟩ ::ₘ B) := by
  have elsewhere {other : String} {binId : BinId} (apart : other ≠ nodeId) (known : Bound s other binId) :
      Bound s' other binId := by
    obtain ⟨at_, there, inside⟩ := known
    refine ⟨at_, ?_, (same.place (old.tied.tidy.fresh there)).2.trans inside⟩
    rw [erased]
    exact (Dict.get?_erase_ne _ apart).trans there
  have here {binId : BinId} (known : Bound s nodeId binId) : (s'.monitor ref).binId = some binId := by
    obtain ⟨at_, there, inside⟩ := known
    cases found.symm.trans there
    exact (same.place (old.tied.tidy.fresh found)).2.trans inside
  have gone : s'.nodeMonitors.get? nodeId = none := by
    rw [erased]
    exact Dict.get?_erase_self _ _
  cases place : (s'.monitor ref).binId with
  | none =>
      have stage : Stage.stopping s' nodeId (some ref) = .free := by simp only [Stage.stopping, place]
      rw [stage]
      refine old.turn same.calm (same.tied old.tied tidy) ?_ nofun trivial nofun nofun rfl (old.holders_of rfl)
      intro other binId _ known
      refine .inl (elsewhere ?_ known)
      rintro rfl
      exact absurd (place.symm.trans (here known)) nofun
  | some binId =>
      have stage : Stage.stopping s' nodeId (some ref) = .leaving nodeId binId := by simp only [Stage.stopping, place]
      rw [stage]
      refine old.turn same.calm (same.tied old.tied tidy) ?_ nofun ?_ nofun ?_ rfl (old.holders_of rfl)
      · intro other number _ known
        by_cases node : other = nodeId
        · subst node
          cases place.symm.trans (here known)
          exact .inr rfl
        · exact .inl (elsewhere node known)
      · exact fun at_ there => absurd (gone.symm.trans there) nofun
      · intro other number leaves
        cases leaves
        exact gone

theorem BinsInv.release (old : BinsInv caps s h locked (⟨t, .free⟩ ::ₘ B)) (nodeId : String) (id : SubscriptionId) :
    BinsInv caps (releaseSection nodeId id s).2.1 h locked
      (⟨t, .stopping (releaseSection nodeId id s).2.1 nodeId (releaseSection nodeId id s).1⟩ ::ₘ B) := by
  have tidy := releaseSection_tidy old.tied.tidy nodeId id
  unfold releaseSection at tidy ⊢
  cases found : s.nodeMonitors.get? nodeId with
  | none => exact old
  | some ref =>
      rw [found] at tidy
      dsimp only at tidy ⊢
      have places : SamePlaces s (s.setMonitor ref { s.monitor ref with
          subscriberIds := (s.monitor ref).subscriberIds.erase id }) := .of_setMonitor rfl rfl
      split_ifs at tidy ⊢ with last
      · refine old.orphan found ⟨rfl, places.nextBin, places.nextMonitor, places.place, fun {other at_} there => .inl ?_⟩
          tidy rfl
        rw [Dict.get?_erase] at there
        split_ifs at there
        exact there
      · exact old.same places tidy fun there => there

/-- A monitor loses its place when it has none, or is registered nowhere. -/
theorem BinsInv.unbind (old : BinsInv caps s h locked B) {ref : MonitorRef} (monitor : NodeMonitor)
    (unbound : ∀ {nodeId}, s.nodeMonitors.get? nodeId = some ref → (s.monitor ref).binId = none)
    (none_ : monitor.binId = none) (mode : monitor.mode ≠ .native)
    (subscribers : monitor.subscriberIds = (s.monitor ref).subscriberIds) :
    BinsInv caps (s.setMonitor ref monitor) h locked B := by
  have at_ : (s.setMonitor ref monitor).monitor ref = monitor := Function.update_self _ _ _
  have elsewhere {other : MonitorRef} (apart : other ≠ ref) : (s.setMonitor ref monitor).monitor other = s.monitor other :=
    Function.update_of_ne apart _ _
  have tidy : Tidy (s.setMonitor ref monitor) := by
    refine old.tied.tidy.congr rfl rfl fun other => ?_
    by_cases here : other = ref
    · rw [here, at_, subscribers]
    · rw [elsewhere here]
  have bound {nodeId : String} {binId : BinId} : Bound (s.setMonitor ref monitor) nodeId binId ↔ Bound s nodeId binId := by
    refine exists_congr fun other => and_congr_right fun there => ?_
    by_cases here : other = ref
    · subst here
      rw [at_, none_, unbound there]
    · rw [elsewhere here]
  refine old.settle ⟨.of_bins rfl (Nat.le_refl _), Nat.le_refl _, .inl, fun {other} _ before => ?_⟩ ⟨tidy, ?_, ?_⟩ ?_
  · by_cases here : other = ref
    · rw [here, at_, none_]
    · rw [elsewhere here, before]
  · intro nodeId other there
    by_cases here : other = ref
    · rw [here, at_, none_]
      exact iff_of_false mode fun neq => neq rfl
    · rw [elsewhere here]
      exact old.tied.coherent there
  · exact fun known => old.tied.bound (bound.mp known)
  · exact fun _ known => bound.mpr known

theorem BinsInv.clearMonitor (old : BinsInv caps s h locked B) {ref : MonitorRef}
    (orphaned : ∀ nodeId, s.nodeMonitors.get? nodeId ≠ some ref) :
    BinsInv caps (clearMonitorSection ref s).2.1 h locked B :=
  old.unbind _ (fun there => absurd there (orphaned _)) rfl nofun rfl

/-- A node whose admission has failed is polled. -/
theorem BinsInv.startPolling {ref : MonitorRef} {nodeId : String}
    (old : BinsInv caps s h locked (⟨t, .admitting ref nodeId .waiting⟩ ::ₘ B)) :
    BinsInv caps (startPollingSection ref nodeId s).2.1 h locked (⟨t, .admitting ref nodeId .ending⟩ ::ₘ B) := by
  unfold startPollingSection
  by_cases live : isLive s nodeId ref = true
  · rw [if_pos live]
    have there : s.nodeMonitors.get? nodeId = some ref := of_decide_eq_true live
    have none_ := (old.sound _ (Multiset.mem_cons_self _ _)).2.2 nofun there
    have polled := old.unbind
      { s.monitor ref with mode := .polling, binId := none, nativeRefreshInterval := none } (fun _ => none_) rfl nofun rfl
    exact polled.phase trivial nofun nofun rfl
  · rw [if_neg live]
    exact old.phase trivial nofun nofun rfl

/-! ## Bins that lose nodes -/

theorem Shrinks.of_set {binId : BinId} {bin : ManagedBin} (bin' : ManagedBin) (found : s.bins.get? binId = some bin)
    (bins : s'.bins = s.bins.set binId bin') (nextBin : s'.nextBin = s.nextBin) (named : bin'.binId = bin.binId)
    (capacity : bin'.capacity = bin.capacity) (keys : bin'.nodeHandles.keys ⊆ bin.nodeHandles.keys)
    (length : bin'.nodeHandles.length ≤ bin.nodeHandles.length) (pos : 0 < bin'.nodeHandles.length) : Shrinks s s' where
  nextBin := nextBin.ge
  bins {other other'} there := by
    rw [bins, Dict.get?_set] at there
    split_ifs at there with here
    · cases there
      subst here
      exact ⟨bin, found, named, capacity, keys, length, fun _ => pos⟩
    · exact ⟨other', there, rfl, rfl, List.Subset.refl _, Nat.le_refl _, id⟩
  total := by
    have same := totalMonitored_set bins found
    omega
  count := by
    rw [bins, length_set _ found]

theorem Shrinks.of_erase {binId : BinId} {bin : ManagedBin} (found : s.bins.get? binId = some bin)
    (bins : s'.bins = s.bins.erase binId) (nextBin : s'.nextBin = s.nextBin) : Shrinks s s' where
  nextBin := nextBin.ge
  bins {other other'} there := by
    rw [bins, Dict.get?_erase] at there
    split_ifs at there
    exact ⟨other', there, rfl, rfl, List.Subset.refl _, Nat.le_refl _, id⟩
  total := totalMonitored_erase_le bins found
  count := by
    rw [bins]
    exact s.bins.length_erase_le binId

theorem leaveBinSection_shrinks (nodeId : String) (binId : BinId) : Shrinks s (leaveBinSection nodeId binId s).2.1 := by
  unfold leaveBinSection
  cases found : s.bins.get? binId with
  | none => exact .of_bins rfl (Nat.le_refl _)
  | some bin =>
      dsimp only
      split_ifs with empty
      · exact .of_erase found rfl rfl
      · refine .of_set { bin with nodeHandles := bin.nodeHandles.erase nodeId } found rfl rfl rfl rfl
          (fun other inside => ?_) (bin.nodeHandles.length_erase_le nodeId) (Nat.pos_of_ne_zero empty)
        exact ((Dict.keys_erase _ _ _).mp inside).2

theorem leaveBinSection_inBin {nodeId other : String} {binId number : BinId} :
    InBin (leaveBinSection nodeId binId s).2.1 other number ↔
      InBin s other number ∧ ¬ (other = nodeId ∧ number = binId) := by
  unfold leaveBinSection
  cases found : s.bins.get? binId with
  | none =>
      refine ⟨fun inside => ⟨inside, ?_⟩, fun both => both.1⟩
      rintro ⟨rfl, rfl⟩
      obtain ⟨bin, there, _⟩ := inside
      rw [found] at there
      cases there
  | some bin =>
      have erased : other ∈ (bin.nodeHandles.erase nodeId).keys ↔ other ≠ nodeId ∧ other ∈ bin.nodeHandles.keys :=
        Dict.keys_erase _ _ _
      have inside : InBin s other binId ↔ other ∈ bin.nodeHandles.keys := by
        unfold InBin
        simp only [found, Option.some.injEq, exists_eq_left']
      dsimp only
      by_cases here : number = binId
      · subst here
        rw [inside]
        split_ifs with empty
        · refine iff_of_false ?_ ?_
          · rintro ⟨bin', there, _⟩
            rw [Dict.get?_erase_self] at there
            cases there
          · rintro ⟨member, apart⟩
            have kept := erased.mpr ⟨fun same => apart ⟨same, rfl⟩, member⟩
            rw [Dict.mem_keys] at kept
            obtain ⟨handle, kept⟩ := kept
            have pos := (Dict.length_pos _).mpr ⟨other, handle, kept⟩
            omega
        · unfold InBin
          simp only [ServiceState.setBin, Dict.get?_set_self, Option.some.injEq, exists_eq_left', erased, and_true]
          exact and_comm
      · have away : ¬ (other = nodeId ∧ number = binId) := fun both => here both.2
        split_ifs with empty
        · unfold InBin
          simp only [Dict.get?_erase_ne _ here, away, not_false_eq_true, and_true]
        · unfold InBin
          simp only [ServiceState.setBin, Dict.get?_set_ne _ _ here, away, not_false_eq_true, and_true]

theorem leaveBinSection_monitors (nodeId : String) (binId : BinId) :
    (leaveBinSection nodeId binId s).2.1 = { s with bins := (leaveBinSection nodeId binId s).2.1.bins } := by
  unfold leaveBinSection
  cases s.bins.get? binId with
  | none => rfl
  | some bin =>
      dsimp only
      split_ifs
      · rfl
      · rfl

theorem BinsInv.leave {nodeId : String} {binId : BinId} (old : BinsInv caps s h locked (⟨t, .leaving nodeId binId⟩ ::ₘ B)) :
    BinsInv caps (leaveBinSection nodeId binId s).2.1 h locked (⟨t, .free⟩ ::ₘ B) := by
  have unbound : Unbound s nodeId := old.sound _ (Multiset.mem_cons_self _ _)
  have same := leaveBinSection_monitors (s := s) nodeId binId
  have monitors : (leaveBinSection nodeId binId s).2.1.nodeMonitors = s.nodeMonitors := by rw [same]
  have places : (leaveBinSection nodeId binId s).2.1.monitor = s.monitor := by rw [same]
  have next : (leaveBinSection nodeId binId s).2.1.nextMonitor = s.nextMonitor := by rw [same]
  have bound {other : String} {number : BinId} :
      Bound (leaveBinSection nodeId binId s).2.1 other number ↔ Bound s other number := by
    unfold Bound
    rw [monitors, places]
  have tied : Tied (leaveBinSection nodeId binId s).2.1 := by
    refine ⟨old.tied.tidy.congr monitors next fun _ => by rw [places], ?_, fun {other number} known => ?_⟩
    · rw [monitors, places]
      exact old.tied.coherent
    · refine leaveBinSection_inBin.mpr ⟨old.tied.bound (bound.mp known), ?_⟩
      rintro ⟨rfl, rfl⟩
      obtain ⟨ref, there, inside⟩ := bound.mp known
      exact absurd ((unbound ref there).symm.trans inside) nofun
  refine old.turn ⟨leaveBinSection_shrinks nodeId binId, next.ge, ?_, ?_⟩ tied (fun _ known => .inl (bound.mpr known))
    ?_ trivial nofun nofun rfl (old.holders_of rfl)
  · rw [monitors]
    exact .inl
  · rw [places]
    exact fun _ none_ => none_
  · intro other number leaves inside
    cases leaves
    exact absurd ⟨rfl, rfl⟩ (leaveBinSection_inBin.mp inside).2

/-! ## Bins after a reconnect -/

theorem idleLost_monitor (binId : BinId) (nodeIds : List String) (s : ServiceState V) (ref : MonitorRef) :
    (idleLost binId nodeIds s).2.monitor ref = s.monitor ref ∨
      ((idleLost binId nodeIds s).2.monitor ref).binId = none ∧
      ((idleLost binId nodeIds s).2.monitor ref).mode = .idle ∧ (s.monitor ref).binId = some binId ∧
      ∃ nodeId ∈ nodeIds, s.nodeMonitors.get? nodeId = some ref := by
  induction nodeIds generalizing s with
  | nil => exact .inl rfl
  | cons nodeId rest ih =>
      have skip : (idleLost binId rest s).2.monitor ref = s.monitor ref ∨
          ((idleLost binId rest s).2.monitor ref).binId = none ∧ ((idleLost binId rest s).2.monitor ref).mode = .idle ∧
          (s.monitor ref).binId = some binId ∧ ∃ other ∈ nodeId :: rest, s.nodeMonitors.get? other = some ref := by
        refine (ih s).imp_right fun ⟨none_, idle, before, other, inside, there⟩ => ?_
        exact ⟨none_, idle, before, other, List.mem_cons_of_mem _ inside, there⟩
      rw [idleLost]
      split
      · exact skip
      · rename_i at_ found
        split_ifs with mine
        · dsimp only
          rcases ih (s.setMonitor at_ { s.monitor at_ with binId := none, mode := .idle }) with same | ⟨none_, idle, before, _⟩
          · rw [same]
            by_cases here : ref = at_
            · subst here
              simp only [ServiceState.setMonitor, Function.update_self]
              exact .inr ⟨trivial, trivial, mine, nodeId, List.mem_cons_self, found⟩
            · exact .inl (Function.update_of_ne here _ _)
          · by_cases here : ref = at_
            · subst here
              simp only [ServiceState.setMonitor, Function.update_self] at before
              cases before
            · simp only [ServiceState.setMonitor, Function.update_of_ne here] at before
              rename_i moved
              obtain ⟨other, inside, there⟩ := moved
              exact .inr ⟨none_, idle, before, other, List.mem_cons_of_mem _ inside, there⟩
        · exact skip

/-- The registered monitors of the lost nodes leave the bin. -/
theorem idleLost_lost {binId : BinId} {nodeIds : List String} {s : ServiceState V} {nodeId : String}
    (inside : nodeId ∈ nodeIds) {ref : MonitorRef} (there : s.nodeMonitors.get? nodeId = some ref) :
    ((idleLost binId nodeIds s).2.monitor ref).binId ≠ some binId := by
  induction nodeIds generalizing s with
  | nil => cases inside
  | cons first rest ih =>
      have after {u : ServiceState V} (apart : (u.monitor ref).binId ≠ some binId) :
          ((idleLost binId rest u).2.monitor ref).binId ≠ some binId := by
        rcases idleLost_monitor binId rest u ref with same | ⟨none_, _⟩
        · rw [same]
          exact apart
        · rw [none_]
          exact nofun
      rw [idleLost]
      rcases List.mem_cons.mp inside with rfl | later
      · simp only [there]
        split_ifs with mine
        · refine after ?_
          simp only [ServiceState.setMonitor, Function.update_self]
          exact nofun
        · exact after mine
      · split
        · exact ih later there
        · split_ifs
          · exact ih later there
          · exact ih later there

/-- One bin has lost the nodes in the list, and no others. -/
theorem BinsInv.idleLost (old : BinsInv caps s h locked B) (shrinks : Shrinks s s') (rest : s' = { s with bins := s'.bins })
    {binId : BinId} {nodeIds : List String}
    (others : ∀ {nodeId other}, other ≠ binId → InBin s nodeId other → InBin s' nodeId other)
    (stays : ∀ {nodeId}, InBin s nodeId binId → nodeId ∉ nodeIds → InBin s' nodeId binId)
    (lost : ∀ {nodeId}, nodeId ∈ nodeIds → ¬ InBin s' nodeId binId) :
    BinsInv caps (Subscriptions.idleLost binId nodeIds s').2 h locked B := by
  have nodeMonitors : s'.nodeMonitors = s.nodeMonitors := by rw [rest]
  have monitor : s'.monitor = s.monitor := by rw [rest]
  have nextMonitor : s'.nextMonitor = s.nextMonitor := by rw [rest]
  have registry := idleLost_sameRegistry s' binId nodeIds
  obtain ⟨bins, nextBin⟩ := idleLost_bins binId nodeIds s'
  have registered := registry.nodeMonitors.trans nodeMonitors
  have moved (ref : MonitorRef) := idleLost_monitor binId nodeIds s' ref
  rw [monitor, nodeMonitors] at moved
  have bound {nodeId : String} {other : BinId} (known : Bound (Subscriptions.idleLost binId nodeIds s').2 nodeId other) :
      Bound s nodeId other := by
    obtain ⟨ref, there, inside⟩ := known
    rw [registered] at there
    rcases moved ref with same | ⟨none_, _⟩
    · exact ⟨ref, there, by rw [← same, inside]⟩
    · exact absurd (none_.symm.trans inside) nofun
  have tied : Tied (Subscriptions.idleLost binId nodeIds s').2 := by
    refine ⟨old.tied.tidy.congr registered (registry.nextMonitor.trans nextMonitor) fun ref => ?_, fun {nodeId ref} there => ?_,
      fun {nodeId other} known => ?_⟩
    · rw [registry.subscriberIds, monitor]
    · rw [registered] at there
      rcases moved ref with same | ⟨none_, idle, _⟩
      · rw [same]
        exact old.tied.coherent there
      · rw [none_, idle]
        exact iff_of_false nofun fun neq => neq rfl
    · refine InBin.of_bins ?_ bins
      have before := old.tied.bound (bound known)
      by_cases here : other = binId
      · subst here
        refine stays before fun gone => ?_
        obtain ⟨ref, there, inside⟩ := known
        exact idleLost_lost gone (registry.nodeMonitors ▸ there) inside
      · exact others here before
  refine old.settle ⟨shrinks.trans (.of_bins bins nextBin.ge), ?_, fun there => .inl (registered ▸ there), fun {ref} _ none_ => ?_⟩
    tied fun {nodeId other} inside known => ?_
  · rw [registry.nextMonitor, nextMonitor]
  · rcases moved ref with same | ⟨none', _⟩
    · rw [same, none_]
    · exact none'
  · obtain ⟨ref, there, place⟩ := known
    refine ⟨ref, registered ▸ there, ?_⟩
    rcases moved ref with same | ⟨_, _, before, node, gone, at_⟩
    · rw [same, place]
    · cases place.symm.trans before
      cases old.tied.tidy.single there at_
      exact absurd (inside.of_bins bins.symm) (lost gone)

theorem survivingHandles_le {survivors : Nat → Option (String → Option Int)} {bin : ManagedBin}
    {handles : Dict String Int} (survive : survivingHandles survivors bin = some handles) :
    handles.keys ⊆ bin.nodeHandles.keys ∧ handles.length ≤ bin.nodeHandles.length := by
  obtain ⟨handleOf, _, rfl⟩ := Option.map_eq_some_iff.mp survive
  constructor
  · intro nodeId inside
    rcases (Dict.keys_update _ _ _).mp inside with none_ | named
    · cases none_
    · obtain ⟨⟨_, handle⟩, listed, rfl⟩ := List.mem_map.mp named
      obtain ⟨other, member, same⟩ := List.mem_filterMap.mp listed
      obtain ⟨_, _, pair⟩ := Option.map_eq_some_iff.mp same
      cases pair
      exact member
  · refine Nat.le_trans (Dict.length_update_le _ _) ?_
    have keys : bin.nodeHandles.keys.length = bin.nodeHandles.length := List.length_map _
    rw [show (Dict.empty : Dict String Int).length = 0 from rfl, Nat.zero_add, ← keys]
    exact List.length_filterMap_le _ _

theorem mem_missingNodes {handles : Option (Dict String Int)} {bin : ManagedBin} {nodeId : String} :
    nodeId ∈ missingNodes handles bin ↔
      nodeId ∈ bin.nodeHandles.keys ∧ ∀ kept, handles = some kept → nodeId ∉ kept.keys := by
  unfold missingNodes
  rw [List.mem_filter]
  refine and_congr_right fun _ => ?_
  cases handles with
  | none => exact iff_of_true rfl fun _ => nofun
  | some kept => simp only [Option.isNone_iff_eq_none, Option.some.injEq, forall_eq', Dict.get?_eq_none]

theorem inBin_of_get? {nodeId : String} {binId : BinId} {bin : ManagedBin} (found : s.bins.get? binId = some bin) :
    InBin s nodeId binId ↔ nodeId ∈ bin.nodeHandles.keys := by
  unfold InBin
  simp only [found, Option.some.injEq, exists_eq_left']

theorem not_inBin {nodeId : String} {binId : BinId} (absent : s.bins.get? binId = none) : ¬ InBin s nodeId binId := by
  rintro ⟨bin, found, _⟩
  rw [absent] at found
  cases found

theorem BinsInv.resyncBin (old : BinsInv caps s h locked B) (survivors : Nat → Option (String → Option Int)) {binId : BinId}
    {bin : ManagedBin} (found : s.bins.get? binId = some bin) :
    BinsInv caps (Subscriptions.resyncBin survivors binId bin s).2 h locked B := by
  -- a bin without handles is dropped: all its nodes are lost
  have dropped (gone : ∀ kept, survivingHandles survivors bin = some kept → ∀ nodeId, nodeId ∉ kept.keys) :
      BinsInv caps (Subscriptions.idleLost binId (missingNodes (survivingHandles survivors bin) bin)
        { s with bins := s.bins.erase binId }).2 h locked B := by
    have shrinks : Shrinks s { s with bins := s.bins.erase binId } := .of_erase found rfl rfl
    refine old.idleLost shrinks rfl (fun {nodeId other} apart inside => ?_) (fun inside here => ?_)
      fun _ => not_inBin (Dict.get?_erase_self _ _)
    · obtain ⟨bin', there, member⟩ := inside
      exact ⟨bin', (Dict.get?_erase_ne _ apart).trans there, member⟩
    · refine absurd (mem_missingNodes.mpr ⟨(inBin_of_get? found).mp inside, fun kept some_ => gone kept some_ _⟩) here
  unfold Subscriptions.resyncBin
  dsimp only
  split
  · rename_i handles survive
    split_ifs with empty
    · refine dropped fun kept same nodeId inside => ?_
      cases survive.symm.trans same
      rw [Dict.mem_keys] at inside
      obtain ⟨handle, there⟩ := inside
      have pos := (Dict.length_pos _).mpr ⟨nodeId, handle, there⟩
      omega
    · obtain ⟨keys, length⟩ := survivingHandles_le survive
      have there : (s.setBin binId { bin with nodeHandles := handles }).bins.get? binId =
        some { bin with nodeHandles := handles } := Dict.get?_set_self _ _ _
      have shrinks : Shrinks s (s.setBin binId { bin with nodeHandles := handles }) :=
        .of_set _ found rfl rfl rfl rfl keys length (Nat.pos_of_ne_zero empty)
      refine old.idleLost shrinks rfl (fun {nodeId other} apart inside => ?_) (fun {nodeId} inside here => ?_)
        fun {nodeId} gone inside => ?_
      · obtain ⟨bin', at_, member⟩ := inside
        exact ⟨bin', (Dict.get?_set_ne _ _ apart).trans at_, member⟩
      · refine (inBin_of_get? there).mpr ?_
        by_contra absent
        refine here (mem_missingNodes.mpr ⟨(inBin_of_get? found).mp inside, fun kept same => ?_⟩)
        cases survive.symm.trans same
        exact absent
      · exact (mem_missingNodes.mp gone).2 handles survive ((inBin_of_get? there).mp inside)
  · rename_i lost
    exact dropped fun kept same => absurd (lost.symm.trans same) nofun

theorem BinsInv.resyncBins (survivors : Nat → Option (String → Option Int)) {entries : List (BinId × ManagedBin)}
    (old : BinsInv caps s h locked B) (distinct : (entries.map Prod.fst).Nodup)
    (there : ∀ e ∈ entries, s.bins.get? e.1 = some e.2) :
    BinsInv caps (Subscriptions.resyncBins survivors entries s).2 h locked B := by
  induction entries generalizing s with
  | nil => exact old
  | cons entry rest ih =>
      obtain ⟨binId, bin⟩ := entry
      rw [List.map_cons, List.nodup_cons] at distinct
      have first := old.resyncBin survivors (there _ List.mem_cons_self)
      have later (e : BinId × ManagedBin) (inside : e ∈ rest) :
          (Subscriptions.resyncBin survivors binId bin s).2.bins.get? e.1 = some e.2 := by
        have named : e.1 ∈ rest.map Prod.fst := List.mem_map_of_mem inside
        have different : e.1 ≠ binId := fun same => distinct.1 (same ▸ named)
        rw [resyncBin_others survivors binId bin s different]
        exact there e (List.mem_cons_of_mem _ inside)
      exact ih first distinct.2 later

theorem BinsInv.reconnect (old : BinsInv caps s h locked B) (survivors : Nat → Option (String → Option Int)) :
    BinsInv caps (reconnectSection survivors s).2.1 h locked B :=
  old.resyncBins survivors s.bins.nodup fun e inside => (s.bins.mem_entries e.1 e.2).mp inside

/-! ## The admission lock -/

theorem countP_waiting {ref : MonitorRef} {nodeId : String} {phase : Phase} (holds : phase.holds = false) :
    ((⟨t, .admitting ref nodeId phase⟩ : StageEntry) ::ₘ B).countP (fun e => e.ghost.holds = true) =
      B.countP fun e => e.ghost.holds = true := by
  rw [Multiset.countP_cons, if_neg, Nat.add_zero]
  exact fun same => absurd (holds.symm.trans same) nofun

theorem countP_holding {ref : MonitorRef} {nodeId : String} {phase : Phase} (holds : phase.holds = true) :
    ((⟨t, .admitting ref nodeId phase⟩ : StageEntry) ::ₘ B).countP (fun e => e.ghost.holds = true) =
      (B.countP fun e => e.ghost.holds = true) + 1 := by
  rw [Multiset.countP_cons, if_pos]
  exact holds

theorem BinsInv.take {ref : MonitorRef} {nodeId : String}
    (old : BinsInv caps s h false (⟨t, .admitting ref nodeId .waiting⟩ ::ₘ B)) :
    BinsInv caps s h true (⟨t, .admitting ref nodeId .choosing⟩ ::ₘ B) := by
  have holders := old.holders
  rw [countP_waiting rfl] at holders
  refine old.rephase trivial nofun nofun ?_
  rw [countP_holding rfl]
  exact Nat.succ_le_succ holders

/-- Where an admission stands when it has given the admission lock back. -/
def Phase.released : Phase → Phase
  | .placed => .ending
  | _ => .waiting

/-- A call that holds the admission lock is the only one. -/
theorem BinsInv.alone {ref : MonitorRef} {nodeId : String} {phase : Phase}
    (old : BinsInv caps s h locked (⟨t, .admitting ref nodeId phase⟩ ::ₘ B)) (holds : phase.holds = true) :
    ∀ e ∈ B, e.ghost.holds = false := by
  have holders := old.holders
  rw [countP_holding holds] at holders
  have none_ : (B.countP fun e => e.ghost.holds = true) = 0 := by
    have most := Bool.toNat_le locked
    omega
  intro e inside
  exact Bool.eq_false_iff.mpr (Multiset.countP_eq_zero.mp none_ e inside)

theorem BinsInv.give {ref : MonitorRef} {nodeId : String} {phase : Phase} {locked' : Bool}
    (old : BinsInv caps s h locked (⟨t, .admitting ref nodeId phase⟩ ::ₘ B)) (holds : phase.holds = true) :
    BinsInv caps s h locked' (⟨t, .admitting ref nodeId phase.released⟩ ::ₘ B) := by
  have none_ : (B.countP fun e => e.ghost.holds = true) = 0 :=
    Multiset.countP_eq_zero.mpr fun e inside => Bool.eq_false_iff.mp (old.alone holds e inside)
  have waits : phase.released.holds = false := by cases phase <;> rfl
  refine old.rephase ?_ ?_ ?_ ?_
  · cases phase <;> trivial
  · cases phase with
    | placed => exact id
    | ending => cases holds
    | _ => exact nofun
  · cases phase <;> exact nofun
  · rw [countP_waiting waits, none_]
    exact Nat.zero_le _

/-! ## Admissions -/

/-- The bin of a node that joins it: there is room, or the bin is new. -/
inductive Joinable (caps : Capabilities) (s : ServiceState V) (bin : ManagedBin) : Prop
  | there (found : s.bins.get? bin.binId = some bin) (room : bin.nodeHandles.length < bin.capacity)
  | new (absent : s.bins.get? bin.binId = none) (issued : bin.binId < s.nextBin) (room : RoomForBin caps s)
      (capacity : 0 < bin.capacity) (empty : bin.nodeHandles = .empty)

theorem Joinable.inBin {bin : ManagedBin} (joinable : Joinable caps s bin) (ref : MonitorRef) (nodeId : String)
    (handle : Int) {other : String} {binId : BinId} :
    InBin (joinBin s ref bin nodeId handle) other binId ↔ InBin s other binId ∨ other = nodeId ∧ binId = bin.binId := by
  have bins : (joinBin s ref bin nodeId handle).bins =
    s.bins.set bin.binId { bin with nodeHandles := bin.nodeHandles.set nodeId handle } := rfl
  unfold InBin
  rw [bins]
  by_cases here : binId = bin.binId
  · subst here
    simp only [Dict.get?_set_self, Option.some.injEq, exists_eq_left', Dict.keys_set, and_true]
    cases joinable with
    | there found => simp only [found, Option.some.injEq, exists_eq_left', or_comm]
    | new absent _ _ _ empty => simp only [absent, empty, reduceCtorEq, false_and, exists_false, false_or,
        show (Dict.empty : Dict String Int).keys = [] from rfl, List.not_mem_nil, or_false]
  · simp only [Dict.get?_set_ne _ _ here, here, and_false, or_false]

theorem BinsFit.join {bin : ManagedBin} (fit : BinsFit caps s) (joinable : Joinable caps s bin)
    (room : RoomForNode caps s) (ref : MonitorRef) {nodeId : String} (handle : Int)
    (outside : nodeId ∉ bin.nodeHandles.keys) : BinsFit caps (joinBin s ref bin nodeId handle) := by
  have bins : (joinBin s ref bin nodeId handle).bins =
    s.bins.set bin.binId { bin with nodeHandles := bin.nodeHandles.set nodeId handle } := rfl
  have length : (bin.nodeHandles.set nodeId handle).length = bin.nodeHandles.length + 1 :=
    Dict.length_set_of_none _ _ ((Dict.get?_eq_none _ _).mpr outside)
  have total : totalMonitored (joinBin s ref bin nodeId handle) = totalMonitored s + 1 := by
    cases joinable with
    | there found =>
        have same := totalMonitored_set bins found
        dsimp only at same
        omega
    | new absent _ _ _ empty =>
        have none_ : bin.nodeHandles.length = 0 := by rw [empty]; rfl
        have same := totalMonitored_set_of_none bins absent
        dsimp only at same
        omega
  have count : (joinBin s ref bin nodeId handle).bins.length ≤ s.bins.length ∨
      (joinBin s ref bin nodeId handle).bins.length = s.bins.length + 1 ∧ RoomForBin caps s := by
    rw [bins]
    cases joinable with
    | there found => exact .inl (length_set _ found).le
    | new absent _ fits => exact .inr ⟨Dict.length_set_of_none _ _ absent, fits⟩
  refine ⟨fun {binId bin'} found => ?_, fun {binId bin'} found => ?_, ?_, ?_, ?_⟩
  · rw [bins, Dict.get?_set] at found
    split_ifs at found with here
    · cases found
      subst here
      cases joinable with
      | there found => exact ⟨rfl, (fit.keyed found).2⟩
      | new _ issued => exact ⟨rfl, issued⟩
    · exact fit.keyed found
  · rw [bins, Dict.get?_set] at found
    split_ifs at found with here
    · cases found
      dsimp only
      rw [length]
      refine ⟨Nat.succ_pos _, ?_⟩
      cases joinable with
      | there _ fits => exact fits
      | new _ _ _ capacity empty =>
          rw [empty]
          exact capacity
    · exact fit.filled found
  · rw [total]
    exact room
  · rcases count with fewer | ⟨more, fits⟩
    · exact fit.subscriptions.of_le fewer
    · rw [more]
      exact fits.1
  · rcases count with fewer | ⟨more, fits⟩
    · exact fit.perSession.of_le fewer
    · rw [more]
      exact fits.2

theorem Phase.Chosen.holds {phase : Phase} (late : phase.Chosen) : phase.holds = true := by
  cases phase <;> first | rfl | exact late.elim

theorem refs_cons (ref : MonitorRef) (nodeId : String) (phase : Phase) :
    ((⟨t, .admitting ref nodeId phase⟩ : StageEntry) ::ₘ B).filterMap (fun e => e.ghost.ref) =
      ref ::ₘ B.filterMap fun e => e.ghost.ref :=
  Multiset.filterMap_cons_some (fun e : StageEntry => e.ghost.ref) _ _ rfl

theorem mem_refs {e : StageEntry} (inside : e ∈ B) {ref : MonitorRef} (same : e.ghost.ref = some ref) :
    ref ∈ B.filterMap fun e => e.ghost.ref :=
  (Multiset.mem_filterMap _ _).mpr ⟨e, inside, same⟩

/-- No other admission is of the same monitor. -/
theorem BinsInv.others {ref : MonitorRef} {nodeId : String} {phase : Phase}
    (old : BinsInv caps s h locked (⟨t, .admitting ref nodeId phase⟩ ::ₘ B)) :
    ∀ e ∈ B, e.ghost.ref ≠ some ref := by
  have single := old.single
  rw [refs_cons, Multiset.nodup_cons] at single
  exact fun e inside same => single.1 (mem_refs inside same)

/-- The node of an admission that has chosen its slot is in no bin. -/
theorem BinsInv.outside {ref : MonitorRef} {nodeId : String} {phase : Phase}
    (old : BinsInv caps s h locked (⟨t, .admitting ref nodeId phase⟩ ::ₘ B)) (late : phase.Chosen)
    (live : s.nodeMonitors.get? nodeId = some ref) (binId : BinId) : ¬ InBin s nodeId binId := by
  have own : (⟨t, .admitting ref nodeId phase⟩ : StageEntry) ∈ ⟨t, .admitting ref nodeId phase⟩ ::ₘ B :=
    Multiset.mem_cons_self _ _
  intro inside
  rcases old.placed inside with ⟨at_, there, place⟩ | ⟨e, there, leaves⟩
  · cases live.symm.trans there
    have uncommitted : ¬ phase.Committed := by cases phase <;> first | exact id | exact late.elim
    exact absurd (((old.sound _ own).2.2 uncommitted live).symm.trans place) nofun
  · exact old.clear _ own e there nodeId binId ⟨rfl, late, live⟩ leaves

/-- What a call without a stage does not matter for. -/
theorem mem_of_ne_free {e : StageEntry} (inside : e ∈ (⟨t, .free⟩ : StageEntry) ::ₘ B) (busy : e.ghost ≠ .free) : e ∈ B := by
  rcases Multiset.mem_cons.mp inside with rfl | other
  · exact absurd rfl busy
  · exact other

theorem BinsInv.start {ref : MonitorRef} {nodeId : String} (old : BinsInv caps s h locked (⟨t, .free⟩ ::ₘ B))
    (sound : (Stage.admitting ref nodeId .waiting).Sound caps s) (single : ¬ Admitting ref h) :
    BinsInv caps s (.noted t (.admissionStarted ref) :: h) locked (⟨t, .admitting ref nodeId .waiting⟩ ::ₘ B) where
  fit := old.fit
  tied := old.tied
  placed inside := by
    refine (old.placed inside).imp_right fun ⟨e, there, leaves⟩ => ⟨e, Multiset.mem_cons_of_mem ?_, leaves⟩
    exact mem_of_ne_free there (by rw [leaves]; exact nofun)
  sound e there := by
    rcases Multiset.mem_cons.mp there with rfl | other
    · exact sound
    · exact old.sound e (Multiset.mem_cons_of_mem other)
  admitting e there at_ same := by
    rcases Multiset.mem_cons.mp there with rfl | other
    · exact .inl (Option.some.inj same)
    · exact .inr (old.admitting e (Multiset.mem_cons_of_mem other) at_ same)
  clear e there e' there' other binId late leaves := by
    rcases Multiset.mem_cons.mp there with rfl | before
    · exact late.2.1
    · rcases Multiset.mem_cons.mp there' with rfl | before'
      · cases leaves
      · exact old.clear e (Multiset.mem_cons_of_mem before) e' (Multiset.mem_cons_of_mem before') _ _ late leaves
  single := by
    have others := old.single
    rw [Multiset.filterMap_cons_none _ _ rfl] at others
    rw [refs_cons, Multiset.nodup_cons]
    refine ⟨fun again => ?_, others⟩
    obtain ⟨e, inside, same⟩ := (Multiset.mem_filterMap _ _).mp again
    exact single (old.admitting e (Multiset.mem_cons_of_mem inside) ref same)
  holders := old.holders_of rfl

theorem BinsInv.finish {ref : MonitorRef} {nodeId : String}
    (old : BinsInv caps s h locked (⟨t, .admitting ref nodeId .ending⟩ ::ₘ B)) :
    BinsInv caps s (.noted t (.admissionEnded ref) :: h) locked (⟨t, .free⟩ ::ₘ B) where
  fit := old.fit
  tied := old.tied
  placed inside := by
    refine (old.placed inside).imp_right fun ⟨e, there, leaves⟩ => ⟨e, ?_, leaves⟩
    rcases Multiset.mem_cons.mp there with rfl | other
    · cases leaves
    · exact Multiset.mem_cons_of_mem other
  sound e there := by
    rcases Multiset.mem_cons.mp there with rfl | other
    · trivial
    · exact old.sound e (Multiset.mem_cons_of_mem other)
  admitting e there at_ same := by
    rcases Multiset.mem_cons.mp there with rfl | other
    · cases same
    · refine ⟨?_, old.admitting e (Multiset.mem_cons_of_mem other) at_ same⟩
      rintro rfl
      exact old.others e other same
  clear e there e' there' other binId late leaves := by
    rcases Multiset.mem_cons.mp there with rfl | before
    · exact late
    · rcases Multiset.mem_cons.mp there' with rfl | before'
      · cases leaves
      · exact old.clear e (Multiset.mem_cons_of_mem before) e' (Multiset.mem_cons_of_mem before') _ _ late leaves
  single := by
    have single := old.single
    rw [refs_cons, Multiset.nodup_cons] at single
    rw [Multiset.filterMap_cons_none _ _ rfl]
    exact single.2
  holders := old.holders_of rfl

theorem BinsInv.enter (old : BinsInv caps s h locked B) (t : MonitorTag) : BinsInv caps s h locked (⟨t, .free⟩ ::ₘ B) where
  fit := old.fit
  tied := old.tied
  placed inside := (old.placed inside).imp_right fun ⟨e, there, leaves⟩ => ⟨e, Multiset.mem_cons_of_mem there, leaves⟩
  sound e there := by
    rcases Multiset.mem_cons.mp there with rfl | other
    · trivial
    · exact old.sound e other
  admitting e there ref same := by
    rcases Multiset.mem_cons.mp there with rfl | other
    · cases same
    · exact old.admitting e other ref same
  clear e there e' there' nodeId binId late leaves := by
    rcases Multiset.mem_cons.mp there with rfl | other
    · exact late
    · rcases Multiset.mem_cons.mp there' with rfl | other'
      · cases leaves
      · exact old.clear e other e' other' nodeId binId late leaves
  single := by
    rw [Multiset.filterMap_cons_none _ _ rfl]
    exact old.single
  holders := by
    rw [Multiset.countP_cons, if_neg (fun same => absurd same nofun), Nat.add_zero]
    exact old.holders

theorem BinsInv.exit (old : BinsInv caps s h locked (⟨t, .free⟩ ::ₘ B)) : BinsInv caps s h locked B where
  fit := old.fit
  tied := old.tied
  placed inside := by
    refine (old.placed inside).imp_right fun ⟨e, there, leaves⟩ => ⟨e, ?_, leaves⟩
    exact mem_of_ne_free there (by rw [leaves]; exact nofun)
  sound e there := old.sound e (Multiset.mem_cons_of_mem there)
  admitting e there := old.admitting e (Multiset.mem_cons_of_mem there)
  clear e there e' there' := old.clear e (Multiset.mem_cons_of_mem there) e' (Multiset.mem_cons_of_mem there')
  single := by
    have single := old.single
    rw [Multiset.filterMap_cons_none _ _ rfl] at single
    exact single
  holders := (Multiset.countP_le_of_le _ (Multiset.le_cons_self _ _)).trans old.holders

/-- The node gets into the bin. -/
theorem BinsInv.join {ref : MonitorRef} {nodeId : String} {phase : Phase} {bin : ManagedBin}
    (old : BinsInv caps s h locked (⟨t, .admitting ref nodeId phase⟩ ::ₘ B)) (late : phase.Chosen)
    (live : s.nodeMonitors.get? nodeId = some ref) (room : RoomForNode caps s) (joinable : Joinable caps s bin)
    (handle : Int) :
    BinsInv caps (joinBin s ref bin nodeId handle) h locked (⟨t, .admitting ref nodeId .placed⟩ ::ₘ B) := by
  have own : (⟨t, .admitting ref nodeId phase⟩ : StageEntry) ∈ ⟨t, .admitting ref nodeId phase⟩ ::ₘ B :=
    Multiset.mem_cons_self _ _
  have inBin {other : String} {binId : BinId} : InBin (joinBin s ref bin nodeId handle) other binId ↔
      InBin s other binId ∨ other = nodeId ∧ binId = bin.binId := joinable.inBin ref nodeId handle
  have outside := old.outside late live
  have absent : nodeId ∉ bin.nodeHandles.keys := by
    cases joinable with
    | there found => exact fun inside => outside _ ((inBin_of_get? found).mpr inside)
    | new _ _ _ _ empty =>
        rw [empty]
        exact List.not_mem_nil
  have at_ : ((joinBin s ref bin nodeId handle).monitor ref).binId = some bin.binId ∧
      ((joinBin s ref bin nodeId handle).monitor ref).mode = .native := by
    simp only [joinBin, ServiceState.setMonitor, Function.update_self, and_self]
  have elsewhere {other : MonitorRef} (apart : other ≠ ref) :
      (joinBin s ref bin nodeId handle).monitor other = s.monitor other := Function.update_of_ne apart _ _
  have registry := joinBin_sameRegistry (s := s) ref bin nodeId handle
  have node {other : String} (there : s.nodeMonitors.get? other = some ref) : other = nodeId :=
    old.tied.tidy.single there live
  have tied : Tied (joinBin s ref bin nodeId handle) := by
    refine ⟨old.tied.tidy.congr rfl rfl registry.subscriberIds, fun {other at'} there => ?_, ?_⟩
    · by_cases here : at' = ref
      · rw [here, at_.1, at_.2]
        exact iff_of_true rfl (Option.some_ne_none _)
      · rw [elsewhere here]
        exact old.tied.coherent there
    · rintro other binId ⟨at', there, place⟩
      rw [inBin]
      by_cases here : at' = ref
      · subst here
        exact .inr ⟨node there, Option.some.inj (place.symm.trans at_.1)⟩
      · rw [elsewhere here] at place
        exact .inl (old.tied.bound ⟨at', there, place⟩)
  refine ⟨old.fit.join joinable room ref handle absent, tied, ?_, ?_, ?_, ?_, ?_, ?_⟩
  · intro other binId inside
    rcases inBin.mp inside with before | ⟨rfl, rfl⟩
    · rcases old.placed before with ⟨at', there, place⟩ | ⟨e, there, leaves⟩
      · have apart : at' ≠ ref := by
          rintro rfl
          exact outside binId (node there ▸ before)
        exact .inl ⟨at', there, (congrArg _ (elsewhere apart)).trans place⟩
      · rcases Multiset.mem_cons.mp there with rfl | later
        · cases leaves
        · exact .inr ⟨e, Multiset.mem_cons_of_mem later, leaves⟩
    · exact .inl ⟨ref, live, at_.1⟩
  · intro e there
    rcases Multiset.mem_cons.mp there with rfl | later
    · exact ⟨(old.sound _ own).1, trivial, fun open_ => absurd trivial open_⟩
    · have sound := old.sound e (Multiset.mem_cons_of_mem later)
      have idle := old.alone late.holds e later
      have apart := old.others e later
      have clear := old.clear _ own e (Multiset.mem_cons_of_mem later)
      obtain ⟨tag, ghost⟩ := e
      cases ghost with
      | free => trivial
      | leaving other binId =>
          intro at' registered
          have away : at' ≠ ref := by
            rintro rfl
            exact clear nodeId binId ⟨rfl, late, live⟩ (node registered ▸ rfl)
          rw [elsewhere away]
          exact sound at' registered
      | admitting at' other phase' =>
          have away : at' ≠ ref := fun same => apart (congrArg some same)
          refine ⟨sound.1, ?_, fun open_ registered => ?_⟩
          · cases phase' with
            | waiting | ending => trivial
            | _ => cases idle
          · rw [elsewhere away]
            exact sound.2.2 open_ registered
  · intro e there at' same
    rcases Multiset.mem_cons.mp there with rfl | later
    · exact old.admitting _ own at' same
    · exact old.admitting e (Multiset.mem_cons_of_mem later) at' same
  · intro e there e' there' other binId chosen leaves
    rcases Multiset.mem_cons.mp there with rfl | later
    · exact chosen.2.1
    · have idle := old.alone late.holds e later
      obtain ⟨tag, ghost⟩ := e
      cases ghost with
      | admitting at' other' phase' =>
          obtain ⟨_, chosen, _⟩ := chosen
          exact absurd (idle.symm.trans chosen.holds) Bool.false_ne_true
      | _ => exact chosen
  · have single := old.single
    rw [refs_cons] at single ⊢
    exact single
  · exact old.holders_of late.holds.symm

/-! ## Choosing a slot -/

/-- What is known of a slot that the section has chosen. -/
def SlotChoice.phase : SlotChoice → Phase
  | .full => .failing
  | .into bin => .adding bin.binId
  | .open => .chosen

/-- The call is the next to run, and nobody has still to leave a bin for its node. -/
def Cleared (g : Stage) (s : ServiceState V) (B : Multiset StageEntry) : Prop :=
  ∀ nodeId, g.IsChoosing s nodeId → ∀ e ∈ B, ∀ binId, e.ghost ≠ .leaving nodeId binId

theorem BinsInv.slot {ref : MonitorRef} {nodeId : String}
    (old : BinsInv caps s h locked (⟨t, .admitting ref nodeId .choosing⟩ ::ₘ B))
    (cleared : Cleared (.admitting ref nodeId .choosing) s B) :
    BinsInv caps s h locked (⟨t, .admitting ref nodeId (slotSection caps s).1.phase⟩ ::ₘ B) := by
  have clear (live : s.nodeMonitors.get? nodeId = some ref) := cleared nodeId ⟨rfl, live⟩
  unfold slotSection
  by_cases full : exceeds (totalMonitored s + 1) caps.maxMonitoredItems = true
  · rw [if_pos full]
    exact old.phase trivial nofun nofun rfl
  · rw [if_neg full]
    have room : RoomForNode caps s := below_of_exceeds (Bool.eq_false_iff.mpr full)
    split
    · rename_i bin found
      have inside := List.mem_of_find?_eq_some found
      have fits := List.find?_some found
      have less := of_decide_eq_true fits
      rw [Dict.mem_values] at inside
      obtain ⟨binId, there⟩ := inside
      have named := (old.fit.keyed there).1
      refine old.phase ⟨room, fun other same => ?_⟩ nofun (fun _ live => .inr (clear live)) rfl
      rw [named, there] at same
      cases same
      exact less
    · exact old.phase trivial nofun (fun _ live => .inr (clear live)) rfl

theorem BinsInv.canOpen {ref : MonitorRef} {nodeId : String}
    (old : BinsInv caps s h locked (⟨t, .admitting ref nodeId .chosen⟩ ::ₘ B)) :
    BinsInv caps s h locked
      (⟨t, .admitting ref nodeId (if (canOpenNewBinSection caps s).1 then .allowed else .failing)⟩ ::ₘ B) := by
  by_cases can : (canOpenNewBinSection caps s).1 = true
  · rw [if_pos can]
    simp only [canOpenNewBinSection, Bool.and_eq_true, Bool.not_eq_true'] at can
    obtain ⟨⟨subscriptions, perSession⟩, items⟩ := can
    exact old.phase ⟨below_of_exceeds items, below_of_exceeds subscriptions, below_of_exceeds perSession⟩ nofun
      (fun _ _ => .inl trivial) rfl
  · rw [if_neg can]
    exact old.phase trivial nofun nofun rfl

theorem BinsInv.freshBin {ref : MonitorRef} {nodeId : String}
    (old : BinsInv caps s h locked (⟨t, .admitting ref nodeId .allowed⟩ ::ₘ B)) :
    BinsInv caps (freshBinSection s).2.1 h locked (⟨t, .admitting ref nodeId (.opening (freshBinSection s).1)⟩ ::ₘ B) := by
  have places : SamePlaces s (freshBinSection s).2.1 :=
    ⟨rfl, Nat.le_succ _, Nat.le_refl _, fun _ => ⟨rfl, rfl⟩, .inl⟩
  have next := old.same places (old.tied.tidy.congr rfl rfl fun _ => rfl) id
  obtain ⟨_, ⟨room, bins⟩, _⟩ := next.sound _ (Multiset.mem_cons_self _ _)
  have absent : s.bins.get? s.nextBin = none := by
    rw [Option.eq_none_iff_forall_ne_some]
    exact fun bin found => Nat.lt_irrefl _ (old.fit.keyed found).2
  exact next.phase ⟨room, bins, Nat.lt_succ_self _, absent⟩ nofun (fun _ _ => .inl trivial) rfl

/-- The stage of an admission by the answer of a slot method. -/
def Phase.answered : Option Bool → Phase
  | some true => .placed
  | _ => .failing

theorem BinsInv.fail {ref : MonitorRef} {nodeId : String} {phase : Phase}
    (old : BinsInv caps s h locked (⟨t, .admitting ref nodeId phase⟩ ::ₘ B)) (late : phase.Chosen) :
    BinsInv caps s h locked (⟨t, .admitting ref nodeId .failing⟩ ::ₘ B) :=
  old.phase trivial (by cases phase <;> first | exact id | exact late.elim) nofun late.holds.symm

theorem BinsInv.commitNewBin {ref : MonitorRef} {nodeId : String} {binId : BinId}
    (old : BinsInv caps s h locked (⟨t, .admitting ref nodeId (.opening binId)⟩ ::ₘ B)) (ua : UaSubscription)
    {capacity : Nat} (pos : 0 < capacity) (handle : Int) :
    BinsInv caps (commitNewBinSection ref nodeId binId ua capacity handle s).2.1 h locked
      (⟨t, .admitting ref nodeId (.answered (some (commitNewBinSection ref nodeId binId ua capacity handle s).1))⟩ ::ₘ
        B) := by
  obtain ⟨_, ⟨room, bins, issued, absent⟩, _⟩ := old.sound _ (Multiset.mem_cons_self _ _)
  unfold commitNewBinSection
  by_cases live : isLive s nodeId ref = true
  · rw [if_pos live]
    exact old.join trivial (of_decide_eq_true live) room (.new absent issued bins pos rfl) handle
  · rw [if_neg live]
    exact old.fail trivial

theorem BinsInv.commitAdd {ref : MonitorRef} {nodeId : String} {binId : BinId}
    (old : BinsInv caps s h locked (⟨t, .admitting ref nodeId (.adding binId)⟩ ::ₘ B)) (handle : Int) :
    BinsInv caps (commitAddSection ref nodeId binId handle s).2.1 h locked
      (⟨t, .admitting ref nodeId (.answered (some (commitAddSection ref nodeId binId handle s).1))⟩ ::ₘ B) := by
  obtain ⟨_, ⟨room, fits⟩, _⟩ := old.sound _ (Multiset.mem_cons_self _ _)
  unfold commitAddSection
  split
  · rename_i bin found
    have named := (old.fit.keyed found).1
    by_cases live : isLive s nodeId ref = true
    · rw [if_pos live]
      refine old.join trivial (of_decide_eq_true live) room (.there ?_ (fits bin found)) handle
      rw [named, found]
    · rw [if_neg live]
      exact old.fail trivial
  · exact old.fail trivial

end
end I3x.Subscriptions

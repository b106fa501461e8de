import I3xServer.Subscriptions.MonitorCalls
import I3xServer.Subscriptions.Stretches

/-!
# Custody of the upstream subscriptions

Every subscription that the upstream has created is in one of three hands: a bin
holds it, a running call holds it, or its deletion has been requested. A call gives
what it holds to a bin or deletes it; it loses one only when the first subscribe
call on a subscription that it has just created raises.
-/
namespace I3x.Subscriptions
open Container Coroutine Program
variable {V : Type} {settings : Settings V} {upstream : Upstream V}

def Created (h : MonitorHistory V) (ua : UaSubscription) : Prop :=
  ∃ t binId, .replied t (.createDatachangeSubscription binId) (some ua) ∈ h

def Deleted (h : MonitorHistory V) (ua : UaSubscription) : Prop :=
  ∃ t, .requested t (.deleteSubscription ua) ∈ h

/-- The last reply to the call was the creation of the subscription. -/
def JustCreated (t : MonitorTag) (ua : UaSubscription) : MonitorHistory V → Prop
  | [] => False
  | .replied u (.createDatachangeSubscription _) r :: h => u = t ∧ r = some ua ∨ u ≠ t ∧ JustCreated t ua h
  | .replied u _ _ :: h => u ≠ t ∧ JustCreated t ua h
  | _ :: h => JustCreated t ua h

/-- Every creation returns another object than the ones before. -/
def ReturnsNew : MonitorEvent V → MonitorHistory V → Prop
  | .replied _ (.createDatachangeSubscription _) (some ua), earlier => ¬ Created earlier ua
  | _, _ => True

/-- No subscribe call raises on a subscription that its call has just created. -/
def FirstSubscribeReturns : MonitorEvent V → MonitorHistory V → Prop
  | .replied t (.subscribeDataChanges ua _) none, earlier => ¬ JustCreated t ua earlier
  | _, _ => True

/-- The subscription is the one of exactly one bin. -/
def InOneBin (s : ServiceState V) (ua : UaSubscription) : Prop :=
  ∃ binId bin, s.bins.get? binId = some bin ∧ bin.uaSubscription = ua ∧
    ∀ other bin', s.bins.get? other = some bin' → bin'.uaSubscription = ua → other = binId

/-- What a call holds: upstream subscriptions, numbers for bins to come, and the
subscription that its last reply created. -/
structure Custody where
  held : Multiset UaSubscription
  binIds : Multiset BinId
  created : Option UaSubscription

def Custody.empty : Custody := ⟨0, 0, none⟩

def Custody.holding (held : List UaSubscription) : Custody := ⟨held, 0, none⟩

abbrev CustodyEntry := Entry MonitorCall Custody

def binned (s : ServiceState V) : Multiset UaSubscription := ↑(s.bins.values.map (·.uaSubscription))

/-- The subscriptions in the bins and in the hands of calls. -/
def holdings (s : ServiceState V) (B : Multiset CustodyEntry) : Multiset UaSubscription :=
  binned s + (B.map fun e => e.ghost.held).sum

/-- The numbers of the bins, taken and reserved. -/
def binNumbers (s : ServiceState V) (B : Multiset CustodyEntry) : Multiset BinId :=
  ↑s.bins.keys + (B.map fun e => e.ghost.binIds).sum

structure Conserved (s : ServiceState V) (h : MonitorHistory V) (B : Multiset CustodyEntry) : Prop where
  keyed : ∀ {binId bin}, s.bins.get? binId = some bin → bin.binId = binId
  issued : ∀ binId ∈ binNumbers s B, binId < s.nextBin
  numbered : (binNumbers s B).Nodup
  separate : (holdings s B).Nodup
  origin : ∀ ua ∈ holdings s B, Created h ua
  kept : ∀ ua, Created h ua → ua ∈ holdings s B ∨ Deleted h ua
  recent : ∀ e ∈ B, ∀ ua, e.ghost.created = some ua → JustCreated e.tag ua h

section
variable {s s' : ServiceState V} {h : MonitorHistory V} {B : Multiset CustodyEntry} {t : MonitorTag}
  {g g' : Custody} {ua : UaSubscription} {event : MonitorEvent V}

theorem holdings_cons (e : CustodyEntry) : holdings s (e ::ₘ B) = e.ghost.held + holdings s B := by
  unfold holdings
  rw [Multiset.map_cons, Multiset.sum_cons, add_left_comm]

theorem binNumbers_cons (e : CustodyEntry) : binNumbers s (e ::ₘ B) = e.ghost.binIds + binNumbers s B := by
  unfold binNumbers
  rw [Multiset.map_cons, Multiset.sum_cons, add_left_comm]

/-! ## Events -/

theorem created_cons : Created (event :: h) ua ↔
    (∃ t binId, event = .replied t (.createDatachangeSubscription binId) (some ua)) ∨ Created h ua := by
  constructor
  · rintro ⟨t, binId, inside⟩
    rcases List.mem_cons.mp inside with here | before
    · exact .inl ⟨t, binId, here.symm⟩
    · exact .inr ⟨t, binId, before⟩
  · rintro (⟨t, binId, rfl⟩ | ⟨t, binId, before⟩)
    · exact ⟨t, binId, List.mem_cons_self⟩
    · exact ⟨t, binId, List.mem_cons_of_mem _ before⟩

theorem Deleted.cons (deleted : Deleted h ua) : Deleted (event :: h) ua := by
  obtain ⟨t, inside⟩ := deleted
  exact ⟨t, List.mem_cons_of_mem _ inside⟩

/-- A reply to another call does not change what was just created. -/
theorem JustCreated.cons (just : JustCreated t ua h) (other : ∀ u q r, event = .replied u q r → u ≠ t) :
    JustCreated t ua (event :: h) := by
  cases event with
  | replied u q r =>
      have apart := other u q r rfl
      cases q with
      | createDatachangeSubscription => exact .inr ⟨apart, just⟩
      | _ => exact ⟨apart, just⟩
  | _ => exact just

/-- Nothing but a reply creates. -/
theorem Conserved.silent (old : Conserved s h B) (silent : ∀ u q r, event ≠ .replied u q r) :
    Conserved s (event :: h) B where
  keyed := old.keyed
  issued := old.issued
  numbered := old.numbered
  separate := old.separate
  origin ua inside := created_cons.mpr (.inr (old.origin ua inside))
  kept ua created := by
    rcases created_cons.mp created with ⟨u, binId, same⟩ | before
    · exact absurd same (silent _ _ _)
    · exact (old.kept ua before).imp_right Deleted.cons
  recent e inside ua created := (old.recent e inside ua created).cons fun u q r same => absurd same (silent u q r)

theorem Conserved.noted (old : Conserved s h B) (ns : List (Note V)) : Conserved s (Coroutine.noted t ns ++ h) B := by
  induction ns generalizing h with
  | nil => exact old
  | cons n ns ih =>
      rw [noted_cons]
      exact ih (old.silent fun _ _ _ => nofun)

/-- A reply that creates nothing. -/
theorem Conserved.replied (old : Conserved s h (⟨t, g⟩ ::ₘ B)) (alone : ∀ e ∈ B, e.tag.id ≠ t.id) {q : Request V}
    {r : Reply q} (uncreated : ∀ binId ua, Event.replied t q r ≠ (.replied t (.createDatachangeSubscription binId)
      (some ua) : MonitorEvent V)) :
    Conserved s (.replied t q r :: h) (⟨t, { g with created := none }⟩ ::ₘ B) := by
  refine ⟨old.keyed, ?_, ?_, ?_, ?_, ?_, fun e inside ua created => ?_⟩
  · rw [binNumbers_cons, ← binNumbers_cons ⟨t, g⟩]
    exact old.issued
  · rw [binNumbers_cons, ← binNumbers_cons ⟨t, g⟩]
    exact old.numbered
  · rw [holdings_cons, ← holdings_cons ⟨t, g⟩]
    exact old.separate
  · rw [holdings_cons, ← holdings_cons ⟨t, g⟩]
    exact fun ua inside => created_cons.mpr (.inr (old.origin ua inside))
  · rw [holdings_cons, ← holdings_cons ⟨t, g⟩]
    intro ua created
    rcases created_cons.mp created with ⟨u, binId, same⟩ | before
    · cases same
      exact absurd rfl (uncreated _ _)
    · exact (old.kept ua before).imp_right Deleted.cons
  · rcases Multiset.mem_cons.mp inside with rfl | other
    · cases created
    · refine (old.recent e (Multiset.mem_cons_of_mem other) ua created).cons ?_
      rintro u q' r' same rfl
      cases same
      exact alone e other rfl

/-- A creation puts the new subscription into the hands of its call. -/
theorem Conserved.creates {binIds : Multiset BinId} (old : Conserved s h (⟨t, ⟨0, binIds, none⟩⟩ ::ₘ B))
    (alone : ∀ e ∈ B, e.tag.id ≠ t.id) (binId : BinId) (new : ¬ Created h ua) :
    Conserved s (.replied t (.createDatachangeSubscription binId) (some ua) :: h)
      (⟨t, ⟨{ua}, binIds, some ua⟩⟩ ::ₘ B) := by
  have before {other : UaSubscription} : other ∈ holdings s (⟨t, ⟨0, binIds, none⟩⟩ ::ₘ B) ↔ other ∈ holdings s B := by
    rw [holdings_cons, zero_add]
  have separate := old.separate
  rw [holdings_cons, zero_add] at separate
  refine ⟨old.keyed, ?_, ?_, ?_, ?_, ?_, fun e inside other created => ?_⟩
  · rw [binNumbers_cons, ← binNumbers_cons ⟨t, ⟨0, binIds, none⟩⟩]
    exact old.issued
  · rw [binNumbers_cons, ← binNumbers_cons ⟨t, ⟨0, binIds, none⟩⟩]
    exact old.numbered
  · rw [holdings_cons, Multiset.singleton_add, Multiset.nodup_cons]
    exact ⟨fun inside => new (old.origin ua (before.mpr inside)), separate⟩
  · rw [holdings_cons, Multiset.singleton_add]
    intro other inside
    rcases Multiset.mem_cons.mp inside with rfl | earlier
    · exact ⟨t, binId, List.mem_cons_self⟩
    · exact created_cons.mpr (.inr (old.origin other (before.mpr earlier)))
  · rw [holdings_cons, Multiset.singleton_add]
    intro other created
    rcases created_cons.mp created with ⟨u, number, same⟩ | earlier
    · cases same
      exact .inl (Multiset.mem_cons_self _ _)
    · exact (old.kept other earlier).imp (fun inside => Multiset.mem_cons_of_mem (before.mp inside)) Deleted.cons
  · rcases Multiset.mem_cons.mp inside with rfl | there
    · cases created
      exact .inl ⟨rfl, rfl⟩
    · refine (old.recent e (Multiset.mem_cons_of_mem there) other created).cons ?_
      rintro u q r same rfl
      cases same
      exact alone e there rfl

/-- A deletion takes a subscription out of the hands of its call. -/
theorem Conserved.deletes {held : Multiset UaSubscription} {binIds : Multiset BinId} {created : Option UaSubscription}
    (old : Conserved s h (⟨t, ⟨ua ::ₘ held, binIds, created⟩⟩ ::ₘ B)) :
    Conserved s (.requested t (.deleteSubscription ua) :: h) (⟨t, ⟨held, binIds, none⟩⟩ ::ₘ B) := by
  have next : Conserved s (.requested t (.deleteSubscription ua) :: h)
      (⟨t, ⟨ua ::ₘ held, binIds, created⟩⟩ ::ₘ B) := old.silent fun _ _ _ => nofun
  have fewer : ua ::ₘ holdings s (⟨t, ⟨held, binIds, none⟩⟩ ::ₘ B) =
      holdings s (⟨t, ⟨ua ::ₘ held, binIds, created⟩⟩ ::ₘ B) := by
    rw [holdings_cons, holdings_cons, Multiset.cons_add]
  refine ⟨next.keyed, ?_, ?_, ?_, ?_, ?_, fun e inside other made => ?_⟩
  · rw [binNumbers_cons, ← binNumbers_cons ⟨t, ⟨ua ::ₘ held, binIds, created⟩⟩]
    exact next.issued
  · rw [binNumbers_cons, ← binNumbers_cons ⟨t, ⟨ua ::ₘ held, binIds, created⟩⟩]
    exact next.numbered
  · have separate := next.separate
    rw [← fewer, Multiset.nodup_cons] at separate
    exact separate.2
  · exact fun other inside => next.origin other (fewer ▸ Multiset.mem_cons_of_mem inside)
  · intro other made
    rcases next.kept other made with inside | deleted
    · rw [← fewer, Multiset.mem_cons] at inside
      rcases inside with rfl | rest
      · exact .inr ⟨t, List.mem_cons_self⟩
      · exact .inl rest
    · exact .inr deleted
  · rcases Multiset.mem_cons.mp inside with rfl | there
    · cases made
    · exact next.recent e (Multiset.mem_cons_of_mem there) other made

/-! ## Updates -/

/-- What the bins lose the call takes, and the other way round. -/
theorem Conserved.hands (old : Conserved s h (⟨t, g⟩ ::ₘ B))
    (keyed : ∀ {binId bin}, s'.bins.get? binId = some bin → bin.binId = binId) (next : s'.nextBin = s.nextBin)
    (held : g'.held + binned s' = g.held + binned s) (binIds : g'.binIds + ↑s'.bins.keys ≤ g.binIds + ↑s.bins.keys)
    (forgets : g'.created = none) : Conserved s' h (⟨t, g'⟩ ::ₘ B) := by
  have same : holdings s' (⟨t, g'⟩ ::ₘ B) = holdings s (⟨t, g⟩ ::ₘ B) := by
    rw [holdings_cons, holdings_cons]
    unfold holdings
    rw [← add_assoc, held, add_assoc]
  have fewer : binNumbers s' (⟨t, g'⟩ ::ₘ B) ≤ binNumbers s (⟨t, g⟩ ::ₘ B) := by
    rw [binNumbers_cons, binNumbers_cons]
    unfold binNumbers
    rw [← add_assoc, ← add_assoc]
    exact Multiset.add_le_add_right binIds
  refine ⟨keyed, fun binId inside => ?_, Multiset.nodup_of_le fewer old.numbered, ?_, ?_, ?_, fun e inside ua created => ?_⟩
  · rw [next]
    exact old.issued binId (Multiset.mem_of_le fewer inside)
  · rw [same]
    exact old.separate
  · rw [same]
    exact old.origin
  · rw [same]
    exact old.kept
  · rcases Multiset.mem_cons.mp inside with rfl | other
    · rw [forgets] at created
      cases created
    · exact old.recent e (Multiset.mem_cons_of_mem other) ua created

/-- A call reserves the number for a bin. -/
theorem Conserved.reserve (old : Conserved s h (⟨t, .empty⟩ ::ₘ B)) :
    Conserved { s with nextBin := s.nextBin + 1 } h (⟨t, ⟨0, {s.nextBin}, none⟩⟩ ::ₘ B) := by
  have numbers : binNumbers { s with nextBin := s.nextBin + 1 } (⟨t, ⟨0, {s.nextBin}, none⟩⟩ ::ₘ B) =
      s.nextBin ::ₘ binNumbers s (⟨t, .empty⟩ ::ₘ B) := by
    rw [binNumbers_cons, binNumbers_cons, Multiset.singleton_add]
    exact congrArg _ (zero_add _).symm
  have held : holdings { s with nextBin := s.nextBin + 1 } (⟨t, ⟨0, {s.nextBin}, none⟩⟩ ::ₘ B) =
      holdings s (⟨t, .empty⟩ ::ₘ B) := by
    rw [holdings_cons, holdings_cons]
    rfl
  refine ⟨old.keyed, fun binId inside => ?_, ?_, ?_, ?_, ?_, fun e inside ua created => ?_⟩
  · rw [numbers] at inside
    rcases Multiset.mem_cons.mp inside with rfl | before
    · exact Nat.lt_succ_self _
    · exact Nat.lt_succ_of_lt (old.issued binId before)
  · rw [numbers, Multiset.nodup_cons]
    exact ⟨fun inside => Nat.lt_irrefl _ (old.issued _ inside), old.numbered⟩
  · rw [held]
    exact old.separate
  · rw [held]
    exact old.origin
  · rw [held]
    exact old.kept
  · rcases Multiset.mem_cons.mp inside with rfl | other
    · cases created
    · exact old.recent e (Multiset.mem_cons_of_mem other) ua created

theorem Conserved.enter (old : Conserved s h B) (t : MonitorTag) : Conserved s h (⟨t, .empty⟩ ::ₘ B) := by
  have held : holdings s (⟨t, .empty⟩ ::ₘ B) = holdings s B := (holdings_cons _).trans (zero_add _)
  have numbers : binNumbers s (⟨t, .empty⟩ ::ₘ B) = binNumbers s B := (binNumbers_cons _).trans (zero_add _)
  refine ⟨old.keyed, ?_, ?_, ?_, ?_, ?_, fun e inside ua created => ?_⟩
  · rw [numbers]
    exact old.issued
  · rw [numbers]
    exact old.numbered
  · rw [held]
    exact old.separate
  · rw [held]
    exact old.origin
  · rw [held]
    exact old.kept
  · rcases Multiset.mem_cons.mp inside with rfl | other
    · cases created
    · exact old.recent e other ua created

theorem Conserved.leave (old : Conserved s h (⟨t, .empty⟩ ::ₘ B)) : Conserved s h B := by
  have held : holdings s (⟨t, .empty⟩ ::ₘ B) = holdings s B := (holdings_cons _).trans (zero_add _)
  have numbers : binNumbers s (⟨t, .empty⟩ ::ₘ B) = binNumbers s B := (binNumbers_cons _).trans (zero_add _)
  refine ⟨old.keyed, ?_, ?_, ?_, ?_, ?_, fun e inside => old.recent e (Multiset.mem_cons_of_mem inside)⟩
  · rw [← numbers]
    exact old.issued
  · rw [← numbers]
    exact old.numbered
  · rw [← held]
    exact old.separate
  · rw [← held]
    exact old.origin
  · rw [← held]
    exact old.kept

/-! ## The bins as multisets -/

theorem binned_set {binId : BinId} {bin old : ManagedBin} (found : s.bins.get? binId = some old)
    (same : bin.uaSubscription = old.uaSubscription) (bins : s'.bins = s.bins.set binId bin) :
    binned s' = binned s := by
  have after := (s.bins.perm_set binId bin).map fun e : BinId × ManagedBin => e.2.uaSubscription
  have before := (s.bins.perm_erase found).map fun e : BinId × ManagedBin => e.2.uaSubscription
  simp only [List.map_cons, same] at after before
  have perm := after.trans before.symm
  unfold binned Dict.values
  rw [bins, List.map_map, List.map_map]
  exact Multiset.coe_eq_coe.mpr perm

theorem binned_set_of_none {binId : BinId} {bin : ManagedBin} (absent : s.bins.get? binId = none)
    (bins : s'.bins = s.bins.set binId bin) : binned s' = bin.uaSubscription ::ₘ binned s := by
  have perm := (s.bins.perm_set binId bin).map fun e : BinId × ManagedBin => e.2.uaSubscription
  rw [s.bins.erase_of_none absent] at perm
  unfold binned Dict.values
  rw [bins, List.map_map, List.map_map]
  exact Multiset.coe_eq_coe.mpr perm

theorem binned_erase {binId : BinId} {old : ManagedBin} (found : s.bins.get? binId = some old)
    (bins : s'.bins = s.bins.erase binId) : binned s = old.uaSubscription ::ₘ binned s' := by
  have perm := (s.bins.perm_erase found).map fun e : BinId × ManagedBin => e.2.uaSubscription
  unfold binned Dict.values
  rw [bins, List.map_map, List.map_map]
  exact Multiset.coe_eq_coe.mpr perm

theorem keys_set_coe {binId : BinId} {bin old : ManagedBin} (found : s.bins.get? binId = some old) :
    (↑(s.bins.set binId bin).keys : Multiset BinId) = ↑s.bins.keys :=
  Multiset.coe_eq_coe.mpr (((s.bins.perm_set binId bin).map Prod.fst).trans
    ((s.bins.perm_erase found).map Prod.fst).symm)

theorem keys_set_of_none_coe {binId : BinId} {bin : ManagedBin} (absent : s.bins.get? binId = none) :
    (↑(s.bins.set binId bin).keys : Multiset BinId) = binId ::ₘ ↑s.bins.keys := by
  have perm := (s.bins.perm_set binId bin).map Prod.fst
  rw [s.bins.erase_of_none absent] at perm
  exact Multiset.coe_eq_coe.mpr perm

theorem keys_erase_le (binId : BinId) : (↑(s.bins.erase binId).keys : Multiset BinId) ≤ ↑s.bins.keys :=
  Multiset.coe_le.mpr (List.filter_sublist.map Prod.fst).subperm

theorem keyed_set {bins : Dict BinId ManagedBin} (keyed : ∀ {binId bin}, bins.get? binId = some bin → bin.binId = binId)
    {binId : BinId} {bin : ManagedBin} (named : bin.binId = binId) {other : BinId} {bin' : ManagedBin}
    (found : (bins.set binId bin).get? other = some bin') : bin'.binId = other := by
  rw [Dict.get?_set] at found
  split_ifs at found with here
  · cases found
    rw [here, named]
  · exact keyed found

theorem keyed_erase {bins : Dict BinId ManagedBin}
    (keyed : ∀ {binId bin}, bins.get? binId = some bin → bin.binId = binId) (binId : BinId) {other : BinId}
    {bin' : ManagedBin} (found : (bins.erase binId).get? other = some bin') : bin'.binId = other := by
  rw [Dict.get?_erase] at found
  split_ifs at found with here
  exact keyed found

/-- Distinct bins have distinct subscriptions. -/
theorem inOneBin_of_mem (separate : (binned s).Nodup) (inside : ua ∈ binned s) : InOneBin s ua := by
  unfold binned Dict.values at separate inside
  rw [List.map_map, Multiset.coe_nodup] at separate
  obtain ⟨bin, there, rfl⟩ := List.mem_map.mp (Multiset.mem_coe.mp inside)
  obtain ⟨⟨binId, _⟩, entry, rfl⟩ := List.mem_map.mp there
  refine ⟨binId, _, (s.bins.mem_entries _ _).mp entry, rfl, fun other bin' found same => ?_⟩
  have same_entry := List.inj_on_of_nodup_map separate ((s.bins.mem_entries other bin').mpr found) entry same
  exact congrArg Prod.fst same_entry

/-! ## The sections of the bins -/

/-- A new bin takes the subscription and the number of the call that opened it. -/
theorem Conserved.addBin (bin : ManagedBin)
    (old : Conserved s h (⟨t, ⟨{bin.uaSubscription}, {bin.binId}, none⟩⟩ ::ₘ B))
    (bins : s'.bins = s.bins.set bin.binId bin) (next : s'.nextBin = s.nextBin) :
    Conserved s' h (⟨t, .empty⟩ ::ₘ B) := by
  have absent : s.bins.get? bin.binId = none := by
    have numbered := old.numbered
    rw [binNumbers_cons, Multiset.singleton_add, Multiset.nodup_cons] at numbered
    rw [Dict.get?_eq_none]
    exact fun taken => numbered.1 (Multiset.mem_add.mpr (.inl (Multiset.mem_coe.mpr taken)))
  refine old.hands ?_ next ?_ ?_ rfl
  · rw [bins]
    exact keyed_set old.keyed rfl
  · rw [binned_set_of_none absent bins, Multiset.singleton_add]
    exact zero_add _
  · refine le_of_eq ?_
    rw [bins, Multiset.singleton_add]
    exact (zero_add _).trans (keys_set_of_none_coe absent)

/-- A bin that gets another node keeps its subscription. -/
theorem Conserved.setBin {binId : BinId} {bin : ManagedBin} (bin' : ManagedBin)
    (old : Conserved s h (⟨t, g⟩ ::ₘ B)) (found : s.bins.get? binId = some bin) (same : bin'.uaSubscription = bin.uaSubscription)
    (named : bin'.binId = bin.binId) (bins : s'.bins = s.bins.set binId bin') (next : s'.nextBin = s.nextBin)
    (forgets : g.created = none) : Conserved s' h (⟨t, g⟩ ::ₘ B) := by
  refine old.hands ?_ next ?_ ?_ forgets
  · rw [bins]
    exact keyed_set old.keyed (named.trans (old.keyed found))
  · rw [binned_set found same bins]
  · rw [bins, keys_set_coe found]

/-- The call takes over the subscription of a bin that it removes. -/
theorem Conserved.eraseBin {binId : BinId} {bin : ManagedBin} {held : Multiset UaSubscription}
    (old : Conserved s h (⟨t, ⟨held, 0, none⟩⟩ ::ₘ B)) (found : s.bins.get? binId = some bin)
    (bins : s'.bins = s.bins.erase binId) (next : s'.nextBin = s.nextBin) :
    Conserved s' h (⟨t, ⟨bin.uaSubscription ::ₘ held, 0, none⟩⟩ ::ₘ B) := by
  refine old.hands ?_ next ?_ ?_ rfl
  · rw [bins]
    exact keyed_erase old.keyed binId
  · rw [binned_erase found bins, Multiset.cons_add, Multiset.add_cons]
  · rw [bins]
    exact Multiset.add_le_add_left (keys_erase_le binId)

theorem Conserved.of_bins (old : Conserved s h B) (bins : s'.bins = s.bins) (next : s'.nextBin = s.nextBin) :
    Conserved s' h B := by
  have held : holdings s' B = holdings s B := by unfold holdings binned; rw [bins]
  have numbers : binNumbers s' B = binNumbers s B := by unfold binNumbers; rw [bins]
  refine ⟨?_, ?_, ?_, ?_, ?_, ?_, old.recent⟩
  · rw [bins]
    exact old.keyed
  · rw [numbers, next]
    exact old.issued
  · rw [numbers]
    exact old.numbered
  · rw [held]
    exact old.separate
  · rw [held]
    exact old.origin
  · rw [held]
    exact old.kept

theorem Conserved.commitNewBin (ref : MonitorRef) (nodeId : String) {binId : BinId} (capacity : Nat) (handle : Int)
    (old : Conserved s h (⟨t, ⟨{ua}, {binId}, none⟩⟩ ::ₘ B)) (live : isLive s nodeId ref = true) :
    Conserved (commitNewBinSection ref nodeId binId ua capacity handle s).2.1 h (⟨t, .empty⟩ ::ₘ B) := by
  unfold commitNewBinSection
  rw [if_pos live]
  exact old.addBin
    { binId, uaSubscription := ua, capacity, nodeHandles := Dict.empty.set nodeId handle
      nativeRefreshInterval := some ua.refreshInterval } rfl rfl

theorem Conserved.commitAdd (ref : MonitorRef) (nodeId : String) (binId : BinId) (handle : Int)
    (old : Conserved s h (⟨t, .empty⟩ ::ₘ B)) :
    Conserved (commitAddSection ref nodeId binId handle s).2.1 h (⟨t, .empty⟩ ::ₘ B) := by
  unfold commitAddSection
  cases found : s.bins.get? binId with
  | none => exact old
  | some bin =>
      dsimp only
      split
      · refine old.setBin { bin with nodeHandles := bin.nodeHandles.set nodeId handle } found rfl rfl ?_ rfl rfl
        rw [← old.keyed found]
        rfl
      · exact old

/-- What a call holds after it took a node out of its bin. -/
def BinExit.custody : BinExit → Custody
  | .emptied uaSubscription => .holding [uaSubscription]
  | _ => .empty

theorem Conserved.leaveBin (nodeId : String) (binId : BinId) (old : Conserved s h (⟨t, .empty⟩ ::ₘ B)) :
    Conserved (leaveBinSection nodeId binId s).2.1 h (⟨t, (leaveBinSection nodeId binId s).1.custody⟩ ::ₘ B) := by
  unfold leaveBinSection
  cases found : s.bins.get? binId with
  | none => exact old
  | some bin =>
      dsimp only
      split
      · exact old.eraseBin found rfl rfl
      · exact old.setBin { bin with nodeHandles := bin.nodeHandles.erase nodeId } found rfl rfl rfl rfl rfl

theorem idleLost_bins (binId : BinId) (nodeIds : List String) (s : ServiceState V) :
    (idleLost binId nodeIds s).2.bins = s.bins ∧ (idleLost binId nodeIds s).2.nextBin = s.nextBin := by
  induction nodeIds generalizing s with
  | nil => exact ⟨rfl, rfl⟩
  | cons nodeId rest ih =>
      rw [idleLost]
      split
      · exact ih s
      · split
        · exact ih _
        · exact ih s

/-- The subscriptions of the bins that a reconnect dropped. -/
def deadSubscriptions (dead : List ManagedBin) : Multiset UaSubscription := ↑(dead.map (·.uaSubscription))

theorem Conserved.resyncBin (survivors : Nat → Option (String → Option Int)) {binId : BinId} {bin : ManagedBin}
    {held : Multiset UaSubscription} (old : Conserved s h (⟨t, ⟨held, 0, none⟩⟩ ::ₘ B))
    (found : s.bins.get? binId = some bin) :
    Conserved (Subscriptions.resyncBin survivors binId bin s).2 h
      (⟨t, ⟨deadSubscriptions (Subscriptions.resyncBin survivors binId bin s).1.1.toList + held, 0, none⟩⟩ ::ₘ B) := by
  unfold Subscriptions.resyncBin
  dsimp only
  split
  · split
    · obtain ⟨bins, next⟩ := idleLost_bins binId
        (missingNodes (survivingHandles survivors bin) bin) { s with bins := s.bins.erase binId }
      exact old.eraseBin found bins next
    · rename_i handles _ _
      obtain ⟨bins, next⟩ := idleLost_bins binId
        (missingNodes (survivingHandles survivors bin) bin) (s.setBin binId { bin with nodeHandles := handles })
      have same : deadSubscriptions [] + held = held := zero_add held
      dsimp only [Option.toList_none]
      rw [same]
      exact old.setBin { bin with nodeHandles := handles } found rfl rfl bins next rfl
  · obtain ⟨bins, next⟩ := idleLost_bins binId
      (missingNodes (survivingHandles survivors bin) bin) { s with bins := s.bins.erase binId }
    exact old.eraseBin found bins next

/-- The bins whose turn is still to come are left alone. -/
theorem resyncBin_others (survivors : Nat → Option (String → Option Int)) (binId : BinId) (bin : ManagedBin)
    (s : ServiceState V) {other : BinId} (different : other ≠ binId) :
    (Subscriptions.resyncBin survivors binId bin s).2.bins.get? other = s.bins.get? other := by
  unfold Subscriptions.resyncBin
  dsimp only
  split
  · split
    · rw [(idleLost_bins binId _ _).1]
      exact s.bins.get?_erase_ne different
    · rw [(idleLost_bins binId _ _).1]
      exact s.bins.get?_set_ne _ different
  · rw [(idleLost_bins binId _ _).1]
    exact s.bins.get?_erase_ne different

theorem Conserved.resyncBins (survivors : Nat → Option (String → Option Int))
    {entries : List (BinId × ManagedBin)} {held : Multiset UaSubscription}
    (old : Conserved s h (⟨t, ⟨held, 0, none⟩⟩ ::ₘ B)) (distinct : (entries.map Prod.fst).Nodup)
    (there : ∀ e ∈ entries, s.bins.get? e.1 = some e.2) :
    Conserved (Subscriptions.resyncBins survivors entries s).2 h
      (⟨t, ⟨deadSubscriptions (Subscriptions.resyncBins survivors entries s).1.1 + held, 0, none⟩⟩ ::ₘ B) := by
  induction entries generalizing s held with
  | nil =>
      have same : deadSubscriptions [] + held = held := zero_add held
      change Conserved s h (⟨t, ⟨deadSubscriptions [] + held, 0, none⟩⟩ ::ₘ B)
      rw [same]
      exact old
  | cons entry rest ih =>
      obtain ⟨binId, bin⟩ := entry
      rw [List.map_cons, List.nodup_cons] at distinct
      have first := old.resyncBin survivors (there _ List.mem_cons_self)
      have next := ih first distinct.2 fun e inside => by
        have named : e.1 ∈ rest.map Prod.fst := List.mem_map_of_mem inside
        have different : e.1 ≠ binId := fun same => distinct.1 (same ▸ named)
        rw [resyncBin_others survivors binId bin s different]
        exact there e (List.mem_cons_of_mem _ inside)
      have shared (first more : List ManagedBin) : deadSubscriptions (first ++ more) + held =
          deadSubscriptions more + (deadSubscriptions first + held) := by
        unfold deadSubscriptions
        rw [List.map_append, ← Multiset.coe_add, add_assoc, add_left_comm]
      rw [Subscriptions.resyncBins]
      dsimp only
      rw [shared]
      exact next

end

/-! ## The programs -/

/-- Conserved, as long as creations return new objects and first subscribe calls return. -/
def CustodyInv (s : ServiceState V) (h : MonitorHistory V) (B : Multiset CustodyEntry) : Prop :=
  Throughout ReturnsNew h → Throughout FirstSubscribeReturns h → Conserved s h B

abbrev Keeping (t : MonitorTag) (g : Custody) (v : MonitorView V Custody) : Prop := Runs CustodyInv t g v

section
variable {α : Type} {t : MonitorTag} {g : Custody} {v : MonitorView V Custody}

/-- A critical section, with what the call holds afterwards. -/
theorem section_keeps {f : Section V α} {g' : α → Custody} (keeping : Keeping t g v)
    (moves : ∀ s h B, Conserved s h (⟨t, g⟩ ::ₘ B) → Conserved (f s).2.1 h (⟨t, g' (f s).1⟩ ::ₘ B)) :
    wp (monitors settings upstream).mayReply (Named CustodyInv) t (fun a w => Keeping t (g' a) w)
      (locked .main f) v := by
  refine wp_locked_named Lock.main f keeping fun v' woken w state history bag running => ⟨running, ?_⟩
  rw [state, history, bag]
  intro new returns
  exact (moves _ _ _ (woken.holds new.append_right returns.append_right)).noted _

theorem atomic_keeps {f : Section V α} {g' : α → Custody} (keeping : Keeping t g v)
    (moves : ∀ s h B, Conserved s h (⟨t, g⟩ ::ₘ B) → Conserved (f s).2.1 h (⟨t, g' (f s).1⟩ ::ₘ B)) :
    wp (monitors settings upstream).mayReply (Named CustodyInv) t (fun a w => Keeping t (g' a) w)
      (atomic f) v := by
  refine wp_atomic f (keeping.acting fun new returns => ?_)
  exact (moves _ _ _ (keeping.holds new.append_right returns.append_right)).noted _

/-- A section that leaves the bins alone. -/
theorem section_apart {f : Section V α} (keeping : Keeping t g v)
    (apart : ∀ s, (f s).2.1.bins = s.bins ∧ (f s).2.1.nextBin = s.nextBin) :
    wp (monitors settings upstream).mayReply (Named CustodyInv) t (fun _ w => Keeping t g w) (locked .main f) v :=
  section_keeps keeping fun s _ _ old => old.of_bins (apart s).1 (apart s).2

theorem note_keeps (keeping : Keeping t g v) (ns : ServiceState V → List (Note V)) :
    wp (monitors settings upstream).mayReply (Named CustodyInv) t (fun _ w => Keeping t g w) (note ns) v := by
  refine keeping.acting fun new returns => ?_
  exact (keeping.holds new.append_right returns.append_right).noted _

theorem requested_keeps (keeping : Keeping t g v) (q : Request V) : Keeping t g (v.noting (.requested t q)) := by
  refine keeping.noting rfl fun new returns => ?_
  exact (keeping.holds (throughout_cons.mp new).2 (throughout_cons.mp returns).2).silent fun _ _ _ => nofun

/-- A request other than a creation; the call forgets what it had just created. -/
theorem replied_keeps (keeping : Keeping t g v) {q : Request V} {r : Reply q}
    (uncreated : ∀ binId ua, Event.replied t q r ≠ (.replied t (.createDatachangeSubscription binId)
      (some ua) : MonitorEvent V)) :
    Keeping t { g with created := none } (v.noting (.replied t q r)) := by
  refine keeping.noting rfl fun new returns => ?_
  have old := keeping.holds (throughout_cons.mp new).2 (throughout_cons.mp returns).2
  exact old.replied keeping.running.alone uncreated

theorem await_keeps (keeping : Keeping t g v) (q : Request V)
    (other : ∀ binId, q ≠ .createDatachangeSubscription binId) :
    wp (monitors settings upstream).mayReply (Named CustodyInv) t
      (fun _ w => Keeping t { g with created := none } w) (await q) v := by
  refine wp_ask_named (requested_keeps keeping q) fun v' r _ woken => replied_keeps woken fun binId ua same => ?_
  cases same
  exact other binId rfl

theorem create_keeps {binIds : Multiset BinId} (keeping : Keeping t ⟨0, binIds, none⟩ v) (binId : BinId) :
    wp (monitors settings upstream).mayReply (Named CustodyInv) t
      (fun (created : Option UaSubscription) w => match created with
        | none => Keeping t ⟨0, binIds, none⟩ w
        | some ua => Keeping t ⟨{ua}, binIds, some ua⟩ w)
      (await (.createDatachangeSubscription binId)) v := by
  refine wp_ask_named (requested_keeps keeping _) fun v' created _ woken => ?_
  cases created with
  | none => exact replied_keeps woken fun _ _ => nofun
  | some ua =>
      refine woken.noting rfl fun new returns => ?_
      have old := woken.holds (throughout_cons.mp new).2 (throughout_cons.mp returns).2
      exact old.creates woken.running.alone binId (throughout_cons.mp new).1

theorem delete_keeps {ua : UaSubscription} {held : Multiset UaSubscription} {binIds : Multiset BinId}
    {created : Option UaSubscription} (keeping : Keeping t ⟨ua ::ₘ held, binIds, created⟩ v) :
    wp (monitors settings upstream).mayReply (Named CustodyInv) t (fun _ w => Keeping t ⟨held, binIds, none⟩ w)
      (await (.deleteSubscription ua)) v := by
  have requested : Keeping t ⟨held, binIds, none⟩ (v.noting (.requested t (.deleteSubscription ua))) := by
    refine keeping.noting rfl fun new returns => ?_
    exact (keeping.holds (throughout_cons.mp new).2 (throughout_cons.mp returns).2).deletes
  exact wp_ask_named requested fun v' r _ woken => replied_keeps woken fun _ _ => nofun

/-- A raising first subscribe call is excluded, so nothing is lost. -/
theorem subscribe_keeps {ua : UaSubscription} (nodeId : String) (keeping : Keeping t g v)
    (made : g.created = some ua) :
    wp (monitors settings upstream).mayReply (Named CustodyInv) t
      (fun (subscribed : Option (Option Int)) w => match subscribed with
        | none => Keeping t .empty w
        | some _ => Keeping t { g with created := none } w)
      (await (.subscribeDataChanges ua nodeId)) v := by
  refine wp_ask_named (requested_keeps keeping _) fun v' subscribed _ woken => ?_
  cases subscribed with
  | none =>
      refine woken.noting rfl fun new returns => ?_
      have old := woken.holds (throughout_cons.mp new).2 (throughout_cons.mp returns).2
      exact absurd (old.recent _ (Multiset.mem_cons_self _ _) ua made) (throughout_cons.mp returns).1
  | some _ => exact replied_keeps woken fun _ _ => nofun

/-- What a call holds matters only as far as it holds something. -/
theorem Keeping.forget {binIds : Multiset BinId} (keeping : Keeping t ⟨0, binIds, none⟩ v) : Keeping t .empty v := by
  refine ⟨keeping.running, fun new returns => ?_⟩
  refine (keeping.holds new returns).hands (fun found => (keeping.holds new returns).keyed found) rfl rfl ?_ rfl
  exact Multiset.add_le_add_right (Multiset.zero_le binIds)

end

/-- A program that starts and ends with nothing in its call's hands. -/
def Keeps {α : Type} (settings : Settings V) (upstream : Upstream V) (p : Act V α) : Prop :=
  ∀ (t : MonitorTag) (v : MonitorView V Custody), Keeping t .empty v →
    wp (monitors settings upstream).mayReply (Named CustodyInv) t (fun _ w => Keeping t .empty w) p v

section
variable {α β : Type}

theorem Keeps.ret (a : α) : Keeps settings upstream (.ret a) := fun _ _ keeping => keeping

theorem Keeps.bind {p : Act V α} {k : α → Act V β} (first : Keeps settings upstream p)
    (rest : ∀ a, Keeps settings upstream (k a)) : Keeps settings upstream (p.bind k) :=
  fun t v keeping => wp_seq (first t v keeping) fun a w keeping => rest a t w keeping

theorem Keeps.apart {f : Section V α} (apart : ∀ s, (f s).2.1.bins = s.bins ∧ (f s).2.1.nextBin = s.nextBin) :
    Keeps settings upstream (locked .main f) := fun _ _ keeping => section_apart keeping apart

theorem Keeps.look {f : Section V α} (looks : Looks f) : Keeps settings upstream (locked .main f) :=
  .apart fun s => by rw [looks s]; exact ⟨rfl, rfl⟩

theorem Keeps.await {q : Request V} (other : ∀ binId, q ≠ .createDatachangeSubscription binId) :
    Keeps settings upstream (Subscriptions.await q) := fun _ _ keeping => await_keeps keeping q other

theorem Keeps.acquire (l : Lock) : Keeps settings upstream (Program.acquire l) :=
  fun _ _ keeping => wp_acquire_named l keeping fun _ keeping => keeping

theorem Keeps.release (l : Lock) : Keeps settings upstream (Program.release l) :=
  fun _ _ keeping => keeping.setHeld l false

theorem Keeps.forEach {ι : Type} {xs : List ι} {body : ι → Act V Unit} (each : ∀ x, Keeps settings upstream (body x)) :
    Keeps settings upstream (Program.forEach xs body) :=
  fun t _ keeping => wp_forEach (K := fun _ w => Keeping t .empty w) (fun x _ w keeping => each x t w keeping) xs keeping

end

section
variable (settings : Settings V) (upstream : Upstream V)

theorem openNewBin_keeps (ref : MonitorRef) (nodeId : String) (capacity : Nat) :
    Keeps settings upstream (openNewBin ref nodeId capacity) := by
  intro t v keeping
  have reserved (s : ServiceState V) (h) (B) (old : Conserved s h (⟨t, .empty⟩ ::ₘ B)) :
      Conserved (freshBinSection s).2.1 h (⟨t, ⟨0, {(freshBinSection s).1}, none⟩⟩ ::ₘ B) := old.reserve
  refine wp_seq (M := fun binId w => Keeping t ⟨0, {binId}, none⟩ w) (atomic_keeps keeping reserved)
    fun binId v keeping => ?_
  refine wp_seq (create_keeps keeping binId) fun created v keeping => ?_
  cases created with
  | none => exact keeping.forget
  | some ua =>
      refine wp_seq (subscribe_keeps nodeId keeping rfl) fun subscribed v keeping => ?_
      match subscribed with
      | none => exact keeping
      | some none => exact wp_seq (delete_keeps keeping) fun _ v keeping => keeping.forget
      | some (some handle) =>
          have opened : Keeping t ⟨{ua}, {binId}, none⟩ v := keeping
          refine wp_seq (M := fun _ w => Keeping t ⟨{ua}, {binId}, none⟩ w)
            (wp_acquire_named Lock.main opened fun v keeping => keeping) fun _ v keeping => ?_
          refine wp_seq (M := fun committed w => Keeping t (if committed then .empty else ⟨{ua}, {binId}, none⟩) w)
            (atomic_keeps keeping fun s h B old => ?_) fun committed v keeping => ?_
          · by_cases live : isLive s nodeId ref = true
            · have committed : (commitNewBinSection ref nodeId binId ua capacity handle s).1 = true := by
                unfold commitNewBinSection
                rw [if_pos live]
              rw [committed]
              exact old.commitNewBin ref nodeId capacity handle live
            · have left : commitNewBinSection ref nodeId binId ua capacity handle s = (false, s, []) := if_neg live
              rw [left]
              exact old
          · cases committed with
            | true => exact keeping.setHeld Lock.main false
            | false => exact wp_seq (delete_keeps keeping) fun _ v keeping => Keeping.forget (keeping.setHeld Lock.main false)

theorem addNodeToBin_keeps (ref : MonitorRef) (nodeId : String) (targetBin : ManagedBin) :
    Keeps settings upstream (addNodeToBin ref nodeId targetBin) := by
  refine .bind (.await fun _ => nofun) fun subscribed => ?_
  match subscribed with
  | none => exact .ret _
  | some none => exact .ret _
  | some (some handle) =>
      refine .bind (.acquire .main) fun _ => .bind (fun t v keeping => ?_) fun committed => ?_
      · exact atomic_keeps keeping fun s h B old => old.commitAdd ref nodeId targetBin.binId handle
      · cases committed with
        | true => exact .bind (.release .main) fun _ => .ret _
        | false => exact .bind (.await fun _ => nofun) fun _ => .bind (.release .main) fun _ => .ret _

theorem findNativeBinSlot_keeps (ref : MonitorRef) (nodeId : String) (caps : Capabilities) :
    Keeps settings upstream (findNativeBinSlot ref nodeId caps) := by
  refine .bind (.look (slot_looks caps)) fun choice => ?_
  cases choice with
  | full => exact .ret _
  | into targetBin => exact addNodeToBin_keeps settings upstream ref nodeId targetBin
  | «open» =>
      refine .bind (.look fun _ => rfl) fun can => ?_
      cases can with
      | true => exact openNewBin_keeps settings upstream ref nodeId _
      | false => exact .ret _

theorem startPollingNodeMonitor_keeps (ref : MonitorRef) (nodeId : String) :
    Keeps settings upstream (startPollingNodeMonitor ref nodeId) := by
  refine .apart fun s => ?_
  unfold startPollingSection
  split
  · exact ⟨rfl, rfl⟩
  · exact ⟨rfl, rfl⟩

theorem startNodeMonitorRuntime_keeps (ref : MonitorRef) (nodeId : String) :
    Keeps settings upstream (startNodeMonitorRuntime settings ref nodeId) := by
  have noting (ns : ServiceState V → List (Note V)) : Keeps settings upstream (note ns) :=
    fun _ _ keeping => note_keeps keeping ns
  have polling := startPollingNodeMonitor_keeps settings upstream ref nodeId
  refine .bind (noting _) fun _ => .bind ?_ fun _ => noting _
  refine .bind (fun _ _ keeping => keeping) fun backingOff => ?_
  cases backingOff with
  | true => exact polling
  | false =>
      refine .bind (.await fun _ => nofun) fun caps => ?_
      refine .bind (.bind (.acquire .admission) fun _ => ?_) fun acquired => ?_
      · exact .bind (findNativeBinSlot_keeps settings upstream ref nodeId caps) fun _ =>
          .bind (.release .admission) fun _ => .ret _
      · match acquired with
        | some true => exact .ret _
        | some false => exact polling
        | none =>
            refine .bind (fun _ _ keeping => keeping.acting fun new returns => ?_) fun _ => polling
            exact (keeping.holds new returns).of_bins rfl rfl

theorem stopNodeMonitorRuntime_keeps (ref : MonitorRef) (nodeId : String) :
    Keeps settings upstream (stopNodeMonitorRuntime ref nodeId) := by
  refine .bind (fun _ _ keeping => atomic_keeps keeping fun s _ _ old => old.of_bins rfl rfl) fun binId => ?_
  cases binId with
  | none => exact .ret _
  | some binId =>
      intro t v keeping
      refine wp_seq (M := fun exit w => Keeping t exit.custody w)
        (section_keeps keeping fun s h B old => old.leaveBin nodeId binId) fun exit v keeping => ?_
      match exit with
      | .gone => exact keeping
      | .emptied ua =>
          have holding : Keeping t ⟨ua ::ₘ 0, 0, none⟩ v := keeping
          exact wp_seq (delete_keeps holding) fun _ v keeping => keeping
      | .left _ (some _) => exact wp_seq (await_keeps keeping _ fun _ => nofun) fun _ v keeping => keeping
      | .left _ none => exact keeping

theorem acquireNodeMonitor_keeps (nodeId : String) (id : SubscriptionId) :
    Keeps settings upstream (acquireNodeMonitor settings nodeId id) := by
  refine .bind (.apart fun s => ?_) fun registered => ?_
  · unfold acquireSection
    split
    · exact ⟨rfl, rfl⟩
    · exact ⟨rfl, rfl⟩
  · cases registered with
    | none => exact .ret _
    | some ref => exact startNodeMonitorRuntime_keeps settings upstream ref nodeId

theorem releaseNodeMonitor_keeps (nodeId : String) (id : SubscriptionId) :
    Keeps settings upstream (releaseNodeMonitor nodeId id) := by
  refine .bind (.apart fun s => ?_) fun orphaned => ?_
  · unfold releaseSection
    split
    · exact ⟨rfl, rfl⟩
    · dsimp only
      split
      · exact ⟨rfl, rfl⟩
      · exact ⟨rfl, rfl⟩
  · cases orphaned with
    | none => exact .ret _
    | some ref => exact stopNodeMonitorRuntime_keeps settings upstream ref nodeId

/-- A reconnect deletes every subscription whose bin it dropped. -/
theorem handleClientReconnect_keeps (survivors : Nat → Option (String → Option Int)) :
    Keeps settings upstream (handleClientReconnect settings survivors) := by
  intro t v keeping
  have resynced (s : ServiceState V) (h) (B) (old : Conserved s h (⟨t, .empty⟩ ::ₘ B)) :
      Conserved (reconnectSection survivors s).2.1 h
        (⟨t, .holding ((reconnectSection survivors s).1.1.map (·.uaSubscription))⟩ ::ₘ B) := by
    have next := old.resyncBins survivors s.bins.nodup fun e inside => (s.bins.mem_entries e.1 e.2).mp inside
    rw [add_zero] at next
    exact next
  refine wp_seq (M := fun found w => Keeping t (.holding (found.1.map (·.uaSubscription))) w)
    (section_keeps keeping resynced) fun found v keeping => ?_
  refine wp_seq (M := fun _ w => Keeping t .empty w) ?_ fun _ v keeping => ?_
  · refine wp_forEach (K := fun bins w => Keeping t (.holding (bins.map (·.uaSubscription))) w)
      (fun bin bins w keeping => ?_) found.1 keeping
    have holding : Keeping t ⟨bin.uaSubscription ::ₘ ↑(bins.map (·.uaSubscription)), 0, none⟩ w := keeping
    exact wp_seq (delete_keeps holding) fun _ w keeping => keeping
  · have refreshed : Keeps settings upstream (do
        let ids ← locked .main fun s => (s.subscriptions.keys, s, [])
        Program.forEach ids fun id => updateSubscriptionMode id) := by
      refine .bind (.look fun _ => rfl) fun ids => .forEach fun id => .apart fun s => ?_
      unfold updateSubscriptionModeSection
      split
      · exact ⟨rfl, rfl⟩
      · dsimp only
        split
        · exact ⟨rfl, rfl⟩
        · split <;> exact ⟨rfl, rfl⟩
    refine wp_seq (Keeps.forEach (fun nodeId => .bind (.look (idleMonitor_looks nodeId)) fun idle => ?_) t v keeping)
      fun _ v keeping => refreshed t v keeping
    cases idle with
    | none => exact .ret _
    | some ref => exact startNodeMonitorRuntime_keeps settings upstream ref nodeId

theorem monitorProgram_keeps (call : MonitorCall) : Keeps settings upstream (monitorProgram settings call) := by
  cases call with
  | acquireNodeMonitor nodeId id => exact acquireNodeMonitor_keeps settings upstream nodeId id
  | releaseNodeMonitor nodeId id => exact releaseNodeMonitor_keeps settings upstream nodeId id
  | clientReconnect survivors => exact handleClientReconnect_keeps settings upstream survivors
  | clockTick elapsed =>
      refine fun _ _ keeping => keeping.acting fun new returns => ?_
      exact (keeping.holds new returns).of_bins rfl rfl

end

theorem conserved_start : Conserved (.empty : ServiceState V) [] 0 where
  keyed := nofun
  issued _ := nofun
  numbered := Multiset.nodup_zero
  separate := Multiset.nodup_zero
  origin _ := nofun
  kept _ := fun ⟨_, _, inside⟩ => absurd inside List.not_mem_nil
  recent _ := nofun

theorem reachable_conserved {c : MonitorConfig V} (h : MonitorsReachable settings upstream c)
    (new : Throughout ReturnsNew c.history) (returns : Throughout FirstSubscribeReturns c.history) :
    ∃ B : Multiset CustodyEntry, Conserved c.state c.history B ∧ ∀ e ∈ B, c.InFlight e.tag := by
  have calls (v : MonitorView V Custody) (call : MonitorCall) (distinct : Distinct v.bag v.history v.calls)
      (inv : CustodyInv v.state v.history v.bag) :
      wp (monitors settings upstream).mayReply (Named CustodyInv) ⟨v.calls, call⟩
        (Ends CustodyInv ⟨v.calls, call⟩) (monitorProgram settings call) (v.issued call) := by
    have issued : Keeping ⟨v.calls, call⟩ .empty (v.issued call) := by
      refine ⟨distinct.spawn call, fun new returns => ?_⟩
      have old := inv (throughout_cons.mp new).2 (throughout_cons.mp returns).2
      exact (old.enter _).silent fun _ _ _ => nofun
    refine wp_mono (monitorProgram_keeps settings upstream call _ _ issued) fun o w keeping => ?_
    refine ⟨keeping.running, fun new returns => ?_⟩
    have old := keeping.holds (throughout_cons.mp new).2 (throughout_cons.mp returns).2
    exact old.leave.silent fun _ _ _ => nofun
  obtain ⟨v, machine, _, inv, inFlight⟩ := reachable_named (fun _ _ => conserved_start)
    (fun v call distinct inv _ => calls v call distinct inv) h
  have state : v.state = c.state := congrArg Machine.state machine
  have history : v.history = c.history := congrArg Machine.history machine
  rw [state, history] at inv
  exact ⟨v.bag, inv new returns, fun e inside => (inFlight e.tag).mp ⟨e, (v.mem_bag e).mp inside, rfl⟩⟩

/-- In every run in which creations return new objects and no first subscribe call on
a new subscription raises, whenever no call is in flight each subscription that was
created is the one of exactly one bin, or its deletion has been requested. -/
theorem upstream_conserved {c : MonitorConfig V} (h : MonitorsReachable settings .any c)
    (new : Throughout ReturnsNew c.history) (returns : Throughout FirstSubscribeReturns c.history)
    (quiet : ∀ t, ¬ c.InFlight t) :
    ∀ ua, Created c.history ua → InOneBin c.state ua ∨ Deleted c.history ua := by
  obtain ⟨B, conserved, inFlight⟩ := reachable_conserved h new returns
  have nobody : B = 0 := Multiset.eq_zero_of_forall_notMem fun e inside => quiet e.tag (inFlight e inside)
  subst nobody
  have only : holdings c.state 0 = binned c.state := add_zero _
  intro ua created
  refine (conserved.kept ua created).imp_left fun inside => ?_
  rw [only] at inside
  have separate := conserved.separate
  rw [only] at separate
  exact inOneBin_of_mem separate inside

/-- The first inlet is acquired; the decisions end before the subscribe call returns. -/
def opening : List MonitorDecision :=
  [.spawn (.acquireNodeMonitor "ns=2;s=abc" 0), .grant .main, .reply 0 obliging, .grant .admission,
    .grant .main, .grant .main, .reply 0 obliging]

/-- Its monitor gets a bin of its own and is released again. -/
def acquiredThenReleased : List MonitorDecision :=
  opening ++ [.reply 0 obliging, .grant .main, .spawn (.releaseNodeMonitor "ns=2;s=abc" 0), .grant .main,
    .grant .main, .reply 0 obliging]

def isCreation : MonitorEvent Int → Bool
  | .replied _ (.createDatachangeSubscription _) _ => true
  | _ => false

def isRaise : MonitorEvent Int → Bool
  | .replied _ (.subscribeDataChanges _ _) none => true
  | _ => false

def isDeletion : MonitorEvent Int → Bool
  | .requested _ (.deleteSubscription _) => true
  | _ => false

/-- At most one subscription is created. -/
def createsOnce : MonitorHistory Int → Bool
  | [] => true
  | event :: h => if isCreation event then h.all (fun other => !isCreation other) else createsOnce h

theorem returnsNew_of_once {h : MonitorHistory Int} (once : createsOnce h = true) : Throughout ReturnsNew h := by
  have unseen {earlier : MonitorHistory Int} (none_ : earlier.all (fun other => !isCreation other) = true)
      (event : MonitorEvent Int) : ReturnsNew event earlier := by
    unfold ReturnsNew
    split
    · rintro ⟨t, binId, inside⟩
      exact absurd (List.all_eq_true.mp none_ _ inside) Bool.false_ne_true
    · trivial
  induction h with
  | nil => exact .nil
  | cons event h ih =>
      rw [createsOnce] at once
      refine throughout_cons.mpr ?_
      by_cases creates : isCreation event = true
      · rw [if_pos creates] at once
        refine ⟨unseen once event, ?_⟩
        rintro later other earlier rfl
        refine unseen (List.all_eq_true.mpr fun e inside => List.all_eq_true.mp once e ?_) other
        exact List.mem_append_right _ (List.mem_cons_of_mem _ inside)
      · rw [if_neg creates] at once
        refine ⟨?_, ih once⟩
        unfold ReturnsNew
        split
        · exact absurd rfl creates
        · trivial

theorem firstSubscribeReturns_of_none {h : MonitorHistory Int} (none_ : h.all (fun event => !isRaise event) = true) :
    Throughout FirstSubscribeReturns h := by
  rintro later event earlier rfl
  have here := List.all_eq_true.mp none_ event (List.mem_append_right _ List.mem_cons_self)
  unfold FirstSubscribeReturns
  split
  · exact absurd here Bool.false_ne_true
  · trivial

theorem upstream_conserved_released : ∃ c, monitorRun .any acquiredThenReleased = some c ∧
    Throughout ReturnsNew c.history ∧ Throughout FirstSubscribeReturns c.history ∧ (∀ t, ¬ c.InFlight t) ∧
    ∀ ua, Created c.history ua → InOneBin c.state ua ∨ Deleted c.history ua := by
  have checked : (monitorRun .any acquiredThenReleased).map (fun c =>
      createsOnce c.history && c.history.all (fun event => !isRaise event) && atRest c) = some true := by
    decide +kernel
  obtain ⟨c, done, facts⟩ := Option.map_eq_some_iff.mp checked
  simp only [Bool.and_eq_true] at facts
  obtain ⟨⟨once, unraised⟩, rest⟩ := facts
  have new := returnsNew_of_once once
  have returns := firstSubscribeReturns_of_none unraised
  have quiet := not_inFlight_of_atRest rest
  refine ⟨c, done, new, returns, quiet, ?_⟩
  exact upstream_conserved (monitorRun_reachable done fun d _ => honest_any d) new returns quiet

/-! ## A raising subscribe call -/

/-- An upstream whose subscribe calls raise. -/
def raising : (q : Request Int) → Option (Reply q)
  | .subscribeDataChanges _ _ => some none
  | q => obliging q

/-- The subscribe call raises, and the monitor is polled instead. -/
def openingRaises : List MonitorDecision := opening ++ [.reply 0 raising, .grant .main]

def creates (ua : UaSubscription) : MonitorEvent Int → Bool
  | .replied _ (.createDatachangeSubscription _) (some other) => decide (other = ua)
  | _ => false

theorem created_of_any {h : MonitorHistory Int} {ua : UaSubscription} (some_ : h.any (creates ua) = true) :
    Created h ua := by
  obtain ⟨event, inside, made⟩ := List.any_eq_true.mp some_
  unfold creates at made
  split at made
  · rename_i t binId other
    rw [of_decide_eq_true made] at inside
    exact ⟨t, binId, inside⟩
  · exact absurd made Bool.false_ne_true

/-- The new subscription is in no bin, and nobody ever asked to delete it. -/
theorem raising_subscribe_leaks : ∃ c : MonitorConfig Int, MonitorsReachable smallServer .any c ∧
    Throughout ReturnsNew c.history ∧ (∀ t, ¬ c.InFlight t) ∧
    ∃ ua, Created c.history ua ∧ ¬ InOneBin c.state ua ∧ ¬ Deleted c.history ua := by
  have checked : (monitorRun .any openingRaises).map (fun c =>
      createsOnce c.history && c.history.any (creates ⟨0, 1000⟩) && c.history.all (fun event => !isDeletion event) &&
        c.state.bins.keys.isEmpty && atRest c) = some true := by
    decide +kernel
  obtain ⟨c, done, facts⟩ := Option.map_eq_some_iff.mp checked
  simp only [Bool.and_eq_true] at facts
  obtain ⟨⟨⟨⟨once, created⟩, undeleted⟩, unbinned⟩, rest⟩ := facts
  refine ⟨c, monitorRun_reachable done fun d _ => honest_any d, returnsNew_of_once once,
    not_inFlight_of_atRest rest, ⟨0, 1000⟩, created_of_any created, ?_, ?_⟩
  · rintro ⟨binId, bin, found, _⟩
    have there : binId ∈ c.state.bins.keys := (Dict.mem_keys _ _).mpr ⟨bin, found⟩
    rw [List.isEmpty_iff.mp unbinned] at there
    exact List.not_mem_nil there
  · rintro ⟨t, inside⟩
    exact absurd (List.all_eq_true.mp undeleted _ inside) Bool.false_ne_true

end I3x.Subscriptions

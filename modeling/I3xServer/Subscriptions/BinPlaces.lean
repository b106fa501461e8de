import I3xServer.Subscriptions.NativeBins

/-!
# Runs of the node monitors

A call that will leave a bin queues for the main lock as soon as its monitor is
unregistered, so it stands before every later monitor of the node that chooses a slot.
-/
namespace I3x.Subscriptions
open Container Coroutine Program
variable {V : Type}

/-- Whoever is to leave a bin waits for the main lock, and not behind a later
admission of the node that is about to choose its slot. -/
structure Ordered (v : MonitorView V Stage) : Prop where
  main : (v.queue .main).Pairwise fun e e' => ∀ nodeId binId,
    e.ghost.IsChoosing v.state nodeId → e'.ghost ≠ .leaving nodeId binId
  admission : ∀ e ∈ v.queue .admission, ∀ nodeId binId, e.ghost ≠ .leaving nodeId binId
  idle : ∀ e ∈ v.idle, ∀ nodeId binId, e.ghost ≠ .leaving nodeId binId

/-- The invariant of the suspended calls, while admissions do not overlap. -/
def PlacesInv (caps : Capabilities) (v : MonitorView V Stage) : Prop :=
  Throughout SingleAdmission v.history →
    BinsInv caps v.state v.history (v.held .admission) v.bag ∧ Ordered v

/-- The same as the running task sees it, when it could suspend in stage `g`. -/
def Stands (caps : Capabilities) (t : MonitorTag) (g : Stage) (v : MonitorView V Stage) : Prop :=
  Throughout SingleAdmission v.history →
    BinsInv caps v.state v.history (v.held .admission) (⟨t, g⟩ ::ₘ v.bag) ∧ Ordered v

/-- An upstream with constant capabilities, of which nothing else is assumed. -/
def Upstream.constant (caps : Capabilities) : Upstream V := fun q r =>
  match q with
  | .getSubscriptionCapabilities => r = caps
  | _ => True

section
variable {caps : Capabilities} {settings : Settings V} {t : MonitorTag} {g g' : Stage} {v w : MonitorView V Stage}

theorem Ordered.move (ordered : Ordered v) (queue : w.queue = v.queue) (idle : w.idle = v.idle)
    (sound : ∀ e ∈ v.queue .main, e.ghost.Sound caps v.state)
    (registered : ∀ {nodeId ref}, w.state.nodeMonitors.get? nodeId = some ref →
      v.state.nodeMonitors.get? nodeId = some ref ∨ v.state.nextMonitor ≤ ref) : Ordered w where
  main := by
    rw [queue]
    refine ordered.main.imp_of_mem fun {e e'} inside _ apart nodeId binId choosing => apart nodeId binId ?_
    have issued := sound e inside
    obtain ⟨tag, ghost⟩ := e
    cases ghost with
    | admitting ref other phase =>
        cases phase with
        | choosing =>
            obtain ⟨same, there⟩ := choosing
            exact ⟨same, (registered there).resolve_right (Nat.not_le.mpr issued.1)⟩
        | _ => exact choosing
    | _ => exact choosing
  admission := by
    rw [queue]
    exact ordered.admission
  idle := by
    rw [idle]
    exact ordered.idle

theorem bag_congr (queue : w.queue = v.queue) (idle : w.idle = v.idle) : w.bag = v.bag := by
  unfold View.bag
  rw [queue, idle]

/-- The notes of all sections but the ones that frame an admission. -/
def Plain (ns : List (Note V)) : Prop := ∀ n ∈ ns, ∀ ref, n ≠ .admissionEnded ref

theorem admitting_noted {ns : List (Note V)} {h : MonitorHistory V} {ref : MonitorRef} (plain : Plain ns)
    (admitting : Admitting ref h) : Admitting ref (Coroutine.noted t ns ++ h) := by
  induction ns generalizing h with
  | nil => exact admitting
  | cons n ns ih =>
      rw [noted_cons]
      refine ih (fun m inside => plain m (List.mem_cons_of_mem n inside)) ?_
      cases n with
      | admissionStarted other => exact .inr admitting
      | admissionEnded other => exact absurd rfl (plain _ List.mem_cons_self other)
      | _ => exact admitting

/-- The running task moves on; who waits for what stays. -/
theorem Stands.step (stands : Stands caps t g v) (queue : w.queue = v.queue) (idle : w.idle = v.idle)
    (more : MonitorHistory V) (history : w.history = more ++ v.history)
    (moves : Throughout SingleAdmission w.history →
      BinsInv caps v.state v.history (v.held .admission) (⟨t, g⟩ ::ₘ v.bag) →
      BinsInv caps w.state w.history (w.held .admission) (⟨t, g'⟩ ::ₘ v.bag))
    (registered : ∀ {nodeId ref}, w.state.nodeMonitors.get? nodeId = some ref →
      v.state.nodeMonitors.get? nodeId = some ref ∨ v.state.nextMonitor ≤ ref) : Stands caps t g' w := by
  intro single
  have earlier := single
  rw [history] at earlier
  obtain ⟨inv, ordered⟩ := stands earlier.append_right
  rw [bag_congr queue idle]
  refine ⟨moves single inv, ordered.move queue idle (fun e inside => inv.sound e (Multiset.mem_cons_of_mem ?_)) registered⟩
  exact (v.mem_bag e).mpr (.inl ⟨.main, inside⟩)

variable {α : Type} {mayReply : ServiceState V → ServiceState V → (q : Request V) → Reply q → Prop}

theorem admission_ne_main : Lock.admission ≠ .main := nofun

theorem queue_enqueue_other (e : StageEntry) : (v.enqueue Lock.main e).queue .admission = v.queue .admission := by
  simp only [View.enqueue, Function.update_of_ne admission_ne_main]

theorem queue_ahead_other (e : StageEntry) : (v.ahead Lock.main e).queue .admission = v.queue .admission := by
  simp only [View.ahead, Function.update_of_ne admission_ne_main]

theorem Stands.setMain (stands : Stands caps t g v) (b : Bool) : Stands caps t g (v.setHeld .main b) := by
  intro single
  have held : (v.setHeld .main b).held .admission = v.held .admission := by
    simp only [View.setHeld, View.withMachine, Machine.setHeld, Function.update_of_ne admission_ne_main]
  obtain ⟨inv, ordered⟩ := stands single
  rw [held]
  exact ⟨inv, ordered.main, ordered.admission, ordered.idle⟩

/-- A task that waits for the main lock; when it runs, nobody behind it leaves the bin
of the node for which it chooses a slot. -/
theorem lock_stands {post : α → MonitorView V Stage → Prop} {k : Act V α} (stands : Stands caps t g v)
    (leaves : ∀ nodeId binId, g = .leaving nodeId binId → Throughout SingleAdmission v.history →
      v.state.nodeMonitors.get? nodeId = none)
    (resume : ∀ v' : MonitorView V Stage, Stands caps t g v' →
      (Throughout SingleAdmission v'.history → Cleared g v'.state v'.bag) →
        wp mayReply (PlacesInv caps) t post k (v'.setHeld .main true)) :
    wp mayReply (PlacesInv caps) t post (.lock .main k) v := by
  refine ⟨g, fun single => ?_, fun v' _ inv => resume v' (fun single => ?_) fun single => ?_⟩
  · obtain ⟨inv, ordered⟩ := stands single
    refine ⟨by rw [View.bag_enqueue]; exact inv, ?_, ?_, ordered.idle⟩
    · simp only [View.enqueue, Function.update_self]
      refine List.pairwise_append.mpr ⟨ordered.main, List.pairwise_singleton _ _, ?_⟩
      intro e _ e' last nodeId binId choosing same
      cases List.mem_singleton.mp last
      have gone := leaves nodeId binId same single
      obtain ⟨tag, ghost⟩ := e
      cases ghost with
      | admitting ref other phase =>
          cases phase with
          | choosing => cases gone.symm.trans choosing.2
          | _ => exact choosing
      | _ => exact choosing
    · rw [queue_enqueue_other]
      exact ordered.admission
  · obtain ⟨inv, ordered⟩ := inv single
    rw [View.bag_ahead] at inv
    have main := ordered.main
    simp only [View.ahead, Function.update_self] at main
    refine ⟨inv, (List.pairwise_cons.mp main).2, ?_, ordered.idle⟩
    have admission := ordered.admission
    rwa [queue_ahead_other] at admission
  · obtain ⟨inv, ordered⟩ := inv single
    have main := ordered.main
    simp only [View.ahead, Function.update_self] at main
    have admission := ordered.admission
    rw [queue_ahead_other] at admission
    intro nodeId choosing e inside binId
    rcases (v'.mem_bag e).mp inside with ⟨l, queued⟩ | parked
    · cases l with
      | main => exact (List.pairwise_cons.mp main).1 e queued nodeId binId choosing
      | admission => exact admission e queued nodeId binId
    · exact ordered.idle e parked nodeId binId

/-- What a section does to the stage of its call. -/
structure Moves (caps : Capabilities) (g g' : Stage) (s s' : ServiceState V) : Prop where
  inv : ∀ {t h locked B}, BinsInv caps s h locked (⟨t, g⟩ ::ₘ B) → Cleared g s B →
    BinsInv caps s' h locked (⟨t, g'⟩ ::ₘ B)
  registered : ∀ {nodeId ref}, s'.nodeMonitors.get? nodeId = some ref →
    s.nodeMonitors.get? nodeId = some ref ∨ s.nextMonitor ≤ ref

/-- The running task executes a section without suspension. -/
theorem Stands.acting {f : Section V α} (stands : Stands caps t g v)
    (cleared : Throughout SingleAdmission v.history → Cleared g v.state v.bag)
    (moves : Moves caps g g' v.state (f v.state).2.1) (plain : Plain (f v.state).2.2) :
    Stands caps t g' (v.acting t (fun s => (f s).2.1) fun s => (f s).2.2) := by
  refine stands.step rfl rfl (Coroutine.noted t (f v.state).2.2) rfl (fun single inv => ?_) moves.registered
  have noting : Throughout SingleAdmission (Coroutine.noted t (f v.state).2.2 ++ v.history) := single
  have earlier : Throughout SingleAdmission v.history := noting.append_right
  exact (moves.inv inv (cleared earlier)).later fun ref => admitting_noted plain

/-- A critical section. What it says about its result and the state it leaves is known
as long as admissions do not overlap. -/
theorem section_stands {f : Section V α} (next : α → ServiceState V → Stage) (fact : α → ServiceState V → Prop)
    (stands : Stands caps t g v)
    (leaves : ∀ nodeId binId, g = .leaving nodeId binId → Throughout SingleAdmission v.history →
      v.state.nodeMonitors.get? nodeId = none)
    (moves : ∀ s, Moves caps g (next (f s).1 (f s).2.1) s (f s).2.1) (plain : ∀ s, Plain (f s).2.2)
    (facts : ∀ s, Tied s → fact (f s).1 (f s).2.1) :
    wp mayReply (PlacesInv caps) t
      (fun a w => Stands caps t (next a w.state) w ∧ (Throughout SingleAdmission w.history → fact a w.state))
      (locked .main f) v := by
  refine lock_stands stands leaves fun v' stands cleared => ⟨?_, fun single => ?_⟩
  · exact ((stands.setMain true).acting cleared (moves v'.state) (plain v'.state)).setMain false
  · have noting : Throughout SingleAdmission (Coroutine.noted t (f v'.state).2.2 ++ v'.history) := single
    have earlier : Throughout SingleAdmission v'.history := noting.append_right
    exact facts _ (stands earlier).1.tied

theorem await_stands (stands : Stands caps t g v) (stays : ∀ nodeId binId, g ≠ .leaving nodeId binId) (q : Request V) :
    wp (monitors settings (.constant caps)).mayReply (PlacesInv caps) t
      (fun r w => Upstream.constant caps q r ∧ Stands caps t g w) (await q) v := by
  refine wp_ask g (fun single => ?_) fun v' r may inv => ⟨may, fun single => ?_⟩
  · obtain ⟨inv, ordered⟩ := stands (throughout_cons.mp single).2
    refine ⟨?_, ordered.main, ordered.admission, fun e inside => ?_⟩
    · rw [View.bag_park]
      exact inv.later fun ref admitting => admitting
    · rcases Multiset.mem_cons.mp inside with rfl | other
      · exact stays
      · exact ordered.idle e other
  · obtain ⟨inv, ordered⟩ := inv (throughout_cons.mp single).2
    rw [View.bag_park] at inv
    refine ⟨inv.later fun ref admitting => admitting, ordered.main, ordered.admission, fun e inside => ?_⟩
    exact ordered.idle e (Multiset.mem_cons_of_mem inside)

theorem acquire_admission {ref : MonitorRef} {nodeId : String}
    (stands : Stands caps t (.admitting ref nodeId .waiting) v) :
    wp mayReply (PlacesInv caps) t (fun _ w => Stands caps t (.admitting ref nodeId .choosing) w)
      (acquire .admission) v := by
  have main (v : MonitorView V Stage) (e : StageEntry) : (v.enqueue Lock.admission e).queue .main = v.queue .main := by
    simp only [View.enqueue, Function.update_of_ne admission_ne_main.symm]
  have ahead (v : MonitorView V Stage) (e : StageEntry) : (v.ahead Lock.admission e).queue .main = v.queue .main := by
    simp only [View.ahead, Function.update_of_ne admission_ne_main.symm]
  refine ⟨.admitting ref nodeId .waiting, fun single => ?_, fun v' free inv single => ?_⟩
  · obtain ⟨inv, ordered⟩ := stands single
    refine ⟨by rw [View.bag_enqueue]; exact inv, by rw [main]; exact ordered.main, ?_, ordered.idle⟩
    simp only [View.enqueue, Function.update_self]
    intro e inside
    rcases List.mem_append.mp inside with before | last
    · exact ordered.admission e before
    · cases List.mem_singleton.mp last
      intro nodeId binId leaves
      cases leaves
  · obtain ⟨inv, ordered⟩ := inv single
    rw [View.bag_ahead] at inv
    have unlocked : (v'.ahead Lock.admission ⟨t, .admitting ref nodeId .waiting⟩).held .admission = false := free
    rw [unlocked] at inv
    have held : (v'.setHeld Lock.admission true).held .admission = true := by
      simp only [View.setHeld, View.withMachine, Machine.setHeld, Function.update_self]
    have order := ordered.main
    have rest := ordered.admission
    rw [ahead] at order
    simp only [View.ahead, Function.update_self] at rest
    rw [held]
    exact ⟨inv.take, order, fun e inside => rest e (List.mem_cons_of_mem _ inside), ordered.idle⟩

theorem release_admission {ref : MonitorRef} {nodeId : String} {phase : Phase} (holds : phase.holds = true)
    (stands : Stands caps t (.admitting ref nodeId phase) v) :
    wp mayReply (PlacesInv caps) t (fun _ w => Stands caps t (.admitting ref nodeId phase.released) w)
      (release .admission) v := by
  intro single
  obtain ⟨inv, ordered⟩ := stands single
  exact ⟨inv.give holds, ordered.main, ordered.admission, ordered.idle⟩

/-! ## Admissions -/

theorem Moves.of_looks {s : ServiceState V}
    (inv : ∀ {t h locked B}, BinsInv caps s h locked (⟨t, g⟩ ::ₘ B) → Cleared g s B → BinsInv caps s h locked (⟨t, g'⟩ ::ₘ B)) :
    Moves caps g g' s s := ⟨inv, .inl⟩

theorem startPollingNodeMonitor_stands {ref : MonitorRef} {nodeId : String}
    (stands : Stands caps t (.admitting ref nodeId .waiting) v) :
    wp mayReply (PlacesInv caps) t (fun _ w => Stands caps t (.admitting ref nodeId .ending) w)
      (startPollingNodeMonitor ref nodeId) v := by
  refine wp_mono (section_stands (fun _ _ => .admitting ref nodeId .ending) (fun _ _ => True) stands
    (fun _ _ => nofun) (fun s => ⟨fun old _ => old.startPolling, ?_⟩) (fun s => ?_) fun _ _ => trivial) fun _ _ both => both.1
  · unfold startPollingSection
    split
    · exact .inl
    · exact .inl
  · unfold startPollingSection
    split
    · exact fun _ => nofun
    · exact fun _ => nofun

theorem Phase.answered_holds (a : Option Bool) : (Phase.answered a).holds = true := by
  match a with
  | some true => rfl
  | some false => rfl
  | none => rfl

theorem Phase.answered_released (a : Option Bool) :
    (Phase.answered a).released = if a = some true then .ending else .waiting := by
  match a with
  | some true => rfl
  | some false => rfl
  | none => rfl

/-- Nothing came of an admission that had chosen its slot. -/
theorem Stands.fail {ref : MonitorRef} {nodeId : String} {phase : Phase}
    (stands : Stands caps t (.admitting ref nodeId phase) v) (late : phase.Chosen) :
    Stands caps t (.admitting ref nodeId .failing) v :=
  stands.step rfl rfl [] rfl (fun _ inv => inv.fail late) .inl

/-- The commit of a slot method, its lock included. -/
theorem commit_stands {ref : MonitorRef} {nodeId : String} {phase : Phase} {f : Section V Bool} {k : Bool → Act V α}
    {post : α → MonitorView V Stage → Prop} (stands : Stands caps t (.admitting ref nodeId phase) v) (late : phase.Chosen)
    (moves : ∀ s, Moves caps (.admitting ref nodeId phase) (.admitting ref nodeId (.answered (some (f s).1))) s (f s).2.1)
    (plain : ∀ s, Plain (f s).2.2)
    (rest : ∀ committed w, Stands caps t (.admitting ref nodeId (.answered (some committed))) w →
      wp mayReply (PlacesInv caps) t post (k committed) w) :
    wp mayReply (PlacesInv caps) t post (acquire .main >>= fun _ => atomic f >>= k) v := by
  refine lock_stands stands (fun _ _ => nofun) fun v' stands _ => ?_
  have elsewhere (s : ServiceState V) (B : Multiset StageEntry) : Cleared (.admitting ref nodeId phase) s B := by
    intro node choosing
    cases phase with
    | choosing => exact late.elim
    | _ => exact choosing.elim
  exact rest _ _ ((stands.setMain true).acting (fun _ => elsewhere _ _) (moves _) (plain _))

theorem openNewBin_stands {ref : MonitorRef} {nodeId : String} {capacity : Nat} (pos : 0 < capacity)
    (stands : Stands caps t (.admitting ref nodeId .allowed) v) :
    wp (monitors settings (.constant caps)).mayReply (PlacesInv caps) t
      (fun a w => Stands caps t (.admitting ref nodeId (.answered a)) w) (openNewBin ref nodeId capacity) v := by
  have opening (s : ServiceState V) : Moves caps (.admitting ref nodeId .allowed)
      (.admitting ref nodeId (.opening (freshBinSection s).1)) s (freshBinSection s).2.1 := ⟨fun old _ => old.freshBin, .inl⟩
  refine wp_seq (M := fun binId w => Stands caps t (.admitting ref nodeId (.opening binId)) w)
    (wp_atomic _ (stands.acting (fun _ _ choosing => False.elim choosing) (opening _) fun _ => nofun)) fun binId v stands => ?_
  refine wp_seq (await_stands stands (fun _ _ => nofun) _) fun created v ⟨_, stands⟩ => ?_
  cases created with
  | none => exact stands.fail trivial
  | some ua =>
      refine wp_seq (await_stands stands (fun _ _ => nofun) _) fun subscribed v ⟨_, stands⟩ => ?_
      match subscribed with
      | none => exact stands.fail trivial
      | some none =>
          exact wp_seq (await_stands stands (fun _ _ => nofun) _) fun _ v both => both.2.fail trivial
      | some (some handle) =>
          refine commit_stands stands trivial (fun s => ⟨fun old _ => old.commitNewBin ua pos handle, ?_⟩) (fun s => ?_)
            fun committed v stands => ?_
          · unfold commitNewBinSection
            split
            · exact .inl
            · exact .inl
          · unfold commitNewBinSection
            split
            · exact fun _ => nofun
            · exact fun _ => nofun
          · cases committed with
            | true => exact stands.setMain false
            | false =>
                refine wp_seq (await_stands stands (fun _ _ => nofun) _) fun (deleted : Bool) v both => ?_
                cases deleted with
                | true => exact both.2.setMain false
                | false => exact both.2.setMain false

theorem addNodeToBin_stands {ref : MonitorRef} {nodeId : String} {targetBin : ManagedBin}
    (stands : Stands caps t (.admitting ref nodeId (.adding targetBin.binId)) v) :
    wp (monitors settings (.constant caps)).mayReply (PlacesInv caps) t
      (fun a w => Stands caps t (.admitting ref nodeId (.answered a)) w) (addNodeToBin ref nodeId targetBin) v := by
  refine wp_seq (await_stands stands (fun _ _ => nofun) _) fun subscribed v ⟨_, stands⟩ => ?_
  match subscribed with
  | none => exact stands.fail trivial
  | some none => exact stands.fail trivial
  | some (some handle) =>
      refine commit_stands stands trivial (fun s => ⟨fun old _ => old.commitAdd handle, ?_⟩) (fun s => ?_)
        fun committed v stands => ?_
      · unfold commitAddSection
        split
        · split
          · exact .inl
          · exact .inl
        · exact .inl
      · unfold commitAddSection
        split
        · split
          · exact fun _ => nofun
          · exact fun _ => nofun
        · exact fun _ => nofun
      · cases committed with
        | true => exact stands.setMain false
        | false => exact wp_seq (await_stands stands (fun _ _ => nofun) _) fun _ v both => both.2.setMain false

theorem effectiveCapacity_pos (caps : Capabilities) : 0 < effectiveCapacity caps := by
  unfold effectiveCapacity minPositive
  cases caps.maxMonitoredItemsPerSubscription with
  | none => exact Nat.zero_lt_succ _
  | some n =>
      dsimp only
      split_ifs with pos
      · exact pos
      · exact Nat.zero_lt_succ _

theorem findNativeBinSlot_stands {ref : MonitorRef} {nodeId : String}
    (stands : Stands caps t (.admitting ref nodeId .choosing) v) :
    wp (monitors settings (.constant caps)).mayReply (PlacesInv caps) t
      (fun a w => Stands caps t (.admitting ref nodeId (.answered a)) w) (findNativeBinSlot ref nodeId caps) v := by
  have chooses (s : ServiceState V) : Moves caps (.admitting ref nodeId .choosing)
      (.admitting ref nodeId (slotSection caps s).1.phase) s (slotSection caps s).2.1 := by
    have same : (slotSection caps s).2.1 = s := congrArg Prod.fst (slot_looks caps s)
    rw [same]
    exact .of_looks fun old cleared => old.slot cleared
  have plain (s : ServiceState V) : Plain (slotSection caps s).2.2 := by
    rw [slot_looks caps s]
    exact fun _ => nofun
  refine wp_seq (section_stands (fun choice _ => .admitting ref nodeId choice.phase) (fun _ _ => True)
    stands (fun _ _ => nofun) chooses plain fun _ _ => trivial) fun choice v ⟨stands, _⟩ => ?_
  cases choice with
  | full => exact stands
  | into targetBin => exact addNodeToBin_stands stands
  | «open» =>
      have opens (s : ServiceState V) : Moves caps (.admitting ref nodeId .chosen)
          (.admitting ref nodeId (if (canOpenNewBinSection caps s).1 then .allowed else .failing)) s s :=
        .of_looks fun old _ => old.canOpen
      refine wp_seq (section_stands (fun can _ => .admitting ref nodeId (if can then .allowed else .failing))
        (fun _ _ => True) stands (fun _ _ => nofun) opens (fun _ _ => nofun) fun _ _ => trivial)
        fun can v ⟨stands, _⟩ => ?_
      cases can with
      | true => exact openNewBin_stands (effectiveCapacity_pos caps) stands
      | false => exact stands

theorem acquireNativeBinSlot_stands {ref : MonitorRef} {nodeId : String}
    (stands : Stands caps t (.admitting ref nodeId .waiting) v) :
    wp (monitors settings (.constant caps)).mayReply (PlacesInv caps) t
      (fun a w => Stands caps t (.admitting ref nodeId (if a = some true then .ending else .waiting)) w)
      (acquireNativeBinSlot ref nodeId caps) v := by
  refine wp_seq (acquire_admission stands) fun _ v stands => ?_
  refine wp_seq (findNativeBinSlot_stands stands) fun a v stands => ?_
  refine wp_seq (release_admission (Phase.answered_holds a) stands) fun _ v stands => ?_
  rw [Phase.answered_released] at stands
  exact stands

theorem admitNodeMonitor_stands {ref : MonitorRef} {nodeId : String}
    (stands : Stands caps t (.admitting ref nodeId .waiting) v) :
    wp (monitors settings (.constant caps)).mayReply (PlacesInv caps) t
      (fun _ w => Stands caps t (.admitting ref nodeId .ending) w) (admitNodeMonitor settings ref nodeId) v := by
  refine wp_seq (M := fun _ w => Stands caps t (.admitting ref nodeId .waiting) w) stands fun backingOff v stands => ?_
  cases backingOff with
  | true => exact startPollingNodeMonitor_stands stands
  | false =>
      refine wp_seq (await_stands stands (fun _ _ => nofun) _) fun answer v ⟨same, stands⟩ => ?_
      cases same
      refine wp_seq (acquireNativeBinSlot_stands stands) fun acquired v stands => ?_
      match acquired with
      | some true => exact stands
      | some false => exact startPollingNodeMonitor_stands stands
      | none =>
          refine wp_seq (M := fun _ w => Stands caps t (.admitting ref nodeId .waiting) w) ?_
            fun _ v stands => startPollingNodeMonitor_stands stands
          refine stands.step rfl rfl [] rfl (fun _ inv => ?_) .inl
          exact inv.same ⟨rfl, Nat.le_refl _, Nat.le_refl _, fun _ => ⟨rfl, rfl⟩, .inl⟩
            (inv.tied.tidy.congr rfl rfl fun _ => rfl) id

/-- One admission of a monitor that is in no bin. -/
theorem startNodeMonitorRuntime_stands {ref : MonitorRef} {nodeId : String} (stands : Stands caps t .free v)
    (sound : Throughout SingleAdmission v.history → (Stage.admitting ref nodeId .waiting).Sound caps v.state) :
    wp (monitors settings (.constant caps)).mayReply (PlacesInv caps) t (fun _ w => Stands caps t .free w)
      (startNodeMonitorRuntime settings ref nodeId) v := by
  refine wp_seq (M := fun _ w => Stands caps t (.admitting ref nodeId .waiting) w) ?_ fun _ v stands => ?_
  · refine stands.step rfl rfl ([.noted t (.admissionStarted ref)]) rfl (fun single inv => ?_) .inl
    obtain ⟨apart, earlier⟩ := throughout_cons.mp single
    exact inv.start (sound earlier) apart
  · refine wp_seq (admitNodeMonitor_stands stands) fun _ v stands => ?_
    exact stands.step rfl rfl ([.noted t (.admissionEnded ref)]) rfl (fun _ inv => inv.finish) .inl

/-! ## The programs -/

theorem Plain.performed (op : MonitorOp) (wanted : Bool) : Plain ([.performed op wanted] : List (Note V)) := by
  intro n inside ref
  rw [List.mem_singleton.mp inside]
  exact nofun

theorem acquireSection_plain (nodeId : String) (id : SubscriptionId) (s : ServiceState V) :
    Plain (acquireSection nodeId id s).2.2 := by
  unfold acquireSection
  split
  · exact .performed _ _
  · exact .performed _ _

theorem releaseSection_plain (nodeId : String) (id : SubscriptionId) (s : ServiceState V) :
    Plain (releaseSection nodeId id s).2.2 := by
  unfold releaseSection
  split
  · exact .performed _ _
  · dsimp only
    split
    · exact .performed _ _
    · exact .performed _ _

theorem acquireNodeMonitor_stands (nodeId : String) (id : SubscriptionId) (stands : Stands caps t .free v) :
    wp (monitors settings (.constant caps)).mayReply (PlacesInv caps) t (fun _ w => Stands caps t .free w)
      (acquireNodeMonitor settings nodeId id) v := by
  have moves (s : ServiceState V) : Moves caps .free .free s (acquireSection nodeId id s).2.1 :=
    ⟨fun old _ => old.acquire nodeId id, fun there =>
      ((acquireSection_places nodeId id).registered there).imp_right And.left⟩
  refine wp_seq (section_stands (fun _ _ => .free)
    (fun registered s => ∀ ref, registered = some ref → (Stage.admitting ref nodeId .waiting).Sound caps s)
    stands (fun _ _ => nofun) moves (acquireSection_plain nodeId id) fun s _ ref new => acquireSection_new new)
    fun registered v ⟨stands, sound⟩ => ?_
  cases registered with
  | none => exact stands
  | some ref => exact startNodeMonitorRuntime_stands stands fun single => sound single ref rfl

/-- The node has no monitor, and the monitor no node. -/
def Orphaned (s : ServiceState V) (nodeId : String) (ref : MonitorRef) : Prop :=
  s.nodeMonitors.get? nodeId = none ∧ ∀ other, s.nodeMonitors.get? other ≠ some ref

theorem releaseSection_orphaned {s : ServiceState V} (tidy : Tidy s) {nodeId : String} {id : SubscriptionId}
    {ref : MonitorRef} (orphaned : (releaseSection nodeId id s).1 = some ref) :
    Orphaned (releaseSection nodeId id s).2.1 nodeId ref := by
  unfold releaseSection at orphaned ⊢
  cases found : s.nodeMonitors.get? nodeId with
  | none =>
      rw [found] at orphaned
      cases orphaned
  | some at_ =>
      rw [found] at orphaned
      dsimp only at orphaned ⊢
      split_ifs at orphaned ⊢ with last
      · cases orphaned
        refine ⟨Dict.get?_erase_self _ _, fun other there => ?_⟩
        rw [Dict.get?_erase] at there
        split_ifs at there with apart
        exact apart (tidy.single there found)

theorem releaseSection_registered_old {s : ServiceState V} {nodeId other : String} {id : SubscriptionId} {ref : MonitorRef}
    (there : (releaseSection nodeId id s).2.1.nodeMonitors.get? other = some ref) :
    s.nodeMonitors.get? other = some ref := by
  unfold releaseSection at there
  split at there
  · exact there
  · dsimp only at there
    split_ifs at there
    · rw [Dict.get?_erase] at there
      split_ifs at there
      exact there
    · exact there

/-- What holds once the monitor of a node is cleared, with the bin it was in. -/
def ClearedFrom (caps : Capabilities) (t : MonitorTag) (nodeId : String) (v : MonitorView V Stage) : Option BinId → Prop
  | none => Stands caps t .free v
  | some binId => Stands caps t (.leaving nodeId binId) v ∧
      (Throughout SingleAdmission v.history → v.state.nodeMonitors.get? nodeId = none)

theorem stopNodeMonitorRuntime_stands {nodeId : String} {ref : MonitorRef}
    (stands : Stands caps t (.stopping v.state nodeId (some ref)) v)
    (orphaned : Throughout SingleAdmission v.history → Orphaned v.state nodeId ref) :
    wp (monitors settings (.constant caps)).mayReply (PlacesInv caps) t (fun _ w => Stands caps t .free w)
      (stopNodeMonitorRuntime ref nodeId) v := by
  have cleared : Stands caps t (.stopping v.state nodeId (some ref))
      (v.acting t (fun s => (clearMonitorSection ref s).2.1) fun s => (clearMonitorSection ref s).2.2) :=
    stands.step rfl rfl [] rfl (fun single inv => inv.clearMonitor (orphaned single).2) .inl
  refine wp_seq (M := fun binId w => ClearedFrom caps t nodeId w binId) (wp_atomic _ ?_) fun binId w after => ?_
  · cases place : (clearMonitorSection ref v.state).1 with
    | none =>
        have stage : Stage.stopping v.state nodeId (some ref) = .free := by
          simp only [Stage.stopping, show (v.state.monitor ref).binId = none from place]
        rw [stage] at cleared
        exact cleared
    | some binId =>
        have stage : Stage.stopping v.state nodeId (some ref) = .leaving nodeId binId := by
          simp only [Stage.stopping, show (v.state.monitor ref).binId = some binId from place]
        rw [stage] at cleared
        exact ⟨cleared, fun single => (orphaned single).1⟩
  · cases binId with
    | none => exact after
    | some binId =>
        obtain ⟨stands, gone⟩ := after
        have moves (s : ServiceState V) : Moves caps (.leaving nodeId binId) .free s (leaveBinSection nodeId binId s).2.1 := by
          refine ⟨fun old _ => old.leave, fun there => .inl ?_⟩
          rw [leaveBinSection_monitors] at there
          exact there
        have plain (s : ServiceState V) : Plain (leaveBinSection nodeId binId s).2.2 := by
          unfold leaveBinSection
          split
          · exact fun _ inside => absurd inside List.not_mem_nil
          · dsimp only
            split
            · exact fun _ inside => absurd inside List.not_mem_nil
            · exact fun _ inside => absurd inside List.not_mem_nil
        refine wp_seq (section_stands (fun _ _ => .free) (fun _ _ => True) stands ?_ moves plain
          fun _ _ => trivial) fun exit v after => ?_
        · rintro other number same single
          cases same
          exact gone single
        · have stands := after.1
          have stays (other : String) (number : BinId) : Stage.free ≠ .leaving other number := by
            intro same
            cases same
          cases exit with
          | gone => exact stands
          | emptied ua => exact wp_seq (await_stands stands stays _) fun _ v both => both.2
          | left ua handle =>
              cases handle with
              | some handle => exact wp_seq (await_stands stands stays _) fun _ v both => both.2
              | none => exact stands

theorem releaseNodeMonitor_stands (nodeId : String) (id : SubscriptionId) (stands : Stands caps t .free v) :
    wp (monitors settings (.constant caps)).mayReply (PlacesInv caps) t (fun _ w => Stands caps t .free w)
      (releaseNodeMonitor nodeId id) v := by
  have moves (s : ServiceState V) : Moves caps .free
      (.stopping (releaseSection nodeId id s).2.1 nodeId (releaseSection nodeId id s).1) s (releaseSection nodeId id s).2.1 :=
    ⟨fun old _ => old.release nodeId id, fun there => .inl (releaseSection_registered_old there)⟩
  refine wp_seq (section_stands (fun orphaned s => .stopping s nodeId orphaned)
    (fun orphaned s => ∀ ref, orphaned = some ref → Orphaned s nodeId ref)
    stands (fun _ _ => nofun) moves (releaseSection_plain nodeId id)
    fun s tied ref orphaned => releaseSection_orphaned tied.tidy orphaned) fun orphaned v ⟨stands, orphans⟩ => ?_
  cases orphaned with
  | none => exact stands
  | some ref => exact stopNodeMonitorRuntime_stands stands fun single => orphans single ref rfl

/-- An idle monitor is in no bin. -/
theorem idleMonitor_sound {s : ServiceState V} (tied : Tied s) {nodeId : String} {ref : MonitorRef}
    (idle : (idleMonitorSection nodeId s).1 = some ref) : (Stage.admitting ref nodeId .waiting).Sound caps s := by
  unfold idleMonitorSection at idle
  cases found : s.nodeMonitors.get? nodeId with
  | none =>
      rw [found] at idle
      cases idle
  | some at_ =>
      rw [found] at idle
      dsimp only at idle
      split_ifs at idle with mode
      · cases idle
        refine ⟨tied.tidy.fresh found, trivial, fun _ there => ?_⟩
        have coherent := tied.coherent there
        rw [mode] at coherent
        by_contra bound
        exact absurd (coherent.mpr bound) nofun

theorem section_same {f : Section V α} (stands : Stands caps t .free v)
    (same : ∀ s, ∃ subscriptions, (f s).2 = ({ s with subscriptions }, [])) :
    wp (monitors settings (.constant caps)).mayReply (PlacesInv caps) t (fun _ w => Stands caps t .free w)
      (locked .main f) v := by
  refine wp_mono (section_stands (fun _ _ => .free) (fun _ _ => True) stands (fun _ _ => nofun)
    (fun s => ?_) (fun s => ?_) fun _ _ => trivial) fun _ _ both => both.1
  · obtain ⟨subscriptions, result⟩ := same s
    rw [result]
    exact ⟨fun old _ => old.same ⟨rfl, Nat.le_refl _, Nat.le_refl _, fun _ => ⟨rfl, rfl⟩, .inl⟩
      (old.tied.tidy.congr rfl rfl fun _ => rfl) id, .inl⟩
  · obtain ⟨subscriptions, result⟩ := same s
    rw [result]
    exact fun _ => nofun

theorem updateSubscriptionMode_stands (id : SubscriptionId) (stands : Stands caps t .free v) :
    wp (monitors settings (.constant caps)).mayReply (PlacesInv caps) t (fun _ w => Stands caps t .free w)
      (updateSubscriptionMode id) v := by
  refine section_same stands fun s => ?_
  unfold updateSubscriptionModeSection
  split
  · exact ⟨_, rfl⟩
  · dsimp only
    split
    · exact ⟨_, rfl⟩
    · split
      · exact ⟨_, rfl⟩
      · exact ⟨_, rfl⟩

theorem handleClientReconnect_stands (survivors : Nat → Option (String → Option Int)) (stands : Stands caps t .free v) :
    wp (monitors settings (.constant caps)).mayReply (PlacesInv caps) t (fun _ w => Stands caps t .free w)
      (handleClientReconnect settings survivors) v := by
  have resyncs (s : ServiceState V) : Moves caps .free .free s (reconnectSection survivors s).2.1 := by
    refine ⟨fun old _ => old.reconnect survivors, fun there => .inl ?_⟩
    rw [show (reconnectSection survivors s).2.1.nodeMonitors = s.nodeMonitors from
      (resyncBins_sameRegistry s survivors _).nodeMonitors] at there
    exact there
  refine wp_seq (section_stands (fun _ _ => .free) (fun _ _ => True) stands (fun _ _ => nofun) resyncs
    (fun _ _ => nofun) fun _ _ => trivial) fun found v ⟨stands, _⟩ => ?_
  refine wp_seq (wp_forEach (K := fun _ w => Stands caps t .free w) (fun bin _ w stands => ?_) found.1 stands)
    fun _ v stands => ?_
  · exact wp_seq (await_stands stands (fun _ _ => nofun) _) fun _ w both => both.2
  refine wp_seq (wp_forEach (K := fun _ w => Stands caps t .free w) (fun nodeId _ w stands => ?_)
    (found.2.insertionSort (· ≤ ·)) stands) fun _ v stands => ?_
  · have looks (s : ServiceState V) : (idleMonitorSection nodeId s).2 = (s, []) := idleMonitor_looks nodeId s
    refine wp_seq (section_stands (fun _ _ => .free)
      (fun idle s => ∀ ref, idle = some ref → (Stage.admitting ref nodeId .waiting).Sound caps s)
      stands (fun _ _ => nofun) (fun s => ?_) (fun s => ?_) fun s tied ref idle => ?_) fun idle w ⟨stands, sound⟩ => ?_
    · rw [looks s]
      exact .of_looks fun old _ => old
    · rw [looks s]
      exact fun _ => nofun
    · rw [looks s]
      exact idleMonitor_sound tied idle
    · cases idle with
      | none => exact stands
      | some ref => exact startNodeMonitorRuntime_stands stands fun single => sound single ref rfl
  · refine wp_seq (section_same stands fun s => ⟨_, rfl⟩) fun ids v stands => ?_
    exact wp_forEach (K := fun _ w => Stands caps t .free w) (fun id _ w stands => updateSubscriptionMode_stands id stands)
      ids stands

theorem monitorProgram_stands (call : MonitorCall) (stands : Stands caps t .free v) :
    wp (monitors settings (.constant caps)).mayReply (PlacesInv caps) t (fun _ w => Stands caps t .free w)
      (monitorProgram settings call) v := by
  cases call with
  | acquireNodeMonitor nodeId id => exact acquireNodeMonitor_stands nodeId id stands
  | releaseNodeMonitor nodeId id => exact releaseNodeMonitor_stands nodeId id stands
  | clientReconnect survivors => exact handleClientReconnect_stands survivors stands
  | clockTick elapsed =>
      refine stands.step rfl rfl [] rfl (fun _ inv => ?_) .inl
      exact inv.same ⟨rfl, Nat.le_refl _, Nat.le_refl _, fun _ => ⟨rfl, rfl⟩, .inl⟩
        (inv.tied.tidy.congr rfl rfl fun _ => rfl) id

end
theorem bins_start (caps : Capabilities) (h : MonitorHistory V) : BinsInv caps .empty h false 0 where
  fit := ⟨nofun, nofun, fun _ _ => Nat.zero_le _, fun _ _ => Nat.zero_le _, fun _ _ => Nat.zero_le _⟩
  tied := ⟨⟨nofun, nofun, nofun⟩, nofun, fun ⟨_, there, _⟩ => nomatch there⟩
  placed inside := by
    obtain ⟨_, found, _⟩ := inside
    cases found
  sound _ := nofun
  admitting _ := nofun
  clear _ := nofun
  single := Multiset.nodup_zero
  holders := Nat.zero_le _

theorem reachable_places {caps : Capabilities} {settings : Settings V} {c : MonitorConfig V}
    (h : MonitorsReachable settings (.constant caps) c) (single : Throughout SingleAdmission c.history) :
    ∃ B : Multiset StageEntry, BinsInv caps c.state c.history (c.held .admission) B ∧ ∀ e ∈ B, c.InFlight e.tag := by
  have first : PlacesInv caps (View.start .empty : MonitorView V Stage) := by
    have nobody : (View.start .empty : MonitorView V Stage).bag = 0 := rfl
    intro _
    rw [nobody]
    exact ⟨bins_start caps _, .nil, fun _ => nofun, fun _ => nofun⟩
  have calls (v : MonitorView V Stage) (call : MonitorCall) (inv : PlacesInv caps v) :
      wp (monitors settings (.constant caps)).mayReply (PlacesInv caps) ⟨v.calls, call⟩
        (Finish (PlacesInv caps) ⟨v.calls, call⟩) (monitorProgram settings call) (v.issued call) := by
    have issued : Stands caps ⟨v.calls, call⟩ .free (v.issued call) := by
      intro single
      obtain ⟨inv, ordered⟩ := inv (throughout_cons.mp single).2
      exact ⟨(inv.enter _).later fun _ admitting => admitting, ordered.main, ordered.admission, ordered.idle⟩
    refine wp_mono (monitorProgram_stands call issued) fun o w stands single => ?_
    obtain ⟨inv, ordered⟩ := stands (throughout_cons.mp single).2
    exact ⟨inv.exit.later fun _ admitting => admitting, ordered.main, ordered.admission, ordered.idle⟩
  obtain ⟨v, machine, aligned, inv⟩ := reachable_represented (S := monitors settings (.constant caps))
    (I := PlacesInv caps) first (fun v call inv _ => calls v call inv) h
  have state : v.state = c.state := congrArg Machine.state machine
  have history : v.history = c.history := congrArg Machine.history machine
  have held : v.held = c.held := congrArg Machine.held machine
  have places := (inv (history ▸ single)).1
  rw [state, history, held] at places
  exact ⟨v.bag, places, fun e inside => (aligned.inFlight_iff e.tag).mp ⟨e, (v.mem_bag e).mp inside, rfl⟩⟩

/-- In every run in which no admission of a monitor starts during another one of the
same monitor, the bins and the native monitors are consistent whenever no call is in
flight. -/
theorem bins_consistent {caps : Capabilities} {settings : Settings V} {c : MonitorConfig V}
    (h : MonitorsReachable settings (.constant caps) c) (single : Throughout SingleAdmission c.history)
    (quiet : ∀ t, ¬ c.InFlight t) : BinInvariant caps c.state := by
  obtain ⟨B, inv, inFlight⟩ := reachable_places h single
  have placed {nodeId : String} {binId : BinId} (inside : InBin c.state nodeId binId) : Bound c.state nodeId binId :=
    (inv.placed inside).resolve_right fun ⟨e, there, _⟩ => quiet e.tag (inFlight e there)
  refine ⟨fun found => (inv.fit.filled found).1, fun found => (inv.fit.filled found).2, inv.fit.items,
    inv.fit.subscriptions, inv.fit.perSession, fun inside again => ?_, fun {nodeId ref} there binId => ⟨?_, fun inside => ?_⟩⟩
  · obtain ⟨ref, there, place⟩ := placed inside
    obtain ⟨other, there', place'⟩ := placed again
    cases there.symm.trans there'
    exact Option.some.inj (place.symm.trans place')
  · rintro ⟨_, place⟩
    exact inv.tied.bound ⟨ref, there, place⟩
  · obtain ⟨other, there', place⟩ := placed inside
    cases there.symm.trans there'
    exact ⟨(inv.tied.coherent there).mpr fun none_ => absurd (none_.symm.trans place) nofun, place⟩

/-- The monitors whose admission started, newest first. -/
def admissions : MonitorHistory V → List MonitorRef
  | [] => []
  | .noted _ (.admissionStarted ref) :: h => ref :: admissions h
  | _ :: h => admissions h

theorem mem_admissions {ref : MonitorRef} {h : MonitorHistory V} (admitting : Admitting ref h) : ref ∈ admissions h := by
  fun_induction Admitting ref h with
  | case1 => exact admitting.elim
  | case2 h t other ih =>
      rcases admitting with rfl | before
      · exact List.mem_cons_self
      · exact List.mem_cons_of_mem _ (ih before)
  | case3 h t other ih => exact ih admitting.2
  | case4 event h started ended ih =>
      rw [admissions]
      · exact ih admitting
      · exact started

theorem singleAdmission_of_nodup {h : MonitorHistory V} (distinct : (admissions h).Nodup) :
    Throughout SingleAdmission h := by
  induction h with
  | nil => exact .nil
  | cons event h ih =>
      have rest : (admissions h).Nodup := by
        unfold admissions at distinct
        split at distinct
        · contradiction
        · rename_i same
          cases same
          exact (List.nodup_cons.mp distinct).2
        · rename_i same
          cases same
          exact distinct
      refine throughout_cons.mpr ⟨?_, ih rest⟩
      unfold SingleAdmission
      split
      · rename_i t ref
        rw [admissions, List.nodup_cons] at distinct
        exact fun admitting => distinct.1 (mem_admissions admitting)
      · trivial

def tightCaps : Capabilities := ⟨some 10, some 10, some 10, some 1⟩

/-- An upstream that allows ten subscriptions of one item each. -/
def tight : (q : Request Int) → Option (Reply q)
  | .getSubscriptionCapabilities => some tightCaps
  | q => obliging q

theorem honest_tight (i : Nat) : Honest (.constant tightCaps) (.reply i tight) := by
  intro q r answered
  cases q with
  | getSubscriptionCapabilities => exact (Option.some.inj answered).symm
  | _ => trivial

theorem honest_spawn (upstream : Upstream Int) (call : MonitorCall) : Honest upstream (.spawn call) := trivial

theorem honest_grant (upstream : Upstream Int) (l : Lock) : Honest upstream (.grant l) := trivial

/-- An admission that has its capabilities gets a bin of its own. -/
def ownBin (i : Nat) : List MonitorDecision :=
  [.grant .admission, .grant .main, .grant .main, .reply i tight, .reply i tight, .grant .main]

def acquires (nodeId : String) (id : SubscriptionId) : List MonitorDecision :=
  [.spawn (.acquireNodeMonitor nodeId id), .grant .main]

/-- Two inlets are admitted, and one of them is released. -/
def admittedTwo : List MonitorDecision :=
  acquires "ns=2;s=abc" 0 ++ [.reply 0 tight] ++ ownBin 0 ++ acquires "ns=2;s=abd" 0 ++ [.reply 0 tight] ++ ownBin 0

def releasedOne : List MonitorDecision :=
  admittedTwo ++ [.spawn (.releaseNodeMonitor "ns=2;s=abd" 0), .grant .main, .grant .main, .reply 0 tight]

theorem bins_consistent_released : ∃ c, monitorRun (.constant tightCaps) releasedOne = some c ∧
    Throughout SingleAdmission c.history ∧ (∀ t, ¬ c.InFlight t) ∧ BinInvariant tightCaps c.state := by
  have checked : (monitorRun (.constant tightCaps) releasedOne).map (fun c =>
      decide (admissions c.history).Nodup && atRest c) = some true := by
    decide +kernel
  obtain ⟨c, done, facts⟩ := Option.map_eq_some_iff.mp checked
  simp only [Bool.and_eq_true, decide_eq_true_eq] at facts
  have single := singleAdmission_of_nodup facts.1
  have quiet := not_inFlight_of_atRest facts.2
  refine ⟨c, done, single, quiet, bins_consistent (monitorRun_reachable done ?_) single quiet⟩
  simp only [releasedOne, admittedTwo, acquires, ownBin, List.cons_append, List.nil_append, List.forall_mem_cons,
    honest_tight, honest_spawn, honest_grant, List.not_mem_nil, false_imp_iff, implies_true, and_self]

/-! ## An admission during another one -/

/-- Both inlets lose their bins in a reconnect. While it readmits the first, the second
is released and acquired again; the reconnect then admits the new monitor as well. -/
def admittedTwice : List MonitorDecision :=
  admittedTwo ++ [.spawn (.clientReconnect fun _ => none), .grant .main, .reply 0 tight, .reply 0 tight, .grant .main] ++
    [.spawn (.releaseNodeMonitor "ns=2;s=abd" 0), .grant .main] ++ acquires "ns=2;s=abd" 1 ++ [.reply 0 tight] ++
    ownBin 1 ++ [.grant .main, .reply 0 tight, .reply 0 tight] ++ ownBin 0 ++ ownBin 0 ++ [.grant .main]

def holds (c : MonitorConfig Int) (nodeId : String) (binId : BinId) : Bool :=
  match c.state.bins.get? binId with
  | some bin => decide (nodeId ∈ bin.nodeHandles.keys)
  | none => false

theorem inBin_of_holds {c : MonitorConfig Int} {nodeId : String} {binId : BinId} (there : holds c nodeId binId = true) :
    InBin c.state nodeId binId := by
  unfold holds at there
  split at there
  · rename_i bin found
    exact ⟨bin, found, of_decide_eq_true there⟩
  · cases there

/-- The second inlet is in two bins. -/
theorem overlapping_admissions : ∃ c : MonitorConfig Int, MonitorsReachable smallServer (.constant tightCaps) c ∧
    (∀ t, ¬ c.InFlight t) ∧ ¬ BinInvariant tightCaps c.state := by
  have checked : (monitorRun (.constant tightCaps) admittedTwice).map (fun c =>
      holds c "ns=2;s=abd" 3 && holds c "ns=2;s=abd" 4 && atRest c) = some true := by
    decide +kernel
  obtain ⟨c, done, facts⟩ := Option.map_eq_some_iff.mp checked
  simp only [Bool.and_eq_true] at facts
  obtain ⟨⟨first, second⟩, rest⟩ := facts
  refine ⟨c, monitorRun_reachable done ?_, not_inFlight_of_atRest rest, fun consistent => ?_⟩
  · simp only [admittedTwice, admittedTwo, acquires, ownBin, List.cons_append, List.nil_append, List.forall_mem_cons,
      honest_tight, honest_spawn, honest_grant, List.not_mem_nil, false_imp_iff, implies_true, and_self]
  · exact absurd (consistent.apart (inBin_of_holds first) (inBin_of_holds second)) nofun

end I3x.Subscriptions

import I3xServer.Serving.TypeContexts

/-!
# Contexts in every run

What is kept was built from data of the tokens it is kept under. A task remembers the
events that its answer rests on; they stay in the history while it is suspended.
-/
namespace I3x.Serving
open Coroutine Program Container
variable {M N T E : Type} {hashes : ContentHashes M N T E}

/-- The call is the task in the background. -/
def ContextCall.Refreshes : ContextCall M → Prop
  | .refresh _ => True
  | _ => False

instance : DecidablePred (ContextCall.Refreshes (M := M)) := fun call => by
  cases call <;> unfold ContextCall.Refreshes <;> infer_instance

/-- A suspended task remembers some events of the history. -/
abbrev ContextEntry (M N T E : Type) := Entry (ContextCall M) (List (ContextEvent M N T E))
abbrev ContextEntries (M N T E : Type) := Multiset (ContextEntry M N T E)

variable (hashes) in
/-- What is kept was built from data of its tokens. -/
def CachedContext.Kept (h : ContextHistory M N T E) (entry : CachedContext N T E) : Prop :=
  ∃ model objectTypes, entry.modelToken = hashes.modelRevision model ∧
    entry.objectTypesToken = hashes.objectTypesToken objectTypes ∧
    Built hashes h model entry.namespaceToken objectTypes entry.context

variable (hashes) in
/-- What holds of the state, the history and the tasks at every suspension. -/
structure Consistent (s : ContextState M N T E) (h : ContextHistory M N T E) (B : ContextEntries M N T E) : Prop where
  kept : ∀ entry, s.contextCache = some entry → entry.Kept hashes h
  opened : refreshOpen h = true ↔ s.refreshTask ≠ .done
  running : ∀ e ∈ B, e.tag.call.Refreshes → s.refreshTask = .running
  one : (B.filter fun e => e.tag.call.Refreshes).card ≤ 1
  recalled : ∀ e ∈ B, ∀ event ∈ e.ghost, event ∈ h
  served : Throughout (Served hashes) h

theorem Built.grow {h : ContextHistory M N T E} {model : M} {namespaceInfos : N} {objectTypes : T}
    {context : ObjectTypeContext N T E} (built : Built hashes h model namespaceInfos objectTypes context)
    (event : ContextEvent M N T E) : Built hashes (event :: h) model namespaceInfos objectTypes context := by
  obtain ⟨t, content, made, same⟩ := built
  exact ⟨t, content, List.mem_cons_of_mem event made, same⟩

section
variable {s : ContextState M N T E} {h : ContextHistory M N T E} {B : ContextEntries M N T E}
  {t : ContextTag M} {mem : List (ContextEvent M N T E)}

/-- An event that opens or closes no rebuild. -/
theorem Consistent.event (consistent : Consistent hashes s h B) {e : ContextEvent M N T E} (served : Served hashes e h)
    (same : refreshOpen (e :: h) = refreshOpen h) : Consistent hashes s (e :: h) B where
  kept entry found := by
    obtain ⟨model, objectTypes, token, types, built⟩ := consistent.kept entry found
    exact ⟨model, objectTypes, token, types, built.grow e⟩
  opened := by rw [same, consistent.opened]
  running := consistent.running
  one := consistent.one
  recalled x inside event remembered := List.mem_cons_of_mem e (consistent.recalled x inside event remembered)
  served := throughout_cons.mpr ⟨served, consistent.served⟩

/-- What the running task remembers. -/
theorem Consistent.recall (consistent : Consistent hashes s h (⟨t, mem⟩ ::ₘ B)) {e : ContextEvent M N T E}
    (remembered : e ∈ mem) : e ∈ h := consistent.recalled _ (Multiset.mem_cons_self _ _) e remembered

theorem Consistent.remember (consistent : Consistent hashes s h (⟨t, mem⟩ ::ₘ B))
    {mem' : List (ContextEvent M N T E)} (known : ∀ event ∈ mem', event ∈ h) :
    Consistent hashes s h (⟨t, mem'⟩ ::ₘ B) where
  kept := consistent.kept
  opened := consistent.opened
  running e inside refreshes := by
    rcases Multiset.mem_cons.mp inside with rfl | other
    · exact consistent.running _ (Multiset.mem_cons_self _ _) refreshes
    · exact consistent.running e (Multiset.mem_cons_of_mem other) refreshes
  one := by
    have one := consistent.one
    by_cases refreshes : t.call.Refreshes
    · rw [Multiset.filter_cons_of_pos _ (by exact refreshes), Multiset.card_cons] at one ⊢
      exact one
    · rw [Multiset.filter_cons_of_neg _ (by exact refreshes)] at one ⊢
      exact one
  recalled e inside := by
    rcases Multiset.mem_cons.mp inside with rfl | other
    · exact known
    · exact consistent.recalled e (Multiset.mem_cons_of_mem other)
  served := consistent.served

/-- The task ends, or a call begins that is no rebuild. -/
theorem Consistent.unfile (consistent : Consistent hashes s h (⟨t, mem⟩ ::ₘ B)) : Consistent hashes s h B where
  kept := consistent.kept
  opened := consistent.opened
  running e inside := consistent.running e (Multiset.mem_cons_of_mem inside)
  one := (Multiset.card_le_card (Multiset.filter_le_filter _ (Multiset.le_cons_self B _))).trans consistent.one
  recalled e inside := consistent.recalled e (Multiset.mem_cons_of_mem inside)
  served := consistent.served

theorem Consistent.file (consistent : Consistent hashes s h B) (other : ¬ t.call.Refreshes) :
    Consistent hashes s h (⟨t, []⟩ ::ₘ B) where
  kept := consistent.kept
  opened := consistent.opened
  running e inside refreshes := by
    rcases Multiset.mem_cons.mp inside with rfl | here
    · exact absurd refreshes other
    · exact consistent.running e here refreshes
  one := by
    rw [Multiset.filter_cons_of_neg _ (by exact other)]
    exact consistent.one
  recalled e inside := by
    rcases Multiset.mem_cons.mp inside with rfl | here
    · exact nofun
    · exact consistent.recalled e here
  served := consistent.served

/-- Nothing but what is kept changes. -/
theorem Consistent.store (consistent : Consistent hashes s h B) {s' : ContextState M N T E}
    (task : s'.refreshTask = s.refreshTask)
    (kept : ∀ entry, s'.contextCache = some entry → entry.Kept hashes h) : Consistent hashes s' h B where
  kept := kept
  opened := by rw [task, consistent.opened]
  running := by rw [task]; exact consistent.running
  one := consistent.one
  recalled := consistent.recalled
  served := consistent.served

/-- A rebuild is scheduled. -/
theorem Consistent.schedule (consistent : Consistent hashes s h B) (done : s.refreshTask = .done) (model : M) :
    Consistent hashes { s with refreshTask := .scheduled model } (.noted t .scheduled :: h) B where
  kept entry found := by
    obtain ⟨builtFor, objectTypes, token, types, built⟩ := consistent.kept entry found
    exact ⟨builtFor, objectTypes, token, types, built.grow _⟩
  opened := iff_of_true rfl nofun
  running e inside refreshes := by
    have running := consistent.running e inside refreshes
    rw [done] at running
    cases running
  one := consistent.one
  recalled e inside event remembered := List.mem_cons_of_mem _ (consistent.recalled e inside event remembered)
  served := by
    refine throughout_cons.mpr ⟨?_, consistent.served⟩
    exact Bool.eq_false_iff.mpr fun opened => consistent.opened.mp opened done

/-- A context that is not current is served to a request while a rebuild is open. -/
theorem Consistent.serveStale (consistent : Consistent hashes s h B) (opened : s.refreshTask ≠ .done)
    (requests : t.call.Requests) : Consistent hashes s (.noted t .servingStale :: h) B :=
  consistent.event ⟨consistent.opened.mpr opened, requests⟩ rfl

/-- The scheduled rebuild begins. -/
theorem Consistent.begin (consistent : Consistent hashes s h B) {model : M}
    (scheduled : s.refreshTask = .scheduled model) (refreshes : t.call.Refreshes) :
    Consistent hashes { s with refreshTask := .running } h (⟨t, []⟩ ::ₘ B) := by
  have idle : ∀ e ∈ B, ¬ e.tag.call.Refreshes := by
    intro e inside refreshes
    have running := consistent.running e inside refreshes
    rw [scheduled] at running
    cases running
  refine ⟨consistent.kept, ?_, fun _ _ _ => rfl, ?_, fun e inside => ?_, consistent.served⟩
  · refine consistent.opened.trans (iff_of_true ?_ fun same => by cases same)
    intro done
    rw [scheduled] at done
    cases done
  · rw [Multiset.filter_cons_of_pos _ (by exact refreshes), Multiset.filter_eq_nil.mpr idle]
    exact Nat.le_refl 1
  · rcases Multiset.mem_cons.mp inside with rfl | here
    · exact fun event remembered => absurd remembered List.not_mem_nil
    · exact consistent.recalled e here

/-- The rebuild ends. -/
theorem Consistent.finish (consistent : Consistent hashes s h (⟨t, mem⟩ ::ₘ B)) {n : Nat} {model : M}
    (call : t = ⟨n, .refresh model⟩) :
    Consistent hashes { s with refreshTask := .done } (.returned t .done :: h) B := by
  subst call
  have refreshes : (ContextCall.refresh model).Refreshes := trivial
  have idle : ∀ e ∈ B, ¬ e.tag.call.Refreshes := by
    have one := consistent.one
    rw [Multiset.filter_cons_of_pos _ (by exact refreshes), Multiset.card_cons] at one
    have none := Multiset.card_eq_zero.mp (Nat.le_zero.mp (Nat.le_of_succ_le_succ one))
    exact Multiset.filter_eq_nil.mp none
  refine ⟨fun entry found => ?_, ?_, fun e inside again => absurd again (idle e inside), ?_, fun e inside => ?_, ?_⟩
  · obtain ⟨builtFor, objectTypes, token, types, built⟩ := consistent.kept entry found
    exact ⟨builtFor, objectTypes, token, types, built.grow _⟩
  · exact iff_of_false Bool.false_ne_true fun open_ => open_ rfl
  · rw [Multiset.filter_eq_nil.mpr idle]
    exact Nat.zero_le 1
  · exact fun event remembered =>
      List.mem_cons_of_mem _ (consistent.recalled e (Multiset.mem_cons_of_mem inside) event remembered)
  · exact throughout_cons.mpr ⟨trivial, consistent.served⟩

variable [DecidableEq N] {model : M} {namespaceInfos : N} {objectTypes : T} {context : ObjectTypeContext N T E}

/-- A kept context of the tokens asked for is a current one. -/
theorem Consistent.cached (consistent : Consistent hashes s h (⟨t, mem⟩ ::ₘ B))
    (listed : .replied t .objectTypes (some objectTypes) ∈ mem)
    (found : cachedObjectTypeContext hashes model namespaceInfos objectTypes s = some context) :
    Current hashes t model namespaceInfos h context := by
  unfold cachedObjectTypeContext at found
  obtain ⟨entry, kept, same⟩ := Option.bind_eq_some_iff.mp found
  split at same
  · rename_i tokens
    cases same
    obtain ⟨builtFor, types, token, typesToken, built⟩ := consistent.kept entry kept
    rw [tokens.2.1] at built
    exact ⟨objectTypes, builtFor, types, consistent.recall listed, built, token.symm.trans tokens.1,
      typesToken.symm.trans tokens.2.2⟩
  · cases same

/-- What the stretch before the lock serves is current, or a rebuild is open. -/
theorem Consistent.serveKept (consistent : Consistent hashes s h (⟨t, mem⟩ ::ₘ B)) (model : M) (namespaceInfos : N)
    (allowStale : Bool) (may : allowStale = true → t.call.Requests)
    (listed : .replied t .objectTypes (some objectTypes) ∈ mem) :
    let kept := serveKept hashes model namespaceInfos objectTypes allowStale s
    let h' := noted t kept.2.2 ++ h
    Consistent hashes kept.2.1 h' (⟨t, mem⟩ ::ₘ B) ∧ ∀ context, kept.1 = some context →
      Current hashes t model namespaceInfos h' context ∨ allowStale = true ∧ Stale hashes t h' context := by
  simp only [Serving.serveKept]
  cases found : cachedObjectTypeContext hashes model namespaceInfos objectTypes s with
  | some context =>
      refine ⟨consistent, fun other same => ?_⟩
      cases same
      exact .inl (consistent.cached listed found)
  | none =>
      cases old : if allowStale then staleObjectTypeContext s else none with
      | none => exact ⟨consistent, fun other same => absurd same.symm (Option.some_ne_none other)⟩
      | some context =>
          obtain ⟨allowed, kept⟩ : allowStale = true ∧ staleObjectTypeContext s = some context := by
            split at old
            · rename_i allowed
              exact ⟨allowed, old⟩
            · cases old
          obtain ⟨entry, cached, rfl⟩ := Option.map_eq_some_iff.mp kept
          obtain ⟨builtFor, types, -, -, built⟩ := consistent.kept entry cached
          have stale (event : ContextEvent M N T E) (h : ContextHistory M N T E)
              (same : event = .noted t .servingStale)
              (built : Built hashes h builtFor entry.namespaceToken types entry.context) :
              Stale hashes t (event :: h) entry.context :=
            ⟨same ▸ List.mem_cons_self, builtFor, entry.namespaceToken, types, built.grow event⟩
          have waiting (opened : s.refreshTask ≠ .done) :
              Consistent hashes s (.noted t .servingStale :: h) (⟨t, mem⟩ ::ₘ B) ∧
                ∀ context, some entry.context = some context →
                  Current hashes t model namespaceInfos (.noted t .servingStale :: h) context ∨
                    allowStale = true ∧ Stale hashes t (.noted t .servingStale :: h) context := by
            refine ⟨consistent.serveStale opened (may allowed), fun context same => ?_⟩
            cases same
            exact .inr ⟨allowed, stale _ h rfl built⟩
          unfold scheduleObjectTypeContextRefresh
          cases task : s.refreshTask with
          | scheduled builtFor =>
              refine waiting fun done => ?_
              rw [task] at done
              cases done
          | running =>
              refine waiting fun done => ?_
              rw [task] at done
              cases done
          | done =>
              have scheduled := consistent.schedule (t := t) task model
              have opened : RefreshTask.scheduled model ≠ .done := fun same => by cases same
              refine ⟨scheduled.serveStale opened (may allowed), fun context same => ?_⟩
              cases same
              exact .inr ⟨allowed, stale _ _ rfl (built.grow _)⟩

end

/-! ## One task -/

abbrev ContextView (M N T E : Type) := View (ContextState M N T E) ContextLock ContextNote (ContextRequest M N T)
  (ContextReply M N T E) (ContextCall M) (ContextOutcome M N T E) (List (ContextEvent M N T E))

variable (hashes) in
def Coherent (v : ContextView M N T E) : Prop := Consistent hashes v.state v.history v.bag

variable (hashes) in
/-- The invariant as the running task sees it, with what it remembers. -/
def Proceeding (t : ContextTag M) (mem : List (ContextEvent M N T E)) (v : ContextView M N T E) : Prop :=
  Consistent hashes v.state v.history (⟨t, mem⟩ ::ₘ v.bag)

section
variable {v : ContextView M N T E} {t : ContextTag M} {mem : List (ContextEvent M N T E)}

/-- The keep of a context that was just built. -/
theorem Proceeding.keep {model : M} {namespaceInfos : N} {objectTypes : T} {content : E}
    (proceeding : Proceeding hashes t mem v)
    (built : Built hashes v.history model namespaceInfos objectTypes
      (hashes.context namespaceInfos objectTypes content)) :
    Proceeding hashes t mem (v.acting t (fun s => { s with contextCache := some (hashes.cachedContext model
      namespaceInfos objectTypes (hashes.context namespaceInfos objectTypes content)) }) fun _ => []) := by
  refine Consistent.store proceeding rfl fun entry found => ?_
  cases found
  exact ⟨model, objectTypes, rfl, rfl, built⟩

theorem Proceeding.finish (proceeding : Proceeding hashes t mem v) (other : ¬ t.call.Refreshes)
    {o : ContextOutcome M N T E} (served : Served hashes (.returned t o) v.history) :
    Finish (Coherent hashes) t o v := by
  refine Consistent.event (Consistent.unfile proceeding) served ?_
  obtain ⟨n, call⟩ := t
  cases call with
  | refresh model => exact absurd trivial other
  | getObjects model => rfl
  | getObjectTypes model => rfl
  | warm model => rfl
  | modelBuilt model byRequest => rfl

variable [DecidableEq N]

theorem wp_upstream {q : ContextRequest M N T} {P : ContextReply M N T E q → ContextView M N T E → Prop}
    (standing : Proceeding hashes t mem v)
    (next : ∀ (v' : ContextView M N T E) r, Proceeding hashes t (.replied t q r :: mem) v' → P r v') :
    wp (typeContexts hashes).mayReply (Coherent hashes) t P (upstream q) v := by
  refine ⟨mem, ?_, fun v' r _ parked => next _ r ?_⟩
  · rw [Coherent, View.bag_park]
    exact Consistent.event standing trivial rfl
  · rw [Coherent, View.bag_park] at parked
    have answered := Consistent.event (e := .replied t q r) parked trivial rfl
    refine answered.remember fun event remembered => ?_
    rcases List.mem_cons.mp remembered with rfl | old
    · exact List.mem_cons_self
    · exact answered.recall old

theorem wp_objectTypeLock {P : Unit → ContextView M N T E → Prop} (standing : Proceeding hashes t mem v)
    (next : ∀ v' : ContextView M N T E, Proceeding hashes t mem v' → P () v') :
    wp (typeContexts hashes).mayReply (Coherent hashes) t P (acquire .objectTypeLock) v := by
  refine ⟨mem, ?_, fun v' _ queued => next _ ?_⟩
  · rw [Coherent, View.bag_enqueue]
    exact standing
  · rw [Coherent, View.bag_ahead] at queued
    exact queued

theorem wp_rebuild {model : M} {namespaceInfos : N} {objectTypes : T}
    {P : Option (ObjectTypeContext N T E) → ContextView M N T E → Prop} (proceeding : Proceeding hashes t mem v)
    (listed : .replied t .objectTypes (some objectTypes) ∈ mem)
    (failed : ∀ v' : ContextView M N T E, Proceeding hashes t mem v' → P none v')
    (answered : ∀ (v' : ContextView M N T E) context, Proceeding hashes t mem v' →
      Current hashes t model namespaceInfos v'.history context → P (some context) v') :
    wp (typeContexts hashes).mayReply (Coherent hashes) t P (rebuild hashes model namespaceInfos objectTypes) v := by
  refine wp_seq (wp_objectTypeLock proceeding (P := fun _ w => Proceeding hashes t mem w) fun w here => here) ?_
  rintro - w here
  refine wp_seq (M := fun cached w' =>
    cached = cachedObjectTypeContext hashes model namespaceInfos objectTypes w.state ∧ w' = w) ⟨rfl, rfl⟩ ?_
  rintro cached w' ⟨found, rfl⟩
  cases cached with
  | some context => exact answered _ context here (Consistent.cached here listed found.symm)
  | none =>
      refine wp_seq (wp_upstream here (P := fun built w => Proceeding hashes t
        (.replied t (.buildContext model namespaceInfos objectTypes) built :: mem) w) fun w r here => here) ?_
      rintro built u here
      have shorter : Proceeding hashes t mem u :=
        here.remember fun event remembered => here.recall (List.mem_cons_of_mem _ remembered)
      cases built with
      | none => exact failed _ shorter
      | some content =>
          have built : Built hashes u.history model namespaceInfos objectTypes
              (hashes.context namespaceInfos objectTypes content) :=
            ⟨t, content, here.recall List.mem_cons_self, rfl⟩
          exact answered _ _ (shorter.keep built)
            ⟨objectTypes, model, objectTypes, shorter.recall listed, built, rfl, rfl⟩

theorem wp_resolveWith {model : M} {allowStale : Bool} {namespaceInfos : N}
    {P : Option (ObjectTypeContext N T E) → ContextView M N T E → Prop} (proceeding : Proceeding hashes t mem v)
    (may : allowStale = true → t.call.Requests)
    (failed : ∀ v' : ContextView M N T E, Proceeding hashes t mem v' → P none v')
    (answered : ∀ (v' : ContextView M N T E) context, Proceeding hashes t mem v' →
      Current hashes t model namespaceInfos v'.history context ∨
        allowStale = true ∧ Stale hashes t v'.history context →
        P (some context) v') :
    wp (typeContexts hashes).mayReply (Coherent hashes) t P
      (resolveWith hashes model allowStale namespaceInfos) v := by
  refine wp_seq (wp_upstream proceeding (P := fun listed w =>
    Proceeding hashes t (.replied t .objectTypes listed :: mem) w) fun w r here => here) ?_
  rintro listed w here
  have shorter {w : ContextView M N T E} (here : Proceeding hashes t (.replied t .objectTypes listed :: mem) w) :
      Proceeding hashes t mem w :=
    Consistent.remember here fun event remembered => here.recall (List.mem_cons_of_mem _ remembered)
  cases listed with
  | none => exact failed w (shorter here)
  | some objectTypes =>
      refine wp_seq (M := fun kept u => Proceeding hashes t (.replied t .objectTypes (some objectTypes) :: mem) u ∧
        ∀ context, kept = some context → Current hashes t model namespaceInfos u.history context ∨
          allowStale = true ∧ Stale hashes t u.history context)
        (wp_atomic _ (here.serveKept model namespaceInfos allowStale may List.mem_cons_self)) ?_
      rintro (_ | context) u ⟨kept, found⟩
      · refine wp_rebuild kept List.mem_cons_self (fun u here => failed u (shorter here)) ?_
        exact fun u context here current => answered u context (shorter here) (.inl current)
      · exact answered u context (shorter kept) (found context rfl)

theorem wp_resolveObjectTypeContext {model : M} {allowStale : Bool}
    {P : Option (ObjectTypeContext N T E) → ContextView M N T E → Prop} (proceeding : Proceeding hashes t mem v)
    (may : allowStale = true → t.call.Requests)
    (failed : ∀ v' : ContextView M N T E, Proceeding hashes t mem v' → P none v')
    (answered : ∀ (v' : ContextView M N T E) context namespaceInfos, Proceeding hashes t mem v' →
      .replied t .namespaceInfos (some namespaceInfos) ∈ v'.history →
      Current hashes t model namespaceInfos v'.history context ∨
        allowStale = true ∧ Stale hashes t v'.history context →
        P (some context) v') :
    wp (typeContexts hashes).mayReply (Coherent hashes) t P
      (resolveObjectTypeContext hashes model none allowStale) v := by
  refine wp_seq (wp_upstream proceeding (P := fun read w =>
    Proceeding hashes t (.replied t .namespaceInfos read :: mem) w) fun w r here => here) ?_
  rintro read w here
  have shorter {w : ContextView M N T E} (here : Proceeding hashes t (.replied t .namespaceInfos read :: mem) w) :
      Proceeding hashes t mem w :=
    Consistent.remember here fun event remembered => here.recall (List.mem_cons_of_mem _ remembered)
  cases read with
  | none => exact failed w (shorter here)
  | some namespaceInfos =>
      exact wp_resolveWith here may (fun u here => failed u (shorter here)) fun u context here either =>
        answered u context namespaceInfos (shorter here) (here.recall List.mem_cons_self) either

end

/-! ## All calls -/

variable (hashes) in
theorem coherent_start : Coherent hashes (View.start .initial) := by
  have empty : (View.start .initial : ContextView M N T E).bag = 0 := by
    refine Multiset.eq_zero_of_forall_notMem fun e inside => ?_
    rw [View.mem_bag] at inside
    rcases inside with ⟨l, queued⟩ | parked
    · cases queued
    · cases parked
  rw [Coherent, empty]
  refine ⟨fun entry found => ?_, iff_of_false Bool.false_ne_true fun other => other rfl,
    fun e inside => absurd inside (Multiset.notMem_zero e), Nat.zero_le 1,
    fun e inside => absurd inside (Multiset.notMem_zero e), .nil⟩
  cases found

section
variable [DecidableEq N] {v : ContextView M N T E}

theorem wp_getObjects {n : Nat} {model : M} (proceeding : Proceeding hashes ⟨n, .getObjects model⟩ [] v) :
    wp (typeContexts hashes).mayReply (Coherent hashes) ⟨n, .getObjects model⟩
      (Finish (Coherent hashes) ⟨n, .getObjects model⟩) (contextProgram hashes (.getObjects model)) v := by
  let t : ContextTag M := ⟨n, .getObjects model⟩
  refine wp_seq (M := fun reply w => Finish (Coherent hashes) t (handledOrFailed reply) w) ?_ fun reply w done => done
  refine wp_seq (wp_upstream proceeding (P := fun read w =>
    Proceeding hashes t [.replied t .namespaceInfos read] w) fun w r here => here) ?_
  rintro read w here
  cases read with
  | none => exact here.finish id trivial
  | some namespaceInfos =>
      refine wp_seq (wp_resolveWith here (P := fun context w =>
        Proceeding hashes t [.replied t .namespaceInfos (some namespaceInfos)] w ∧
        ∀ served, context = some served →
          Current hashes t model namespaceInfos w.history served ∨ Stale hashes t w.history served)
        (fun _ => trivial) (fun u here => ⟨here, fun served same => absurd same.symm (Option.some_ne_none served)⟩)
        fun u context here either => ?_) ?_
      · refine ⟨here, fun served same => ?_⟩
        cases same
        exact either.imp_right And.right
      · rintro context u ⟨here, provided⟩
        exact here.finish id ⟨rfl, Consistent.recall here List.mem_cons_self, rfl, provided⟩

theorem wp_getObjectTypes {n : Nat} {model : M} (proceeding : Proceeding hashes ⟨n, .getObjectTypes model⟩ [] v) :
    wp (typeContexts hashes).mayReply (Coherent hashes) ⟨n, .getObjectTypes model⟩
      (Finish (Coherent hashes) ⟨n, .getObjectTypes model⟩) (contextProgram hashes (.getObjectTypes model)) v := by
  let t : ContextTag M := ⟨n, .getObjectTypes model⟩
  refine wp_seq (M := fun reply w => Finish (Coherent hashes) t (handledOrFailed reply) w) ?_ fun reply w done => done
  refine wp_seq (wp_resolveObjectTypeContext proceeding (P := fun context w => Proceeding hashes t [] w ∧
    ∀ served, context = some served → ∃ namespaceInfos,
      .replied t .namespaceInfos (some namespaceInfos) ∈ w.history ∧
        (Current hashes t model namespaceInfos w.history served ∨ Stale hashes t w.history served))
    (fun _ => trivial) (fun u here => ⟨here, fun served same => absurd same.symm (Option.some_ne_none served)⟩)
    fun u context namespaceInfos here read either => ?_) ?_
  · refine ⟨here, fun served same => ?_⟩
    cases same
    exact ⟨namespaceInfos, read, either.imp_right And.right⟩
  · rintro context u ⟨here, provided⟩
    cases context with
    | none => exact here.finish id trivial
    | some context =>
        obtain ⟨namespaceInfos, read, either⟩ := provided context rfl
        exact here.finish id ⟨rfl, context, namespaceInfos, rfl, rfl, rfl, read, either⟩

theorem wp_warm {n : Nat} {model : M} (proceeding : Proceeding hashes ⟨n, .warm model⟩ [] v) :
    wp (typeContexts hashes).mayReply (Coherent hashes) ⟨n, .warm model⟩
      (Finish (Coherent hashes) ⟨n, .warm model⟩) (contextProgram hashes (.warm model)) v := by
  refine wp_seq (wp_resolveObjectTypeContext proceeding (P := fun context w =>
    Finish (Coherent hashes) ⟨n, .warm model⟩ (.warmed context) w) nofun (fun u here => here.finish id trivial)
    fun u context namespaceInfos here read either => ?_) fun context w done => done
  rcases either with current | ⟨never, -⟩
  · exact here.finish id ⟨model, namespaceInfos, rfl, read, current⟩
  · cases never

theorem wp_refresh {n : Nat} {model : M} (coherent : Coherent hashes v)
    (scheduled : v.state.refreshTask = .scheduled model) :
    wp (typeContexts hashes).mayReply (Coherent hashes) ⟨n, .refresh model⟩
      (Finish (Coherent hashes) ⟨n, .refresh model⟩) (contextProgram hashes (.refresh model)) v := by
  have begun : Proceeding hashes ⟨n, .refresh model⟩ []
      (v.acting ⟨n, .refresh model⟩ (fun s => { s with refreshTask := .running }) fun _ => []) :=
    Consistent.begin (t := ⟨n, .refresh model⟩) coherent scheduled trivial
  refine wp_seq (M := fun _ w => Finish (Coherent hashes) ⟨n, .refresh model⟩ .done w) ?_ fun _ w done => done
  refine wp_seq (M := fun target w => Proceeding hashes ⟨n, .refresh model⟩ [] w) begun ?_
  intro target w here
  refine wp_seq (wp_resolveObjectTypeContext here (P := fun _ w => Proceeding hashes ⟨n, .refresh model⟩ [] w)
    nofun (fun u here => here) fun u _ _ here _ _ => here) ?_
  intro _ u here
  exact Consistent.finish here rfl

theorem wp_modelBuilt {n : Nat} {model : M} {byRequest : Bool}
    (proceeding : Proceeding hashes ⟨n, .modelBuilt model byRequest⟩ [] v) :
    wp (typeContexts hashes).mayReply (Coherent hashes) ⟨n, .modelBuilt model byRequest⟩
      (Finish (Coherent hashes) ⟨n, .modelBuilt model byRequest⟩)
      (contextProgram hashes (.modelBuilt model byRequest)) v := by
  have stored : Proceeding hashes ⟨n, .modelBuilt model byRequest⟩ []
      (v.acting ⟨n, .modelBuilt model byRequest⟩ (fun s => { s with
        modelCache := some model
        contextCache := if byRequest then none else s.contextCache }) fun _ => []) := by
    refine Consistent.store proceeding rfl fun entry found => ?_
    cases byRequest with
    | true => cases found
    | false => exact Consistent.kept proceeding entry found
  exact stored.finish id trivial

theorem wp_contextProgram {call : ContextCall M} (coherent : Coherent hashes v)
    (may : ∀ model, call = .refresh model → v.state.refreshTask = .scheduled model) :
    wp (typeContexts hashes).mayReply (Coherent hashes) ⟨v.calls, call⟩
      (Finish (Coherent hashes) ⟨v.calls, call⟩) (contextProgram hashes call) (v.issued call) := by
  have issued : Coherent hashes (v.issued call) := coherent.event (e := .spawned ⟨v.calls, call⟩) trivial rfl
  cases call with
  | getObjects model => exact wp_getObjects (issued.file id)
  | getObjectTypes model => exact wp_getObjectTypes (issued.file id)
  | warm model => exact wp_warm (issued.file id)
  | refresh model => exact wp_refresh issued (may model rfl)
  | modelBuilt model byRequest => exact wp_modelBuilt (issued.file id)

/-- The invariant in every run. -/
theorem reachable_consistent {c : ContextConfig M N T E} (run : Reachable (typeContexts hashes) .initial c) :
    (∀ entry, c.state.contextCache = some entry → entry.Kept hashes c.history) ∧
      Throughout (Served hashes) c.history := by
  obtain ⟨v, machine, _, holds⟩ := reachable_represented (I := Coherent hashes) (coherent_start hashes)
    (fun v call coherent may => wp_contextProgram coherent may) run
  rw [← machine]
  exact ⟨holds.kept, holds.served⟩

/-- A request for a build of the context. -/
def ContextRequest.Builds : ContextRequest M N T → Prop
  | .buildContext _ _ _ => True
  | _ => False

theorem guarded_rebuild (model : M) (namespaceInfos : N) (objectTypes : T) :
    (rebuild hashes model namespaceInfos objectTypes).Guarded .objectTypeLock ContextRequest.Builds false false := by
  refine .bind .acquire fun _ => .bind (.read _) fun cached => ?_
  cases cached with
  | some context => exact .bind .release fun _ => .ret _
  | none =>
      refine .bind (.ask fun _ => rfl) fun built => ?_
      cases built with
      | none => exact .bind .release fun _ => .ret _
      | some content => exact .bind (.modify _) fun _ => .bind .release fun _ => .ret _

theorem guarded_resolveWith (model : M) (allowStale : Bool) (namespaceInfos : N) :
    (resolveWith hashes model allowStale namespaceInfos).Guarded .objectTypeLock ContextRequest.Builds false false := by
  refine .bind (.ask (fun builds => builds.elim)) fun listed => ?_
  cases listed with
  | none => exact .ret _
  | some objectTypes =>
      refine .bind (.atomic _) fun kept => ?_
      cases kept with
      | some context => exact .ret _
      | none => exact guarded_rebuild model namespaceInfos objectTypes

theorem guarded_resolve (model : M) (namespaceInfos : Option N) (allowStale : Bool) :
    (resolveObjectTypeContext hashes model namespaceInfos allowStale).Guarded .objectTypeLock ContextRequest.Builds
      false false := by
  cases namespaceInfos with
  | some namespaceInfos => exact guarded_resolveWith model allowStale namespaceInfos
  | none =>
      refine .bind (.ask (fun builds => builds.elim)) fun read => ?_
      cases read with
      | none => exact .ret _
      | some namespaceInfos => exact guarded_resolveWith model allowStale namespaceInfos

/-- Contexts are built inside the lock only. -/
theorem guarded_contextProgram (call : ContextCall M) :
    (contextProgram hashes call).Guarded .objectTypeLock ContextRequest.Builds false false := by
  cases call with
  | getObjects model =>
      refine .bind (.bind (.ask (fun builds => builds.elim)) fun read => ?_) fun _ => .ret _
      cases read with
      | none => exact .ret _
      | some namespaceInfos => exact .bind (guarded_resolve model (some namespaceInfos) true) fun _ => .ret _
  | getObjectTypes model =>
      refine .bind (.bind (guarded_resolve model none true) fun context => ?_) fun _ => .ret _
      cases context with
      | none => exact .ret _
      | some context => exact .ret _
  | warm model => exact .bind (guarded_resolve model none false) fun _ => .ret _
  | refresh model =>
      exact .bind (.bind (.atomic _) fun target => .bind (guarded_resolve target none false) fun _ => .modify _)
        fun _ => .ret _
  | modelBuilt model byRequest => exact .bind (.modify _) fun _ => .ret _

/-- **Contexts in every run.** One context at most is being built, what is kept was built
from data of the tokens it is kept under, rebuilds in the background come one at a time,
every answer rests on data that it has read and on a context that is current or, while
a rebuild is open, stale, and records the revisions of just these, and a call that is no
client's request is never served a stale one. -/
theorem contexts_served {c : ContextConfig M N T E} (run : Reachable (typeContexts hashes) .initial c) :
    (∀ x ∈ c.pending, ∀ y ∈ c.pending, x.Asks ContextRequest.Builds → y.Asks ContextRequest.Builds → x = y) ∧
      (∀ entry, c.state.contextCache = some entry → entry.Kept hashes c.history) ∧
      Throughout (Served hashes) c.history := by
  refine ⟨fun x inside y there one other => ?_, reachable_consistent run⟩
  exact run.exclusive (l := .objectTypeLock) guarded_contextProgram inside there one other

end

/-- Contents are numbers, and models of one parity have one revision. -/
def numberHashes : ContentHashes Nat Nat Nat Nat where
  modelRevision model := if model % 2 = 0 then "even" else "odd"
  namespacesRevision _ := "namespaces"
  objectTypesToken _ := "types"
  contextRevision _ _ content := if content = 0 then "empty" else "filled"

/-- Everything can be read, and a context has as content the model it is built for. -/
def readable : (q : ContextRequest Nat Nat Nat) → Option (ContextReply Nat Nat Nat Nat q)
  | .namespaceInfos => some (some 0)
  | .objectTypes => some (some 0)
  | .buildContext model _ _ => some (some model)

/-- After the context of a model has been built, a request with another model. -/
def staleRun : List (Choice ContextLock (ContextRequest Nat Nat Nat) (ContextReply Nat Nat Nat Nat) (ContextCall Nat)) :=
  [.spawn (.warm 2), .reply 0 readable, .reply 0 readable, .grant .objectTypeLock, .reply 0 readable,
    .spawn (.getObjects 3), .reply 0 readable, .reply 0 readable]

/-- How often a stale context was served. -/
def staleAnswers (h : ContextHistory Nat Nat Nat Nat) : Nat :=
  h.countP fun event =>
    match event with
    | .noted _ .servingStale => true
    | _ => false

theorem contexts_served_stale : ∃ c : ContextConfig Nat Nat Nat Nat,
    execAll (typeContexts numberHashes) (Config.start .initial) staleRun = some c ∧
      staleAnswers c.history = 1 ∧ refreshOpen c.history = true ∧ Throughout (Served numberHashes) c.history := by
  have facts : (execAll (typeContexts numberHashes) (Config.start .initial) staleRun).map (fun c =>
      (staleAnswers c.history, refreshOpen c.history)) = some (1, true) := by decide +kernel
  obtain ⟨c, done, same⟩ := Option.map_eq_some_iff.mp facts
  have permitted : AllPermitted (typeContexts numberHashes) (Config.start .initial) staleRun := by
    refine allPermitted_free (fun _ _ _ _ => trivial) (fun call inside s flight model same => ?_) _
    subst same
    simp [staleRun] at inside
  have served := contexts_served (reachable_execAll _ staleRun .start done permitted)
  exact ⟨c, done, (Prod.mk.inj same).1, (Prod.mk.inj same).2, served.2.2⟩

end I3x.Serving

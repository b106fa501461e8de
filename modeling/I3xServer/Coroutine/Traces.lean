import I3xServer.Coroutine.Frame

/-!
# Runs with the acts they are made of

A run together with every act of every task, newest first, with the state in
which it happened and the state it left. What a task has done so far is a path
through the program of its call; an invariant of runs is therefore proved act by
act, with the path that led to the act at hand.
-/
namespace Coroutine
variable {σ L N Q C O α : Type} {R : Q → Type}

/-- One act of a task. -/
structure Moment (σ N C : Type) where
  tag : Tag C
  before : σ
  notes : List N
  after : σ

/-- What one call has done so far, oldest first. -/
def past (id : Nat) (trace : List (Moment σ N C)) : List (Moment σ N C) :=
  (trace.filter fun m => m.tag.id = id).reverse

theorem past_cons_same {id : Nat} {m : Moment σ N C} (trace : List (Moment σ N C)) (own : m.tag.id = id) :
    past id (m :: trace) = past id trace ++ [m] := by
  simp only [past, List.filter_cons, own, decide_true, if_true, List.reverse_cons]

theorem mem_past {id : Nat} {trace : List (Moment σ N C)} {m : Moment σ N C} :
    m ∈ past id trace ↔ m ∈ trace ∧ m.tag.id = id := by
  simp only [past, List.mem_reverse, List.mem_filter, decide_eq_true_eq]

theorem past_of_unused {id : Nat} {trace : List (Moment σ N C)} (unused : ∀ m ∈ trace, m.tag.id ≠ id) :
    past id trace = [] := by
  refine List.eq_nil_iff_forall_not_mem.mpr fun m inside => ?_
  exact unused m (mem_past.mp inside).1 (mem_past.mp inside).2

namespace Program

/-- The acts of a task between two suspensions, newest first. -/
def trail (t : Tag C) : Program σ L N Q R α → σ → List (Moment σ N C)
  | .act f log k, s => trail t (k s) (f s) ++ [⟨t, s, log s, f s⟩]
  | .unlock _ k, s => trail t k s
  | _, _ => []

/-- The task can perform these acts, oldest first, and then has the second program
left, whatever happens while it is suspended. -/
inductive Performs (t : Tag C) :
    Program σ L N Q R α → List (Moment σ N C) → Program σ L N Q R α → Prop
  | rest (p) : Performs t p [] p
  | act {f log k s acts p} (more : Performs t (k s) acts p) :
      Performs t (.act f log k) (⟨t, s, log s, f s⟩ :: acts) p
  | lock {l k acts p} (more : Performs t k acts p) : Performs t (.lock l k) acts p
  | unlock {l k acts p} (more : Performs t k acts p) : Performs t (.unlock l k) acts p
  | request {q k acts p} (r : R q) (more : Performs t (k r) acts p) : Performs t (.request q k) acts p

theorem Performs.trans {t : Tag C} {p q r : Program σ L N Q R α} {acts more : List (Moment σ N C)}
    (first : Performs t p acts q) (then_ : Performs t q more r) : Performs t p (acts ++ more) r := by
  induction first with
  | rest p => exact then_
  | act _ ih => exact .act (ih then_)
  | lock _ ih => exact .lock (ih then_)
  | unlock _ ih => exact .unlock (ih then_)
  | request r _ ih => exact .request r (ih then_)

theorem Performs.then_act {t : Tag C} {p : Program σ L N Q R α} {acts : List (Moment σ N C)} {f : σ → σ}
    {log : σ → List N} {k : σ → Program σ L N Q R α} (first : Performs t p acts (.act f log k)) (s : σ) :
    Performs t p (acts ++ [⟨t, s, log s, f s⟩]) (k s) := first.trans (.act (.rest _))

theorem Performs.act_cases {t : Tag C} {f : σ → σ} {log : σ → List N} {k : σ → Program σ L N Q R α}
    {p : Program σ L N Q R α} {acts : List (Moment σ N C)} (path : Performs t (.act f log k) acts p) :
    (acts = [] ∧ .act f log k = p) ∨
      ∃ s more, acts = ⟨t, s, log s, f s⟩ :: more ∧ Performs t (k s) more p := by
  cases path with
  | rest => exact .inl ⟨rfl, rfl⟩
  | act more => exact .inr ⟨_, _, rfl, more⟩

theorem Performs.lock_cases {t : Tag C} {l : L} {k p : Program σ L N Q R α} {acts : List (Moment σ N C)}
    (path : Performs t (.lock l k) acts p) : (acts = [] ∧ .lock l k = p) ∨ Performs t k acts p := by
  cases path with
  | rest => exact .inl ⟨rfl, rfl⟩
  | lock more => exact .inr more

theorem Performs.unlock_cases {t : Tag C} {l : L} {k p : Program σ L N Q R α} {acts : List (Moment σ N C)}
    (path : Performs t (.unlock l k) acts p) : (acts = [] ∧ .unlock l k = p) ∨ Performs t k acts p := by
  cases path with
  | rest => exact .inl ⟨rfl, rfl⟩
  | unlock more => exact .inr more

theorem Performs.of_ret {t : Tag C} {a : α} {p : Program σ L N Q R α} {acts : List (Moment σ N C)}
    (path : Performs t (.ret a) acts p) : .ret a = p := by
  cases path
  rfl

/-- An act that a program comes to lies in the relation that the program stays within. -/
theorem Performs.within {T : Memory N Q R → σ → List N → σ → Prop} {t : Tag C} {p : Program σ L N Q R α}
    {acts : List (Moment σ N C)} {f : σ → σ} {log : σ → List N} {k : σ → Program σ L N Q R α}
    (path : Performs t p acts (.act f log k)) {m : Memory N Q R} (inside : p.WithinFrom T m) (s : σ) :
    ∃ m', T m' s (log s) (f s) := by
  generalize next : (Program.act f log k : Program σ L N Q R α) = act at path
  induction path generalizing m with
  | rest p =>
      subst next
      exact ⟨m, (inside s).1⟩
  | act _ ih => exact ih (inside _).2 next
  | lock _ ih => exact ih inside next
  | unlock _ ih => exact ih inside next
  | request r _ ih => exact ih (inside r) next

/-- What follows a program knows what the program answers. -/
theorem Within.bind_answers {β : Type} {T : Memory N Q R → σ → List N → σ → Prop} {P : α → Prop}
    {p : Program σ L N Q R α} {g : α → Program σ L N Q R β} (inside : p.Within T) (answers : p.Answers P)
    (rest : ∀ a, P a → (g a).Within T) : (p.bind g).Within T := by
  intro m
  have here := inside m
  clear inside
  induction p generalizing m with
  | ret a => exact rest a answers m
  | act f log k ih => exact fun s => ⟨(here s).1, ih s (answers s) _ (here s).2⟩
  | lock l k ih => exact ih answers m here
  | unlock l k ih => exact ih answers m here
  | request q k ih => exact fun r => ih r (answers r) _ (here r)

end Program

section
variable [DecidableEq L] (S : System σ L N Q R C O) (init : σ)

/-- The runs that begin in state `init`, with their acts. -/
inductive Traced : Config σ L N Q R C O → List (Moment σ N C) → Prop
  | start : Traced (Config.start init) []
  | spawn {c trace} (run : Traced c trace) (call : C) (may : S.mayCall c.state c.InFlight call) :
      Traced (c.spawn call (S.program call)) ((S.program call).trail (c.nextTag call) c.state ++ trace)
  | grant {c trace} (run : Traced c trace) (l : L) (x rest k) (free : c.held l = false)
      (head : c.waiting l = x :: rest) (body : x.body = .lock l k) :
      Traced (c.grant l x rest k) (k.trail x.tag c.state ++ trace)
  | reply {c trace} (run : Traced c trace) (before x after) (q : Q) (k) (r : R q)
      (found : c.pending = before ++ x :: after) (body : x.body = .request q k)
      (may : S.mayReply x.asked c.state q r) :
      Traced (c.answer x (before ++ after) q r k) ((k r).trail x.tag c.state ++ trace)

variable {S init}

/-- Every run has its acts. -/
theorem Reachable.traced {c : Config σ L N Q R C O} (run : Reachable S init c) :
    ∃ trace, Traced S init c trace := by
  induction run with
  | start => exact ⟨[], .start⟩
  | step _ step ih =>
      obtain ⟨trace, traced⟩ := ih
      cases step with
      | spawn call may => exact ⟨_, .spawn traced call may⟩
      | grant l x rest k free head body => exact ⟨_, .grant traced l x rest k free head body⟩
      | reply before x after q k r found body may => exact ⟨_, .reply traced before x after q k r found body may⟩

end

/-! ## The acts of one task -/

section
variable {S : System σ L N Q R C O} {J : σ → List (Moment σ N C) → Prop}

theorem tag_of_trail {t : Tag C} {p : Program σ L N Q R α} {s : σ} {m : Moment σ N C}
    (inside : m ∈ p.trail t s) : m.tag = t := by
  induction p generalizing s with
  | act f log k ih =>
      rcases List.mem_append.mp inside with later | here
      · exact ih s later
      · exact List.mem_singleton.mp here ▸ rfl
  | unlock l k ih => exact ih inside
  | ret a => cases inside
  | lock l k ih => cases inside
  | request q k ih => cases inside

/-- Acts of other calls leave the past of a call alone. -/
theorem past_trail_other {id : Nat} {t : Tag C} (p : Program σ L N Q R α) (s : σ) (trace : List (Moment σ N C))
    (other : t.id ≠ id) : past id (p.trail t s ++ trace) = past id trace := by
  have none_own : past id (p.trail t s) = [] :=
    past_of_unused fun m inside => tag_of_trail inside ▸ other
  rw [past, List.filter_append, List.reverse_append]
  exact (congrArg (past id trace ++ ·) none_own).trans (List.append_nil _)

/-- What a system's acts keep, given the path that led to each of them. -/
def ActKeeps (S : System σ L N Q R C O) (J : σ → List (Moment σ N C) → Prop) : Prop :=
  ∀ s trace t f log (k : σ → Program σ L N Q R O), J s trace →
    Program.Performs t (S.program t.call) (past t.id trace) (.act f log k) →
      J (f s) (⟨t, s, log s, f s⟩ :: trace)

/-- A task that runs to its next suspension keeps the invariant, and its path grows. -/
theorem ActKeeps.advance [DecidableEq L] (keeps : ActKeeps S J) {t : Tag C} {p : Program σ L N Q R O}
    {trace : List (Moment σ N C)} {m : Machine σ L N Q R C O} (holds : J m.state trace)
    (path : Program.Performs t (S.program t.call) (past t.id trace) p) :
    J (m.advance t p).1.state (p.trail t m.state ++ trace) ∧ (m.advance t p).1.calls = m.calls ∧
      Program.Performs t (S.program t.call) (past t.id (p.trail t m.state ++ trace)) (m.advance t p).2 := by
  induction p generalizing trace m with
  | ret o => exact ⟨holds, rfl, path⟩
  | lock l k ih => exact ⟨holds, rfl, path⟩
  | request q k ih => exact ⟨holds, rfl, path⟩
  | unlock l k ih =>
      have further : Program.Performs t (S.program t.call) (past t.id trace) k := by
        have more := path.trans (.unlock (.rest k))
        rwa [List.append_nil] at more
      exact ih (m := m.setHeld l false) holds further
  | act f log k ih =>
      have further := path.then_act m.state
      rw [← past_cons_same trace (show t.id = t.id from rfl)] at further
      have kept := keeps _ _ _ _ _ _ holds path
      have rest := ih m.state (m := m.acting t f log) kept further
      rw [Program.trail, List.append_assoc]
      exact rest

end

/-! ## All tasks -/

section
variable [DecidableEq L] [Fintype L] {S : System σ L N Q R C O} {init : σ}
  {J : σ → List (Moment σ N C) → Prop}

/-- The suspended tasks with the programs they have left. -/
def Config.view (c : Config σ L N Q R C O) : View σ L N Q R C O (Program σ L N Q R O) where
  toMachine := c.toMachine
  queue l := (c.waiting l).map fun x => ⟨x.tag, x.body⟩
  idle := ↑(c.pending.map fun x => (⟨x.tag, x.body⟩ : Entry C (Program σ L N Q R O)))

omit [Fintype L] in
theorem suspend_machine (c : Config σ L N Q R C O) (t : Tag C)
    (next : Machine σ L N Q R C O × Program σ L N Q R O) : (c.suspend t next).toMachine = next.1 := by
  obtain ⟨machine, body⟩ := next
  cases body <;> rfl

/-- A task that suspends is filed with the program it has left. -/
theorem bag_suspend (c : Config σ L N Q R C O) (t : Tag C)
    (next : Machine σ L N Q R C O × Program σ L N Q R O) :
    (c.suspend t next).view.bag = c.view.bag ∨ (c.suspend t next).view.bag = ⟨t, next.2⟩ ::ₘ c.view.bag := by
  obtain ⟨machine, body⟩ := next
  cases body with
  | ret o => exact .inl rfl
  | act f log k => exact .inl rfl
  | unlock l k => exact .inl rfl
  | lock l k =>
      refine .inr (Eq.trans ?_ (View.bag_enqueue c.view l ⟨t, .lock l k⟩))
      unfold View.bag
      congr 1
      refine Finset.sum_congr rfl fun l' _ => ?_
      by_cases here : l' = l
      · subst here
        simp only [Config.view, Config.suspend, View.enqueue, Function.update_self, List.map_append,
          List.map_cons, List.map_nil]
      · simp only [Config.view, Config.suspend, View.enqueue, Function.update_of_ne here]
  | request q k =>
      refine .inr (Eq.trans ?_ (View.bag_park c.view ⟨t, .request q k⟩))
      unfold View.bag
      congr 1
      simp only [Config.view, Config.suspend, View.park, List.map_append, List.map_cons, List.map_nil]
      rw [← Multiset.coe_add, Multiset.coe_singleton, Multiset.add_comm, Multiset.singleton_add]

/-- The task that has waited longest for a lock, beside the other tasks. -/
theorem bag_waiting {c : Config σ L N Q R C O} {l : L} {x : Task σ L N Q R C O}
    {rest : List (Task σ L N Q R C O)} (head : c.waiting l = x :: rest) :
    c.view.bag = ⟨x.tag, x.body⟩ ::ₘ
      ({ c with waiting := Function.update c.waiting l rest } : Config σ L N Q R C O).view.bag := by
  refine Eq.trans ?_ (View.bag_ahead (Config.view { c with waiting := Function.update c.waiting l rest }) l
    ⟨x.tag, x.body⟩)
  unfold View.bag
  congr 1
  refine Finset.sum_congr rfl fun l' _ => ?_
  by_cases here : l' = l
  · subst here
    simp only [Config.view, View.ahead, Function.update_self, head, List.map_cons]
  · simp only [Config.view, View.ahead, Function.update_of_ne here]

omit [DecidableEq L] in
/-- A task that waits for a reply, beside the other tasks. -/
theorem bag_pending {c : Config σ L N Q R C O} {before after : List (Task σ L N Q R C O)}
    {x : Task σ L N Q R C O} (found : c.pending = before ++ x :: after) :
    c.view.bag = ⟨x.tag, x.body⟩ ::ₘ
      ({ c with pending := before ++ after } : Config σ L N Q R C O).view.bag := by
  refine Eq.trans ?_ (View.bag_park (Config.view { c with pending := before ++ after }) ⟨x.tag, x.body⟩)
  unfold View.bag
  congr 1
  simp only [Config.view, View.park, found, List.map_append, List.map_cons]
  rw [Multiset.cons_coe, Multiset.coe_eq_coe]
  exact List.perm_middle

/-- The invariant, and each suspended task where its past has led it. -/
structure Followed (S : System σ L N Q R C O) (J : σ → List (Moment σ N C) → Prop) (s : σ) (calls : Nat)
    (trace : List (Moment σ N C)) (B : Multiset (Entry C (Program σ L N Q R O))) : Prop where
  holds : J s trace
  nodup : (B.map fun e => e.tag.id).Nodup
  issued : ∀ e ∈ B, e.tag.id < calls
  recorded : ∀ m ∈ trace, m.tag.id < calls
  path : ∀ e ∈ B, Program.Performs e.tag (S.program e.tag.call) (past e.tag.id trace) e.ghost

omit [DecidableEq L] [Fintype L] in
theorem Followed.remove {s : σ} {calls : Nat} {trace : List (Moment σ N C)}
    {B : Multiset (Entry C (Program σ L N Q R O))} {e : Entry C (Program σ L N Q R O)}
    (followed : Followed S J s calls trace (e ::ₘ B)) :
    Followed S J s calls trace B ∧ ∀ other ∈ B, other.tag.id ≠ e.tag.id := by
  have split := followed.nodup
  rw [Multiset.map_cons, Multiset.nodup_cons] at split
  refine ⟨⟨followed.holds, split.2, fun other inside => ?_, followed.recorded, fun other inside => ?_⟩,
    fun other inside same => split.1 (Multiset.mem_map.mpr ⟨other, inside, same⟩)⟩
  · exact followed.issued other (Multiset.mem_cons_of_mem inside)
  · exact followed.path other (Multiset.mem_cons_of_mem inside)

/-- The step of a run: a task that nothing else shares its call with runs on. -/
theorem Followed.run (keeps : ActKeeps S J) {c : Config σ L N Q R C O} {m : Machine σ L N Q R C O}
    {trace : List (Moment σ N C)} {t : Tag C} {p : Program σ L N Q R O}
    (followed : Followed S J m.state m.calls trace c.view.bag) (alone : ∀ e ∈ c.view.bag, e.tag.id ≠ t.id)
    (issued : t.id < m.calls) (path : Program.Performs t (S.program t.call) (past t.id trace) p) :
    Followed S J (c.run t p m).state (c.run t p m).calls (p.trail t m.state ++ trace) (c.run t p m).view.bag := by
  obtain ⟨holds, calls, further⟩ := keeps.advance followed.holds path
  have recorded : ∀ x ∈ p.trail t m.state ++ trace, x.tag.id < m.calls := by
    intro x inside
    rcases List.mem_append.mp inside with new | old
    · exact tag_of_trail new ▸ issued
    · exact followed.recorded x old
  have kept (e) (inside : e ∈ c.view.bag) :
      Program.Performs e.tag (S.program e.tag.call) (past e.tag.id (p.trail t m.state ++ trace)) e.ghost := by
    rw [past_trail_other p m.state trace (Ne.symm (alone e inside))]
    exact followed.path e inside
  unfold Config.run
  rw [show (c.suspend t (m.advance t p)).state = (m.advance t p).1.state from
      congrArg Machine.state (suspend_machine c t _),
    show (c.suspend t (m.advance t p)).calls = m.calls from
      (congrArg Machine.calls (suspend_machine c t _)).trans calls]
  rcases bag_suspend c t (m.advance t p) with gone | filed
  · rw [gone]
    exact ⟨holds, followed.nodup, followed.issued, recorded, kept⟩
  · rw [filed]
    refine ⟨holds, ?_, fun e inside => ?_, recorded, fun e inside => ?_⟩
    · rw [Multiset.map_cons, Multiset.nodup_cons]
      refine ⟨fun shared => ?_, followed.nodup⟩
      obtain ⟨e, inside, same⟩ := Multiset.mem_map.mp shared
      exact alone e inside same
    · rcases Multiset.mem_cons.mp inside with rfl | other
      · exact issued
      · exact followed.issued e other
    · rcases Multiset.mem_cons.mp inside with rfl | other
      · exact further
      · exact kept e other

theorem Traced.followed (keeps : ActKeeps S J) (start : J init []) {c : Config σ L N Q R C O}
    {trace : List (Moment σ N C)} (run : Traced S init c trace) :
    Followed S J c.state c.calls trace c.view.bag := by
  induction run with
  | start =>
      have empty : (Config.start init : Config σ L N Q R C O).view.bag = 0 := by
        refine Multiset.eq_zero_of_forall_notMem fun e inside => ?_
        rw [View.mem_bag] at inside
        rcases inside with ⟨l, queued⟩ | parked
        · cases queued
        · cases parked
      rw [empty]
      exact ⟨start, Multiset.nodup_zero, nofun, nofun, nofun⟩
  | @spawn c trace _ call may ih =>
      have fresh : past c.calls trace = [] :=
        past_of_unused fun m inside => Nat.ne_of_lt (ih.recorded m inside)
      refine Followed.run (c := c) (m := c.issued call) keeps ?_ (fun e inside => ?_) (Nat.lt_succ_self _) ?_
      · exact ⟨ih.holds, ih.nodup, fun e inside => Nat.lt_succ_of_lt (ih.issued e inside),
          fun m inside => Nat.lt_succ_of_lt (ih.recorded m inside), ih.path⟩
      · exact Nat.ne_of_lt (ih.issued e inside)
      · rw [show past (c.nextTag call).id trace = [] from fresh]
        exact .rest _
  | @grant c trace _ l x rest k free head body ih =>
      let c₀ : Config σ L N Q R C O := { c with waiting := Function.update c.waiting l rest }
      rw [bag_waiting head] at ih
      obtain ⟨others, alone⟩ := ih.remove
      have here : (⟨x.tag, x.body⟩ : Entry C (Program σ L N Q R O)) ∈ (⟨x.tag, x.body⟩ ::ₘ c₀.view.bag) :=
        Multiset.mem_cons_self _ _
      have path := (ih.path _ here).trans (show Program.Performs x.tag x.body [] k from body ▸ .lock (.rest k))
      rw [List.append_nil] at path
      exact Followed.run (c := c₀) (m := c.toMachine.setHeld l true) keeps others alone (ih.issued _ here) path
  | @reply c trace _ before x after q k r found body may ih =>
      let c₀ : Config σ L N Q R C O := { c with pending := before ++ after }
      rw [bag_pending found] at ih
      obtain ⟨others, alone⟩ := ih.remove
      have here : (⟨x.tag, x.body⟩ : Entry C (Program σ L N Q R O)) ∈ (⟨x.tag, x.body⟩ ::ₘ c₀.view.bag) :=
        Multiset.mem_cons_self _ _
      have path := (ih.path _ here).trans
        (show Program.Performs x.tag x.body [] (k r) from body ▸ .request r (.rest (k r)))
      rw [List.append_nil] at path
      exact Followed.run (c := c₀) (m := c.toMachine.noting (.replied x.tag q r)) keeps others alone
        (ih.issued _ here) path

/-- An invariant of the state and the acts so far that every act keeps holds in every run. -/
theorem Traced.invariant (keeps : ActKeeps S J) (start : J init []) {c : Config σ L N Q R C O}
    {trace : List (Moment σ N C)} (run : Traced S init c trace) : J c.state trace :=
  (run.followed keeps start).holds

/-- An act in the middle of a run: the invariant around it, and the path that led its task to it. -/
structure Reached (S : System σ L N Q R C O) (J : σ → List (Moment σ N C) → Prop) (m : Moment σ N C)
    (earlier : List (Moment σ N C)) : Prop where
  before : J m.before earlier
  after : J m.after (m :: earlier)
  path : ∃ f log, ∃ k : σ → Program σ L N Q R O,
    Program.Performs m.tag (S.program m.tag.call) (past m.tag.id earlier) (.act f log k) ∧
      m.notes = log m.before ∧ m.after = f m.before

omit [DecidableEq L] [Fintype L] in
theorem ActKeeps.moments (keeps : ActKeeps S J) :
    ActKeeps S fun s trace => J s trace ∧
      ∀ later m earlier, trace = later ++ m :: earlier → Reached S J m earlier := by
  rintro s trace t f log k ⟨holds, old⟩ path
  have kept := keeps s trace t f log k holds path
  refine ⟨kept, fun later m earlier split => ?_⟩
  cases later with
  | nil =>
      obtain ⟨rfl, rfl⟩ := List.cons.inj split
      exact ⟨holds, kept, f, log, k, path, rfl, rfl⟩
  | cons _ later => exact old later m earlier (List.cons.inj split).2

/-- Every act of a run is reached with the invariant. -/
theorem Traced.moment (keeps : ActKeeps S J) (start : J init []) {c : Config σ L N Q R C O}
    {trace later earlier : List (Moment σ N C)} {m : Moment σ N C} (run : Traced S init c trace)
    (split : trace = later ++ m :: earlier) : Reached S J m earlier := by
  refine (run.invariant keeps.moments ⟨start, fun later m earlier none => ?_⟩).2 later m earlier split
  exact absurd none.symm (List.append_ne_nil_of_right_ne_nil later (List.cons_ne_nil m earlier))

end

/-! ## The acts of a schedule -/

section
variable [DecidableEq L] (S : System σ L N Q R C O)

/-- The acts of one scheduling decision. -/
def Choice.trail (c : Config σ L N Q R C O) : Choice L Q R C → List (Moment σ N C)
  | .spawn call => (S.program call).trail (c.nextTag call) c.state
  | .grant l =>
      match c.waiting l with
      | x :: _ =>
          match x.body with
          | .lock _ k => k.trail x.tag c.state
          | _ => []
      | [] => []
  | .reply i oracle =>
      match c.pending[i]? with
      | some x =>
          match x.body with
          | .request q k =>
              match oracle q with
              | some r => (k r).trail x.tag c.state
              | none => []
          | _ => []
      | none => []

/-- The acts of a schedule after those of `trace`, as far as it can be executed. -/
def trailAll : Config σ L N Q R C O → List (Choice L Q R C) → List (Moment σ N C) → List (Moment σ N C)
  | _, [], trace => trace
  | c, d :: ds, trace =>
      match exec S c d with
      | some c' => trailAll c' ds (d.trail S c ++ trace)
      | none => trace

variable {S} {init : σ}

theorem traced_exec {c c' : Config σ L N Q R C O} {trace : List (Moment σ N C)} {d : Choice L Q R C}
    (run : Traced S init c trace) (done : exec S c d = some c') (may : Permitted S c d) :
    Traced S init c' (d.trail S c ++ trace) := by
  cases d with
  | spawn call =>
      cases done
      exact .spawn run call may
  | grant l =>
      simp only [exec] at done
      cases held : c.held l with
      | true => simp [held] at done
      | false =>
          cases queue : c.waiting l with
          | nil => simp [held, queue] at done
          | cons x rest =>
              cases body : x.body with
              | lock l' k =>
                  simp only [held, queue, body] at done
                  split_ifs at done with same
                  cases done
                  simp only [Choice.trail, queue, body]
                  exact .grant run l x rest k held queue (same ▸ body)
              | _ => simp [held, queue, body] at done
  | reply i oracle =>
      simp only [exec] at done
      simp only [Permitted] at may
      cases found : c.pending[i]? with
      | none => simp [found] at done
      | some x =>
          cases body : x.body with
          | request q k =>
              simp only [found, body, Option.map_eq_some_iff] at done may
              obtain ⟨r, answered, rfl⟩ := done
              obtain ⟨inside, rfl⟩ := List.getElem?_eq_some_iff.mp found
              simp only [Choice.trail, found, body, answered]
              rw [List.eraseIdx_eq_take_drop_succ]
              refine .reply run (c.pending.take i) _ (c.pending.drop (i + 1)) q k r ?_ body (may r answered)
              simp
          | _ => simp [found, body] at done

/-- A schedule that executes and is permitted throughout is a run with these acts. -/
theorem traced_execAll {c c' : Config σ L N Q R C O} {trace : List (Moment σ N C)} (ds : List (Choice L Q R C))
    (run : Traced S init c trace) (done : execAll S c ds = some c') (may : AllPermitted S c ds) :
    Traced S init c' (trailAll S c ds trace) := by
  induction ds generalizing c trace with
  | nil => cases done; exact run
  | cons d ds ih =>
      obtain ⟨middle, first, rest⟩ := Option.bind_eq_some_iff.mp done
      simp only [trailAll, first]
      exact ih (traced_exec run first may.1) rest (may.2 middle first)

/-- A system that answers anything permits a schedule of calls that are always allowed. -/
theorem allPermitted_free (free : ∀ s s' q r, S.mayReply s s' q r) {ds : List (Choice L Q R C)}
    (calls : ∀ call, .spawn call ∈ ds → ∀ s flight, S.mayCall s flight call) (c : Config σ L N Q R C O) :
    AllPermitted S c ds := by
  induction ds generalizing c with
  | nil => trivial
  | cons d ds ih =>
      refine ⟨?_, fun c' _ => ih (fun call inside => calls call (List.mem_cons_of_mem d inside)) c'⟩
      cases d with
      | spawn call => exact calls call List.mem_cons_self _ _
      | grant l => trivial
      | reply i oracle =>
          simp only [Permitted]
          split
          · split
            · exact fun r _ => free _ _ _ r
            · trivial
          · trivial

/-! ## A call by itself -/

namespace Machine

/-- Run a task to its end while no other runs, if no lock is held; the outside answers
at once. -/
def alone (oracle : (q : Q) → R q) (t : Tag C) :
    Program σ L N Q R O → Machine σ L N Q R C O → Option (Machine σ L N Q R C O)
  | .ret o, m => some (m.noting (.returned t o))
  | .act f log k, m => alone oracle t (k m.state) (m.acting t f log)
  | .unlock l k, m => alone oracle t k (m.setHeld l false)
  | .lock l k, m => if m.held l then none else alone oracle t k (m.setHeld l true)
  | .request q k, m => alone oracle t (k (oracle q)) ((m.noting (.requested t q)).noting (.replied t q (oracle q)))

end Machine

/-- Nobody waits. -/
def Config.Quiet (c : Config σ L N Q R C O) : Prop := c.pending = [] ∧ ∀ l, c.waiting l = []

/-- A task that runs alone comes to its end in a run of the system. -/
theorem reachable_alone (free : ∀ s s' q r, S.mayReply s s' q r) (oracle : (q : Q) → R q) {t : Tag C}
    {p : Program σ L N Q R O} {c : Config σ L N Q R C O} {m m' : Machine σ L N Q R C O} (quiet : c.Quiet)
    (run : Reachable S init (c.run t p m)) (ends : m.alone oracle t p = some m') :
    ∃ c', Reachable S init c' ∧ c'.toMachine = m' ∧ c'.Quiet := by
  induction p generalizing m c with
  | ret o =>
      cases ends
      exact ⟨_, run, rfl, quiet⟩
  | act f log k ih => exact ih m.state (m := m.acting t f log) quiet run ends
  | unlock l k ih => exact ih (m := m.setHeld l false) quiet run ends
  | lock l k ih =>
      simp only [Machine.alone] at ends
      split at ends
      · cases ends
      · rename_i unheld
        let c₁ := c.run t (.lock l k) m
        have head : c₁.waiting l = [⟨t, m.state, .lock l k⟩] := by
          change Function.update c.waiting l (c.waiting l ++ [_]) l = _
          rw [Function.update_self, quiet.2 l]
          rfl
        have granted := Reachable.step run (.grant c₁ l _ _ k (Bool.not_eq_true _ ▸ unheld) head rfl)
        refine ih (c := { c₁ with waiting := Function.update c₁.waiting l [] }) (m := m.setHeld l true) ?_ granted ends
        refine ⟨quiet.1, fun l' => ?_⟩
        change Function.update (Function.update c.waiting l _) l [] l' = []
        rw [Function.update_idem]
        by_cases same : l' = l
        · rw [same, Function.update_self]
        · rw [Function.update_of_ne same, quiet.2 l']
  | request q k ih =>
      let c₁ := c.run t (.request q k) m
      have found : c₁.pending = [] ++ ⟨t, m.state, .request q k⟩ :: [] := by
        change c.pending ++ [_] = _
        rw [quiet.1]
        rfl
      have answered := Reachable.step run (.reply c₁ [] _ [] q k (oracle q) found rfl (free _ _ _ _))
      exact ih (oracle q) (c := { c₁ with pending := [] })
        (m := (m.noting (.requested t q)).noting (.replied t q (oracle q))) ⟨rfl, quiet.2⟩ answered ends

/-- A call that runs alone. -/
theorem reachable_call (free : ∀ s s' q r, S.mayReply s s' q r) (oracle : (q : Q) → R q) {c : Config σ L N Q R C O}
    {m' : Machine σ L N Q R C O} (run : Reachable S init c) (quiet : c.Quiet) (call : C)
    (may : S.mayCall c.state c.InFlight call)
    (ends : (c.issued call).alone oracle (c.nextTag call) (S.program call) = some m') :
    ∃ c', Reachable S init c' ∧ c'.toMachine = m' ∧ c'.Quiet :=
  reachable_alone free oracle quiet (.step run (.spawn c call may)) ends

end
end Coroutine

import I3xServer.Coroutine.History

/-!
# Invariants that tell the calls apart

No two suspended tasks share a tag, and every tag in the history belongs to a
call that was issued. An invariant may therefore speak about one call by its tag:
what the running task does leaves the clauses about all other tags alone. The
rules are the ones for multisets of entries, with this knowledge added.
-/
namespace Coroutine
variable {σ L N Q C O G α β : Type} {R : Q → Type}

def Event.tag : Event N Q R C O → Tag C
  | .spawned t => t
  | .noted t _ => t
  | .requested t _ => t
  | .replied t _ _ => t
  | .returned t _ => t

/-- The tags of the suspended tasks are distinct, and all tags were issued. -/
structure Distinct (B : Multiset (Entry C G)) (h : History N Q R C O) (calls : Nat) : Prop where
  nodup : (B.map fun e => e.tag.id).Nodup
  issued : ∀ e ∈ B, e.tag.id < calls
  recorded : ∀ event ∈ h, event.tag.id < calls

/-- The task `t` runs beside the suspended tasks `B`. -/
structure Running (t : Tag C) (B : Multiset (Entry C G)) (h : History N Q R C O) (calls : Nat) : Prop where
  distinct : Distinct B h calls
  alone : ∀ e ∈ B, e.tag.id ≠ t.id
  issued : t.id < calls

theorem Running.other {t : Tag C} {B : Multiset (Entry C G)} {h : History N Q R C O} {calls : Nat}
    (running : Running t B h calls) : ∀ e ∈ B, e.tag ≠ t :=
  fun e inside same => running.alone e inside (congrArg Tag.id same)

theorem distinct_cons {t : Tag C} {g : G} {B : Multiset (Entry C G)} {h : History N Q R C O} {calls : Nat} :
    Distinct (⟨t, g⟩ ::ₘ B) h calls ↔ Running t B h calls := by
  constructor
  · rintro ⟨nodup, issued, recorded⟩
    rw [Multiset.map_cons, Multiset.nodup_cons] at nodup
    have others := fun e inside => issued e (Multiset.mem_cons_of_mem inside)
    refine ⟨⟨nodup.2, others, recorded⟩, fun e inside same => ?_, issued _ (Multiset.mem_cons_self _ _)⟩
    exact nodup.1 (Multiset.mem_map.mpr ⟨e, inside, same⟩)
  · rintro ⟨⟨nodup, issued, recorded⟩, alone, here⟩
    refine ⟨?_, fun e inside => ?_, recorded⟩
    · rw [Multiset.map_cons, Multiset.nodup_cons]
      refine ⟨fun shared => ?_, nodup⟩
      obtain ⟨e, inside, same⟩ := Multiset.mem_map.mp shared
      exact alone e inside same
    · rcases Multiset.mem_cons.mp inside with rfl | other
      · exact here
      · exact issued e other

theorem Running.grow {t : Tag C} {B : Multiset (Entry C G)} {h : History N Q R C O} {calls : Nat}
    (running : Running t B h calls) {more : History N Q R C O} (own : ∀ event ∈ more, event.tag = t) :
    Running t B (more ++ h) calls := by
  refine ⟨⟨running.distinct.nodup, running.distinct.issued, fun event inside => ?_⟩, running.alone, running.issued⟩
  rcases List.mem_append.mp inside with new | old
  · rw [own event new]
    exact running.issued
  · exact running.distinct.recorded event old

theorem Running.record {t : Tag C} {B : Multiset (Entry C G)} {h : History N Q R C O} {calls : Nat}
    (running : Running t B h calls) {event : Event N Q R C O} (own : event.tag = t) :
    Running t B (event :: h) calls := by
  refine ⟨⟨running.distinct.nodup, running.distinct.issued, fun other inside => ?_⟩, running.alone, running.issued⟩
  rcases List.mem_cons.mp inside with rfl | old
  · rw [own]
    exact running.issued
  · exact running.distinct.recorded other old

theorem tag_of_noted {t : Tag C} {ns : List N} {event : Event N Q R C O}
    (inside : event ∈ (noted t ns : History N Q R C O)) : event.tag = t := by
  obtain ⟨n, _, rfl⟩ := mem_noted.mp inside
  rfl

/-- A new call has a tag that nothing else carries. -/
theorem Distinct.spawn {B : Multiset (Entry C G)} {h : History N Q R C O} {calls : Nat}
    (distinct : Distinct B h calls) (call : C) :
    Running ⟨calls, call⟩ B (.spawned ⟨calls, call⟩ :: h) (calls + 1) := by
  refine ⟨⟨distinct.nodup, fun e inside => Nat.lt_succ_of_lt (distinct.issued e inside), fun event inside => ?_⟩, ?_, ?_⟩
  · rcases List.mem_cons.mp inside with rfl | old
    · exact Nat.lt_succ_self calls
    · exact Nat.lt_succ_of_lt (distinct.recorded event old)
  · rintro e inside same
    have less := distinct.issued e inside
    rw [same] at less
    exact Nat.lt_irrefl _ less
  · exact Nat.lt_succ_self calls

section
variable [DecidableEq L] [Fintype L] {mayReply : σ → σ → (q : Q) → R q → Prop}
  (J : σ → History N Q R C O → Multiset (Entry C G) → Prop) (t : Tag C)

/-- An invariant of the state, the history and the suspended tasks, known by their tags. -/
def Named (v : View σ L N Q R C O G) : Prop := Distinct v.bag v.history v.calls ∧ Unordered J v

/-- What holds while task `t` runs and could suspend with ghost `g`. -/
structure Runs (g : G) (v : View σ L N Q R C O G) : Prop where
  running : Running t v.bag v.history v.calls
  holds : J v.state v.history (⟨t, g⟩ ::ₘ v.bag)

variable {J t}

omit [DecidableEq L] in
theorem Runs.suspend {g : G} {v w : View σ L N Q R C O G} (runs : Runs J t g v)
    (machine : w.toMachine = v.toMachine) (bag : w.bag = ⟨t, g⟩ ::ₘ v.bag) : Named J w := by
  have state : w.state = v.state := congrArg Machine.state machine
  have history : w.history = v.history := congrArg Machine.history machine
  have calls : w.calls = v.calls := congrArg Machine.calls machine
  unfold Named Unordered
  rw [bag, history, calls, state]
  exact ⟨distinct_cons.mpr runs.running, runs.holds⟩

omit [DecidableEq L] in
theorem Runs.resume {g : G} {v w : View σ L N Q R C O G} (named : Named J w)
    (machine : w.toMachine = v.toMachine) (bag : w.bag = ⟨t, g⟩ ::ₘ v.bag) : Runs J t g v := by
  have state : w.state = v.state := congrArg Machine.state machine
  have history : w.history = v.history := congrArg Machine.history machine
  have calls : w.calls = v.calls := congrArg Machine.calls machine
  unfold Named Unordered at named
  rw [bag, history, calls, state] at named
  exact ⟨distinct_cons.mp named.1, named.2⟩

theorem Runs.of_ahead {g : G} {v : View σ L N Q R C O G} {l : L} (named : Named J (v.ahead l ⟨t, g⟩)) :
    Runs J t g v := Runs.resume named rfl (v.bag_ahead l _)

omit [DecidableEq L] in
theorem Runs.of_park {g : G} {v : View σ L N Q R C O G} (named : Named J (v.park ⟨t, g⟩)) : Runs J t g v :=
  Runs.resume named rfl (v.bag_park _)

theorem Runs.setHeld {g : G} {v : View σ L N Q R C O G} (runs : Runs J t g v) (l : L) (b : Bool) :
    Runs J t g (v.setHeld l b) := ⟨runs.running, runs.holds⟩

omit [DecidableEq L] in
/-- The task acts and takes another ghost. -/
theorem Runs.acting {g g' : G} {v : View σ L N Q R C O G} (runs : Runs J t g v) {f : σ → σ} {log : σ → List N}
    (new : J (f v.state) (noted t (log v.state) ++ v.history) (⟨t, g'⟩ ::ₘ v.bag)) :
    Runs J t g' (v.acting t f log) := ⟨runs.running.grow fun _ => tag_of_noted, new⟩

omit [DecidableEq L] in
theorem Runs.noting {g g' : G} {v : View σ L N Q R C O G} (runs : Runs J t g v) {event : Event N Q R C O}
    (own : event.tag = t) (new : J v.state (event :: v.history) (⟨t, g'⟩ ::ₘ v.bag)) :
    Runs J t g' (v.noting event) :=
  ⟨runs.running.record own, new⟩

theorem wp_acquire_named {post : Unit → View σ L N Q R C O G → Prop} (l : L) {v : View σ L N Q R C O G}
    {g : G} (runs : Runs J t g v) (resume : ∀ v' : View σ L N Q R C O G, Runs J t g v' → post () v') :
    wp mayReply (Named J) t post (.acquire l) v := by
  refine ⟨g, runs.suspend rfl (v.bag_enqueue l _), fun v' _ named => resume _ ?_⟩
  exact (Runs.of_ahead named).setHeld l true

/-- A critical section: what it needs of the state in which it runs is proved there. -/
theorem wp_locked_named {post : α → View σ L N Q R C O G → Prop} (l : L) (f : σ → α × σ × List N)
    {v : View σ L N Q R C O G} {g : G} (runs : Runs J t g v)
    (resume : ∀ v' : View σ L N Q R C O G, Runs J t g v' →
      ∀ w : View σ L N Q R C O G, w.state = (f v'.state).2.1 →
        w.history = noted t (f v'.state).2.2 ++ v'.history → w.bag = v'.bag →
        Running t w.bag w.history w.calls → post (f v'.state).1 w) :
    wp mayReply (Named J) t post (.locked l f) v := by
  refine wp_locked l f g (runs.suspend rfl (v.bag_enqueue l _)) fun v' _ named => ?_
  have woken := Runs.of_ahead named
  exact resume v' woken _ rfl rfl rfl (woken.running.grow fun _ => tag_of_noted)

theorem wp_ask_named {q : Q} {post : R q → View σ L N Q R C O G → Prop} {v : View σ L N Q R C O G} {g : G}
    (runs : Runs J t g (v.noting (.requested t q)))
    (resume : ∀ (v' : View σ L N Q R C O G) (r : R q), mayReply v.state v'.state q r →
      Runs J t g v' → post r (v'.noting (.replied t q r))) :
    wp mayReply (Named J) t post (.ask q) v :=
  wp_ask g (runs.suspend rfl (View.bag_park _ _)) fun v' r may named =>
    resume v' r may (Runs.of_park named)

/-- Everything that a task does within `T` keeps the invariant, its ghost included. -/
structure Undisturbed (J : σ → History N Q R C O → Multiset (Entry C G) → Prop) (t : Tag C) (g : G)
    (T : Program.Memory N Q R → σ → List N → σ → Prop) : Prop where
  act : ∀ m s h B ns s', J s h (⟨t, g⟩ ::ₘ B) → (∀ e ∈ B, e.tag.id ≠ t.id) → T m s ns s' →
    J s' (noted t ns ++ h) (⟨t, g⟩ ::ₘ B)
  requested : ∀ s h B q, J s h (⟨t, g⟩ ::ₘ B) → (∀ e ∈ B, e.tag.id ≠ t.id) →
    J s (.requested t q :: h) (⟨t, g⟩ ::ₘ B)
  replied : ∀ s h B q r, J s h (⟨t, g⟩ ::ₘ B) → (∀ e ∈ B, e.tag.id ≠ t.id) →
    J s (.replied t q r :: h) (⟨t, g⟩ ::ₘ B)

theorem Undisturbed.wp {g : G} {T : Program.Memory N Q R → σ → List N → σ → Prop}
    (undisturbed : Undisturbed J t g T) {p : Program σ L N Q R α} (inside : p.Within T)
    {v : View σ L N Q R C O G} (runs : Runs J t g v) :
    Coroutine.wp mayReply (Named J) t (fun _ v' => Runs J t g v') p v := by
  have stable : Stable mayReply (Named J : View σ L N Q R C O G → Prop) t T fun _ v => Runs J t g v := by
    refine ⟨fun m v f log runs moves => ?_, fun m v l runs => runs.setHeld l false,
      fun m v l runs => ⟨g, ?_, fun v' _ named => ?_⟩, fun m v q runs => ⟨g, ?_, fun v' r _ named => ?_⟩⟩
    · exact runs.acting (undisturbed.act _ _ _ _ _ _ runs.holds runs.running.alone moves)
    · exact runs.suspend rfl (v.bag_enqueue l _)
    · exact (Runs.of_ahead named).setHeld l true
    · have noting : Runs J t g (v.noting (.requested t q)) :=
        runs.noting rfl (undisturbed.requested _ _ _ q runs.holds runs.running.alone)
      exact noting.suspend rfl (View.bag_park _ _)
    · have woken := Runs.of_park named
      exact woken.noting rfl (undisturbed.replied _ _ _ q r woken.holds woken.running.alone)
  exact wp_mono (wp_of_within stable (inside []) runs) fun _ _ ⟨_, holds⟩ => holds

/-- One critical section of such a task, with the state in which it ran. -/
theorem Undisturbed.wp_locked {g : G} {T : Program.Memory N Q R → σ → List N → σ → Prop}
    (undisturbed : Undisturbed J t g T) (l : L) {f : σ → α × σ × List N}
    (inside : ∀ s, T [] s (f s).2.2 (f s).2.1) {v : View σ L N Q R C O G} (runs : Runs J t g v) :
    Coroutine.wp mayReply (Named J) t
      (fun a w => Runs J t g w ∧ ∃ v' : View σ L N Q R C O G,
        Runs J t g v' ∧ a = (f v'.state).1 ∧ w.state = (f v'.state).2.1) (.locked l f) v := by
  refine wp_locked_named l f runs fun v' woken w state history bag running => ⟨⟨running, ?_⟩, v', woken, rfl, state⟩
  rw [state, history, bag]
  exact undisturbed.act [] _ _ _ _ _ woken.holds woken.running.alone (inside _)

/-- A call is over when the invariant holds without it. -/
def Ends (J : σ → History N Q R C O → Multiset (Entry C G) → Prop) (t : Tag C) (o : O)
    (v : View σ L N Q R C O G) : Prop :=
  Running t v.bag v.history v.calls ∧ J v.state (.returned t o :: v.history) v.bag

theorem reachable_named {S : System σ L N Q R C O} {init : σ} (start : J init [] 0)
    (calls : ∀ (v : View σ L N Q R C O G) call, Distinct v.bag v.history v.calls → J v.state v.history v.bag →
      S.mayCall v.state v.InFlight call →
      wp S.mayReply (Named J) ⟨v.calls, call⟩ (Ends J ⟨v.calls, call⟩) (S.program call) (v.issued call))
    {c : Config σ L N Q R C O} (h : Reachable S init c) :
    ∃ v : View σ L N Q R C O G, v.toMachine = c.toMachine ∧ Distinct v.bag v.history v.calls ∧
      J v.state v.history v.bag ∧ ∀ t, v.InFlight t ↔ c.InFlight t := by
  have empty : (View.start init : View σ L N Q R C O G).bag = 0 := by
    refine Multiset.eq_zero_of_forall_notMem fun e inside => ?_
    rw [View.mem_bag] at inside
    rcases inside with ⟨l, queued⟩ | parked
    · cases queued
    · cases parked
  have first : Named J (View.start init : View σ L N Q R C O G) := by
    unfold Named Unordered
    rw [empty]
    exact ⟨⟨Multiset.nodup_zero, nofun, nofun⟩, start⟩
  obtain ⟨v, machine, aligned, holds⟩ := reachable_represented (I := Named J) first
    (fun v call named may => wp_mono (calls v call named.1 named.2 may) fun o v' ends =>
      ⟨(ends.1.record rfl).distinct, ends.2⟩) h
  exact ⟨v, machine, holds.1, holds.2, aligned.inFlight_iff⟩

end

/-! ## What a step moves -/

section
variable [DecidableEq L] {S : System σ L N Q R C O}

theorem advance_history (t : Tag C) (p : Program σ L N Q R O) (m : Machine σ L N Q R C O) :
    ∃ events : History N Q R C O, (m.advance t p).1.history = events ++ m.history ∧
      ∀ event ∈ events, event.tag = t := by
  induction p generalizing m with
  | ret o => exact ⟨[.returned t o], rfl, fun event inside => List.mem_singleton.mp inside ▸ rfl⟩
  | act f log k ih =>
      obtain ⟨events, history, own⟩ := ih m.state (m.acting t f log)
      refine ⟨events ++ noted t (log m.state), ?_, fun event inside => ?_⟩
      · rw [List.append_assoc]
        exact history
      · exact (List.mem_append.mp inside).elim (own event) tag_of_noted
  | lock l k ih => exact ⟨[], rfl, fun _ => nofun⟩
  | unlock l k ih => exact ih (m.setHeld l false)
  | request q k ih => exact ⟨[.requested t q], rfl, fun event inside => List.mem_singleton.mp inside ▸ rfl⟩

theorem inFlight_suspend (c : Config σ L N Q R C O) (t : Tag C)
    (next : Machine σ L N Q R C O × Program σ L N Q R O) {u : Tag C} (other : u ≠ t) :
    (c.suspend t next).InFlight u ↔ c.InFlight u := by
  have absent {o : Program σ L N Q R O} {s : σ} : (⟨t, s, o⟩ : Task σ L N Q R C O).tag ≠ u := fun same => other same.symm
  obtain ⟨machine, body⟩ := next
  cases body with
  | lock l k =>
      constructor
      · rintro ⟨x, (⟨l', inside⟩ | inside), rfl⟩
        · simp only [Config.suspend] at inside
          by_cases here : l' = l
          · subst here
            rw [Function.update_self, List.mem_append, List.mem_singleton] at inside
            rcases inside with old | rfl
            · exact ⟨x, .inl ⟨l', old⟩, rfl⟩
            · exact absurd rfl absent
          · rw [Function.update_of_ne here] at inside
            exact ⟨x, .inl ⟨l', inside⟩, rfl⟩
        · exact ⟨x, .inr inside, rfl⟩
      · rintro ⟨x, (⟨l', inside⟩ | inside), rfl⟩
        · refine ⟨x, .inl ⟨l', ?_⟩, rfl⟩
          simp only [Config.suspend]
          by_cases here : l' = l
          · subst here
            rw [Function.update_self]
            exact List.mem_append_left _ inside
          · rw [Function.update_of_ne here]
            exact inside
        · exact ⟨x, .inr inside, rfl⟩
  | request q k =>
      constructor
      · rintro ⟨x, (inside | inside), rfl⟩
        · exact ⟨x, .inl inside, rfl⟩
        · simp only [Config.suspend, List.mem_append, List.mem_singleton] at inside
          rcases inside with old | rfl
          · exact ⟨x, .inr old, rfl⟩
          · exact absurd rfl absent
      · rintro ⟨x, (inside | inside), rfl⟩
        · exact ⟨x, .inl inside, rfl⟩
        · exact ⟨x, .inr (List.mem_append_left _ inside), rfl⟩
  | _ => exact Iff.rfl

/-- A step adds events of one call and moves no other call. -/
theorem step_moves {c c' : Config σ L N Q R C O} (step : Step S c c') :
    ∃ (t : Tag C) (events : History N Q R C O), c'.history = events ++ c.history ∧
      (∀ event ∈ events, event.tag = t) ∧ ∀ u ≠ t, c'.InFlight u ↔ c.InFlight u := by
  cases step with
  | spawn call may =>
      obtain ⟨events, history, own⟩ := advance_history (c.nextTag call) (S.program call) (c.issued call)
      have shown : (c.spawn call (S.program call)).history =
          ((c.issued call).advance (c.nextTag call) (S.program call)).1.history := by
        simp only [Config.spawn, Config.run, Config.suspend]
        split <;> rfl
      refine ⟨c.nextTag call, events ++ [.spawned (c.nextTag call)], ?_, fun event inside => ?_, fun u other => ?_⟩
      · rw [shown, history, List.append_assoc]
        rfl
      · rcases List.mem_append.mp inside with new | first
        · exact own event new
        · rw [List.mem_singleton.mp first]
          rfl
      · exact inFlight_suspend c _ _ other
  | grant l x rest k free head body =>
      obtain ⟨events, history, own⟩ := advance_history x.tag k (c.toMachine.setHeld l true)
      have shown : (c.grant l x rest k).history = ((c.toMachine.setHeld l true).advance x.tag k).1.history := by
        simp only [Config.grant, Config.run, Config.suspend]
        split <;> rfl
      refine ⟨x.tag, events, by rw [shown, history]; rfl, own, fun u other => ?_⟩
      refine (inFlight_suspend _ _ _ other).trans ⟨?_, ?_⟩
      · rintro ⟨y, (⟨l', inside⟩ | inside), rfl⟩
        · dsimp only at inside
          by_cases here : l' = l
          · subst here
            rw [Function.update_self] at inside
            exact ⟨y, .inl ⟨l', by rw [head]; exact List.mem_cons_of_mem x inside⟩, rfl⟩
          · rw [Function.update_of_ne here] at inside
            exact ⟨y, .inl ⟨l', inside⟩, rfl⟩
        · exact ⟨y, .inr inside, rfl⟩
      · rintro ⟨y, (⟨l', inside⟩ | inside), rfl⟩
        · refine ⟨y, .inl ⟨l', ?_⟩, rfl⟩
          dsimp only
          by_cases here : l' = l
          · subst here
            rw [head] at inside
            rw [Function.update_self]
            rcases List.mem_cons.mp inside with rfl | later
            · exact absurd rfl other
            · exact later
          · rw [Function.update_of_ne here]
            exact inside
        · exact ⟨y, .inr inside, rfl⟩
  | reply before x after q k r found body may =>
      obtain ⟨events, history, own⟩ := advance_history x.tag (k r) (c.toMachine.noting (.replied x.tag q r))
      have shown : (c.answer x (before ++ after) q r k).history =
          ((c.toMachine.noting (.replied x.tag q r)).advance x.tag (k r)).1.history := by
        simp only [Config.answer, Config.run, Config.suspend]
        split <;> rfl
      refine ⟨x.tag, events ++ [.replied x.tag q r], ?_, fun event inside => ?_, fun u other => ?_⟩
      · rw [shown, history, List.append_assoc]
        rfl
      · rcases List.mem_append.mp inside with new | first
        · exact own event new
        · rw [List.mem_singleton.mp first]
          rfl
      · refine (inFlight_suspend _ _ _ other).trans ⟨?_, ?_⟩
        · rintro ⟨y, (inside | inside), rfl⟩
          · exact ⟨y, .inl inside, rfl⟩
          · refine ⟨y, .inr ?_, rfl⟩
            rw [found]
            rcases List.mem_append.mp inside with first | last
            · exact List.mem_append_left _ first
            · exact List.mem_append_right _ (List.mem_cons_of_mem x last)
        · rintro ⟨y, (inside | inside), rfl⟩
          · exact ⟨y, .inl inside, rfl⟩
          · refine ⟨y, .inr ?_, rfl⟩
            rw [found] at inside
            rcases List.mem_append.mp inside with first | last
            · exact List.mem_append_left _ first
            · rcases List.mem_cons.mp last with rfl | later
              · exact absurd rfl other
              · exact List.mem_append_right _ later

end
end Coroutine

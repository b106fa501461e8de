import I3xServer.Coroutine.Unordered

/-!
# Histories of runs

Properties of every event of a run with the history before it, and invariants
that read the shared state and the history alone.
-/
namespace Coroutine
variable {σ L N Q C O α : Type} {R : Q → Type}

/-- Every event satisfies `P` together with the history before it. -/
def Throughout (P : Event N Q R C O → History N Q R C O → Prop) (h : History N Q R C O) : Prop :=
  ∀ later event earlier, h = later ++ event :: earlier → P event earlier

theorem Throughout.nil {P : Event N Q R C O → History N Q R C O → Prop} : Throughout P [] := by
  intro later event earlier same
  cases later <;> cases same

theorem throughout_cons {P : Event N Q R C O → History N Q R C O → Prop} {event : Event N Q R C O}
    {h : History N Q R C O} : Throughout P (event :: h) ↔ P event h ∧ Throughout P h := by
  constructor
  · intro all
    refine ⟨all [] event h rfl, ?_⟩
    intro later other earlier same
    exact all (event :: later) other earlier (by rw [same, List.cons_append])
  · rintro ⟨first, rest⟩ later other earlier same
    cases later with
    | nil =>
        cases same
        exact first
    | cons _ later =>
        cases same
        exact rest later other earlier rfl

theorem Throughout.append_right {P : Event N Q R C O → History N Q R C O → Prop}
    {h h' : History N Q R C O} (all : Throughout P (h' ++ h)) : Throughout P h := by
  intro later event earlier same
  exact all (h' ++ later) event earlier (by rw [same, List.append_assoc])

theorem Throughout.noted {P : Event N Q R C O → History N Q R C O → Prop} {t : Tag C} {ns : List N}
    {h : History N Q R C O} (all : Throughout P h) (each : ∀ n ∈ ns, ∀ before, P (.noted t n) before) :
    Throughout P (Coroutine.noted t ns ++ h) := by
  induction ns generalizing h with
  | nil => exact all
  | cons n ns ih =>
      have shift : Coroutine.noted t (n :: ns) ++ h =
          (Coroutine.noted t ns ++ .noted t n :: h : History N Q R C O) := by
        simp only [Coroutine.noted, List.map_cons, List.reverse_cons, List.append_assoc,
          List.singleton_append]
      rw [shift]
      refine ih (throughout_cons.mpr ⟨each n List.mem_cons_self h, all⟩) ?_
      exact fun m inside => each m (List.mem_cons_of_mem n inside)

theorem noted_cons (t : Tag C) (n : N) (ns : List N) (h : History N Q R C O) :
    noted t (n :: ns) ++ h = noted t ns ++ .noted t n :: h := by
  simp only [noted, List.map_cons, List.reverse_cons, List.append_assoc, List.singleton_append]

theorem noted_append (t : Tag C) (ns ms : List N) (h : History N Q R C O) :
    noted t (ns ++ ms) ++ h = noted t ms ++ (noted t ns ++ h) := by
  simp only [noted, List.map_append, List.reverse_append, List.append_assoc]

theorem mem_noted {t : Tag C} {ns : List N} {event : Event N Q R C O} :
    event ∈ (noted t ns : History N Q R C O) ↔ ∃ n ∈ ns, event = .noted t n := by
  simp only [noted, List.mem_reverse, List.mem_map]
  exact ⟨fun ⟨n, inside, same⟩ => ⟨n, inside, same.symm⟩, fun ⟨n, inside, same⟩ => ⟨n, inside, same.symm⟩⟩

/-- How an event a task remembers stands in the history. -/
def Program.Witness.event (t : Tag C) : Witness N Q R → Event N Q R C O
  | .noted n => .noted t n
  | .replied q r => .replied t q r

/-- The invariant `J`, with each suspended task's memory recorded in the history. -/
def Remembering (J : σ → History N Q R C O → Prop) (s : σ) (h : History N Q R C O)
    (B : Multiset (Entry C (Program.Memory N Q R))) : Prop :=
  J s h ∧ ∀ e ∈ B, ∀ w ∈ e.ghost, Program.Witness.event e.tag w ∈ h

section
variable [DecidableEq L] [Fintype L] {S : System σ L N Q R C O}
  {T : Tag C → Program.Memory N Q R → σ → List N → σ → Prop} {J : σ → History N Q R C O → Prop}

/-- An invariant of state and history that every update of every call keeps, and
every event that is neither a note nor the return of a call. -/
structure Kept (T : Tag C → Program.Memory N Q R → σ → List N → σ → Prop)
    (J : σ → History N Q R C O → Prop) : Prop where
  act : ∀ t m s h ns s', J s h → (∀ w ∈ m, Program.Witness.event t w ∈ h) → T t m s ns s' →
    J s' (noted t ns ++ h)
  spawned : ∀ s h t, J s h → J s (.spawned t :: h)
  requested : ∀ s h t q, J s h → J s (.requested t q :: h)
  replied : ∀ s h t q r, J s h → J s (.replied t q r :: h)

/-- The invariant as the running task sees it. -/
def Standing (J : σ → History N Q R C O → Prop) (v : View σ L N Q R C O (Program.Memory N Q R)) : Prop :=
  Remembering J v.state v.history v.bag

abbrev StandingInv (J : σ → History N Q R C O → Prop) :
    View σ L N Q R C O (Program.Memory N Q R) → Prop := Unordered (Remembering J)

theorem Remembering.grow {s s' : σ} {h : History N Q R C O} {B : Multiset (Entry C (Program.Memory N Q R))}
    (more : History N Q R C O) (holds : Remembering J s h B) (new : J s' (more ++ h)) :
    Remembering J s' (more ++ h) B :=
  ⟨new, fun e inside w remembered => List.mem_append_right _ (holds.2 e inside w remembered)⟩

theorem Remembering.park {s : σ} {h : History N Q R C O} {B : Multiset (Entry C (Program.Memory N Q R))}
    {t : Tag C} {m : Program.Memory N Q R} (holds : Remembering J s h B)
    (known : ∀ w ∈ m, Program.Witness.event t w ∈ h) : Remembering J s h (⟨t, m⟩ ::ₘ B) := by
  refine ⟨holds.1, fun e inside => ?_⟩
  rcases Multiset.mem_cons.mp inside with rfl | other
  · exact known
  · exact holds.2 e other

theorem Remembering.resume {s : σ} {h : History N Q R C O} {B : Multiset (Entry C (Program.Memory N Q R))}
    {t : Tag C} {m : Program.Memory N Q R} (holds : Remembering J s h (⟨t, m⟩ ::ₘ B)) :
    Remembering J s h B ∧ ∀ w ∈ m, Program.Witness.event t w ∈ h :=
  ⟨⟨holds.1, fun e inside => holds.2 e (Multiset.mem_cons_of_mem inside)⟩,
    holds.2 _ (Multiset.mem_cons_self _ _)⟩

/-- A task of such a system carries the invariant through all of its program. -/
theorem Kept.stable (kept : Kept T J) (t : Tag C) :
    Stable (L := L) S.mayReply (StandingInv J) t (T t)
      fun m v => Standing J v ∧ ∀ w ∈ m, Program.Witness.event t w ∈ v.history where
  act m v f log holds moves := by
    obtain ⟨standing, known⟩ := holds
    have next := kept.act t m _ _ _ _ standing.1 known moves
    refine ⟨standing.grow _ next, fun w inside => ?_⟩
    rcases List.mem_append.mp inside with new | old
    · obtain ⟨n, noted_, rfl⟩ := List.mem_map.mp new
      exact List.mem_append_left _ (mem_noted.mpr ⟨n, noted_, rfl⟩)
    · exact List.mem_append_right _ (known w old)
  unlock m v l holds := holds
  lock m v l holds :=
    ⟨m, (unordered_enqueue v l m).mpr (holds.1.park holds.2), fun v' _ inv =>
      Remembering.resume ((unordered_ahead v' l m).mp inv)⟩
  request m v q holds := by
    obtain ⟨standing, known⟩ := holds
    refine ⟨m, (unordered_park _ m).mpr ?_, fun v' r _ inv => ?_⟩
    · exact (standing.grow [_] (kept.requested _ _ t q standing.1)).park fun w inside =>
        List.mem_cons_of_mem _ (known w inside)
    · obtain ⟨standing, known⟩ := Remembering.resume ((unordered_park v' m).mp inv)
      refine ⟨standing.grow [_] (kept.replied _ _ t q r standing.1), fun w inside => ?_⟩
      rcases List.mem_cons.mp inside with rfl | old
      · exact List.mem_cons_self
      · exact List.mem_cons_of_mem _ (known w old)

theorem Kept.wp (kept : Kept T J) {t : Tag C} {p : Program σ L N Q R α} (inside : p.Within (T t))
    {v : View σ L N Q R C O (Program.Memory N Q R)} (h : Standing J v) :
    Coroutine.wp S.mayReply (StandingInv J) t (fun _ v' => Standing J v') p v :=
  wp_mono (wp_of_within (kept.stable t) (inside []) ⟨h, fun _ => nofun⟩) fun _ _ ⟨_, holds⟩ => holds.1

/-- A critical section, seen by an invariant of state and history. -/
theorem wp_locked_history {mayReply : σ → σ → (q : Q) → R q → Prop} {t : Tag C}
    {post : α → View σ L N Q R C O (Program.Memory N Q R) → Prop} (l : L) (f : σ → α × σ × List N)
    {v : View σ L N Q R C O (Program.Memory N Q R)} (h : Standing J v)
    (resume : ∀ v' w : View σ L N Q R C O (Program.Memory N Q R), Standing J v' →
      w.state = (f v'.state).2.1 → w.history = noted t (f v'.state).2.2 ++ v'.history → w.bag = v'.bag →
        post (f v'.state).1 w) :
    Coroutine.wp mayReply (StandingInv J) t post (.locked l f) v := by
  refine wp_locked_unordered (J := Remembering J) l f [] (h.park fun _ => nofun) ?_
  exact fun v' inv w state history bag => resume v' w (Remembering.resume inv).1 state history bag

/-- A call that stays within the relation and whose return the invariant accepts. -/
theorem Kept.call (kept : Kept T J) {call : C} {v : View σ L N Q R C O (Program.Memory N Q R)}
    (inside : (S.program call).Within (T ⟨v.calls, call⟩))
    (returned : ∀ s h o, J s h → J s (.returned ⟨v.calls, call⟩ o :: h)) (h : Standing J v) :
    Coroutine.wp S.mayReply (StandingInv J) ⟨v.calls, call⟩
      (fun o v' => Standing J (v'.noting (.returned ⟨v.calls, call⟩ o))) (S.program call)
      (v.issued call) := by
  have issued : Standing J (v.issued call) := h.grow [_] (kept.spawned _ _ ⟨v.calls, call⟩ h.1)
  exact wp_mono (kept.wp inside issued) fun o v' holds => holds.grow [_] (returned _ _ o holds.1)

theorem reachable_history {init : σ} (start : J init [])
    (calls : ∀ (v : View σ L N Q R C O (Program.Memory N Q R)) call, Standing J v →
      S.mayCall v.state v.InFlight call →
      Coroutine.wp S.mayReply (StandingInv J) ⟨v.calls, call⟩
        (fun o v' => Standing J (v'.noting (.returned ⟨v.calls, call⟩ o))) (S.program call)
        (v.issued call))
    {c : Config σ L N Q R C O} (h : Reachable S init c) : J c.state c.history := by
  have first : StandingInv J (View.start init : View σ L N Q R C O (Program.Memory N Q R)) := by
    refine ⟨start, fun e inside => ?_⟩
    rw [View.mem_bag] at inside
    rcases inside with ⟨l, queued⟩ | parked
    · cases queued
    · cases parked
  obtain ⟨v, machine, _, holds⟩ := reachable_represented (I := StandingInv J) first calls h
  rw [← machine]
  exact holds.1

end
end Coroutine

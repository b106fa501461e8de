import I3xServer.Coroutine.Traces

/-!
# What a lock excludes

A program guards requests by a lock when it takes the lock and gives it back in
turn and makes these requests only in between. If every program does so, one task
at most is inside the lock, and so one such request at most is under way.
-/
namespace Coroutine
variable {σ L N Q C O α β : Type} {R : Q → Type}

namespace Program
variable [DecidableEq L]

/-- The program makes requests in `P` only inside the lock; it begins inside or
outside as the second flag says, and ends as the first one says. -/
def Guarded (l : L) (P : Q → Prop) (after : Bool) : Bool → Program σ L N Q R α → Prop
  | inside, .ret _ => inside = after
  | inside, .act _ _ k => ∀ s, (k s).Guarded l P after inside
  | inside, .lock l' k =>
      if l' = l then inside = false ∧ k.Guarded l P after true else k.Guarded l P after inside
  | inside, .unlock l' k =>
      if l' = l then inside = true ∧ k.Guarded l P after false else k.Guarded l P after inside
  | inside, .request q k => (P q → inside = true) ∧ ∀ r, (k r).Guarded l P after inside

section
variable {l : L} {P : Q → Prop} {before inside after : Bool}

attribute [local simp] Guarded

theorem Guarded.bind {p : Program σ L N Q R α} {g : α → Program σ L N Q R β}
    (first : p.Guarded l P inside before) (rest : ∀ a, (g a).Guarded l P after inside) :
    (p.bind g).Guarded l P after before := by
  induction p generalizing before with
  | ret a =>
      subst first
      exact rest a
  | act f log k ih => exact fun s => ih s (first s)
  | lock l' k ih =>
      simp only [Program.bind, Guarded] at first ⊢
      split at first
      · rename_i same
        rw [if_pos same]
        exact ⟨first.1, ih first.2⟩
      · rename_i other
        rw [if_neg other]
        exact ih first
  | unlock l' k ih =>
      simp only [Program.bind, Guarded] at first ⊢
      split at first
      · rename_i same
        rw [if_pos same]
        exact ⟨first.1, ih first.2⟩
      · rename_i other
        rw [if_neg other]
        exact ih first
  | request q k ih => exact ⟨first.1, fun r => ih r (first.2 r)⟩

theorem Guarded.ret (a : α) : (Program.ret a : Program σ L N Q R α).Guarded l P after after := rfl

theorem Guarded.atomic (f : σ → α × σ × List N) :
    (Program.atomic f : Program σ L N Q R α).Guarded l P after after := fun _ => rfl

theorem Guarded.read (f : σ → α) : (Program.read f : Program σ L N Q R α).Guarded l P after after := fun _ => rfl

theorem Guarded.modify (f : σ → σ) :
    (Program.modify f : Program σ L N Q R Unit).Guarded l P after after := fun _ => rfl

theorem Guarded.ask {q : Q} (may : P q → after = true) :
    (Program.ask q : Program σ L N Q R (R q)).Guarded l P after after := ⟨may, fun _ => rfl⟩

theorem Guarded.acquire : (Program.acquire l : Program σ L N Q R Unit).Guarded l P true false := by
  simp [Program.acquire]

theorem Guarded.release : (Program.release l : Program σ L N Q R Unit).Guarded l P false true := by
  simp [Program.release]

end
end Program

section
variable [DecidableEq L] {l : L} {P : Q → Prop}

/-- A task that runs to its next suspension leaves the lock as it is, or leaves it. -/
theorem advance_guarded (t : Tag C) {p : Program σ L N Q R O} {inside : Bool} (m : Machine σ L N Q R C O)
    (guarded : p.Guarded l P false inside) :
    ∃ inside', (m.advance t p).2.Guarded l P false inside' ∧
      ((inside' = inside ∧ (m.advance t p).1.held l = m.held l) ∨ inside = true ∧ inside' = false) := by
  induction p generalizing inside m with
  | ret o => exact ⟨inside, guarded, .inl ⟨rfl, rfl⟩⟩
  | lock l' k ih => exact ⟨inside, guarded, .inl ⟨rfl, rfl⟩⟩
  | request q k ih => exact ⟨inside, guarded, .inl ⟨rfl, rfl⟩⟩
  | act f log k ih => exact ih m.state (m.acting t f log) (guarded m.state)
  | unlock l' k ih =>
      simp only [Program.Guarded] at guarded
      split at guarded
      · obtain ⟨here, rest⟩ := guarded
        obtain ⟨inside', later, ⟨same, -⟩ | ⟨again, -⟩⟩ := ih (m.setHeld l' false) rest
        · exact ⟨inside', later, .inr ⟨here, same⟩⟩
        · cases again
      · rename_i other
        obtain ⟨inside', later, ⟨same, held⟩ | left⟩ := ih (m.setHeld l' false) guarded
        · refine ⟨inside', later, .inl ⟨same, ?_⟩⟩
          rw [Machine.advance, held]
          exact Function.update_of_ne (Ne.symm other) _ _
        · exact ⟨inside', later, .inr left⟩

end

section
variable [DecidableEq L] [Fintype L] {S : System σ L N Q R C O} {init : σ} {l : L} {P : Q → Prop}

/-- One task at most, the owner, is inside the lock, and none is while it is free. -/
structure Owned (l : L) (P : Q → Prop) (held : Bool) (owner : Option Nat)
    (B : Multiset (Entry C (Program σ L N Q R O))) : Prop where
  guarded : ∀ e ∈ B, e.ghost.Guarded l P false (decide (owner = some e.tag.id))
  free : held = false → owner = none

theorem Owned.run {c : Config σ L N Q R C O} {m : Machine σ L N Q R C O} {owner : Option Nat} {t : Tag C}
    {p : Program σ L N Q R O} (owned : Owned l P (m.held l) owner c.view.bag)
    (alone : ∀ e ∈ c.view.bag, e.tag.id ≠ t.id) (guarded : p.Guarded l P false (decide (owner = some t.id))) :
    ∃ owner', Owned l P ((c.run t p m).held l) owner' (c.run t p m).view.bag := by
  obtain ⟨inside', later, status⟩ := advance_guarded t m guarded
  have machine : (c.run t p m).held = (m.advance t p).1.held :=
    congrArg Machine.held (suspend_machine c t (m.advance t p))
  -- whoever the owner is afterwards, the other tasks stand to the lock as before
  have filed {owner' : Option Nat} (own : decide (owner' = some t.id) = inside')
      (others : ∀ e ∈ c.view.bag, e.ghost.Guarded l P false (decide (owner' = some e.tag.id))) :
      ∀ e ∈ (c.run t p m).view.bag, e.ghost.Guarded l P false (decide (owner' = some e.tag.id)) := by
    intro e inside
    rcases bag_suspend c t (m.advance t p) with gone | here
    · rw [Config.run, gone] at inside
      exact others e inside
    · rw [Config.run, here] at inside
      rcases Multiset.mem_cons.mp inside with rfl | other
      · rw [own]
        exact later
      · exact others e other
  rcases status with ⟨same, held⟩ | ⟨was, left⟩
  · refine ⟨owner, filed same.symm owned.guarded, ?_⟩
    rw [machine, held]
    exact owned.free
  · have mine := of_decide_eq_true was
    refine ⟨none, filed (by rw [left]; rfl) fun e inside => ?_, fun _ => rfl⟩
    have before := owned.guarded e inside
    rw [mine, decide_eq_false fun same => alone e inside (Option.some.inj same).symm] at before
    rwa [decide_eq_false (Option.some_ne_none _).symm]

/-- No two suspended tasks are of one call. -/
theorem Traced.apart {c : Config σ L N Q R C O} {trace : List (Moment σ N C)} (run : Traced S init c trace) :
    Followed S (fun _ _ => True) c.state c.calls trace c.view.bag :=
  run.followed (fun _ _ _ _ _ _ _ _ => trivial) trivial

omit [Fintype L] in
/-- A call that no task is of is not the owner. -/
theorem Owned.unowned {held : Bool} {owner : Option Nat} {B : Multiset (Entry C (Program σ L N Q R O))}
    (owned : Owned l P held owner B) {n : Nat} (absent : ∀ e ∈ B, e.tag.id ≠ n) :
    ∃ owner', Owned l P held owner' B ∧ owner' ≠ some n := by
  by_cases mine : owner = some n
  · refine ⟨none, ⟨fun e inside => ?_, fun _ => rfl⟩, Option.some_ne_none n |>.symm⟩
    have before := owned.guarded e inside
    rwa [mine, decide_eq_false fun same => absent e inside (Option.some.inj same).symm] at before
  · exact ⟨owner, owned, mine⟩

/-- In every run the tasks stand to the lock as their programs say. -/
theorem Traced.owned (guarded : ∀ call, (S.program call).Guarded l P false false)
    {c : Config σ L N Q R C O} {trace : List (Moment σ N C)} (run : Traced S init c trace) :
    ∃ owner, Owned l P (c.held l) owner c.view.bag := by
  induction run with
  | start =>
      refine ⟨none, fun e inside => ?_, fun _ => rfl⟩
      rw [View.mem_bag] at inside
      rcases inside with ⟨l, queued⟩ | parked
      · cases queued
      · cases parked
  | @spawn c trace run call may ih =>
      obtain ⟨owner, owned⟩ := ih
      have fresh : ∀ e ∈ c.view.bag, e.tag.id ≠ c.calls := fun e inside => Nat.ne_of_lt (run.apart.issued e inside)
      obtain ⟨owner', owned', other⟩ := owned.unowned fresh
      refine Owned.run (c := c) (m := c.issued call) owned' fresh ?_
      rw [show (c.nextTag call).id = c.calls from rfl, decide_eq_false other]
      exact guarded call
  | @grant c trace run l' x rest k free head body ih =>
      obtain ⟨owner, owned⟩ := ih
      have apart := run.apart
      rw [bag_waiting head] at owned apart
      obtain ⟨-, alone⟩ := apart.remove
      have here := owned.guarded _ (Multiset.mem_cons_self _ _)
      have others := fun e inside => owned.guarded e (Multiset.mem_cons_of_mem inside)
      rw [body] at here
      simp only [Program.Guarded] at here
      let c₀ : Config σ L N Q R C O := { c with waiting := Function.update c.waiting l' rest }
      by_cases same : l' = l
      · subst same
        rw [if_pos rfl] at here
        have unowned := owned.free free
        have entered : Owned l' P ((c.toMachine.setHeld l' true).held l') (some x.tag.id) c₀.view.bag := by
          refine ⟨fun e inside => ?_, fun held => ?_⟩
          · have before := others e inside
            rw [unowned] at before
            rwa [decide_eq_false fun same => alone e inside (Option.some.inj same).symm]
          · simp only [Machine.setHeld, Function.update_self, Bool.true_eq_false] at held
        refine Owned.run (c := c₀) entered alone ?_
        rw [decide_eq_true rfl]
        exact here.2
      · rw [if_neg same] at here
        have kept : Owned l P ((c.toMachine.setHeld l' true).held l) owner c₀.view.bag := by
          refine ⟨others, fun held => ?_⟩
          simp only [Machine.setHeld, Function.update_of_ne (Ne.symm same)] at held
          exact owned.free held
        exact Owned.run (c := c₀) kept alone here
  | @reply c trace run before x after q k r found body may ih =>
      obtain ⟨owner, owned⟩ := ih
      have apart := run.apart
      rw [bag_pending found] at owned apart
      obtain ⟨-, alone⟩ := apart.remove
      have here := owned.guarded _ (Multiset.mem_cons_self _ _)
      have others := fun e inside => owned.guarded e (Multiset.mem_cons_of_mem inside)
      rw [body] at here
      exact Owned.run (c := { c with pending := before ++ after }) (m := c.toMachine.noting (.replied x.tag q r))
        ⟨others, owned.free⟩ alone (here.2 r)

/-- The task waits for a reply to a request of the kind. -/
def Task.Asks (P : Q → Prop) (x : Task σ L N Q R C O) : Prop := ∃ q k, x.body = .request q k ∧ P q

/-- If all programs make the requests of a kind inside a lock only, then in every run
one such request at most is under way. -/
theorem Reachable.exclusive (guarded : ∀ call, (S.program call).Guarded l P false false)
    {c : Config σ L N Q R C O} (run : Reachable S init c) {x y : Task σ L N Q R C O} (m : x ∈ c.pending)
    (n : y ∈ c.pending) (one : x.Asks P) (other : y.Asks P) : x = y := by
  obtain ⟨trace, traced⟩ := run.traced
  obtain ⟨owner, owned⟩ := traced.owned guarded
  have owns (z : Task σ L N Q R C O) (inside : z ∈ c.pending) (asks : z.Asks P) : owner = some z.tag.id := by
    obtain ⟨q, k, body, may⟩ := asks
    have filed : (⟨z.tag, z.body⟩ : Entry C (Program σ L N Q R O)) ∈ c.view.bag :=
      (View.mem_bag _ _).mpr (.inr (Multiset.mem_coe.mpr (List.mem_map_of_mem inside)))
    have here := owned.guarded _ filed
    rw [body] at here
    exact of_decide_eq_true (here.1 may)
  have ids : (c.pending.map fun z => z.tag.id).Nodup := by
    have nodup := Multiset.nodup_of_le (Multiset.map_le_map (Multiset.le_add_left _ _)) traced.apart.nodup
    rwa [Config.view, Multiset.map_coe, List.map_map, Multiset.coe_nodup] at nodup
  exact List.inj_on_of_nodup_map ids m n (Option.some.inj ((owns x m one).symm.trans (owns y n other)))

end
end Coroutine

import I3xServer.Container.Parallel
import I3xServer.Coroutine.Scheduler
import Mathlib.Data.Multiset.AddSub
import Mathlib.Algebra.BigOperators.Group.Finset.Basic
import Mathlib.Algebra.Order.Group.Multiset

/-!
# Invariants of cooperative runs

A view abstracts every suspended task to its tag and a ghost value chosen when
it was suspended; the ghosts of one lock's queue keep their order. An invariant
of views has to hold at suspension points only. `wp` is the obligation of one
task: between two suspensions it computes on the view, at each suspension it
re-establishes the invariant with a ghost of its choice, and when it resumes it
may assume nothing but the invariant with that ghost still in place.
-/
namespace Coroutine
variable {σ L N Q C O G α β : Type} {R : Q → Type}

structure Entry (C G : Type) where
  tag : Tag C
  ghost : G

structure View (σ L N Q : Type) (R : Q → Type) (C O G : Type) extends
    Machine σ L N Q R C O where
  queue : L → List (Entry C G)
  idle : Multiset (Entry C G)

namespace View
variable [DecidableEq L]

def start (s : σ) : View σ L N Q R C O G :=
  { state := s, held := fun _ => false, history := [], calls := 0
    queue := fun _ => [], idle := 0 }

/-- The machine part is replaced, the suspended tasks stay. -/
def withMachine (v : View σ L N Q R C O G) (m : Machine σ L N Q R C O) :
    View σ L N Q R C O G := { v with toMachine := m }

def acting (v : View σ L N Q R C O G) (t : Tag C) (f : σ → σ) (log : σ → List N) :
    View σ L N Q R C O G := v.withMachine (v.toMachine.acting t f log)

def noting (v : View σ L N Q R C O G) (e : Event N Q R C O) : View σ L N Q R C O G :=
  v.withMachine (v.toMachine.noting e)

def setHeld (v : View σ L N Q R C O G) (l : L) (b : Bool) : View σ L N Q R C O G :=
  v.withMachine (v.toMachine.setHeld l b)

def enqueue (v : View σ L N Q R C O G) (l : L) (e : Entry C G) : View σ L N Q R C O G :=
  { v with queue := Function.update v.queue l (v.queue l ++ [e]) }

/-- `e` waits at the head of the queue of `l`. -/
def ahead (v : View σ L N Q R C O G) (l : L) (e : Entry C G) : View σ L N Q R C O G :=
  { v with queue := Function.update v.queue l (e :: v.queue l) }

def park (v : View σ L N Q R C O G) (e : Entry C G) : View σ L N Q R C O G :=
  { v with idle := e ::ₘ v.idle }

def Present (v : View σ L N Q R C O G) (e : Entry C G) : Prop :=
  (∃ l, e ∈ v.queue l) ∨ e ∈ v.idle

def InFlight (v : View σ L N Q R C O G) (t : Tag C) : Prop := ∃ e, v.Present e ∧ e.tag = t

def issued (v : View σ L N Q R C O G) (call : C) : View σ L N Q R C O G :=
  v.withMachine
    { v.toMachine with history := .spawned ⟨v.calls, call⟩ :: v.history, calls := v.calls + 1 }

end View

section
variable [DecidableEq L] (mayReply : σ → σ → (q : Q) → R q → Prop)
  (I : View σ L N Q R C O G → Prop) (t : Tag C)

/-- The obligation of the running task `t` with program `p` in view `v`, which
does not contain `t` itself. -/
def wp (post : α → View σ L N Q R C O G → Prop) :
    Program σ L N Q R α → View σ L N Q R C O G → Prop
  | .ret a, v => post a v
  | .act f log k, v => wp post (k v.state) (v.acting t f log)
  | .unlock l k, v => wp post k (v.setHeld l false)
  | .lock l k, v => ∃ g, I (v.enqueue l ⟨t, g⟩) ∧
      ∀ v' : View σ L N Q R C O G, v'.held l = false → I (v'.ahead l ⟨t, g⟩) →
        wp post k (v'.setHeld l true)
  | .request q k, v => ∃ g, I ((v.noting (.requested t q)).park ⟨t, g⟩) ∧
      ∀ (v' : View σ L N Q R C O G) (r : R q), mayReply v.state v'.state q r →
        I (v'.park ⟨t, g⟩) → wp post (k r) (v'.noting (.replied t q r))

variable {mayReply I t}

theorem wp_bind (p : Program σ L N Q R α) (h : α → Program σ L N Q R β)
    (post : β → View σ L N Q R C O G → Prop) (v : View σ L N Q R C O G) :
    wp mayReply I t post (p.bind h) v ↔
      wp mayReply I t (fun a v' => wp mayReply I t post (h a) v') p v := by
  induction p generalizing v with
  | ret a => rfl
  | act f log k ih => exact ih _ _
  | unlock l k ih => exact ih _
  | lock l k ih => simp only [Program.bind, wp, ih]
  | request q k ih => simp only [Program.bind, wp, ih]

theorem wp_mono {post post' : α → View σ L N Q R C O G → Prop} {p : Program σ L N Q R α}
    {v : View σ L N Q R C O G} (h : wp mayReply I t post p v)
    (imp : ∀ a v', post a v' → post' a v') : wp mayReply I t post' p v := by
  induction p generalizing v with
  | ret a => exact imp a v h
  | act f log k ih => exact ih _ h
  | unlock l k ih => exact ih h
  | lock l k ih =>
      obtain ⟨g, parked, resume⟩ := h
      exact ⟨g, parked, fun v' free inv => ih (resume v' free inv)⟩
  | request q k ih =>
      obtain ⟨g, parked, resume⟩ := h
      exact ⟨g, parked, fun v' r may inv => ih r (resume v' r may inv)⟩

/-- Sequencing: the specification of the first part is used, not its body. -/
theorem wp_seq {post : β → View σ L N Q R C O G → Prop} {M : α → View σ L N Q R C O G → Prop}
    {p : Program σ L N Q R α} {h : α → Program σ L N Q R β} {v : View σ L N Q R C O G}
    (first : wp mayReply I t M p v)
    (rest : ∀ a v', M a v' → wp mayReply I t post (h a) v') :
    wp mayReply I t post (p >>= h) v :=
  (wp_bind p h post v).mpr (wp_mono first rest)

theorem wp_atomic {post : α → View σ L N Q R C O G → Prop} (f : σ → α × σ × List N)
    {v : View σ L N Q R C O G}
    (h : post (f v.state).1 (v.acting t (fun s => (f s).2.1) fun s => (f s).2.2)) :
    wp mayReply I t post (.atomic f) v := h

theorem wp_locked {post : α → View σ L N Q R C O G → Prop} (l : L) (f : σ → α × σ × List N)
    {v : View σ L N Q R C O G} (g : G) (parked : I (v.enqueue l ⟨t, g⟩))
    (resume : ∀ v' : View σ L N Q R C O G, v'.held l = false → I (v'.ahead l ⟨t, g⟩) →
      post (f v'.state).1
        (((v'.setHeld l true).acting t (fun s => (f s).2.1) fun s => (f s).2.2).setHeld l false)) :
    wp mayReply I t post (.locked l f) v := ⟨g, parked, resume⟩

theorem wp_ask {q : Q} {post : R q → View σ L N Q R C O G → Prop}
    {v : View σ L N Q R C O G} (g : G) (parked : I ((v.noting (.requested t q)).park ⟨t, g⟩))
    (resume : ∀ (v' : View σ L N Q R C O G) (r : R q), mayReply v.state v'.state q r →
      I (v'.park ⟨t, g⟩) → post r (v'.noting (.replied t q r))) :
    wp mayReply I t post (.ask q) v := ⟨g, parked, resume⟩

/-- A loop over a list needs one predicate of the elements still to come. -/
theorem wp_forEach {ι : Type} {body : ι → Program σ L N Q R Unit}
    (K : List ι → View σ L N Q R C O G → Prop)
    (each : ∀ x xs v, K (x :: xs) v → wp mayReply I t (fun _ v' => K xs v') (body x) v)
    (xs : List ι) {v : View σ L N Q R C O G} (h : K xs v) :
    wp mayReply I t (fun _ v' => K [] v') (.forEach xs body) v := by
  induction xs generalizing v with
  | nil => exact h
  | cons x xs ih => exact wp_seq (each x xs v h) fun _ _ h' => ih h'

/-- What it takes to carry the predicate `K`, which may depend on the memory of the
task, through a program that stays within the relation `T`. -/
structure Stable (mayReply : σ → σ → (q : Q) → R q → Prop) (I : View σ L N Q R C O G → Prop)
    (t : Tag C) (T : Program.Memory N Q R → σ → List N → σ → Prop)
    (K : Program.Memory N Q R → View σ L N Q R C O G → Prop) : Prop where
  act : ∀ m v f log, K m v → T m v.state (log v.state) (f v.state) →
    K ((log v.state).map .noted ++ m) (v.acting t f log)
  unlock : ∀ m v l, K m v → K m (v.setHeld l false)
  lock : ∀ m v l, K m v → ∃ g, I (v.enqueue l ⟨t, g⟩) ∧
    ∀ v' : View σ L N Q R C O G, v'.held l = false → I (v'.ahead l ⟨t, g⟩) → K m (v'.setHeld l true)
  request : ∀ m v q, K m v → ∃ g, I ((v.noting (.requested t q)).park ⟨t, g⟩) ∧
    ∀ (v' : View σ L N Q R C O G) r, mayReply v.state v'.state q r → I (v'.park ⟨t, g⟩) →
      K (.replied q r :: m) (v'.noting (.replied t q r))

theorem wp_of_within {T : Program.Memory N Q R → σ → List N → σ → Prop}
    {K : Program.Memory N Q R → View σ L N Q R C O G → Prop}
    (stable : Stable mayReply I t T K) {p : Program σ L N Q R α} {m : Program.Memory N Q R}
    (inside : p.WithinFrom T m) {v : View σ L N Q R C O G} (h : K m v) :
    wp mayReply I t (fun _ v' => ∃ m', K m' v') p v := by
  induction p generalizing m v with
  | ret a => exact ⟨m, h⟩
  | act f log k ih =>
      obtain ⟨moves, rest⟩ := inside v.state
      exact ih _ rest (stable.act m v f log h moves)
  | unlock l k ih => exact ih inside (stable.unlock m v l h)
  | lock l k ih =>
      obtain ⟨g, parked, resume⟩ := stable.lock m v l h
      exact ⟨g, parked, fun v' free inv => ih inside (resume v' free inv)⟩
  | request q k ih =>
      obtain ⟨g, parked, resume⟩ := stable.request m v q h
      exact ⟨g, parked, fun v' r may inv => ih r (inside r) (resume v' r may inv)⟩

end

/-! ## Soundness -/

section
variable [DecidableEq L] (S : System σ L N Q R C O) (I : View σ L N Q R C O G → Prop)

/-- A call is finished when the invariant holds without it. -/
def Finish (t : Tag C) (o : O) (v : View σ L N Q R C O G) : Prop := I (v.noting (.returned t o))

def WaitsLock (l : L) (x : Task σ L N Q R C O) (e : Entry C G) : Prop :=
  x.tag = e.tag ∧ ∃ k, x.body = .lock l k ∧
    ∀ v' : View σ L N Q R C O G, v'.held l = false → I (v'.ahead l ⟨x.tag, e.ghost⟩) →
      wp S.mayReply I x.tag (Finish I x.tag) k (v'.setHeld l true)

def WaitsReply (x : Task σ L N Q R C O) (e : Entry C G) : Prop :=
  x.tag = e.tag ∧ ∃ q k, x.body = .request q k ∧
    ∀ (v' : View σ L N Q R C O G) (r : R q), S.mayReply x.asked v'.state q r →
      I (v'.park ⟨x.tag, e.ghost⟩) →
        wp S.mayReply I x.tag (Finish I x.tag) (k r) (v'.noting (.replied x.tag q r))

/-- Every suspended task of the configuration has an entry it can resume from. -/
structure Aligned (c : Config σ L N Q R C O) (v : View σ L N Q R C O G) : Prop where
  queue : ∀ l, List.Forall₂ (WaitsLock S I l) (c.waiting l) (v.queue l)
  idle : ∃ es : List (Entry C G), v.idle = ↑es ∧ List.Forall₂ (WaitsReply S I) c.pending es

structure Represents (c : Config σ L N Q R C O) (v : View σ L N Q R C O G) : Prop where
  machine : v.toMachine = c.toMachine
  aligned : Aligned S I c v
  holds : I v

variable {S I}

theorem Aligned.withMachine {c : Config σ L N Q R C O} {v : View σ L N Q R C O G}
    (h : Aligned S I c v) (m m' : Machine σ L N Q R C O) :
    Aligned S I { c with toMachine := m } (v.withMachine m') := ⟨h.queue, h.idle⟩

/-- A task that runs to its next suspension leaves a represented configuration. -/
theorem run_represented (t : Tag C) (p : Program σ L N Q R O) (c : Config σ L N Q R C O)
    (v : View σ L N Q R C O G) (aligned : Aligned S I c v)
    (h : wp S.mayReply I t (Finish I t) p v) :
    ∃ v', Represents S I (c.run t p v.toMachine) v' := by
  induction p generalizing v with
  | ret o =>
      exact ⟨_, rfl, aligned.withMachine _ _, h⟩
  | act f log k ih => exact ih v.state (v.acting t f log) (aligned.withMachine c.toMachine _) h
  | unlock l k ih => exact ih (v.setHeld l false) (aligned.withMachine c.toMachine _) h
  | lock l k ih =>
      obtain ⟨g, parked, resume⟩ := h
      refine ⟨v.enqueue l ⟨t, g⟩, rfl, ⟨?_, aligned.idle⟩, parked⟩
      intro l'
      by_cases same : l' = l
      · subst same
        simp only [Config.run, Machine.advance, Config.suspend, View.enqueue, Function.update_self]
        exact List.rel_append (aligned.queue l') (.cons ⟨rfl, k, rfl, resume⟩ .nil)
      · simpa only [Config.run, Machine.advance, Config.suspend, View.enqueue,
          Function.update_of_ne same] using aligned.queue l'
  | request q k ih =>
      obtain ⟨g, parked, resume⟩ := h
      obtain ⟨es, idle, pending⟩ := aligned.idle
      refine ⟨(v.noting (.requested t q)).park ⟨t, g⟩, rfl, ⟨aligned.queue, es ++ [⟨t, g⟩], ?_, ?_⟩, parked⟩
      · change ⟨t, g⟩ ::ₘ v.idle = _
        rw [idle, ← Multiset.coe_add, Multiset.coe_singleton, Multiset.add_comm, Multiset.singleton_add]
      · exact List.rel_append pending (.cons ⟨rfl, q, k, rfl, resume⟩ .nil)

theorem forall₂_split {α β : Type} {r : α → β → Prop} {xs : List α} {x : α} {ys : List α}
    {zs : List β} (h : List.Forall₂ r (xs ++ x :: ys) zs) :
    ∃ pre z post, zs = pre ++ z :: post ∧ List.Forall₂ r xs pre ∧ r x z ∧ List.Forall₂ r ys post := by
  induction xs generalizing zs with
  | nil =>
      cases h with
      | cons head tail => exact ⟨[], _, _, rfl, .nil, head, tail⟩
  | cons w ws ih =>
      cases h with
      | cons head tail =>
          obtain ⟨pre, z, post, rfl, first, mid, last⟩ := ih tail
          exact ⟨_ :: pre, z, post, rfl, .cons head first, mid, last⟩

theorem Aligned.inFlight_iff {c : Config σ L N Q R C O} {v : View σ L N Q R C O G}
    (aligned : Aligned S I c v) (t : Tag C) : v.InFlight t ↔ c.InFlight t := by
  obtain ⟨es, idle, pending⟩ := aligned.idle
  constructor
  · rintro ⟨e, (⟨l, m⟩ | m), rfl⟩
    · obtain ⟨x, xm, rel⟩ := Container.forall₂_mem_right (aligned.queue l) m
      exact ⟨x, Or.inl ⟨l, xm⟩, rel.1⟩
    · rw [idle, Multiset.mem_coe] at m
      obtain ⟨x, xm, rel⟩ := Container.forall₂_mem_right pending m
      exact ⟨x, Or.inr xm, rel.1⟩
  · rintro ⟨x, (⟨l, m⟩ | m), rfl⟩
    · obtain ⟨e, em, rel⟩ := Container.forall₂_mem_left (aligned.queue l) m
      exact ⟨e, Or.inl ⟨l, em⟩, rel.1.symm⟩
    · obtain ⟨e, em, rel⟩ := Container.forall₂_mem_left pending m
      exact ⟨e, Or.inr (by rw [idle]; exact em), rel.1.symm⟩

/-- Every step leads from a represented configuration to a represented one. -/
theorem step_represented {c c' : Config σ L N Q R C O} {v : View σ L N Q R C O G}
    (calls : ∀ (v : View σ L N Q R C O G) call, I v → S.mayCall v.state v.InFlight call →
      wp S.mayReply I ⟨v.calls, call⟩ (Finish I ⟨v.calls, call⟩) (S.program call) (v.issued call))
    (h : Represents S I c v) (step : Step S c c') : ∃ v', Represents S I c' v' := by
  obtain ⟨machine, aligned, holds⟩ := h
  cases step with
  | spawn call may =>
      have allowed : S.mayCall v.state v.InFlight call := by
        rw [show v.InFlight = c.InFlight from funext fun t => propext (aligned.inFlight_iff t), machine]
        exact may
      have obligation := calls v call holds allowed
      have result := run_represented _ _ c (v.issued call) (aligned.withMachine c.toMachine _) obligation
      simpa only [Config.spawn, Config.nextTag, Config.issued, View.issued, View.withMachine,
        machine] using result
  | grant l x rest k free head body =>
      have queue := aligned.queue l
      rw [head] at queue
      cases found : v.queue l with
      | nil => rw [found] at queue; cases queue
      | cons e es =>
          rw [found] at queue
          obtain ⟨⟨tag, k', body', resume⟩, tail⟩ := List.forall₂_cons.mp queue
          cases body.symm.trans body'
          let u : View σ L N Q R C O G := { v with queue := Function.update v.queue l es }
          have whole : u.ahead l ⟨x.tag, e.ghost⟩ = v := by
            have same : (⟨x.tag, e.ghost⟩ : Entry C G) = e := by rw [tag]
            simp only [u, View.ahead, Function.update_self, same, Function.update_idem, ← found,
              Function.update_eq_self]
          have go := resume u (by rw [← free]; exact congrFun (congrArg Machine.held machine) l)
            (by rw [whole]; exact holds)
          have kept : Aligned S I { c with waiting := Function.update c.waiting l rest } u := by
            refine ⟨fun l' => ?_, aligned.idle⟩
            by_cases same : l' = l
            · subst same
              simpa only [u, Function.update_self] using tail
            · simpa only [u, Function.update_of_ne same] using aligned.queue l'
          have result := run_represented x.tag k _ (u.setHeld l true)
            (kept.withMachine c.toMachine _) go
          simpa only [Config.grant, View.setHeld, View.withMachine, u, machine] using result
  | reply before x after q k r found body may =>
      obtain ⟨es, idle, pending⟩ := aligned.idle
      rw [found] at pending
      obtain ⟨pre, e, post, rfl, first, ⟨tag, q', k', body', resume⟩, last⟩ := forall₂_split pending
      cases body.symm.trans body'
      let u : View σ L N Q R C O G := { v with idle := ↑(pre ++ post) }
      have whole : u.park ⟨x.tag, e.ghost⟩ = v := by
        have same : (⟨x.tag, e.ghost⟩ : Entry C G) = e := by rw [tag]
        have moved : e ::ₘ (↑(pre ++ post) : Multiset (Entry C G)) = v.idle := by
          rw [idle, Multiset.cons_coe, Multiset.coe_eq_coe]
          exact List.perm_middle.symm
        simp only [u, View.park, same, moved]
      have go := resume u r (by rw [show u.state = c.state from congrArg Machine.state machine]; exact may)
        (by rw [whole]; exact holds)
      have kept : Aligned S I { c with pending := before ++ after } u :=
        ⟨aligned.queue, pre ++ post, rfl, List.rel_append first last⟩
      have result := run_represented x.tag (k r) _ (u.noting (.replied x.tag q r))
        (kept.withMachine c.toMachine _) go
      simpa only [Config.answer, View.noting, View.withMachine, u, machine] using result

/-- An invariant of views that every call respects holds, for suitable ghosts, in
every reachable configuration. -/
theorem reachable_represented {init : σ} (start : I (View.start init))
    (calls : ∀ (v : View σ L N Q R C O G) call, I v → S.mayCall v.state v.InFlight call →
      wp S.mayReply I ⟨v.calls, call⟩ (Finish I ⟨v.calls, call⟩) (S.program call) (v.issued call))
    {c : Config σ L N Q R C O} (h : Reachable S init c) : ∃ v, Represents S I c v := by
  induction h with
  | start => exact ⟨View.start init, rfl, ⟨fun _ => .nil, [], rfl, .nil⟩, start⟩
  | step _ step ih =>
      obtain ⟨v, represented⟩ := ih
      exact step_represented calls represented step

end
end Coroutine

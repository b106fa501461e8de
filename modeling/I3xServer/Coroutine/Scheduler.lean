import I3xServer.Coroutine.Program
import Mathlib.Logic.Function.Basic

/-!
# Cooperative scheduling with fair locks

A configuration is the shared state, the locks with their queues of waiting
tasks in request order, the tasks waiting for a reply, and the history of the
run, newest event first. One step issues a call, grants a free lock to the task
that has waited longest, or answers one request; the task that moves runs to its
next suspension. No fairness between tasks is assumed: every order is a run.
-/
namespace Coroutine
variable {σ L N Q C O : Type} {R : Q → Type}

/-- The identity of one call in a run. -/
structure Tag (C : Type) where
  id : Nat
  call : C
  deriving DecidableEq, Repr

inductive Event (N Q : Type) (R : Q → Type) (C O : Type) where
  | spawned (t : Tag C)
  | noted (t : Tag C) (n : N)
  | requested (t : Tag C) (q : Q)
  | replied (t : Tag C) (q : Q) (r : R q)
  | returned (t : Tag C) (o : O)

/-- What a running task can read and change. -/
structure Machine (σ L N Q : Type) (R : Q → Type) (C O : Type) where
  state : σ
  held : L → Bool
  history : List (Event N Q R C O)
  calls : Nat

/-- A suspended task; `asked` is the shared state in which it was suspended. -/
structure Task (σ L N Q : Type) (R : Q → Type) (C O : Type) where
  tag : Tag C
  asked : σ
  body : Program σ L N Q R O

structure Config (σ L N Q : Type) (R : Q → Type) (C O : Type) extends
    Machine σ L N Q R C O where
  waiting : L → List (Task σ L N Q R C O)
  pending : List (Task σ L N Q R C O)

namespace Machine
variable [DecidableEq L]

def noting (m : Machine σ L N Q R C O) (e : Event N Q R C O) : Machine σ L N Q R C O :=
  { m with history := e :: m.history }

/-- The machine after one uninterrupted update that notes `ns`. -/
def acting (m : Machine σ L N Q R C O) (t : Tag C) (f : σ → σ) (log : σ → List N) :
    Machine σ L N Q R C O :=
  { m with
    state := f m.state
    history := ((log m.state).map (Event.noted t)).reverse ++ m.history }

def setHeld (m : Machine σ L N Q R C O) (l : L) (b : Bool) : Machine σ L N Q R C O :=
  { m with held := Function.update m.held l b }

/-- Run a task to its next suspension. -/
def advance (t : Tag C) : Program σ L N Q R O → Machine σ L N Q R C O →
    Machine σ L N Q R C O × Program σ L N Q R O
  | .ret o, m => (m.noting (.returned t o), .ret o)
  | .act f log k, m => advance t (k m.state) (m.acting t f log)
  | .unlock l k, m => advance t k (m.setHeld l false)
  | .lock l k, m => (m, .lock l k)
  | .request q k, m => (m.noting (.requested t q), .request q k)

end Machine

namespace Config
variable [DecidableEq L]

def start (s : σ) : Config σ L N Q R C O :=
  { state := s, held := fun _ => false, history := [], calls := 0
    waiting := fun _ => [], pending := [] }

def tasks (c : Config σ L N Q R C O) (x : Task σ L N Q R C O) : Prop :=
  (∃ l, x ∈ c.waiting l) ∨ x ∈ c.pending

/-- A call that has been issued and has not returned. -/
def InFlight (c : Config σ L N Q R C O) (t : Tag C) : Prop := ∃ x, c.tasks x ∧ x.tag = t

/-- File the task under what it now waits for. -/
def suspend (c : Config σ L N Q R C O) (t : Tag C)
    (next : Machine σ L N Q R C O × Program σ L N Q R O) : Config σ L N Q R C O :=
  let c' : Config σ L N Q R C O := { c with toMachine := next.1 }
  let x : Task σ L N Q R C O := { tag := t, asked := next.1.state, body := next.2 }
  match next.2 with
  | .lock l _ => { c' with waiting := Function.update c.waiting l (c.waiting l ++ [x]) }
  | .request _ _ => { c' with pending := c.pending ++ [x] }
  | _ => c'

def run (c : Config σ L N Q R C O) (t : Tag C) (p : Program σ L N Q R O)
    (m : Machine σ L N Q R C O) : Config σ L N Q R C O :=
  c.suspend t (m.advance t p)

def nextTag (c : Config σ L N Q R C O) (call : C) : Tag C := ⟨c.calls, call⟩

def issued (c : Config σ L N Q R C O) (call : C) : Machine σ L N Q R C O :=
  { c.toMachine with history := .spawned (c.nextTag call) :: c.history, calls := c.calls + 1 }

def spawn (c : Config σ L N Q R C O) (call : C) (p : Program σ L N Q R O) :
    Config σ L N Q R C O :=
  c.run (c.nextTag call) p (c.issued call)

def grant (c : Config σ L N Q R C O) (l : L) (x : Task σ L N Q R C O)
    (rest : List (Task σ L N Q R C O)) (k : Program σ L N Q R O) : Config σ L N Q R C O :=
  ({ c with waiting := Function.update c.waiting l rest } : Config σ L N Q R C O).run
    x.tag k (c.toMachine.setHeld l true)

def answer (c : Config σ L N Q R C O) (x : Task σ L N Q R C O)
    (rest : List (Task σ L N Q R C O)) (q : Q) (r : R q) (k : R q → Program σ L N Q R O) :
    Config σ L N Q R C O :=
  ({ c with pending := rest } : Config σ L N Q R C O).run x.tag (k r)
    (c.toMachine.noting (.replied x.tag q r))

end Config

/-- The calls of a component, when each may be issued, and what the outside may
answer to a request that was made in state `asked` when it answers in `now`. -/
structure System (σ L N Q : Type) (R : Q → Type) (C O : Type) where
  program : C → Program σ L N Q R O
  mayCall : σ → (Tag C → Prop) → C → Prop
  mayReply : σ → σ → (q : Q) → R q → Prop

section
variable [DecidableEq L] (S : System σ L N Q R C O)

inductive Step : Config σ L N Q R C O → Config σ L N Q R C O → Prop
  | spawn (c) (call : C) (may : S.mayCall c.state c.InFlight call) :
      Step c (c.spawn call (S.program call))
  | grant (c) (l : L) (x rest k) (free : c.held l = false) (head : c.waiting l = x :: rest)
      (body : x.body = .lock l k) : Step c (c.grant l x rest k)
  | reply (c) (before x after) (q : Q) (k) (r : R q) (found : c.pending = before ++ x :: after)
      (body : x.body = .request q k) (may : S.mayReply x.asked c.state q r) :
      Step c (c.answer x (before ++ after) q r k)

/-- The configurations of runs that begin in state `init`. -/
inductive Reachable (init : σ) : Config σ L N Q R C O → Prop
  | start : Reachable init (Config.start init)
  | step {c c'} : Reachable init c → Step S c c' → Reachable init c'

/-- A scheduling decision; a reply names the waiting task by position and says what
the outside answers to each request. -/
inductive Choice (L Q : Type) (R : Q → Type) (C : Type) where
  | spawn (call : C)
  | grant (l : L)
  | reply (i : Nat) (oracle : (q : Q) → Option (R q))

/-- Execute one decision, `none` when nothing can move. -/
def exec (c : Config σ L N Q R C O) : Choice L Q R C → Option (Config σ L N Q R C O)
  | .spawn call => some (c.spawn call (S.program call))
  | .grant l =>
      match c.held l, c.waiting l with
      | false, x :: rest =>
          match x.body with
          | .lock l' k => if l' = l then some (c.grant l x rest k) else none
          | _ => none
      | _, _ => none
  | .reply i oracle =>
      match c.pending[i]? with
      | some x =>
          match x.body with
          | .request q k => (oracle q).map fun r => c.answer x (c.pending.eraseIdx i) q r k
          | _ => none
      | none => none

/-- The decision respects the system's assumptions on its environment. -/
def Permitted (c : Config σ L N Q R C O) : Choice L Q R C → Prop
  | .spawn call => S.mayCall c.state c.InFlight call
  | .grant _ => True
  | .reply i oracle =>
      match c.pending[i]? with
      | some x =>
          match x.body with
          | .request q _ => ∀ r, oracle q = some r → S.mayReply x.asked c.state q r
          | _ => True
      | none => True

def execAll : Config σ L N Q R C O → List (Choice L Q R C) → Option (Config σ L N Q R C O)
  | c, [] => some c
  | c, d :: ds => (exec S c d).bind fun c' => execAll c' ds

/-- Every decision of the list is permitted where it is taken. -/
def AllPermitted : Config σ L N Q R C O → List (Choice L Q R C) → Prop
  | _, [] => True
  | c, d :: ds => Permitted S c d ∧ ∀ c', exec S c d = some c' → AllPermitted c' ds

theorem exec_step {c c' : Config σ L N Q R C O} {d : Choice L Q R C}
    (done : exec S c d = some c') (may : Permitted S c d) : Step S c c' := by
  cases d with
  | spawn call =>
      cases done
      exact .spawn c call may
  | grant l =>
      simp only [exec] at done
      cases held : c.held l with
      | true => simp [held] at done
      | false =>
          cases queue : c.waiting l with
          | nil => simp [held, queue] at done
          | cons x rest =>
              cases body : x.body with
              | lock l' k =>
                  simp only [held, queue, body] at done
                  split_ifs at done with same
                  cases done
                  exact .grant c l x rest k held queue (same ▸ body)
              | _ => simp [held, queue, body] at done
  | reply i oracle =>
      simp only [exec] at done
      simp only [Permitted] at may
      cases found : c.pending[i]? with
      | none => simp [found] at done
      | some x =>
          cases body : x.body with
          | request q k =>
              simp only [found, body, Option.map_eq_some_iff] at done may
              obtain ⟨r, answered, rfl⟩ := done
              obtain ⟨inside, rfl⟩ := List.getElem?_eq_some_iff.mp found
              rw [List.eraseIdx_eq_take_drop_succ]
              refine .reply c (c.pending.take i) _ (c.pending.drop (i + 1)) q k r ?_ body (may r answered)
              simp
          | _ => simp [found, body] at done

/-- A schedule that executes and is permitted throughout is a run. -/
theorem reachable_execAll {init : σ} {c c' : Config σ L N Q R C O} (ds : List (Choice L Q R C))
    (h : Reachable S init c) (done : execAll S c ds = some c') (may : AllPermitted S c ds) :
    Reachable S init c' := by
  induction ds generalizing c with
  | nil => cases done; exact h
  | cons d ds ih =>
      obtain ⟨middle, first, rest⟩ := Option.bind_eq_some_iff.mp done
      exact ih (.step h (exec_step S first may.1)) rest (may.2 middle first)

end
end Coroutine

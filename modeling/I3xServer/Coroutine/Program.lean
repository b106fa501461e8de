import Mathlib.Tactic.Common

/-!
# Coroutines over a shared state

A program of one cooperative task. `act` runs without suspension on the shared
state and may note events; `lock` suspends until the lock is granted; `request`
suspends until the outside replies. Nothing else suspends, so two suspension
points bound exactly one uninterrupted stretch of code. Programs are data: no
scheduling policy and no state invariant is built in.
-/
namespace Coroutine

/-- `σ` is the shared state, `L` the lock names, `N` the noted events, and a
request `q : Q` is answered by some `R q`. -/
inductive Program (σ L N Q : Type) (R : Q → Type) (α : Type) : Type where
  | ret (a : α)
  | act (f : σ → σ) (log : σ → List N) (k : σ → Program σ L N Q R α)
  | lock (l : L) (k : Program σ L N Q R α)
  | unlock (l : L) (k : Program σ L N Q R α)
  | request (q : Q) (k : R q → Program σ L N Q R α)

namespace Program
variable {σ L N Q : Type} {R : Q → Type} {α β γ : Type}

def bind : Program σ L N Q R α → (α → Program σ L N Q R β) → Program σ L N Q R β
  | .ret a, g => g a
  | .act f log k, g => .act f log fun s => (k s).bind g
  | .lock l k, g => .lock l (k.bind g)
  | .unlock l k, g => .unlock l (k.bind g)
  | .request q k, g => .request q fun r => (k r).bind g

instance : Monad (Program σ L N Q R) where
  pure := .ret
  bind := .bind

@[simp] theorem pure_eq (a : α) : (pure a : Program σ L N Q R α) = .ret a := rfl

@[simp] theorem bind_eq (p : Program σ L N Q R α) (g : α → Program σ L N Q R β) :
    (p >>= g) = p.bind g := rfl

/-- Run a pure section on the state: its result, the state it leaves, the events it notes. -/
def atomic (f : σ → α × σ × List N) : Program σ L N Q R α :=
  .act (fun s => (f s).2.1) (fun s => (f s).2.2) fun s => .ret (f s).1

def modify (f : σ → σ) : Program σ L N Q R Unit := .act f (fun _ => []) fun _ => .ret ()

def read (f : σ → α) : Program σ L N Q R α := .act id (fun _ => []) fun s => .ret (f s)

def note (f : σ → List N) : Program σ L N Q R Unit := .act id f fun _ => .ret ()

def acquire (l : L) : Program σ L N Q R Unit := .lock l (.ret ())

def release (l : L) : Program σ L N Q R Unit := .unlock l (.ret ())

def ask (q : Q) : Program σ L N Q R (R q) := .request q .ret

/-- A critical section without inner suspension. -/
def locked (l : L) (f : σ → α × σ × List N) : Program σ L N Q R α :=
  .lock l (.act (fun s => (f s).2.1) (fun s => (f s).2.2) fun s => .unlock l (.ret (f s).1))

/-- Sequential iteration over a list. -/
def forEach {ι : Type} : List ι → (ι → Program σ L N Q R Unit) → Program σ L N Q R Unit
  | [], _ => .ret ()
  | x :: xs, body => (body x).bind fun _ => forEach xs body

/-- What a task knows of its own past: the events it noted, the replies it got. -/
inductive Witness (N Q : Type) (R : Q → Type) where
  | noted (n : N)
  | replied (q : Q) (r : R q)

abbrev Memory (N Q : Type) (R : Q → Type) := List (Witness N Q R)

/-- From the memory `m` on, every act of the program lies in `T` with what the task
remembers and the events it notes, whatever the outside replies. -/
def WithinFrom (T : Memory N Q R → σ → List N → σ → Prop) : Memory N Q R → Program σ L N Q R α → Prop
  | _, .ret _ => True
  | m, .act f log k => ∀ s, T m s (log s) (f s) ∧ (k s).WithinFrom T ((log s).map .noted ++ m)
  | m, .lock _ k => k.WithinFrom T m
  | m, .unlock _ k => k.WithinFrom T m
  | m, .request q k => ∀ r, (k r).WithinFrom T (.replied q r :: m)

/-- Every act of the program lies in `T`, whatever the task remembers. -/
def Within (T : Memory N Q R → σ → List N → σ → Prop) (p : Program σ L N Q R α) : Prop :=
  ∀ m, p.WithinFrom T m

section
variable {T T' : Memory N Q R → σ → List N → σ → Prop}

/-- The second part starts from a longer memory. -/
theorem WithinFrom.bind {p : Program σ L N Q R α} {g : α → Program σ L N Q R β} {m : Memory N Q R}
    (hp : p.WithinFrom T m) (hg : ∀ more a, (g a).WithinFrom T (more ++ m)) :
    (p.bind g).WithinFrom T m := by
  induction p generalizing m with
  | ret a => exact hg [] a
  | act f log k ih =>
      refine fun s => ⟨(hp s).1, ih s (hp s).2 fun more a => ?_⟩
      rw [← List.append_assoc]
      exact hg _ a
  | lock l k ih => exact ih hp hg
  | unlock l k ih => exact ih hp hg
  | request q k ih =>
      refine fun r => ih r (hp r) fun more a => ?_
      rw [List.append_cons]
      exact hg _ a

theorem WithinFrom.forEach {ι : Type} {xs : List ι} {body : ι → Program σ L N Q R Unit}
    {m : Memory N Q R} (h : ∀ x ∈ xs, ∀ more, (body x).WithinFrom T (more ++ m)) :
    (forEach xs body).WithinFrom T m := by
  induction xs generalizing m with
  | nil => trivial
  | cons x xs ih =>
      refine WithinFrom.bind (h x List.mem_cons_self []) fun more _ => ih fun y inside further => ?_
      rw [← List.append_assoc]
      exact h y (List.mem_cons_of_mem x inside) _

/-- What follows a section knows its result together with the events it noted. -/
theorem WithinFrom.atomic_bind {f : σ → α × σ × List N} {g : α → Program σ L N Q R β} {m : Memory N Q R}
    (h : ∀ s, T m s (f s).2.2 (f s).2.1 ∧ (g (f s).1).WithinFrom T ((f s).2.2.map .noted ++ m)) :
    ((Program.atomic f).bind g).WithinFrom T m := h

theorem WithinFrom.mono {p : Program σ L N Q R α} {m : Memory N Q R}
    (h : ∀ m s ns t, T m s ns t → T' m s ns t) (hp : p.WithinFrom T m) : p.WithinFrom T' m := by
  induction p generalizing m with
  | ret a => trivial
  | act f log k ih => exact fun s => ⟨h _ _ _ _ (hp s).1, ih s (hp s).2⟩
  | lock l k ih => exact ih hp
  | unlock l k ih => exact ih hp
  | request q k ih => exact fun r => ih r (hp r)

theorem WithinFrom.and {p : Program σ L N Q R α} {m : Memory N Q R} (hp : p.WithinFrom T m)
    (hp' : p.WithinFrom T' m) : p.WithinFrom (fun m s ns t => T m s ns t ∧ T' m s ns t) m := by
  induction p generalizing m with
  | ret a => trivial
  | act f log k ih => exact fun s => ⟨⟨(hp s).1, (hp' s).1⟩, ih s (hp s).2 (hp' s).2⟩
  | lock l k ih => exact ih hp hp'
  | unlock l k ih => exact ih hp hp'
  | request q k ih => exact fun r => ih r (hp r) (hp' r)

theorem Within.ret (a : α) : (Program.ret a : Program σ L N Q R α).Within T := fun _ => trivial

theorem Within.bind {p : Program σ L N Q R α} {g : α → Program σ L N Q R β} (hp : p.Within T)
    (hg : ∀ a, (g a).Within T) : (p.bind g).Within T :=
  fun m => (hp m).bind fun more a => hg a (more ++ m)

theorem Within.mono {p : Program σ L N Q R α} (h : ∀ m s ns t, T m s ns t → T' m s ns t)
    (hp : p.Within T) : p.Within T' := fun m => (hp m).mono h

theorem Within.and {p : Program σ L N Q R α} (hp : p.Within T) (hp' : p.Within T') :
    p.Within fun m s ns t => T m s ns t ∧ T' m s ns t := fun m => (hp m).and (hp' m)

theorem Within.forEach {ι : Type} {xs : List ι} {body : ι → Program σ L N Q R Unit}
    (h : ∀ x ∈ xs, (body x).Within T) : (forEach xs body).Within T :=
  fun _ => WithinFrom.forEach fun x inside _ => h x inside _

theorem Within.atomic {f : σ → α × σ × List N} (h : ∀ m s, T m s (f s).2.2 (f s).2.1) :
    (Program.atomic f : Program σ L N Q R α).Within T := fun m s => ⟨h m s, trivial⟩

theorem Within.modify {f : σ → σ} (h : ∀ m s, T m s [] (f s)) :
    (Program.modify f : Program σ L N Q R Unit).Within T := fun m s => ⟨h m s, trivial⟩

theorem Within.read {f : σ → α} (h : ∀ m s, T m s [] s) :
    (Program.read f : Program σ L N Q R α).Within T := fun m s => ⟨h m s, trivial⟩

theorem Within.note {f : σ → List N} (h : ∀ m s, T m s (f s) s) :
    (Program.note f : Program σ L N Q R Unit).Within T := fun m s => ⟨h m s, trivial⟩

theorem Within.locked {l : L} {f : σ → α × σ × List N} (h : ∀ m s, T m s (f s).2.2 (f s).2.1) :
    (Program.locked l f : Program σ L N Q R α).Within T := fun m s => ⟨h m s, trivial⟩

theorem Within.acquire {l : L} {k : Unit → Program σ L N Q R α} (h : (k ()).Within T) :
    ((Program.acquire l).bind k).Within T := h

theorem Within.release {l : L} {k : Unit → Program σ L N Q R α} (h : (k ()).Within T) :
    ((Program.release l).bind k).Within T := h

theorem Within.ask (q : Q) : (Program.ask q : Program σ L N Q R (R q)).Within T := fun _ _ => trivial

end
end Program
end Coroutine

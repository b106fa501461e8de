import I3xServer.Container.Dialogue
import Mathlib.Algebra.GroupWithZero.Nat

/-!
# Dialogues that settle

The other side of a dialogue has a state and answers as a relation says. A dialogue
settles if every question it asks has an answer and, whatever the answers are, it is
done after so many questions, with a result and a state of the other side as wanted.
-/
namespace Container.Dialogue
variable {Q : Type} {R : Q → Type} {S E α β ι : Type}

/-- How the other side may answer in a state, and the state it goes on in. -/
abbrev Answering (Q : Type) (R : Q → Type) (S : Type) := S → (q : Q) → R q → S → Prop

/-- Done after at most `n` questions that are answered from `s` on. -/
def Settles (answers : Answering Q R S) (post : α → S → Prop) : Dialogue Q R α → Nat → S → Prop
  | .done a, _, s => post a s
  | .ask q k, n, s => (∃ r s', answers s q r s') ∧
      ∃ m, n = m + 1 ∧ ∀ r s', answers s q r s' → (k r).Settles answers post m s'

/-- The exchanges that the other side has answered between two of its states. -/
inductive Answered (answers : Answering Q R S) : S → List (Exchange Q R) → S → Prop where
  | nil (s : S) : Answered answers s [] s
  | cons {s s' t : S} {q : Q} {r : R q} {log : List (Exchange Q R)} (answer : answers s q r s')
      (rest : Answered answers s' log t) : Answered answers s (⟨q, r⟩ :: log) t

/-- One dialogue for each member of a list; their results are put together. -/
def gather (body : ι → Dialogue Q R (Except E (List β))) : List ι → Dialogue Q R (Except E (List β))
  | [] => .done (.ok [])
  | x :: xs => (body x).attempt fun ys => (gather body xs).attempt fun zs => .done (.ok (ys ++ zs))

/-- No bad exchange goes unnoticed: a run with one comes to a failure of this kind. -/
def Exposes (bad : Exchange Q R → Prop) (failure : E → Prop) (p : Dialogue Q R (Except E α)) : Prop :=
  ∀ log out, Run p log out → (∃ exchange ∈ log, bad exchange) → ∃ e, out = .error e ∧ failure e

section Exposing
variable {bad : Exchange Q R → Prop} {failure : E → Prop}

theorem Exposes.done (out : Except E α) : (Dialogue.done out : Dialogue Q R _).Exposes bad failure := by
  intro log _ run
  obtain ⟨rfl, -⟩ := run_done.mp run
  rintro ⟨exchange, m, -⟩
  cases m

theorem Exposes.attempt {p : Dialogue Q R (Except E α)} {g : α → Dialogue Q R (Except E β)} (first : p.Exposes bad failure)
    (next : ∀ a, (g a).Exposes bad failure) : (p.attempt g).Exposes bad failure := by
  intro log out run
  rcases run_attempt.mp run with ⟨e, failed, rfl⟩ | ⟨a, before, after, rfl, start, later⟩
  · intro found
    obtain ⟨e', same, named⟩ := first log _ failed found
    cases same
    exact ⟨e, rfl, named⟩
  · rintro ⟨exchange, m, wrong⟩
    rcases List.mem_append.mp m with m | m
    · obtain ⟨e, impossible, -⟩ := first before _ start ⟨exchange, m, wrong⟩
      cases impossible
    · exact next a after out later ⟨exchange, m, wrong⟩

end Exposing

variable {answers : Answering Q R S} {post : α → S → Prop} {p : Dialogue Q R α} {n : Nat} {s : S}

theorem Settles.mono {post' : α → S → Prop} {n' : Nat} (settles : p.Settles answers post n s)
    (weaker : ∀ a t, post a t → post' a t) (more : n ≤ n') : p.Settles answers post' n' s := by
  induction p generalizing n n' s with
  | done a => exact weaker a s settles
  | ask q k ih =>
      obtain ⟨answerable, m, rfl, each⟩ := settles
      refine ⟨answerable, n' - 1, by omega, fun r s' answer => ?_⟩
      exact ih r (each r s' answer) (by omega)

theorem Settles.within {n' : Nat} (settles : p.Settles answers post n s) (more : n ≤ n') :
    p.Settles answers post n' s := settles.mono (fun _ _ => id) more

theorem Settles.bind {g : α → Dialogue Q R β} {post' : β → S → Prop} {m : Nat}
    (first : p.Settles answers post n s) (next : ∀ a t, post a t → (g a).Settles answers post' m t) :
    (p.bind g).Settles answers post' (n + m) s := by
  induction p generalizing n s with
  | done a => exact (next a s first).within (Nat.le_add_left m n)
  | ask q k ih =>
      obtain ⟨answerable, l, rfl, each⟩ := first
      refine ⟨answerable, l + m, by omega, fun r s' answer => ih r (each r s' answer)⟩

variable (post) in
/-- One dialogue after another, of which the first one succeeds. -/
theorem Settles.attempt {p : Dialogue Q R (Except E α)} {g : α → Dialogue Q R (Except E β)}
    {post' : Except E β → S → Prop} {m : Nat} (first : p.Settles answers (fun out t => ∃ a, out = .ok a ∧ post a t) n s)
    (next : ∀ a t, post a t → (g a).Settles answers post' m t) : (p.attempt g).Settles answers post' (n + m) s := by
  refine first.bind fun out t holds => ?_
  obtain ⟨a, rfl, holds⟩ := holds
  exact next a t holds

/-- What every member's dialogue keeps of the other side, their gathering keeps. -/
theorem Settles.gather {body : ι → Dialogue Q R (Except E (List β))} (kept : S → Prop) {f : ι → List β} {cost : ι → Nat}
    {xs : List ι} (each : ∀ x ∈ xs, ∀ s, kept s →
      (body x).Settles answers (fun out t => out = .ok (f x) ∧ kept t) (cost x) s) {s : S} (start : kept s) :
    (Dialogue.gather body xs).Settles answers (fun out t => out = .ok (xs.flatMap f) ∧ kept t) (xs.map cost).sum s := by
  induction xs generalizing s with
  | nil => exact ⟨rfl, start⟩
  | cons x xs ih =>
      rw [List.map_cons, List.sum_cons, Dialogue.gather]
      refine Settles.attempt (fun ys t => ys = f x ∧ kept t) ?_ ?_
      · refine (each x List.mem_cons_self s start).mono (fun out t holds => ?_) (Nat.le_refl _)
        exact ⟨f x, holds.1, rfl, holds.2⟩
      · rintro _ t ⟨rfl, later⟩
        refine Settles.attempt (m := 0) (fun zs t => zs = xs.flatMap f ∧ kept t) ?_ ?_
        · refine (ih (fun y m => each y (List.mem_cons_of_mem x m)) later).mono (fun out t holds => ?_) (Nat.le_refl _)
          exact ⟨xs.flatMap f, holds.1, rfl, holds.2⟩
        · rintro _ u ⟨rfl, last⟩
          exact ⟨rfl, last⟩

/-- A run with the other side ends as wanted, and in time. -/
theorem Settles.run {a : α} {log : List (Exchange Q R)} {t : S} (settles : p.Settles answers post n s) (run : Run p log a)
    (answered : Answered answers s log t) : post a t ∧ log.length ≤ n := by
  induction run generalizing n s with
  | done a =>
      cases answered
      exact ⟨settles, Nat.zero_le n⟩
  | ask r rest ih =>
      cases answered with
      | cons answer answered =>
          obtain ⟨-, m, rfl, each⟩ := settles
          obtain ⟨holds, short⟩ := ih (each _ _ answer) answered
          exact ⟨holds, Nat.succ_le_succ short⟩

end Container.Dialogue

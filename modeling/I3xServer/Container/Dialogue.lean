import Mathlib.Tactic.Common

/-!
# Dialogues

A dialogue asks, and goes on with the answer, until it is done. A run of it is the list
of its exchanges with what it comes to; nothing is assumed about the answers.
-/
namespace Container

/-- A question `q : Q` is answered by some `R q`. -/
inductive Dialogue (Q : Type) (R : Q → Type) (α : Type) where
  | done (a : α)
  | ask (q : Q) (k : R q → Dialogue Q R α)

structure Exchange (Q : Type) (R : Q → Type) where
  query : Q
  answer : R query

namespace Dialogue
variable {Q : Type} {R : Q → Type} {E α β : Type}

def bind : Dialogue Q R α → (α → Dialogue Q R β) → Dialogue Q R β
  | .done a, g => g a
  | .ask q k, g => .ask q fun r => (k r).bind g

/-- The second dialogue follows where the first one succeeds. -/
def attempt (p : Dialogue Q R (Except E α)) (g : α → Dialogue Q R (Except E β)) : Dialogue Q R (Except E β) :=
  p.bind fun
    | .error e => .done (.error e)
    | .ok a => g a

inductive Run : Dialogue Q R α → List (Exchange Q R) → α → Prop where
  | done (a : α) : Run (.done a) [] a
  | ask {q : Q} {k : R q → Dialogue Q R α} {log : List (Exchange Q R)} {a : α} (r : R q)
      (rest : Run (k r) log a) : Run (.ask q k) (⟨q, r⟩ :: log) a

theorem run_done {log : List (Exchange Q R)} {a b : α} : Run (.done a) log b ↔ log = [] ∧ b = a := by
  constructor
  · intro run
    cases run
    exact ⟨rfl, rfl⟩
  · rintro ⟨rfl, rfl⟩
    exact .done b

theorem run_ask {q : Q} {k : R q → Dialogue Q R α} {log : List (Exchange Q R)} {a : α} :
    Run (.ask q k) log a ↔ ∃ r rest, log = ⟨q, r⟩ :: rest ∧ Run (k r) rest a := by
  constructor
  · intro run
    cases run with
    | ask r rest => exact ⟨r, _, rfl, rest⟩
  · rintro ⟨r, rest, rfl, run⟩
    exact .ask r run

theorem run_bind {p : Dialogue Q R α} {g : α → Dialogue Q R β} {log : List (Exchange Q R)} {b : β} :
    Run (p.bind g) log b ↔ ∃ a first second, log = first ++ second ∧ Run p first a ∧ Run (g a) second b := by
  induction p generalizing log with
  | done a =>
      constructor
      · exact fun run => ⟨a, [], log, rfl, .done a, run⟩
      · rintro ⟨c, first, second, rfl, start, run⟩
        obtain ⟨rfl, rfl⟩ := run_done.mp start
        exact run
  | ask q k ih =>
      constructor
      · intro run
        obtain ⟨r, rest, rfl, later⟩ := run_ask.mp run
        obtain ⟨a, first, second, rfl, start, after⟩ := (ih r).mp later
        exact ⟨a, _, second, rfl, .ask r start, after⟩
      · rintro ⟨a, first, second, rfl, start, run⟩
        obtain ⟨r, rest, rfl, later⟩ := run_ask.mp start
        exact .ask r ((ih r).mpr ⟨a, rest, second, rfl, later, run⟩)

theorem run_attempt {p : Dialogue Q R (Except E α)} {g : α → Dialogue Q R (Except E β)} {log : List (Exchange Q R)}
    {b : Except E β} : Run (p.attempt g) log b ↔ (∃ e, Run p log (.error e) ∧ b = .error e) ∨
      ∃ a first second, log = first ++ second ∧ Run p first (.ok a) ∧ Run (g a) second b := by
  unfold attempt
  rw [run_bind]
  constructor
  · rintro ⟨a, first, second, rfl, start, run⟩
    cases a with
    | error e =>
        obtain ⟨rfl, rfl⟩ := run_done.mp run
        rw [List.append_nil]
        exact .inl ⟨e, start, rfl⟩
    | ok a => exact .inr ⟨a, first, second, rfl, start, run⟩
  · rintro (⟨e, run, rfl⟩ | ⟨a, first, second, rfl, start, run⟩)
    · exact ⟨.error e, log, [], (List.append_nil log).symm, run, .done _⟩
    · exact ⟨.ok a, first, second, rfl, start, run⟩

/-- Whatever is answered, the dialogue comes to something of a kind. -/
def Yields (p : Dialogue Q R α) (kind : α → Prop) : Prop := ∀ log a, Run p log a → kind a

theorem yields_done {kind : α → Prop} {a : α} : (Dialogue.done a : Dialogue Q R α).Yields kind ↔ kind a := by
  constructor
  · exact fun yields => yields [] a (.done a)
  · intro holds log b run
    rw [(run_done.mp run).2]
    exact holds

theorem yields_ask {kind : α → Prop} {q : Q} {k : R q → Dialogue Q R α} :
    (Dialogue.ask q k).Yields kind ↔ ∀ r, (k r).Yields kind := by
  constructor
  · exact fun yields r log a run => yields _ a (.ask r run)
  · intro each log a run
    obtain ⟨r, rest, -, later⟩ := run_ask.mp run
    exact each r rest a later

theorem Yields.ite {kind : α → Prop} {c : Prop} [Decidable c] {p q : Dialogue Q R α} (first : p.Yields kind)
    (second : q.Yields kind) : (if c then p else q).Yields kind := by
  split
  · exact first
  · exact second

end Dialogue
end Container

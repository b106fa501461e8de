import I3xServer.Container.Settling
import Mathlib.Data.List.Forall2

/-!
# Dialogues side by side

Dialogues that run side by side share one server: at every moment any of them asks, and
the server may answer by everything that it has been asked so far. A dialogue is finite
in each of its answers, so whatever the server answers, every run comes to its end.
-/
namespace Container.Dialogue
variable {Q : Type} {R : Q → Type} {α : Type}

/-- What a server answers after the exchanges so far. -/
abbrev Server (Q : Type) (R : Q → Type) := List (Exchange Q R) → (q : Q) → R q

/-- After the exchanges of the past the server has given these. -/
def Given (serve : Server Q R) : List (Exchange Q R) → List (Exchange Q R) → Prop
  | _, [] => True
  | past, exchange :: log =>
      exchange.answer = serve past exchange.query ∧ Given serve (past ++ [exchange]) log

/-- From some dialogues to what is left of them after the exchanges of the log. -/
inductive SideBySide : List (Dialogue Q R α) → List (Exchange Q R) → List (Dialogue Q R α) → Prop where
  | now (ps : List (Dialogue Q R α)) : SideBySide ps [] ps
  | ask {before after rest : List (Dialogue Q R α)} {q : Q} {k : R q → Dialogue Q R α}
      {log : List (Exchange Q R)} (r : R q) (later : SideBySide (before ++ k r :: after) log rest) :
      SideBySide (before ++ .ask q k :: after) (⟨q, r⟩ :: log) rest

section
variable {serve : Server Q R} {past first second : List (Exchange Q R)} {ps rest final : List (Dialogue Q R α)}

theorem given_append : Given serve past (first ++ second) ↔
    Given serve past first ∧ Given serve (past ++ first) second := by
  induction first generalizing past with
  | nil => rw [List.nil_append, List.append_nil, Given, true_and]
  | cons exchange first ih => rw [List.cons_append, Given, Given, ih, and_assoc, List.append_assoc, List.singleton_append]

variable (serve) in
theorem exists_given (p : Dialogue Q R α) (past : List (Exchange Q R)) :
    ∃ log a, Run p log a ∧ Given serve past log := by
  induction p generalizing past with
  | done a => exact ⟨[], a, .done a, trivial⟩
  | ask q k ih =>
      obtain ⟨log, a, run, given⟩ := ih (serve past q) (past ++ [⟨q, serve past q⟩])
      exact ⟨_, a, .ask _ run, rfl, given⟩

theorem SideBySide.trans (start : SideBySide ps first rest) (more : SideBySide rest second final) :
    SideBySide ps (first ++ second) final := by
  induction start with
  | now => exact more
  | ask r _ ih => exact .ask r (ih more)

theorem SideBySide.of_ask {q : Q} {k : R q → Dialogue Q R α} (r : R q) (before after : List (Dialogue Q R α)) :
    SideBySide (before ++ .ask q k :: after) [⟨q, r⟩] (before ++ k r :: after) := .ask r (.now _)

/-- One of the dialogues runs to its end while the others wait. -/
theorem SideBySide.of_run {p : Dialogue Q R α} {log : List (Exchange Q R)} {a : α} (run : Run p log a)
    (before after : List (Dialogue Q R α)) : SideBySide (before ++ p :: after) log (before ++ .done a :: after) := by
  induction run with
  | done a => exact .now _
  | ask r _ ih => exact .ask r ih

variable (serve) in
/-- With every server the dialogues come to their ends. -/
theorem exists_sideBySide (ps : List (Dialogue Q R α)) (past : List (Exchange Q R)) :
    ∃ log, ∃ results : List α, SideBySide ps log (results.map .done) ∧ Given serve past log := by
  suffices others : ∀ ended : List α, ∃ log, ∃ results : List α,
      SideBySide (ended.map .done ++ ps) log (results.map .done) ∧ Given serve past log from others []
  induction ps generalizing past with
  | nil => exact fun ended => ⟨[], ended, by rw [List.append_nil]; exact .now _, trivial⟩
  | cons p ps ih =>
      intro ended
      obtain ⟨first, a, run, given⟩ := exists_given serve p past
      obtain ⟨second, results, steps, more⟩ := ih (past ++ first) (ended ++ [a])
      rw [List.map_append, List.map_singleton, List.append_assoc, List.singleton_append] at steps
      exact ⟨first ++ second, results, (SideBySide.of_run run _ ps).trans steps, given_append.mpr ⟨given, more⟩⟩

end

/-! ## Dialogues that settle -/

section
variable {answers : Answering Q R Unit} {ps rest : List (Dialogue Q R α)} {wanted : List (α × Nat)}
  {log : List (Exchange Q R)}

/-- The server answers every question that may be answered as it may. -/
def Obliges (answers : Answering Q R Unit) (serve : Server Q R) : Prop :=
  ∀ past q, (∃ r, answers () q r ()) → answers () q (serve past q) ()

/-- Each dialogue settles with its result, in so many questions. -/
abbrev EachSettles (answers : Answering Q R Unit) (ps : List (Dialogue Q R α)) (wanted : List (α × Nat)) : Prop :=
  List.Forall₂ (fun p want => p.Settles answers (fun a _ => a = want.1) want.2 ()) ps wanted

/-- Where one of the dialogues asks, its question may be answered, and all go on to the same results. -/
theorem EachSettles.ask {before after : List (Dialogue Q R α)} {q : Q} {k : R q → Dialogue Q R α}
    (each : EachSettles answers (before ++ .ask q k :: after) wanted) : (∃ r, answers () q r ()) ∧
      ∃ left, left.map Prod.fst = wanted.map Prod.fst ∧ (left.map Prod.snd).sum + 1 = (wanted.map Prod.snd).sum ∧
        ∀ r, answers () q r () → EachSettles answers (before ++ k r :: after) left := by
  induction before generalizing wanted with
  | nil =>
      cases each with
      | @cons _ want _ wants settles others =>
          obtain ⟨⟨r, _, answer⟩, m, cost, each⟩ := settles
          refine ⟨⟨r, answer⟩, (want.1, m) :: wants, rfl, ?_, fun r answer => .cons (each r () answer) others⟩
          simp only [List.map_cons, List.sum_cons, cost]
          omega
  | cons p before ih =>
      cases each with
      | @cons _ want _ wants settles others =>
          obtain ⟨answerable, left, same, cost, each⟩ := ih others
          refine ⟨answerable, want :: left, congrArg (want.1 :: ·) same, ?_, fun r answer => .cons settles (each r answer)⟩
          simp only [List.map_cons, List.sum_cons]
          omega

/-- However they interleave, what is left of the dialogues goes on to the same results, and
the questions asked so far were among those they may need. -/
theorem SideBySide.settles (steps : SideBySide ps log rest) (each : EachSettles answers ps wanted)
    (answered : Answered answers () log ()) : ∃ left, EachSettles answers rest left ∧
      left.map Prod.fst = wanted.map Prod.fst ∧ (left.map Prod.snd).sum + log.length = (wanted.map Prod.snd).sum := by
  induction steps generalizing wanted with
  | now => exact ⟨wanted, each, rfl, rfl⟩
  | ask r _ ih =>
      cases answered with
      | cons answer answered =>
          obtain ⟨-, middle, same, cost, next⟩ := each.ask
          obtain ⟨left, settles, results, fewer⟩ := ih (next r answer) answered
          exact ⟨left, settles, results.trans same, by rw [List.length_cons]; omega⟩

theorem SideBySide.results {results : List α} (steps : SideBySide ps log (results.map .done))
    (each : EachSettles answers ps wanted) (answered : Answered answers () log ()) :
    results = wanted.map Prod.fst ∧ log.length ≤ (wanted.map Prod.snd).sum := by
  obtain ⟨left, settles, same, cost⟩ := steps.settles each answered
  refine ⟨?_, by omega⟩
  rw [← same]
  clear steps same cost
  induction results generalizing left with
  | nil =>
      cases settles
      rfl
  | cons a results ih =>
      cases settles with
      | cons first others => exact congrArg₂ List.cons first (ih _ others)

/-- An obliging server answers every question that such dialogues ask. -/
theorem SideBySide.answered {serve : Server Q R} {past : List (Exchange Q R)} (steps : SideBySide ps log rest)
    (each : EachSettles answers ps wanted) (obliges : Obliges answers serve) (given : Given serve past log) :
    Answered answers () log () := by
  induction steps generalizing wanted past with
  | now => exact .nil ()
  | @ask _ _ _ q _ _ r _ ih =>
      obtain ⟨answerable, left, -, -, next⟩ := each.ask
      obtain ⟨own, later⟩ := given
      have answer : answers () q r () := by
        rw [show r = serve past q from own]
        exact obliges past q answerable
      exact .cons answer (ih (next r answer) later)

theorem answered_of_forall (each : ∀ exchange ∈ log, answers () exchange.query exchange.answer ()) :
    Answered answers () log () := by
  induction log with
  | nil => exact .nil ()
  | cons exchange log ih =>
      exact .cons (each exchange List.mem_cons_self) (ih fun other m => each other (List.mem_cons_of_mem _ m))

/-- Whatever an obliging server answers, a dialogue that settles has a run with it. -/
theorem Settles.exists_given {p : Dialogue Q R α} {want : α} {n : Nat} {serve : Server Q R}
    (settles : p.Settles answers (fun a _ => a = want) n ()) (obliges : Obliges answers serve)
    (past : List (Exchange Q R)) : ∃ log, Run p log want ∧ Given serve past log ∧ log.length ≤ n := by
  obtain ⟨log, a, run, given⟩ := Dialogue.exists_given serve p past
  have each : EachSettles answers [p] [(want, n)] := .cons settles .nil
  obtain ⟨same, few⟩ := settles.run run ((SideBySide.of_run run [] []).answered each obliges given)
  exact ⟨log, same ▸ run, given, few⟩

end
end Container.Dialogue

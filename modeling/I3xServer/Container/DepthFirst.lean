import Mathlib.Data.Set.Card
import Mathlib.Logic.Relation
import Mathlib.Tactic.Common

/-!
# Depth-first search

A search with a stack visits the unfolding of its nodes in order and keeps the first
occurrence of each. It may splice in what an earlier search found, which changes
nothing.
-/
namespace Container
variable {α : Type}

/-! ## Unfoldings -/

section
variable (next : α → List α)

/-- The unfolding of some nodes: each node, then the unfolding of its successors. -/
inductive Unfolds : List α → List α → Prop
  | nil : Unfolds [] []
  | cons {a : α} {stack below after : List α} : Unfolds (next a) below → Unfolds stack after →
      Unfolds (a :: stack) (a :: below ++ after)

end

namespace Unfolds
variable {next : α → List α} {stack l : List α}

theorem single {a : α} {below : List α} (successors : Unfolds next (next a) below) : Unfolds next [a] (a :: below) := by
  have unfolded := Unfolds.cons successors .nil
  rwa [List.append_nil] at unfolded

theorem unique {l' : List α} (unfolded : Unfolds next stack l) (again : Unfolds next stack l') : l = l' := by
  induction unfolded generalizing l' with
  | nil => cases again; rfl
  | cons _ _ below after =>
      cases again with
      | cons below' after' => rw [below below', after after']

theorem mem_of_mem {a : α} (unfolded : Unfolds next stack l) (m : a ∈ stack) : a ∈ l := by
  induction unfolded with
  | nil => exact m
  | cons _ _ _ after =>
      rcases List.mem_cons.mp m with rfl | later
      · exact List.mem_append_left _ List.mem_cons_self
      · exact List.mem_append_right _ (after later)

/-- The unfolding of an unfolded node is a part of it. -/
theorem part {a : α} (unfolded : Unfolds next stack l) (m : a ∈ l) :
    ∃ inner, Unfolds next [a] inner ∧ inner ⊆ l ∧ inner.length ≤ l.length := by
  induction unfolded with
  | nil => cases m
  | @cons b stack below after first rest ihFirst ihRest =>
      rcases List.mem_append.mp m with inFirst | inRest
      · rcases List.mem_cons.mp inFirst with rfl | deeper
        · exact ⟨_, first.single, List.subset_append_left .., by simp⟩
        · obtain ⟨inner, shape, inside, short⟩ := ihFirst deeper
          refine ⟨inner, shape, fun x n => List.mem_append_left _ (List.mem_cons_of_mem _ (inside n)), ?_⟩
          simp only [List.cons_append, List.length_cons, List.length_append]
          omega
      · obtain ⟨inner, shape, inside, short⟩ := ihRest inRest
        refine ⟨inner, shape, fun x n => List.mem_append_right _ (inside n), ?_⟩
        rw [List.length_append]
        omega

theorem mem_next {a b : α} (unfolded : Unfolds next stack l) (m : a ∈ l) (edge : b ∈ next a) : b ∈ l := by
  obtain ⟨inner, shape, inside, -⟩ := unfolded.part m
  cases shape with
  | cons below _ => exact inside (List.mem_append_left _ (List.mem_cons_of_mem _ (below.mem_of_mem edge)))

/-- No node is among the nodes below it. -/
theorem not_below {a : α} {below : List α} (successors : Unfolds next (next a) below) : a ∉ below := by
  intro m
  obtain ⟨inner, shape, -, short⟩ := successors.part m
  rw [shape.unique successors.single, List.length_cons] at short
  omega

theorem of_sublist {part : List α} (unfolded : Unfolds next stack l) (sub : part.Sublist stack) :
    ∃ l', Unfolds next part l' ∧ l'.length ≤ l.length := by
  induction unfolded generalizing part with
  | nil => exact ⟨[], by rw [List.sublist_nil.mp sub]; exact .nil, Nat.le_refl _⟩
  | @cons a stack below after first rest _ ihRest =>
      cases sub with
      | cons _ skipped =>
          obtain ⟨l', shape, short⟩ := ihRest skipped
          refine ⟨l', shape, ?_⟩
          rw [List.length_append]
          omega
      | cons_cons _ kept =>
          obtain ⟨l', shape, short⟩ := ihRest kept
          refine ⟨_, .cons first shape, ?_⟩
          rw [List.length_append, List.length_append]
          omega

theorem append {stack' l' : List α} (first : Unfolds next stack l) (rest : Unfolds next stack' l') :
    Unfolds next (stack ++ stack') (l ++ l') := by
  induction first with
  | nil => exact rest
  | cons below _ _ after =>
      rw [List.cons_append, List.append_assoc]
      exact .cons below after

/-- The next level is smaller by the nodes of this one. -/
theorem level (unfolded : Unfolds next stack l) :
    ∃ l', Unfolds next (stack.flatMap next) l' ∧ l'.length + stack.length = l.length := by
  induction unfolded with
  | nil => exact ⟨[], .nil, rfl⟩
  | @cons a stack below after first rest _ ihRest =>
      obtain ⟨l', shape, size⟩ := ihRest
      refine ⟨below ++ l', first.append shape, ?_⟩
      simp only [List.cons_append, List.length_cons, List.length_append]
      omega

theorem exists_of_acc (each : ∀ a ∈ stack, Acc (fun b a => b ∈ next a) a) : ∃ l, Unfolds next stack l := by
  have lists (stack : List α) (each : ∀ a ∈ stack, ∃ below, Unfolds next (next a) below) :
      ∃ l, Unfolds next stack l := by
    induction stack with
    | nil => exact ⟨[], .nil⟩
    | cons a stack ih =>
        obtain ⟨below, first⟩ := each a List.mem_cons_self
        obtain ⟨after, rest⟩ := ih fun b m => each b (List.mem_cons_of_mem _ m)
        exact ⟨_, .cons first rest⟩
  refine lists stack fun a m => ?_
  have acc := each a m
  clear each m
  induction acc with
  | intro a _ ih => exact lists (next a) ih

end Unfolds

/-- In a finite graph without cycles every node is accessible. -/
theorem acc_of_finite {next : α → List α} {root : α}
    (finite : {a | Relation.ReflTransGen (fun a b => b ∈ next a) root a}.Finite)
    (acyclic : ∀ a, Relation.ReflTransGen (fun a b => b ∈ next a) root a →
      ¬ Relation.TransGen (fun a b => b ∈ next a) a a) :
    ∀ a, Relation.ReflTransGen (fun a b => b ∈ next a) root a → Acc (fun b a => b ∈ next a) a := by
  have descend (n : Nat) (a : α) (reached : Relation.ReflTransGen (fun a b => b ∈ next a) root a)
      (size : {b | Relation.TransGen (fun a b => b ∈ next a) a b}.ncard = n) : Acc (fun b a => b ∈ next a) a := by
    induction n using Nat.strong_induction_on generalizing a with
    | _ n ih =>
        refine Acc.intro a fun b edge => ?_
        have inside : {c | Relation.TransGen (fun a b => b ∈ next a) a c}.Finite :=
          finite.subset fun c path => reached.trans path.to_reflTransGen
        have fewer : {c | Relation.TransGen (fun a b => b ∈ next a) b c}.ncard <
            {c | Relation.TransGen (fun a b => b ∈ next a) a c}.ncard := by
          refine Set.ncard_lt_ncard ⟨fun c path => path.head edge, fun same => ?_⟩ inside
          exact acyclic b (reached.tail edge) (same (.single edge))
        exact ih _ (size ▸ fewer) b (reached.tail edge) rfl
  exact fun a reached => descend _ a reached rfl

/-! ## First occurrences -/

section
variable [DecidableEq α]

/-- Append what is not there yet. -/
def addNew (found l : List α) : List α :=
  l.foldl (fun found a => if a ∈ found then found else found ++ [a]) found

@[simp] theorem addNew_nil (found : List α) : addNew found [] = found := rfl

theorem addNew_cons (found : List α) (a : α) (l : List α) :
    addNew found (a :: l) = addNew (if a ∈ found then found else found ++ [a]) l := rfl

theorem addNew_append (found l more : List α) : addNew found (l ++ more) = addNew (addNew found l) more :=
  List.foldl_append

theorem addNew_concat (found l : List α) (a : α) :
    addNew found (l ++ [a]) = if a ∈ addNew found l then addNew found l else addNew found l ++ [a] := addNew_append ..

theorem mem_addNew {found l : List α} {a : α} : a ∈ addNew found l ↔ a ∈ found ∨ a ∈ l := by
  induction l using List.reverseRecOn with
  | nil => simp
  | append_singleton l b ih =>
      rw [addNew_concat, List.mem_append, List.mem_singleton, ← or_assoc, ← ih]
      split
      · next old => exact ⟨.inl, fun h => h.elim id fun same => same ▸ old⟩
      · rw [List.mem_append, List.mem_singleton]

theorem addNew_of_subset {found l : List α} (old : l ⊆ found) : addNew found l = found := by
  induction l with
  | nil => rfl
  | cons a l ih =>
      obtain ⟨here, rest⟩ := List.cons_subset.mp old
      rw [addNew_cons, if_pos here, ih rest]

theorem addNew_nodup {found : List α} (distinct : found.Nodup) (l : List α) : (addNew found l).Nodup := by
  induction l using List.reverseRecOn with
  | nil => exact distinct
  | append_singleton l a ih =>
      rw [addNew_concat]
      split
      · exact ih
      · next new => exact List.nodup_append.mpr ⟨ih, List.nodup_singleton a, fun b m c n =>
          fun same => new ((List.mem_singleton.mp n) ▸ same ▸ m)⟩

/-- Appending first occurrences appends all. -/
theorem addNew_addNew (found mid l : List α) : addNew found (addNew mid l) = addNew (addNew found mid) l := by
  induction l using List.reverseRecOn with
  | nil => rfl
  | append_singleton l a ih =>
      rw [addNew_concat mid, addNew_concat (addNew found mid)]
      split
      · next old =>
          rw [ih, if_pos]
          rw [mem_addNew, mem_addNew, or_assoc, ← mem_addNew (l := l)]
          exact .inr old
      · rw [addNew_concat, ih]

theorem addNew_sublist (l : List α) : (addNew [] l).Sublist l := by
  induction l using List.reverseRecOn with
  | nil => exact List.Sublist.refl _
  | append_singleton l a ih =>
      rw [addNew_concat]
      split
      · exact ih.trans (List.sublist_append_left l [a])
      · exact ih.append (List.Sublist.refl _)

/-! ## Search with a stack -/

variable (next : α → List α) (splice : α → Option (List α))

/-- Search from a stack. A node that is new is followed by what is spliced in for it,
or by the search from its successors. -/
def spliceSearch : Nat → List α → List α → Option (List α)
  | _, [], found => some found
  | 0, _ :: _, _ => none
  | fuel + 1, a :: stack, found =>
      if a ∈ found then spliceSearch fuel stack found
      else
        match splice a with
        | some chain => spliceSearch fuel stack (addNew found chain)
        | none => spliceSearch fuel (next a ++ stack) (found ++ [a])

/-- The search that splices in nothing. -/
def plainSearch (fuel : Nat) (root : α) : Option (List α) := spliceSearch next (fun _ => none) fuel [root] []

variable {next splice} {stack l : List α}

/-- The search from the top of a stack appends the unfolding, if what has been found
before is complete. -/
theorem spliceSearch_append (unfolded : Unfolds next stack l)
    (faithful : ∀ a chain, splice a = some chain → ∀ inner, Unfolds next [a] inner → chain = addNew [] inner)
    (rest found : List α)
    (complete : ∀ a ∈ found, a ∈ l → ∀ inner, Unfolds next [a] inner → inner ⊆ found) :
    ∃ steps ≤ l.length, ∀ fuel, spliceSearch next splice (steps + fuel) (stack ++ rest) found =
      spliceSearch next splice fuel rest (addNew found l) := by
  induction unfolded generalizing rest found with
  | nil => exact ⟨0, Nat.le_refl _, fun fuel => by rw [Nat.zero_add]; rfl⟩
  | @cons a stack below after first others ihFirst ihRest =>
      have whole := first.single
      -- Everything behind the node is complete once the node's own unfolding is found.
      have behind (found' : List α) (more : found ⊆ found') (own : a :: below ⊆ found') :
          ∀ b ∈ found', b ∈ after → (b ∈ found ∨ b ∈ a :: below) → ∀ inner, Unfolds next [b] inner → inner ⊆ found' := by
        intro b _ inAfter old inner shape
        rcases old with early | within
        · exact List.Subset.trans (complete b early (List.mem_append_right _ inAfter) inner shape) more
        · obtain ⟨inner', shape', inside, -⟩ := whole.part within
          rw [shape.unique shape']
          exact List.Subset.trans inside own
      rcases Decidable.em (a ∈ found) with seen | new
      · have inside : a :: below ⊆ found :=
          complete a seen (List.mem_append_left _ List.mem_cons_self) _ whole
        obtain ⟨steps, short, run⟩ := ihRest rest found fun b m n =>
          behind found (List.Subset.refl _) inside b m n (.inl m)
        refine ⟨steps + 1, by rw [List.length_append]; simp only [List.length_cons]; omega, fun fuel => ?_⟩
        rw [addNew_append, addNew_of_subset inside, ← run fuel, Nat.add_right_comm, List.cons_append, spliceSearch,
          if_pos seen]
      · have grown : found ⊆ addNew found (a :: below) := fun b m => mem_addNew.mpr (.inl m)
        have own : a :: below ⊆ addNew found (a :: below) := fun b m => mem_addNew.mpr (.inr m)
        obtain ⟨steps, short, run⟩ := ihRest rest (addNew found (a :: below)) fun b m n =>
          behind _ grown own b m n (mem_addNew.mp m)
        cases spliced : splice a with
        | some chain =>
            refine ⟨steps + 1, by rw [List.length_append]; simp only [List.length_cons]; omega, fun fuel => ?_⟩
            rw [addNew_append, ← run fuel, Nat.add_right_comm, List.cons_append, spliceSearch, if_neg new, spliced]
            dsimp only
            rw [faithful a chain spliced _ whole, addNew_addNew, addNew_nil]
        | none =>
            have open' : ∀ b ∈ found ++ [a], b ∈ below → ∀ inner, Unfolds next [b] inner → inner ⊆ found ++ [a] := by
              intro b m n inner shape
              rcases List.mem_append.mp m with early | here
              · exact List.Subset.trans
                  (complete b early (List.mem_append_left _ (List.mem_cons_of_mem _ n)) inner shape)
                  (List.subset_append_left ..)
              · exact absurd n (List.mem_singleton.mp here ▸ first.not_below)
            obtain ⟨deeper, short', run'⟩ := ihFirst (stack ++ rest) (found ++ [a]) open'
            refine ⟨deeper + steps + 1, ?_, fun fuel => ?_⟩
            · simp only [List.cons_append, List.length_cons, List.length_append]
              omega
            · have step : addNew (found ++ [a]) below = addNew found (a :: below) := by
                rw [addNew_cons, if_neg new]
              rw [addNew_append, ← run fuel, Nat.add_right_comm, List.cons_append, spliceSearch, if_neg new, spliced,
                ← step, ← run' (steps + fuel), Nat.add_assoc]

/-- A search finds the unfolding of its root. -/
theorem spliceSearch_eq {root : α} (unfolded : Unfolds next [root] l)
    (faithful : ∀ a chain, splice a = some chain → ∀ inner, Unfolds next [a] inner → chain = addNew [] inner)
    {fuel : Nat} (enough : l.length ≤ fuel) : spliceSearch next splice fuel [root] [] = some (addNew [] l) := by
  obtain ⟨steps, short, run⟩ := spliceSearch_append unfolded faithful [] [] fun _ m => by cases m
  obtain ⟨more, rfl⟩ : ∃ more, fuel = steps + more := ⟨fuel - steps, by omega⟩
  exact (run more).trans (by cases more <;> rfl)

theorem plainSearch_eq {root : α} (unfolded : Unfolds next [root] l) {fuel : Nat} (enough : l.length ≤ fuel) :
    plainSearch next fuel root = some (addNew [] l) :=
  spliceSearch_eq unfolded (fun _ _ none => by cases none) enough

end
end Container

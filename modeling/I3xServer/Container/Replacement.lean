import Mathlib.Data.List.Infix
import Mathlib.Tactic.Common

/-!
# Replacing parts of a text

Every occurrence of a text is replaced by another one, from left to right. What a
separator keeps apart is replaced apart.
-/
namespace Container
variable {α : Type} [DecidableEq α]

/-- The list with its occurrences of `old` replaced, past the members still to be skipped. -/
def replaceFrom (old new : List α) : Nat → List α → List α
  | _, [] => []
  | skip + 1, _ :: as => replaceFrom old new skip as
  | 0, a :: as =>
      if old <+: a :: as then new ++ replaceFrom old new (old.length - 1) as
      else a :: replaceFrom old new 0 as

def replaceAll (old new as : List α) : List α := replaceFrom old new 0 as

theorem replaceFrom_drop (old new : List α) (skip : Nat) (as : List α) :
    replaceFrom old new skip as = replaceAll old new (as.drop skip) := by
  induction as generalizing skip with
  | nil => simp [replaceFrom, replaceAll]
  | cons a as ih =>
      cases skip with
      | zero => rfl
      | succ skip => rw [replaceFrom, ih, List.drop_succ_cons]

theorem replaceAll_nil (old new : List α) : replaceAll old new [] = [] := rfl

/-- An occurrence at the start is replaced. -/
theorem replaceAll_occurrence {old : List α} (some' : old ≠ []) (new rest : List α) :
    replaceAll old new (old ++ rest) = new ++ replaceAll old new rest := by
  obtain ⟨a, old, rfl⟩ := List.exists_cons_of_ne_nil some'
  rw [replaceAll, List.cons_append, replaceFrom, if_pos ⟨rest, rfl⟩, replaceFrom_drop]
  congr 2
  rw [List.length_cons, Nat.add_sub_cancel, List.drop_left]

theorem replaceAll_cons {old : List α} {a : α} {as : List α} (other : ¬ old <+: a :: as) (new : List α) :
    replaceAll old new (a :: as) = a :: replaceAll old new as := by
  rw [replaceAll, replaceFrom, if_neg other]
  rfl

/-- Every member comes from the list or from what occurrences are replaced with. -/
theorem mem_replaceAll {old new as : List α} {a : α} : a ∈ replaceAll old new as → a ∈ as ∨ a ∈ new := by
  have past (skip : Nat) (m : a ∈ replaceFrom old new skip as) : a ∈ as ∨ a ∈ new := by
    induction as generalizing skip with
    | nil => exact absurd m List.not_mem_nil
    | cons b as ih =>
        have later (skip : Nat) (m : a ∈ replaceFrom old new skip as) : a ∈ b :: as ∨ a ∈ new :=
          (ih skip m).imp_left (List.mem_cons_of_mem b)
        cases skip with
        | succ skip => exact later skip m
        | zero =>
            rw [replaceFrom] at m
            split at m
            · exact (List.mem_append.mp m).elim Or.inr (later _)
            · rcases List.mem_cons.mp m with rfl | rest
              · exact .inl List.mem_cons_self
              · exact later 0 rest
  exact past 0

/-- A list without an occurrence stays. -/
theorem replaceAll_absent {old as : List α} (absent : ¬ old <:+: as) (new : List α) : replaceAll old new as = as := by
  induction as with
  | nil => rfl
  | cons a as ih =>
      have other : ¬ old <+: a :: as := fun first => absent first.isInfix
      rw [replaceAll_cons other, ih fun part => absent (part.trans (List.suffix_cons a as).isInfix)]

/-- A list keeps a separator that `old` does not have, and is replaced on either side. -/
theorem replaceAll_append {old : List α} (some' : old ≠ []) {separator : α} (apart : separator ∉ old)
    (new as bs : List α) : replaceAll old new (as ++ separator :: bs) =
      replaceAll old new as ++ separator :: replaceAll old new bs := by
  -- A prefix of the whole that lacks the separator is a prefix of the first part.
  have first {as : List α} : old <+: as ++ separator :: bs → old <+: as := by
    intro occurs
    by_cases short : old.length ≤ as.length
    · exact List.prefix_of_prefix_length_le occurs (List.prefix_append as _) short
    · have longer : as ++ [separator] <+: old := by
        refine List.prefix_of_prefix_length_le ?_ occurs ?_
        · exact ⟨bs, by rw [List.append_assoc]; rfl⟩
        · rw [List.length_append, List.length_singleton]
          omega
      exact absurd (longer.subset (List.mem_append_right _ (List.mem_singleton_self _))) apart
  induction size : as.length using Nat.strong_induction_on generalizing as with
  | _ n ih =>
      cases as with
      | nil =>
          have other : ¬ old <+: separator :: bs := fun occurs => some' (List.prefix_nil.mp (first occurs))
          rw [List.nil_append, replaceAll_cons other, replaceAll_nil, List.nil_append]
      | cons a as =>
          by_cases occurs : old <+: a :: as
          · obtain ⟨rest, eq⟩ := occurs
            have smaller : rest.length < n := by
              have lengths := congrArg List.length eq
              have positive := List.length_pos_iff.mpr some'
              rw [List.length_append] at lengths
              omega
            rw [← eq, List.append_assoc, replaceAll_occurrence some', replaceAll_occurrence some',
              ih _ smaller rest rfl, List.append_assoc]
          · have other : ¬ old <+: a :: (as ++ separator :: bs) := fun whole => occurs (first whole)
            rw [List.length_cons] at size
            rw [List.cons_append, replaceAll_cons other, replaceAll_cons occurs, ih as.length (by omega) as rfl]
            rfl

/-- A member that `old` lacks stays. -/
theorem mem_replaceAll_of_apart {old new as : List α} {a : α} (some' : old ≠ []) (apart : a ∉ old) (m : a ∈ as) :
    a ∈ replaceAll old new as := by
  obtain ⟨before, after, rfl⟩ := List.append_of_mem m
  rw [replaceAll_append some' apart]
  exact List.mem_append_right _ List.mem_cons_self

theorem replaceAll_ne_nil {old new as : List α} (some' : as ≠ []) (new' : new ≠ []) : replaceAll old new as ≠ [] := by
  obtain ⟨a, as, rfl⟩ := List.exists_cons_of_ne_nil some'
  rw [replaceAll, replaceFrom]
  split
  · exact fun none => new' (List.append_eq_nil_iff.mp none).1
  · exact List.cons_ne_nil _ _

/-- A member of `old` that `new` lacks gets no more frequent, and rarer where `old` occurs. -/
theorem count_replaceAll {old new : List α} {a : α} (inside : a ∈ old) (outside : a ∉ new) (as : List α) :
    (replaceAll old new as).count a ≤ as.count a ∧ (old <:+: as → (replaceAll old new as).count a < as.count a) := by
  have some' : old ≠ [] := List.ne_nil_of_mem inside
  induction size : as.length using Nat.strong_induction_on generalizing as with
  | _ n ih =>
      cases as with
      | nil => exact ⟨Nat.le_refl _, fun occurs => absurd (List.infix_nil.mp occurs) some'⟩
      | cons b as =>
          by_cases occurs : old <+: b :: as
          · obtain ⟨rest, eq⟩ := occurs
            have smaller : rest.length < n := by
              have lengths := congrArg List.length eq
              have positive := List.length_pos_iff.mpr some'
              rw [List.length_append] at lengths
              omega
            have further := (ih _ smaller rest rfl).1
            have met := List.count_pos_iff.mpr inside
            have none := List.count_eq_zero.mpr outside
            rw [← eq, replaceAll_occurrence some', List.count_append, List.count_append]
            exact ⟨by omega, fun _ => by omega⟩
          · rw [List.length_cons] at size
            obtain ⟨less, strict⟩ := ih as.length (by omega) as rfl
            rw [replaceAll_cons occurs, List.count_cons, List.count_cons]
            refine ⟨by omega, fun later => ?_⟩
            have below : old <:+: as := (List.infix_cons_iff.mp later).resolve_left occurs
            have fewer := strict below
            omega

/-- What changes nothing replaces nothing. -/
theorem absent_of_count {old new : List α} {a : α} (inside : a ∈ old) (outside : a ∉ new) {as : List α}
    (same : as.count a ≤ (replaceAll old new as).count a) : ¬ old <:+: as := fun occurs =>
  absurd ((count_replaceAll inside outside as).2 occurs) (Nat.not_lt_of_le same)

end Container

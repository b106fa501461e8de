import Mathlib.Data.List.TakeWhile
import Mathlib.Tactic.Common

/-!
# Trimming

A list without the members at its two ends that a predicate tells to leave out.
-/
namespace Container
variable {α : Type} {p : α → Bool}

def trim (p : α → Bool) (as : List α) : List α := ((as.dropWhile p).reverse.dropWhile p).reverse

/-- Nothing is to be left out at the ends. -/
structure Trimmed (p : α → Bool) (as : List α) : Prop where
  first : ∀ a ∈ as.head?, p a = false
  last : ∀ a ∈ as.getLast?, p a = false

theorem dropWhile_of_head {as : List α} (first : ∀ a ∈ as.head?, p a = false) : as.dropWhile p = as := by
  cases as with
  | nil => rfl
  | cons a as => exact List.dropWhile_cons_of_neg (by rw [first a rfl]; exact Bool.false_ne_true)

theorem head_dropWhile {as : List α} : ∀ a ∈ (as.dropWhile p).head?, p a = false := by
  induction as with
  | nil => exact nofun
  | cons b as ih =>
      rw [List.dropWhile_cons]
      split
      · exact ih
      · next kept =>
          intro a first
          cases first
          exact Bool.eq_false_iff.mpr kept

theorem trimmed_trim (as : List α) : Trimmed p (trim p as) := by
  constructor
  · have ends : trim p as <+: as.dropWhile p := by
      have kept := List.reverse_prefix.mpr (List.dropWhile_suffix (l := (as.dropWhile p).reverse) p)
      rwa [List.reverse_reverse] at kept
    obtain ⟨rest, whole⟩ := ends
    intro a first
    refine @head_dropWhile _ _ as a ?_
    rw [← whole]
    cases some' : trim p as with
    | nil => rw [some'] at first; cases first
    | cons b bs => rw [some'] at first; exact first
  · rw [trim, List.getLast?_reverse]
    exact head_dropWhile

/-- What stands around a trimmed list is trimmed away. -/
theorem trim_pad {before as after : List α} (trimmed : Trimmed p as) (left : ∀ a ∈ before, p a = true)
    (right : ∀ a ∈ after, p a = true) : trim p (before ++ as ++ after) = as := by
  have right' : ∀ a ∈ after.reverse, p a = true := fun a m => right a (List.mem_reverse.mp m)
  rw [trim, List.append_assoc, List.dropWhile_append_of_pos left]
  cases as with
  | nil => rw [List.nil_append, List.dropWhile_eq_nil_iff.mpr right]; rfl
  | cons a as =>
      have front : (a :: as ++ after).dropWhile p = a :: as ++ after := dropWhile_of_head trimmed.first
      have back : (a :: as).reverse.dropWhile p = (a :: as).reverse :=
        dropWhile_of_head (by rw [List.head?_reverse]; exact trimmed.last)
      rw [front, List.reverse_append, List.dropWhile_append_of_pos right', back, List.reverse_reverse]

theorem trim_eq_self {as : List α} (trimmed : Trimmed p as) : trim p as = as := by
  have padded : trim p ([] ++ as ++ []) = as := trim_pad trimmed (fun _ => nofun) (fun _ => nofun)
  rwa [List.nil_append, List.append_nil] at padded

theorem exists_trim (as : List α) : ∃ before after, as = before ++ trim p as ++ after ∧
    (∀ a ∈ before, p a = true) ∧ ∀ a ∈ after, p a = true := by
  refine ⟨as.takeWhile p, ((as.dropWhile p).reverse.takeWhile p).reverse, ?_, fun a => List.mem_takeWhile_imp, ?_⟩
  · rw [trim, List.append_assoc, ← List.reverse_append, List.takeWhile_append_dropWhile, List.reverse_reverse,
      List.takeWhile_append_dropWhile]
  · exact fun a m => List.mem_takeWhile_imp (List.mem_reverse.mp m)

theorem mem_trim {as : List α} {a : α} (m : a ∈ as) (kept : p a = false) : a ∈ trim p as := by
  obtain ⟨before, after, whole, left, right⟩ := exists_trim (p := p) as
  rw [whole, List.mem_append, List.mem_append] at m
  rcases m with (m | m) | m
  · rw [left a m] at kept
    cases kept
  · exact m
  · rw [right a m] at kept
    cases kept

end Container

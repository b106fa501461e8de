import I3xServer.Container.Buckets
import Mathlib.Data.List.Forall2

/-!
# Lists and dictionaries side by side

Two lists, or two dictionaries, whose entries are related one by one. Where the relation
of the keys is one to one, every operation keeps dictionaries related.
-/
namespace Container
variable {K K' V V' : Type} [DecidableEq K] [DecidableEq K'] {R : K → K' → Prop} {S : V → V' → Prop}

theorem forall₂_mem_right {α β : Type} {r : α → β → Prop} {xs : List α} {ys : List β}
    (h : List.Forall₂ r xs ys) {y : β} (m : y ∈ ys) : ∃ x ∈ xs, r x y := by
  induction h with
  | nil => cases m
  | cons head tail ih =>
      rcases List.mem_cons.mp m with rfl | later
      · exact ⟨_, List.mem_cons_self, head⟩
      · obtain ⟨x, xm, rel⟩ := ih later
        exact ⟨x, List.mem_cons_of_mem _ xm, rel⟩

theorem forall₂_mem_left {α β : Type} {r : α → β → Prop} {xs : List α} {ys : List β}
    (h : List.Forall₂ r xs ys) {x : α} (m : x ∈ xs) : ∃ y ∈ ys, r x y := by
  obtain ⟨y, ym, rel⟩ := forall₂_mem_right h.flip m
  exact ⟨y, ym, rel⟩

/-- Entries with related keys and related values. -/
def RelatedEntry (R : K → K' → Prop) (S : V → V' → Prop) (e : K × V) (e' : K' × V') : Prop := R e.1 e'.1 ∧ S e.2 e'.2

section
variable (unique : Relator.BiUnique R)
include unique

theorem forall₂_setEntries {es : List (K × V)} {es' : List (K' × V')} (h : List.Forall₂ (RelatedEntry R S) es es')
    {k : K} {k' : K'} (key : R k k') {v : V} {v' : V'} (value : S v v') :
    List.Forall₂ (RelatedEntry R S) (setEntries k v es) (setEntries k' v' es') := by
  induction h with
  | nil => exact .cons ⟨key, value⟩ .nil
  | cons related _ ih =>
      rw [setEntries, setEntries]
      have same := Relator.rel_eq unique related.1 key
      split
      · rename_i here
        rw [if_pos (same.mp here)]
        exact .cons ⟨key, value⟩ ‹_›
      · rename_i apart
        rw [if_neg fun here => apart (same.mpr here)]
        exact .cons related ih

theorem option_rel_lookup {es : List (K × V)} {es' : List (K' × V')} (h : List.Forall₂ (RelatedEntry R S) es es')
    {k : K} {k' : K'} (key : R k k') : Option.Rel S (es.lookup k) (es'.lookup k') := by
  induction h with
  | nil => exact .none
  | cons related _ ih =>
      rw [lookup_cons_ite, lookup_cons_ite]
      have same := Relator.rel_eq unique key related.1
      split
      · rename_i here
        rw [if_pos (same.mp here)]
        exact .some related.2
      · rename_i apart
        rw [if_neg fun here => apart (same.mpr here)]
        exact ih

namespace Dict

theorem forall₂_update {d : Dict K V} {d' : Dict K' V'} (h : List.Forall₂ (RelatedEntry R S) d.entries d'.entries)
    {es : List (K × V)} {es' : List (K' × V')} (more : List.Forall₂ (RelatedEntry R S) es es') :
    List.Forall₂ (RelatedEntry R S) (d.update es).entries (d'.update es').entries := by
  induction more generalizing d d' with
  | nil => exact h
  | cons related _ ih => exact ih (forall₂_setEntries unique h related.1 related.2)

theorem forall₂_ofList {es : List (K × V)} {es' : List (K' × V')} (h : List.Forall₂ (RelatedEntry R S) es es') :
    List.Forall₂ (RelatedEntry R S) (ofList es).entries (ofList es').entries := forall₂_update unique .nil h

theorem option_rel_get? {d : Dict K V} {d' : Dict K' V'} (h : List.Forall₂ (RelatedEntry R S) d.entries d'.entries)
    {k : K} {k' : K'} (key : R k k') : Option.Rel S (d.get? k) (d'.get? k') := option_rel_lookup unique h key

end Dict
end

theorem Dict.forall₂_values {d : Dict K V} {d' : Dict K' V'}
    (h : List.Forall₂ (RelatedEntry R S) d.entries d'.entries) : List.Forall₂ S d.values d'.values := by
  rw [values, values, List.forall₂_map_left_iff, List.forall₂_map_right_iff]
  exact h.imp fun _ _ related => related.2

/-- A member has a related member on the other side. -/
theorem exists_of_forall₂ {A B : Type} {T : A → B → Prop} {xs : List A} {ys : List B} (h : List.Forall₂ T xs ys)
    {x : A} (m : x ∈ xs) : ∃ y ∈ ys, T x y := by
  induction h with
  | nil => cases m
  | cons related _ ih =>
      rcases List.mem_cons.mp m with rfl | later
      · exact ⟨_, List.mem_cons_self, related⟩
      · obtain ⟨y, inside, found⟩ := ih later
        exact ⟨y, List.mem_cons_of_mem _ inside, found⟩

/-- A list beside a split list splits at the same place. -/
theorem split_of_forall₂ {A B : Type} {T : A → B → Prop} {xs ys : List A} {x : A} {zs : List B}
    (h : List.Forall₂ T (xs ++ x :: ys) zs) :
    ∃ xs' y ys', zs = xs' ++ y :: ys' ∧ T x y ∧ List.Forall₂ T ys ys' := by
  induction xs generalizing zs with
  | nil =>
      cases h with
      | cons related rest => exact ⟨[], _, _, rfl, related, rest⟩
  | cons _ _ ih =>
      cases h with
      | cons _ rest =>
          obtain ⟨xs', y, ys', rfl, related, after⟩ := ih rest
          exact ⟨_ :: xs', y, ys', rfl, related, after⟩

end Container

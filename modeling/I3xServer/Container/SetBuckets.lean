import I3xServer.Container.Buckets
import Mathlib.Data.Finset.Basic

/-!
# Dictionaries of sets and of buckets

A dictionary of sets that grows by adding members to the set of a key, and one of
buckets under two keys.
-/
namespace Container
variable {K V : Type} [DecidableEq K] [DecidableEq V]

namespace Dict

/-- The set under a key; empty if there is none. -/
def members (d : Dict K (Finset V)) (k : K) : Finset V := (d.get? k).getD ∅

def addTo (d : Dict K (Finset V)) (k : K) (vs : Finset V) : Dict K (Finset V) := d.set k (d.members k ∪ vs)

def addAll (d : Dict K (Finset V)) (es : List (K × Finset V)) : Dict K (Finset V) :=
  es.foldl (fun d e => d.addTo e.1 e.2) d

theorem members_addTo (d : Dict K (Finset V)) (k a : K) (vs : Finset V) :
    (d.addTo k vs).members a = if a = k then d.members k ∪ vs else d.members a := by
  rw [members, addTo, get?_set]
  split
  · rfl
  · rfl

theorem mem_members_addTo (d : Dict K (Finset V)) (k a : K) (vs : Finset V) (v : V) :
    v ∈ (d.addTo k vs).members a ↔ v ∈ d.members a ∨ (a = k ∧ v ∈ vs) := by
  rw [members_addTo]
  split
  · next same => rw [Finset.mem_union, same]; tauto
  · next other => tauto

theorem mem_members_addAll (d : Dict K (Finset V)) (es : List (K × Finset V)) (a : K) (v : V) :
    v ∈ (d.addAll es).members a ↔ v ∈ d.members a ∨ ∃ e ∈ es, e.1 = a ∧ v ∈ e.2 := by
  induction es generalizing d with
  | nil => simp [addAll]
  | cons e es ih =>
      have step : d.addAll (e :: es) = (d.addTo e.1 e.2).addAll es := rfl
      rw [step, ih, mem_members_addTo]
      simp only [List.mem_cons, exists_eq_or_imp]
      constructor
      · rintro ((old | ⟨same, new⟩) | later)
        · exact .inl old
        · exact .inr (.inl ⟨same.symm, new⟩)
        · exact .inr (.inr later)
      · rintro (old | ⟨same, new⟩ | later)
        · exact .inl (.inl old)
        · exact .inl (.inr ⟨same.symm, new⟩)
        · exact .inr later

theorem keys_addTo (d : Dict K (Finset V)) (k : K) (vs : Finset V) (a : K) :
    a ∈ (d.addTo k vs).keys ↔ a = k ∨ a ∈ d.keys := keys_set _ _ _ _

theorem keys_addAll (d : Dict K (Finset V)) (es : List (K × Finset V)) (a : K) :
    a ∈ (d.addAll es).keys ↔ a ∈ d.keys ∨ a ∈ es.map Prod.fst := by
  induction es generalizing d with
  | nil => simp [addAll]
  | cons e es ih =>
      have step : d.addAll (e :: es) = (d.addTo e.1 e.2).addAll es := rfl
      rw [step, ih, keys_addTo, List.map_cons, List.mem_cons]
      tauto

omit [DecidableEq V] in
theorem get?_of_members {d : Dict K (Finset V)} {k : K} (h : k ∈ d.keys) : d.get? k = some (d.members k) := by
  obtain ⟨vs, found⟩ := (d.mem_keys k).mp h
  rw [members, found]
  rfl

/-! ## Two keys -/

section
variable {L W : Type} [DecidableEq L]

/-- The list under two keys; empty if there is none. -/
def cell (d : Dict K (Dict L (List W))) (k : K) (l : L) : List W := ((d.get? k).getD .empty).bucket l

def pushCell (d : Dict K (Dict L (List W))) (k : K) (l : L) (w : W) : Dict K (Dict L (List W)) :=
  d.set k (((d.get? k).getD .empty).push l w)

theorem cell_pushCell (d : Dict K (Dict L (List W))) (k a : K) (l b : L) (w : W) :
    (d.pushCell k l w).cell a b = if a = k ∧ b = l then d.cell k l ++ [w] else d.cell a b := by
  rw [cell, pushCell, get?_set]
  by_cases same : a = k
  · rw [if_pos same, Option.getD_some, bucket_push]
    subst same
    by_cases here : b = l
    · rw [if_pos here, if_pos ⟨rfl, here⟩, cell]
    · rw [if_neg here, if_neg fun both => here both.2, cell]
  · rw [if_neg same, if_neg fun both => same both.1, cell]

theorem cell_foldl {E : Type} (es : List E) (key : E → K) (name : E → L) (value : E → W)
    (d : Dict K (Dict L (List W))) (a : K) (b : L) :
    (es.foldl (fun d e => d.pushCell (key e) (name e) (value e)) d).cell a b =
      d.cell a b ++ (es.filter fun e => key e = a ∧ name e = b).map value := by
  induction es generalizing d with
  | nil => simp
  | cons e es ih =>
      rw [List.foldl_cons, ih, cell_pushCell]
      by_cases here : key e = a ∧ name e = b
      · obtain ⟨rfl, rfl⟩ := here
        rw [if_pos ⟨rfl, rfl⟩, List.filter_cons_of_pos (by simp), List.map_cons, List.append_assoc,
          List.singleton_append]
      · rw [if_neg fun both => here ⟨both.1.symm, both.2.symm⟩, List.filter_cons_of_neg (by simpa using here)]

end
end Dict
end Container

import I3xServer.Container.Buckets
import I3xServer.Container.Traversal

/-!
# First matches

Looking up a key among pairs, and the first entry of a dictionary with a
property, described by the order of first occurrences.
-/
namespace Container
variable {K V : Type} [DecidableEq K]

/-- The first member with a property precedes every other one that has it. -/
theorem find?_eq_some_iff_precedes {α : Type} [DecidableEq α] (p : α → Bool) (l : List α) (a : α) :
    l.find? p = some a ↔ a ∈ l ∧ p a = true ∧ ∀ b ∈ l, p b = true → b = a ∨ Precedes l a b := by
  constructor
  · intro h
    obtain ⟨holds, before, after, rfl, earlier⟩ := List.find?_eq_some_iff_append.mp h
    refine ⟨by simp, holds, fun b _ other => ?_⟩
    by_cases same : b = a
    · exact Or.inl same
    · refine Or.inr ⟨before ++ [a], after, by simp, by simp, fun m => ?_⟩
      rcases List.mem_append.mp m with early | last
      · have lacks := earlier b early
        rw [other] at lacks
        cases lacks
      · exact same (List.mem_singleton.mp last)
  · rintro ⟨inside, holds, first⟩
    cases found : l.find? p with
    | none => exact absurd holds (by simpa using List.find?_eq_none.mp found a inside)
    | some b =>
        obtain ⟨holds', before, after, rfl, earlier⟩ := List.find?_eq_some_iff_append.mp found
        rcases first b (by simp) holds' with rfl | ⟨start, rest, split, m, absent⟩
        · rfl
        · have early : a ∈ before ∨ b ∈ start := by
            rcases List.append_eq_append_iff.mp split with ⟨more, rfl, tail⟩ | ⟨more, rfl, _⟩
            · cases more with
              | nil => exact Or.inl (by simpa using m)
              | cons x more =>
                  cases tail
                  exact Or.inr (by simp)
            · exact Or.inl (List.mem_append_left _ m)
          rcases early with early | late
          · exact absurd holds (by simpa using earlier a early)
          · exact absurd late absent

/-- The only match does not depend on the order. -/
theorem find?_perm {α : Type} {l l' : List α} {p : α → Bool} (perm : l.Perm l') (single : (l.filter p).length ≤ 1) :
    l.find? p = l'.find? p := by
  have hits := perm.filter p
  rw [← List.head?_filter, ← List.head?_filter]
  match found : l.filter p, single with
  | [], _ =>
      rw [found, List.nil_perm] at hits
      rw [hits]
  | [a], _ =>
      rw [found, List.singleton_perm] at hits
      rw [← hits]

namespace Dict

/-- The first entry whose value has a property, found among the keys. -/
theorem find?_entries (d : Dict K V) (p : V → Bool) :
    (d.entries.find? fun e => p e.2).map Prod.fst =
      d.keys.find? fun k => ((d.get? k).map p).getD false := by
  have same : ∀ e ∈ d.entries, ((d.get? e.1).map p).getD false = p e.2 := fun e m => by
    rw [(d.mem_entries e.1 e.2).mp m]
    rfl
  rw [keys, List.find?_map]
  congr 1
  generalize d.entries = es at same
  induction es with
  | nil => rfl
  | cons e es ih =>
      rw [List.find?_cons, List.find?_cons, Function.comp_apply, same e List.mem_cons_self,
        ih fun e' m => same e' (List.mem_cons_of_mem _ m)]

end Dict

omit [DecidableEq K] in
/-- The owner under which a list of owners and their members first names a member. -/
theorem lookup_members (owners : List (K × List V)) [DecidableEq V] (member : V) :
    (owners.flatMap fun owner => owner.2.map fun m => (m, owner.1)).lookup member =
      (owners.find? fun owner => member ∈ owner.2).map Prod.fst := by
  induction owners with
  | nil => rfl
  | cons owner owners ih =>
      rw [List.flatMap_cons, List.lookup_append, ih, List.find?_cons]
      have head : (owner.2.map fun m => (m, owner.1)).lookup member =
          if member ∈ owner.2 then some owner.1 else none := by
        induction owner.2 with
        | nil => rfl
        | cons m ms ih =>
            rw [List.map_cons, lookup_cons_ite, ih]
            by_cases same : member = m
            · simp [same]
            · simp [same]
      rw [head]
      by_cases inside : member ∈ owner.2 <;> simp [inside]

end Container

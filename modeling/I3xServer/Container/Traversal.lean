import I3xServer.Container.Dict

/-!
# First occurrences and breadth-first order

`Precedes l a b` compares two values by where a list first holds them. The keys
of an insertion-ordered dictionary are in that order, and a queue that appends
the successors of each entry it takes visits a graph level by level.
-/
namespace Container
variable {α K V : Type}

/-- Some beginning of `l` holds `a` and does not hold `b`. -/
def Precedes (l : List α) (a b : α) : Prop := ∃ before after, l = before ++ after ∧ a ∈ before ∧ b ∉ before

theorem Precedes.append {l : List α} {a b : α} (h : Precedes l a b) (more : List α) :
    Precedes (l ++ more) a b := by
  obtain ⟨before, after, rfl, first, absent⟩ := h
  exact ⟨before, after ++ more, List.append_assoc .., first, absent⟩

theorem Precedes.asymm {l : List α} {a b : α} (h : Precedes l a b) : ¬ Precedes l b a := by
  obtain ⟨before, after, rfl, first, absent⟩ := h
  rintro ⟨before', after', same, first', absent'⟩
  rcases List.append_eq_append_iff.mp same with ⟨more, rfl, _⟩ | ⟨more, rfl, _⟩
  · exact absent' (List.mem_append_left _ first)
  · exact absent (List.mem_append_left _ first')

/-- Of two different values one comes first, if either occurs at all. -/
theorem precedes_total {l : List α} {a b : α} (here : a ∈ l) (other : a ≠ b) :
    Precedes l a b ∨ Precedes l b a := by
  induction l with
  | nil => cases here
  | cons x l ih =>
      by_cases isA : x = a
      · exact Or.inl ⟨[x], l, rfl, by rw [isA]; exact List.mem_singleton_self a,
          fun m => other (isA.symm.trans (List.mem_singleton.mp m).symm)⟩
      · by_cases isB : x = b
        · exact Or.inr ⟨[x], l, rfl, by rw [isB]; exact List.mem_singleton_self b,
            fun m => isA (List.mem_singleton.mp m).symm⟩
        · have skip {c d : α} (notD : x ≠ d) : Precedes l c d → Precedes (x :: l) c d := by
            rintro ⟨before, after, rfl, first, absent⟩
            refine ⟨x :: before, after, rfl, List.mem_cons_of_mem _ first, fun m => ?_⟩
            rcases List.mem_cons.mp m with same | later
            · exact notD same.symm
            · exact absent later
          have later : a ∈ l := (List.mem_cons.mp here).resolve_left fun same => isA same.symm
          exact (ih later).imp (skip isB) (skip isA)

/-- A value of a list without repetition precedes what stands behind it. -/
theorem precedes_iff_of_nodup {before after : List α} {b : α} (nodup : (before ++ b :: after).Nodup)
    {a : α} : Precedes (before ++ b :: after) a b ↔ a ∈ before := by
  constructor
  · rintro ⟨start, rest, same, first, absent⟩
    rcases List.append_eq_append_iff.mp same with ⟨more, rfl, tail⟩ | ⟨more, rfl, _⟩
    · cases more with
      | nil => simpa using first
      | cons x more =>
          cases tail
          exact absurd (List.mem_append_right _ List.mem_cons_self) absent
    · exact List.mem_append_left _ first
  · intro first
    refine ⟨before, b :: after, rfl, first, fun again => ?_⟩
    exact (List.nodup_append.mp nodup).2.2 b again b List.mem_cons_self rfl

/-! ## The order of dictionary keys -/

section
variable [DecidableEq K]

theorem prefix_setEntries (k : K) (v : V) (es : List (K × V)) :
    es.map Prod.fst <+: (setEntries k v es).map Prod.fst := by
  induction es with
  | nil => exact List.nil_prefix
  | cons e es ih =>
      by_cases same : e.1 = k
      · have kept : (setEntries k v (e :: es)).map Prod.fst = (e :: es).map Prod.fst := by
          rw [setEntries, if_pos same, List.map_cons, List.map_cons, same]
        exact kept.symm ▸ List.prefix_rfl
      · rw [setEntries, if_neg same, List.map_cons, List.map_cons]
        exact (List.prefix_cons_inj _).mpr ih

theorem Dict.keys_prefix_update (d : Dict K V) (es : List (K × V)) : d.keys <+: (d.update es).keys := by
  induction es generalizing d with
  | nil => exact List.prefix_rfl
  | cons e es ih => exact (prefix_setEntries e.1 e.2 d.entries).trans (ih (d.set e.1 e.2))

theorem setEntries_absent {k : K} (v : V) {es : List (K × V)} (absent : k ∉ es.map Prod.fst) :
    setEntries k v es = es ++ [(k, v)] := by
  induction es with
  | nil => rfl
  | cons e es ih =>
      rw [List.map_cons, List.mem_cons, not_or] at absent
      rw [setEntries, if_neg (Ne.symm absent.1), ih absent.2, List.cons_append]

/-- Entries with new and different keys are appended as they are. -/
theorem Dict.entries_update_nodup {d : Dict K V} {es : List (K × V)} (nodup : (d.keys ++ es.map Prod.fst).Nodup) :
    (d.update es).entries = d.entries ++ es := by
  induction es generalizing d with
  | nil => exact (List.append_nil _).symm
  | cons e es ih =>
      have grown : (d.set e.1 e.2).entries = d.entries ++ [e] := setEntries_absent e.2 fun old =>
        (List.nodup_append.mp nodup).2.2 e.1 old e.1 List.mem_cons_self rfl
      have keys : (d.set e.1 e.2).keys = d.keys ++ [e.1] := by
        rw [Dict.keys, grown, List.map_append]
        rfl
      have rest := ih (d := d.set e.1 e.2) (by
        rw [keys, List.append_assoc]
        exact nodup)
      rw [grown, List.append_assoc] at rest
      exact rest

/-- The keys of a dictionary stand in the order in which they were first written. -/
theorem Dict.precedes_update (es : List (K × V)) {a b : K} (here : a ∈ es.map Prod.fst) (other : a ≠ b) :
    Precedes ((Dict.empty : Dict K V).update es).keys a b ↔ Precedes (es.map Prod.fst) a b := by
  have forward {a b : K} (h : Precedes (es.map Prod.fst) a b) :
      Precedes ((Dict.empty : Dict K V).update es).keys a b := by
    obtain ⟨before, after, split, first, absent⟩ := h
    obtain ⟨esBefore, esAfter, rfl, rfl, rfl⟩ := List.map_eq_append_iff.mp split
    rw [update_append]
    obtain ⟨more, grown⟩ := ((Dict.empty : Dict K V).update esBefore).keys_prefix_update esAfter
    rw [← grown]
    refine Precedes.append ⟨_, [], (List.append_nil _).symm, ?_, ?_⟩ more
    · exact (keys_update _ _ _).mpr (Or.inr first)
    · exact fun m => ((keys_update _ _ _).mp m).elim nofun absent
  refine ⟨fun h => ?_, forward⟩
  exact (precedes_total here other).resolve_right fun back => h.asymm (forward back)

end

/-! ## Breadth-first order -/

section
variable (next : α → List α)

/-- The entries a queue visits when each takes its successors to the end. -/
def traverse : Nat → List α → Option (List α)
  | _, [] => some []
  | 0, _ :: _ => none
  | fuel + 1, x :: queue => (traverse fuel (queue ++ next x)).map (x :: ·)

/-- The first `k` levels below the entries `xs`, one after the other. -/
def levels : Nat → List α → List α
  | 0, _ => []
  | k + 1, xs => xs ++ levels k (xs.flatMap next)

/-- The `k`th level below the entries `xs`. -/
def level : Nat → List α → List α
  | 0, xs => xs
  | k + 1, xs => level k (xs.flatMap next)

theorem levels_succ (k : Nat) (xs : List α) : levels next (k + 1) xs = levels next k xs ++ level next k xs := by
  induction k generalizing xs with
  | zero => exact List.append_nil xs
  | succ k ih =>
      rw [levels, ih (xs.flatMap next), levels, level, List.append_assoc]

theorem levels_prefix {k k' : Nat} (le : k ≤ k') (xs : List α) : levels next k xs <+: levels next k' xs := by
  induction k generalizing xs k' with
  | zero => exact List.nil_prefix
  | succ k ih =>
      obtain ⟨m, rfl⟩ : ∃ m, k' = m + 1 := ⟨k' - 1, by omega⟩
      exact (List.prefix_append_right_inj xs).mpr (ih (by omega) _)

variable {next}

theorem levels_nil (k : Nat) : levels next k [] = [] := by
  induction k with
  | zero => rfl
  | succ k ih => exact ih

/-- With the rest of one level before the beginning of the next in the queue, the
levels that follow are complete. -/
theorem traverse_eq_levels {fuel : Nat} {rest begun out : List α}
    (done : traverse next fuel (rest ++ begun) = some out) :
    ∃ k, ∀ j, out = rest ++ levels next (k + j) (begun ++ rest.flatMap next) := by
  induction fuel generalizing rest begun out with
  | zero =>
      cases rest with
      | nil =>
          cases begun with
          | nil =>
              cases done
              exact ⟨0, fun j => (levels_nil (0 + j)).symm⟩
          | cons => cases done
      | cons => cases done
  | succ fuel ih =>
      cases rest with
      | nil =>
          cases begun with
          | nil =>
              cases done
              exact ⟨0, fun j => (levels_nil (0 + j)).symm⟩
          | cons x begun =>
              obtain ⟨tail, found, rfl⟩ := Option.map_eq_some_iff.mp done
              obtain ⟨k, all⟩ := ih found
              refine ⟨k + 1, fun j => ?_⟩
              rw [show k + 1 + j = k + j + 1 by omega, levels, all j]
              simp only [List.nil_append, List.flatMap_nil, List.append_nil, List.flatMap_cons, List.cons_append]
      | cons x rest =>
          obtain ⟨tail, found, rfl⟩ := Option.map_eq_some_iff.mp done
          rw [show rest.append begun ++ next x = rest ++ (begun ++ next x) from List.append_assoc ..] at found
          obtain ⟨k, all⟩ := ih found
          refine ⟨k, fun j => ?_⟩
          rw [all j, List.flatMap_cons, List.append_assoc, List.cons_append]

theorem traverse_some {fuel k : Nat} (rest begun : List α) (last : level next k (begun ++ rest.flatMap next) = [])
    (enough : rest.length + (levels next k (begun ++ rest.flatMap next)).length ≤ fuel) :
    ∃ out, traverse next fuel (rest ++ begun) = some out := by
  induction fuel generalizing rest begun k with
  | zero =>
      cases rest with
      | nil =>
          cases k with
          | zero =>
              rw [show begun = [] by simpa [level] using last]
              exact ⟨[], rfl⟩
          | succ k =>
              have none_left : begun = [] := by
                rw [List.flatMap_nil, List.append_nil, levels, List.length_append] at enough
                exact List.length_eq_zero_iff.mp (by omega)
              rw [none_left]
              exact ⟨[], rfl⟩
      | cons x rest =>
          rw [List.length_cons] at enough
          omega
  | succ fuel ih =>
      cases rest with
      | nil =>
          cases begun with
          | nil => exact ⟨[], rfl⟩
          | cons x begun =>
              rw [List.flatMap_nil, List.append_nil] at last enough
              cases k with
              | zero => cases last
              | succ k =>
                  rw [levels, List.length_append, List.length_cons] at enough
                  obtain ⟨out, found⟩ := ih begun (next x) last
                    (by rw [← List.flatMap_cons]; rw [List.length_nil] at enough; omega)
                  exact ⟨x :: out, congrArg (Option.map (x :: ·)) found⟩
      | cons x rest =>
          rw [List.flatMap_cons, ← List.append_assoc] at last enough
          rw [List.length_cons] at enough
          obtain ⟨out, found⟩ := ih rest (begun ++ next x) last (by omega)
          refine ⟨x :: out, ?_⟩
          rw [← List.append_assoc] at found
          exact congrArg (Option.map (x :: ·)) found

/-- Where every successor has a smaller rank, the levels end. -/
theorem level_eq_nil_of_rank (rank : α → Nat) (falls : ∀ a, ∀ b ∈ next a, rank b < rank a) {k : Nat}
    {xs : List α} (bound : ∀ x ∈ xs, rank x < k) : level next k xs = [] := by
  induction k generalizing xs with
  | zero => exact List.eq_nil_iff_forall_not_mem.mpr fun x m => Nat.not_lt_zero _ (bound x m)
  | succ k ih =>
      refine ih fun y m => ?_
      obtain ⟨x, n, inside⟩ := List.mem_flatMap.mp m
      exact Nat.lt_of_lt_of_le (falls x y inside) (Nat.le_of_lt_succ (bound x n))

/-- The queue runs empty, given enough fuel, exactly when some level is empty. -/
theorem traverse_done_iff (xs : List α) :
    (∃ fuel out, traverse next fuel xs = some out) ↔ ∃ k, level next k xs = [] := by
  constructor
  · rintro ⟨fuel, out, done⟩
    rw [← List.nil_append xs] at done
    obtain ⟨k, all⟩ := traverse_eq_levels done
    refine ⟨k, ?_⟩
    have more := (all 0).symm.trans (all 1)
    rw [List.nil_append, List.nil_append, List.flatMap_nil, List.append_nil, levels_succ,
      Nat.add_zero] at more
    exact List.self_eq_append_right.mp more
  · rintro ⟨k, last⟩
    obtain ⟨out, found⟩ := traverse_some [] xs (k := k)
      (by rwa [List.flatMap_nil, List.append_nil]) (Nat.le_refl _)
    exact ⟨_, out, found⟩

end
end Container

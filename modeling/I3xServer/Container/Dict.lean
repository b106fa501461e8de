import Mathlib.Data.List.Nodup
import Mathlib.Data.List.Induction
import Mathlib.Tactic.Common

/-!
# Insertion-ordered dictionaries

An association list whose keys are pairwise distinct, with the update discipline
of an insertion-ordered hash map: overwriting a key keeps its position, a new key
goes to the end, and iteration follows that order. Every operation rebuilds the
distinctness proof, so no later result has to.
-/
namespace Container
variable {K V W : Type} [DecidableEq K]

def setEntries (k : K) (v : V) : List (K × V) → List (K × V)
  | [] => [(k, v)]
  | e :: es => if e.1 = k then (k, v) :: es else e :: setEntries k v es

attribute [local simp] setEntries

theorem mem_keys_setEntries (k : K) (v : V) (es : List (K × V)) (a : K) :
    a ∈ (setEntries k v es).map Prod.fst ↔ a = k ∨ a ∈ es.map Prod.fst := by
  induction es with
  | nil => simp
  | cons e es ih =>
      by_cases h : e.1 = k
      · subst h
        simp only [setEntries, if_true, List.map_cons, List.mem_cons]
        tauto
      · simp only [setEntries, if_neg h, List.map_cons, List.mem_cons, ih]
        tauto

theorem nodup_setEntries (k : K) (v : V) (es : List (K × V))
    (h : (es.map Prod.fst).Nodup) : ((setEntries k v es).map Prod.fst).Nodup := by
  induction es with
  | nil => simp
  | cons e es ih =>
      obtain ⟨head, tail⟩ := List.nodup_cons.mp h
      by_cases same : e.1 = k
      · subst same
        simpa only [setEntries, if_true, List.map_cons] using h
      · simp only [setEntries, if_neg same, List.map_cons, List.nodup_cons]
        refine ⟨?_, ih tail⟩
        rw [mem_keys_setEntries]
        exact fun m => m.elim same head

theorem lookup_cons_ite (e : K × V) (es : List (K × V)) (a : K) :
    (e :: es).lookup a = if a = e.1 then some e.2 else es.lookup a := by
  obtain ⟨k, v⟩ := e
  by_cases h : a = k
  · simp [h]
  · have : (a == k) = false := by simpa using h
    simp [List.lookup_cons, this, h]

theorem lookup_setEntries (k : K) (v : V) (es : List (K × V)) (a : K) :
    (setEntries k v es).lookup a = if a = k then some v else es.lookup a := by
  induction es with
  | nil => simp only [setEntries, lookup_cons_ite]
  | cons e es ih =>
      by_cases same : e.1 = k
      · subst same
        rw [setEntries, if_pos rfl, lookup_cons_ite, lookup_cons_ite]
        split_ifs <;> rfl
      · rw [setEntries, if_neg same, lookup_cons_ite, lookup_cons_ite, ih]
        by_cases h : a = e.1
        · subst h
          rw [if_pos rfl, if_neg same, if_pos rfl]
        · rw [if_neg h, if_neg h]

theorem lookup_filter (p : K → Bool) (es : List (K × V)) (a : K) :
    (es.filter fun e => p e.1).lookup a = if p a then es.lookup a else none := by
  induction es with
  | nil => simp
  | cons e es ih =>
      cases keep : p e.1 with
      | true =>
          rw [List.filter_cons_of_pos (by simpa using keep), lookup_cons_ite, lookup_cons_ite, ih]
          by_cases h : a = e.1
          · subst h; simp [keep]
          · simp only [if_neg h]
      | false =>
          rw [List.filter_cons_of_neg (by simpa using keep), lookup_cons_ite, ih]
          by_cases h : a = e.1
          · subst h; simp [keep]
          · simp only [if_neg h]

theorem lookup_eq_none (es : List (K × V)) (a : K) :
    es.lookup a = none ↔ a ∉ es.map Prod.fst := by
  induction es with
  | nil => simp
  | cons e es ih =>
      rw [lookup_cons_ite, List.map_cons, List.mem_cons, not_or, ← ih]
      by_cases h : a = e.1 <;> simp [h]

theorem lookup_eq_some (es : List (K × V)) (h : (es.map Prod.fst).Nodup) (a : K) (v : V) :
    es.lookup a = some v ↔ (a, v) ∈ es := by
  induction es with
  | nil => simp
  | cons e es ih =>
      obtain ⟨head, tail⟩ := List.nodup_cons.mp h
      rw [lookup_cons_ite, List.mem_cons]
      by_cases same : a = e.1
      · subst same
        have absent : (e.1, v) ∉ es := fun m => head (List.mem_map.mpr ⟨_, m, rfl⟩)
        rw [if_pos rfl]
        constructor
        · intro eq
          exact Or.inl (by rw [← Option.some.inj eq])
        · rintro (eq | m)
          · rw [← eq]
          · exact absurd m absent
      · rw [if_neg same, ih tail]
        constructor
        · exact Or.inr
        · rintro (eq | m)
          · exact absurd (congrArg Prod.fst eq) same
          · exact m

theorem lookup_mem {es : List (K × V)} {a : K} {v : V} (h : es.lookup a = some v) : (a, v) ∈ es := by
  induction es with
  | nil => cases h
  | cons e es ih =>
      rw [lookup_cons_ite] at h
      by_cases same : a = e.1
      · rw [if_pos same, Option.some.injEq] at h
        rw [same, ← h]
        exact List.mem_cons_self
      · rw [if_neg same] at h
        exact List.mem_cons_of_mem _ (ih h)

/-- A dictionary is its entries in insertion order, together with the proof that
no key occurs twice. -/
structure Dict (K V : Type) [DecidableEq K] where
  entries : List (K × V)
  nodup : (entries.map Prod.fst).Nodup

namespace Dict

def empty : Dict K V := ⟨[], List.nodup_nil⟩

def get? (d : Dict K V) (k : K) : Option V := d.entries.lookup k

def keys (d : Dict K V) : List K := d.entries.map Prod.fst

def values (d : Dict K V) : List V := d.entries.map Prod.snd

def length (d : Dict K V) : Nat := d.entries.length

def set (d : Dict K V) (k : K) (v : V) : Dict K V :=
  ⟨setEntries k v d.entries, nodup_setEntries k v _ d.nodup⟩

/-- Keep the entries whose key satisfies `p`, in order. -/
def filterKeys (d : Dict K V) (p : K → Bool) : Dict K V :=
  ⟨d.entries.filter fun e => p e.1,
    d.nodup.sublist (List.Sublist.map _ List.filter_sublist)⟩

def erase (d : Dict K V) (k : K) : Dict K V := d.filterKeys fun a => decide (a ≠ k)

/-- Insert a sequence of entries from left to right. -/
def update (d : Dict K V) (es : List (K × V)) : Dict K V := es.foldl (fun d e => d.set e.1 e.2) d

def ofList (es : List (K × V)) : Dict K V := empty.update es

/-- Apply `f` to the value stored under `k`, if there is one. -/
def modify (d : Dict K V) (k : K) (f : V → V) : Dict K V :=
  match d.get? k with
  | some v => d.set k (f v)
  | none => d

@[simp] theorem get?_empty (k : K) : (empty : Dict K V).get? k = none := rfl

theorem get?_set (d : Dict K V) (k a : K) (v : V) :
    (d.set k v).get? a = if a = k then some v else d.get? a :=
  lookup_setEntries k v d.entries a

@[simp] theorem get?_set_self (d : Dict K V) (k : K) (v : V) : (d.set k v).get? k = some v := by
  rw [get?_set, if_pos rfl]

theorem get?_set_ne (d : Dict K V) {k a : K} (v : V) (h : a ≠ k) :
    (d.set k v).get? a = d.get? a := by rw [get?_set, if_neg h]

theorem get?_filterKeys (d : Dict K V) (p : K → Bool) (a : K) :
    (d.filterKeys p).get? a = if p a then d.get? a else none :=
  lookup_filter p d.entries a

theorem get?_erase (d : Dict K V) (k a : K) :
    (d.erase k).get? a = if a = k then none else d.get? a := by
  rw [erase, get?_filterKeys]
  by_cases h : a = k <;> simp [h]

@[simp] theorem get?_erase_self (d : Dict K V) (k : K) : (d.erase k).get? k = none := by
  rw [get?_erase, if_pos rfl]

theorem get?_erase_ne (d : Dict K V) {k a : K} (h : a ≠ k) : (d.erase k).get? a = d.get? a := by
  rw [get?_erase, if_neg h]

theorem get?_modify (d : Dict K V) (k a : K) (f : V → V) :
    (d.modify k f).get? a = if a = k then (d.get? k).map f else d.get? a := by
  unfold modify
  cases found : d.get? k with
  | some v => rw [get?_set, Option.map_some]
  | none =>
      by_cases h : a = k
      · rw [if_pos h, h, found]; rfl
      · rw [if_neg h]

theorem mem_entries (d : Dict K V) (k : K) (v : V) : (k, v) ∈ d.entries ↔ d.get? k = some v :=
  (lookup_eq_some d.entries d.nodup k v).symm

theorem get?_eq_none (d : Dict K V) (k : K) : d.get? k = none ↔ k ∉ d.keys :=
  lookup_eq_none d.entries k

theorem mem_keys (d : Dict K V) (k : K) : k ∈ d.keys ↔ ∃ v, d.get? k = some v := by
  rw [← not_iff_not, ← get?_eq_none]
  cases d.get? k <;> simp

theorem mem_values (d : Dict K V) (v : V) : v ∈ d.values ↔ ∃ k, d.get? k = some v := by
  simp only [values, List.mem_map]
  constructor
  · rintro ⟨⟨k, _⟩, m, rfl⟩
    exact ⟨k, (d.mem_entries _ _).mp m⟩
  · rintro ⟨k, h⟩
    exact ⟨(k, v), (d.mem_entries _ _).mpr h, rfl⟩

theorem keys_set (d : Dict K V) (k : K) (v : V) (a : K) :
    a ∈ (d.set k v).keys ↔ a = k ∨ a ∈ d.keys := mem_keys_setEntries k v d.entries a

theorem keys_erase (d : Dict K V) (k a : K) : a ∈ (d.erase k).keys ↔ a ≠ k ∧ a ∈ d.keys := by
  rw [mem_keys, mem_keys, get?_erase]
  by_cases h : a = k <;> simp [h]

theorem length_set_of_none (d : Dict K V) {k : K} (v : V) (h : d.get? k = none) :
    (d.set k v).length = d.length + 1 := by
  have absent := (d.get?_eq_none k).mp h
  obtain ⟨es, nodup⟩ := d
  change k ∉ es.map Prod.fst at absent
  change (setEntries k v es).length = es.length + 1
  clear h nodup
  induction es with
  | nil => rfl
  | cons e es ih =>
      simp only [List.map_cons, List.mem_cons, not_or] at absent
      have other : ¬ e.1 = k := fun c => absent.1 c.symm
      rw [setEntries, if_neg other, List.length_cons, ih absent.2, List.length_cons]

theorem length_set_le (d : Dict K V) (k : K) (v : V) : (d.set k v).length ≤ d.length + 1 := by
  obtain ⟨es, nodup⟩ := d
  change (setEntries k v es).length ≤ es.length + 1
  clear nodup
  induction es with
  | nil => simp
  | cons e es ih =>
      by_cases same : e.1 = k
      · simp [same]
      · simpa [same] using ih

theorem length_filterKeys_le (d : Dict K V) (p : K → Bool) : (d.filterKeys p).length ≤ d.length :=
  List.length_filter_le _ _

theorem length_erase_le (d : Dict K V) (k : K) : (d.erase k).length ≤ d.length :=
  d.length_filterKeys_le _

theorem entries_nodup (d : Dict K V) : d.entries.Nodup := d.nodup.of_map _

/-- Dictionaries with the same values have the same entries up to order. -/
theorem entries_perm {d d' : Dict K V} (same : ∀ k, d.get? k = d'.get? k) : d.entries.Perm d'.entries := by
  refine (List.perm_ext_iff_of_nodup (entries_nodup _) (entries_nodup _)).mpr ?_
  rintro ⟨k, v⟩
  rw [mem_entries, mem_entries, same]

/-- Up to order, setting a key puts its entry in front of the others. -/
theorem perm_set (d : Dict K V) (k : K) (v : V) : (d.set k v).entries.Perm ((k, v) :: (d.erase k).entries) := by
  have absent : (k, v) ∉ (d.erase k).entries := by
    rw [mem_entries, get?_erase_self]
    exact nofun
  refine (List.perm_ext_iff_of_nodup (entries_nodup _) (List.nodup_cons.mpr ⟨absent, entries_nodup _⟩)).mpr ?_
  rintro ⟨a, w⟩
  rw [mem_entries, List.mem_cons, mem_entries, get?_set, get?_erase, Prod.mk.injEq]
  by_cases same : a = k
  · rw [if_pos same, if_pos same, Option.some.injEq]
    exact ⟨fun eq => .inl ⟨same, eq.symm⟩, fun either => either.elim (fun eq => eq.2.symm) nofun⟩
  · rw [if_neg same, if_neg same]
    exact ⟨.inr, fun either => either.resolve_left fun eq => same eq.1⟩

theorem perm_erase (d : Dict K V) {k : K} {v : V} (found : d.get? k = some v) :
    d.entries.Perm ((k, v) :: (d.erase k).entries) := by
  refine (entries_perm fun a => ?_).trans (d.perm_set k v)
  rw [get?_set]
  by_cases same : a = k
  · rw [if_pos same, same, found]
  · rw [if_neg same]

theorem erase_of_none (d : Dict K V) {k : K} (absent : d.get? k = none) :
    (d.erase k).entries = d.entries := by
  refine List.filter_eq_self.mpr fun e inside => decide_eq_true fun same => ?_
  have found := (d.mem_entries e.1 e.2).mp inside
  rw [same, absent] at found
  cases found

theorem length_pos (d : Dict K V) : 0 < d.length ↔ ∃ k v, d.get? k = some v := by
  rw [length, List.length_pos_iff_exists_mem]
  constructor
  · rintro ⟨⟨k, v⟩, m⟩
    exact ⟨k, v, (d.mem_entries k v).mp m⟩
  · rintro ⟨k, v, h⟩
    exact ⟨(k, v), (d.mem_entries k v).mpr h⟩

@[simp] theorem update_nil (d : Dict K V) : d.update [] = d := rfl

theorem update_append (d : Dict K V) (xs ys : List (K × V)) :
    d.update (xs ++ ys) = (d.update xs).update ys := List.foldl_append

theorem update_concat (d : Dict K V) (xs : List (K × V)) (e : K × V) :
    d.update (xs ++ [e]) = (d.update xs).set e.1 e.2 := by rw [update_append]; rfl

/-- The last write to a key decides its value. -/
theorem get?_update (d : Dict K V) (es : List (K × V)) (a : K) :
    (d.update es).get? a = (es.reverse.lookup a).or (d.get? a) := by
  induction es using List.reverseRecOn with
  | nil => rfl
  | append_singleton es e ih =>
      rw [update_concat, get?_set, List.reverse_append, List.reverse_singleton, List.singleton_append,
        lookup_cons_ite]
      by_cases h : a = e.1
      · rw [if_pos h, if_pos h, Option.some_or]
      · rw [if_neg h, if_neg h, ih]

theorem keys_update (d : Dict K V) (es : List (K × V)) (a : K) :
    a ∈ (d.update es).keys ↔ a ∈ d.keys ∨ a ∈ es.map Prod.fst := by
  induction es using List.reverseRecOn with
  | nil => simp
  | append_singleton es e ih =>
      rw [update_concat, keys_set, ih]
      simp only [List.map_append, List.map_cons, List.map_nil, List.mem_append, List.mem_singleton]
      tauto

theorem length_update_le (d : Dict K V) (es : List (K × V)) : (d.update es).length ≤ d.length + es.length := by
  induction es using List.reverseRecOn with
  | nil => exact Nat.le_refl _
  | append_singleton es e ih =>
      rw [update_concat, List.length_append, List.length_singleton, ← Nat.add_assoc]
      exact Nat.le_trans (length_set_le _ _ _) (Nat.succ_le_succ ih)

/-- A dictionary over which another one is written. -/
theorem get?_update_entries (d d' : Dict K V) (a : K) : (d.update d'.entries).get? a = (d'.get? a).or (d.get? a) := by
  have once : d'.entries.reverse.lookup a = d'.get? a := by
    have nodup : (d'.entries.reverse.map Prod.fst).Nodup := by
      rw [List.map_reverse]
      exact List.nodup_reverse.mpr d'.nodup
    refine Option.ext fun v => ?_
    rw [lookup_eq_some _ nodup, List.mem_reverse]
    exact mem_entries d' a v
  rw [get?_update, once]

/-- A dictionary over which the graph of a function is written. -/
theorem get?_update_graph (d : Dict K V) (ks : List K) (f : K → V) (a : K) :
    (d.update (ks.map fun k => (k, f k))).get? a = if a ∈ ks then some (f a) else d.get? a := by
  induction ks generalizing d with
  | nil => rw [if_neg List.not_mem_nil]; rfl
  | cons k ks ih =>
      have step : d.update ((k :: ks).map fun k => (k, f k)) = (d.set k (f k)).update (ks.map fun k => (k, f k)) := rfl
      rw [step, ih, get?_set]
      by_cases later : a ∈ ks
      · rw [if_pos later, if_pos (List.mem_cons_of_mem _ later)]
      · rw [if_neg later]
        by_cases same : a = k
        · rw [if_pos same, if_pos (List.mem_cons.mpr (.inl same)), same]
        · rw [if_neg same, if_neg fun m => (List.mem_cons.mp m).elim same later]

theorem eq_empty {d : Dict K V} (none : d.entries = []) : d = .empty := by
  obtain ⟨entries, distinct⟩ := d
  cases none
  rfl

/-- Mapping the values before or after the construction is the same. -/
theorem get?_ofList_values (es : List (K × V)) (f : V → W) (a : K) :
    (ofList (es.map fun e => (e.1, f e.2))).get? a = ((ofList es).get? a).map f := by
  simp only [ofList, get?_update, get?_empty, Option.or_none, ← List.map_reverse]
  induction es.reverse with
  | nil => rfl
  | cons e es ih =>
      rw [List.map_cons, lookup_cons_ite, lookup_cons_ite, ih]
      split <;> rfl

theorem get?_ofList_map (d : Dict K V) (f : V → W) (a : K) :
    (ofList (d.entries.map fun e => (e.1, f e.2))).get? a = (d.get? a).map f := by
  rw [ofList, get?_update, get?_empty, Option.or_none]
  cases found : d.get? a with
  | none =>
      rw [Option.map_none, lookup_eq_none]
      rw [get?_eq_none] at found
      rw [List.map_reverse, List.mem_reverse, List.map_map]
      exact found
  | some v =>
      rw [Option.map_some, lookup_eq_some]
      · rw [List.mem_reverse, List.mem_map]
        exact ⟨(a, v), (mem_entries d a v).mpr found, rfl⟩
      · simpa only [List.map_reverse, List.nodup_reverse, List.map_map, Function.comp_def] using d.nodup

end Dict
end Container

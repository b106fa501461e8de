import I3xServer.Container.Dict

/-!
# Buckets

A dictionary of lists that grows by appending to the list of a key, and the
dictionaries that apply a function to every value of another.
-/
namespace Container
variable {K V W : Type} [DecidableEq K]

namespace Dict

/-- The list under a key; empty if there is none. -/
def bucket (d : Dict K (List V)) (k : K) : List V := (d.get? k).getD []

def push (d : Dict K (List V)) (k : K) (v : V) : Dict K (List V) := d.set k (d.bucket k ++ [v])

def pushAll (d : Dict K (List V)) (es : List (K × V)) : Dict K (List V) :=
  es.foldl (fun d e => d.push e.1 e.2) d

def mapValues (d : Dict K V) (f : K → V → W) : Dict K W where
  entries := d.entries.map fun e => (e.1, f e.1 e.2)
  nodup := by simpa only [List.map_map, Function.comp_def] using d.nodup

def filterMapValues (d : Dict K V) (f : K → V → Option W) : Dict K W where
  entries := d.entries.filterMap fun e => (f e.1 e.2).map fun w => (e.1, w)
  nodup := by
    refine d.nodup.sublist ?_
    induction d.entries with
    | nil => exact .slnil
    | cons e es ih =>
        cases value : f e.1 e.2 with
        | none =>
            rw [List.filterMap_cons_none (by rw [value]; rfl), List.map_cons]
            exact .cons _ ih
        | some w =>
            rw [List.filterMap_cons_some (by rw [value]; rfl), List.map_cons, List.map_cons]
            exact .cons_cons _ ih

theorem bucket_eq {d : Dict K (List V)} {k : K} {vs : List V} (h : d.get? k = some vs) : d.bucket k = vs := by
  rw [bucket, h]
  rfl

theorem bucket_push (d : Dict K (List V)) (k a : K) (v : V) :
    (d.push k v).bucket a = if a = k then d.bucket k ++ [v] else d.bucket a := by
  rw [bucket, push, get?_set]
  by_cases h : a = k
  · rw [if_pos h, if_pos h]
    rfl
  · rw [if_neg h, if_neg h]
    rfl

theorem bucket_pushAll (d : Dict K (List V)) (es : List (K × V)) (k : K) :
    (d.pushAll es).bucket k = d.bucket k ++ (es.filter fun e => e.1 = k).map Prod.snd := by
  induction es generalizing d with
  | nil => simp [pushAll]
  | cons e es ih =>
      have step : (d.pushAll (e :: es)) = (d.push e.1 e.2).pushAll es := rfl
      rw [step, ih, bucket_push]
      by_cases h : k = e.1
      · subst h
        rw [if_pos rfl, List.filter_cons_of_pos (by simp), List.map_cons, List.append_assoc,
          List.singleton_append]
      · rw [if_neg h, List.filter_cons_of_neg (by simpa using fun same => h same.symm)]

theorem mem_bucket_pushAll (d : Dict K (List V)) (es : List (K × V)) (k : K) (v : V) :
    v ∈ (d.pushAll es).bucket k ↔ v ∈ d.bucket k ∨ (k, v) ∈ es := by
  rw [bucket_pushAll, List.mem_append]
  refine or_congr Iff.rfl ⟨fun m => ?_, fun m => ?_⟩
  · obtain ⟨e, inside, rfl⟩ := List.mem_map.mp m
    obtain ⟨inside, same⟩ := List.mem_filter.mp inside
    rw [decide_eq_true_eq] at same
    rw [← same]
    exact inside
  · exact List.mem_map.mpr ⟨_, List.mem_filter.mpr ⟨m, by simp⟩, rfl⟩

theorem keys_pushAll (d : Dict K (List V)) (es : List (K × V)) (a : K) :
    a ∈ (d.pushAll es).keys ↔ a ∈ d.keys ∨ a ∈ es.map Prod.fst := by
  induction es generalizing d with
  | nil => simp [pushAll]
  | cons e es ih =>
      have step : (d.pushAll (e :: es)) = (d.push e.1 e.2).pushAll es := rfl
      rw [step, ih, push, keys_set, List.map_cons, List.mem_cons]
      tauto

theorem get?_of_bucket {d : Dict K (List V)} {k : K} (h : k ∈ d.keys) : d.get? k = some (d.bucket k) := by
  obtain ⟨vs, found⟩ := (d.mem_keys k).mp h
  rw [bucket_eq found, found]

theorem bucket_of_not_mem {d : Dict K (List V)} {k : K} (h : k ∉ d.keys) : d.bucket k = [] := by
  rw [bucket, (d.get?_eq_none k).mpr h]
  rfl

/-- Membership in a bucket, read off the entries. -/
theorem mem_bucket_iff (d : Dict K (List V)) (k : K) (v : V) :
    v ∈ d.bucket k ↔ ∃ vs, (k, vs) ∈ d.entries ∧ v ∈ vs := by
  simp only [mem_entries, bucket]
  cases found : d.get? k with
  | none => simp
  | some vs => simp

theorem keys_mapValues (d : Dict K V) (f : K → V → W) : (d.mapValues f).keys = d.keys := by
  simp only [keys, mapValues, List.map_map, Function.comp_def]

theorem get?_mapValues (d : Dict K V) (f : K → V → W) (a : K) :
    (d.mapValues f).get? a = (d.get? a).map (f a) := by
  cases found : d.get? a with
  | none => rw [Option.map_none, get?_eq_none, keys_mapValues, ← get?_eq_none, found]
  | some v =>
      rw [Option.map_some, ← mem_entries]
      exact List.mem_map.mpr ⟨(a, v), (d.mem_entries a v).mpr found, rfl⟩

theorem bucket_mapValues (d : Dict K (List V)) (f : V → W) (k : K) :
    (d.mapValues fun _ vs => vs.map f).bucket k = (d.bucket k).map f := by
  rw [bucket, bucket, get?_mapValues]
  cases d.get? k <;> rfl

theorem setEntries_map (f : V → W) (k : K) (v : V) (es : List (K × V)) :
    (setEntries k v es).map (fun e => (e.1, f e.2)) = setEntries k (f v) (es.map fun e => (e.1, f e.2)) := by
  induction es with
  | nil => rfl
  | cons e es ih =>
      rw [setEntries, List.map_cons, setEntries]
      split
      · rfl
      · rw [List.map_cons, ih]

theorem ext_entries {d d' : Dict K V} (h : d.entries = d'.entries) : d = d' := by
  cases d
  cases d'
  cases h
  rfl

theorem mapValues_set (d : Dict K V) (f : V → W) (k : K) (v : V) :
    ((d.set k v).mapValues fun _ => f) = (d.mapValues fun _ => f).set k (f v) :=
  ext_entries (setEntries_map f k v d.entries)

theorem mapValues_update (d : Dict K V) (f : V → W) (es : List (K × V)) :
    ((d.update es).mapValues fun _ => f) = (d.mapValues fun _ => f).update (es.map fun e => (e.1, f e.2)) := by
  induction es generalizing d with
  | nil => rfl
  | cons e es ih => exact (ih (d.set e.1 e.2)).trans (by rw [mapValues_set]; rfl)

theorem mapValues_ofList (f : V → W) (es : List (K × V)) :
    ((ofList es).mapValues fun _ => f) = ofList (es.map fun e => (e.1, f e.2)) := mapValues_update empty f es

theorem get?_filterMapValues (d : Dict K V) (f : K → V → Option W) (a : K) :
    (d.filterMapValues f).get? a = (d.get? a).bind (f a) := by
  ext w
  rw [← mem_entries, Option.bind_eq_some_iff]
  constructor
  · intro m
    obtain ⟨e, inside, made⟩ := List.mem_filterMap.mp m
    obtain ⟨w', value, same⟩ := Option.map_eq_some_iff.mp made
    obtain ⟨rfl, rfl⟩ := Prod.mk.inj same
    exact ⟨e.2, (d.mem_entries _ _).mp inside, value⟩
  · rintro ⟨v, found, value⟩
    exact List.mem_filterMap.mpr ⟨(a, v), (d.mem_entries a v).mpr found, by rw [value]; rfl⟩

theorem bucket_of_entry {d : Dict K (List V)} {e : K × List V} (m : e ∈ d.entries) : d.bucket e.1 = e.2 :=
  bucket_eq ((d.mem_entries e.1 e.2).mp m)

theorem flatMap_entries_eq (d : Dict K (List V)) (f : K → List V → List W) :
    (d.entries.flatMap fun e => f e.1 e.2) = d.keys.flatMap fun k => f k (d.bucket k) := by
  rw [keys, List.flatMap_map]
  exact List.flatMap_congr fun e m => by rw [bucket_of_entry m]

/-- Reading the buckets of a dictionary under more keys than it has adds nothing. -/
theorem flatMap_entries_perm (d : Dict K (List V)) {ks : List K} (nodup : ks.Nodup) (all : ∀ k ∈ d.keys, k ∈ ks)
    (f : K → List V → List W) (blank : ∀ k, f k [] = []) :
    (d.entries.flatMap fun e => f e.1 e.2).Perm (ks.flatMap fun k => f k (d.bucket k)) := by
  have split : ks.Perm (d.keys ++ ks.filter (· ∉ d.keys)) := by
    refine (List.perm_ext_iff_of_nodup nodup ?_).mpr fun k => ?_
    · refine List.nodup_append'.mpr ⟨d.nodup, nodup.filter _, fun k inside outside => ?_⟩
      exact absurd inside (by simpa using (List.mem_filter.mp outside).2)
    · rw [List.mem_append, List.mem_filter, decide_eq_true_eq]
      exact ⟨fun m => (em (k ∈ d.keys)).imp_right fun absent => ⟨m, absent⟩, fun m => m.elim (all k) And.left⟩
  have nothing : ((ks.filter (· ∉ d.keys)).flatMap fun k => f k (d.bucket k)) = [] := by
    rw [List.flatMap_eq_nil_iff]
    intro k m
    have absent : k ∉ d.keys := by simpa using (List.mem_filter.mp m).2
    rw [bucket_of_not_mem absent, blank]
  refine List.Perm.trans ?_ (split.flatMap_right _).symm
  rw [List.flatMap_append, nothing, List.append_nil, flatMap_entries_eq]

/-- Reading one key of a dictionary entry by entry. -/
theorem flatMap_entries_key (d : Dict K (List V)) (k : K) (f : List V → List W) (blank : f [] = []) :
    (d.entries.flatMap fun e => if e.1 = k then f e.2 else []) = f (d.bucket k) := by
  obtain ⟨es, nodup⟩ := d
  change _ = f ((es.lookup k).getD [])
  dsimp only
  induction es with
  | nil => exact blank.symm
  | cons e es ih =>
      obtain ⟨head, tail⟩ := List.nodup_cons.mp nodup
      rw [List.flatMap_cons, lookup_cons_ite, ih tail]
      by_cases same : k = e.1
      · have gone : es.lookup k = none := (lookup_eq_none es k).mpr (same ▸ head)
        rw [if_pos same, if_pos same.symm, gone, Option.getD_none, blank, List.append_nil, Option.getD_some]
      · rw [if_neg same, if_neg fun eq => same eq.symm, List.nil_append]

/-- The same keys with the same lists, up to order and repetition. -/
def SameLists (d d' : Dict K (List V)) : Prop :=
  (∀ k, k ∈ d.keys ↔ k ∈ d'.keys) ∧ ∀ k v, v ∈ d.bucket k ↔ v ∈ d'.bucket k

theorem keys_pushAll_empty (es : List (K × V)) (k : K) :
    k ∈ ((empty : Dict K (List V)).pushAll es).keys ↔ ∃ v, v ∈ ((empty : Dict K (List V)).pushAll es).bucket k := by
  simp only [keys_pushAll, mem_bucket_pushAll, List.mem_map, Prod.exists]
  constructor
  · rintro (none | ⟨k, v, m, rfl⟩)
    · cases none
    · exact ⟨v, .inr m⟩
  · rintro ⟨v, none | m⟩
    · cases none
    · exact .inr ⟨k, v, m, rfl⟩

/-- Of the entries that some members of a list make, the last member's counts, where
members of one key all make an entry or none. -/
theorem get?_ofList_filterMap {A : Type} (key : A → K) (f : A → Option V) (xs : List A)
    (uniform : ∀ a ∈ xs, ∀ b ∈ xs, key a = key b → ((f a).isSome ↔ (f b).isSome)) (k : K) :
    (ofList (xs.filterMap fun a => (f a).map fun v => (key a, v))).get? k =
      ((ofList (xs.map fun a => (key a, a))).get? k).bind f := by
  induction xs using List.reverseRecOn with
  | nil => rfl
  | append_singleton xs last ih =>
      have before := ih fun a m b n => uniform a (List.mem_append_left _ m) b (List.mem_append_left _ n)
      rw [List.filterMap_append, List.map_append, ofList, ofList, update_append, update_append]
      change _ = (((ofList (xs.map fun a => (key a, a))).set (key last) last).get? k).bind f
      rw [get?_set]
      cases made : f last with
      | some v =>
          rw [List.filterMap_cons_some (by rw [made]; rfl)]
          change ((ofList (xs.filterMap fun a => (f a).map fun v => (key a, v))).set (key last) v).get? k = _
          rw [get?_set]
          by_cases here : k = key last
          · rw [if_pos here, if_pos here, Option.bind_some, made]
          · rw [if_neg here, if_neg here, before]
      | none =>
          rw [List.filterMap_cons_none (by rw [made]; rfl)]
          change (ofList (xs.filterMap fun a => (f a).map fun v => (key a, v))).get? k = _
          by_cases here : k = key last
          · rw [if_pos here, Option.bind_some, made, before, Option.bind_eq_none_iff]
            intro a found
            rw [ofList, get?_update, get?_empty, Option.or_none] at found
            have m := lookup_mem found
            simp only [List.mem_reverse, List.mem_map, Prod.mk.injEq] at m
            obtain ⟨_, inside, same, rfl⟩ := m
            have none := (uniform _ (List.mem_append_left _ inside) last (by simp) (same.trans here)).not
            rw [made] at none
            simpa using none
          · rw [if_neg here, before]

end Dict
end Container

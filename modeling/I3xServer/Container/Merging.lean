import I3xServer.Container.Dict

/-!
# Merging by fingerprint

Of the entries with one fingerprint the first is kept, and the names of the others become
aliases of its name.
-/
namespace Container
variable {K V F : Type} [DecidableEq K] [DecidableEq F]

structure Merging (K V F : Type) [DecidableEq K] [DecidableEq F] where
  aliasByName : Dict K K
  nameByFingerprint : Dict F K
  kept : Dict K V

namespace Merging

def empty : Merging K V F := ⟨.empty, .empty, .empty⟩

def add (fingerprint : V → F) (merging : Merging K V F) (entry : K × V) : Merging K V F :=
  match merging.nameByFingerprint.get? (fingerprint entry.2) with
  | none =>
      { aliasByName := merging.aliasByName.set entry.1 entry.1
        nameByFingerprint := merging.nameByFingerprint.set (fingerprint entry.2) entry.1
        kept := merging.kept.set entry.1 entry.2 }
  | some winner => { merging with aliasByName := merging.aliasByName.set entry.1 winner }

/-- What the entries are merged to: every name leads to a kept entry of its fingerprint,
and no two kept entries have one fingerprint. -/
structure Merged (fingerprint : V → F) (entries : List (K × V)) (merging : Merging K V F) : Prop where
  other : ∀ name, merging.aliasByName.get? name = none ↔ name ∉ entries.map Prod.fst
  led : ∀ entry ∈ entries, ∃ winner value, merging.aliasByName.get? entry.1 = some winner ∧
    merging.kept.get? winner = some value ∧ fingerprint value = fingerprint entry.2
  own : ∀ name value, merging.kept.get? name = some value →
    (name, value) ∈ entries ∧ merging.aliasByName.get? name = some name
  prints : ∀ print name, merging.nameByFingerprint.get? print = some name ↔
    ∃ value, merging.kept.get? name = some value ∧ fingerprint value = print

theorem merged_empty (fingerprint : V → F) : Merged fingerprint ([] : List (K × V)) empty where
  other _ := ⟨fun _ => List.not_mem_nil, fun _ => rfl⟩
  led _ m := by cases m
  own _ _ found := by cases found
  prints _ _ := ⟨nofun, fun ⟨_, found, _⟩ => by cases found⟩

theorem Merged.add {fingerprint : V → F} {entries : List (K × V)} {merging : Merging K V F}
    (merged : Merged fingerprint entries merging) {entry : K × V} (new : entry.1 ∉ entries.map Prod.fst) :
    Merged fingerprint (entries ++ [entry]) (merging.add fingerprint entry) := by
  have absent : merging.kept.get? entry.1 = none := by
    cases found : merging.kept.get? entry.1 with
    | none => rfl
    | some value => exact absurd (List.mem_map_of_mem (merged.own _ _ found).1) new
  have apart {name : K} {value : V} (found : merging.kept.get? name = some value) : name ≠ entry.1 := by
    rintro rfl
    rw [absent] at found
    cases found
  have names (name : K) : name ∉ (entries ++ [entry]).map Prod.fst ↔ name ≠ entry.1 ∧ name ∉ entries.map Prod.fst := by
    rw [List.map_append, List.mem_append, not_or, and_comm]
    simp
  have earlier {other : K × V} (m : other ∈ entries) : other.1 ≠ entry.1 := fun same =>
    new (same ▸ List.mem_map_of_mem m)
  unfold Merging.add
  cases first : merging.nameByFingerprint.get? (fingerprint entry.2) with
  | none =>
      refine ⟨fun name => ?_, fun other m => ?_, fun name value found => ?_, fun print name => ?_⟩
      · rw [names, Dict.get?_set, ← merged.other]
        split <;> simp [*]
      · rcases List.mem_append.mp m with m | m
        · obtain ⟨winner, value, leads, kept, same⟩ := merged.led other m
          refine ⟨winner, value, ?_, ?_, same⟩
          · rw [Dict.get?_set_ne _ _ (earlier m), leads]
          · rw [Dict.get?_set_ne _ _ (apart kept), kept]
        · obtain rfl := List.mem_singleton.mp m
          exact ⟨other.1, other.2, Dict.get?_set_self .., Dict.get?_set_self .., rfl⟩
      · dsimp only at found ⊢
        rw [Dict.get?_set] at found
        split at found
        · next same =>
            cases found
            subst same
            exact ⟨List.mem_append_right _ (List.mem_singleton_self _), Dict.get?_set_self ..⟩
        · next other =>
            obtain ⟨m, leads⟩ := merged.own name value found
            exact ⟨List.mem_append_left _ m, by rw [Dict.get?_set_ne _ _ other, leads]⟩
      · dsimp only
        rw [Dict.get?_set, Dict.get?_set]
        by_cases here : print = fingerprint entry.2
        · rw [if_pos here]
          constructor
          · intro same
            cases same
            exact ⟨entry.2, if_pos rfl, here.symm⟩
          · rintro ⟨value, found, print'⟩
            split at found
            · next same => rw [same]
            · have known := (merged.prints print name).mpr ⟨value, found, print'⟩
              rw [here, first] at known
              cases known
        · rw [if_neg here, merged.prints]
          by_cases own : name = entry.1
          · rw [if_pos own, own, absent]
            constructor
            · rintro ⟨value, found, -⟩
              cases found
            · rintro ⟨value, found, print'⟩
              cases found
              exact absurd print'.symm here
          · rw [if_neg own]
  | some winner =>
      obtain ⟨kept, found, same⟩ := (merged.prints _ _).mp first
      refine ⟨fun name => ?_, fun other m => ?_, fun name value found => ?_, merged.prints⟩
      · rw [names, Dict.get?_set, ← merged.other]
        split <;> simp [*]
      · rcases List.mem_append.mp m with m | m
        · obtain ⟨winner, value, leads, kept, same⟩ := merged.led other m
          exact ⟨winner, value, by rw [Dict.get?_set_ne _ _ (earlier m), leads], kept, same⟩
        · obtain rfl := List.mem_singleton.mp m
          exact ⟨winner, kept, Dict.get?_set_self .., found, same⟩
      · obtain ⟨m, leads⟩ := merged.own name value found
        exact ⟨List.mem_append_left _ m, by rw [Dict.get?_set_ne _ _ (apart found), leads]⟩

def merge (fingerprint : V → F) (entries : List (K × V)) : Merging K V F := entries.foldl (add fingerprint) empty

theorem merged_merge (fingerprint : V → F) {entries : List (K × V)} (nodup : (entries.map Prod.fst).Nodup) :
    Merged fingerprint entries (merge fingerprint entries) := by
  induction entries using List.reverseRecOn with
  | nil => exact merged_empty fingerprint
  | append_singleton entries entry ih =>
      rw [List.map_append] at nodup
      obtain ⟨before, -, apart⟩ := List.nodup_append.mp nodup
      rw [merge, List.foldl_append]
      exact (ih before).add fun m => apart _ m _ (List.mem_singleton_self _) rfl

end Merging
end Container

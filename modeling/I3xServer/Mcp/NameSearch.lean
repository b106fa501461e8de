import I3xServer.Mcp.ModelIndex

/-!
# Searching names

An element whose folded name contains a text is filed under every three letters of
that text. The search intersects what is filed under them and tests the candidates,
so it finds what a test of every element finds.
-/
namespace I3x.Mcp
open Container Mapper

/-- One text occurs in another. -/
def contains (text part : String) : Bool := decide (part.toList <:+: text.toList)

/-- The smallest set cut down to the others; a text without three letters files nothing. -/
def intersectBuckets (buckets : List (Finset String)) : Option (Finset String) :=
  match buckets.insertionSort fun a b => a.card ≤ b.card with
  | [] => none
  | first :: others => some (others.foldl (· ∩ ·) first)

namespace AccessModel
variable (server : Server) (model : AccessModel)

def nameCandidates (index : ModelAccessIndex) (text : String) : Finset String :=
  match intersectBuckets ((server.order.list (gramsOf text)).map index.nameGrams.members) with
  | some candidates => candidates
  | none => index.orderedIds.toFinset

/-- The ids of a name search, in order. -/
def nameMatches (index : ModelAccessIndex) (text : String) : List String :=
  model.sortedIds server ((nameCandidates server index (server.casefold text)).filter fun id =>
    contains (model.foldedName server id) (server.casefold text))

/-! ## What is filed -/

theorem mem_foldl_inter (others : List (Finset String)) (first : Finset String) (id : String) :
    id ∈ others.foldl (· ∩ ·) first ↔ id ∈ first ∧ ∀ bucket ∈ others, id ∈ bucket := by
  induction others generalizing first with
  | nil => simp
  | cons other others ih =>
      rw [List.foldl_cons, ih, Finset.mem_inter]
      simp only [List.mem_cons, forall_eq_or_imp, and_assoc]

theorem mem_intersectBuckets {buckets : List (Finset String)} {candidates : Finset String}
    (cut : intersectBuckets buckets = some candidates) (id : String) :
    id ∈ candidates ↔ ∀ bucket ∈ buckets, id ∈ bucket := by
  have same (bucket : Finset String) := List.mem_insertionSort (fun a b : Finset String => a.card ≤ b.card)
    (x := bucket) (l := buckets)
  unfold intersectBuckets at cut
  split at cut
  · cases cut
  · next first others eq =>
      rw [Option.some.injEq] at cut
      have both : (id ∈ first ∧ ∀ bucket ∈ others, id ∈ bucket) ↔ ∀ bucket ∈ first :: others, id ∈ bucket := by
        simp only [List.mem_cons, forall_eq_or_imp]
      rw [← cut, mem_foldl_inter, both, ← eq]
      exact forall_congr' fun bucket => by rw [same]

theorem mem_orderedIds (id : String) : id ∈ model.orderedIds server ↔ id ∈ model.nodesById.keys := by
  rw [orderedIds, mem_sortedIds, List.mem_toFinset]

/-- An element is filed under the letters of its name. -/
theorem mem_nameGrams (gram id : String) : id ∈ (model.nameGrams server).members gram ↔
    id ∈ model.nodesById.keys ∧ gram ∈ gramsOf (model.foldedName server id) := by
  rw [nameGrams, Dict.mem_members_addAll]
  simp only [List.mem_flatMap, List.mem_map, server.order.mem_list, mem_orderedIds]
  constructor
  · rintro (none | ⟨_, ⟨other, inside, _, filed, rfl⟩, rfl, m⟩)
    · cases none
    · cases Finset.mem_singleton.mp m
      exact ⟨inside, filed⟩
  · rintro ⟨inside, filed⟩
    exact .inr ⟨(gram, {id}), ⟨id, inside, gram, filed, rfl⟩, rfl, Finset.mem_singleton_self _⟩

theorem gramsOf_subset {text part : String} (inside : contains text part = true) : gramsOf part ⊆ gramsOf text := by
  intro gram m
  rw [gramsOf, List.mem_toFinset, List.mem_map] at m ⊢
  obtain ⟨window, n, rfl⟩ := m
  exact ⟨window, windows_subset (of_decide_eq_true inside) n, rfl⟩

/-- Every match is a candidate, and candidates are elements. -/
theorem mem_nameCandidates {index : ModelAccessIndex} (filed : index.nameGrams = model.nameGrams server)
    (ordered : index.orderedIds = model.orderedIds server) (text id : String) :
    (id ∈ nameCandidates server index text ∧ contains (model.foldedName server id) text = true) ↔
      id ∈ model.nodesById.keys ∧ contains (model.foldedName server id) text = true := by
  refine and_congr_left fun inside => ?_
  unfold nameCandidates
  cases cut : intersectBuckets ((server.order.list (gramsOf text)).map index.nameGrams.members) with
  | none =>
      dsimp only
      rw [List.mem_toFinset, ordered, mem_orderedIds]
  | some candidates =>
      dsimp only
      rw [mem_intersectBuckets cut, filed]
      simp only [List.forall_mem_map, server.order.mem_list, mem_nameGrams]
      constructor
      · intro all
        -- A cut needs a bucket: some three letters of the text.
        have some' : (server.order.list (gramsOf text)).map index.nameGrams.members ≠ [] := by
          intro none
          rw [none] at cut
          cases cut
        obtain ⟨gram, m⟩ := List.exists_mem_of_ne_nil _ fun none => some' (List.map_eq_nil_iff.mpr none)
        exact (all gram ((server.order.mem_list _ _).mp m)).1
      · intro m gram part
        exact ⟨m, gramsOf_subset inside part⟩

theorem mem_nameMatches {index : ModelAccessIndex} (filed : index.nameGrams = model.nameGrams server)
    (ordered : index.orderedIds = model.orderedIds server) (text id : String) :
    id ∈ model.nameMatches server index text ↔ id ∈ model.nodesById.keys ∧
      contains (model.foldedName server id) (server.casefold text) = true := by
  rw [nameMatches, mem_sortedIds, Finset.mem_filter, mem_nameCandidates server model filed ordered]

end AccessModel
end I3x.Mcp

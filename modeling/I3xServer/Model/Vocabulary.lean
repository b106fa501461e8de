import I3xServer.Model.Symmetry

/-!
# The relationship vocabulary

The relationship types that a client can list: four structural ones, and two for
every graph relationship id. A registered id that is the inverse of another one
is listed twice; the builder rejects repeated ids only among the registered ones.
-/
namespace I3x
open Container Mapper

/-- One item of the relationship type list. -/
structure RelationshipType where
  elementId : String
  displayName : String
  namespaceUri : String
  relationshipId : String
  reverseOf : String
  deriving DecidableEq, Repr

/-- The published model with what it says about its graph relationships. -/
structure VocabularyModel extends PublishedModel where
  graphRelationshipNamespaceById : Dict String String
  graphRelationshipDisplayNameById : Dict String String

namespace Browse
variable (browse : Browse)

def graphRelationshipNamespaceById : Dict String String :=
  Dict.ofList ((orderedNames browse.registered).map fun pair =>
    (graphRelationshipId browse.registered pair.1 pair.2, pair.2))

def graphRelationshipDisplayNameById : Dict String String :=
  Dict.ofList ((orderedNames browse.registered).map fun pair =>
    (graphRelationshipId browse.registered pair.1 pair.2, pair.1))

def publishedVocabulary : VocabularyModel where
  toPublishedModel := browse.published
  graphRelationshipNamespaceById := browse.graphRelationshipNamespaceById
  graphRelationshipDisplayNameById := browse.graphRelationshipDisplayNameById

/-- `ModelBuilder.build` up to the node id indexes, with the vocabulary. -/
def buildVocabulary : Except BuildError VocabularyModel :=
  match browse.refusal with
  | some error => .error error
  | none => .ok browse.publishedVocabulary

end Browse

def structuralType (relationship reverse : String) : RelationshipType where
  elementId := relationship
  displayName := relationship
  namespaceUri := i3xNamespace
  relationshipId := relationship
  reverseOf := reverse

def structuralTypes : List RelationshipType :=
  [structuralType "HasParent" "HasChildren", structuralType "HasChildren" "HasParent",
    structuralType "HasComponent" "ComponentOf", structuralType "ComponentOf" "HasComponent"]

/-- The two items of one graph relationship. -/
def graphTypes (relationship displayName namespaceUri : String) : List RelationshipType :=
  [{ elementId := relationship
     displayName
     namespaceUri
     relationshipId := relationship
     reverseOf := inverseRelationship relationship },
   { elementId := inverseRelationship relationship
     displayName := "inverseOf_" ++ displayName
     namespaceUri
     relationshipId := inverseRelationship relationship
     reverseOf := relationship }]

/-- The items of one registered name; absent where its namespace is not known. -/
def graphTypeItems (model : VocabularyModel) (name : String) : Option (List RelationshipType) :=
  if name ∈ structuralTypes.map RelationshipType.elementId then some []
  else (model.graphRelationshipNamespaceById.get? name).map fun namespaceUri =>
    graphTypes name ((model.graphRelationshipDisplayNameById.get? name).getD name) namespaceUri

/-- `_relationship_type_items`; absent where the source fails on a missing key. -/
def relationshipTypeItems (model : Option VocabularyModel) : Option (List RelationshipType) :=
  match model with
  | none => some structuralTypes
  | some model =>
      ((sorted model.graphRelationshipNames.toFinset).mapM (graphTypeItems model)).map fun items =>
        structuralTypes ++ items.flatten

/-- What a client relies on in the list of relationship types. -/
structure VocabularyModel.Unambiguous (model : VocabularyModel) (items : List RelationshipType) : Prop where
  distinct : (items.map RelationshipType.elementId).Nodup
  listed : ∀ item ∈ items, item.reverseOf ∈ items.map RelationshipType.elementId
  involutive : ∀ item ∈ items, ∀ other ∈ items, other.elementId = item.reverseOf → other.reverseOf = item.elementId
  closed : ∀ id byRelationship relationship, model.relationshipsById.get? id = some byRelationship →
    relationship ∈ byRelationship.keys → relationship ∈ items.map RelationshipType.elementId

/-! ## The listed ids -/

theorem mem_orderedNames (registered : List Registered) (pair : Registered) :
    pair ∈ orderedNames registered ↔ pair ∈ registered := by
  obtain ⟨name, namespaceUri⟩ := pair
  simp only [orderedNames, namespacesOf, List.mem_flatMap, List.mem_map, mem_sorted, List.mem_toFinset,
    List.mem_filter, decide_eq_true_eq, Prod.mk.injEq]
  constructor
  · rintro ⟨_, -, _, ⟨⟨_, other⟩, ⟨m, rfl⟩, rfl⟩, rfl, rfl⟩
    exact m
  · intro m
    exact ⟨name, ⟨_, m, rfl⟩, namespaceUri, ⟨_, ⟨m, rfl⟩, rfl⟩, rfl, rfl⟩

theorem mem_graphRelationshipIds (registered : List Registered) (id : String) :
    id ∈ graphRelationshipIds registered ↔
      ∃ pair ∈ registered, graphRelationshipId registered pair.1 pair.2 = id := by
  simp only [graphRelationshipIds, List.mem_map, mem_orderedNames]

theorem structuralTypes_ids : structuralTypes.map RelationshipType.elementId = structuralRelationships := rfl

/-- The items of several graph relationships. -/
def vocabulary (types : List (String × String × String)) : List RelationshipType :=
  structuralTypes ++ types.flatMap fun type => graphTypes type.1 type.2.1 type.2.2

theorem mem_graphTypes_ids (types : List (String × String × String)) (id : String) :
    id ∈ (types.flatMap fun type => graphTypes type.1 type.2.1 type.2.2).map RelationshipType.elementId ↔
      ∃ name ∈ types.map Prod.fst, id = name ∨ id = inverseRelationship name := by
  induction types with
  | nil => simp
  | cons type types ih =>
      rw [List.flatMap_cons, List.map_append, List.mem_append, ih, List.map_cons]
      simp [graphTypes]

theorem mem_vocabulary_ids (types : List (String × String × String)) (id : String) :
    id ∈ (vocabulary types).map RelationshipType.elementId ↔
      id ∈ structuralRelationships ∨ ∃ name ∈ types.map Prod.fst, id = name ∨ id = inverseRelationship name := by
  rw [vocabulary, List.map_append, List.mem_append, structuralTypes_ids, mem_graphTypes_ids]

theorem graphTypes_ids_perm (types : List (String × String × String)) :
    ((types.flatMap fun type => graphTypes type.1 type.2.1 type.2.2).map RelationshipType.elementId).Perm
      (types.map Prod.fst ++ (types.map Prod.fst).map inverseRelationship) := by
  induction types with
  | nil => exact List.Perm.nil
  | cons type types ih =>
      rw [List.flatMap_cons, List.map_append, List.map_cons, List.map_cons]
      change (type.1 :: inverseRelationship type.1 :: _).Perm _
      exact ((ih.cons _).trans List.perm_middle.symm).cons _

/-- Listed ids are distinct exactly if no registered id is the inverse of another. -/
theorem nodup_vocabulary_iff (types : List (String × String × String)) (nodup : (types.map Prod.fst).Nodup)
    (graph : ∀ name ∈ types.map Prod.fst, name ∉ structuralRelationships) :
    ((vocabulary types).map RelationshipType.elementId).Nodup ↔
      ∀ name ∈ types.map Prod.fst, inverseRelationship name ∉ types.map Prod.fst := by
  have inverses : ((types.map Prod.fst).map inverseRelationship).Nodup :=
    nodup.map fun _ _ => inverseRelationship_injective
  have clear : List.Disjoint structuralRelationships
      ((types.flatMap fun type => graphTypes type.1 type.2.1 type.2.2).map RelationshipType.elementId) := by
    intro id structural m
    obtain ⟨name, inside, rfl | rfl⟩ := (mem_graphTypes_ids types id).mp m
    · exact graph _ inside structural
    · exact inverseRelationship_not_structural name structural
  rw [vocabulary, List.map_append, structuralTypes_ids, List.nodup_append', (graphTypes_ids_perm types).nodup_iff,
    List.nodup_append']
  constructor
  · rintro ⟨-, ⟨-, -, apart⟩, -⟩ name m inverse
    exact apart inverse (List.mem_map.mpr ⟨name, m, rfl⟩)
  · intro free
    refine ⟨by decide, ⟨nodup, inverses, fun id m inverse => ?_⟩, clear⟩
    obtain ⟨name, inside, rfl⟩ := List.mem_map.mp inverse
    exact free name inside m

theorem mem_vocabulary (types : List (String × String × String)) (item : RelationshipType) :
    item ∈ vocabulary types ↔ item ∈ structuralTypes ∨
      ∃ type ∈ types, item ∈ graphTypes type.1 type.2.1 type.2.2 := by
  rw [vocabulary, List.mem_append, List.mem_flatMap]

/-- Every item is listed with its reverse. -/
theorem vocabulary_reverse {types : List (String × String × String)} {item : RelationshipType}
    (m : item ∈ vocabulary types) :
    ∃ other ∈ vocabulary types, other.elementId = item.reverseOf ∧ other.reverseOf = item.elementId := by
  simp only [mem_vocabulary] at m ⊢
  rcases m with structural | ⟨type, inside, graph⟩
  · simp only [structuralTypes, List.mem_cons, List.not_mem_nil, or_false] at structural
    rcases structural with rfl | rfl | rfl | rfl
    · exact ⟨structuralType "HasChildren" "HasParent", .inl (by decide), rfl, rfl⟩
    · exact ⟨structuralType "HasParent" "HasChildren", .inl (by decide), rfl, rfl⟩
    · exact ⟨structuralType "ComponentOf" "HasComponent", .inl (by decide), rfl, rfl⟩
    · exact ⟨structuralType "HasComponent" "ComponentOf", .inl (by decide), rfl, rfl⟩
  · simp only [graphTypes, List.mem_cons, List.not_mem_nil, or_false] at graph
    rcases graph with rfl | rfl
    · exact ⟨_, .inr ⟨type, inside, List.mem_cons_of_mem _ List.mem_cons_self⟩, rfl, rfl⟩
    · exact ⟨_, .inr ⟨type, inside, List.mem_cons_self⟩, rfl, rfl⟩

theorem eq_of_nodup_ids {items : List RelationshipType} (nodup : (items.map RelationshipType.elementId).Nodup)
    {item other : RelationshipType} (m : item ∈ items) (n : other ∈ items) (same : item.elementId = other.elementId) :
    item = other := List.inj_on_of_nodup_map nodup m n same

/-! ## The keys of the relationship map -/

/-- Every key of the relationship map was entered by an edge. -/
def KeysFrom (relationships : Relationships) (edges : List Edge) : Prop :=
  ∀ id byRelationship relationship, relationships.get? id = some byRelationship → relationship ∈ byRelationship.keys →
    ∃ edge ∈ edges, edge.relationship = relationship

theorem KeysFrom.append {relationships : Relationships} {edges : List Edge} (keys : KeysFrom relationships edges)
    (edge : Edge) : KeysFrom (appendRelationship relationships edge) (edges ++ [edge]) := by
  intro id byRelationship relationship found inside
  rw [appendRelationship, Dict.get?_set] at found
  by_cases here : id = edge.source
  · rw [if_pos here, Option.some.injEq] at found
    subst found
    rcases (Dict.keys_set _ _ _ _).mp inside with rfl | old
    · exact ⟨edge, by simp, rfl⟩
    · cases known : relationships.get? edge.source with
      | none =>
          rw [known] at old
          cases old
      | some before =>
          rw [known] at old
          obtain ⟨other, m, same⟩ := keys _ _ _ known old
          exact ⟨other, List.mem_append_left _ m, same⟩
  · rw [if_neg here] at found
    obtain ⟨other, m, same⟩ := keys _ _ _ found inside
    exact ⟨other, List.mem_append_left _ m, same⟩

theorem KeysFrom.foldl {relationships : Relationships} {done : List Edge} (keys : KeysFrom relationships done)
    (edges : List Edge) : KeysFrom (edges.foldl appendRelationship relationships) (done ++ edges) := by
  induction edges generalizing relationships done with
  | nil => simpa only [List.append_nil, List.foldl_nil] using keys
  | cons edge edges ih =>
      simpa only [List.append_assoc, List.singleton_append, List.foldl_cons] using ih (keys.append edge)

namespace Browse
variable (browse : Browse)

theorem noRelationships_keys : KeysFrom browse.noRelationships [] := by
  intro id byRelationship relationship found inside
  rw [noRelationships, Dict.ofList, Dict.get?_update, Dict.get?_empty, Option.or_none] at found
  have m := lookup_mem found
  simp only [List.mem_reverse, List.mem_map, Prod.mk.injEq] at m
  obtain ⟨_, _, _, rfl⟩ := m
  cases inside

theorem reference_registered {source relationship target : String}
    (reference : browse.GraphReference source relationship target) :
    relationship ∈ graphRelationshipIds browse.registered := by
  rw [mem_graphRelationshipIds]
  rcases (browse.graphReference_iff_refers _ _ _).mp reference with ⟨l, inside, -, -, -, id⟩ | ⟨candidate, lost, -, id⟩
  · exact ⟨_, List.mem_append_left _ (List.mem_map.mpr ⟨l, inside, rfl⟩), id⟩
  · exact ⟨_, List.mem_append_right _ (List.mem_map.mpr ⟨_, lost, rfl⟩), id⟩

/-- Every key of the map is a structural relationship, a registered one or the
inverse of a registered one. -/
theorem relationship_key {id relationship : String} {byRelationship : Dict String (List String)}
    (found : browse.relationshipsById.get? id = some byRelationship) (inside : relationship ∈ byRelationship.keys) :
    relationship ∈ structuralRelationships ∨
      ∃ name ∈ graphRelationshipIds browse.registered,
        relationship = name ∨ relationship = inverseRelationship name := by
  obtain ⟨edge, m, rfl⟩ := browse.noRelationships_keys.foldl browse.edges id byRelationship relationship found inside
  rw [List.nil_append, mem_edges, mem_structuralEdges, mem_structuralEdges, mem_graphEdges] at m
  rcases m with ⟨_, _, _, rfl | rfl⟩ | ⟨_, _, _, rfl | rfl⟩ | ⟨_, name, _, reference, eq⟩
  · exact .inl (by simp [structuralRelationships])
  · exact .inl (by simp [structuralRelationships])
  · exact .inl (by simp [structuralRelationships])
  · exact .inl (by simp [structuralRelationships])
  · refine .inr ⟨name, browse.reference_registered reference, ?_⟩
    exact eq.imp (congrArg Edge.relationship) (congrArg Edge.relationship)

/-! ## When the vocabulary is unambiguous -/

/-- The qualified id of one registered pair is never the inverse of that of
another: no namespace imitates the inverse of a namespace. -/
def InverseFree : Prop :=
  ∀ first ∈ browse.registered, ∀ second ∈ browse.registered,
    qualifies browse.registered first.1 → qualifies browse.registered second.1 →
      first.2 ++ ":" ++ first.1 ≠ inverseRelationship (second.2 ++ ":" ++ second.1)

end Browse

theorem plain_of_not_qualifies {registered : List Registered} {name : String} (plain : ¬ qualifies registered name) :
    ':' ∉ name.toList ∧ ∀ other, name ≠ inverseRelationship other := by
  simp only [qualifies, Bool.or_eq_true, decide_eq_true_eq, not_or] at plain
  refine ⟨plain.2, ?_⟩
  rintro other rfl
  refine plain.1.2 ?_
  rw [inverseRelationship, String.toList_append, List.isPrefixOf_iff_prefix]
  exact List.prefix_append _ _

theorem mem_inverse_iff (forward : String) (c : Char) (fresh : c ∉ "inverseOf_".toList) :
    c ∈ (inverseRelationship forward).toList ↔ c ∈ forward.toList := by
  rw [inverseRelationship, String.toList_append, List.mem_append]
  exact or_iff_right fresh

namespace Browse
variable (browse : Browse)

/-- Only qualified ids can be inverses of each other. -/
theorem inverseFree_iff :
    browse.InverseFree ↔ ∀ name ∈ graphRelationshipIds browse.registered,
      inverseRelationship name ∉ graphRelationshipIds browse.registered := by
  simp only [mem_graphRelationshipIds]
  constructor
  · rintro free _ ⟨second, inside, rfl⟩ ⟨first, m, same⟩
    by_cases qualified : qualifies browse.registered first.1
    · have colon := colon_of_qualified first.2 first.1
      have written : graphRelationshipId browse.registered first.1 first.2 = first.2 ++ ":" ++ first.1 := if_pos qualified
      rw [written] at same
      by_cases both : qualifies browse.registered second.1
      · have other : graphRelationshipId browse.registered second.1 second.2 = second.2 ++ ":" ++ second.1 := if_pos both
        exact free first m second inside qualified both (by rw [same, other])
      · have plain : graphRelationshipId browse.registered second.1 second.2 = second.1 := if_neg both
        rw [same, plain, mem_inverse_iff _ _ (by decide)] at colon
        exact (plain_of_not_qualifies both).1 colon
    · have plain : graphRelationshipId browse.registered first.1 first.2 = first.1 := if_neg qualified
      rw [plain] at same
      exact (plain_of_not_qualifies qualified).2 _ same
  · intro free first m second inside qualified both same
    refine free _ ⟨second, inside, rfl⟩ ⟨first, m, ?_⟩
    rw [graphRelationshipId, if_pos qualified, graphRelationshipId, if_pos both, same]

/-- No namespace of the type of a graph reference begins like an inverse id. -/
def PlainNamespaces : Prop :=
  ∀ l ∈ browse.graphLinks, ¬ "inverseOf_".toList <+: (browse.graphEntry l).namespaceUri.toList

/-- A qualified id begins with its namespace, so plain namespaces keep it apart from the inverse ids. -/
theorem PlainNamespaces.inverseFree {browse : Browse} (plain : browse.PlainNamespaces) : browse.InverseFree := by
  intro first m second _ _ _ same
  have plain' : ¬ "inverseOf_".toList <+: first.2.toList := by
    rcases List.mem_append.mp m with graph | lost
    · obtain ⟨l, inside, rfl⟩ := List.mem_map.mp graph
      exact plain l inside
    · obtain ⟨_, -, rfl⟩ := List.mem_map.mp lost
      decide
  have whole := congrArg String.toList same
  rw [inverseRelationship, String.toList_append, String.toList_append, String.toList_append] at whole
  have inverse : "inverseOf_".toList <+: first.2.toList ++ [':'] ++ first.1.toList := whole ▸ List.prefix_append _ _
  rcases List.prefix_or_prefix_of_prefix inverse (List.prefix_append _ _) with short | long
  · rcases List.prefix_concat_iff.mp short with equal | inside
    · have colon : ':' ∈ "inverseOf_".toList := by
        rw [equal]
        exact List.mem_append_right _ List.mem_cons_self
      exact absurd colon (by decide)
    · exact plain' inside
  · exact absurd (long.subset (List.mem_append_right _ List.mem_cons_self)) (by decide)

theorem refers_registered {source relationship target : String} (refers : browse.Refers source relationship target) :
    relationship ∈ graphRelationshipIds browse.registered :=
  browse.reference_registered ((browse.graphReference_iff_refers _ _ _).mpr refers)

/-- Where no id is the inverse of another, nothing has to agree. -/
theorem InverseFree.inversesAgree {browse : Browse} (free : browse.InverseFree) : browse.InversesAgree := by
  have apart := browse.inverseFree_iff.mp free
  intro relationship m first second
  constructor
  · rintro forward rfl reference
    exact absurd m (apart forward (browse.refers_registered reference))
  · intro back
    exact absurd (browse.refers_registered back) (apart relationship m)

/-- The inverse ids agree wherever the namespaces are plain. -/
theorem PlainNamespaces.inversesAgree {browse : Browse} (plain : browse.PlainNamespaces) : browse.InversesAgree :=
  plain.inverseFree.inversesAgree

/-- The graph relationships of the model with their display names and namespaces. -/
def graphRelationshipTypes : List (String × String × String) :=
  (sorted (graphRelationshipIds browse.registered).toFinset).map fun name =>
    (name, (browse.graphRelationshipDisplayNameById.get? name).getD name,
      (browse.graphRelationshipNamespaceById.get? name).getD "")

theorem graphRelationshipTypes_names :
    browse.graphRelationshipTypes.map Prod.fst = sorted (graphRelationshipIds browse.registered).toFinset := by
  rw [graphRelationshipTypes, List.map_map]
  exact List.map_id _

theorem mem_graphRelationshipTypes_names (name : String) :
    name ∈ browse.graphRelationshipTypes.map Prod.fst ↔ name ∈ graphRelationshipIds browse.registered := by
  rw [graphRelationshipTypes_names, mem_sorted, List.mem_toFinset]

theorem graphRelationship_namespace {name : String} (m : name ∈ graphRelationshipIds browse.registered) :
    ∃ namespaceUri, browse.graphRelationshipNamespaceById.get? name = some namespaceUri := by
  have key : name ∈ browse.graphRelationshipNamespaceById.keys := by
    rw [graphRelationshipNamespaceById, Dict.ofList, Dict.keys_update, List.map_map]
    exact .inr m
  exact (Dict.mem_keys _ _).mp key

end Browse

theorem mapM_some {A B : Type} {f : A → Option B} {g : A → B} {xs : List A} (all : ∀ a ∈ xs, f a = some (g a)) :
    xs.mapM f = some (xs.map g) := by
  induction xs with
  | nil => rfl
  | cons x xs ih =>
      rw [List.mapM_cons, all x List.mem_cons_self, ih fun a m => all a (List.mem_cons_of_mem _ m)]
      rfl

namespace Browse
variable (browse : Browse)

theorem buildVocabulary_ok {model : VocabularyModel} (built : browse.buildVocabulary = .ok model) :
    browse.refusal = none ∧ model = browse.publishedVocabulary := by
  unfold buildVocabulary at built
  split at built
  · cases built
  · rename_i accepted
    cases built
    exact ⟨accepted, rfl⟩

theorem buildVocabulary_accepted (accepted : browse.refusal = none) :
    browse.buildVocabulary = .ok browse.publishedVocabulary := by
  rw [buildVocabulary, accepted]

/-- A built model lists its relationship types without fail. -/
theorem relationshipTypeItems_eq :
    relationshipTypeItems (some browse.publishedVocabulary) = some (vocabulary browse.graphRelationshipTypes) := by
  have each : ∀ name ∈ sorted (graphRelationshipIds browse.registered).toFinset,
      graphTypeItems browse.publishedVocabulary name =
        some (graphTypes name ((browse.graphRelationshipDisplayNameById.get? name).getD name)
          ((browse.graphRelationshipNamespaceById.get? name).getD "")) := by
    intro name m
    rw [mem_sorted, List.mem_toFinset] at m
    obtain ⟨namespaceUri, found⟩ := browse.graphRelationship_namespace m
    have graph : name ∉ structuralTypes.map RelationshipType.elementId :=
      browse.graphRelationshipIds_not_structural m
    simp only [graphTypeItems, if_neg graph, publishedVocabulary, found, Option.map_some, Option.getD_some]
  have names : browse.publishedVocabulary.graphRelationshipNames = graphRelationshipIds browse.registered := rfl
  simp only [relationshipTypeItems, names, mapM_some each, Option.map_some, vocabulary, graphRelationshipTypes,
    List.flatMap_def, List.map_map, Function.comp_def]

/-- **The relationship types of a built model are listed without ambiguity
exactly if no qualified id is the inverse of another.** -/
theorem vocabulary_unambiguous_iff {model : VocabularyModel} (built : browse.buildVocabulary = .ok model) :
    (∃ items, relationshipTypeItems (some model) = some items ∧ model.Unambiguous items) ↔ browse.InverseFree := by
  obtain ⟨-, rfl⟩ := browse.buildVocabulary_ok built
  have names := browse.mem_graphRelationshipTypes_names
  have unambiguous_iff := nodup_vocabulary_iff browse.graphRelationshipTypes
    (by rw [graphRelationshipTypes_names]; exact nodup_sorted _)
    fun name m => browse.graphRelationshipIds_not_structural ((names name).mp m)
  simp only [names] at unambiguous_iff
  rw [relationshipTypeItems_eq, inverseFree_iff, ← unambiguous_iff]
  constructor
  · rintro ⟨items, eq, unambiguous⟩
    rw [Option.some.inj eq]
    exact unambiguous.distinct
  · intro distinct
    refine ⟨_, rfl, distinct, fun item m => ?_, fun item m other n same => ?_, fun id byRelationship key found m => ?_⟩
    · obtain ⟨other, inside, id, -⟩ := vocabulary_reverse m
      exact List.mem_map.mpr ⟨other, inside, id⟩
    · obtain ⟨reverse, inside, id, back⟩ := vocabulary_reverse m
      rw [eq_of_nodup_ids distinct n inside (same.trans id.symm), back]
    · simp only [publishedVocabulary, published] at found
      simp only [mem_vocabulary_ids, names]
      exact browse.relationship_key found m

end Browse

theorem Browse.crossed_unambiguous_iff :
    (∃ items, relationshipTypeItems (some Plant.crossed.publishedVocabulary) = some items ∧
      Plant.crossed.publishedVocabulary.Unambiguous items) ↔ Plant.crossed.InverseFree :=
  Plant.crossed.vocabulary_unambiguous_iff (Plant.crossed.buildVocabulary_accepted Plant.crossed_accepted)

/-- **Of two namespaces of which one imitates the inverse of the other, one id is
listed twice.** -/
theorem Browse.crossed_ambiguous :
    Plant.crossed.buildVocabulary = .ok Plant.crossed.publishedVocabulary ∧
      ¬ ∃ items, relationshipTypeItems (some Plant.crossed.publishedVocabulary) = some items ∧
        Plant.crossed.publishedVocabulary.Unambiguous items := by
  refine ⟨Plant.crossed.buildVocabulary_accepted Plant.crossed_accepted, ?_⟩
  rintro ⟨items, listed, unambiguous⟩
  have ids : (relationshipTypeItems (some Plant.crossed.publishedVocabulary)).map
      (List.map RelationshipType.elementId) =
      some ["HasParent", "HasChildren", "HasComponent", "ComponentOf", "inverseOf_urn:line:Feeds",
        "inverseOf_inverseOf_urn:line:Feeds", "urn:line:Feeds", "inverseOf_urn:line:Feeds"] := by
    decide
  have distinct := unambiguous.distinct
  rw [listed, Option.map_some, Option.some.injEq] at ids
  rw [ids] at distinct
  exact absurd distinct (by decide)

end I3x

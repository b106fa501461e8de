import I3xServer.Api.RelatedObjects

/-!
# Queries that share the model

The object value service answers queries for related objects from the model itself. The
list of the stored children of an element is extended in place, so what a query answers
and leaves behind depends on the queries before it.
-/
namespace I3x.Api
open Container

structure RelatedQuery where
  elementId : String
  relationshipType : Option String
  includeMetadata : Bool
  deriving DecidableEq, Repr

/-- The metadata that the builder gives to a node. -/
structure ExtendedAttributes where
  uaNodeId : String
  expandedNodeId : String
  uaTypeNodeId : Option String
  namespaceUri : Option String
  appliedProfileIds : List String
  description : Option String
  accessLevel : Option Nat
  userAccessLevel : Option Nat
  writable : Option Bool
  executable : Option Bool
  userExecutable : Option Bool
  deriving DecidableEq, Repr

structure TargetMetadata where
  sourceTypeId : Option String
  relationships : Dict String (List String)
  extendedAttributes : ExtendedAttributes

structure TargetObject where
  elementId : String
  displayName : String
  typeElementId : String
  parentId : Option String
  isComposition : Bool
  isExtended : Bool
  metadata : Option TargetMetadata

structure RelatedItem where
  sourceRelationship : String
  object : TargetObject

/-- The error for an element that the model does not have. -/
structure ObjectNotFound where
  statusCode : Nat
  code : String
  message : String
  elementId : String
  deriving DecidableEq, Repr

def objectNotFound (elementId : String) : ObjectNotFound := ⟨404, "NotFound", "Object not found: " ++ elementId, elementId⟩

def extendedAttributes (target : PublishedNode) : ExtendedAttributes where
  uaNodeId := target.uaNodeId
  expandedNodeId := target.expandedNodeId
  uaTypeNodeId := target.sourceTypeId
  namespaceUri := target.namespaceUri
  appliedProfileIds := target.appliedProfileIds
  description := target.description
  accessLevel := target.accessLevel
  userAccessLevel := target.userAccessLevel
  writable := target.writable
  executable := target.executable
  userExecutable := target.userExecutable

/-- `target.type or target.source_type_id or target.kind` -/
def typeElementIdOf (target : PublishedNode) : String :=
  if target.type.getD "" ≠ "" then target.type.getD ""
  else if target.sourceTypeId.getD "" ≠ "" then target.sourceTypeId.getD ""
  else target.kind.text

def targetObject (includeMetadata : Bool) (target : PublishedNode) : TargetObject where
  elementId := target.id
  displayName := target.name
  typeElementId := typeElementIdOf target
  parentId := target.parentId
  isComposition := target.isComposition
  isExtended := true
  metadata :=
    if includeMetadata then some ⟨target.sourceTypeId, target.relationships, extendedAttributes target⟩ else none

/-- The items for the targets of one relationship. -/
def addRelated (model : PublishedModel) (includeMetadata : Bool) (sourceRelationship : String) (targets : List String) :
    List RelatedItem :=
  targets.filterMap fun targetId =>
    (model.nodesById.get? targetId).map fun target => ⟨sourceRelationship, targetObject includeMetadata target⟩

/-- The relationship map of a query: the stored lists, of which the one of the children is
extended. -/
def relationshipMap (relationships : Dict String (List String)) (childIds : List String) : Dict String (List String) :=
  if childIds = [] then relationships
  else relationships.set "HasChildren" (relationships.bucket "HasChildren" ++ childIds)

/-- The map is a copy, but its lists are those of the model. A list that is stored for the
children is extended there too; a new one is not. -/
def extendStored (model : PublishedModel) (node : PublishedNode) (childIds : List String) : PublishedModel :=
  if childIds = [] ∨ node.relationships.get? "HasChildren" = none then model
  else
    let relationships := relationshipMap node.relationships childIds
    { model with
      nodesById := model.nodesById.set node.id { node with relationships }
      relationshipsById := model.relationshipsById.set node.id relationships }

def getRelatedObjects (model : PublishedModel) (query : RelatedQuery) :
    Except ObjectNotFound (List RelatedItem) × PublishedModel :=
  match model.nodesById.get? query.elementId with
  | none => (.error (objectNotFound query.elementId), model)
  | some node =>
      let childIds := model.childrenById.bucket node.id
      let after := extendStored model node childIds
      (.ok ((relationshipMap node.relationships childIds).entries.flatMap fun entry =>
        if query.relationshipType.any (entry.1 ≠ ·) then []
        else addRelated after query.includeMetadata entry.1 entry.2), after)

/-- The queries are answered one after the other by one model. -/
def answerAll : PublishedModel → List RelatedQuery → List (Except ObjectNotFound (List RelatedItem)) × PublishedModel
  | model, [] => ([], model)
  | model, query :: queries =>
      let answered := getRelatedObjects model query
      let rest := answerAll answered.2 queries
      (answered.1 :: rest.1, rest.2)

/-- Queries leave the model alone, answer as if each were the first, and list every target
once under a relationship. -/
structure ReadOnly (model : PublishedModel) (queries : List RelatedQuery) : Prop where
  unchanged : (answerAll model queries).2 = model
  fresh : (answerAll model queries).1 = queries.map fun query => (getRelatedObjects model query).1
  once : ∀ items, .ok items ∈ (answerAll model queries).1 →
    (items.map fun item => (item.sourceRelationship, item.object.elementId)).Nodup

/-- If children are stored for the element, the tree has none for it; and if they are not,
the tree has each child once, unless the query leaves children out. -/
def HarmlessQuery (model : PublishedModel) (query : RelatedQuery) : Prop :=
  ∀ node, model.nodesById.get? query.elementId = some node →
    match node.relationships.get? "HasChildren" with
    | some _ => model.childrenById.bucket node.id = []
    | none => query.relationshipType.all (· = "HasChildren") = true → (model.childrenById.bucket node.id).Nodup

/-- What the queries rely on in a model: nodes are found by their own ids, stored lists
have no target twice, and children are nodes. -/
structure WellStored (model : PublishedModel) : Prop where
  keyed : ∀ id node, model.nodesById.get? id = some node → node.id = id
  stored : ∀ id node, model.nodesById.get? id = some node → ∀ name, (node.relationships.bucket name).Nodup
  children : ∀ id, ∀ child ∈ model.childrenById.bucket id, ∃ node, model.nodesById.get? child = some node

/-! ## Models that the builder publishes -/

theorem published_wellStored (browse : Browse) : WellStored browse.published := by
  have source {id : String} {node : PublishedNode} (found : browse.published.nodesById.get? id = some node) :
      ∃ source, browse.mappedId source = id ∧ node = browse.publishedNode source :=
    (browse.get?_nodesById found).imp fun _ given => given.2
  constructor
  · intro id node found
    obtain ⟨source, same, rfl⟩ := source found
    exact (browse.publishedNode_id source).trans same
  · intro id node found name
    obtain ⟨source, -, rfl⟩ := source found
    have own : (browse.publishedNode source).relationships =
        (browse.relationshipsById.get? (browse.mappedId source)).getD .empty := by dsimp only [Browse.publishedNode]
    rw [own]
    exact browse.nodup_relationships (browse.mappedId source) name
  · intro id child m
    have children : browse.published.childrenById.get? id = (browse.nodesById.get? id).map fun node => node.children :=
      Dict.get?_mapValues _ _ id
    rw [Dict.bucket, children] at m
    cases found : browse.nodesById.get? id with
    | none => rw [found] at m; cases m
    | some node =>
        rw [found] at m
        obtain ⟨source, -, rfl⟩ := source found
        obtain ⟨childSource, -, given⟩ := List.mem_filterMap.mp m
        obtain ⟨info, at_, rfl⟩ := Option.map_eq_some_iff.mp given
        rw [browse.bySourceNode_infos, Dict.get?_mapValues] at at_
        obtain ⟨other, there, rfl⟩ := Option.map_eq_some_iff.mp at_
        have inside : other ∈ browse.sources := (Dict.mem_values _ _).mpr ⟨_, there⟩
        exact (Dict.mem_keys _ _).mp ((browse.mem_keys_nodesById _).mpr ⟨other, inside, rfl⟩)

/-! ## One query -/

section
variable {model : PublishedModel} {query : RelatedQuery} {node : PublishedNode}

theorem getRelatedObjects_missing (missing : model.nodesById.get? query.elementId = none) :
    getRelatedObjects model query = (.error (objectNotFound query.elementId), model) := by
  rw [getRelatedObjects, missing]

theorem getRelatedObjects_after (found : model.nodesById.get? query.elementId = some node) :
    (getRelatedObjects model query).2 = extendStored model node (model.childrenById.bucket node.id) := by
  rw [getRelatedObjects, found]

/-- A query extends a list of the model. -/
def Extends (model : PublishedModel) (query : RelatedQuery) : Prop :=
  ∃ node, model.nodesById.get? query.elementId = some node ∧ node.relationships.get? "HasChildren" ≠ none ∧
    model.childrenById.bucket node.id ≠ []

/-- The items that a query lists, as relationships and targets. -/
def listedPairs (model : PublishedModel) (query : RelatedQuery) (node : PublishedNode) : List (String × String) :=
  (relationshipMap node.relationships (model.childrenById.bucket node.id)).entries.flatMap fun entry =>
    if query.relationshipType.any (entry.1 ≠ ·) then [] else
      (entry.2.filter fun target => (model.nodesById.get? target).isSome).map fun target => (entry.1, target)

theorem getRelatedObjects_unchanged (quiet : ¬ Extends model query) : (getRelatedObjects model query).2 = model := by
  cases found : model.nodesById.get? query.elementId with
  | none => rw [getRelatedObjects_missing found]
  | some node =>
      rw [getRelatedObjects_after found]
      refine if_pos (or_iff_not_imp_left.mpr fun children => ?_)
      by_contra stored
      exact quiet ⟨node, found, stored, children⟩

theorem addRelated_listed (keyed : ∀ id node, model.nodesById.get? id = some node → node.id = id) (includeMetadata : Bool)
    (name : String) (targets : List String) :
    (addRelated model includeMetadata name targets).map (fun item => (item.sourceRelationship, item.object.elementId)) =
      (targets.filter fun target => (model.nodesById.get? target).isSome).map fun target => (name, target) := by
  induction targets with
  | nil => rfl
  | cons target targets ih =>
      rw [addRelated, List.filterMap_cons, List.filter_cons]
      cases found : model.nodesById.get? target with
      | none => exact ih
      | some node =>
          rw [Option.map_some, Option.isSome_some, if_pos rfl]
          dsimp only
          rw [List.map_cons, List.map_cons]
          exact congrArg₂ _ (congrArg (Prod.mk name) (keyed target node found)) ih

theorem items_listed (wellStored : WellStored model) (quiet : ¬ Extends model query)
    (found : model.nodesById.get? query.elementId = some node) :
    ∃ items, (getRelatedObjects model query).1 = .ok items ∧
      items.map (fun item => (item.sourceRelationship, item.object.elementId)) = listedPairs model query node := by
  have same := getRelatedObjects_unchanged quiet
  rw [getRelatedObjects, found] at same ⊢
  refine ⟨_, rfl, ?_⟩
  dsimp only at same ⊢
  rw [same, List.map_flatMap, listedPairs]
  refine List.flatMap_congr fun entry m => ?_
  split
  · rfl
  · exact addRelated_listed wellStored.keyed _ _ _

theorem bucket_relationshipMap (relationships : Dict String (List String)) (childIds : List String) (name : String) :
    (relationshipMap relationships childIds).bucket name =
      relationships.bucket name ++ if name = "HasChildren" then childIds else [] := by
  rw [relationshipMap]
  by_cases none_ : childIds = []
  · rw [if_pos none_, none_, ite_self, List.append_nil]
  · rw [if_neg none_, Dict.bucket, Dict.get?_set]
    by_cases here : name = "HasChildren"
    · rw [if_pos here, if_pos here, here]
      rfl
    · rw [if_neg here, if_neg here, List.append_nil]
      rfl

theorem harmlessQuery_quiet (harmless : HarmlessQuery model query) : ¬ Extends model query := by
  rintro ⟨node, found, stored, children⟩
  have given := harmless node found
  obtain ⟨targets, some'⟩ := Option.ne_none_iff_exists'.mp stored
  rw [some'] at given
  exact children given

theorem wanted_iff {filter : Option String} {name : String} :
    ¬ filter.any (name ≠ ·) = true ↔ filter.all (· = name) = true := by
  cases filter with
  | none => exact iff_of_true Bool.false_ne_true rfl
  | some asked => rw [Option.any_some, Option.all_some, decide_eq_true_eq, decide_eq_true_eq, not_not, eq_comm]

/-- What a query lists is listed once, if the lists it takes have no target twice. -/
theorem listed_nodup (nodup : ∀ name, query.relationshipType.all (· = name) = true →
    ((relationshipMap node.relationships (model.childrenById.bucket node.id)).bucket name).Nodup) :
    (listedPairs model query node).Nodup := by
  rw [listedPairs, List.nodup_flatMap]
  constructor
  · intro entry m
    split
    · exact List.nodup_nil
    · next wanted =>
        have whole := nodup entry.1 (wanted_iff.mp wanted)
        rw [Dict.bucket_of_entry m] at whole
        exact (whole.filter _).map fun _ _ same => congrArg Prod.snd same
  · refine (List.pairwise_map.mp (relationshipMap node.relationships (model.childrenById.bucket node.id)).nodup).imp
      fun apart => ?_
    intro pair first second
    have key {entry : String × List String} (m : pair ∈ if query.relationshipType.any (entry.1 ≠ ·) then [] else
        (entry.2.filter fun target => (model.nodesById.get? target).isSome).map fun target => (entry.1, target)) :
        pair.1 = entry.1 := by
      split at m
      · cases m
      · obtain ⟨_, -, rfl⟩ := List.mem_map.mp m
        rfl
    exact apart ((key first).symm.trans (key second))

theorem nodup_listed (wellStored : WellStored model) (nodup : (listedPairs model query node).Nodup)
    (wanted : query.relationshipType.all (· = "HasChildren") = true)
    (new : node.relationships.get? "HasChildren" = none) : (model.childrenById.bucket node.id).Nodup := by
  by_cases none_ : model.childrenById.bucket node.id = []
  · rw [none_]
    exact List.nodup_nil
  have entry : ("HasChildren", model.childrenById.bucket node.id) ∈
      (relationshipMap node.relationships (model.childrenById.bucket node.id)).entries := by
    rw [Dict.mem_entries, relationshipMap, if_neg none_, Dict.get?_set_self, Dict.bucket, new]
    rfl
  have present : (model.childrenById.bucket node.id).filter (fun target => (model.nodesById.get? target).isSome) =
      model.childrenById.bucket node.id := List.filter_eq_self.mpr fun child m => by
    obtain ⟨_, found⟩ := wellStored.children node.id child m
    rw [found]
    rfl
  have part := List.sublist_flatten_of_mem (List.mem_map_of_mem (f := fun entry : String × List String =>
    if query.relationshipType.any (entry.1 ≠ ·) then [] else
      (entry.2.filter fun target => (model.nodesById.get? target).isSome).map fun target => (entry.1, target)) entry)
  rw [← List.flatMap_def] at part
  dsimp only at part
  rw [if_neg (wanted_iff.mpr wanted), present] at part
  exact List.Nodup.of_map _ (nodup.sublist part)

/-- A query that extends nothing lists every target once exactly if it is harmless. -/
theorem nodup_items_iff (wellStored : WellStored model) (quiet : ¬ Extends model query) :
    (∀ items, (getRelatedObjects model query).1 = .ok items →
      (items.map fun item => (item.sourceRelationship, item.object.elementId)).Nodup) ↔ HarmlessQuery model query := by
  constructor
  · intro once node found
    obtain ⟨items, answer, same⟩ := items_listed wellStored quiet found
    have nodup := once items answer
    rw [same] at nodup
    cases stored : node.relationships.get? "HasChildren" with
    | none => exact fun wanted => nodup_listed wellStored nodup wanted stored
    | some targets =>
        by_contra children
        exact quiet ⟨node, found, by rw [stored]; exact nofun, children⟩
  · intro harmless items answer
    cases found : model.nodesById.get? query.elementId with
    | none =>
        rw [getRelatedObjects_missing found] at answer
        cases answer
    | some node =>
        obtain ⟨items', answer', same⟩ := items_listed wellStored quiet found
        cases answer.symm.trans answer'
        rw [same]
        refine listed_nodup fun name wanted => ?_
        have given := harmless node found
        rw [bucket_relationshipMap]
        by_cases here : name = "HasChildren"
        · rw [if_pos here, here]
          rw [here] at wanted
          cases stored : node.relationships.get? "HasChildren" with
          | none =>
              rw [stored] at given
              rw [Dict.bucket, stored]
              exact given wanted
          | some targets =>
              rw [stored] at given
              dsimp only at given
              rw [given, List.append_nil]
              exact wellStored.stored _ node found _
        · rw [if_neg here, List.append_nil]
          exact wellStored.stored _ node found name

end

/-! ## All queries -/

/-- The list that a node stores for its children. -/
def storedChildren (node : PublishedNode) : List String := node.relationships.bucket "HasChildren"

/-- What queries do to a model: lists of children that are stored get longer. -/
structure Grown (model later : PublishedModel) : Prop where
  children : later.childrenById = model.childrenById
  keyed : ∀ id node, later.nodesById.get? id = some node → node.id = id
  longer : ∀ id node, model.nodesById.get? id = some node → ∃ node', later.nodesById.get? id = some node' ∧
    (node.relationships.get? "HasChildren" ≠ none → node'.relationships.get? "HasChildren" ≠ none) ∧
    (storedChildren node).length ≤ (storedChildren node').length

section
variable {model later last : PublishedModel} {query : RelatedQuery} {node : PublishedNode}

theorem Grown.refl (keyed : ∀ id node, model.nodesById.get? id = some node → node.id = id) : Grown model model :=
  ⟨rfl, keyed, fun _ node found => ⟨node, found, id, Nat.le_refl _⟩⟩

theorem Grown.trans (first : Grown model later) (second : Grown later last) : Grown model last := by
  refine ⟨second.children.trans first.children, second.keyed, fun id node found => ?_⟩
  obtain ⟨node', found', stored, longer⟩ := first.longer id node found
  obtain ⟨node'', found'', stored', longer'⟩ := second.longer id node' found'
  exact ⟨node'', found'', fun given => stored' (stored given), longer.trans longer'⟩

theorem storedChildren_extended (relationships : Dict String (List String)) (childIds : List String) :
    ((relationshipMap relationships childIds).bucket "HasChildren").length =
      (relationships.bucket "HasChildren").length + childIds.length := by
  rw [bucket_relationshipMap, if_pos rfl, List.length_append]

/-- The element of a query has its list extended by its children, if it has one. -/
theorem extendStored_get? (found : model.nodesById.get? node.id = some node)
    (stored : node.relationships.get? "HasChildren" ≠ none) (childIds : List String) :
    (extendStored model node childIds).nodesById.get? node.id =
      some { node with relationships := relationshipMap node.relationships childIds } := by
  rw [extendStored]
  by_cases none_ : childIds = []
  · rw [if_pos (.inl none_), found, relationshipMap, if_pos none_]
  · rw [if_neg (not_or_intro none_ stored)]
    exact Dict.get?_set_self _ _ _

theorem extendStored_grown (keyed : ∀ id node, model.nodesById.get? id = some node → node.id = id)
    (found : model.nodesById.get? node.id = some node) (childIds : List String) :
    Grown model (extendStored model node childIds) := by
  by_cases stored : node.relationships.get? "HasChildren" = none
  · rw [extendStored, if_pos (.inr stored)]
    exact .refl keyed
  have own := extendStored_get? found stored childIds
  have others {id : String} (apart : id ≠ node.id) :
      (extendStored model node childIds).nodesById.get? id = model.nodesById.get? id := by
    rw [extendStored]
    split
    · rfl
    · exact Dict.get?_set_ne _ _ apart
  have children : (extendStored model node childIds).childrenById = model.childrenById := by
    rw [extendStored]
    split
    · rfl
    · rfl
  refine ⟨children, fun id node' found' => ?_, fun id node' found' => ?_⟩
  · by_cases here : id = node.id
    · rw [here, own] at found'
      cases found'
      exact here.symm
    · rw [others here] at found'
      exact keyed id node' found'
  · by_cases here : id = node.id
    · cases (here ▸ found').symm.trans found
      refine ⟨_, here ▸ own, fun _ none_ => ?_, ?_⟩
      · have kept : (relationshipMap node.relationships childIds).get? "HasChildren" = none := none_
        rw [relationshipMap] at kept
        split at kept
        · exact stored kept
        · rw [Dict.get?_set_self] at kept
          cases kept
      · exact (Nat.le_add_right _ _).trans_eq (storedChildren_extended node.relationships childIds).symm
    · exact ⟨node', (others here).trans found', fun given => given, Nat.le_refl _⟩

/-- What one query does to the model. -/
theorem getRelatedObjects_grown (keyed : ∀ id node, model.nodesById.get? id = some node → node.id = id)
    (query : RelatedQuery) : Grown model (getRelatedObjects model query).2 := by
  cases found : model.nodesById.get? query.elementId with
  | none =>
      rw [getRelatedObjects_missing found]
      exact .refl keyed
  | some node =>
      rw [getRelatedObjects_after found]
      exact extendStored_grown keyed ((keyed _ node found).symm ▸ found) _

theorem answerAll_grown (keyed : ∀ id node, model.nodesById.get? id = some node → node.id = id)
    (queries : List RelatedQuery) : Grown model (answerAll model queries).2 := by
  induction queries generalizing model with
  | nil => exact .refl keyed
  | cons query queries ih =>
      have step := getRelatedObjects_grown keyed query
      exact step.trans (ih step.keyed)

/-- A query for an element with stored children and children in the tree shows in the end. -/
theorem answerAll_longer (keyed : ∀ id node, model.nodesById.get? id = some node → node.id = id) {id : String}
    (found : model.nodesById.get? id = some node) (stored : node.relationships.get? "HasChildren" ≠ none)
    (children : model.childrenById.bucket id ≠ []) {queries : List RelatedQuery}
    (asked : id ∈ queries.map RelatedQuery.elementId) :
    ∃ node', (answerAll model queries).2.nodesById.get? id = some node' ∧
      (storedChildren node).length < (storedChildren node').length := by
  induction queries generalizing model node with
  | nil => cases asked
  | cons query queries ih =>
      have step := getRelatedObjects_grown keyed query
      obtain ⟨node', found', stored', longer⟩ := step.longer id node found
      by_cases here : query.elementId = id
      · obtain ⟨node'', found'', -, longer'⟩ := (answerAll_grown step.keyed queries).longer id node' found'
        refine ⟨node'', found'', Nat.lt_of_lt_of_le ?_ longer'⟩
        have own := keyed id node found
        rw [getRelatedObjects_after (here.symm ▸ found)] at found'
        have extended := extendStored_get? (own.symm ▸ found) stored (model.childrenById.bucket node.id)
        rw [own] at extended found'
        cases found'.symm.trans extended
        have more := storedChildren_extended node.relationships (model.childrenById.bucket id)
        have some' := List.length_pos_iff.mpr children
        change (storedChildren node).length < ((relationshipMap node.relationships _).bucket "HasChildren").length
        rw [more]
        exact Nat.lt_add_of_pos_right some'
      · have rest : id ∈ queries.map RelatedQuery.elementId := (List.mem_cons.mp asked).resolve_left fun same => here same.symm
        obtain ⟨node'', found'', more⟩ := ih step.keyed found' (stored' stored) (step.children ▸ children) rest
        exact ⟨node'', found'', Nat.lt_of_le_of_lt longer more⟩

/-- Queries that extend nothing are answered by the model as it is. -/
theorem answerAll_quiet {queries : List RelatedQuery} (quiet : ∀ query ∈ queries, ¬ Extends model query) :
    answerAll model queries = (queries.map fun query => (getRelatedObjects model query).1, model) := by
  induction queries with
  | nil => rfl
  | cons query queries ih =>
      have same := getRelatedObjects_unchanged (quiet query List.mem_cons_self)
      have rest := ih fun other m => quiet other (List.mem_cons_of_mem query m)
      rw [answerAll, same, rest]
      rfl

theorem readOnly_iff (wellStored : WellStored model) (queries : List RelatedQuery) :
    ReadOnly model queries ↔ ∀ query ∈ queries, HarmlessQuery model query := by
  constructor
  · intro readOnly
    have quiet : ∀ query ∈ queries, ¬ Extends model query := by
      rintro query m ⟨node, found, stored, children⟩
      have own := wellStored.keyed _ node found
      obtain ⟨node', found', more⟩ := answerAll_longer wellStored.keyed found stored (own ▸ children)
        (List.mem_map_of_mem m)
      rw [readOnly.unchanged, found] at found'
      cases found'
      exact Nat.lt_irrefl _ more
    intro query m
    refine (nodup_items_iff wellStored (quiet query m)).mp fun items answer => readOnly.once items ?_
    rw [answerAll_quiet quiet]
    exact List.mem_map.mpr ⟨query, m, answer⟩
  · intro harmless
    have quiet : ∀ query ∈ queries, ¬ Extends model query := fun query m => harmlessQuery_quiet (harmless query m)
    have all := answerAll_quiet quiet
    refine ⟨by rw [all], by rw [all], fun items answered => ?_⟩
    rw [all] at answered
    obtain ⟨query, m, answer⟩ := List.mem_map.mp answered
    exact (nodup_items_iff wellStored (quiet query m)).mpr (harmless query m) items answer

end

/-- Queries only read the model that the builder published exactly if each of them is harmless. -/
theorem getRelatedObjects_readOnly_iff (browse : Browse) (queries : List RelatedQuery) :
    ReadOnly browse.published queries ↔ ∀ query ∈ queries, HarmlessQuery browse.published query :=
  readOnly_iff (published_wellStored browse) queries

/-- One object that organizes another one, below which it was browsed. -/
def folder : Browse :=
  Plant.browse [Plant.node "A" "Object" [Plant.organizes "B"],
    { Plant.node "B" "Object" [] with parentNodeId := some "ns=1;s=A" }]

/-- The child is listed twice. -/
theorem folder_not_readOnly : folder.buildModel = .ok folder.published ∧
    ¬ ReadOnly folder.published [⟨"asset-5b7e0a0f0c568c33", none, false⟩] := by
  refine ⟨rfl, fun readOnly => ?_⟩
  have once := readOnly.once _ List.mem_cons_self
  exact absurd once (by decide)

end I3x.Api

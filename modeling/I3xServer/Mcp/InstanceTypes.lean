import I3xServer.Container.Climbing
import I3xServer.Mcp.ModelIndex

/-!
# Instances of types

Assets and event sources are filed under the type that their own type ids, or the
model's index by type, resolve to, and then under every type above that one.
-/
namespace I3x.Mcp
open Container Mapper

namespace ObjectTypeContext
variable (server : Server) (context : ObjectTypeContext)

def aliases : Dict String String :=
  (((Dict.ofList (context.items.map fun item => (item.elementId, item.elementId))).update
    (context.items.map fun item => (item.sourceTypeId, item.elementId))).update
      context.elementIdsByNodeId.entries).update context.sourceTypeToElementId.entries

def lookupAlias (source : String) : Option String :=
  Api.either (context.aliases.get? source) (context.aliases.get? (server.unicode.lower source))

/-- `type_id`: the element id of a type under any of its names. -/
def typeId (source : String) : Option String :=
  match context.lookupAlias server source with
  | some resolved => some resolved
  | none => context.lookupAlias server (NodeIds.expandedNodeId server.unicode context.namespaceInfos source)

/-- The type and its supertype that a definition links, where both resolve. -/
def link (info : ObjectTypeInfo) : Option (String × String) :=
  match context.typeId server info.nodeId, info.parentNodeId with
  | some child, some parentId =>
      if parentId = "" then none else (context.typeId server parentId).map fun parent => (child, parent)
  | _, none => none
  | none, _ => none

def parents : Dict String String := .ofList (context.objectTypes.filterMap (context.link server))

def Supertype (type above : String) : Prop := (context.parents server).get? type = some above

/-- Types with items, none of them with instances. -/
def listed : Dict String (Finset String) := .ofList (context.items.map fun item => (item.elementId, ∅))

def file (direct : Dict String (Finset String)) (type : Option String) (ids : Finset String) :
    Dict String (Finset String) :=
  match type with
  | some resolved => if resolved ∈ direct.keys then direct.addTo resolved ids else direct
  | none => direct

end ObjectTypeContext

def typed (kind : NodeKind) : Bool := decide (kind = .asset ∨ kind = .eventSource)

def cyclicTypes : Failure := .http ⟨500, "Invalid Model", "Object type hierarchy contains a cycle"⟩

namespace AccessModel
variable (server : Server) (model : AccessModel) (context : ObjectTypeContext)

def isInstance (id : String) : Bool := ((model.nodesById.get? id).map fun node => typed node.kind).getD false

/-- The type that the type ids of a node resolve to. -/
def ownType (node : PublishedNode) : Option String :=
  Api.either (context.typeId server (node.sourceTypeId.getD "")) (context.typeId server (node.type.getD ""))

/-- What is filed: the index by type first, then every node under its own type. -/
def filings : List (Option String × Finset String) :=
  (model.instancesByTypeId.entries.map fun entry =>
    (context.typeId server entry.1, (entry.2.filter model.isInstance).toFinset)) ++
  ((model.nodesById.values.filter fun node => typed node.kind).map fun node => (ownType server context node, {node.id}))

def directInstances : Dict String (Finset String) :=
  (model.filings server context).foldl (fun direct filing => ObjectTypeContext.file direct filing.1 filing.2) context.listed

/-- Files the instances of each type under the types above it. -/
def expand (parents : Dict String String) : List (String × Finset String) → Dict String (Finset String) →
    Except Failure (Dict String (Finset String))
  | [], expanded => .ok expanded
  | (type, instances) :: rest, expanded =>
      match climb parents.get? (fun _ => false) (fun _ => false) (parents.length + 1) [type] (parents.get? type) with
      | .reached above => expand parents rest (expanded.addAll (above.map fun parent => (parent, instances)))
      | .broken => .error cyclicTypes
      | .exhausted => .error .exhausted

/-- `_type_indexes`, of the context with an identity. -/
def withTypes (index : ModelAccessIndex) (token : Nat) : Except Failure ModelAccessIndex :=
  if index.typeContextToken = some token then .ok index
  else
    let direct := model.directInstances server (server.contexts token)
    match expand ((server.contexts token).parents server) direct.entries direct with
    | .error failure => .error failure
    | .ok expanded =>
        .ok { index with
          directInstances := direct.mapValues fun _ => model.sortedIds server
          subtypeInstances := expanded.mapValues fun _ => model.sortedIds server
          typeContextToken := some token }

/-! ## Direct instances -/

/-- An asset or event source whose type is `type`: by its own type ids, or by the
model's index of instances. -/
structure InstanceOf (type id : String) : Prop where
  instance' : model.isInstance id = true
  resolves : (∃ node, model.nodesById.get? id = some node ∧ ownType server context node = some type) ∨
    ∃ source, id ∈ model.instancesByTypeId.bucket source ∧ context.typeId server source = some type

theorem keys_file (direct : Dict String (Finset String)) (type : Option String) (ids : Finset String) (a : String) :
    a ∈ (ObjectTypeContext.file direct type ids).keys ↔ a ∈ direct.keys := by
  unfold ObjectTypeContext.file
  cases type with
  | none => rfl
  | some resolved =>
      dsimp only
      split
      · next listed => rw [Dict.keys_addTo, or_iff_right_of_imp fun same => same ▸ listed]
      · rfl

theorem keys_filed (filings : List (Option String × Finset String)) (direct : Dict String (Finset String)) (a : String) :
    a ∈ (filings.foldl (fun direct filing => ObjectTypeContext.file direct filing.1 filing.2) direct).keys ↔
      a ∈ direct.keys := by
  induction filings generalizing direct with
  | nil => rfl
  | cons filing filings ih => rw [List.foldl_cons, ih, keys_file]

theorem mem_filed (filings : List (Option String × Finset String)) (direct : Dict String (Finset String)) {type : String}
    (listed : type ∈ direct.keys) (id : String) :
    id ∈ (filings.foldl (fun direct filing => ObjectTypeContext.file direct filing.1 filing.2) direct).members type ↔
      id ∈ direct.members type ∨ ∃ filing ∈ filings, filing.1 = some type ∧ id ∈ filing.2 := by
  induction filings generalizing direct with
  | nil => simp
  | cons filing filings ih =>
      rw [List.foldl_cons, ih _ ((keys_file _ _ _ _).mpr listed)]
      have step : id ∈ (ObjectTypeContext.file direct filing.1 filing.2).members type ↔
          id ∈ direct.members type ∨ (filing.1 = some type ∧ id ∈ filing.2) := by
        unfold ObjectTypeContext.file
        cases eq : filing.1 with
        | none => simp
        | some resolved =>
            dsimp only
            rw [Option.some.injEq]
            split
            · rw [Dict.mem_members_addTo, eq_comm]
            · next other => exact ⟨.inl, fun either => either.elim (fun m => m) fun both => absurd (both.1 ▸ listed) other⟩
      rw [step]
      simp only [List.mem_cons, exists_eq_or_imp]
      exact or_assoc

theorem mem_listed (type : String) : type ∈ context.listed.keys ↔ ∃ item ∈ context.items, item.elementId = type := by
  rw [ObjectTypeContext.listed, Dict.ofList, Dict.keys_update]
  simp [Dict.keys, Dict.empty]

theorem members_listed (type : String) : context.listed.members type = ∅ := by
  rw [Dict.members, ObjectTypeContext.listed, Dict.ofList, Dict.get?_update, Dict.get?_empty, Option.or_none]
  cases found : (context.items.map fun item => (item.elementId, (∅ : Finset String))).reverse.lookup type with
  | none => rfl
  | some ids =>
      have m := lookup_mem found
      simp only [List.mem_reverse, List.mem_map, Prod.mk.injEq] at m
      obtain ⟨_, _, _, rfl⟩ := m
      rfl

theorem keys_directInstances (type : String) :
    type ∈ (model.directInstances server context).keys ↔ ∃ item ∈ context.items, item.elementId = type := by
  rw [directInstances, keys_filed, mem_listed]

/-- The direct instances of a listed type are its instances. -/
theorem mem_directInstances {type : String} (listed : ∃ item ∈ context.items, item.elementId = type) (id : String) :
    id ∈ (model.directInstances server context).members type ↔ model.InstanceOf server context type id := by
  rw [directInstances, mem_filed _ _ ((mem_listed context type).mpr listed), members_listed, filings]
  simp only [Finset.notMem_empty, false_or, List.mem_append, List.mem_map, List.mem_filter]
  constructor
  · rintro ⟨_, ⟨entry, m, rfl⟩ | ⟨node, ⟨m, kind⟩, rfl⟩, resolves, inside⟩
    · obtain ⟨within, instance'⟩ := List.mem_filter.mp (List.mem_toFinset.mp inside)
      exact ⟨instance', .inr ⟨entry.1, (Dict.mem_bucket_iff _ _ _).mpr ⟨entry.2, m, within⟩, resolves⟩⟩
    · cases Finset.mem_singleton.mp inside
      obtain ⟨key, found⟩ := (Dict.mem_values _ _).mp m
      have here : model.nodesById.get? node.id = some node := model.keyed key node found ▸ found
      refine ⟨?_, .inl ⟨node, here, resolves⟩⟩
      rw [isInstance, here]
      exact kind
  · rintro ⟨instance', ⟨node, found, resolves⟩ | ⟨source, inside, resolves⟩⟩
    · rw [isInstance, found] at instance'
      refine ⟨_, .inr ⟨node, ⟨(Dict.mem_values _ _).mpr ⟨id, found⟩, instance'⟩, rfl⟩, resolves, ?_⟩
      exact Finset.mem_singleton.mpr (model.keyed id node found).symm
    · obtain ⟨ids, m, within⟩ := (Dict.mem_bucket_iff _ _ _).mp inside
      refine ⟨_, .inl ⟨(source, ids), m, rfl⟩, resolves, ?_⟩
      exact List.mem_toFinset.mpr (List.mem_filter.mpr ⟨within, instance'⟩)

/-! ## Instances of subtypes -/

theorem parents_closed (parents : Dict String String) (a p : String) (up : parents.get? a = some p) :
    p ∈ parents.values.toFinset ∨ (fun _ : String => false) p = true :=
  .inl (List.mem_toFinset.mpr ((Dict.mem_values _ _).mpr ⟨a, up⟩))

theorem parents_enough (parents : Dict String String) : parents.values.toFinset.card < parents.length + 1 := by
  have less := List.toFinset_card_le parents.values
  rw [Dict.values, List.length_map] at less
  exact Nat.lt_succ_of_le less

/-- The loop above a type passes the chain above it, or is broken. -/
theorem climb_above (parents : Dict String String) (type : String) :
    (∀ above, Climbs parents.get? type (type :: above) →
      climb parents.get? (fun _ => false) (fun _ => false) (parents.length + 1) [type] (parents.get? type) =
        .reached above) ∧
    (¬ Grounded parents.get? (fun _ => false) type →
      climb parents.get? (fun _ => false) (fun _ => false) (parents.length + 1) [type] (parents.get? type) = .broken) := by
  constructor
  · intro above climbs
    have distinct := (List.nodup_cons.mp climbs.nodup).1
    cases climbs with
    | top none =>
        rw [none]
        rfl
    | up up climbs =>
        rw [up]
        refine (climb_eq (parents_closed parents) (parents_enough parents) (parents_closed parents _ _ up)).1 above climbs
          (fun _ _ => rfl) fun b m old => ?_
        cases List.mem_singleton.mp old
        exact distinct m
  · intro none
    cases up : parents.get? type with
    | none => exact absurd ⟨[type], .top up, fun _ _ => rfl⟩ none
    | some p =>
        refine (climb_eq (parents_closed parents) (parents_enough parents) (parents_closed parents _ _ up)).2 fun above => ?_
        exact none (Grounded.of_parent rfl fun q up' => Option.some.inj (up.symm.trans up') ▸ above)

theorem Climbs.tail {parent : String → Option String} {type : String} {chain : List String}
    (climbs : Climbs parent type chain) : ∃ above, chain = type :: above := by
  cases climbs with
  | top => exact ⟨_, rfl⟩
  | up => exact ⟨_, rfl⟩

theorem expand_ok (parents : Dict String String) (types : List (String × Finset String))
    (expanded : Dict String (Finset String)) (grounded : ∀ entry ∈ types, Grounded parents.get? (fun _ => false) entry.1) :
    ∃ all, expand parents types expanded = .ok all ∧ (∀ type ∈ expanded.keys, type ∈ all.keys) ∧
      ∀ type id, id ∈ all.members type ↔ id ∈ expanded.members type ∨
        ∃ entry ∈ types, Relation.TransGen (ParentOf parents.get?) entry.1 type ∧ id ∈ entry.2 := by
  induction types generalizing expanded with
  | nil => exact ⟨expanded, rfl, fun _ m => m, fun type id => by simp⟩
  | cons entry types ih =>
      obtain ⟨sub, instances⟩ := entry
      obtain ⟨chain, climbs, -⟩ := grounded _ List.mem_cons_self
      obtain ⟨above, rfl⟩ := Climbs.tail climbs
      obtain ⟨all, ran, kept, filed⟩ := ih (expanded.addAll (above.map fun parent => (parent, instances)))
        fun entry m => grounded entry (List.mem_cons_of_mem _ m)
      have distinct := (List.nodup_cons.mp climbs.nodup).1
      have higher (type : String) : type ∈ above ↔ Relation.TransGen (ParentOf parents.get?) sub type := by
        have whole := climbs.mem_iff type
        rw [List.mem_cons] at whole
        constructor
        · intro m
          exact (whole.mp (.inr m)).resolve_left fun same => distinct (same ▸ m)
        · intro up
          refine (whole.mpr (.inr up)).resolve_left fun same => climbs.not_above_itself ?_
          rwa [same] at up
      refine ⟨all, ?_, fun type m => kept type ((Dict.keys_addAll _ _ _).mpr (.inl m)), fun type id => ?_⟩
      · rw [expand, (climb_above parents sub).1 above climbs]
        exact ran
      · rw [filed, Dict.mem_members_addAll]
        simp only [List.mem_map, List.mem_cons, exists_eq_or_imp, ← higher]
        constructor
        · rintro ((old | ⟨_, ⟨p, m, rfl⟩, rfl, inside⟩) | later)
          · exact .inl old
          · exact .inr (.inl ⟨m, inside⟩)
          · exact .inr (.inr later)
        · rintro (old | ⟨m, inside⟩ | later)
          · exact .inl (.inl old)
          · exact .inl (.inr ⟨_, ⟨type, m, rfl⟩, rfl, inside⟩)
          · exact .inr later

theorem expand_cyclic (parents : Dict String String) (types : List (String × Finset String))
    (expanded : Dict String (Finset String))
    (cyclic : ∃ entry ∈ types, ¬ Grounded parents.get? (fun _ => false) entry.1) :
    expand parents types expanded = .error cyclicTypes := by
  induction types generalizing expanded with
  | nil => obtain ⟨_, m, _⟩ := cyclic; cases m
  | cons entry types ih =>
      obtain ⟨sub, instances⟩ := entry
      by_cases grounded : Grounded parents.get? (fun _ => false) sub
      · obtain ⟨chain, climbs, -⟩ := grounded
        obtain ⟨above, rfl⟩ := Climbs.tail climbs
        rw [expand, (climb_above parents sub).1 above climbs]
        refine ih _ ?_
        obtain ⟨entry, m, cycle⟩ := cyclic
        rcases List.mem_cons.mp m with rfl | later
        · exact absurd ⟨_, climbs, fun _ _ => rfl⟩ cycle
        · exact ⟨entry, later, cycle⟩
      · rw [expand, (climb_above parents sub).2 grounded]

end AccessModel
end I3x.Mcp

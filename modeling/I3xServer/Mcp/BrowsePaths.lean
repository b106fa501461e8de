import I3xServer.Container.Climbing
import I3xServer.Mcp.ModelIndex

/-!
# Browse paths

One tool climbs from an element to its root and lists the names, the other descends an
index of children by parent and name. Where every chain of parents is sound the two
are inverse.
-/
namespace I3x.Mcp
open Container Mapper

/-- What a path leads to. -/
inductive Resolution where
  | absent
  | found (elementId displayName : String) (kind : NodeKind)
  deriving DecidableEq, Repr

namespace AccessModel
variable (server : Server) (model : AccessModel)

/-- `_parent`. -/
def parent (id : String) : Option String := Api.canonicalParent model.toPublishedModel id

def missing (id : String) : Bool := decide (id ∉ model.nodesById.keys)

def brokenChain : Failure :=
  .http ⟨500, "Invalid Model", "Canonical parent chain contains a cycle or missing element"⟩

/-- More steps than there are elements. -/
def fuel : Nat := model.nodesById.keys.toFinset.card + 1

/-- `_validate_parent_chains`, of elements that are left, past those that are known. -/
def validateParentChains : List String → List String → Except Failure Unit
  | [], _ => .ok ()
  | id :: rest, validated =>
      match climb model.parent (fun a => a ∈ validated) model.missing model.fuel [] (some id) with
      | .reached chain => validateParentChains rest (validated ++ chain)
      | .broken => .error brokenChain
      | .exhausted => .error .exhausted

/-- `_segments`. -/
def segments (id : String) : Except Failure (List String) :=
  match climb model.parent (fun _ => false) model.missing model.fuel [] (some id) with
  | .reached chain => .ok (chain.reverse.map model.name)
  | .broken => .error brokenChain
  | .exhausted => .error .exhausted

abbrev PathChildren := Dict (Option String) (Dict String (List String))

/-- The children by parent and name, each list in the order of the index. -/
def pathChildren (ordered : List String) : PathChildren :=
  ordered.foldl (fun d id => d.pushCell (model.parent id) (model.name id) id) .empty

/-- The candidates below some parents, one segment after the other. -/
def descend (children : PathChildren) : List String → List (Option String) → List String → List String
  | [], _, found => found
  | segment :: rest, parents, _ =>
      let found := parents.flatMap fun parent => children.cell parent segment
      if found = [] then [] else descend children rest (found.map some) found

def ambiguousPath : Failure :=
  .http ⟨409, "Ambiguous Path", "Browse path matches multiple elements; use an elementId"⟩

def resolveSegments (children : PathChildren) (segments : List String) : Except Failure Resolution :=
  match descend children segments [none] [] with
  | [] => .ok .absent
  | [id] =>
      match model.nodesById.get? id with
      | some node => .ok (.found node.id node.name node.kind)
      | none => .error (.keyError id)
  | _ => .error ambiguousPath

/-- `path_children` of an index, built on the first call and kept. -/
def withPaths (index : ModelAccessIndex) : Except Failure (PathChildren × ModelAccessIndex) :=
  match index.pathChildren with
  | some children => .ok (children, index)
  | none =>
      match model.validateParentChains model.nodesById.keys [] with
      | .error failure => .error failure
      | .ok () =>
          let children := model.pathChildren index.orderedIds
          .ok (children, { index with pathChildren := some children })

/-- Every element has a chain of parents to a root, all of them elements. -/
def SoundChains : Prop := ∀ id ∈ model.nodesById.keys, Grounded model.parent model.missing id

/-! ## Climbing -/

theorem missing_eq_false {id : String} : model.missing id = false ↔ id ∈ model.nodesById.keys := by
  rw [missing, decide_eq_false_iff_not, not_not]

theorem member_or_missing (id : String) : id ∈ model.nodesById.keys.toFinset ∨ model.missing id = true := by
  rw [List.mem_toFinset, missing, decide_eq_true_eq]
  exact Decidable.em _

theorem validateParentChains_ok {ids validated : List String}
    (known : ∀ a ∈ validated, Grounded model.parent model.missing a)
    (ok : model.validateParentChains ids validated = .ok ()) : ∀ a ∈ ids, Grounded model.parent model.missing a := by
  induction ids generalizing validated with
  | nil => exact nofun
  | cons id ids ih =>
      rw [validateParentChains] at ok
      split at ok
      · next chain ended =>
          obtain ⟨here, passed⟩ := climb_reached (fun a m => known a (decide_eq_true_eq.mp m)) ended
          have both : ∀ a ∈ validated ++ chain, Grounded model.parent model.missing a := fun a m =>
            (List.mem_append.mp m).elim (known a) (passed a)
          exact fun a m => (List.mem_cons.mp m).elim (fun same => same ▸ here id rfl) (ih both ok a)
      · cases ok
      · cases ok

theorem validateParentChains_of_sound (ids validated : List String)
    (grounded : ∀ a ∈ ids, Grounded model.parent model.missing a) :
    model.validateParentChains ids validated = .ok () := by
  induction ids generalizing validated with
  | nil => rfl
  | cons id ids ih =>
      obtain ⟨chain, climbs, inside⟩ := grounded id List.mem_cons_self
      have short := climbs.length_le (fun _ p _ => model.member_or_missing p) (model.member_or_missing id) inside
      obtain ⟨passed, ended, -, -⟩ := @climb_of_climbs String _ model.parent (fun a => a ∈ validated) model.missing id
        chain climbs inside model.fuel (Nat.le_succ_of_le short) [] (fun _ _ => List.not_mem_nil)
      rw [validateParentChains, ended]
      exact ih _ fun a m => grounded a (List.mem_cons_of_mem _ m)

/-- The check passes exactly on sound chains. -/
theorem validateParentChains_iff :
    model.validateParentChains model.nodesById.keys [] = .ok () ↔ model.SoundChains :=
  ⟨model.validateParentChains_ok nofun, model.validateParentChains_of_sound _ _⟩

theorem segments_eq {id : String} {chain : List String} (climbs : Climbs model.parent id chain)
    (inside : ∀ b ∈ chain, model.missing b = false) : model.segments id = .ok (chain.reverse.map model.name) := by
  have ended := (climb_eq (fun _ p _ => model.member_or_missing p) (Nat.lt_succ_self _) (model.member_or_missing id)).1
    chain climbs inside fun _ _ => List.not_mem_nil
  rw [segments, fuel, ended]

theorem SoundChains.segments {model : AccessModel} (sound : model.SoundChains) {id : String}
    (m : id ∈ model.nodesById.keys) :
    ∃ chain, Climbs model.parent id chain ∧ model.segments id = .ok (chain.reverse.map model.name) := by
  obtain ⟨chain, climbs, inside⟩ := sound id m
  exact ⟨chain, climbs, model.segments_eq climbs inside⟩

/-! ## Descending -/

/-- The names on the way down from below a parent to an element. -/
inductive Descends : Option String → List String → String → Prop
  | last {p : Option String} {id : String} : id ∈ model.nodesById.keys → model.parent id = p →
      Descends p [model.name id] id
  | down {p : Option String} {a id : String} {rest : List String} : a ∈ model.nodesById.keys → model.parent a = p →
      Descends (some a) rest id → Descends p (model.name a :: rest) id

/-- The chain above the children of a parent; that of the roots is empty. -/
def Above (p : Option String) (chain : List String) : Prop :=
  match p with
  | none => chain = []
  | some a => Climbs model.parent a chain

theorem Above.climbs {model : AccessModel} {a : String} {chain : List String}
    (above : model.Above (model.parent a) chain) : Climbs model.parent a (a :: chain) := by
  cases up : model.parent a with
  | none =>
      rw [up] at above
      cases (above : chain = [])
      exact .top up
  | some p =>
      rw [up] at above
      exact .up up above

theorem Descends.climbs {model : AccessModel} {p : Option String} {names : List String} {id : String}
    (descends : model.Descends p names id) (chain : List String) (above : model.Above p chain) :
    ∃ whole, Climbs model.parent id whole ∧
      whole.reverse.map model.name = chain.reverse.map model.name ++ names := by
  induction descends generalizing chain with
  | last m up =>
      subst up
      refine ⟨_, above.climbs, ?_⟩
      rw [List.reverse_cons, List.map_append]
      rfl
  | @down p a id rest m up _ ih =>
      subst up
      obtain ⟨whole, climbs, names⟩ := ih (a :: chain) above.climbs
      refine ⟨whole, climbs, ?_⟩
      rw [names, List.reverse_cons, List.map_append, List.append_assoc]
      rfl

theorem descends_of_climbs {model : AccessModel} {a : String} {chain : List String} (climbs : Climbs model.parent a chain)
    (inside : ∀ b ∈ chain, b ∈ model.nodesById.keys) :
    model.Descends none (chain.reverse.map model.name) a ∧
      ∀ rest id, model.Descends (some a) rest id → model.Descends none (chain.reverse.map model.name ++ rest) id := by
  induction climbs with
  | @top a none =>
      have m := inside a (List.mem_singleton_self a)
      exact ⟨.last m none, fun rest id below => .down m none below⟩
  | @up a p chain up _ ih =>
      have m := inside a List.mem_cons_self
      obtain ⟨-, further⟩ := ih fun b n => inside b (List.mem_cons_of_mem _ n)
      rw [List.reverse_cons, List.map_append]
      refine ⟨further _ _ (.last m up), fun rest id below => ?_⟩
      rw [List.append_assoc]
      exact further _ _ (.down m up below)

/-- The list of an index of children. -/
theorem cell_pathChildren (ordered : List String) (p : Option String) (name : String) :
    (model.pathChildren ordered).cell p name = ordered.filter fun id => model.parent id = p ∧ model.name id = name := by
  rw [pathChildren, Dict.cell_foldl, List.map_id']
  rfl

section
variable {model} {children : PathChildren}

theorem mem_descend
    (listed : ∀ p name id, id ∈ children.cell p name ↔ id ∈ model.nodesById.keys ∧ model.parent id = p ∧ model.name id = name)
    {segments : List String} (some' : segments ≠ []) (parents : List (Option String)) (found : List String) (id : String) :
    id ∈ descend children segments parents found ↔ ∃ p ∈ parents, model.Descends p segments id := by
  induction segments generalizing parents found with
  | nil => exact absurd rfl some'
  | cons segment rest ih =>
      have next (a : String) : a ∈ (parents.flatMap fun p => children.cell p segment) ↔
          a ∈ model.nodesById.keys ∧ model.parent a ∈ parents ∧ model.name a = segment := by
        rw [List.mem_flatMap]
        exact ⟨fun ⟨p, m, inside⟩ => by obtain ⟨here, rfl, same⟩ := (listed _ _ _).mp inside; exact ⟨here, m, same⟩,
          fun ⟨here, m, same⟩ => ⟨_, m, (listed _ _ _).mpr ⟨here, rfl, same⟩⟩⟩
      have step : id ∈ descend children (segment :: rest) parents found ↔
          id ∈ descend children rest ((parents.flatMap fun p => children.cell p segment).map some)
            (parents.flatMap fun p => children.cell p segment) := by
        rw [descend]
        split
        · next none =>
            rw [none]
            cases rest with
            | nil => rfl
            | cons => rw [List.map_nil, descend, List.flatMap_nil, if_pos rfl]
        · rfl
      rw [step]
      cases rest with
      | nil =>
          rw [descend, next]
          constructor
          · rintro ⟨here, m, rfl⟩
            exact ⟨_, m, .last here rfl⟩
          · rintro ⟨p, m, descends⟩
            cases descends with
            | last here up => exact ⟨here, up ▸ m, rfl⟩
            | down _ _ below => cases below
      | cons second rest =>
          rw [ih (List.cons_ne_nil _ _)]
          simp only [List.mem_map]
          constructor
          · rintro ⟨_, ⟨a, m, rfl⟩, below⟩
            obtain ⟨here, above, rfl⟩ := (next a).mp m
            exact ⟨_, above, .down here rfl below⟩
          · rintro ⟨p, m, descends⟩
            cases descends with
            | down here up below => exact ⟨_, ⟨_, (next _).mpr ⟨here, up ▸ m, rfl⟩, rfl⟩, below⟩

theorem nodup_descend (distinct : ∀ p name, (children.cell p name).Nodup)
    (listed : ∀ p name id, id ∈ children.cell p name → model.parent id = p) {segments : List String}
    {parents : List (Option String)} (nodup : parents.Nodup) {found : List String} (start : found.Nodup) :
    (descend children segments parents found).Nodup := by
  induction segments generalizing parents found with
  | nil => exact start
  | cons segment rest ih =>
      have next : (parents.flatMap fun p => children.cell p segment).Nodup := by
        rw [List.nodup_flatMap]
        refine ⟨fun p _ => distinct p segment, nodup.imp fun {p q} other => ?_⟩
        intro id m n
        exact other ((listed _ _ _ m).symm.trans (listed _ _ _ n))
      rw [descend]
      split
      · exact List.nodup_nil
      · exact ih (next.map (Option.some_injective _)) next

end

/-- Descending by some names finds each element that has them as its segments once. -/
theorem SoundChains.descend {model : AccessModel} (sound : model.SoundChains) {ordered : List String}
    (nodup : ordered.Nodup) (all : ∀ id, id ∈ ordered ↔ id ∈ model.nodesById.keys) (segments : List String) :
    (AccessModel.descend (model.pathChildren ordered) segments [none] []).Nodup ∧
      ∀ id, id ∈ AccessModel.descend (model.pathChildren ordered) segments [none] [] ↔
        id ∈ model.nodesById.keys ∧ model.segments id = .ok segments := by
  have listed (p : Option String) (name id : String) : id ∈ (model.pathChildren ordered).cell p name ↔
      id ∈ model.nodesById.keys ∧ model.parent id = p ∧ model.name id = name := by
    rw [cell_pathChildren, List.mem_filter, all, decide_eq_true_eq]
  refine ⟨nodup_descend (fun p name => ?_) (fun p name id m => ((listed p name id).mp m).2.1)
    (List.nodup_singleton _) List.nodup_nil, fun id => ?_⟩
  · rw [cell_pathChildren]
    exact nodup.filter _
  · have climbed : id ∈ model.nodesById.keys ∧ model.segments id = .ok segments ↔ model.Descends none segments id := by
      constructor
      · rintro ⟨m, same⟩
        obtain ⟨chain, climbs, inside⟩ := sound id m
        rw [model.segments_eq climbs inside, Except.ok.injEq] at same
        rw [← same]
        exact (descends_of_climbs climbs fun b n => model.missing_eq_false.mp (inside b n)).1
      · intro descends
        have m : id ∈ model.nodesById.keys := by
          generalize none = p at descends
          induction descends with
          | last m _ => exact m
          | down _ _ _ ih => exact ih
        obtain ⟨chain, climbs, inside⟩ := sound id m
        obtain ⟨whole, climbs', names⟩ := descends.climbs [] rfl
        cases climbs'.functional climbs
        exact ⟨m, (model.segments_eq climbs inside).trans (by rw [names]; rfl)⟩
    rw [climbed]
    cases segments with
    | nil => exact ⟨nofun, nofun⟩
    | cons first rest =>
        rw [mem_descend listed (List.cons_ne_nil _ _)]
        exact ⟨fun ⟨p, m, descends⟩ => List.mem_singleton.mp m ▸ descends, fun descends => ⟨_, List.mem_singleton_self _, descends⟩⟩

end AccessModel
end I3x.Mcp

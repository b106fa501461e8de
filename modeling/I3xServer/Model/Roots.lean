import I3xServer.Container.Forest
import I3xServer.Model.Published

/-!
# Roots

Whether every element of a published model hangs below a root. Parents are
chosen one child at a time, so the references themselves must not run in a
circle of chosen parents.
-/
namespace I3x
open Container Mapper

namespace PublishedModel
variable (model : PublishedModel)

def parent (id : String) : Option String := (model.parentIdById.get? id).join

/-- A child of either plane. -/
def Child (parentId childId : String) : Prop :=
  childId ∈ model.hierarchyChildrenById.bucket parentId ∨
    childId ∈ model.compositionChildrenById.bucket parentId

/-- Every element climbs to a root without meeting an element twice, and some
root leads down to every element. -/
structure Rooted : Prop where
  climbs : ∀ id ∈ model.nodesById.keys, ∃ chain, Climbs model.parent id chain ∧ chain.Nodup ∧
    ∃ root ∈ model.rootIds, chain.getLast? = some root
  reached : ∀ id ∈ model.nodesById.keys, ∃ root ∈ model.rootIds, Relation.ReflTransGen model.Child root id

end PublishedModel

namespace Browse
variable (browse : Browse)

theorem published_parent (id : String) : browse.published.parent id = browse.resolvedParentId id := by
  change (((browse.nodesById.mapValues fun id _ => browse.resolvedParentId id).get? id).join) = _
  rw [Dict.get?_mapValues]
  cases found : browse.nodesById.get? id with
  | some node => rfl
  | none =>
      cases parent : browse.resolvedParentId id with
      | none => rfl
      | some p =>
          have key := (browse.resolvedParentId_keys parent).1
          exact absurd key ((Dict.get?_eq_none _ _).mp found)

theorem child_of_parent {childId parentId : String} (h : browse.resolvedParentId childId = some parentId) :
    browse.published.Child parentId childId := by
  rw [resolvedParentId] at h
  cases found : browse.hierarchyParentById.get? childId with
  | some parent =>
      rw [found, Option.some.injEq] at h
      exact Or.inl ((browse.mem_childrenByParent _ _ _).mpr (by rw [found, h]))
  | none =>
      refine Or.inr ((browse.mem_childrenByParent _ _ _).mpr ?_)
      rw [found] at h
      rw [hierarchyParentById, Dict.get?_mapValues, Option.map_eq_none_iff] at found
      simp only [parentSource, found, Option.map_map] at h
      rw [compositionParentById, Dict.get?_mapValues]
      exact h

/-- The last element of a way up is a root, and leads down to its start. -/
theorem Climbs.root {id : String} {chain : List String} (climbs : Climbs browse.published.parent id chain)
    (inside : id ∈ browse.nodesById.keys) :
    ∃ root ∈ browse.rootIds, chain.getLast? = some root ∧ Relation.ReflTransGen browse.published.Child root id := by
  induction climbs with
  | @top a none => exact ⟨a, (browse.mem_rootIds a).mpr ⟨inside, by rw [← published_parent, none]⟩, rfl, .refl⟩
  | @up a p rest up climbs ih =>
      rw [published_parent] at up
      obtain ⟨root, isRoot, last, path⟩ := ih (browse.resolvedParentId_keys up).2
      refine ⟨root, isRoot, ?_, path.tail (browse.child_of_parent up)⟩
      cases climbs with
      | top => exact last
      | up => rw [List.getLast?_cons_cons]; exact last

/-- One step from an element to the source of the reference that was chosen for it. -/
def ChosenParent (childId parentId : String) : Prop :=
  ∃ l, browse.Chosen l ∧ browse.mappedId l.target = childId ∧ browse.mappedId l.source = parentId

/-- **Every element of a published model hangs below a root exactly if the chosen
references form no circle.** -/
theorem rooted_iff_acyclic {model : PublishedModel} (built : browse.buildModel = .ok model) :
    model.Rooted ↔ ∀ id, ¬ Relation.TransGen browse.ChosenParent id id := by
  obtain ⟨-, rfl⟩ := browse.buildModel_ok built
  have steps : ParentOf browse.published.parent = browse.ChosenParent := by
    funext childId parentId
    rw [ParentOf, published_parent, resolvedParentId_iff]
    rfl
  have closed : ∀ id parentId, browse.published.parent id = some parentId →
      id ∈ browse.nodesById.keys.toFinset ∧ parentId ∈ browse.nodesById.keys.toFinset := fun id parentId up => by
    rw [List.mem_toFinset, List.mem_toFinset]
    exact browse.resolvedParentId_keys (by rw [← published_parent, up])
  have forest := climbs_iff_acyclic browse.published.parent browse.nodesById.keys.toFinset
    (fun id _ parentId up => (closed id parentId up).2) fun id parentId up => (closed id parentId up).1
  rw [steps] at forest
  rw [← forest]
  constructor
  · intro rooted id inside
    obtain ⟨chain, climbs, -⟩ := rooted.climbs id (List.mem_toFinset.mp inside)
    exact ⟨chain, climbs⟩
  · intro all
    refine ⟨fun id inside => ?_, fun id inside => ?_⟩
    all_goals
      obtain ⟨chain, climbs⟩ := all id (List.mem_toFinset.mpr inside)
      obtain ⟨root, isRoot, last, path⟩ := Climbs.root browse climbs inside
    · exact ⟨chain, climbs, climbs.nodup, root, isRoot, last⟩
    · exact ⟨root, isRoot, path⟩

end Browse

/-- Two objects that organize each other. -/
def Plant.circle : Browse :=
  browse [node "A" "Object" [organizes "B"], node "B" "Object" [organizes "A"]]

/-- **Objects that organize each other are all each other's children, and no root
is left.** -/
theorem Browse.circle_not_rooted :
    Plant.circle.buildModel = .ok Plant.circle.published ∧ ¬ Plant.circle.published.Rooted := by
  refine ⟨rfl, fun rooted => ?_⟩
  have noRoots : Plant.circle.published.rootIds = [] := by decide
  obtain ⟨root, isRoot, -⟩ := rooted.reached "asset-5b7e0a0f0c568c33" (by decide)
  rw [noRoots] at isRoot
  cases isRoot

/-- One object below another. -/
def Plant.line : Browse := browse [node "A" "Object" [organizes "B"], node "B" "Object" []]

theorem Browse.line_rooted_iff :
    Plant.line.published.Rooted ↔ ∀ id, ¬ Relation.TransGen Plant.line.ChosenParent id id :=
  Plant.line.rooted_iff_acyclic rfl

end I3x

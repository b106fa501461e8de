import I3xServer.Container.Buckets
import I3xServer.Container.Documents
import I3xServer.Container.Parallel

/-!
# Documents with shared parts

Lists and dictionaries stand in a heap and may be held in several places. A visit of
everything below a value that changes texts in place changes each text once in the
document, however often its dictionary is reached.
-/
namespace Container

abbrev Address := Nat

/-- What a list or a dictionary holds: a scalar, or another container. -/
inductive Slot where
  | literal (token : Token)
  | string (text : String)
  | container (address : Address)

inductive Cell where
  | list (items : List Slot)
  | dict (members : Dict String Slot)

abbrev Heap := List Cell

/-- A change of the texts that stand directly under names. -/
abbrev TextChange := String → String → String

def Slot.onText (f : String → String) : Slot → Slot
  | .string text => .string (f text)
  | slot => slot

namespace Cell

def slots : Cell → List Slot
  | .list items => items
  | .dict members => members.values

def onTexts (change : TextChange) : Cell → Cell
  | .list items => .list items
  | .dict members => .dict (members.mapValues fun name slot => slot.onText (change name))

end Cell

def Document.onText (f : String → String) : Document → Document
  | .string text => .string (f text)
  | document => document

/-- The document in which every text that stands directly under a name is changed. -/
def Document.onTexts (change : TextChange) : Document → Document :=
  rebuild fun members => members.map fun member => (member.1, member.2.onText (change member.1))

namespace Heap
variable (heap : Heap)

/-- The document of a value, if the fuel is enough for its depth. -/
def read : Nat → Slot → Option Document
  | _, .literal token => some (.literal token)
  | _, .string text => some (.string text)
  | 0, .container _ => none
  | fuel + 1, .container address =>
      match heap[address]? with
      | none => none
      | some (.list items) => (items.mapM (read fuel)).map .array
      | some (.dict members) =>
          (members.entries.mapM fun member => (read fuel member.2).map fun value => (member.1, value)).map .object

/-- The members of a dictionary with their documents. -/
def readMembers (fuel : Nat) (members : Dict String Slot) : Option (List (String × Document)) :=
  members.entries.mapM fun member => (heap.read fuel member.2).map fun value => (member.1, value)

/-- The containers below a value, each as often as it is reached. -/
def reached : Nat → Slot → List Address
  | fuel + 1, .container address =>
      match heap[address]? with
      | none => []
      | some cell => address :: cell.slots.flatMap (reached fuel)
  | _, _ => []

end Heap

/-- Change the texts of every container below a value in place, each container before
what it holds. -/
def visit (change : TextChange) : Nat → Slot → Heap → Heap
  | fuel + 1, .container address, heap =>
      match heap[address]? with
      | none => heap
      | some cell =>
          (cell.onTexts change).slots.foldl (fun heap slot => visit change fuel slot heap)
            (heap.set address (cell.onTexts change))
  | _, _, heap => heap

/-! ## Reading -/

theorem mapM_some_iff {α β : Type} (f : α → Option β) (xs : List α) (ys : List β) :
    xs.mapM f = some ys ↔ List.Forall₂ (fun x y => f x = some y) xs ys := by
  induction xs generalizing ys with
  | nil =>
      rw [List.mapM_nil]
      constructor
      · intro same
        cases same
        exact .nil
      · intro none
        cases none
        rfl
  | cons x xs ih =>
      rw [List.mapM_cons]
      constructor
      · intro run
        cases first : f x with
        | none => rw [first] at run; cases run
        | some y =>
            cases rest : xs.mapM f with
            | none => rw [first, rest] at run; cases run
            | some ys' =>
                rw [first, rest] at run
                cases run
                exact .cons first ((ih ys').mp rest)
      · rintro (_ | ⟨first, rest⟩)
        rw [first, (ih _).mpr rest]
        rfl

namespace Heap
variable {heap : Heap} {fuel : Nat}

/-- The members are read one by one, under the same names. -/
theorem readMembers_iff {members : Dict String Slot} {values : List (String × Document)} :
    heap.readMembers fuel members = some values ↔
      List.Forall₂ (RelatedEntry Eq fun slot document => heap.read fuel slot = some document) members.entries values := by
  rw [readMembers, mapM_some_iff]
  refine ⟨List.Forall₂.imp fun member value read => ?_, List.Forall₂.imp fun member value read => ?_⟩
  · obtain ⟨document, found, rfl⟩ := Option.map_eq_some_iff.mp read
    exact ⟨rfl, found⟩
  · exact Option.map_eq_some_iff.mpr ⟨value.2, read.2, Prod.ext read.1 rfl⟩

theorem exists_readMembers (heap : Heap) {members : Dict String Slot}
    (each : ∀ entry ∈ members.entries, ∃ document, heap.read fuel entry.2 = some document) :
    ∃ values, heap.readMembers fuel members = some values := by
  rw [readMembers]
  generalize members.entries = entries at each
  induction entries with
  | nil => exact ⟨[], rfl⟩
  | cons entry entries ih =>
      obtain ⟨⟨document, read⟩, rest⟩ := List.forall_mem_cons.mp each
      obtain ⟨values, all⟩ := ih rest
      refine ⟨(entry.1, document) :: values, ?_⟩
      rw [List.mapM_cons, read, all]
      rfl

/-- What is found under a name is read from what the dictionary has there. -/
theorem lookup_readMembers {members : Dict String Slot} {values : List (String × Document)}
    (read : heap.readMembers fuel members = some values) (name : String) :
    Option.Rel (fun slot document => heap.read fuel slot = some document) (members.get? name) (values.lookup name) :=
  option_rel_lookup ⟨fun _ _ _ left right => left.trans right.symm, fun _ _ _ left right => left.symm.trans right⟩
    (readMembers_iff.mp read) rfl

theorem names_readMembers {members : Dict String Slot} {values : List (String × Document)}
    (read : heap.readMembers fuel members = some values) : values.map Prod.fst = members.keys := by
  have each := readMembers_iff.mp read
  rw [Dict.keys]
  clear read
  generalize members.entries = entries at each
  induction each with
  | nil => rfl
  | cons first _ ih => rw [List.map_cons, List.map_cons, ih, first.1]

/-- What is read at an address: the list or the dictionary there. -/
theorem read_container_iff {address : Address} {document : Document} :
    heap.read (fuel + 1) (.container address) = some document ↔
      (∃ items documents, heap[address]? = some (.list items) ∧
        List.Forall₂ (fun slot document => heap.read fuel slot = some document) items documents ∧
        document = .array documents) ∨
      ∃ members values, heap[address]? = some (.dict members) ∧ heap.readMembers fuel members = some values ∧
        document = .object values := by
  rw [read]
  cases heap[address]? with
  | none => simp
  | some cell =>
      cases cell with
      | list items =>
          simp only [Option.map_eq_some_iff, mapM_some_iff]
          constructor
          · rintro ⟨documents, each, rfl⟩
            exact .inl ⟨items, documents, rfl, each, rfl⟩
          · rintro (⟨_, documents, same, each, rfl⟩ | ⟨_, _, same, -⟩)
            · cases same
              exact ⟨documents, each, rfl⟩
            · cases same
      | dict members =>
          change Option.map _ (heap.readMembers fuel members) = _ ↔ _
          simp only [Option.map_eq_some_iff]
          constructor
          · rintro ⟨values, each, rfl⟩
            exact .inr ⟨members, values, rfl, each, rfl⟩
          · rintro (⟨_, _, same, -⟩ | ⟨_, values, same, each, rfl⟩)
            · cases same
            · cases same
              exact ⟨values, each, rfl⟩

/-- What is read has distinct names. -/
theorem read_distinct {slot : Slot} {document : Document} (read : heap.read fuel slot = some document) :
    document.Distinct := by
  induction fuel generalizing slot document with
  | zero =>
      cases slot with
      | literal token => cases read; exact .literal token
      | string text => cases read; exact .string text
      | container address => cases read
  | succ fuel ih =>
      cases slot with
      | literal token => cases read; exact .literal token
      | string text => cases read; exact .string text
      | container address =>
          rcases read_container_iff.mp read with ⟨items, documents, -, each, rfl⟩ | ⟨members, values, -, each, rfl⟩
          · refine .array fun document m => ?_
            obtain ⟨slot, -, found⟩ := forall₂_mem_right each m
            exact ih found
          · refine .object ?_ fun value m => ?_
            · rw [names_readMembers each]
              exact members.nodup
            · obtain ⟨member, -, -, found⟩ := forall₂_mem_right (readMembers_iff.mp each) m
              exact ih found

/-- Everything that is read stays as it is when the heap grows, and with more fuel. -/
theorem read_mono {heap' : Heap} {fuel' : Nat} (le : fuel ≤ fuel')
    (kept : ∀ (address : Address) (cell : Cell), heap[address]? = some cell → heap'[address]? = some cell) {slot : Slot}
    {document : Document} (read : heap.read fuel slot = some document) : heap'.read fuel' slot = some document := by
  induction fuel generalizing slot document fuel' with
  | zero =>
      cases slot with
      | container address => cases read
      | _ => cases fuel' <;> exact read
  | succ fuel ih =>
      obtain ⟨fuel', rfl⟩ := Nat.exists_eq_add_one.mpr (Nat.lt_of_lt_of_le (Nat.succ_pos fuel) le)
      have le := Nat.le_of_succ_le_succ le
      cases slot with
      | container address =>
          rw [read_container_iff] at read ⊢
          rcases read with ⟨items, documents, at', each, rfl⟩ | ⟨members, values, at', each, rfl⟩
          · exact .inl ⟨items, documents, kept _ _ at', each.imp fun _ _ found => ih le found, rfl⟩
          · refine .inr ⟨members, values, kept _ _ at', ?_, rfl⟩
            rw [readMembers_iff] at each ⊢
            exact each.imp fun _ _ found => ⟨found.1, ih le found.2⟩
      | _ => exact read

theorem getElem?_append_of_some {address : Address} {cell : Cell} (at' : heap[address]? = some cell) (more : Heap) :
    (heap ++ more)[address]? = some cell :=
  (List.getElem?_append_left (List.getElem?_eq_some_iff.mp at').1).trans at'

end Heap
/-! ## Changing texts -/

namespace Heap

/-- The heap in which the texts of some containers are changed. -/
def changed (change : TextChange) (addresses : List Address) (heap : Heap) : Heap :=
  heap.mapIdx fun address cell => if address ∈ addresses then cell.onTexts change else cell

theorem getElem?_changed (change : TextChange) (addresses : List Address) (heap : Heap) (address : Address) :
    (heap.changed change addresses)[address]? =
      heap[address]?.map fun cell => if address ∈ addresses then cell.onTexts change else cell := by
  rw [changed, List.getElem?_mapIdx]

theorem changed_nil (change : TextChange) (heap : Heap) : heap.changed change [] = heap := by
  refine List.ext_getElem? fun address => ?_
  simp [getElem?_changed]

end Heap

section
variable {change : TextChange} {heap : Heap} {fuel : Nat}

theorem Slot.onText_twice {f : String → String} (twice : ∀ text, f (f text) = f text) (slot : Slot) :
    (slot.onText f).onText f = slot.onText f := by
  cases slot with
  | string text => exact congrArg Slot.string (twice text)
  | _ => rfl

theorem Cell.onTexts_twice (twice : ∀ name text, change name (change name text) = change name text) (cell : Cell) :
    (cell.onTexts change).onTexts change = cell.onTexts change := by
  cases cell with
  | list items => rfl
  | dict members =>
      refine congrArg Cell.dict (Dict.ext_entries ?_)
      simp only [Dict.mapValues, List.map_map, Function.comp_def, Slot.onText_twice (twice _)]

/-- A change of texts reaches what it reached before. -/
theorem flatMap_reached_onTexts (cell : Cell) :
    (cell.onTexts change).slots.flatMap (heap.reached fuel) = cell.slots.flatMap (heap.reached fuel) := by
  cases cell with
  | list items => rfl
  | dict members =>
      simp only [Cell.onTexts, Cell.slots, Dict.values, Dict.mapValues, List.map_map, List.flatMap_map]
      refine List.flatMap_congr fun member _ => ?_
      cases slot : member.2 with
      | string text => simp [Slot.onText, slot, Heap.reached]
      | _ => simp [Slot.onText, slot]

theorem foldl_changed {visit : Slot → Heap → Heap} {reached : Slot → List Address}
    (each : ∀ slot addresses, visit slot (heap.changed change addresses) = heap.changed change (addresses ++ reached slot))
    (slots : List Slot) (addresses : List Address) :
    slots.foldl (fun heap slot => visit slot heap) (heap.changed change addresses) =
      heap.changed change (addresses ++ slots.flatMap reached) := by
  induction slots generalizing addresses with
  | nil => rw [List.foldl_nil, List.flatMap_nil, List.append_nil]
  | cons slot slots ih => rw [List.foldl_cons, each, ih, List.flatMap_cons, List.append_assoc]

/-- A visit changes the containers that are reached, whichever were changed before. -/
theorem visit_changed (twice : ∀ name text, change name (change name text) = change name text) (slot : Slot)
    (addresses : List Address) :
    visit change fuel slot (heap.changed change addresses) =
      heap.changed change (addresses ++ heap.reached fuel slot) := by
  induction fuel generalizing slot addresses with
  | zero => cases slot <;> simp [visit, Heap.reached]
  | succ fuel ih =>
      cases slot with
      | container address =>
          rw [visit, Heap.reached, Heap.getElem?_changed]
          cases at' : heap[address]? with
          | none => simp
          | some cell =>
              -- the container is changed once, whether it was before or not
              have once : (if address ∈ addresses then cell.onTexts change else cell).onTexts change =
                  cell.onTexts change := by
                split
                · exact Cell.onTexts_twice twice cell
                · rfl
              have written : (heap.changed change addresses).set address (cell.onTexts change) =
                  heap.changed change (addresses ++ [address]) := by
                refine List.ext_getElem? fun other => ?_
                rw [List.getElem?_set, Heap.getElem?_changed, Heap.getElem?_changed]
                have inside : address < (heap.changed change addresses).length := by
                  rw [Heap.changed, List.length_mapIdx]
                  exact (List.getElem?_eq_some_iff.mp at').1
                by_cases here : address = other
                · subst here
                  rw [if_pos rfl, if_pos inside, at']
                  simp
                · rw [if_neg here]
                  have apart : other ∈ addresses ++ [address] ↔ other ∈ addresses := by simp [Ne.symm here]
                  simp only [apart]
              simp only [Option.map_some, once, written]
              rw [foldl_changed ih, flatMap_reached_onTexts, List.append_assoc]
              rfl
      | _ => simp [visit, Heap.reached]

theorem read_onText {heap' : Heap} {slot : Slot} {document : Document} (f : String → String)
    (read : heap.read fuel slot = some document) (read' : heap'.read fuel slot = some (document.onTexts change)) :
    heap'.read fuel (slot.onText f) = some ((document.onTexts change).onText f) := by
  cases slot with
  | literal token =>
      rw [Heap.read] at read
      cases read
      simp only [Slot.onText, Document.onTexts, Document.rebuild_literal, Document.onText, Heap.read]
  | string text =>
      rw [Heap.read] at read
      cases read
      simp only [Slot.onText, Document.onTexts, Document.rebuild_string, Document.onText, Heap.read]
  | container address =>
      have inert : (document.onTexts change).onText f = document.onTexts change := by
        cases fuel with
        | zero => cases read
        | succ fuel =>
            rcases Heap.read_container_iff.mp read with ⟨_, documents, -, -, rfl⟩ | ⟨_, values, -, -, rfl⟩
            · rw [Document.onTexts, Document.rebuild_array]
              rfl
            · rw [Document.onTexts, Document.rebuild_object]
              rfl
      rw [inert]
      exact read'

theorem readMembers_onTexts {heap' : Heap} {root : Dict String Slot} {members : List (String × Document)}
    (each : ∀ slot ∈ root.values, ∀ document, heap.read fuel slot = some document →
      heap'.read fuel slot = some (document.onTexts change))
    (read : heap.readMembers fuel root = some members) :
    heap'.readMembers fuel (root.mapValues fun name slot => slot.onText (change name)) =
      some (members.map fun member => (member.1, (member.2.onTexts change).onText (change member.1))) := by
  rw [Heap.readMembers_iff] at read ⊢
  rw [List.forall₂_map_right_iff, Dict.mapValues, List.forall₂_map_left_iff]
  have inside : ∀ member ∈ root.entries, member.2 ∈ root.values := fun _ m => List.mem_map_of_mem m
  refine ((List.forall₂_and_left _ members).mpr ⟨inside, read⟩).imp fun member value found => ?_
  obtain ⟨m, name, slot⟩ := found
  exact ⟨name, name ▸ read_onText (change member.1) slot (each member.2 m value.2 slot)⟩

/-- What is reached reads as the document with its texts changed. -/
theorem read_changed {slot : Slot} {document : Document} {addresses : List Address}
    (read : heap.read fuel slot = some document) (all : heap.reached fuel slot ⊆ addresses) :
    (heap.changed change addresses).read fuel slot = some (document.onTexts change) := by
  induction fuel generalizing slot document with
  | zero =>
      cases slot with
      | literal token => cases read; rw [Document.onTexts, Document.rebuild_literal]; rfl
      | string text => cases read; rw [Document.onTexts, Document.rebuild_string]; rfl
      | container address => cases read
  | succ fuel ih =>
      cases slot with
      | literal token => cases read; rw [Document.onTexts, Document.rebuild_literal]; rfl
      | string text => cases read; rw [Document.onTexts, Document.rebuild_string]; rfl
      | container address =>
          rw [Heap.read_container_iff]
          rcases Heap.read_container_iff.mp read with ⟨items, documents, at', each, rfl⟩ | ⟨members, values, at', each, rfl⟩
          · rw [Heap.reached, at'] at all
            refine .inl ⟨items, documents.map (Document.onTexts change), ?_, ?_, ?_⟩
            · rw [Heap.getElem?_changed, at']
              exact congrArg some (ite_self _)
            · rw [List.forall₂_map_right_iff]
              have below : ∀ slot ∈ items, heap.reached fuel slot ⊆ addresses := fun slot m inner n =>
                all (List.mem_cons_of_mem _ (List.mem_flatMap.mpr ⟨slot, m, n⟩))
              refine ((List.forall₂_and_left items documents).mpr ⟨below, each⟩).imp fun slot document found => ?_
              exact ih found.2 found.1
            · rw [Document.onTexts, Document.rebuild_array]
          · rw [Heap.reached, at'] at all
            have here : address ∈ addresses := all List.mem_cons_self
            refine .inr ⟨members.mapValues fun name slot => slot.onText (change name),
              values.map fun value => (value.1, (value.2.onTexts change).onText (change value.1)), ?_, ?_, ?_⟩
            · rw [Heap.getElem?_changed, at', Option.map_some, if_pos here]
              rfl
            · exact readMembers_onTexts (fun slot m document found => ih found fun inner n =>
                all (List.mem_cons_of_mem _ (List.mem_flatMap.mpr ⟨slot, m, n⟩))) each
            · rw [Document.onTexts, Document.rebuild_object, List.map_map]
              rfl

/-- After a visit of all values of a dictionary outside the heap, and a change of its own
texts, it reads as its document with the texts changed. -/
theorem readMembers_visited (twice : ∀ name text, change name (change name text) = change name text)
    {root : Dict String Slot} {members : List (String × Document)} (read : heap.readMembers fuel root = some members) :
    let root' := root.mapValues fun name slot => slot.onText (change name)
    ∃ addresses, root'.values.foldl (fun heap slot => visit change fuel slot heap) heap = heap.changed change addresses ∧
      (∀ slot ∈ root.values, heap.reached fuel slot ⊆ addresses) ∧
      (heap.changed change addresses).readMembers fuel root' =
        some (members.map fun member => (member.1, (member.2.onTexts change).onText (change member.1))) := by
  dsimp only
  have below : ∀ slot ∈ root.values, heap.reached fuel slot ⊆ root.values.flatMap (heap.reached fuel) :=
    fun slot m _ n => List.mem_flatMap.mpr ⟨slot, m, n⟩
  have slots := @flatMap_reached_onTexts change heap fuel (.dict root)
  refine ⟨root.values.flatMap (heap.reached fuel), ?_, below, ?_⟩
  · have visited := foldl_changed (@visit_changed change heap fuel twice)
      (root.mapValues fun name slot => slot.onText (change name)).values []
    rw [Heap.changed_nil, List.nil_append] at visited
    rw [visited]
    exact congrArg (fun addresses => heap.changed change addresses) slots
  · exact readMembers_onTexts (fun slot m document found => read_changed found (below slot m)) read

end

end Container

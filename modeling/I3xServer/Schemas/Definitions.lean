import I3xServer.Container.Merging
import I3xServer.Container.SharedDocuments

/-!
# Equal definitions of a schema

A schema document refers to its definitions by name. Of equal definitions one is kept,
and the references to the others are redirected in place, in a document whose parts may
be shared. The schema that the references unfold to stays the same.
-/
namespace I3x.Schemas
open Container

/-! ## References -/

def localPrefix : String := "#/$defs/"

/-- The name after the prefix of a local reference. -/
def localName (ref : String) : Option String :=
  if localPrefix.toList.isPrefixOf ref.toList then some (String.ofList (ref.toList.drop 8)) else none

def localRef (name : String) : String := localPrefix ++ name

theorem localName_localRef (name : String) : localName (localRef name) = some name := by
  have before : localPrefix.toList.isPrefixOf (localRef name).toList = true := by
    rw [localRef, String.toList_append]
    exact List.isPrefixOf_iff_prefix.mpr (List.prefix_append _ _)
  have after : (localRef name).toList.drop 8 = name.toList := by
    rw [localRef, String.toList_append]
    rfl
  rw [localName, if_pos before, after, String.ofList_toList]

theorem eq_localRef {ref name : String} (found : localName ref = some name) : ref = localRef name := by
  unfold localName at found
  split at found
  · next before =>
      obtain ⟨rest, same⟩ := List.isPrefixOf_iff_prefix.mp before
      rw [← same] at found
      have tail : (localPrefix.toList ++ rest).drop 8 = rest := rfl
      rw [tail] at found
      cases found
      rw [← String.toList_inj, localRef, String.toList_append, String.toList_ofList, same]
  · cases found

/-! ## The pass -/

/-- A schema: its root dictionary, which nothing in it holds, and what it is built of. -/
structure SharedSchema where
  root : Dict String Slot
  heap : Heap

/-- The members of the document that a schema stands for. -/
def SharedSchema.document (fuel : Nat) (schema : SharedSchema) : Option (List (String × Document)) :=
  schema.heap.readMembers fuel schema.root

/-- The characters that `ensure_ascii` leaves as they are. -/
def isPlainAscii (c : Char) : Bool := ' ' ≤ c && c ≤ '~'

/-- `_schema_fingerprint`; absent if the definition does not end within the fuel. -/
def schemaFingerprint (heap : Heap) (fuel : Nat) (definition : Slot) : Option (List Char) :=
  (heap.read fuel definition).map (Document.sortedText isPlainAscii)

def rewriteRef (aliasByName : Dict String String) (value : Dict String Slot) : Dict String Slot :=
  match value.get? "$ref" with
  | some (.string ref) =>
      match localName ref with
      | none => value
      | some definitionName =>
          match aliasByName.get? definitionName with
          | none => value
          | some replacement => value.set "$ref" (.string (localRef replacement))
  | _ => value

/-- `_rewrite_local_defs_refs`. What a nested call returns is the value it was given. -/
def rewriteLocalDefsRefs (aliasByName : Dict String String) : Nat → Slot → Heap → Heap
  | fuel + 1, .container address, heap =>
      match heap[address]? with
      | none => heap
      | some (.list items) => items.foldl (fun heap item => rewriteLocalDefsRefs aliasByName fuel item heap) heap
      | some (.dict value) =>
          (rewriteRef aliasByName value).values.foldl (fun heap nested => rewriteLocalDefsRefs aliasByName fuel nested heap)
            (heap.set address (.dict (rewriteRef aliasByName value)))
  | _, _, heap => heap

/-- `_dedupe_defs_and_rewrite_local_refs`. -/
def dedupeDefsAndRewriteLocalRefs (fuel : Nat) (schema : SharedSchema) : Option SharedSchema :=
  match schema.root.get? "$defs" with
  | some (.container address) =>
      match schema.heap[address]? with
      | some (.dict defs) =>
          if defs.values.any fun definition => (schemaFingerprint schema.heap fuel definition).isNone then none
          else
            let merging := Merging.merge (schemaFingerprint schema.heap fuel) defs.entries
            if merging.aliasByName.entries.all fun entry => entry.1 = entry.2 then some schema
            else
              let root := rewriteRef merging.aliasByName schema.root
              let heap := root.values.foldl
                (fun heap nested => rewriteLocalDefsRefs merging.aliasByName fuel nested heap) schema.heap
              some ⟨root.set "$defs" (.container heap.length), heap ++ [.dict merging.kept]⟩
      | _ => some schema
  | _ => some schema

/-! ## What a document means -/

/-- The definitions of a document. -/
def definitions (members : List (String × Document)) : List (String × Document) :=
  match members.lookup "$defs" with
  | some (.object defs) => defs
  | _ => []

/-- The document without its definitions. -/
def withoutDefinitions (members : List (String × Document)) : Document :=
  .object (members.filter fun member => member.1 ≠ "$defs")

/-- The name that a member refers to, if it is a local reference. -/
def refName (key : String) : Document → Option String
  | .string text => if key = "$ref" then localName text else none
  | _ => none

def graftMember (target : String → Document) (member : String × Document) : String × Document :=
  (member.1, ((refName member.1 member.2).map target).getD member.2)

/-- The document in which the text of every local reference is replaced. -/
def graft (target : String → Document) : Document → Document :=
  Document.rebuild fun members => members.map (graftMember target)

/-- What stands for a reference that is not unfolded any more. -/
def hole : Document := .literal ⟨['n', 'u', 'l', 'l'], nofun, List.all_eq_true.mp rfl⟩

/-- The document with the local references unfolded to a depth: the text of a reference is
replaced by the definition, unfolded to the depth below. -/
def unfolded (defs : List (String × Document)) : Nat → Document → Document
  | 0 => graft fun _ => hole
  | depth + 1 => graft fun name =>
      match defs.lookup name with
      | some definition => unfolded defs depth definition
      | none => .string (localRef name)

/-- The schema that a document stands for, to a depth. -/
def unfolding (depth : Nat) (members : List (String × Document)) : Document :=
  unfolded (definitions members) depth (withoutDefinitions members)

/-- Some object of the document refers to a name. -/
def RefersTo (document : Document) (name : String) : Prop :=
  ∃ path members, document.at? path = some (.object members) ∧ members.lookup "$ref" = some (.string (localRef name))

/-- Every local reference names a definition. -/
def Resolves (members : List (String × Document)) : Prop :=
  ∀ name, RefersTo (.object members) name → ((definitions members).lookup name).isSome = true

/-- A schema is an object or a truth value. -/
def IsSchema : Document → Prop
  | .object _ => True
  | .literal token => token.chars = "true".toList ∨ token.chars = "false".toList
  | _ => False

/-! ## Renaming references -/

/-- Redirect the local references of a document. -/
def renameRef (rename : String → String) : TextChange := fun key text =>
  if key = "$ref" then
    match localName text with
    | some name => localRef (rename name)
    | none => text
  else text

section
variable {rename : String → String}

theorem renameRef_twice (twice : ∀ name, rename (rename name) = rename name) (key text : String) :
    renameRef rename key (renameRef rename key text) = renameRef rename key text := by
  unfold renameRef
  by_cases reference : key = "$ref"
  · simp only [if_pos reference]
    cases found : localName text with
    | none => simp only [found]
    | some name => simp only [localName_localRef, twice]
  · simp only [if_neg reference]

theorem refName_eq_some {key name : String} {document : Document} :
    refName key document = some name ↔ key = "$ref" ∧ document = .string (localRef name) := by
  constructor
  · intro found
    unfold refName at found
    split at found
    · split at found
      · next reference => exact ⟨reference, congrArg Document.string (eq_localRef found)⟩
      · cases found
    · cases found
  · rintro ⟨rfl, rfl⟩
    rw [refName, if_pos rfl, localName_localRef]

theorem refName_eq_of_shape (key : String) {document document' : Document} (same : document.shape = document'.shape) :
    refName key document = refName key document' := by
  cases document <;> cases document' <;> cases same <;> rfl

theorem shape_graft (target : String → Document) (document : Document) : (graft target document).shape = document.shape := by
  cases document <;> simp [graft, Document.shape]

theorem shape_onTexts (change : TextChange) (document : Document) : (document.onTexts change).shape = document.shape := by
  cases document <;> simp [Document.onTexts, Document.shape]

/-- A member that is no reference is renamed below only. -/
theorem onText_of_not_ref {key : String} {document : Document} (other : refName key document = none) :
    document.onText (renameRef rename key) = document := by
  cases document with
  | string text =>
      rw [Document.onText, renameRef]
      rw [refName] at other
      split
      · next reference =>
          rw [if_pos reference] at other
          rw [other]
      · rfl
  | _ => rfl

theorem onText_of_ref {key name : String} {document : Document} (reference : refName key document = some name) :
    document.onText (renameRef rename key) = .string (localRef (rename name)) := by
  obtain ⟨rfl, rfl⟩ := refName_eq_some.mp reference
  rw [Document.onText, renameRef, if_pos rfl, localName_localRef]

theorem lookup_onTexts (change : TextChange) (members : List (String × Document)) (key : String) :
    ((members.map fun member => (member.1, member.2.onTexts change)).map fun member =>
      (member.1, member.2.onText (change member.1))).lookup key =
      (members.lookup key).map fun value => (value.onTexts change).onText (change key) := by
  rw [List.map_map]
  exact Document.lookup_map members (fun key value => (value.onTexts change).onText (change key)) key

theorem lookup_graft (target : String → Document) (members : List (String × Document)) (key : String) :
    ((members.map fun member => (member.1, graft target member.2)).map (graftMember target)).lookup key =
      (members.lookup key).map fun value => ((refName key value).map target).getD (graft target value) := by
  rw [List.map_map]
  have each : (graftMember target ∘ fun member : String × Document => (member.1, graft target member.2)) =
      fun member => (member.1, ((refName member.1 member.2).map target).getD (graft target member.2)) := by
    funext member
    exact Prod.ext rfl (by rw [Function.comp_apply, graftMember, refName_eq_of_shape member.1 (shape_graft target member.2)])
  rw [each]
  exact Document.lookup_map members (fun key value => ((refName key value).map target).getD (graft target value)) key

/-- Grafting the same targets into a renamed document gives the same. -/
theorem same_graft {target target' : String → Document} (targets : ∀ name, (target name).Same (target' (rename name)))
    {document document' : Document} (renamed : document'.Same (document.onTexts (renameRef rename))) :
    (graft target document).Same (graft target' document') := by
  intro path
  induction path generalizing document document' with
  | nil =>
      rw [Document.probe_nil, Document.probe_nil, shape_graft, shape_graft, renamed.shape, shape_onTexts]
  | cons step path ih =>
      have shapes := renamed.shape.trans (shape_onTexts _ document)
      match document, document' with
      | .literal token, .literal token' => cases shapes; rfl
      | .string text, .string text' => cases shapes; rfl
      | .array items, .array items' =>
          cases step with
          | key name => simp [graft, Document.probe, Document.at?]
          | index i =>
              rw [Document.onTexts, Document.rebuild_array] at renamed
              have related := Document.Same.array_iff.mp renamed i
              rw [List.getElem?_map] at related
              rw [graft, graft, Document.rebuild_array, Document.rebuild_array, Document.probe_index,
                Document.probe_index, List.getElem?_map, List.getElem?_map]
              generalize items[i]? = found at related ⊢
              generalize items'[i]? = found' at related ⊢
              cases found with
              | none => cases related; rfl
              | some item =>
                  cases related with
                  | some same => exact ih same
      | .object members, .object members' =>
          cases step with
          | index i => simp [graft, Document.probe, Document.at?]
          | key name =>
              rw [Document.onTexts, Document.rebuild_object] at renamed
              have related := Document.Same.object_iff.mp renamed name
              rw [← Document.onTexts, lookup_onTexts] at related
              rw [graft, graft, Document.rebuild_object, Document.rebuild_object, Document.probe_key,
                Document.probe_key, ← graft, ← graft, lookup_graft, lookup_graft]
              generalize members.lookup name = found at related ⊢
              generalize members'.lookup name = found' at related ⊢
              cases found with
              | none => cases related; rfl
              | some value =>
                  cases related with
                  | @some value' _ same =>
                      rw [Option.map_some, Option.map_some, Option.bind_some, Option.bind_some]
                      dsimp only at same
                      have inner := refName_eq_of_shape name (shape_onTexts (renameRef rename) value)
                      cases reference : refName name value with
                      | some referred =>
                          rw [reference] at inner
                          rw [onText_of_ref inner] at same
                          have redirected : refName name value' = some (rename referred) :=
                            (refName_eq_of_shape name same.shape).trans (refName_eq_some.mpr ⟨(refName_eq_some.mp reference).1, rfl⟩)
                          rw [redirected]
                          exact targets referred path
                      | none =>
                          rw [reference] at inner
                          rw [onText_of_not_ref inner] at same
                          have other : refName name value' = none :=
                            (refName_eq_of_shape name same.shape).trans inner
                          rw [other]
                          exact ih same

end

/-! ## Unfolding -/

theorem same_onTexts_of_fixed {change : TextChange} (fixed : ∀ key text, change key text = text) (document : Document) :
    (document.onTexts change).Same document := by
  have inert (key : String) (document : Document) : document.onText (change key) = document := by
    cases document with
    | string text => exact congrArg Document.string (fixed key text)
    | _ => rfl
  intro path
  induction path generalizing document with
  | nil => rw [Document.probe_nil, Document.probe_nil, shape_onTexts]
  | cons step path ih =>
      cases document with
      | literal token => rw [Document.onTexts, Document.rebuild_literal]
      | string text => rw [Document.onTexts, Document.rebuild_string]
      | array items =>
          cases step with
          | key name => simp [Document.onTexts, Document.probe, Document.at?]
          | index i =>
              rw [Document.onTexts, Document.rebuild_array, Document.probe_index, Document.probe_index,
                List.getElem?_map, Option.bind_map]
              cases items[i]? with
              | none => rfl
              | some item => exact ih item
      | object members =>
          cases step with
          | index i => simp [Document.onTexts, Document.probe, Document.at?]
          | key name =>
              rw [Document.onTexts, Document.rebuild_object, Document.probe_key, Document.probe_key,
                ← Document.onTexts, lookup_onTexts, Option.bind_map]
              cases members.lookup name with
              | none => rfl
              | some value =>
                  rw [Option.bind_some, Function.comp_apply, inert, ih, Option.bind_some]

/-- Documents that are the same unfold to the same. -/
theorem unfolded_congr (defs : List (String × Document)) (depth : Nat) {document document' : Document}
    (same : document.Same document') : (unfolded defs depth document).Same (unfolded defs depth document') := by
  have fixed (key text : String) : renameRef id key text = text := by
    unfold renameRef
    split
    · cases found : localName text with
      | none => rfl
      | some name => exact (eq_localRef found).symm
    · rfl
  have renamed : document'.Same (document.onTexts (renameRef id)) :=
    same.symm.trans (same_onTexts_of_fixed fixed document).symm
  cases depth <;> exact @same_graft id _ _ (fun _ => .refl _) _ _ renamed

/-- Definitions that are redirected: every name leads to a definition that is the same,
and that is kept with its references redirected. -/
structure Redirected (rename : String → String) (defs defs' : List (String × Document)) : Prop where
  kept : ∀ name definition, defs.lookup name = some definition → ∃ winner, defs.lookup (rename name) = some winner ∧
    definition.Same winner ∧ defs'.lookup (rename name) = some (winner.onTexts (renameRef rename))
  other : ∀ name, defs.lookup name = none → rename name = name ∧ defs'.lookup name = none

/-- A redirected document unfolds to the same schema, to any depth. -/
theorem same_unfolded {rename : String → String} {defs defs' : List (String × Document)}
    (redirected : Redirected rename defs defs') (depth : Nat) {document document' : Document}
    (renamed : document'.Same (document.onTexts (renameRef rename))) :
    (unfolded defs depth document).Same (unfolded defs' depth document') := by
  induction depth generalizing document document' with
  | zero => exact @same_graft rename (fun _ => hole) (fun _ => hole) (fun _ => .refl _) _ _ renamed
  | succ depth ih =>
      refine same_graft (fun name => ?_) renamed
      cases found : defs.lookup name with
      | none =>
          obtain ⟨unmoved, absent⟩ := redirected.other name found
          rw [unmoved, absent]
          exact .refl _
      | some definition =>
          obtain ⟨winner, -, same, kept⟩ := redirected.kept name definition found
          rw [kept]
          exact (unfolded_congr defs depth same).trans (ih (.refl _))

/-! ## Rewriting in place -/

def winnerOf (aliasByName : Dict String String) (name : String) : String := (aliasByName.get? name).getD name

theorem setEntries_eq_map {V : Type} {key : String} {old new : V} {f : String → V → V} {entries : List (String × V)}
    (nodup : (entries.map Prod.fst).Nodup) (found : entries.lookup key = some old) (here : f key old = new)
    (other : ∀ name value, name ≠ key → f name value = value) :
    setEntries key new entries = entries.map fun entry => (entry.1, f entry.1 entry.2) := by
  induction entries with
  | nil => cases found
  | cons entry entries ih =>
      obtain ⟨absent, nodup⟩ := List.nodup_cons.mp nodup
      rw [lookup_cons_ite] at found
      rw [setEntries, List.map_cons]
      by_cases same : entry.1 = key
      · subst same
        rw [if_pos rfl] at found
        cases found
        have rest : entries.map (fun entry => (entry.1, f entry.1 entry.2)) = entries.map id :=
          List.map_congr_left fun later m => by
            rw [other later.1 later.2 fun again => absent (again ▸ List.mem_map_of_mem m)]
            rfl
        rw [if_pos rfl, here, rest, List.map_id]
      · rw [if_neg (Ne.symm same)] at found
        rw [if_neg same, ih nodup found, other entry.1 entry.2 same]

theorem mapValues_fixed {V : Type} {f : String → V → V} (value : Dict String V)
    (fixed : ∀ key slot, value.get? key = some slot → f key slot = slot) : value.mapValues f = value := by
  refine Dict.ext_entries ?_
  have each : value.entries.map (fun entry => (entry.1, f entry.1 entry.2)) = value.entries.map id :=
    List.map_congr_left fun entry m => by
      rw [fixed entry.1 entry.2 ((value.mem_entries _ _).mp m)]
      rfl
  exact each.trans (List.map_id _)

theorem rewriteRef_eq (aliasByName : Dict String String) (value : Dict String Slot) :
    rewriteRef aliasByName value =
      value.mapValues fun key slot => slot.onText (renameRef (winnerOf aliasByName) key) := by
  have apart (key : String) (slot : Slot) (other : key ≠ "$ref") :
      slot.onText (renameRef (winnerOf aliasByName) key) = slot := by
    cases slot with
    | string text => exact congrArg Slot.string (if_neg other)
    | _ => rfl
  have fixed (same : ∀ slot, value.get? "$ref" = some slot →
      slot.onText (renameRef (winnerOf aliasByName) "$ref") = slot) :
      value.mapValues (fun key slot => slot.onText (renameRef (winnerOf aliasByName) key)) = value :=
    mapValues_fixed value fun key slot found => by
      by_cases here : key = "$ref"
      · subst here
        exact same slot found
      · exact apart key slot here
  unfold rewriteRef
  split
  · next ref found =>
      split
      · next none =>
          refine (fixed fun slot found' => ?_).symm
          cases found.symm.trans found'
          rw [Slot.onText, renameRef, if_pos rfl, none]
      · next name local' =>
          split
          · next unmoved =>
              refine (fixed fun slot found' => ?_).symm
              cases found.symm.trans found'
              rw [Slot.onText, renameRef, if_pos rfl, local']
              dsimp only
              rw [winnerOf, unmoved, Option.getD_none, ← eq_localRef local']
          · next replacement moved =>
              refine Dict.ext_entries (setEntries_eq_map value.nodup found ?_ apart)
              rw [Slot.onText, renameRef, if_pos rfl, local']
              dsimp only
              rw [winnerOf, moved, Option.getD_some]
  · next other =>
      refine (fixed fun slot found => ?_).symm
      cases slot with
      | string text => exact absurd found (other text)
      | _ => rfl

theorem rewriteLocalDefsRefs_eq (aliasByName : Dict String String) (fuel : Nat) (slot : Slot) (heap : Heap) :
    rewriteLocalDefsRefs aliasByName fuel slot heap = visit (renameRef (winnerOf aliasByName)) fuel slot heap := by
  induction fuel generalizing slot heap with
  | zero => cases slot <;> rfl
  | succ fuel ih =>
      cases slot with
      | container address =>
          rw [rewriteLocalDefsRefs, visit]
          simp only [ih]
          cases at' : heap[address]? with
          | none => rfl
          | some cell =>
              cases cell with
              | dict value =>
                  dsimp only
                  rewrite [rewriteRef_eq]
                  rfl
              | list items =>
                  have unmoved : heap.set address (.list items) = heap := by
                    obtain ⟨inside, here⟩ := List.getElem?_eq_some_iff.mp at'
                    rw [← here, List.set_getElem_self]
                  simp only [Cell.onTexts, unmoved, Cell.slots]
      | _ => rfl

/-! ## Redirected documents -/

section
variable {rename : String → String}

theorem localRef_inj {name name' : String} (same : localRef name = localRef name') : name = name' := by
  have names := congrArg localName same
  rw [localName_localRef, localName_localRef] at names
  exact Option.some.inj names

/-- A redirected reference was a reference. -/
theorem ref_of_redirected {key name : String} {document : Document} (reference : key = "$ref")
    (redirected : (document.onTexts (renameRef rename)).onText (renameRef rename key) = .string (localRef name)) :
    ∃ old, document = .string (localRef old) ∧ rename old = name := by
  cases found : refName key document with
  | none =>
      have other : refName key (document.onTexts (renameRef rename)) = none :=
        (refName_eq_of_shape key (shape_onTexts _ document)).trans found
      rw [onText_of_not_ref other] at redirected
      rw [redirected, refName, if_pos reference, localName_localRef] at other
      cases other
  | some old =>
      have inner : refName key (document.onTexts (renameRef rename)) = some old :=
        (refName_eq_of_shape key (shape_onTexts _ document)).trans found
      rw [onText_of_ref inner] at redirected
      exact ⟨old, (refName_eq_some.mp found).2, localRef_inj (Document.string.inj redirected)⟩

theorem at_onText {f : String → String} {path : List Document.Step} {document : Document}
    {members : List (String × Document)} (found : (document.onText f).at? path = some (.object members)) :
    document.at? path = some (.object members) := by
  cases document with
  | string text =>
      match path with
      | [] | .key _ :: _ | .index _ :: _ => cases found
  | _ => exact found

/-- The objects of a changed document are the changed objects. -/
theorem at_onTexts {change : TextChange} {path : List Document.Step} {document : Document}
    {members : List (String × Document)} (found : (document.onTexts change).at? path = some (.object members)) :
    ∃ old, document.at? path = some (.object old) ∧ ∀ key,
      members.lookup key = (old.lookup key).map fun value => (value.onTexts change).onText (change key) := by
  induction path generalizing document with
  | nil =>
      cases document with
      | object old =>
          rw [Document.onTexts, Document.rebuild_object] at found
          cases found
          exact ⟨old, rfl, lookup_onTexts change old⟩
      | literal token => rw [Document.onTexts, Document.rebuild_literal] at found; cases found
      | string text => rw [Document.onTexts, Document.rebuild_string] at found; cases found
      | array items => rw [Document.onTexts, Document.rebuild_array] at found; cases found
  | cons step path ih =>
      cases document with
      | literal token => cases step <;> rw [Document.onTexts, Document.rebuild_literal] at found <;> cases found
      | string text => cases step <;> rw [Document.onTexts, Document.rebuild_string] at found <;> cases found
      | array items =>
          rw [Document.onTexts, Document.rebuild_array] at found
          cases step with
          | key name => cases found
          | index i =>
              rw [Document.at?, List.getElem?_map] at found
              cases item : items[i]? with
              | none => rw [item] at found; cases found
              | some document =>
                  rw [item, Option.map_some, Option.bind_some] at found
                  obtain ⟨old, at', lookups⟩ := ih found
                  exact ⟨old, by rw [Document.at?, item, Option.bind_some, at'], lookups⟩
      | object inner =>
          rw [Document.onTexts, Document.rebuild_object] at found
          cases step with
          | index i => cases found
          | key name =>
              rw [Document.at?, ← Document.onTexts, lookup_onTexts] at found
              cases value : inner.lookup name with
              | none => rw [value] at found; cases found
              | some document =>
                  rw [value, Option.map_some, Option.bind_some] at found
                  obtain ⟨old, at', lookups⟩ := ih (at_onText found)
                  exact ⟨old, by rw [Document.at?, value, Option.bind_some, at'], lookups⟩

/-- What a pass made of a document: every name leads to a kept definition, and the
definitions and references are redirected. -/
structure Rewritten (rename : String → String) (members members' values values' : List (String × Document)) : Prop where
  defs : members.lookup "$defs" = some (.object values)
  defs' : members'.lookup "$defs" = some (.object values')
  rest : ∀ key ≠ "$defs", members'.lookup key =
    (members.lookup key).map fun value => (value.onTexts (renameRef rename)).onText (renameRef rename key)
  redirected : Redirected rename values values'
  old : ∀ name definition, values'.lookup name = some definition →
    ∃ kept, values.lookup name = some kept ∧ definition = kept.onTexts (renameRef rename)

theorem Rewritten.definitions {members members' values values' : List (String × Document)}
    (rewritten : Rewritten rename members members' values values') :
    definitions members = values ∧ definitions members' = values' := by
  rw [Schemas.definitions, Schemas.definitions, rewritten.defs, rewritten.defs']
  exact ⟨rfl, rfl⟩

/-- Every reference of the rewritten document is one of the document, redirected. -/
theorem Rewritten.refersTo {members members' values values' : List (String × Document)}
    (rewritten : Rewritten rename members members' values values') (schemas : ∀ member ∈ values, IsSchema member.2)
    {name : String} (refers : RefersTo (.object members') name) :
    ∃ old, RefersTo (.object members) old ∧ rename old = name := by
  -- a reference below a redirected document is a redirected reference below the document
  have inside {path : List Document.Step} {document : Document} {inner : List (String × Document)}
      (at' : (document.onTexts (renameRef rename)).at? path = some (.object inner))
      (ref : inner.lookup "$ref" = some (.string (localRef name))) :
      ∃ old before, document.at? path = some (.object before) ∧
        before.lookup "$ref" = some (.string (localRef old)) ∧ rename old = name := by
    obtain ⟨before, found, lookups⟩ := at_onTexts at'
    rw [lookups, Option.map_eq_some_iff] at ref
    obtain ⟨value, held, redirected⟩ := ref
    obtain ⟨old, rfl, same⟩ := ref_of_redirected rfl redirected
    exact ⟨old, before, found, held, same⟩
  obtain ⟨path, inner, at', ref⟩ := refers
  cases path with
  | nil =>
      cases at'
      rw [rewritten.rest "$ref" (by decide), Option.map_eq_some_iff] at ref
      obtain ⟨value, held, redirected⟩ := ref
      obtain ⟨old, rfl, same⟩ := ref_of_redirected rfl redirected
      exact ⟨old, ⟨[], members, rfl, held⟩, same⟩
  | cons step path =>
      cases step with
      | index i => cases at'
      | key key =>
          rw [Document.at?] at at'
          obtain ⟨value, held, at'⟩ := Option.bind_eq_some_iff.mp at'
          by_cases here : key = "$defs"
          · subst here
            rw [rewritten.defs'] at held
            cases held
            cases path with
            | nil =>
                -- a definition is no text, so the definitions are no reference themselves
                cases at'
                obtain ⟨kept, found, same⟩ := rewritten.old "$ref" _ ref
                have shapes := congrArg Document.shape same
                rw [shape_onTexts] at shapes
                have schema := schemas _ (lookup_mem found)
                cases kept with
                | string text => exact False.elim schema
                | _ => cases shapes
            | cons step path =>
                cases step with
                | index i => cases at'
                | key winner =>
                    rw [Document.at?] at at'
                    obtain ⟨definition, held, at'⟩ := Option.bind_eq_some_iff.mp at'
                    obtain ⟨kept, found, rfl⟩ := rewritten.old winner definition held
                    obtain ⟨old, before, below, holds, same⟩ := inside at' ref
                    refine ⟨old, ⟨.key "$defs" :: .key winner :: path, before, ?_, holds⟩, same⟩
                    rw [Document.at?, rewritten.defs, Option.bind_some, Document.at?, found, Option.bind_some, below]
          · rw [rewritten.rest key here, Option.map_eq_some_iff] at held
            obtain ⟨document, held, rfl⟩ := held
            obtain ⟨old, before, below, holds, same⟩ := inside (at_onText at') ref
            refine ⟨old, ⟨.key key :: path, before, ?_, holds⟩, same⟩
            rw [Document.at?, held, Option.bind_some, below]

/-- The references of the rewritten document resolve. -/
theorem Rewritten.resolves {members members' values values' : List (String × Document)}
    (rewritten : Rewritten rename members members' values values') (schemas : ∀ member ∈ values, IsSchema member.2)
    (resolves : Resolves members) : Resolves members' := by
  intro name refers
  obtain ⟨old, before, rfl⟩ := rewritten.refersTo schemas refers
  have found := resolves old before
  rw [rewritten.definitions.1] at found
  obtain ⟨definition, found⟩ := Option.isSome_iff_exists.mp found
  obtain ⟨winner, -, -, kept⟩ := rewritten.redirected.kept old definition found
  rw [rewritten.definitions.2, kept]
  rfl

theorem lookup_withoutDefinitions (members : List (String × Document)) (key : String) :
    (members.filter fun member => member.1 ≠ "$defs").lookup key = if key = "$defs" then none else members.lookup key := by
  rw [lookup_filter fun key => decide (key ≠ "$defs")]
  by_cases here : key = "$defs" <;> simp [here]

/-- The rewritten document unfolds to the same schema. -/
theorem Rewritten.unfolding {members members' values values' : List (String × Document)}
    (rewritten : Rewritten rename members members' values values') (depth : Nat) :
    (unfolding depth members).Same (unfolding depth members') := by
  rw [Schemas.unfolding, Schemas.unfolding, rewritten.definitions.1, rewritten.definitions.2]
  refine same_unfolded rewritten.redirected depth ?_
  rw [withoutDefinitions, withoutDefinitions, Document.onTexts, Document.rebuild_object]
  refine Document.Same.object_iff.mpr fun key => ?_
  rw [← Document.onTexts, lookup_onTexts, lookup_withoutDefinitions, lookup_withoutDefinitions]
  by_cases here : key = "$defs"
  · rw [if_pos here, if_pos here]
    exact .none
  · rw [if_neg here, if_neg here, rewritten.rest key here]
    cases members.lookup key with
    | none => exact .none
    | some value => exact .some (.refl _)

end

/-! ## The pass rewrites its document -/

section
variable {schema : SharedSchema} {fuel : Nat} {members : List (String × Document)}

/-- What the definitions of a schema are: the dictionary, its fuel, and its documents. -/
structure HasDefinitions (schema : SharedSchema) (fuel : Nat) (members : List (String × Document)) (address : Address)
    (defs : Dict String Slot) (values : List (String × Document)) : Prop where
  found : schema.root.get? "$defs" = some (.container address)
  at' : schema.heap[address]? = some (.dict defs)
  documents : members.lookup "$defs" = some (.object values)
  positive : 0 < fuel
  read : schema.heap.readMembers (fuel - 1) defs = some values

theorem hasDefinitions {address : Address} {defs : Dict String Slot} (document : schema.document fuel = some members)
    (found : schema.root.get? "$defs" = some (.container address)) (at' : schema.heap[address]? = some (.dict defs)) :
    ∃ values, HasDefinitions schema fuel members address defs values := by
  have related := Heap.lookup_readMembers document "$defs"
  rw [found] at related
  cases held : members.lookup "$defs" with
  | none => rw [held] at related; cases related
  | some value =>
      rw [held] at related
      cases related with
      | some read =>
          cases fuel with
          | zero => cases read
          | succ fuel =>
              rcases Heap.read_container_iff.mp read with ⟨items, _, other, -⟩ | ⟨defs', values, same, read, rfl⟩
              · cases at'.symm.trans other
              · cases at'.symm.trans same
                exact ⟨values, found, at', held, Nat.succ_pos fuel, read⟩

/-- Without a dictionary of definitions there are none. -/
theorem definitions_of_none (document : schema.document fuel = some members)
    (none : ∀ (address : Address) (defs : Dict String Slot), schema.root.get? "$defs" = some (.container address) →
      schema.heap[address]? ≠ some (.dict defs)) : definitions members = [] := by
  have related := Heap.lookup_readMembers document "$defs"
  unfold definitions
  split
  · next defs held =>
      rw [held] at related
      cases found : schema.root.get? "$defs" with
      | none => rw [found] at related; cases related
      | some slot =>
          rw [found] at related
          cases related with
          | some read =>
              cases slot with
              | literal token => rw [Heap.read] at read; cases read
              | string text => rw [Heap.read] at read; cases read
              | container address =>
                  cases fuel with
                  | zero => cases read
                  | succ fuel =>
                      rcases Heap.read_container_iff.mp read with ⟨_, _, _, _, other⟩ | ⟨defs', _, at', -⟩
                      · cases other
                      · exact absurd at' (none address defs' found)
  · rfl

namespace HasDefinitions
variable {address : Address} {defs : Dict String Slot} {values : List (String × Document)}
  (has : HasDefinitions schema fuel members address defs values)
include has

/-- Each definition has a document, and its fingerprint is that of the document. -/
theorem definition {name : String} {slot : Slot} (m : (name, slot) ∈ defs.entries) :
    ∃ document, values.lookup name = some document ∧ schema.heap.read (fuel - 1) slot = some document ∧
      schemaFingerprint schema.heap fuel slot = some (document.sortedText isPlainAscii) := by
  have related := Heap.lookup_readMembers has.read name
  rw [(defs.mem_entries name slot).mp m] at related
  cases found : values.lookup name with
  | none => rw [found] at related; cases related
  | some document =>
      rw [found] at related
      cases related with
      | some read =>
          refine ⟨document, rfl, read, ?_⟩
          rw [schemaFingerprint, Heap.read_mono (Nat.sub_le fuel 1) (fun _ _ at' => at') read, Option.map_some]

theorem lookup_none_iff (name : String) : values.lookup name = none ↔ name ∉ defs.entries.map Prod.fst := by
  rw [lookup_eq_none, Heap.names_readMembers has.read]
  rfl

/-- A name of a definition is the name of an entry with its document. -/
theorem entry {name : String} {document : Document} (found : values.lookup name = some document) :
    ∃ slot, (name, slot) ∈ defs.entries ∧ schema.heap.read (fuel - 1) slot = some document := by
  have related := Heap.lookup_readMembers has.read name
  rw [found] at related
  cases held : defs.get? name with
  | none => rw [held] at related; cases related
  | some slot =>
      rw [held] at related
      cases related with
      | some read => exact ⟨slot, (defs.mem_entries name slot).mpr held, read⟩

/-- Two definitions have one fingerprint exactly if they are the same. -/
theorem fingerprint_eq_iff {name name' : String} {slot slot' : Slot} {document document' : Document}
    (m : (name, slot) ∈ defs.entries) (m' : (name', slot') ∈ defs.entries)
    (found : values.lookup name = some document) (found' : values.lookup name' = some document') :
    schemaFingerprint schema.heap fuel slot = schemaFingerprint schema.heap fuel slot' ↔ document.Same document' := by
  obtain ⟨_, found₁, read, print⟩ := has.definition m
  obtain ⟨_, found₂, read', print'⟩ := has.definition m'
  cases found.symm.trans found₁
  cases found'.symm.trans found₂
  rw [print, print', Option.some.injEq]
  exact Document.sortedText_eq_iff (Heap.read_distinct read) (Heap.read_distinct read')

end HasDefinitions

namespace HasDefinitions
variable {address : Address} {defs : Dict String Slot} {values : List (String × Document)}
  (has : HasDefinitions schema fuel members address defs values)

/-- What the definitions are merged to. -/
def merging (_ : HasDefinitions schema fuel members address defs values) : Merging String Slot (Option (List Char)) :=
  Merging.merge (schemaFingerprint schema.heap fuel) defs.entries

theorem merged : Merging.Merged (schemaFingerprint schema.heap fuel) defs.entries has.merging :=
  Merging.merged_merge _ defs.nodup

/-- The name that a name of a definition leads to. -/
def rename (name : String) : String := winnerOf has.merging.aliasByName name

theorem rename_eq {name : String} {slot : Slot} (m : (name, slot) ∈ defs.entries) :
    ∃ winner, has.merging.kept.get? (has.rename name) = some winner ∧ (has.rename name, winner) ∈ defs.entries ∧
      schemaFingerprint schema.heap fuel winner = schemaFingerprint schema.heap fuel slot := by
  obtain ⟨winner, value, leads, kept, same⟩ := has.merged.led _ m
  have renamed : has.rename name = winner := by rw [rename, winnerOf, leads, Option.getD_some]
  rw [renamed]
  exact ⟨value, kept, (has.merged.own _ _ kept).1, same⟩

theorem rename_of_none {name : String} (absent : values.lookup name = none) : has.rename name = name := by
  rw [rename, winnerOf, (has.merged.other name).mpr ((has.lookup_none_iff name).mp absent), Option.getD_none]

theorem rename_kept {name : String} {slot : Slot} (kept : has.merging.kept.get? name = some slot) :
    has.rename name = name := by
  rw [rename, winnerOf, (has.merged.own name slot kept).2, Option.getD_some]

theorem rename_twice (name : String) : has.rename (has.rename name) = has.rename name := by
  cases found : values.lookup name with
  | none => rw [has.rename_of_none found, has.rename_of_none found]
  | some document =>
      obtain ⟨slot, m, -⟩ := has.entry found
      obtain ⟨winner, kept, -⟩ := has.rename_eq m
      exact has.rename_kept kept

/-- Kept definitions are different. -/
theorem kept_different {name name' : String} {slot slot' : Slot} (kept : has.merging.kept.get? name = some slot)
    (kept' : has.merging.kept.get? name' = some slot') {document document' : Document}
    (found : values.lookup name = some document) (found' : values.lookup name' = some document')
    (same : document.Same document') : name = name' := by
  have print := (has.merged.prints _ name).mpr ⟨slot, kept, rfl⟩
  have print' := (has.merged.prints _ name').mpr ⟨slot', kept', rfl⟩
  have prints := (has.fingerprint_eq_iff (has.merged.own _ _ kept).1 (has.merged.own _ _ kept').1 found found').mpr same
  rw [prints] at print
  exact Option.some.inj (print.symm.trans print')

/-- In a heap where the definitions are changed, the kept ones read as the changed documents. -/
theorem read_kept {heap : Heap} {change : TextChange}
    (each : ∀ slot ∈ defs.values, ∀ document, schema.heap.read (fuel - 1) slot = some document →
      heap.read (fuel - 1) slot = some (document.onTexts change)) :
    ∃ values', heap.readMembers (fuel - 1) has.merging.kept = some values' ∧
      ∀ name, values'.lookup name =
        if (has.merging.kept.get? name).isSome then (values.lookup name).map (Document.onTexts change) else none := by
  have read {name : String} {slot : Slot} (kept : has.merging.kept.get? name = some slot) :
      ∃ document, values.lookup name = some document ∧ heap.read (fuel - 1) slot = some (document.onTexts change) := by
    have m := (has.merged.own _ _ kept).1
    obtain ⟨document, found, read, -⟩ := has.definition m
    exact ⟨document, found, each slot (List.mem_map_of_mem m) document read⟩
  obtain ⟨values', all⟩ := heap.exists_readMembers fun entry m => by
    obtain ⟨document, -, read⟩ := read ((has.merging.kept.mem_entries entry.1 entry.2).mp m)
    exact ⟨_, read⟩
  refine ⟨values', all, fun name => ?_⟩
  have related := Heap.lookup_readMembers all name
  cases kept : has.merging.kept.get? name with
  | none =>
      rw [kept] at related
      rw [Option.isSome_none, if_neg Bool.false_ne_true]
      generalize values'.lookup name = found at related ⊢
      cases related
      rfl
  | some slot =>
      obtain ⟨document, found, read⟩ := read kept
      rw [kept] at related
      rw [Option.isSome_some, if_pos rfl, found, Option.map_some]
      generalize values'.lookup name = found at related ⊢
      cases related with
      | some read' => exact read'.symm.trans read

theorem redirected {values' : List (String × Document)}
    (kept : ∀ name, values'.lookup name = if (has.merging.kept.get? name).isSome then
      (values.lookup name).map (Document.onTexts (renameRef has.rename)) else none) :
    Redirected has.rename values values' where
  kept name document found := by
    obtain ⟨slot, m, -⟩ := has.entry found
    obtain ⟨winner, held, m', prints⟩ := has.rename_eq m
    obtain ⟨document', found', -, -⟩ := has.definition m'
    refine ⟨document', found', ((has.fingerprint_eq_iff m' m found' found).mp prints).symm, ?_⟩
    rw [kept, held, Option.isSome_some, if_pos rfl, found', Option.map_some]
  other name absent := by
    refine ⟨has.rename_of_none absent, ?_⟩
    rw [kept, absent, Option.map_none, ite_self]

end HasDefinitions

/-- What the pass keeps of a document: its references resolve, the definitions that remain
were different before, and the references unfold to the same schema. -/
structure Deduplicated (members members' : List (String × Document)) : Prop where
  resolves : Resolves members'
  old : ∀ name, ((definitions members').lookup name).isSome = true → ((definitions members).lookup name).isSome = true
  different : ∀ name name' document document', ((definitions members').lookup name).isSome = true →
    ((definitions members').lookup name').isSome = true → (definitions members).lookup name = some document →
    (definitions members).lookup name' = some document' → document.Same document' → name = name'
  meaning : ∀ depth, (unfolding depth members).Same (unfolding depth members')

namespace HasDefinitions
variable {address : Address} {defs : Dict String Slot} {values : List (String × Document)}
  (has : HasDefinitions schema fuel members address defs values)

include has in
theorem definitions_eq : definitions members = values := by
  rw [definitions, has.documents]

/-- Where every name leads to itself, no two definitions are the same. -/
theorem unchanged (resolves : Resolves members)
    (own : has.merging.aliasByName.entries.all (fun entry => entry.1 = entry.2) = true) :
    Deduplicated members members where
  resolves := resolves
  old _ found := found
  different name name' document document' _ _ found found' same := by
    rw [has.definitions_eq] at found found'
    have kept {name : String} {document : Document} (found : values.lookup name = some document) :
        ∃ slot, has.merging.kept.get? name = some slot := by
      obtain ⟨slot, m, -⟩ := has.entry found
      obtain ⟨winner, value, leads, kept, -⟩ := has.merged.led _ m
      have self := List.all_eq_true.mp own _ ((has.merging.aliasByName.mem_entries name winner).mpr leads)
      have same : name = winner := of_decide_eq_true self
      rw [same]
      exact ⟨value, kept⟩
    obtain ⟨slot, held⟩ := kept found
    obtain ⟨slot', held'⟩ := kept found'
    exact has.kept_different held held' found found' same
  meaning _ := .refl _

/-- The rewritten schema reads as a document whose definitions are redirected. -/
theorem rewritten (document : schema.document fuel = some members) :
    let root := rewriteRef has.merging.aliasByName schema.root
    let heap := root.values.foldl
      (fun heap nested => rewriteLocalDefsRefs has.merging.aliasByName fuel nested heap) schema.heap
    ∃ members' values',
      SharedSchema.document fuel ⟨root.set "$defs" (.container heap.length), heap ++ [.dict has.merging.kept]⟩ =
        some members' ∧
      Rewritten has.rename members members' values values' ∧
      ∀ name, (values'.lookup name).isSome = true → ∃ slot, has.merging.kept.get? name = some slot := by
  dsimp only
  have renamed : renameRef (winnerOf has.merging.aliasByName) = renameRef has.rename := rfl
  simp only [rewriteRef_eq, rewriteLocalDefsRefs_eq, renamed]
  obtain ⟨addresses, visited, below, read⟩ :=
    readMembers_visited (renameRef_twice has.rename_twice) (show schema.heap.readMembers fuel schema.root = _ from document)
  rw [visited]
  generalize grown : schema.heap.changed (renameRef has.rename) addresses ++ [Cell.dict has.merging.kept] = heap
  have larger (address : Address) (cell : Cell)
      (at' : (schema.heap.changed (renameRef has.rename) addresses)[address]? = some cell) : heap[address]? = some cell :=
    grown ▸ Heap.getElem?_append_of_some at' _
  obtain ⟨depth, rfl⟩ := Nat.exists_eq_add_one.mpr has.positive
  -- the definitions are reached through the root, so each reads as its changed document
  have reached : ∀ slot ∈ defs.values, schema.heap.reached depth slot ⊆ addresses := by
    intro slot m inner n
    refine below _ ((schema.root.mem_values _).mpr ⟨"$defs", has.found⟩) ?_
    rw [Heap.reached, has.at']
    exact List.mem_cons_of_mem _ (List.mem_flatMap.mpr ⟨slot, m, n⟩)
  obtain ⟨values', readKept, lookups⟩ := @read_kept schema (depth + 1) members address defs values has heap
    (renameRef has.rename) fun slot m document found =>
      Heap.read_mono (Nat.le_refl _) larger (read_changed found (reached slot m))
  have container : heap.read (depth + 1)
      (.container (schema.heap.changed (renameRef has.rename) addresses).length) = some (.object values') := by
    refine Heap.read_container_iff.mpr (.inr ⟨has.merging.kept, values', ?_, readKept, rfl⟩)
    rw [← grown, List.getElem?_append_right (Nat.le_refl _), Nat.sub_self]
    rfl
  have unique : Relator.BiUnique (Eq : String → String → Prop) :=
    ⟨fun _ _ _ left right => left.trans right.symm, fun _ _ _ left right => left.symm.trans right⟩
  have entries := (Heap.readMembers_iff.mp read).imp fun entry value found =>
    (⟨found.1, Heap.read_mono (Nat.le_refl _) larger found.2⟩ :
      RelatedEntry Eq (fun slot document => heap.read (depth + 1) slot = some document) entry value)
  refine ⟨_, values', Heap.readMembers_iff.mpr (forall₂_setEntries unique entries rfl container), ⟨has.documents, ?_, ?_,
    has.redirected lookups, ?_⟩, ?_⟩
  · rw [lookup_setEntries, if_pos rfl]
  · intro key other
    rw [lookup_setEntries, if_neg other]
    exact Document.lookup_map members
      (fun key value => (value.onTexts (renameRef has.rename)).onText (renameRef has.rename key)) key
  · intro name definition found
    rw [lookups] at found
    split at found
    · obtain ⟨kept, old, rfl⟩ := Option.map_eq_some_iff.mp found
      exact ⟨kept, old, rfl⟩
    · cases found
  · intro name found
    rw [lookups] at found
    split at found
    · next kept => exact Option.isSome_iff_exists.mp kept
    · cases found

end HasDefinitions

/-- **Equal definitions are merged without changing what the schema means.** The document
may share parts and its definitions may refer to each other. -/
theorem dedupeDefsAndRewriteLocalRefs_deduplicated (document : schema.document fuel = some members)
    (schemas : ∀ member ∈ definitions members, IsSchema member.2) (resolves : Resolves members) :
    ∃ schema' members', dedupeDefsAndRewriteLocalRefs fuel schema = some schema' ∧
      schema'.document fuel = some members' ∧ Deduplicated members members' := by
  have nothing (none : definitions members = []) : Deduplicated members members :=
    ⟨resolves, fun _ found => found, fun _ _ _ _ found => (by rw [none] at found; cases found), fun _ => .refl _⟩
  unfold dedupeDefsAndRewriteLocalRefs
  split
  · next address found =>
      split
      · next defs at' =>
          obtain ⟨values, has⟩ := hasDefinitions document found at'
          have readable : (defs.values.any fun definition =>
              (schemaFingerprint schema.heap fuel definition).isNone) = false := by
            refine List.any_eq_false.mpr fun slot m => ?_
            obtain ⟨name, held⟩ := (defs.mem_values slot).mp m
            obtain ⟨_, -, -, print⟩ := has.definition ((defs.mem_entries name slot).mpr held)
            rw [print]
            exact Bool.false_ne_true
          rw [readable]
          dsimp only
          rw [if_neg Bool.false_ne_true]
          split
          · next own => exact ⟨schema, members, rfl, document, has.unchanged resolves own⟩
          · obtain ⟨members', values', read, rewritten, kept⟩ := has.rewritten document
            refine ⟨_, members', rfl, read, ?_⟩
            rw [has.definitions_eq] at schemas
            obtain ⟨old, new⟩ := rewritten.definitions
            refine ⟨rewritten.resolves schemas resolves, ?_, ?_, rewritten.unfolding⟩
            · rw [old, new]
              intro name held
              obtain ⟨definition, held⟩ := Option.isSome_iff_exists.mp held
              obtain ⟨before, found, -⟩ := rewritten.old name definition held
              rw [found]
              rfl
            · rw [old, new]
              intro name name' definition definition' held held' found found' same
              obtain ⟨slot, held⟩ := kept name held
              obtain ⟨slot', held'⟩ := kept name' held'
              exact has.kept_different held held' found found' same
      · next other =>
          refine ⟨schema, members, rfl, document, nothing (definitions_of_none document ?_)⟩
          intro address' defs same at'
          cases found.symm.trans same
          exact other defs at'
  · next other =>
      exact ⟨schema, members, rfl, document, nothing (definitions_of_none document fun address defs found =>
        absurd found (other address))⟩

end

/-! ## Listed references -/

mutual
/-- The names that a document refers to. -/
def localRefs : Document → List String
  | .literal _ => []
  | .string _ => []
  | .array items => itemRefs items
  | .object members => memberRefs members

def itemRefs : List Document → List String
  | [] => []
  | item :: items => localRefs item ++ itemRefs items

def memberRefs : List (String × Document) → List String
  | [] => []
  | (key, value) :: members => (refName key value).toList ++ localRefs value ++ memberRefs members
end

theorem localRefs_subset_items {items : List Document} {item : Document} (m : item ∈ items) :
    localRefs item ⊆ itemRefs items := by
  induction items with
  | nil => cases m
  | cons first items ih =>
      rw [itemRefs]
      rcases List.mem_cons.mp m with rfl | m
      · exact List.subset_append_left _ _
      · exact List.Subset.trans (ih m) (List.subset_append_right _ _)

theorem mem_memberRefs {members : List (String × Document)} {member : String × Document} (m : member ∈ members)
    {name : String} (refers : refName member.1 member.2 = some name ∨ name ∈ localRefs member.2) :
    name ∈ memberRefs members := by
  induction members with
  | nil => cases m
  | cons first members ih =>
      rw [memberRefs, List.mem_append, List.mem_append, Option.mem_toList]
      rcases List.mem_cons.mp m with rfl | m
      · exact .inl refers
      · exact .inr (ih m)

theorem RefersTo.mem_localRefs {document : Document} {name : String} (refers : RefersTo document name) :
    name ∈ localRefs document := by
  obtain ⟨path, members, at', ref⟩ := refers
  induction path generalizing document with
  | nil =>
      cases at'
      rw [localRefs]
      exact mem_memberRefs (lookup_mem ref) (.inl (refName_eq_some.mpr ⟨rfl, rfl⟩))
  | cons step path ih =>
      match document, step with
      | .object inner, .key key =>
          rw [Document.at?] at at'
          obtain ⟨value, held, at'⟩ := Option.bind_eq_some_iff.mp at'
          rw [localRefs]
          exact mem_memberRefs (lookup_mem held) (.inr (ih at'))
      | .array items, .index i =>
          rw [Document.at?] at at'
          obtain ⟨item, held, at'⟩ := Option.bind_eq_some_iff.mp at'
          rw [localRefs]
          exact localRefs_subset_items (List.mem_of_getElem? held) (ih at')
      | .literal _, .key _ | .literal _, .index _ | .string _, .key _ | .string _, .index _ | .array _, .key _
      | .object _, .index _ => cases at'

/-- Two equal definitions that refer to the second one through a shared dictionary. -/
def recursiveSchema : SharedSchema where
  root := .ofList [("item", .container 0), ("$defs", .container 3)]
  heap := [.dict (.ofList [("$ref", .string "#/$defs/B")]), .dict (.ofList [("next", .container 0)]),
    .dict (.ofList [("next", .container 0)]), .dict (.ofList [("A", .container 1), ("B", .container 2)])]

def recursiveMembers : List (String × Document) :=
  let reference := Document.object [("$ref", .string "#/$defs/B")]
  let definition := Document.object [("next", reference)]
  [("item", reference), ("$defs", .object [("A", definition), ("B", definition)])]

example : (dedupeDefsAndRewriteLocalRefs 3 recursiveSchema).map (fun schema => schema.heap.length) = some 5 := by decide

theorem dedupeDefsAndRewriteLocalRefs_deduplicated_recursive :
    ∃ schema' members', dedupeDefsAndRewriteLocalRefs 3 recursiveSchema = some schema' ∧
      schema'.document 3 = some members' ∧ Deduplicated recursiveMembers members' := by
  refine dedupeDefsAndRewriteLocalRefs_deduplicated rfl ?_ fun name refers => ?_
  · intro member m
    have both : definitions recursiveMembers = [("A", .object [("next", .object [("$ref", .string "#/$defs/B")])]),
      ("B", .object [("next", .object [("$ref", .string "#/$defs/B")])])] := rfl
    rw [both] at m
    rcases List.mem_cons.mp m with rfl | m
    · trivial
    · rw [List.mem_singleton.mp m]
      trivial
  · have names : localRefs (.object recursiveMembers) = ["B", "B", "B"] := by decide
    have m := refers.mem_localRefs
    rw [names] at m
    have same : name = "B" := by simpa using m
    rw [same]
    rfl

end I3x.Schemas

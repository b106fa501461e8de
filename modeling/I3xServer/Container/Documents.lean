import I3xServer.Container.Json
import Mathlib.Data.List.Sort

/-!
# Documents with literals

Two documents are the same if they agree along every path; the order of members does not
matter. Exactly then their texts with sorted members agree.
-/
namespace Container

/-- A character of a number, of `null` or of a truth value. -/
def isTokenChar (c : Char) : Bool := c.isAlphanum || c = '-' || c = '+' || c = '.'

/-- A number, `null` or a truth value, as it is written. -/
structure Token where
  chars : List Char
  filled : chars ≠ []
  plain : ∀ c ∈ chars, isTokenChar c = true

inductive Document where
  | literal (token : Token)
  | string (text : String)
  | array (items : List Document)
  | object (members : List (String × Document))

namespace Document

/-! ## Texts -/

section
variable (plain : Char → Bool)

mutual
def chars : Document → List Char
  | .literal token => token.chars
  | .string text => Json.quoted plain text
  | .array [] => ['[', ']']
  | .array (item :: items) => '[' :: (chars item ++ moreItems items)
  | .object [] => ['\x7b', '\x7d']
  | .object ((name, value) :: members) =>
      '\x7b' :: (Json.quoted plain name ++ ':' :: (chars value ++ moreMembers members))

def moreItems : List Document → List Char
  | [] => [']']
  | item :: items => ',' :: (chars item ++ moreItems items)

def moreMembers : List (String × Document) → List Char
  | [] => ['\x7d']
  | (name, value) :: members => ',' :: (Json.quoted plain name ++ ':' :: (chars value ++ moreMembers members))
end

end

/-- A text that no literal continues into. -/
def Ends (s : List Char) : Prop := ∀ c ∈ s.head?, isTokenChar c = false

theorem ends_items (plain : Char → Bool) (items : List Document) (s : List Char) : Ends (moreItems plain items ++ s) := by
  cases items <;> simp only [moreItems, Ends, List.cons_append, List.head?_cons, Option.mem_some_iff, forall_eq'] <;> rfl

theorem ends_members (plain : Char → Bool) (members : List (String × Document)) (s : List Char) :
    Ends (moreMembers plain members ++ s) := by
  cases members <;> simp only [moreMembers, Ends, List.cons_append, List.head?_cons, Option.mem_some_iff, forall_eq'] <;>
    rfl

theorem token_inj {token token' : Token} {s s' : List Char} (ends : Ends s) (ends' : Ends s')
    (same : token.chars ++ s = token'.chars ++ s') : token = token' ∧ s = s' := by
  have nothing {s : List Char} (ends : Ends s) : s.takeWhile isTokenChar = [] ∧ s.dropWhile isTokenChar = s := by
    cases s with
    | nil => exact ⟨rfl, rfl⟩
    | cons c s =>
        have stop := ends c rfl
        exact ⟨List.takeWhile_cons_of_neg (by simp [stop]), List.dropWhile_cons_of_neg (by simp [stop])⟩
  have taken := congrArg (List.takeWhile isTokenChar) same
  have dropped := congrArg (List.dropWhile isTokenChar) same
  rw [List.takeWhile_append_of_pos token.plain, List.takeWhile_append_of_pos token'.plain, (nothing ends).1,
    (nothing ends').1, List.append_nil, List.append_nil] at taken
  rw [List.dropWhile_append_of_pos token.plain, List.dropWhile_append_of_pos token'.plain, (nothing ends).2,
    (nothing ends').2] at dropped
  obtain ⟨chars, _, _⟩ := token
  cases taken
  exact ⟨rfl, dropped⟩

/-- The kind of document that a character starts. -/
def startKind (c : Char) : Nat :=
  if isTokenChar c then 0 else if c = '\x22' then 1 else if c = '[' then 2 else if c = '\x7b' then 3 else 4

def kind : Document → Nat
  | .literal _ => 0
  | .string _ => 1
  | .array _ => 2
  | .object _ => 3

theorem startKind_chars (plain : Char → Bool) (document : Document) :
    ∃ c rest, chars plain document = c :: rest ∧ startKind c = document.kind := by
  cases document with
  | literal token =>
      obtain ⟨written, filled, plain'⟩ := token
      cases written with
      | nil => exact absurd rfl filled
      | cons c rest => exact ⟨c, rest, by rw [chars], if_pos (plain' c List.mem_cons_self)⟩
  | string text => exact ⟨'\x22', _, by rw [chars, Json.quoted], rfl⟩
  | array items =>
      cases items with
      | nil => exact ⟨'[', _, by rw [chars], rfl⟩
      | cons item items => exact ⟨'[', _, by rw [chars], rfl⟩
  | object members =>
      cases members with
      | nil => exact ⟨'\x7b', _, by rw [chars], rfl⟩
      | cons member members => exact ⟨'\x7b', _, by rw [chars], rfl⟩

theorem kind_eq {plain : Char → Bool} {document document' : Document} {s s' : List Char}
    (same : chars plain document ++ s = chars plain document' ++ s') : document.kind = document'.kind := by
  obtain ⟨c, rest, shape, kind⟩ := startKind_chars plain document
  obtain ⟨c', rest', shape', kind'⟩ := startKind_chars plain document'
  rw [shape, shape', List.cons_append, List.cons_append] at same
  rw [← kind, ← kind', (List.cons.inj same).1]

theorem not_closing {plain : Char → Bool} {document : Document} {c : Char} {s s' : List Char} (closing : startKind c = 4)
    (same : chars plain document ++ s = c :: s') : False := by
  obtain ⟨c', rest, shape, kind⟩ := startKind_chars plain document
  rw [shape, List.cons_append] at same
  rw [(List.cons.inj same).1, closing] at kind
  cases document <;> cases kind

mutual
/-- Two texts agree only if the documents do, whatever follows. -/
theorem chars_inj {plain : Char → Bool} : ∀ (document document' : Document) {s s' : List Char}, Ends s → Ends s' →
    chars plain document ++ s = chars plain document' ++ s' → document = document' ∧ s = s'
  | .literal token, document', _, _, ends, ends', same => by
      have kinds := kind_eq same
      cases document' with
      | literal token' =>
          simp only [chars] at same
          obtain ⟨rfl, rest⟩ := token_inj ends ends' same
          exact ⟨rfl, rest⟩
      | _ => cases kinds
  | .string text, document', _, _, _, _, same => by
      have kinds := kind_eq same
      cases document' with
      | string text' =>
          simp only [chars] at same
          obtain ⟨rfl, rest⟩ := Json.quoted_inj same
          exact ⟨rfl, rest⟩
      | _ => cases kinds
  | .array items, document', _, _, _, _, same => by
      have kinds := kind_eq same
      cases document' with
      | array items' =>
          match items, items' with
          | [], [] => exact ⟨rfl, List.append_cancel_left same⟩
          | [], item' :: items' =>
              simp only [chars, List.cons_append, List.cons.injEq, true_and, List.append_assoc] at same
              exact (not_closing (by decide) same.symm).elim
          | item :: items, [] =>
              simp only [chars, List.cons_append, List.cons.injEq, true_and, List.append_assoc] at same
              exact (not_closing (by decide) same).elim
          | item :: items, item' :: items' =>
              simp only [chars, List.cons_append, List.cons.injEq, true_and, List.append_assoc] at same
              obtain ⟨rfl, later⟩ := chars_inj item item' (ends_items _ _ _) (ends_items _ _ _) same
              obtain ⟨rfl, rest⟩ := moreItems_inj items items' later
              exact ⟨rfl, rest⟩
      | _ => cases kinds
  | .object members, document', _, _, _, _, same => by
      have kinds := kind_eq same
      cases document' with
      | object members' =>
          match members, members' with
          | [], [] => exact ⟨rfl, List.append_cancel_left same⟩
          | [], (name', value') :: members' =>
              simp only [chars, Json.quoted, List.cons_append, List.cons.injEq, true_and] at same
              exact absurd same.1 (by decide)
          | (name, value) :: members, [] =>
              simp only [chars, Json.quoted, List.cons_append, List.cons.injEq, true_and] at same
              exact absurd same.1 (by decide)
          | (name, value) :: members, (name', value') :: members' =>
              simp only [chars, List.cons_append, List.cons.injEq, true_and, List.append_assoc] at same
              obtain ⟨rfl, after⟩ := Json.quoted_inj same
              obtain ⟨rfl, later⟩ :=
                chars_inj value value' (ends_members _ _ _) (ends_members _ _ _) (List.cons.inj after).2
              obtain ⟨rfl, rest⟩ := moreMembers_inj members members' later
              exact ⟨rfl, rest⟩
      | _ => cases kinds

theorem moreItems_inj {plain : Char → Bool} : ∀ (items items' : List Document) {s s' : List Char},
    moreItems plain items ++ s = moreItems plain items' ++ s' → items = items' ∧ s = s'
  | [], [], _, _, same => ⟨rfl, List.append_cancel_left same⟩
  | [], _ :: _, _, _, same => by
      simp only [moreItems, List.cons_append, List.cons.injEq] at same
      exact absurd same.1 (by decide)
  | _ :: _, [], _, _, same => by
      simp only [moreItems, List.cons_append, List.cons.injEq] at same
      exact absurd same.1 (by decide)
  | item :: items, item' :: items', _, _, same => by
      simp only [moreItems, List.cons_append, List.cons.injEq, true_and, List.append_assoc] at same
      obtain ⟨rfl, later⟩ := chars_inj item item' (ends_items _ _ _) (ends_items _ _ _) same
      obtain ⟨rfl, rest⟩ := moreItems_inj items items' later
      exact ⟨rfl, rest⟩

theorem moreMembers_inj {plain : Char → Bool} : ∀ (members members' : List (String × Document)) {s s' : List Char},
    moreMembers plain members ++ s = moreMembers plain members' ++ s' → members = members' ∧ s = s'
  | [], [], _, _, same => ⟨rfl, List.append_cancel_left same⟩
  | [], (_, _) :: _, _, _, same => by
      simp only [moreMembers, List.cons_append, List.cons.injEq] at same
      exact absurd same.1 (by decide)
  | (_, _) :: _, [], _, _, same => by
      simp only [moreMembers, List.cons_append, List.cons.injEq] at same
      exact absurd same.1 (by decide)
  | (name, value) :: members, (name', value') :: members', _, _, same => by
      simp only [moreMembers, List.cons_append, List.cons.injEq, true_and, List.append_assoc] at same
      obtain ⟨rfl, after⟩ := Json.quoted_inj same
      obtain ⟨rfl, later⟩ := chars_inj value value' (ends_members _ _ _) (ends_members _ _ _) (List.cons.inj after).2
      obtain ⟨rfl, rest⟩ := moreMembers_inj members members' later
      exact ⟨rfl, rest⟩
end

/-! ## Rebuilding -/

section
variable (onMembers : List (String × Document) → List (String × Document))

mutual
/-- Rebuild a document from the inside: the members of an object change once their
values are rebuilt. -/
def rebuild : Document → Document
  | .literal token => .literal token
  | .string text => .string text
  | .array items => .array (rebuildItems items)
  | .object members => .object (onMembers (rebuildMembers members))

def rebuildItems : List Document → List Document
  | [] => []
  | item :: items => rebuild item :: rebuildItems items

def rebuildMembers : List (String × Document) → List (String × Document)
  | [] => []
  | (name, value) :: members => (name, rebuild value) :: rebuildMembers members
end

theorem rebuildItems_eq (items : List Document) : rebuildItems onMembers items = items.map (rebuild onMembers) := by
  induction items with
  | nil => rfl
  | cons item items ih => exact congrArg (rebuild onMembers item :: ·) ih

theorem rebuildMembers_eq (members : List (String × Document)) :
    rebuildMembers onMembers members = members.map fun member => (member.1, rebuild onMembers member.2) := by
  induction members with
  | nil => rfl
  | cons member members ih => exact congrArg ((member.1, rebuild onMembers member.2) :: ·) ih

@[simp] theorem rebuild_literal (token : Token) : rebuild onMembers (.literal token) = .literal token := rfl

@[simp] theorem rebuild_string (text : String) : rebuild onMembers (.string text) = .string text := rfl

@[simp] theorem rebuild_array (items : List Document) :
    rebuild onMembers (.array items) = .array (items.map (rebuild onMembers)) :=
  congrArg array (rebuildItems_eq onMembers items)

@[simp] theorem rebuild_object (members : List (String × Document)) : rebuild onMembers (.object members) =
    .object (onMembers (members.map fun member => (member.1, rebuild onMembers member.2))) :=
  congrArg (fun rebuilt => object (onMembers rebuilt)) (rebuildMembers_eq onMembers members)

end

/-! ## Paths -/

inductive Step where
  | key (name : String)
  | index (i : Nat)
  deriving DecidableEq, Repr

/-- What a document has at a path. -/
def at? : List Step → Document → Option Document
  | [], document => some document
  | .key name :: path, .object members => (members.lookup name).bind (at? path)
  | .index i :: path, .array items => items[i]?.bind (at? path)
  | _ :: _, _ => none

/-- What is seen of a document without going into it. -/
inductive Shape where
  | literal (token : Token)
  | string (text : String)
  | array
  | object

def shape : Document → Shape
  | .literal token => .literal token
  | .string text => .string text
  | .array _ => .array
  | .object _ => .object

def probe (path : List Step) (document : Document) : Option Shape := (document.at? path).map shape

/-- Two documents are the same: along every path the same is seen. -/
def Same (document document' : Document) : Prop := ∀ path, document.probe path = document'.probe path

@[simp] theorem probe_nil (document : Document) : document.probe [] = some document.shape := rfl

@[simp] theorem probe_key (name : String) (path : List Step) (members : List (String × Document)) :
    (object members).probe (.key name :: path) = (members.lookup name).bind (probe path) :=
  Option.map_bind

@[simp] theorem probe_index (i : Nat) (path : List Step) (items : List Document) :
    (array items).probe (.index i :: path) = items[i]?.bind (probe path) :=
  Option.map_bind

namespace Same
variable {a b c : Document}

theorem refl (a : Document) : Same a a := fun _ => rfl

theorem symm (same : Same a b) : Same b a := fun path => (same path).symm

theorem trans (first : Same a b) (second : Same b c) : Same a c := fun path => (first path).trans (second path)

theorem shape (same : Same a b) : a.shape = b.shape := Option.some.inj (same [])

theorem of_binds {found found' : Option Document} (binds : ∀ path, found.bind (probe path) = found'.bind (probe path)) :
    Option.Rel Same found found' := by
  cases found with
  | none =>
      cases found' with
      | none => exact .none
      | some document' => cases binds []
  | some document =>
      cases found' with
      | none => cases binds []
      | some document' => exact .some binds

theorem binds {found found' : Option Document} (related : Option.Rel Same found found') (path : List Step) :
    found.bind (probe path) = found'.bind (probe path) := by
  cases related with
  | none => rfl
  | some same => exact same path

/-- Objects are the same if they have the same under each name. -/
theorem object_iff {members members' : List (String × Document)} :
    Same (.object members) (.object members') ↔
      ∀ name, Option.Rel Same (members.lookup name) (members'.lookup name) := by
  constructor
  · intro same name
    refine of_binds fun path => ?_
    rw [← probe_key, ← probe_key, same]
  · intro each path
    match path with
    | [] => rfl
    | .key name :: path => rw [probe_key, probe_key, binds (each name)]
    | .index i :: path => rfl

theorem array_iff {items items' : List Document} :
    Same (.array items) (.array items') ↔ ∀ i : Nat, Option.Rel Same items[i]? items'[i]? := by
  constructor
  · intro same i
    refine of_binds fun path => ?_
    rw [← probe_index, ← probe_index, same]
  · intro each path
    match path with
    | [] => rfl
    | .key name :: path => rfl
    | .index i :: path => rw [probe_index, probe_index, binds (each i)]

end Same

/-! ## Sorted members -/

/-- No object of the document has two members of one name. -/
def Distinct (document : Document) : Prop :=
  ∀ path members, document.at? path = some (.object members) → (members.map Prod.fst).Nodup

theorem Distinct.item {items : List Document} (distinct : Distinct (.array items)) {item : Document} (m : item ∈ items) :
    item.Distinct := by
  obtain ⟨i, found⟩ := List.mem_iff_getElem?.mp m
  intro path members at'
  refine distinct (.index i :: path) members ?_
  rw [at?, found, Option.bind_some, at']

theorem Distinct.members {members : List (String × Document)} (distinct : Distinct (.object members)) :
    (members.map Prod.fst).Nodup := distinct [] members rfl

theorem Distinct.member {members : List (String × Document)} (distinct : Distinct (.object members))
    {member : String × Document} (m : member ∈ members) : member.2.Distinct := by
  intro path inner at'
  refine distinct (.key member.1 :: path) inner ?_
  rw [at?, (lookup_eq_some _ distinct.members _ _).mpr m, Option.bind_some, at']

theorem Distinct.literal (token : Token) : Distinct (.literal token) := by
  intro path members at'
  match path with
  | [] | .key _ :: _ | .index _ :: _ => cases at'

theorem Distinct.string (text : String) : Distinct (.string text) := by
  intro path members at'
  match path with
  | [] | .key _ :: _ | .index _ :: _ => cases at'

theorem Distinct.array {items : List Document} (each : ∀ item ∈ items, item.Distinct) : Distinct (.array items) := by
  intro path members at'
  match path with
  | [] => cases at'
  | .key name :: path => cases at'
  | .index i :: path =>
      rw [at?] at at'
      obtain ⟨item, found, at'⟩ := Option.bind_eq_some_iff.mp at'
      exact each item (List.mem_of_getElem? found) path members at'

theorem Distinct.object {members : List (String × Document)} (nodup : (members.map Prod.fst).Nodup)
    (each : ∀ member ∈ members, member.2.Distinct) : Distinct (.object members) := by
  intro path inner at'
  match path with
  | [] => cases at'; exact nodup
  | .index i :: path => cases at'
  | .key name :: path =>
      rw [at?] at at'
      obtain ⟨value, found, at'⟩ := Option.bind_eq_some_iff.mp at'
      exact each _ (lookup_mem found) path inner at'

/-- `sorted(value.items(), key=...)` by the names. -/
def sortMembers (members : List (String × Document)) : List (String × Document) :=
  members.insertionSort fun a b => a.1 ≤ b.1

/-- The document with the members of every object sorted. -/
def normalize : Document → Document := rebuild sortMembers

/-- Sorting changes nothing that is found under a name. -/
theorem lookup_sortMembers (members : List (String × Document)) (name : String) :
    (sortMembers members).lookup name = members.lookup name := by
  have inserted (member : String × Document) (members : List (String × Document)) :
      (members.orderedInsert (fun a b => a.1 ≤ b.1) member).lookup name = (member :: members).lookup name := by
    induction members with
    | nil => rfl
    | cons first members ih =>
        rw [List.orderedInsert_cons]
        split
        · rfl
        · next above =>
            rw [lookup_cons_ite, ih, lookup_cons_ite, lookup_cons_ite member, lookup_cons_ite first]
            by_cases here : name = first.1
            · have apart : name ≠ member.1 := fun same => above (same ▸ here ▸ le_rfl)
              rw [if_pos here, if_neg apart, if_pos here]
            · rw [if_neg here, if_neg here]
  induction members with
  | nil => rfl
  | cons member members ih =>
      rw [sortMembers, List.insertionSort_cons, inserted, lookup_cons_ite, lookup_cons_ite member]
      rw [← sortMembers, ih]

theorem lookup_map (members : List (String × Document)) (f : String → Document → Document) (name : String) :
    (members.map fun member => (member.1, f member.1 member.2)).lookup name = (members.lookup name).map (f name) := by
  induction members with
  | nil => rfl
  | cons member members ih =>
      rw [List.map_cons, lookup_cons_ite, lookup_cons_ite, ih]
      split
      · next same => rw [Option.map_some, same]
      · rfl

theorem same_normalize (document : Document) : Same (normalize document) document := by
  intro path
  induction path generalizing document with
  | nil => cases document <;> simp [normalize, shape]
  | cons step path ih =>
      cases document with
      | literal token => rw [normalize, rebuild_literal]
      | string text => rw [normalize, rebuild_string]
      | array items =>
          rw [normalize, rebuild_array]
          cases step with
          | key name => rfl
          | index i =>
              rw [probe_index, probe_index, List.getElem?_map, Option.bind_map]
              cases items[i]? with
              | none => rfl
              | some item => exact ih item
      | object members =>
          rw [normalize, rebuild_object]
          cases step with
          | index i => rfl
          | key name =>
              rw [probe_key, probe_key, lookup_sortMembers, lookup_map members (fun _ => rebuild sortMembers), Option.bind_map]
              cases members.lookup name with
              | none => rfl
              | some value => exact ih value

theorem map_eq_of_related {f : Document → Document} {found found' : Option Document}
    (related : Option.Rel Same found found')
    (each : ∀ a ∈ found, ∀ a' ∈ found', Same a a' → f a = f a') : found.map f = found'.map f := by
  cases related with
  | none => rfl
  | some same => exact congrArg some (each _ rfl _ rfl same)

/-- Sorted members are determined by what is found under each name. -/
theorem sortMembers_eq {members members' : List (String × Document)} (nodup : (members.map Prod.fst).Nodup)
    (nodup' : (members'.map Prod.fst).Nodup) (agree : ∀ name, members.lookup name = members'.lookup name) :
    sortMembers members = sortMembers members' := by
  have inside {l l' : List (String × Document)} (distinct : (l.map Prod.fst).Nodup)
      (agree : ∀ name, l.lookup name = l'.lookup name) {member : String × Document} (m : member ∈ l) : member ∈ l' :=
    lookup_mem ((agree member.1).symm.trans ((lookup_eq_some _ distinct _ _).mpr m))
  have perm : members.Perm members' := by
    refine (List.perm_ext_iff_of_nodup (List.Nodup.of_map _ nodup) (List.Nodup.of_map _ nodup')).mpr fun member => ?_
    exact ⟨inside nodup agree, inside nodup' fun name => (agree name).symm⟩
  have sorted (l : List (String × Document)) : (sortMembers l).Pairwise fun a b => a.1 ≤ b.1 :=
    List.pairwise_insertionSort _ l
  have permuted : (sortMembers members).Perm (sortMembers members') :=
    (List.perm_insertionSort _ members).trans (perm.trans (List.perm_insertionSort _ members').symm)
  refine permuted.eq_of_pairwise (fun a b m n below above => ?_) (sorted members) (sorted members')
  have here : a ∈ members := (List.perm_insertionSort _ members).mem_iff.mp m
  have there : b ∈ members := perm.mem_iff.mpr ((List.perm_insertionSort _ members').mem_iff.mp n)
  have names : a.1 = b.1 := le_antisymm below above
  have values := (lookup_eq_some _ nodup _ _).mpr here
  rw [names, (lookup_eq_some _ nodup _ _).mpr there, Option.some.injEq] at values
  exact Prod.ext names values.symm

/-- Documents with distinct names are the same only if they agree once sorted. -/
theorem normalize_eq_of_same (document document' : Document) (distinct : document.Distinct)
    (distinct' : document'.Distinct) (same : Same document document') : normalize document = normalize document' := by
  have shapes := same.shape
  match document, document' with
  | .literal token, .literal token' => cases shapes; rfl
  | .string text, .string text' => cases shapes; rfl
  | .array items, .array items' =>
      rw [normalize, rebuild_array, rebuild_array]
      refine congrArg array (List.ext_getElem? fun i => ?_)
      rw [List.getElem?_map, List.getElem?_map]
      refine map_eq_of_related (Same.array_iff.mp same i) fun item m item' m' inner => ?_
      have inItems := List.mem_of_getElem? m
      exact normalize_eq_of_same item item' (distinct.item inItems) (distinct'.item (List.mem_of_getElem? m')) inner
  | .object members, .object members' =>
      rw [normalize, rebuild_object, rebuild_object]
      refine congrArg object (sortMembers_eq ?_ ?_ fun name => ?_)
      · rw [List.map_map]
        exact distinct.members
      · rw [List.map_map]
        exact distinct'.members
      · rw [lookup_map members (fun _ => rebuild sortMembers), lookup_map members' (fun _ => rebuild sortMembers)]
        refine map_eq_of_related (Same.object_iff.mp same name) fun value m value' m' inner => ?_
        have inMembers := lookup_mem m
        exact normalize_eq_of_same value value' (distinct.member inMembers) (distinct'.member (lookup_mem m')) inner
termination_by document
decreasing_by
  · have := List.sizeOf_lt_of_mem inItems
    simp only [Document.array.sizeOf_spec]
    omega
  · have := List.sizeOf_lt_of_mem inMembers
    simp only [Document.object.sizeOf_spec, Prod.mk.sizeOf_spec] at this ⊢
    omega

/-- The text of a document with sorted members, as `json.dumps` writes it. -/
def sortedText (plain : Char → Bool) (document : Document) : List Char := (normalize document).chars plain

/-- Sorted texts agree exactly for documents that are the same. -/
theorem sortedText_eq_iff {plain : Char → Bool} {document document' : Document} (distinct : document.Distinct)
    (distinct' : document'.Distinct) : sortedText plain document = sortedText plain document' ↔ Same document document' := by
  constructor
  · intro texts
    have ended : Ends [] := nofun
    have normal := (chars_inj (normalize document) (normalize document') ended ended (congrArg (· ++ []) texts)).1
    exact (same_normalize document).symm.trans (normal ▸ same_normalize document')
  · intro same
    rw [sortedText, sortedText, normalize_eq_of_same document document' distinct distinct' same]

end Document
end Container

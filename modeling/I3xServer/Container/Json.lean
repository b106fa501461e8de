import I3xServer.Container.Buckets
import Mathlib.Data.List.Sort
import Mathlib.Data.Nat.Digits.Lemmas
import Mathlib.Data.String.Basic

/-!
# JSON documents and their texts

A document can be read back from its text, whichever characters the encoder leaves
unescaped. Texts end where they end: what follows a document does not matter.
-/
namespace Container

inductive Json where
  | null
  | bool (value : Bool)
  | number (value : Nat)
  | string (text : String)
  | array (items : List Json)
  | object (members : List (String × Json))

namespace Json

/-! ## Characters -/

def shortEscape : Char → Option Char
  | '\x22' => some '\x22'
  | '\x5c' => some '\x5c'
  | '\n' => some 'n'
  | '\r' => some 'r'
  | '\t' => some 't'
  | '\x08' => some 'b'
  | '\x0c' => some 'f'
  | _ => none

def hexUnit (n : Nat) : List Char :=
  ['\x5c', 'u', Nat.digitChar (n / 4096), Nat.digitChar (n / 256 % 16), Nat.digitChar (n / 16 % 16),
    Nat.digitChar (n % 16)]

/-- A character inside a string: as it is if it is plain, else escaped by a letter
or by its code units. -/
def escape (plain : Char → Bool) (c : Char) : List Char :=
  match shortEscape c with
  | some letter => ['\x5c', letter]
  | none =>
      if plain c then [c]
      else if c.toNat < 0x10000 then hexUnit c.toNat
      else hexUnit (0xD800 + (c.toNat - 0x10000) / 0x400) ++ hexUnit (0xDC00 + (c.toNat - 0x10000) % 0x400)

def digitValue (c : Char) : Nat := if c.isDigit then c.toNat - 48 else c.toNat - 87

def unitValue (a b c d : Char) : Nat := digitValue a * 4096 + digitValue b * 256 + digitValue c * 16 + digitValue d

def unescape : Char → Option Char
  | 'n' => some '\n'
  | 'r' => some '\r'
  | 't' => some '\t'
  | 'b' => some '\x08'
  | 'f' => some '\x0c'
  | c => some c

/-- The character that an escaped text starts with, and what follows it. -/
def readChar : List Char → Option (Char × List Char)
  | '\x5c' :: 'u' :: a :: b :: c :: d :: rest =>
      if unitValue a b c d / 0x400 = 0x36 then
        match rest with
        | _ :: _ :: a' :: b' :: c' :: d' :: rest =>
            some (Char.ofNat (0x10000 + (unitValue a b c d - 0xD800) * 0x400 + (unitValue a' b' c' d' - 0xDC00)), rest)
        | _ => none
      else some (Char.ofNat (unitValue a b c d), rest)
  | '\x5c' :: letter :: rest => (unescape letter).map fun c => (c, rest)
  | c :: rest => some (c, rest)
  | [] => none

theorem digitValue_digitChar (n : Nat) (small : n < 16) : digitValue (Nat.digitChar n) = n := by
  have all : ∀ n < 16, digitValue (Nat.digitChar n) = n := by decide
  exact all n small

theorem unitValue_hexUnit {n : Nat} (small : n < 0x10000) :
    unitValue (Nat.digitChar (n / 4096)) (Nat.digitChar (n / 256 % 16)) (Nat.digitChar (n / 16 % 16))
      (Nat.digitChar (n % 16)) = n := by
  simp only [unitValue]
  rw [digitValue_digitChar _ (by omega), digitValue_digitChar _ (by omega), digitValue_digitChar _ (by omega),
    digitValue_digitChar _ (by omega)]
  omega

theorem readChar_unit {n : Nat} (small : n < 0x10000) (rest : List Char) (single : n / 0x400 ≠ 0x36) :
    readChar (hexUnit n ++ rest) = some (Char.ofNat n, rest) := by
  simp only [hexUnit, List.cons_append, List.nil_append, readChar, unitValue_hexUnit small, if_neg single]

theorem readChar_pair {n m : Nat} (high : n / 0x400 = 0x36) (small : m < 0x10000) (rest : List Char) :
    readChar (hexUnit n ++ hexUnit m ++ rest) = some (Char.ofNat (0x10000 + (n - 0xD800) * 0x400 + (m - 0xDC00)), rest) := by
  have small' : n < 0x10000 := by omega
  simp only [hexUnit, List.cons_append, List.nil_append, readChar, unitValue_hexUnit small', unitValue_hexUnit small,
    if_pos high]

theorem readChar_plain {c : Char} (apart : c ≠ '\x5c') (rest : List Char) : readChar (c :: rest) = some (c, rest) := by
  unfold readChar
  split
  · rename_i shape
    exact absurd (List.cons.inj shape).1 apart
  · rename_i shape
    exact absurd (List.cons.inj shape).1 apart
  · rename_i shape
    cases shape
    rfl
  · rename_i shape
    cases shape

theorem readChar_escape (plain : Char → Bool) (c : Char) (rest : List Char) :
    readChar (escape plain c ++ rest) = some (c, rest) := by
  unfold escape
  cases short : shortEscape c with
  | some letter =>
      unfold shortEscape at short
      split at short <;> cases short <;> rfl
  | none =>
      have apart : c ≠ '\x5c' := by
        rintro rfl
        cases short
      dsimp only
      split
      · exact readChar_plain apart rest
      · have range : c.toNat < 0xD800 ∨ 0xDFFF < c.toNat ∧ c.toNat < 0x110000 := c.valid
        split
        · rename_i small
          rw [readChar_unit small rest (by omega), Char.ofNat_toNat]
        · rename_i large
          rw [readChar_pair (by omega) (by omega)]
          have value : 0x10000 + (0xD800 + (c.toNat - 0x10000) / 0x400 - 0xD800) * 0x400 +
              (0xDC00 + (c.toNat - 0x10000) % 0x400 - 0xDC00) = c.toNat := by omega
          rw [value, Char.ofNat_toNat]

theorem escape_quote (plain : Char → Bool) : escape plain '\x22' = ['\x5c', '\x22'] := rfl

/-! ## Strings -/

def quoted (plain : Char → Bool) (text : String) : List Char :=
  '\x22' :: (text.toList.flatMap (escape plain) ++ ['\x22'])

theorem quoted_inj {plain : Char → Bool} {text text' : String} {s s' : List Char}
    (same : quoted plain text ++ s = quoted plain text' ++ s') : text = text' ∧ s = s' := by
  have inner : ∀ cs cs' : List Char, cs.flatMap (escape plain) ++ '\x22' :: s = cs'.flatMap (escape plain) ++ '\x22' :: s' →
      cs = cs' ∧ s = s' := by
    have stop (c : Char) (rest ending : List Char) (same : '\x22' :: ending = escape plain c ++ rest) : False := by
      have read := congrArg readChar same
      rw [readChar_escape, readChar_plain (by decide), Option.some.injEq, Prod.mk.injEq] at read
      obtain ⟨rfl, -⟩ := read
      rw [escape_quote] at same
      exact absurd (List.cons.inj same).1 (by decide)
    intro cs
    induction cs with
    | nil =>
        intro cs' same
        cases cs' with
        | nil => exact ⟨rfl, (List.cons.inj same).2⟩
        | cons c cs' =>
            rw [List.flatMap_cons, List.append_assoc] at same
            exact (stop _ _ _ same).elim
    | cons c cs ih =>
        intro cs' same
        rw [List.flatMap_cons, List.append_assoc] at same
        cases cs' with
        | nil => exact (stop _ _ _ same.symm).elim
        | cons c' cs' =>
            rw [List.flatMap_cons, List.append_assoc] at same
            have read := congrArg readChar same
            rw [readChar_escape, readChar_escape, Option.some.injEq, Prod.mk.injEq] at read
            obtain ⟨rfl, later⟩ := read
            obtain ⟨rfl, rest⟩ := ih cs' later
            exact ⟨rfl, rest⟩
  simp only [quoted, List.cons_append, List.append_assoc, List.nil_append, List.cons.injEq, true_and] at same
  obtain ⟨chars, rest⟩ := inner _ _ same
  exact ⟨String.toList_inj.mp chars, rest⟩

/-! ## Documents -/

section
variable (plain : Char → Bool)

mutual
def chars : Json → List Char
  | .null => ['n', 'u', 'l', 'l']
  | .bool true => ['t', 'r', 'u', 'e']
  | .bool false => ['f', 'a', 'l', 's', 'e']
  | .number value => Nat.toDigits 10 value
  | .string text => quoted plain text
  | .array [] => ['[', ']']
  | .array (item :: items) => '[' :: (chars item ++ moreItems items)
  | .object [] => ['\x7b', '\x7d']
  | .object ((name, value) :: members) => '\x7b' :: (quoted plain name ++ ':' :: (chars value ++ moreMembers members))

def moreItems : List Json → List Char
  | [] => [']']
  | item :: items => ',' :: (chars item ++ moreItems items)

def moreMembers : List (String × Json) → List Char
  | [] => ['\x7d']
  | (name, value) :: members => ',' :: (quoted plain name ++ ':' :: (chars value ++ moreMembers members))
end

end

/-- A text that no number continues into. -/
def Stops (s : List Char) : Prop := ∀ c ∈ s.head?, c.isDigit = false

theorem stops_items (plain : Char → Bool) (items : List Json) (s : List Char) : Stops (moreItems plain items ++ s) := by
  cases items <;> simp only [moreItems, Stops, List.cons_append, List.head?_cons, Option.mem_some_iff, forall_eq'] <;> rfl

theorem stops_members (plain : Char → Bool) (members : List (String × Json)) (s : List Char) :
    Stops (moreMembers plain members ++ s) := by
  cases members <;> simp only [moreMembers, Stops, List.cons_append, List.head?_cons, Option.mem_some_iff, forall_eq'] <;>
    rfl

theorem digits_inj {n m : Nat} {s s' : List Char} (stops : Stops s) (stops' : Stops s')
    (same : Nat.toDigits 10 n ++ s = Nat.toDigits 10 m ++ s') : n = m ∧ s = s' := by
  have digits (n : Nat) : ∀ c ∈ Nat.toDigits 10 n, c.isDigit = true := fun _ =>
    Nat.isDigit_of_mem_toDigits (by decide) (by decide)
  have nothing {s : List Char} (stops : Stops s) : s.takeWhile Char.isDigit = [] ∧ s.dropWhile Char.isDigit = s := by
    cases s with
    | nil => exact ⟨rfl, rfl⟩
    | cons c s =>
        have stop := stops c rfl
        exact ⟨List.takeWhile_cons_of_neg (by simp [stop]), List.dropWhile_cons_of_neg (by simp [stop])⟩
  have taken := congrArg (List.takeWhile Char.isDigit) same
  have dropped := congrArg (List.dropWhile Char.isDigit) same
  rw [List.takeWhile_append_of_pos (digits n), List.takeWhile_append_of_pos (digits m), (nothing stops).1,
    (nothing stops').1, List.append_nil, List.append_nil] at taken
  rw [List.dropWhile_append_of_pos (digits n), List.dropWhile_append_of_pos (digits m), (nothing stops).2,
    (nothing stops').2] at dropped
  refine ⟨?_, dropped⟩
  rw [← Nat.ofDigitChars_ten_toDigits (n := n), taken, Nat.ofDigitChars_ten_toDigits]

/-- The kind of document that a character starts. -/
def startKind (c : Char) : Nat :=
  if c.isDigit then 3
  else if c = 'n' then 0
  else if c = 't' then 1
  else if c = 'f' then 2
  else if c = '\x22' then 4
  else if c = '[' then 5
  else if c = '\x7b' then 6
  else 7

def kind : Json → Nat
  | .null => 0
  | .bool true => 1
  | .bool false => 2
  | .number _ => 3
  | .string _ => 4
  | .array _ => 5
  | .object _ => 6

theorem startKind_chars (plain : Char → Bool) (document : Json) :
    ∃ c rest, chars plain document = c :: rest ∧ startKind c = document.kind := by
  cases document with
  | null => exact ⟨'n', ['u', 'l', 'l'], by rw [chars], by decide⟩
  | bool value =>
      cases value with
      | false => exact ⟨'f', ['a', 'l', 's', 'e'], by rw [chars], by decide⟩
      | true => exact ⟨'t', ['r', 'u', 'e'], by rw [chars], by decide⟩
  | number value =>
      cases shape : Nat.toDigits 10 value with
      | nil => exact absurd shape Nat.toDigits_ne_nil
      | cons c rest =>
          have digit : c.isDigit = true := Nat.isDigit_of_mem_toDigits (n := value) (b := 10) (by decide) (by decide)
            (by rw [shape]; exact List.mem_cons_self)
          exact ⟨c, rest, by rw [chars, shape], if_pos digit⟩
  | string text => exact ⟨'\x22', _, by rw [chars, quoted], rfl⟩
  | array items =>
      cases items with
      | nil => exact ⟨'[', _, by rw [chars], rfl⟩
      | cons item items => exact ⟨'[', _, by rw [chars], rfl⟩
  | object members =>
      cases members with
      | nil => exact ⟨'\x7b', _, by rw [chars], rfl⟩
      | cons member members => exact ⟨'\x7b', _, by rw [chars], rfl⟩

theorem kind_eq {plain : Char → Bool} {document document' : Json} {s s' : List Char}
    (same : chars plain document ++ s = chars plain document' ++ s') : document.kind = document'.kind := by
  obtain ⟨c, rest, shape, kind⟩ := startKind_chars plain document
  obtain ⟨c', rest', shape', kind'⟩ := startKind_chars plain document'
  rw [shape, shape', List.cons_append, List.cons_append] at same
  rw [← kind, ← kind', (List.cons.inj same).1]

theorem not_closing {plain : Char → Bool} {document : Json} {c : Char} {s s' : List Char} (closing : startKind c = 7)
    (same : chars plain document ++ s = c :: s') : False := by
  obtain ⟨c', rest, shape, kind⟩ := startKind_chars plain document
  rw [shape, List.cons_append] at same
  rw [(List.cons.inj same).1, closing] at kind
  cases document with
  | bool value => cases value <;> cases kind
  | _ => cases kind

/-! ## Reading a document back -/

mutual
theorem chars_inj {plain : Char → Bool} : ∀ (document document' : Json) {s s' : List Char}, Stops s → Stops s' →
    chars plain document ++ s = chars plain document' ++ s' → document = document' ∧ s = s'
  | .null, document', _, _, _, _, same => by
      have kinds := kind_eq same
      cases document' with
      | null => exact ⟨rfl, List.append_cancel_left same⟩
      | bool value => cases value <;> cases kinds
      | _ => cases kinds
  | .bool value, document', _, _, _, _, same => by
      have kinds := kind_eq same
      cases document' with
      | bool value' =>
          have equal : value = value' := by cases value <;> cases value' <;> first | rfl | cases kinds
          subst equal
          exact ⟨rfl, List.append_cancel_left same⟩
      | _ => cases value <;> cases kinds
  | .number value, document', _, _, stops, stops', same => by
      have kinds := kind_eq same
      cases document' with
      | number value' =>
          simp only [chars] at same
          obtain ⟨rfl, rest⟩ := digits_inj stops stops' same
          exact ⟨rfl, rest⟩
      | bool value => cases value <;> cases kinds
      | _ => cases kinds
  | .string text, document', _, _, _, _, same => by
      have kinds := kind_eq same
      cases document' with
      | string text' =>
          simp only [chars] at same
          obtain ⟨rfl, rest⟩ := quoted_inj same
          exact ⟨rfl, rest⟩
      | bool value => cases value <;> cases kinds
      | _ => cases kinds
  | .array items, document', _, _, _, _, same => by
      have kinds := kind_eq same
      cases document' with
      | array items' =>
          match items, items' with
          | [], [] => exact ⟨rfl, List.append_cancel_left same⟩
          | [], item' :: items' =>
              simp only [chars, List.cons_append, List.cons.injEq, true_and, List.append_assoc] at same
              exact (not_closing (by decide) same.symm).elim
          | item :: items, [] =>
              simp only [chars, List.cons_append, List.cons.injEq, true_and, List.append_assoc] at same
              exact (not_closing (by decide) same).elim
          | item :: items, item' :: items' =>
              simp only [chars, List.cons_append, List.cons.injEq, true_and, List.append_assoc] at same
              obtain ⟨rfl, later⟩ := chars_inj item item' (stops_items _ _ _) (stops_items _ _ _) same
              obtain ⟨rfl, rest⟩ := moreItems_inj items items' later
              exact ⟨rfl, rest⟩
      | bool value => cases value <;> cases kinds
      | _ => cases kinds
  | .object members, document', _, _, _, _, same => by
      have kinds := kind_eq same
      cases document' with
      | object members' =>
          match members, members' with
          | [], [] => exact ⟨rfl, List.append_cancel_left same⟩
          | [], (name', value') :: members' =>
              simp only [chars, quoted, List.cons_append, List.cons.injEq, true_and] at same
              exact absurd same.1 (by decide)
          | (name, value) :: members, [] =>
              simp only [chars, quoted, List.cons_append, List.cons.injEq, true_and] at same
              exact absurd same.1 (by decide)
          | (name, value) :: members, (name', value') :: members' =>
              simp only [chars, List.cons_append, List.cons.injEq, true_and, List.append_assoc] at same
              obtain ⟨rfl, after⟩ := quoted_inj same
              obtain ⟨rfl, later⟩ :=
                chars_inj value value' (stops_members _ _ _) (stops_members _ _ _) (List.cons.inj after).2
              obtain ⟨rfl, rest⟩ := moreMembers_inj members members' later
              exact ⟨rfl, rest⟩
      | bool value => cases value <;> cases kinds
      | _ => cases kinds

theorem moreItems_inj {plain : Char → Bool} : ∀ (items items' : List Json) {s s' : List Char},
    moreItems plain items ++ s = moreItems plain items' ++ s' → items = items' ∧ s = s'
  | [], [], _, _, same => ⟨rfl, List.append_cancel_left same⟩
  | [], _ :: _, _, _, same => by
      simp only [moreItems, List.cons_append, List.cons.injEq] at same
      exact absurd same.1 (by decide)
  | _ :: _, [], _, _, same => by
      simp only [moreItems, List.cons_append, List.cons.injEq] at same
      exact absurd same.1 (by decide)
  | item :: items, item' :: items', _, _, same => by
      simp only [moreItems, List.cons_append, List.cons.injEq, true_and, List.append_assoc] at same
      obtain ⟨rfl, later⟩ := chars_inj item item' (stops_items _ _ _) (stops_items _ _ _) same
      obtain ⟨rfl, rest⟩ := moreItems_inj items items' later
      exact ⟨rfl, rest⟩

theorem moreMembers_inj {plain : Char → Bool} : ∀ (members members' : List (String × Json)) {s s' : List Char},
    moreMembers plain members ++ s = moreMembers plain members' ++ s' → members = members' ∧ s = s'
  | [], [], _, _, same => ⟨rfl, List.append_cancel_left same⟩
  | [], (_, _) :: _, _, _, same => by
      simp only [moreMembers, List.cons_append, List.cons.injEq] at same
      exact absurd same.1 (by decide)
  | (_, _) :: _, [], _, _, same => by
      simp only [moreMembers, List.cons_append, List.cons.injEq] at same
      exact absurd same.1 (by decide)
  | (name, value) :: members, (name', value') :: members', _, _, same => by
      simp only [moreMembers, List.cons_append, List.cons.injEq, true_and, List.append_assoc] at same
      obtain ⟨rfl, after⟩ := quoted_inj same
      obtain ⟨rfl, later⟩ := chars_inj value value' (stops_members _ _ _) (stops_members _ _ _) (List.cons.inj after).2
      obtain ⟨rfl, rest⟩ := moreMembers_inj members members' later
      exact ⟨rfl, rest⟩
end

/-! ## Lines -/

theorem newline_not_in_unit {n : Nat} (small : n < 0x10000) : '\n' ∉ hexUnit n := by
  have digit : ∀ n < 16, '\n' ≠ Nat.digitChar n := by decide
  simp only [hexUnit, List.mem_cons, List.not_mem_nil, or_false, not_or]
  exact ⟨by decide, by decide, digit _ (by omega), digit _ (by omega), digit _ (by omega), digit _ (by omega)⟩

theorem newline_not_in_escape (plain : Char → Bool) (c : Char) : '\n' ∉ escape plain c := by
  unfold escape
  cases short : shortEscape c with
  | some letter =>
      have visible : '\n' ≠ letter := by
        unfold shortEscape at short
        split at short <;> cases short <;> decide
      simp only [List.mem_cons, List.not_mem_nil, or_false, not_or]
      exact ⟨by decide, visible⟩
  | none =>
      have range : c.toNat < 0xD800 ∨ 0xDFFF < c.toNat ∧ c.toNat < 0x110000 := c.valid
      dsimp only
      split
      · intro m
        rw [← List.mem_singleton.mp m] at short
        cases short
      · split
        · exact newline_not_in_unit ‹_›
        · rw [List.mem_append, not_or]
          exact ⟨newline_not_in_unit (by omega), newline_not_in_unit (by omega)⟩

theorem newline_not_in_quoted (plain : Char → Bool) (text : String) : '\n' ∉ quoted plain text := by
  simp only [quoted, List.mem_cons, List.mem_append, List.mem_flatMap, List.not_mem_nil, or_false, not_or, not_exists,
    not_and]
  exact ⟨by decide, fun c _ => newline_not_in_escape plain c, by decide⟩

mutual
theorem newline_not_in_chars {plain : Char → Bool} : ∀ document : Json, '\n' ∉ chars plain document
  | .null => by
      rw [chars]
      decide
  | .bool value => by cases value <;> rw [chars] <;> decide
  | .number value => by
      rw [chars]
      intro m
      exact absurd (Nat.isDigit_of_mem_toDigits (by decide) (by decide) m) (by decide)
  | .string text => by
      rw [chars]
      exact newline_not_in_quoted plain text
  | .array [] => by
      rw [chars]
      decide
  | .array (item :: items) => by
      rw [chars, List.mem_cons, List.mem_append, not_or, not_or]
      exact ⟨by decide, newline_not_in_chars item, newline_not_in_items items⟩
  | .object [] => by
      rw [chars]
      decide
  | .object ((name, value) :: members) => by
      rw [chars, List.mem_cons, List.mem_append, List.mem_cons, List.mem_append, not_or, not_or, not_or, not_or]
      exact ⟨by decide, newline_not_in_quoted plain name, by decide, newline_not_in_chars value,
        newline_not_in_members members⟩

theorem newline_not_in_items {plain : Char → Bool} : ∀ items : List Json, '\n' ∉ moreItems plain items
  | [] => by
      rw [moreItems]
      decide
  | item :: items => by
      rw [moreItems, List.mem_cons, List.mem_append, not_or, not_or]
      exact ⟨by decide, newline_not_in_chars item, newline_not_in_items items⟩

theorem newline_not_in_members {plain : Char → Bool} : ∀ members : List (String × Json), '\n' ∉ moreMembers plain members
  | [] => by
      rw [moreMembers]
      decide
  | (name, value) :: members => by
      rw [moreMembers, List.mem_cons, List.mem_append, List.mem_cons, List.mem_append, not_or, not_or, not_or, not_or]
      exact ⟨by decide, newline_not_in_quoted plain name, by decide, newline_not_in_chars value,
        newline_not_in_members members⟩
end

/-- Documents on lines of their own, and a last one that may be encoded otherwise. -/
def lines (plain lastPlain : Char → Bool) (documents : List Json) (last : Json) : String :=
  String.ofList ((documents.flatMap fun document => chars plain document ++ ['\n']) ++ chars lastPlain last)

theorem chars_injective {plain : Char → Bool} {document document' : Json}
    (same : chars plain document = chars plain document') : document = document' := by
  have ends : chars plain document ++ [] = chars plain document' ++ [] := by rw [same]
  have stops : Stops [] := nofun
  exact (chars_inj document document' stops stops ends).1

/-- The documents can be read back from their lines. -/
theorem lines_inj {plain lastPlain : Char → Bool} {documents documents' : List Json} {last last' : Json}
    (same : lines plain lastPlain documents last = lines plain lastPlain documents' last') :
    documents = documents' ∧ last = last' := by
  rw [lines, lines, String.ofList_inj] at same
  induction documents generalizing documents' with
  | nil =>
      cases documents' with
      | nil => exact ⟨rfl, chars_injective same⟩
      | cons document' documents' =>
          have inside : '\n' ∈ chars lastPlain last := by
            rw [List.flatMap_nil, List.nil_append] at same
            simp [same]
          exact absurd inside (newline_not_in_chars last)
  | cons document documents ih =>
      cases documents' with
      | nil =>
          have inside : '\n' ∈ chars lastPlain last' := by
            rw [List.flatMap_nil, List.nil_append] at same
            simp [← same]
          exact absurd inside (newline_not_in_chars last')
      | cons document' documents' =>
          simp only [List.flatMap_cons, List.append_assoc, List.cons_append, List.nil_append] at same
          have until_newline (document : Json) : ∀ c ∈ chars plain document, decide (c ≠ '\n') = true := fun c m =>
            decide_eq_true fun newline => newline_not_in_chars document (newline ▸ m)
          have taken := congrArg (List.takeWhile fun c => decide (c ≠ '\n')) same
          have dropped := congrArg (List.dropWhile fun c => decide (c ≠ '\n')) same
          rw [List.takeWhile_append_of_pos (until_newline _), List.takeWhile_append_of_pos (until_newline _),
            List.takeWhile_cons_of_neg (by simp), List.takeWhile_cons_of_neg (by simp), List.append_nil,
            List.append_nil] at taken
          rw [List.dropWhile_append_of_pos (until_newline _), List.dropWhile_append_of_pos (until_newline _),
            List.dropWhile_cons_of_neg (by simp), List.dropWhile_cons_of_neg (by simp)] at dropped
          obtain ⟨rfl, final⟩ := ih (List.cons.inj dropped).2
          exact ⟨by rw [chars_injective taken], final⟩

/-! ## Values as documents -/

def strings (texts : List String) : Json := .array (texts.map .string)

def optional : Option String → Json
  | none => .null
  | some text => .string text

theorem strings_injective : Function.Injective strings := fun texts texts' same => by
  simp only [strings, array.injEq] at same
  exact List.map_injective_iff.mpr (fun _ _ => string.inj) same

theorem optional_injective : Function.Injective optional := by
  rintro (_ | text) (_ | text') same
  · rfl
  · cases same
  · cases same
  · rw [string.inj same]

/-- The members of an object that are there. -/
def present (members : List (String × Option Json)) : List (String × Json) :=
  members.filterMap fun member => member.2.map fun value => (member.1, value)

theorem present_inj {members members' : List (String × Option Json)} (names : members.map Prod.fst = members'.map Prod.fst)
    (nodup : (members.map Prod.fst).Nodup) (same : present members = present members') : members = members' := by
  have absent (name : String) (value : Json) (members : List (String × Option Json)) (fresh : name ∉ members.map Prod.fst) :
      (name, value) ∉ present members := by
    intro m
    obtain ⟨member, inside, made⟩ := List.mem_filterMap.mp m
    obtain ⟨_, -, eq⟩ := Option.map_eq_some_iff.mp made
    exact fresh (List.mem_map.mpr ⟨member, inside, congrArg Prod.fst eq⟩)
  induction members generalizing members' with
  | nil =>
      cases members' with
      | nil => rfl
      | cons _ _ => cases names
  | cons member members ih =>
      cases members' with
      | nil => cases names
      | cons member' members' =>
          obtain ⟨name, value⟩ := member
          obtain ⟨name', value'⟩ := member'
          obtain ⟨rfl, rest⟩ := List.cons.inj names
          obtain ⟨fresh, distinct⟩ := List.nodup_cons.mp nodup
          cases value with
          | none =>
              cases value' with
              | none => rw [ih rest distinct same]
              | some value' =>
                  have m : (name, value') ∈ present members := by
                    change present members = (name, value') :: present members' at same
                    rw [same]
                    exact List.mem_cons_self
                  exact absurd m (absent _ _ _ fresh)
          | some value =>
              cases value' with
              | none =>
                  have m : (name, value) ∈ present members' := by
                    change (name, value) :: present members = present members' at same
                    rw [← same]
                    exact List.mem_cons_self
                  exact absurd m (absent _ _ _ (rest ▸ fresh))
              | some value' =>
                  obtain ⟨head, tail⟩ := List.cons.inj same
                  rw [ih rest distinct tail, (Prod.mk.inj head).2]

/-- An object with its members in the order of their names. -/
def sortedObject (members : List (String × Json)) : Json :=
  .object (members.insertionSort fun member other => member.1 ≤ other.1)

/-- Sorted members are found under the same names as unsorted ones. -/
theorem lookup_of_sortedObject {members members' : List (String × Json)} (nodup : (members.map Prod.fst).Nodup)
    (nodup' : (members'.map Prod.fst).Nodup) (same : sortedObject members = sortedObject members') (name : String) :
    members.lookup name = members'.lookup name := by
  have perm : members.Perm members' := by
    have sorted := object.inj same
    exact (List.perm_insertionSort _ members).symm.trans (sorted ▸ List.perm_insertionSort _ members')
  ext value
  rw [lookup_eq_some _ nodup, lookup_eq_some _ nodup', perm.mem_iff]

/-- A dictionary as an object, its keys in order. -/
def dictObject {V : Type} (f : V → Json) (d : Dict String V) : Json := sortedObject (d.mapValues fun _ => f).entries

theorem get?_of_dictObject {V : Type} {f : V → Json} (injective : Function.Injective f) {d d' : Dict String V}
    (same : dictObject f d = dictObject f d') (name : String) : d.get? name = d'.get? name := by
  have found : (d.mapValues fun _ => f).get? name = (d'.mapValues fun _ => f).get? name :=
    lookup_of_sortedObject (d.mapValues fun _ => f).nodup (d'.mapValues fun _ => f).nodup same name
  rw [Dict.get?_mapValues, Dict.get?_mapValues] at found
  exact Option.map_injective injective found

end Json
end Container

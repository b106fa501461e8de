import I3xServer.Domain.Text
import I3xServer.Container.Dict

/-!
# Node ids as text

The two textual forms of a node id (`ns=2;s=a` and `nsu=uri;s=a`), and the
functions that expand, normalise and take them apart. The source matches them
with regular expressions, whose `.` excludes the line feed and whose `$` also
accepts the place before a final line feed.
-/
namespace I3x
open Container

/-- What the source asks of characters and of the standard library's parsers.
Stripping removes white space only, so text with a letter is never blank. -/
structure Unicode extends Text where
  isAlnum : Char → Bool
  isDigit : Char → Bool
  decimal : Char → Option Nat
  int : String → Option Int
  uuid : String → Option String
  strip_empty : strip "" = ""
  strip_letter : ∀ s c, c ∈ s.toList → c.isAlpha = true → strip s ≠ ""

namespace Unicode

/-- The number that decimal digits denote; absent where `int` raises. The
interpreter's limit on the number of digits is not modelled. -/
def digitsValue (decimal : Char → Option Nat) (digits : List Char) : Option Nat :=
  if digits = [] then none
  else (digits.mapM decimal).map fun values => values.foldl (fun n d => 10 * n + d) 0

def asciiDecimal (c : Char) : Option Nat := if c.isDigit then some (c.toNat - 48) else none

theorem asciiSpace_letter {c : Char} (letter : c.isAlpha = true) : Text.asciiSpace c = false := by
  change (decide ('A'.val ≤ c.val ∧ c.val ≤ 'Z'.val) || (decide ('a'.val ≤ c.val) && decide (c.val ≤ 'z'.val))) = true
    at letter
  simp only [Bool.or_eq_true, Bool.and_eq_true, decide_eq_true_eq, UInt32.le_iff_toNat_le] at letter
  simp only [Text.asciiSpace, Bool.or_eq_false_iff, Bool.and_eq_false_iff, decide_eq_false_iff_not,
    ← UInt32.toNat_inj, UInt32.le_iff_toNat_le]
  have bounds : 'A'.val.toNat = 65 ∧ 'Z'.val.toNat = 90 ∧ 'a'.val.toNat = 97 ∧ 'z'.val.toNat = 122 :=
    ⟨rfl, rfl, rfl, rfl⟩
  simp only [UInt32.reduceToNat] at letter ⊢
  omega

theorem dropWhile_keeps {c : Char} {cs : List Char} (m : c ∈ cs) (kept : Text.asciiSpace c = false) :
    c ∈ cs.dropWhile Text.asciiSpace := by
  induction cs with
  | nil => cases m
  | cons head rest ih =>
      rw [List.dropWhile_cons]
      split
      · rename_i space
        rcases List.mem_cons.mp m with rfl | later
        · rw [kept] at space
          cases space
        · exact ih later
      · exact m

def ascii : Unicode where
  toText := Text.ascii
  isAlnum := Char.isAlphanum
  isDigit := Char.isDigit
  decimal := asciiDecimal
  int s := (digitsValue asciiDecimal s.toList).map Int.ofNat
  uuid s := some s
  strip_empty := rfl
  strip_letter s c m letter := by
    intro blank
    have kept := asciiSpace_letter letter
    have inside := dropWhile_keeps (List.mem_reverse.mpr (dropWhile_keeps m kept)) kept
    have none := congrArg String.toList blank
    change (String.ofList _).toList = [] at none
    rw [String.toList_ofList, List.reverse_eq_nil_iff] at none
    rw [none] at inside
    cases inside

end Unicode

structure OpcUaNamespaceInfo where
  uri : String
  deriving DecidableEq, Repr

namespace NodeIds

/-- The text that `.*` followed by `$` matches. -/
def line (cs : List Char) : Option (List Char) :=
  match cs.dropWhile (· ≠ '\n') with
  | [] => some cs
  | ['\n'] => some (cs.takeWhile (· ≠ '\n'))
  | _ => none

/-- An identifier: one of the four kinds, an equals sign, and the text after it. -/
def identifier : List Char → Option (Char × List Char)
  | kind :: '=' :: rest => if kind ∈ ['i', 's', 'g', 'b'] then some (kind, rest) else none
  | _ => none

/-- The optional namespace index before an identifier, and the text behind it. -/
def namespaceIndex (unicode : Unicode) (cs : List Char) : Option (List Char) × List Char :=
  match cs with
  | 'n' :: 's' :: '=' :: rest =>
      match rest.dropWhile fun c => (unicode.decimal c).isSome with
      | ';' :: tail =>
          let digits := rest.takeWhile fun c => (unicode.decimal c).isSome
          if digits = [] then (none, cs) else (some digits, tail)
      | _ => (none, cs)
  | _ => (none, cs)

def isExpanded (nodeId : String) : Bool := "nsu=".toList.isPrefixOf nodeId.toList

def standardNamespace : String := "http://opcfoundation.org/UA/"

variable (unicode : Unicode) (namespaceInfos : List OpcUaNamespaceInfo)

def expandedNodeId (nodeId : String) : String :=
  if isExpanded nodeId then nodeId
  else
    let (indexText, rest) := namespaceIndex unicode nodeId.toList
    match identifier rest with
    | none => nodeId
    | some (kind, text) =>
        match line text with
        | none | some [] => nodeId
        | some body =>
            let written := String.ofList (kind :: '=' :: body)
            match (indexText.bind (Unicode.digitsValue unicode.decimal)).getD 0 with
            | 0 => "nsu=" ++ standardNamespace ++ ";" ++ written
            | index =>
                match namespaceInfos[index]? with
                | none => nodeId
                | some info =>
                    if info.uri = "" then nodeId else "nsu=" ++ info.uri ++ ";" ++ written

def namespaceUriFromExpandedNodeId (nodeId : String) : Option String :=
  match nodeId.toList with
  | 'n' :: 's' :: 'u' :: '=' :: rest =>
      match rest.takeWhile (· ≠ ';'), rest.dropWhile (· ≠ ';') with
      | [], _ | _, [] => none
      | uri, _ => some (String.ofList uri)
  | _ => none

/-- The namespace table as the builder keeps it: the indices with a uri. -/
def namespaceUriByIndex (index : Nat) : Option String :=
  (namespaceInfos[index]?).bind fun info => if info.uri = "" then none else some info.uri

/-- The canonical text of an identifier. It is absent for text that is no such
identifier; the error is that of `int` on digits that are not decimal. -/
def normalizeNodeIdentifier (kind : Char) (text : List Char) : Except String (Option String) :=
  if kind = 'i' then
    if text = [] ∨ ¬ text.all unicode.isDigit then .ok none
    else
      match Unicode.digitsValue unicode.decimal text with
      | none => .error (String.ofList text)
      | some value => .ok (if value ≤ 0xFFFFFFFF then some (toString value) else none)
  else if kind = 'g' then
    let brace := fun c : Char => c = '\x7b' || c = '\x7d'
    .ok (unicode.uuid (String.ofList ((text.dropWhile brace).reverse.dropWhile brace).reverse))
  else .ok (some (String.ofList text))

/-- An identifier up to the end of its line, as the source matches it. -/
def identifierLine (cs : List Char) : Option (Char × List Char) :=
  match identifier cs with
  | none => none
  | some (kind, rest) => (line rest).map fun text => (kind, text)

/-- The canonical form of a node id in either textual form. -/
def canonicalNodeId (namespaceUri : Nat → Option String) (nodeId : String) : Except String (Option String) :=
  let normalized := unicode.strip nodeId
  if isExpanded normalized then
    let rest := normalized.toList.drop 4
    let uri := rest.takeWhile (· ≠ ';')
    match rest.dropWhile (· ≠ ';') with
    | [] => .ok none
    | _ :: identifierText =>
        if uri = [] then .ok none
        else
          match identifierLine identifierText with
          | none => .ok none
          | some (kind, text) =>
              match normalizeNodeIdentifier unicode kind text with
              | .error literal => .error literal
              | .ok none => .ok none
              | .ok (some canonical) =>
                  .ok (some ("nsu=" ++ String.ofList uri ++ ";" ++ String.singleton kind ++ "=" ++ canonical))
  else
    let (indexText, rest) := namespaceIndex unicode normalized.toList
    match identifierLine rest with
    | none => .ok none
    | some (kind, text) =>
        let index := (indexText.bind (Unicode.digitsValue unicode.decimal)).getD 0
        match normalizeNodeIdentifier unicode kind text with
        | .error literal => .error literal
        | .ok none => .ok none
        | .ok (some canonical) =>
            let written := String.singleton kind ++ "=" ++ canonical
            match (if index = 0 then some standardNamespace else namespaceUri index) with
            | some uri => .ok (some ("nsu=" ++ uri ++ ";" ++ written))
            | none => .ok (some ("ns=" ++ toString index ++ ";" ++ written))

/-- The namespace that the text before the first semicolon names. -/
def resolveNamespaceUri (nodeId : String) : Option String :=
  match nodeId.toList.takeWhile (· ≠ ';') with
  | 'n' :: 's' :: '=' :: digits =>
      match unicode.int (String.ofList digits) with
      | some (.ofNat index) => namespaceUriByIndex namespaceInfos index
      | _ => none
  | prefixText =>
      if (identifier prefixText).isSome then namespaceUriByIndex namespaceInfos 0 else none

end NodeIds
end I3x

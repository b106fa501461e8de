import I3xServer.Domain.NodeIds

/-!
# Interpreters

The interpreter that the code runs on limits how many digits `int` reads.
-/
namespace I3x

/-- An interpreter: what it knows of characters, and how many digits `int` reads; any
number of them if the limit is zero. -/
structure Interpreter extends Unicode where
  maxStrDigits : Nat

namespace Interpreter
variable (interpreter : Interpreter)

def withinLimit (digits : List Char) : Bool :=
  interpreter.maxStrDigits = 0 || digits.length ≤ interpreter.maxStrDigits

/-- `int` on a text without sign, spaces and underscores. -/
def digitsValue (digits : List Char) : Option Nat :=
  if interpreter.withinLimit digits then Unicode.digitsValue interpreter.decimal digits else none

def normalizeNodeIdentifier (kind : Char) (text : List Char) : Except String (Option String) :=
  if kind = 'i' then
    if text = [] ∨ ¬ text.all interpreter.isDigit then .ok none
    else
      match interpreter.digitsValue text with
      | none => .error (String.ofList text)
      | some value => .ok (if value ≤ 0xFFFFFFFF then some (toString value) else none)
  else NodeIds.normalizeNodeIdentifier interpreter.toUnicode kind text

/-- The number that an optional namespace index denotes; absent where `int` fails. -/
def namespaceNumber : Option (List Char) → Option Nat
  | none => some 0
  | some digits => interpreter.digitsValue digits

def expandedNodeId (namespaceInfos : List OpcUaNamespaceInfo) (nodeId : String) : Except String String :=
  if NodeIds.isExpanded nodeId then .ok nodeId
  else
    let (indexText, rest) := NodeIds.namespaceIndex interpreter.toUnicode nodeId.toList
    match NodeIds.identifier rest with
    | none => .ok nodeId
    | some (kind, text) =>
        match NodeIds.line text with
        | none | some [] => .ok nodeId
        | some body =>
            let written := String.ofList (kind :: '=' :: body)
            match interpreter.namespaceNumber indexText with
            | none => .error (String.ofList (indexText.getD []))
            | some index =>
                if index = 0 then .ok ("nsu=" ++ NodeIds.standardNamespace ++ ";" ++ written)
                else
                  match namespaceInfos[index]? with
                  | none => .ok nodeId
                  | some info => .ok (if info.uri = "" then nodeId else "nsu=" ++ info.uri ++ ";" ++ written)

def canonicalNodeId (namespaceUri : Nat → Option String) (nodeId : String) : Except String (Option String) :=
  let normalized := interpreter.strip nodeId
  if NodeIds.isExpanded normalized then
    let rest := normalized.toList.drop 4
    let uri := rest.takeWhile (· ≠ ';')
    match rest.dropWhile (· ≠ ';') with
    | [] => .ok none
    | _ :: identifierText =>
        if uri = [] then .ok none
        else
          match NodeIds.identifierLine identifierText with
          | none => .ok none
          | some (kind, text) =>
              match interpreter.normalizeNodeIdentifier kind text with
              | .error literal => .error literal
              | .ok none => .ok none
              | .ok (some canonical) =>
                  .ok (some ("nsu=" ++ String.ofList uri ++ ";" ++ String.singleton kind ++ "=" ++ canonical))
  else
    let (indexText, rest) := NodeIds.namespaceIndex interpreter.toUnicode normalized.toList
    match NodeIds.identifierLine rest with
    | none => .ok none
    | some (kind, text) =>
        match interpreter.namespaceNumber indexText with
        | none => .ok none
        | some index =>
            match interpreter.normalizeNodeIdentifier kind text with
            | .error literal => .error literal
            | .ok none => .ok none
            | .ok (some canonical) =>
                let written := String.singleton kind ++ "=" ++ canonical
                match (if index = 0 then some NodeIds.standardNamespace else namespaceUri index) with
                | some uri => .ok (some ("nsu=" ++ uri ++ ";" ++ written))
                | none => .ok (some ("ns=" ++ toString index ++ ";" ++ written))

/-- The identifier that a trimmed node id ends in, if it has the form of one. -/
def identifierPart (normalized : String) : Option (Char × List Char) :=
  if NodeIds.isExpanded normalized then
    let rest := normalized.toList.drop 4
    match rest.dropWhile (· ≠ ';') with
    | [] => none
    | _ :: identifierText => if rest.takeWhile (· ≠ ';') = [] then none else NodeIds.identifierLine identifierText
  else
    let (indexText, rest) := NodeIds.namespaceIndex interpreter.toUnicode normalized.toList
    if indexText.all interpreter.withinLimit then NodeIds.identifierLine rest else none

/-- If a node id has a numeric identifier made of digits, they are decimal digits,
and no more of them than the limit allows. -/
def ReadsIdentifier (nodeId : String) : Prop :=
  ∀ digits, interpreter.identifierPart (interpreter.strip nodeId) = some ('i', digits) →
    digits ≠ [] → digits.all interpreter.isDigit = true →
      interpreter.withinLimit digits = true ∧ ∀ c ∈ digits, (interpreter.decimal c).isSome = true

end Interpreter

end I3x

import I3xServer.Container.JsonSchema
import Mathlib.Data.List.TakeWhile

/-!
# Type annotations, and how each is read

The annotations of structure fields come as classes, as parametrised types, as
forward references and as plain text. A reading names the one rule that applies,
in the order in which the code tries them, with what is left to be read.
-/
namespace I3x.Schemas
open Container

/-! ## Text -/

/-- White space as the source language's strings see it. -/
def isSpace (c : Char) : Bool :=
  (9 ≤ c.val && c.val ≤ 13) || (28 ≤ c.val && c.val ≤ 32) || c.val = 0x85 || c.val = 0xA0 || c.val = 0x1680 ||
    (0x2000 ≤ c.val && c.val ≤ 0x200A) || c.val = 0x2028 || c.val = 0x2029 || c.val = 0x202F || c.val = 0x205F ||
    c.val = 0x3000

def stripBy (p : Char → Bool) (text : Chars) : Chars :=
  ((text.dropWhile p).reverse.dropWhile p).reverse

def strip : Chars → Chars := stripBy isSpace

theorem mem_stripBy_of_kept {p : Char → Bool} {c : Char} {text : Chars} (kept : p c = false) (mem : c ∈ text) :
    c ∈ stripBy p text := by
  have remains : ∀ {l : Chars}, c ∈ l → c ∈ l.dropWhile p := by
    intro l inside
    rw [← List.takeWhile_append_dropWhile (p := p) (l := l), List.mem_append] at inside
    rcases inside with taken | left
    · rw [List.mem_takeWhile_imp taken] at kept
      cases kept
    · exact left
  exact List.mem_reverse.mpr (remains (List.mem_reverse.mpr (remains mem)))

/-- The characters of `strip("'\" ")`. -/
def isQuoteOrBlank (c : Char) : Bool := c.val = 39 || c.val = 34 || c.val = 32

def isQuote (c : Char) : Bool := c.val = 39 || c.val = 34

/-- Letters beyond ASCII stay as they are: folded, none of them becomes a letter of
one of the words that the code compares with. -/
def lower (text : Chars) : Chars := text.map Char.toLower

def dropStart (start text : Chars) : Chars :=
  if start.isPrefixOf text then text.drop start.length else text

def normalized (text : Chars) : Chars :=
  dropStart "collections.abc.".toList (dropStart "typing.".toList (strip (stripBy isQuoteOrBlank text)))

/-- `text[k:-1]` -/
def between (k : Nat) (text : Chars) : Chars := (text.drop k).dropLast

def enclosed (start : String) (text : Chars) : Bool :=
  start.toList.isPrefixOf (lower text) && "]".toList.isSuffixOf (lower text)

def parts (separator : Char) (text : Chars) : List Chars :=
  ((text.splitOn separator).map strip).filter (· ≠ [])

def lastPart (separator : Char) (text : Chars) : Chars := (text.splitOn separator).getLastD []

/-! ## Classes -/

abbrev ClassId := Nat

inductive Origin where
  | list
  | tuple
  | other
  deriving DecidableEq

/-- A union has at least two alternatives: of a single one, none is built. -/
inductive Annotation where
  | forwardRef (argument : Chars)
  | generic (origin : Origin) (args : List Annotation)
  | union (first second : Annotation) (others : List Annotation)
  | text (text : Chars)
  | type (class_ : ClassId)
  | other

/-- `value` is the member's value if that is an integer and no truth value. -/
structure EnumMember where
  name : Chars
  value : Option Int

/-- What a default, a default factory or an entry of a field's metadata hints at. -/
inductive HintToken where
  | text (token : Chars)
  | type (class_ : ClassId)
  /-- Another object: its name if it is callable and has one, and its class. -/
  | object (callableName : Option Chars) (class_ : ClassId)

/-- A value that a default factory produced, as far as a schema is derived from it. -/
inductive Produced where
  | none
  | boolean
  | integer
  | number
  | text
  | bytes
  | list (items : List Produced)
  | dataValue (value : Produced)
  | variant (value : Produced)
  /-- `typeId` is the expanded text of its type id. -/
  | extensionObject (class_ : ClassId) (typeId : Option Chars) (body : Produced) (fields : List (Chars × Produced))
  | mapping (entries : List (Chars × Produced))
  | structure (class_ : ClassId) (fields : List (Chars × Produced))
  /-- An enumeration member, or an object without fields. -/
  | opaqueObject (class_ : ClassId)

structure Field where
  name : Chars
  type : Annotation
  /-- What a textual annotation evaluates to in the module of its class, if to anything. -/
  evaluated : Option Annotation
  metadata : List HintToken
  default : Option HintToken
  defaultFactory : Option HintToken
  produced : Option Produced

structure ClassInfo where
  name : Chars
  module : Chars
  isStr : Bool := false
  isBool : Bool := false
  isInt : Bool := false
  isFloat : Bool := false
  isDatetime : Bool := false
  isArgument : Bool := false
  enumMembers : Option (List EnumMember) := none
  dataclassFields : Option (List Field) := none
  annotations : List (Chars × Annotation) := []
  /-- The `:vartype name: token` entries of the class's documentation. -/
  vartypes : List (Chars × Chars) := []
  /-- The textual entries of `ua_types`. -/
  uaTypes : List (Chars × Chars) := []

/-- The classes of the running interpreter and the names they are found under. An
empty name is bound nowhere, and neither is `None`, which the language reserves. -/
structure Runtime where
  info : ClassId → ClassInfo
  noneType : ClassId
  anyType : ClassId
  uaAttribute : Chars → Option ClassId
  /-- The first registered structure whose folded name is one of these. -/
  structureNamed : List Chars → Option ClassId
  importedAttribute : Chars → Chars → Option ClassId
  /-- The first class that the data type registries keep for a node id. -/
  dataTypeClass : Chars → Option ClassId
  blank_unbound : uaAttribute [] = none ∧ structureNamed [[]] = none
  none_unbound : uaAttribute "None".toList = none ∧ structureNamed ["none".toList] = none

def ClassInfo.isStructured (c : ClassInfo) : Bool := c.dataclassFields.isSome || !c.annotations.isEmpty

def ClassInfo.named (c : ClassInfo) (names : List String) : Bool :=
  names.any fun name => lower c.name = name.toList

def isStringAnnotationType (c : ClassInfo) : Bool :=
  c.isStr || c.named ["string", "chararray", "bytestring", "xmlelement", "qualifiedname"]

def isIntegerAnnotationType (c : ClassInfo) : Bool :=
  !c.isBool &&
    (c.isInt || c.named ["byte", "sbyte", "int16", "int32", "int64", "uint16", "uint32", "uint64", "uint128"])

def isNumberAnnotationType (c : ClassInfo) : Bool :=
  isIntegerAnnotationType c || c.isFloat || c.named ["float", "double", "decimal", "decimalstring"]

def isDatetimeAnnotationType (c : ClassInfo) : Bool := c.isDatetime || c.named ["datetime", "utctime"]

def isVariantAnnotationType (c : ClassInfo) : Bool := c.named ["variant", "basedatatype"]

/-! ## Readings -/

/-- A schema with one type, which lets no null in. -/
structure PlainSchema where
  type : JsonType
  format : Option Chars := none
  title : Option Chars := none
  not_null : type ≠ .null := by decide

def PlainSchema.schema (p : PlainSchema) : Schema :=
  { type := some (.one p.type), format := p.format, title := p.title }

def stringSchema : PlainSchema := { type := .string }

def dateTimeSchema : PlainSchema := { type := .string, format := some "date-time".toList }

def enumSchema (members : List EnumMember) : Schema :=
  let names := members.map (·.name)
  if members ≠ [] ∧ members.all (·.value.isSome) then
    { type := some (.one .integer), enum := some (members.filterMap (·.value.map .integer)),
      notes := [("x-opcua-enumNames".toList, names)] }
  else { type := some (.one .string), enum := some (names.map .text) }

inductive ClassReading where
  | plain (schema : PlainSchema)
  | enumeration (members : List EnumMember)
  | unconstrained
  | structured (schemaKey : Chars)

def schemaKey (source : String) (c : ClassInfo) : Chars :=
  source.toList ++ lower c.module ++ ".".toList ++ lower c.name

def readClass (c : ClassInfo) : ClassReading :=
  if isStringAnnotationType c then .plain stringSchema
  else if c.isBool then .plain { type := .boolean }
  else match c.enumMembers with
    | some members => .enumeration members
    | none =>
        if isIntegerAnnotationType c then .plain { type := .integer }
        else if isNumberAnnotationType c then .plain { type := .number }
        else if isDatetimeAnnotationType c then .plain dateTimeSchema
        else if isVariantAnnotationType c then .unconstrained
        else if c.isStructured then .structured (schemaKey "py-annotation:" c)
        else .plain stringSchema

inductive AnnotationReading where
  | text (text : Chars)
  | array (item : Annotation)
  | nullable (inner : Annotation)
  | type (class_ : ClassId)
  | plain (schema : PlainSchema)

variable (rt : Runtime)

def Annotation.isNone : Annotation → Bool
  | .type c => c = rt.noneType
  | _ => false

/-- Alternatives of which all but one are None make that one nullable. -/
def readArguments (args : List Annotation) : AnnotationReading :=
  match args.filter (!·.isNone rt) with
  | [inner] => if args.length = 1 then .plain stringSchema else .nullable inner
  | _ => .plain stringSchema

def annotationReading : Annotation → AnnotationReading
  | .forwardRef argument => if strip argument ≠ [] then .text argument else .plain stringSchema
  | .generic .other args => readArguments rt args
  | .generic _ args => .array (args.headD (.type rt.anyType))
  | .union first second others => readArguments rt (first :: second :: others)
  | .text text => .text text
  | .type c => .type c
  | .other => .plain stringSchema

def resolveStructureTypeByName (typeName : Chars) : Option ClassId :=
  let name := strip (stripBy (fun c => c.val = 39) typeName)
  let candidates :=
    name :: (if '.' ∈ name then [lastPart '.' name] else []) ++
      (if "ua.".toList.isPrefixOf (lower name) then [name.drop 3] else [])
  candidates.findSome? rt.uaAttribute <|> rt.structureNamed (candidates.map lower)

/-- The text is cut at its last dot. -/
def resolveTypeFromModulePath (typeName : Chars) : Option ClassId :=
  let path := strip (stripBy isQuoteOrBlank typeName)
  if '.' ∈ path then
    let name := lastPart '.' path
    rt.importedAttribute (path.take (path.length - name.length - 1)) name
  else none

inductive TextReading where
  | nullable (inner : Chars)
  | alternatives (texts : List Chars)
  | array (item : Chars)
  | plain (schema : PlainSchema)
  | unconstrained
  | enumeration (class_ : ClassId)
  | structured (schemaKey : Chars) (class_ : ClassId)

def isNoneName (part : Chars) : Bool := lower part = "none".toList || lower part = "nonetype".toList

/-- Alternatives of which all but one are None make that one nullable. -/
def readAlternatives (texts : List Chars) : TextReading :=
  match texts, texts.filter (!isNoneName ·) with
  | [part], _ => .alternatives [part]
  | _, [part] => .nullable part
  | texts, _ => .alternatives texts

/-- The text is cut at every bar, also at those inside brackets. -/
def readBars (text : Chars) : Option TextReading :=
  if '|' ∈ text ∧ parts '|' text ≠ [] then some (readAlternatives (parts '|' text)) else none

def readOptional (text : Chars) : Option TextReading :=
  if enclosed "optional[" text then some (.nullable (between 9 text)) else none

def readUnion (text : Chars) : Option TextReading :=
  if enclosed "union[" text then
    match parts ',' (between 6 text) with
    | [] => none
    | texts => some (.alternatives texts)
  else none

def readArray (text : Chars) : Option TextReading :=
  if "[]".toList.isSuffixOf (lower text) then some (.array (text.dropLast.dropLast))
  else if enclosed "list[" text then some (.array (between 5 text))
  else if enclosed "sequence[" text then some (.array (between 9 text))
  else none

def scalarMap : List (String × TextReading) :=
  [("ua.string", .plain stringSchema), ("string", .plain stringSchema),
    ("ua.euinformation", .plain { type := .object }), ("euinformation", .plain { type := .object }),
    ("ua.basedatatype", .unconstrained), ("basedatatype", .unconstrained),
    ("ua.boolean", .plain { type := .boolean }), ("boolean", .plain { type := .boolean }),
    ("bool", .plain { type := .boolean }), ("ua.byte", .plain { type := .integer }),
    ("ua.sbyte", .plain { type := .integer }), ("ua.int16", .plain { type := .integer }),
    ("ua.int32", .plain { type := .integer }), ("ua.int64", .plain { type := .integer }),
    ("ua.uint16", .plain { type := .integer }), ("ua.uint32", .plain { type := .integer }),
    ("ua.uint64", .plain { type := .integer }), ("ua.double", .plain { type := .number }),
    ("ua.float", .plain { type := .number }), ("ua.datetime", .plain dateTimeSchema),
    ("datetime", .plain dateTimeSchema)]

def readScalar (text : Chars) : Option TextReading :=
  (scalarMap.find? fun entry => entry.1.toList = lower text).map (·.2)

def readStructure (text : Chars) : Option TextReading :=
  (resolveStructureTypeByName rt text).bind fun c =>
    if (rt.info c).enumMembers.isSome then some (.enumeration c)
    else if (rt.info c).isStructured then some (.structured (schemaKey "ua-annotation:" (rt.info c)) c)
    else none

def readImported (text : Chars) : Option TextReading :=
  (resolveTypeFromModulePath rt text).bind fun c =>
    if (rt.info c).isStructured then some (.structured (schemaKey "module-annotation:" (rt.info c)) c) else none

def readUnresolved (text : Chars) : TextReading :=
  let simpleName := lastPart '.' text
  if "datatype".toList.isSuffixOf (lower simpleName) then .plain { type := .object, title := some simpleName }
  else .plain stringSchema

/-- The rules for a text, in their order. -/
def readNormalized (text : Chars) : TextReading :=
  (readBars text <|> readOptional text <|> readUnion text <|> readArray text <|> readScalar text <|>
    readStructure rt text <|> readImported rt text).getD (readUnresolved text)

def readText (text : Chars) : TextReading := readNormalized rt (normalized text)

end I3x.Schemas

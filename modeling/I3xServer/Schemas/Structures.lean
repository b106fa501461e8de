import I3xServer.Container.Attempt
import I3xServer.Container.Dict
import I3xServer.Schemas.Annotations
import Mathlib.Data.Char
import Mathlib.Data.List.Lex

/-!
# Schemas of annotations, and the definitions they refer to

A structure becomes a reference to a definition that the registry keeps, written
once and found again under the structure's key. Reading the fields of a structure
leads to annotations again; `readers` cuts that recursion off at a depth, as the
interpreter does.
-/
namespace I3x.Schemas
open Container

/-! ## The registry -/

/-- A definition describes an object, whatever else it says. -/
structure ObjectDefinition where
  title : Chars
  properties : List (Chars × Schema)
  required : List Chars := []
  oneOf : Option (List Schema) := none
  notes : List (Chars × List Chars) := []

def ObjectDefinition.schema (d : ObjectDefinition) : Schema :=
  { type := some (.one .object), title := some d.title, properties := d.properties, required := d.required,
    additionalProperties := false, oneOf := d.oneOf, notes := d.notes }

structure SchemaRegistry where
  defs : Dict Chars ObjectDefinition := .empty
  definitionByKey : Dict Chars Chars := .empty
  usedDefinitionNames : List Chars := []

abbrev Registering := Attempt SchemaRegistry

abbrev Notes := List (Chars × List Chars)

def setNote (notes : Notes) (note : Chars × List Chars) : Notes :=
  if notes.any (·.1 = note.1) then notes.map fun n => if n.1 = note.1 then note else n else notes ++ [note]

def setDefaultNote (notes : Notes) (note : Chars × List Chars) : Notes :=
  if notes.any (·.1 = note.1) then notes else notes ++ [note]

namespace SchemaRegistry
variable (registry : SchemaRegistry)

def has (key : Chars) : Bool := (registry.definitionByKey.get? key).isSome

def definitionNameFor (key : Chars) : Chars := (registry.definitionByKey.get? key).getD []

def refFor (key : Chars) : Schema := { ref := some ("#/$defs/".toList ++ registry.definitionNameFor key) }

def reserve (key name : Chars) : SchemaRegistry :=
  { registry with
    definitionByKey := registry.definitionByKey.set key name
    usedDefinitionNames := name :: registry.usedDefinitionNames }

def setDefinition (name : Chars) (definition : ObjectDefinition) : SchemaRegistry :=
  { registry with defs := registry.defs.set name definition }

/-- What a reference leads to. -/
def definition (ref : Chars) : Option Schema :=
  if "#/$defs/".toList.isPrefixOf ref then (registry.defs.get? (ref.drop 8)).map (·.schema) else none

end SchemaRegistry

def collapseUnderscores : Chars → Chars
  | '_' :: '_' :: text => collapseUnderscores ('_' :: text)
  | c :: text => c :: collapseUnderscores text
  | [] => []

def safeDefinitionName (rawName : Chars) : Chars :=
  let replaced := rawName.map fun c => if c.isAlphanum || c = '_' then c else '_'
  match stripBy (· = '_') (collapseUnderscores replaced) with
  | [] => "Definition".toList
  | c :: cleaned => if c.isDigit then "D_".toList ++ c :: cleaned else c :: cleaned

/-- The base name, else the first of its numbered forms that is not in use. -/
def freeName (used : List Chars) (base : Chars) : Chars :=
  let numbered := (List.range used.length).map fun i => base ++ "_".toList ++ (toString (i + 2)).toList
  ((base :: numbered).find? (· ∉ used)).getD base

def allocate (key preferredName : Chars) : Registering Chars := do
  let registry ← get
  match registry.definitionByKey.get? key with
  | some name => pure name
  | none =>
      let name := freeName registry.usedDefinitionNames (safeDefinitionName preferredName)
      set (registry.reserve key name)
      pure name

def mergeNotes (key : Chars) (notes : Notes) (registry : SchemaRegistry) : SchemaRegistry :=
  if registry.has key then
    { registry with
      defs := registry.defs.modify (registry.definitionNameFor key) fun d =>
        { d with notes := notes.foldl setDefaultNote d.notes } }
  else registry

/-! ## Keys -/

def structureCoreName (typeName : Chars) : Chars :=
  let unprefixed := dropStart "isa95".toList (lower typeName)
  if "datatype".toList.isSuffixOf unprefixed then unprefixed.take (unprefixed.length - 8) else unprefixed

def canonicalStructureKeyForCoreName (coreName : Chars) : Option Chars :=
  if coreName ∈ ["nodeid".toList, "expandednodeid".toList, "localizedtext".toList] then
    some ("canonical-structure:".toList ++ coreName)
  else none

def canonicalSchemaKeyForType (typeName : Chars) : Option Chars :=
  let coreName := structureCoreName typeName
  canonicalStructureKeyForCoreName coreName <|>
    if "ISA95".toList.isPrefixOf typeName && "DataType".toList.isSuffixOf typeName then
      some ("canonical-structure:isa95-datatype:".toList ++ coreName)
    else none

def isFilteredStructureField (name : Chars) : Bool := lower (strip name) = "encoding".toList

def isStringOrNull (keyword : Option TypeKeyword) : Bool :=
  match keyword with
  | some (.one t) => t = .string
  | some (.several ts) => ts.all fun t => t = .string || t = .null
  | none => false

def isStringishSchema (s : Schema) : Bool :=
  isStringOrNull s.type ||
    (s.type = some (.one .array) && s.items.any fun items => isStringOrNull items.type)

/-! ## Annotations -/

/-- The `type` keyword is extended by null, if there is one. -/
def withNull (nested : Schema) : Schema :=
  match nested.type with
  | some (.one t) => { nested with type := some (.several [t, .null]) }
  | some (.several ts) => if .null ∈ ts then nested else { nested with type := some (.several (ts ++ [.null])) }
  | none => nested

def arrayOf (items : Schema) : Schema := { type := some (.one .array), items := some items }

def anyOfSchema (branches : List Schema) : Schema := { anyOf := some branches }

/-- The functions that reading a structure comes back to. -/
structure Readers where
  annotated : Annotation → Registering Schema
  text : Chars → Registering Schema
  structureFromType : Chars → ClassId → Notes → Registering Schema
  produced : Produced → Registering (Option Schema)

section
variable (rt : Runtime) (inner : Readers)

def annotationSchema (a : Annotation) : Registering Schema :=
  match annotationReading rt a with
  | .text text => inner.text text
  | .array item => arrayOf <$> inner.annotated item
  | .nullable alternative => withNull <$> inner.annotated alternative
  | .plain schema => pure schema.schema
  | .type c =>
      match readClass (rt.info c) with
      | .plain schema => pure schema.schema
      | .enumeration members => pure (enumSchema members)
      | .unconstrained => pure {}
      | .structured key => inner.structureFromType key c []

def annotationStringSchema (text : Chars) : Registering Schema :=
  match readText rt text with
  | .nullable alternative => withNull <$> inner.text alternative
  | .alternatives texts => anyOfSchema <$> texts.mapM inner.text
  | .array item => arrayOf <$> inner.text item
  | .plain schema => pure schema.schema
  | .unconstrained => pure {}
  | .enumeration c => inner.annotated (.type c)
  | .structured key c => inner.structureFromType key c []

/-! ## Structures -/

/-- The last entry for the field, without blanks and quotes around it. -/
def typeOverride (entries : List (Chars × Chars)) (field : Chars) : Option Chars :=
  let tokens := entries.map fun e => (e.1, stripBy isQuote (strip e.2))
  ((tokens.filter (·.2 ≠ [])).reverse.find? (·.1 = field)).map (·.2)

def schemaFromHintToken : HintToken → Registering (Option Schema)
  | .text token => some <$> inner.text token
  | .type c => some <$> inner.annotated (.type c)
  | .object callableName c =>
      match callableName.bind (resolveStructureTypeByName rt) with
      | some found => some <$> inner.annotated (.type found)
      | none => if (rt.info c).isStructured then some <$> inner.annotated (.type c) else pure none

/-- The first hint that tells more than that the field is a string. -/
def firstHint : List HintToken → Registering (Option Schema)
  | [] => pure none
  | token :: tokens => do
      match ← schemaFromHintToken rt inner token with
      | some candidate => if isStringishSchema candidate then firstHint tokens else pure (some candidate)
      | none => firstHint tokens

def schemaFromFieldRuntimeHints (field : Field) : Registering (Option Schema) := do
  match ← firstHint rt inner (field.metadata ++ field.default.toList ++ field.defaultFactory.toList) with
  | some candidate => pure (some candidate)
  | none =>
      match field.produced with
      | none => pure none
      | some produced => (fun schema => schema.filter (!isStringishSchema ·)) <$> inner.produced produced

/-- A textual hint counts only while the field looks like a string. -/
def overridden (override : Option Chars) (schema : Schema) : Registering Schema :=
  match override with
  | some token => if isStringishSchema schema then inner.text token else pure schema
  | none => pure schema

def fieldSchema (info : ClassInfo) (field : Field) : Registering (Chars × Schema) := do
  let annotated ← inner.annotated (field.evaluated.getD field.type)
  let fromUaTypes ← overridden inner (typeOverride info.uaTypes field.name) annotated
  let fromVartypes ← overridden inner (typeOverride info.vartypes field.name) fromUaTypes
  if isStringishSchema fromVartypes then
    let hinted ← schemaFromFieldRuntimeHints rt inner field
    pure (field.name, hinted.getD fromVartypes)
  else pure (field.name, fromVartypes)

def annotatedProperty (entry : Chars × Annotation) : Registering (Chars × Schema) :=
  (entry.1, ·) <$> inner.annotated entry.2

/-- Identifiers are constrained by the branches below. -/
def nodeidProperty (entry : Chars × Annotation) : Registering (Chars × Schema) :=
  if entry.1 = "Identifier".toList then pure (entry.1, {}) else annotatedProperty inner entry

def nodeidIdentifierBranch (idType : Int) (identifier : Schema) : Schema :=
  { properties := [("NodeIdType".toList, { const := some (.integer idType) }), ("Identifier".toList, identifier)],
    required := ["NodeIdType".toList, "Identifier".toList] }

def nodeidIdentifierBranches : List Schema :=
  [nodeidIdentifierBranch 0 { type := some (.one .integer), minimum := some 0, maximum := some 255 },
    nodeidIdentifierBranch 1 { type := some (.one .integer), minimum := some 0, maximum := some 4294967295 },
    nodeidIdentifierBranch 2 { type := some (.one .integer) },
    nodeidIdentifierBranch 3 { type := some (.one .string) },
    nodeidIdentifierBranch 4 { type := some (.one .string), format := some "uuid".toList },
    nodeidIdentifierBranch 5 { type := some (.one .string), contentEncoding := some "base64".toList }]

def nodeidSchemaForType (info : ClassInfo) (annotations : List (Chars × Annotation)) : Registering ObjectDefinition := do
  let properties ← annotations.mapM (nodeidProperty inner)
  pure { title := info.name, properties, required := annotations.map (·.1), oneOf := some nodeidIdentifierBranches }

def structureProperties (info : ClassInfo) (annotations : List (Chars × Annotation)) :
    Registering (List (Chars × Schema)) :=
  match info.dataclassFields with
  | some fields => (fields.filter (!isFilteredStructureField ·.name)).mapM (fieldSchema rt inner info)
  | none => annotations.mapM (annotatedProperty inner)

/-- The dimensions of an argument are written to the schema of a field that has to be there. -/
def argumentProperties (properties : List (Chars × Schema)) : Registering (List (Chars × Schema)) :=
  if properties.any (·.1 = "ArrayDimensions".toList) then
    pure <| properties.map fun p =>
      if p.1 = "ArrayDimensions".toList then (p.1, { p.2 with type := some (.several [.array, .null]) }) else p
  else failure

def structureSchemaForType (c : ClassId) : Registering ObjectDefinition :=
  let info := rt.info c
  let annotations := info.annotations.filter (!isFilteredStructureField ·.1)
  if info.name = "NodeId".toList ∨ info.name = "ExpandedNodeId".toList then nodeidSchemaForType inner info annotations
  else do
    let properties ← structureProperties rt inner info annotations
    let properties ← if info.isArgument then argumentProperties properties else pure properties
    pure { title := info.name, properties }

/-- Reserve the canonical key as well, unless another structure has it. -/
def reserveCanonical (canonicalKey : Option Chars) (name : Chars) (registry : SchemaRegistry) : SchemaRegistry :=
  match canonicalKey with
  | some canonical => if registry.has canonical then registry else registry.reserve canonical name
  | none => registry

/-- The structure's name is reserved before its fields are read. -/
def registerDefinition (key : Chars) (canonicalKey : Option Chars) (preferredName : Chars) (notes : Notes)
    (describe : Registering ObjectDefinition) : Registering PUnit := do
  let name ← allocate key preferredName
  modify (reserveCanonical canonicalKey name)
  let definition ← describe
  modify (·.setDefinition name { definition with notes := notes.foldl setNote definition.notes })

/-- A structure is described once for its key, and once for its canonical key. -/
def registered (key : Chars) (canonicalKey : Option Chars) (preferredName : Chars)
    (known : SchemaRegistry → SchemaRegistry) (notes : Notes) (describe : Registering ObjectDefinition)
    (registry : SchemaRegistry) : Registering PUnit :=
  if registry.has key then modify known
  else match canonicalKey.filter registry.has with
    | some canonical => modify fun registry => known (registry.reserve key (registry.definitionNameFor canonical))
    | none => registerDefinition key canonicalKey preferredName notes describe

def referenceOrRegister (key : Chars) (canonicalKey : Option Chars) (preferredName : Chars)
    (known : SchemaRegistry → SchemaRegistry) (notes : Notes) (describe : Registering ObjectDefinition) :
    Registering Schema := do
  let registry ← get
  registered key canonicalKey preferredName known notes describe registry
  return (← get).refFor key

def referenceOrRegisterStructureFromType (key : Chars) (c : ClassId) (notes : Notes) : Registering Schema :=
  referenceOrRegister key (canonicalSchemaKeyForType (rt.info c).name) (rt.info c).name (mergeNotes key notes) notes
    (structureSchemaForType rt inner c)

def schemaFromDataType (dataType : Chars) : Registering (Option Schema) :=
  match rt.dataTypeClass dataType with
  | none => pure none
  | some c =>
      if (rt.info c).isStructured then
        some <$> inner.structureFromType ("opcua-datatype:".toList ++ lower dataType) c
          [("x-opcua-structureDataType".toList, [dataType])]
      else pure none

/-! ## Values of default factories -/

def Produced.typeName : Produced → Chars
  | .none => "NoneType".toList
  | .boolean => "bool".toList
  | .integer => "int".toList
  | .number => "float".toList
  | .text => "str".toList
  | .bytes => "bytes".toList
  | .list _ => "list".toList
  | .dataValue _ => "DataValue".toList
  | .variant _ => "Variant".toList
  | .mapping _ => "dict".toList
  | .extensionObject c _ _ _ | .structure c _ | .opaqueObject c => (rt.info c).name

def Produced.unwrapOnce : Produced → Produced
  | .dataValue value | .variant value => value
  | value => value

def unwrapOpcuaWrapper (value : Produced) : Produced := value.unwrapOnce.unwrapOnce.unwrapOnce

/-- The value that the schema is derived from: what a variant holds counts before what
is left after unwrapping, unless it is None. -/
def unwrapped (value : Produced) : Produced :=
  match value with
  | .variant held | .dataValue (.variant held) =>
      match held with
      | .none => unwrapOpcuaWrapper value
      | held => held
  | _ => unwrapOpcuaWrapper value

def isNullNodeId (value : Chars) : Bool :=
  match (lower (strip value)).splitOn ';' with
  | [identifier] => identifier = "i=0".toList
  | [space, identifier] =>
      identifier = "i=0".toList &&
        (("ns=".toList.isPrefixOf space && space.length > 3 && (space.drop 3).all Char.isDigit) ||
          ("nsu=".toList.isPrefixOf space && space.length > 4))
  | _ => false

/-- `wrappers` counts the wrappers that are still taken off. -/
def primitiveSchema : Nat → Produced → Schema
  | wrappers + 1, .dataValue value | wrappers + 1, .variant value => primitiveSchema wrappers value
  | _, .none => { type := some (.several [.null, .string]) }
  | _, .boolean => { type := some (.one .boolean) }
  | _, .integer => { type := some (.one .integer) }
  | _, .number => { type := some (.one .number) }
  | _, .text => { type := some (.one .string) }
  | _, .bytes => { type := some (.one .string), contentEncoding := some "base64".toList }
  | _, .list [] => arrayOf { type := some (.one .string) }
  | _, .list (item :: _) => arrayOf (primitiveSchema 3 item)
  | _, .opaqueObject _ => { type := some (.one .string) }
  | _, _ => { type := some (.one .object) }

def primitiveSchemaForProduced : Produced → Schema := primitiveSchema 3

def producedProperty (field : Chars × Produced) : Registering (Chars × Schema) :=
  (fun nested => (field.1, nested.getD (primitiveSchemaForProduced field.2))) <$> inner.produced field.2

def Produced.fields : Produced → List (Chars × Produced)
  | .mapping fields | .structure _ fields | .extensionObject _ _ _ fields =>
      fields.filter (!isFilteredStructureField ·.1)
  | _ => []

def structureObjectSchema (value : Produced) : Registering ObjectDefinition :=
  let described : Registering ObjectDefinition :=
    (fun properties => { title := value.typeName rt, properties }) <$> value.fields.mapM (producedProperty inner)
  match value with
  | .structure c _ => if (rt.info c).isArgument then structureSchemaForType rt inner c else described
  | _ => described

def canonicalSchemaKeyForProduced (value : Produced) : Option Chars :=
  canonicalStructureKeyForCoreName (structureCoreName (value.typeName rt)) <|>
    match value with
    | .mapping entries =>
        let keys := entries.map (lower ·.1)
        if keys.all (· ∈ ["encoding".toList, "locale".toList, "text".toList]) ∧ "locale".toList ∈ keys ∧
            "text".toList ∈ keys then
          some "canonical-structure:localizedtext".toList
        else none
    | _ => none

def referenceOrRegisterStructure (key : Chars) (value : Produced) (notes : Notes) : Registering Schema :=
  let canonicalKey := canonicalSchemaKeyForProduced rt value
  let preferredName := match value with
    | .mapping _ => "MappedStructure".toList
    | value => value.typeName rt
  referenceOrRegister key canonicalKey preferredName id notes <|
    match value, canonicalKey with
    | .structure c _, some _ =>
        if (rt.info c).isStructured then structureSchemaForType rt inner c else structureObjectSchema rt inner value
    | value, _ => structureObjectSchema rt inner value

/-- The key of a mapping names its keys in their order. -/
def structureSchemaKey (value : Produced) : Chars :=
  match value with
  | .mapping entries =>
      "map-structure:".toList ++
        if entries = [] then "empty".toList
        else ",".toList.intercalate ((entries.map (·.1)).mergeSort fun a b => a ≤ b)
  | .structure c _ => schemaKey "py-structure:" (rt.info c)
  | value => "py-structure:builtins.".toList ++ lower (value.typeName rt)

def addNotes (notes : Notes) (schema : Schema) : Schema :=
  { schema with notes := notes.foldl setNote schema.notes }

/-- An extension object without a body is described by its type id's data type. -/
def schemaForMissingBody (typeId : Option Chars) (notes : Notes) : Registering (Option Schema) :=
  let object : Schema := { type := some (.one .object) }
  match typeId.filter (· ≠ []) with
  | some id => (fun schema => some (addNotes notes (schema.getD object))) <$> schemaFromDataType rt inner id
  | none => pure (some (addNotes notes object))

def typeIdNotes (typeId : Option Chars) : Notes :=
  match typeId with
  | some id => if id = [] ∨ isNullNodeId id then [] else [("x-opcua-structureTypeId".toList, [id])]
  | none => []

/-- The schema of a value of which neither data type nor variant type is given. -/
def schemaForStructuredValue (value : Produced) : Registering (Option Schema) :=
  match unwrapped value with
  | .list [] => pure (some (arrayOf {}))
  | .list (item :: _) =>
      (fun items => some (arrayOf (items.getD (primitiveSchemaForProduced item)))) <$> inner.produced item
  | .extensionObject _ typeId body _ =>
      match unwrapOpcuaWrapper body with
      | .none => schemaForMissingBody rt inner typeId (typeIdNotes typeId)
      | body =>
          let name := (typeId.filter (· ≠ [])).getD (lower (body.typeName rt))
          some <$> referenceOrRegisterStructure rt inner ("opcua-structure:".toList ++ name) body (typeIdNotes typeId)
  | .mapping entries =>
      some <$> referenceOrRegisterStructure rt inner (structureSchemaKey rt (.mapping entries)) (.mapping entries) []
  | .structure c fields =>
      some <$> referenceOrRegisterStructure rt inner (structureSchemaKey rt (.structure c fields)) (.structure c fields) []
  | _ => pure none

end

/-! ## The recursion -/

def readers (rt : Runtime) : Nat → Readers
  | 0 =>
      { annotated := fun _ => failure, text := fun _ => failure, structureFromType := fun _ _ _ => failure,
        produced := fun _ => failure }
  | depth + 1 =>
      { annotated := annotationSchema rt (readers rt depth)
        text := annotationStringSchema rt (readers rt depth)
        structureFromType := referenceOrRegisterStructureFromType rt (readers rt depth)
        produced := schemaForStructuredValue rt (readers rt depth) }

/-- Reading the annotation with this registry gives the schema and leaves that registry. -/
def Yields (rt : Runtime) (a : Annotation) (before : SchemaRegistry) (s : Schema) (after : SchemaRegistry) : Prop :=
  ∃ depth, (readers rt depth).annotated a before = some (s, after)

end I3x.Schemas

import I3xServer.Api.WriteValues
import I3xServer.Api.TypeElementIds

/-!
# Current-value writes and the value they validate

A requested value is unwrapped when it looks like an envelope, validated against
the published schema, checked for access and type, decoded and sent. Every step
sees the unwrapped value.
-/
namespace I3x.Api
open Container

/-- What the schema library raises. -/
inductive SchemaFailure where
  | validation (path : List String) (message : String)
  | schema
  | other
  deriving DecidableEq, Repr

/-- The schema library. A schema without keywords accepts everything. -/
structure SchemaLibrary where
  checkSchema : PyValue → Except SchemaFailure Unit
  validate : PyValue → PyValue → Except SchemaFailure Unit
  checkSchema_empty : checkSchema (.mapping []) = .ok ()
  validate_empty : ∀ value, validate (.mapping []) value = .ok ()

structure ObjectTypeResponse where
  elementId : String
  schema : PyValue

/-- The published types, as the validator reads them. -/
structure ObjectTypeContext where
  items : List ObjectTypeResponse
  namespaceInfos : List NamespaceDetails
  typeIds : TypeIdMaps

def isLocalReference : PyValue → Bool
  | .str target => "#".toList.isPrefixOf target.toList
  | _ => false

mutual

/-- `_check_local_references`: no reference leads out of the schema. -/
def checkLocalReferences : PyValue → Bool
  | .mapping entries => checkLocalEntries entries
  | .list items => checkLocalItems items
  | _ => true

def checkLocalEntries : List (String × PyValue) → Bool
  | [] => true
  | (key, item) :: entries =>
      (key ∉ ["$ref", "$dynamicRef", "$recursiveRef"] || isLocalReference item) && checkLocalReferences item &&
        checkLocalEntries entries

def checkLocalItems : List PyValue → Bool
  | [] => true
  | item :: items => checkLocalReferences item && checkLocalItems items

end

/-- What the upstream says about a current value; the value as sorted JSON text. -/
structure CurrentVqt where
  json : String
  quality : String
  sourceTimestamp : Option String

/-- Why a write failed, as far as the handler tells failures apart. -/
inductive WriteFailure where
  | metadataUnsupported (message : String)
  | metadataVerification (message : String)
  | other (message : String)

structure CurrentPort (U : Type) where
  objectTypeContext : U → Except String ObjectTypeContext × U
  readWriteAccess : String → U → Except String (Bool × Bool) × U
  readDataValues : List String → U → Except String (List CurrentVqt) × U
  readVariantType : String → U → Except String (Option String) × U
  writeValue : String → PyValue → Option String → String → String → U → Except WriteFailure Unit × U

/-- The encodings of the standard library. -/
structure Encodings where
  b64decode : String → Option (List UInt8)
  jsonText : PyValue → String
  toUtc : String → String

/-- The steps of one item that leave the handler. -/
inductive WriteEvent where
  | validated (node : ModelNode) (value : PyValue) (outcome : Except Outcome Unit)
  | accessRead (target : String) (outcome : Except String (Bool × Bool))
  | variantRead (target : String) (outcome : Except String (Option String))
  | written (target : String) (value : PyValue) (variantType : Option String) (quality timestamp : String)

/-- The upstream with the validator of the request, which remembers the published
types or why they could not be found. -/
structure CurrentClient (U : Type) where
  server : U
  context : Option (Except Outcome ObjectTypeContext)
  events : List WriteEvent

section
variable (text : PatternText) (library : SchemaLibrary)

/-- The type of a property, the only kind that reaches the validator. -/
def typeElementIdForProperty (node : ModelNode) (context : ObjectTypeContext) : String :=
  let raw := if node.type.getD "" = "" then "unknown-type" else node.type.getD ""
  let expanded := expandedNodeId text raw context.namespaceInfos
  if isNullOpcuaTypeNodeId text expanded then unknownTypeElementId text context.namespaceInfos
  else (context.typeIds.bySourceType.get? (text.lower expanded)).getD expanded

theorem resolvedTypeElementIdForNode_property {node : PublishedNode} (property : node.kind = .property)
    (context : ObjectTypeContext) :
    resolvedTypeElementIdForNode text node context.namespaceInfos context.typeIds =
      typeElementIdForProperty text node.toModelNode context := by
  unfold resolvedTypeElementIdForNode
  rw [if_pos property]
  rfl

def schemaFailure (typeId : String) : SchemaFailure → Outcome
  | .validation path message =>
      let joined := "/".intercalate path
      let place := if joined = "" then "<value>" else joined
      (400, "Value does not conform to ObjectType " ++ typeId ++ " at " ++ place ++ ": " ++ message)
  | .schema => (502, "Invalid ObjectType schema: " ++ typeId)
  | .other => (502, "Unable to evaluate ObjectType schema: " ++ typeId)

/-- `WriteValueValidator.validate` once the published types are known. -/
def validateAgainst (context : ObjectTypeContext) (node : ModelNode) (value : PyValue) : Except Outcome Unit :=
  let typeId := typeElementIdForProperty text node context
  match context.items.find? fun item => item.elementId = typeId with
  | none => .error (502, "ObjectType schema unavailable: " ++ typeId)
  | some objectType =>
      if !checkLocalReferences objectType.schema then
        .error (502, "ObjectType schema contains an unsupported external reference")
      else
        match library.checkSchema objectType.schema with
        | .error failure => .error (schemaFailure typeId failure)
        | .ok () => (library.validate objectType.schema value).mapError (schemaFailure typeId)

variable {U : Type} (port : CurrentPort U)

/-- The published types of the request, looked up once. -/
def contextFor (client : CurrentClient U) : Except Outcome ObjectTypeContext × CurrentClient U :=
  match client.context with
  | some context => (context, client)
  | none =>
      match port.objectTypeContext client.server with
      | (.error _, server) =>
          let context := .error (502, "Unable to resolve ObjectType schema for writes")
          (context, { client with server, context := some context })
      | (.ok context, server) => (.ok context, { client with server, context := some (.ok context) })

/-- `WriteValueValidator.validate`. -/
def validate (node : ModelNode) (value : PyValue) (client : CurrentClient U) :
    Except Outcome Unit × CurrentClient U :=
  match contextFor port client with
  | (.error failure, client) => (.error failure, client)
  | (.ok context, client) => (validateAgainst text library context node value, client)

def CurrentClient.log (client : CurrentClient U) (event : WriteEvent) : CurrentClient U :=
  { client with events := client.events ++ [event] }

variable (encodings : Encodings)

def isNoopWrite (target : String) (value : PyValue) (quality timestamp : String) (client : CurrentClient U) :
    Bool × CurrentClient U :=
  match port.readDataValues [target] client.server with
  | (.error _, server) | (.ok [], server) => (false, { client with server })
  | (.ok (current :: _), server) =>
      (current.json = encodings.jsonText value && current.quality = quality &&
        current.sourceTimestamp = some (encodings.toUtc timestamp), { client with server })

def writeFailure : WriteFailure → Outcome
  | .metadataUnsupported message => (501, message)
  | .metadataVerification message => (502, message)
  | .other message => classifyWriteError text.toText message

/-- The client as the handler of current values sees it; no history is written. -/
def currentWritePort : WritePort (CurrentClient U) where
  historyUpdateSupported := none
  validate node value client :=
    let (outcome, client) := validate text library port node value client
    (outcome, client.log (.validated node value outcome))
  readWriteAccess target client :=
    let (outcome, server) := port.readWriteAccess target client.server
    (outcome.mapError (classifyWriteError text.toText),
      { client with server }.log (.accessRead target outcome))
  isNoopWrite target value quality timestamp client := isNoopWrite port encodings target value quality timestamp client
  readVariantType target client :=
    let (outcome, server) := port.readVariantType target client.server
    (outcome.mapError (classifyWriteError text.toText),
      { client with server }.log (.variantRead target outcome))
  writeValue target value variantType quality timestamp client :=
    let (outcome, server) := port.writeValue target value variantType quality timestamp client.server
    (outcome.mapError (writeFailure text),
      { client with server }.log (.written target value variantType quality timestamp))
  readHistoryWriteAccess _ client := (.ok (false, false), client)
  writeHistoryValue _ _ _ _ client := (.ok (), client)
  b64decode := encodings.b64decode

end

/-! ## What reaches the upstream -/

/-- An object that `_normalize_write_payload` takes for a value with its quality
and timestamp. -/
def isEnvelope : PyValue → Bool
  | .mapping entries =>
      (entries.lookup "value").isSome && entries.all fun entry => entry.1 ∈ ["value", "quality", "timestamp"]
  | _ => false

theorem normalizeWritePayload_plain {value : PyValue} (plain : isEnvelope value = false) :
    normalizeWritePayload value = value := by
  cases value with
  | mapping entries =>
      cases found : entries.lookup "value" with
      | none => simp only [normalizeWritePayload, found]
      | some inner =>
          simp only [isEnvelope, found, Option.isSome_some, Bool.true_and] at plain
          simp only [normalizeWritePayload, found, plain, Bool.false_eq_true, if_false]
  | _ => rfl

/-- What an envelope holds is smaller than the envelope. -/
theorem normalizeWritePayload_envelope {value : PyValue} (envelope : isEnvelope value = true) :
    normalizeWritePayload value ≠ value := by
  cases value with
  | mapping entries =>
      cases found : entries.lookup "value" with
      | none => simp only [isEnvelope, found, Option.isSome_none, Bool.false_and, Bool.false_eq_true] at envelope
      | some inner =>
          simp only [isEnvelope, found, Option.isSome_some, Bool.true_and] at envelope
          simp only [normalizeWritePayload, found, envelope, if_true]
          intro same
          have smaller := List.sizeOf_lt_of_mem (lookup_mem found)
          rw [same] at smaller
          simp only [Prod.mk.sizeOf_spec, PyValue.mapping.sizeOf_spec] at smaller
          omega
  | _ => cases envelope

def ByteStringTarget (text : PatternText) (variantType : Option String) : Prop :=
  ∃ name, variantType = some name ∧ text.lower (text.strip name) = "bytestring"

/-- The value that is sent for `value`: the octets of a base64 text for a byte
string, else the value itself. -/
structure SentFor (text : PatternText) (encodings : Encodings) (value : PyValue) (variantType : Option String)
    (sent : PyValue) : Prop where
  decoded : ByteStringTarget text variantType → ∀ s, value = .str s →
    ∃ octets, encodings.b64decode s = some octets ∧ sent = .bytes octets
  exact : ¬ (ByteStringTarget text variantType ∧ ∃ s, value = .str s) → sent = value

/-- One item's events when it was written: exactly `value` was validated, access
was granted in both respects, the type was read and its check passed. -/
structure WrittenFor (text : PatternText) (library : SchemaLibrary) (encodings : Encodings) (node : ModelNode)
    (value : PyValue) (context : ObjectTypeContext) (variantType : Option String) (sent : PyValue)
    (quality timestamp : String) (own : List WriteEvent) : Prop where
  conforms : validateAgainst text library context node value = .ok ()
  typed : sent.isNone = true ∨ isValidWriteType text.toText sent variantType = true
  sentFor : SentFor text encodings value variantType sent
  steps : own = [.validated node value (.ok ()), .accessRead node.sourceNodeId (.ok (true, true)),
    .variantRead node.sourceNodeId (.ok variantType), .written node.sourceNodeId sent variantType quality timestamp]

def WriteEvent.isWrite : WriteEvent → Bool
  | .written .. => true
  | _ => false

/-- Whatever the item asks of the upstream, it is written as `value` or not at all. -/
def WritesOnly (text : PatternText) (library : SchemaLibrary) (encodings : Encodings) (model : BuildResult)
    (item : WriteItem text.toText) (value : PyValue) {U : Type} (before after : CurrentClient U) : Prop :=
  ∃ own, after.events = before.events ++ own ∧
    ((∀ event ∈ own, event.isWrite = false) ∨
      ∃ node context variantType sent, findModelNode text.toText model item.elementId.value = some node ∧
        node.kind = .property ∧ after.context = some (.ok context) ∧
        WrittenFor text library encodings node value context variantType sent item.quality item.timestamp own)

/-- The requested value is the validated and the written one, whatever the upstream answers. -/
def KeepsValue (text : PatternText) (library : SchemaLibrary) (encodings : Encodings) (model : BuildResult)
    (item : WriteItem text.toText) : Prop :=
  ∀ (U : Type) (port : CurrentPort U) (session : Session (CurrentClient U)),
    WritesOnly text library encodings model item item.value session.upstream
      (writeObjectValueByElementId text.toText (currentWritePort text library port encodings) model item
        session).2.upstream

section
variable (text : PatternText) (library : SchemaLibrary) (encodings : Encodings) {U : Type} (port : CurrentPort U)

theorem decode_sentFor {value sent : PyValue} {variantType : Option String}
    (decoded : decodeBytestringWriteValue text.toText (currentWritePort text library port encodings) value variantType
      = some sent) :
    SentFor text encodings value variantType sent := by
  unfold decodeBytestringWriteValue at decoded
  split at decoded
  · rename_i name s
    split at decoded
    · rename_i bytestring
      obtain ⟨octets, read, same⟩ := Option.map_eq_some_iff.mp decoded
      refine ⟨fun _ other same' => ?_, fun plain => absurd ⟨⟨name, rfl, bytestring⟩, s, rfl⟩ plain⟩
      cases same'
      exact ⟨octets, read, same.symm⟩
    · rename_i other
      refine ⟨?_, fun _ => (Option.some.inj decoded).symm⟩
      rintro ⟨_, same, bytestring⟩
      cases same
      exact absurd bytestring other
  · rename_i apart
    refine ⟨?_, fun _ => (Option.some.inj decoded).symm⟩
    rintro ⟨name, rfl, -⟩ s rfl
    exact absurd rfl (apart name s rfl)

theorem contextFor_events (client : CurrentClient U) : (contextFor port client).2.events = client.events := by
  unfold contextFor
  split
  · rfl
  · split <;> rfl

theorem contextFor_kept {client : CurrentClient U} {context : ObjectTypeContext}
    (known : (contextFor port client).1 = .ok context) : (contextFor port client).2.context = some (.ok context) := by
  unfold contextFor at known ⊢
  split at known
  · rename_i remembered found
    simp only [found]
    exact congrArg some known
  · split at known
    · cases known
    · simp_all

theorem validate_events (node : ModelNode) (value : PyValue) (client : CurrentClient U) :
    (validate text library port node value client).2.events = client.events := by
  have kept := contextFor_events port client
  unfold validate
  split
  · rename_i found
    rw [found] at kept
    exact kept
  · rename_i found
    rw [found] at kept
    exact kept

theorem validate_ok {node : ModelNode} {value : PyValue} {client : CurrentClient U}
    (passed : (validate text library port node value client).1 = .ok ()) :
    ∃ context, (validate text library port node value client).2.context = some (.ok context) ∧
      validateAgainst text library context node value = .ok () := by
  have kept (context : ObjectTypeContext) : (contextFor port client).1 = .ok context →
      (contextFor port client).2.context = some (.ok context) := contextFor_kept port
  unfold validate at passed ⊢
  split at passed
  · cases passed
  · rename_i context after found
    rw [found] at kept
    exact ⟨context, kept context rfl, passed⟩

/-- A step of the port that asks for something and logs it. -/
structure Logged (before after : CurrentClient U) (event : WriteEvent) : Prop where
  events : after.events = before.events ++ [event]
  context : after.context = before.context

theorem currentWritePort_validate {node : ModelNode} {value : PyValue} {before after : CurrentClient U}
    {result : Except Outcome Unit}
    (step : (currentWritePort text library port encodings).validate node value before = (result, after)) :
    after.events = before.events ++ [.validated node value result] ∧
      (result = .ok () → ∃ context, after.context = some (.ok context) ∧
        validateAgainst text library context node value = .ok ()) := by
  obtain ⟨rfl, rfl⟩ := Prod.ext_iff.mp step
  exact ⟨congrArg (· ++ [_]) (validate_events text library port node value before), validate_ok text library port⟩

theorem mapError_ok {A B E : Type} {f : A → B} {outcome : Except A E} {value : E}
    (same : outcome.mapError f = .ok value) : outcome = .ok value := by
  cases outcome with
  | error failure => cases same
  | ok found =>
      cases same
      rfl

theorem currentWritePort_readWriteAccess {target : String} {before after : CurrentClient U}
    {result : Except Outcome (Bool × Bool)}
    (step : (currentWritePort text library port encodings).readWriteAccess target before = (result, after)) :
    ∃ outcome, Logged before after (.accessRead target outcome) ∧ ∀ granted, result = .ok granted → outcome = .ok granted := by
  cases step
  exact ⟨_, ⟨rfl, rfl⟩, fun _ => mapError_ok⟩

theorem currentWritePort_readVariantType {target : String} {before after : CurrentClient U}
    {result : Except Outcome (Option String)}
    (step : (currentWritePort text library port encodings).readVariantType target before = (result, after)) :
    ∃ outcome, Logged before after (.variantRead target outcome) ∧ ∀ type, result = .ok type → outcome = .ok type := by
  cases step
  exact ⟨_, ⟨rfl, rfl⟩, fun _ => mapError_ok⟩

theorem currentWritePort_writeValue {target : String} {value : PyValue} {variantType : Option String}
    {quality timestamp : String} {before after : CurrentClient U} {result : Except Outcome Unit}
    (step : (currentWritePort text library port encodings).writeValue target value variantType quality timestamp before
      = (result, after)) :
    Logged before after (.written target value variantType quality timestamp) := by
  cases step
  exact ⟨rfl, rfl⟩

theorem currentWritePort_isNoopWrite (target : String) (value : PyValue) (quality timestamp : String)
    (client : CurrentClient U) :
    ((currentWritePort text library port encodings).isNoopWrite target value quality timestamp client).2.events =
      client.events := by
  simp only [currentWritePort, isNoopWrite]
  split <;> rfl

variable {text library encodings port}
variable {model : BuildResult} {item : WriteItem text.toText} {value : PyValue}

theorem WritesOnly.unwritten {before after : CurrentClient U} (own : List WriteEvent)
    (events : after.events = before.events ++ own) (none : own.all (fun event => !event.isWrite) = true) :
    WritesOnly text library encodings model item value before after := by
  refine ⟨own, events, .inl fun event m => ?_⟩
  have kept := List.all_eq_true.mp none event m
  simpa using kept

/-- The tail of a write, once exactly `value` was validated and access granted. -/
theorem writeResolved_writesOnly {node : ModelNode} {context : ObjectTypeContext} {before : CurrentClient U}
    {session : Session (CurrentClient U)}
    (found : findModelNode text.toText model item.elementId.value = some node) (property : node.kind = .property)
    (conforms : validateAgainst text library context node value = .ok ())
    (known : session.upstream.context = some (.ok context))
    (events : session.upstream.events =
      before.events ++ [.validated node value (.ok ()), .accessRead node.sourceNodeId (.ok (true, true))]) :
    WritesOnly text library encodings model item value before
      (writeResolved text.toText (currentWritePort text library port encodings) item node.sourceNodeId value
        session).2.upstream := by
  unfold writeResolved
  rcases read : (currentWritePort text library port encodings).readVariantType node.sourceNodeId session.upstream with
    ⟨failure | variantType, client⟩
  all_goals
    obtain ⟨outcome, logged, answered⟩ := currentWritePort_readVariantType text library encodings port read
    have sofar := logged.events
    rw [events, List.append_assoc] at sofar
  · exact .unwritten _ sofar rfl
  · dsimp only
    cases decoded : decodeBytestringWriteValue text.toText (currentWritePort text library port encodings) value
      variantType with
    | none => exact .unwritten _ sofar rfl
    | some sent =>
        dsimp only
        split
        · exact .unwritten _ sofar rfl
        · rename_i typed
          rcases wrote : (currentWritePort text library port encodings).writeValue node.sourceNodeId sent variantType
            item.quality item.timestamp client with ⟨failure | answer, last⟩
          all_goals
            have final := currentWritePort_writeValue text library encodings port wrote
            have all := final.events
            rw [sofar, List.append_assoc, answered _ rfl] at all
            refine ⟨_, all, .inr ⟨node, context, variantType, sent, found, property, ?_, conforms, ?_,
              decode_sentFor text library encodings port decoded, rfl⟩⟩
            · exact final.context.trans (logged.context.trans known)
            · simpa [or_iff_not_imp_left] using typed

variable (text library encodings port model item)

/-- Every step sees the value that is left once the payload is unwrapped. -/
theorem writeObjectValue_writesOnly (session : Session (CurrentClient U)) :
    WritesOnly text library encodings model item (normalizeWritePayload item.value) session.upstream
      (writeObjectValueByElementId text.toText (currentWritePort text library port encodings) model item
        session).2.upstream := by
  unfold writeObjectValueByElementId
  cases found : findModelNode text.toText model item.elementId.value with
  | none => exact .unwritten [] (List.append_nil _).symm rfl
  | some node =>
      dsimp only
      by_cases property : node.kind ≠ .property
      · rw [if_pos property]
        exact .unwritten [] (List.append_nil _).symm rfl
      rw [if_neg property]
      rcases checked : (currentWritePort text library port encodings).validate node (normalizeWritePayload item.value)
        session.upstream with ⟨failure | answer, client⟩
      all_goals obtain ⟨events, conforms⟩ := currentWritePort_validate text library encodings port checked
      · exact .unwritten _ events rfl
      obtain ⟨context, known, conforms⟩ := conforms rfl
      dsimp only
      rcases access : (currentWritePort text library port encodings).readWriteAccess node.sourceNodeId client with
        ⟨failure | ⟨writable, userWritable⟩, after⟩
      all_goals
        obtain ⟨outcome, logged, answered⟩ := currentWritePort_readWriteAccess text library encodings port access
        have sofar := logged.events
        rw [events, List.append_assoc] at sofar
      · exact .unwritten _ sofar rfl
      dsimp only
      split
      · rename_i granted
        obtain ⟨rfl, rfl⟩ := (Bool.and_eq_true _ _).mp granted
        rw [answered _ rfl] at sofar
        exact writeResolved_writesOnly found (not_not.mp property) conforms (logged.context.trans known) sofar
      · have quiet := currentWritePort_isNoopWrite text library encodings port node.sourceNodeId
          (normalizeWritePayload item.value) item.quality item.timestamp after
        rw [sofar] at quiet
        split
        all_goals
          rename_i escaped
          rw [escaped] at quiet
          exact .unwritten _ quiet rfl

end

section
variable (text : PatternText) (library : SchemaLibrary) (encodings : Encodings)

/-- The published types of a server whose schema for a property demands nothing. -/
def openContext (node : ModelNode) : ObjectTypeContext where
  items := [⟨typeElementIdForProperty text node ⟨[], [], ⟨.empty, .empty⟩⟩, .mapping []⟩]
  namespaceInfos := []
  typeIds := ⟨.empty, .empty⟩

/-- A server that grants and accepts everything. -/
def openServer (node : ModelNode) : CurrentPort Unit where
  objectTypeContext u := (.ok (openContext text node), u)
  readWriteAccess _ u := (.ok (true, true), u)
  readDataValues _ u := (.ok [], u)
  readVariantType _ u := (.ok none, u)
  writeValue _ _ _ _ _ u := (.ok (), u)

theorem validateAgainst_open (node : ModelNode) (value : PyValue) :
    validateAgainst text library (openContext text node) node value = .ok () := by
  have listed : (openContext text node).items.find? (fun item =>
      item.elementId = typeElementIdForProperty text node (openContext text node)) =
      some ⟨typeElementIdForProperty text node (openContext text node), .mapping []⟩ :=
    List.find?_cons_of_pos (decide_eq_true rfl)
  have localOnly : checkLocalReferences (.mapping []) = true := rfl
  simp only [validateAgainst, listed, localOnly, Bool.not_true, Bool.false_eq_true, if_false,
    library.checkSchema_empty, library.validate_empty, Except.mapError]

theorem openServer_validate (node : ModelNode) (value : PyValue) :
    (currentWritePort text library (openServer text node) encodings).validate node value ⟨(), none, []⟩ =
      (.ok (), ⟨(), some (.ok (openContext text node)), [.validated node value (.ok ())]⟩) := by
  have passed : validate text library (openServer text node) node value ⟨(), none, []⟩ =
      (.ok (), ⟨(), some (.ok (openContext text node)), []⟩) := by
    change (validateAgainst text library (openContext text node) node value, _) = _
    rw [validateAgainst_open]
  simp only [currentWritePort, passed]
  rfl

theorem openServer_writeResolved (item : WriteItem text.toText) (node : ModelNode) (value : PyValue)
    (session : Session (CurrentClient Unit)) :
    (writeResolved text.toText (currentWritePort text library (openServer text node) encodings) item node.sourceNodeId
      value session).2.upstream.events = session.upstream.events ++ [.variantRead node.sourceNodeId (.ok none),
        .written node.sourceNodeId value none item.quality item.timestamp] := by
  have accepted : (!value.isNone && !isValidWriteType text.toText value none) = false := by
    rw [isValidWriteType, Bool.not_true, Bool.and_false]
  simp only [writeResolved, currentWritePort, openServer, Except.mapError, decodeBytestringWriteValue, accepted,
    Bool.false_eq_true, if_false, Session.record, CurrentClient.log]
  exact List.append_assoc _ [_] [_]

theorem openServer_events {model : BuildResult} {item : WriteItem text.toText} {node : ModelNode}
    (found : findModelNode text.toText model item.elementId.value = some node) (property : node.kind = .property) :
    (writeObjectValueByElementId text.toText (currentWritePort text library (openServer text node) encodings) model item
      ⟨⟨(), none, []⟩, []⟩).2.upstream.events =
      [.validated node (normalizeWritePayload item.value) (.ok ()), .accessRead node.sourceNodeId (.ok (true, true)),
        .variantRead node.sourceNodeId (.ok none),
        .written node.sourceNodeId (normalizeWritePayload item.value) none item.quality item.timestamp] := by
  unfold writeObjectValueByElementId
  simp only [found, property, ne_eq, not_true_eq_false, if_false, openServer_validate]
  exact openServer_writeResolved text library encodings item node (normalizeWritePayload item.value) _

theorem envelope_unkept {model : BuildResult} {item : WriteItem text.toText} {node : ModelNode}
    (found : findModelNode text.toText model item.elementId.value = some node) (property : node.kind = .property)
    (envelope : isEnvelope item.value = true) : ¬ KeepsValue text library encodings model item := by
  intro keeps
  obtain ⟨own, sent, written⟩ := keeps Unit (openServer text node) ⟨⟨(), none, []⟩, []⟩
  rw [openServer_events text library encodings found property, List.nil_append] at sent
  subst sent
  rcases written with unwritten | ⟨other, context, variantType, value, -, -, -, written⟩
  · have write := unwritten (.written node.sourceNodeId (normalizeWritePayload item.value) none item.quality
      item.timestamp) (by simp)
    cases write
  · have steps := written.steps
    simp only [List.cons.injEq, WriteEvent.validated.injEq] at steps
    exact normalizeWritePayload_envelope envelope steps.1.2.1

/-- A requested value is the one that is validated and written exactly if no
property is named or the value does not look like an envelope. -/
theorem writeObjectValue_keepsValue (model : BuildResult) (item : WriteItem text.toText) :
    KeepsValue text library encodings model item ↔
      ∀ node, findModelNode text.toText model item.elementId.value = some node → node.kind = .property →
        isEnvelope item.value = false := by
  constructor
  · intro keeps node found property
    by_contra envelope
    exact envelope_unkept text library encodings found property (Bool.of_not_eq_false envelope) keeps
  · intro plain U port session
    have only := writeObjectValue_writesOnly text library encodings port model item session
    obtain ⟨own, events, unwritten | ⟨node, context, variantType, sent, found, property, known, written⟩⟩ := only
    · exact ⟨own, events, .inl unwritten⟩
    · rw [normalizeWritePayload_plain (plain node found property)] at written
      exact ⟨own, events, .inr ⟨node, context, variantType, sent, found, property, known, written⟩⟩

end

/-- A library that knows no keyword. -/
def keywordless : SchemaLibrary where
  checkSchema _ := .ok ()
  validate _ _ := .ok ()
  checkSchema_empty := rfl
  validate_empty _ := rfl

def plainEncodings : Encodings where
  b64decode _ := none
  jsonText _ := "null"
  toUtc := id

/-- A property whose values are structures with one member, `value`. -/
def reading : ModelNode := ⟨"reading", "Reading", .property, some "ns=2;i=3001", [], "ns=2;s=Reading"⟩

def readingModel : BuildResult where
  nodesById := .ofList [("reading", reading)]
  childrenById := .empty
  nodeIdByName := .empty
  nodeIdByType := .empty

def readingItem : WriteItem PatternText.ascii.toText where
  elementId := ⟨"reading", by decide⟩
  value := .mapping [("value", .int 5)]
  quality := "Good"
  timestamp := "2026-01-01T00:00:00Z"

/-- The structure is requested, its member is validated and sent. -/
theorem writeObjectValue_unwraps :
    (writeObjectValueByElementId PatternText.ascii.toText
        (currentWritePort PatternText.ascii keywordless (openServer PatternText.ascii reading) plainEncodings)
        readingModel readingItem ⟨⟨(), none, []⟩, []⟩).2.upstream.events =
      [.validated reading (.int 5) (.ok ()), .accessRead "ns=2;s=Reading" (.ok (true, true)),
        .variantRead "ns=2;s=Reading" (.ok none),
        .written "ns=2;s=Reading" (.int 5) none "Good" "2026-01-01T00:00:00Z"] ∧
      ¬ KeepsValue PatternText.ascii keywordless plainEncodings readingModel readingItem :=
  ⟨openServer_events PatternText.ascii keywordless plainEncodings rfl rfl,
    envelope_unkept PatternText.ascii keywordless plainEncodings (rfl : _ = some reading) rfl rfl⟩

end I3x.Api

import I3xServer.Api.ObjectLookup
import Mathlib.Data.List.Infix

/-!
# Bulk current-value and history writes

Both handlers go through the items of a request in order. The upstream client is
a port with a state of its own, so that its answers may depend on everything it
was asked before. Every write request it receives is recorded with the item it
was sent for.
-/
namespace I3x.Api
open Container

inductive PyValue where
  | none
  | bool (b : Bool)
  | int (i : Int)
  | float (literal : String)
  | str (s : String)
  | bytes (octets : List UInt8)
  | datetime (s : String)
  | list (items : List PyValue)
  | mapping (entries : List (String × PyValue))

def PyValue.isNone : PyValue → Bool
  | .none => true
  | _ => false

/-- `elementId` of a write request, as the request model admits it. -/
structure WriteElementId (text : Text) where
  value : String
  valid : value ≠ "" ∧ value = text.strip value ∧ text.isPrintable value = true

structure WriteItem (text : Text) where
  elementId : WriteElementId text
  value : PyValue
  quality : String
  timestamp : String

/-- A status code with its message. -/
abbrev Outcome := Nat × String

inductive WriteKind where
  | current | history
  deriving DecidableEq, Repr

structure UpstreamWrite where
  kind : WriteKind
  elementId : String
  target : String
  value : PyValue
  quality : String
  timestamp : String

/-- The upstream client and the schema validator, with the state `U` both may
change. A call either answers or raises; of an exception the handlers use the
status code and message that they derive from it. -/
structure WritePort (U : Type) where
  historyUpdateSupported : Option Bool
  validate : ModelNode → PyValue → U → Except Outcome Unit × U
  readWriteAccess : String → U → Except Outcome (Bool × Bool) × U
  isNoopWrite : String → PyValue → String → String → U → Bool × U
  readVariantType : String → U → Except Outcome (Option String) × U
  writeValue : String → PyValue → Option String → String → String → U → Except Outcome Unit × U
  readHistoryWriteAccess : String → U → Except Outcome (Bool × Bool) × U
  /-- The flag says that the failure means the service itself is missing. -/
  writeHistoryValue : String → PyValue → String → String → U → Except (Outcome × Bool) Unit × U
  b64decode : String → Option (List UInt8)

structure Session (U : Type) where
  upstream : U
  written : List UpstreamWrite

def normalizeWritePayload : PyValue → PyValue
  | .mapping entries =>
      match entries.lookup "value" with
      | some value =>
          if entries.all fun entry => entry.1 ∈ ["value", "quality", "timestamp"] then value
          else .mapping entries
      | none => .mapping entries
  | payload => payload

/-- `text in lowered`. -/
def containsText (marker text : String) : Bool := decide (marker.toList <:+: text.toList)

def classifyWriteError (text : Text) (message : String) : Nat × String :=
  let lowered := text.lower message
  if ["baduseraccessdenied", "access denied", "permission"].any (containsText · lowered) then
    (403, "unauthorized_by_opcua_server")
  else if ["badnotwritable", "not writable"].any (containsText · lowered) then (403, "target_not_writable")
  else if ["badtype", "mismatch", "outofrange"].any (containsText · lowered) then (400, "bad_type_or_range")
  else (502, "session_or_transport_failure")

section
variable (text : Text)

def isValidWriteType (value : PyValue) (variantType : Option String) : Bool :=
  match variantType with
  | none => true
  | some variantType =>
      let normalized := text.lower (text.strip variantType)
      if normalized = "boolean" then value matches .bool _
      else if normalized ∈ ["sbyte", "byte", "int16", "uint16", "int32", "uint32", "int64", "uint64"] then
        value matches .int _
      else if normalized ∈ ["float", "double"] then value matches .int _ || value matches .float _
      else if normalized ∈ ["string", "localizedtext", "qualifiedname"] then value matches .str _
      else if normalized = "bytestring" then value matches .bytes _
      else if normalized = "datetime" then value matches .str _ || value matches .datetime _
      else if normalized = "guid" then value matches .str _
      else true

variable {U : Type} (port : WritePort U)

/-- `none` stands for the error raised on an invalid base64 text. -/
def decodeBytestringWriteValue (value : PyValue) (variantType : Option String) : Option PyValue :=
  match variantType, value with
  | some variantType, .str s =>
      if text.lower (text.strip variantType) = "bytestring" then (port.b64decode s).map .bytes
      else some value
  | _, _ => some value

def Session.record (session : Session U) (upstream : U) (write : UpstreamWrite) : Session U where
  upstream := upstream
  written := session.written ++ [write]

/-- The tail of a current-value write, once the target is known to be writable. -/
def writeResolved (item : WriteItem text) (target : String) (value : PyValue) (session : Session U) :
    Outcome × Session U :=
  match port.readVariantType target session.upstream with
  | (.error failure, u) => (failure, { session with upstream := u })
  | (.ok variantType, u) =>
      match decodeBytestringWriteValue text port value variantType with
      | none => ((400, "bad_type_or_range"), { session with upstream := u })
      | some decoded =>
          if !decoded.isNone && !isValidWriteType text decoded variantType then
            ((400, "bad_type_or_range"), { session with upstream := u })
          else
            let write : UpstreamWrite :=
              { kind := .current, elementId := item.elementId.value, target, value := decoded
                quality := item.quality, timestamp := item.timestamp }
            match port.writeValue target decoded variantType item.quality item.timestamp u with
            | (.error failure, u) => (failure, session.record u write)
            | (.ok (), u) => ((200, "ok"), session.record u write)

def writeObjectValueByElementId (model : BuildResult) (item : WriteItem text) (session : Session U) :
    Outcome × Session U :=
  let value := normalizeWritePayload item.value
  match findModelNode text model item.elementId.value with
  | none => ((404, "Element not found: " ++ item.elementId.value), session)
  | some node =>
      if node.kind ≠ .property then ((400, "bad_type_or_range"), session)
      else
        let target := node.sourceNodeId
        match port.validate node value session.upstream with
        | (.error failure, u) => (failure, { session with upstream := u })
        | (.ok (), u) =>
            match port.readWriteAccess target u with
            | (.error failure, u) => (failure, { session with upstream := u })
            | (.ok (writable, userWritable), u) =>
                if writable && userWritable then
                  writeResolved text port item target value { session with upstream := u }
                else
                  match port.isNoopWrite target value item.quality item.timestamp u with
                  | (true, u) => ((200, "ok"), { session with upstream := u })
                  | (false, u) => ((403, "target_not_writable"), { session with upstream := u })

def itemResult (item : WriteItem text) (outcome : Outcome) : BulkResultItem :=
  if outcome.1 = 200 then .success item.elementId.value
  else .error item.elementId.value outcome.2 outcome.1

def updateObjectValues (model : BuildResult) :
    List (WriteItem text) → Session U → List BulkResultItem × Session U
  | [], session => ([], session)
  | item :: items, session =>
      let (outcome, session) := writeObjectValueByElementId text port model item session
      let (results, session) := updateObjectValues model items session
      (itemResult text item outcome :: results, session)

/-- One item of the history handler; the flag is `service_unsupported`. -/
def writeHistoryItem (model : BuildResult) (item : WriteItem text) (unsupported : Bool)
    (session : Session U) : Outcome × Bool × Session U :=
  match findModelNode text model item.elementId.value with
  | none => ((404, "Element not found: " ++ item.elementId.value), unsupported, session)
  | some node =>
      if node.kind ≠ .property then
        ((400, "Historical writes require a Variable-backed property element"), unsupported, session)
      else
        match port.validate node item.value session.upstream with
        | (.error failure, u) => (failure, unsupported, { session with upstream := u })
        | (.ok (), u) =>
            if unsupported then
              ((501, "OPC UA HistoryUpdate service is unavailable"), unsupported,
                { session with upstream := u })
            else
              match port.readHistoryWriteAccess node.sourceNodeId u with
              | (.error failure, u) => (failure, unsupported, { session with upstream := u })
              | (.ok (writable, userWritable), u) =>
                  if writable && userWritable then
                    let write : UpstreamWrite :=
                      { kind := .history, elementId := item.elementId.value, target := node.sourceNodeId
                        value := item.value, quality := item.quality, timestamp := item.timestamp }
                    match port.writeHistoryValue node.sourceNodeId item.value item.quality
                      item.timestamp u with
                    | (.error (failure, missing), u) =>
                        (failure, unsupported || missing, session.record u write)
                    | (.ok (), u) => ((200, "ok"), unsupported, session.record u write)
                  else
                    ((403, "Target does not permit historical writes"), unsupported,
                      { session with upstream := u })

def updateHistoricalItems (model : BuildResult) :
    List (WriteItem text) → Bool → Session U → List BulkResultItem × Bool × Session U
  | [], unsupported, session => ([], unsupported, session)
  | item :: items, unsupported, session =>
      let (outcome, unsupported, session) := writeHistoryItem text port model item unsupported session
      let (results, unsupported, session) := updateHistoricalItems model items unsupported session
      (itemResult text item outcome :: results, unsupported, session)

def updateHistoricalValues (model : BuildResult) (items : List (WriteItem text))
    (session : Session U) : List BulkResultItem × Bool × Session U :=
  updateHistoricalItems text port model items (port.historyUpdateSupported = some false) session

end
end I3x.Api

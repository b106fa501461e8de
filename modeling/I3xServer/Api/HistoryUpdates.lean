import I3xServer.OpcUa.HistoryValues

/-!
# History writes down to the service calls

The client reads the type of the target before it calls HistoryUpdate. The bulk
handler stops sending once the service is found missing; it takes the failure of
such a preparatory read for the answer of the service itself.
-/
namespace I3x.Api
open Container I3x.OpcUa

/-- The exceptions that the handler tells apart. -/
inductive Failure where
  | validation (status : Nat) (message : String)
  | value (message : String)
  | status (code : Nat) (message : String)
  | other (message : String)
  deriving DecidableEq, Repr

/-- What `int` raises: a text may be no number, and a missing value is refused as such. -/
inductive IntFailure where
  | valueError (message : String)
  | typeError (message : String)
  | overflowError (message : String)

def IntFailure.toFailure : IntFailure → Failure
  | .valueError message => .value message
  | .typeError message | .overflowError message => .other message

namespace StatusCodes

def badNotImplemented : Nat := 0x80400000
def badNodeIdUnknown : Nat := 0x80340000
def badAttributeIdInvalid : Nat := 0x80350000
def badServiceUnsupported : Nat := 0x800B0000
def badHistoryOperationInvalid : Nat := 0x80710000
def badHistoryOperationUnsupported : Nat := 0x80720000
def badTimestampNotSupported : Nat := 0x80A10000
def badInvalidArgument : Nat := 0x80AB0000

/-- A code without severity bits. -/
def isGood (code : Nat) : Bool := code / 2 ^ 30 % 4 = 0

end StatusCodes

/-- An attribute as the server returns it. -/
structure AttributeValue where
  statusCode : Option Nat
  value : PyValue

structure HistoryUpdateResult where
  statusCode : Nat
  operationResults : List Nat

/-- The server and the schema validator, with the state `U` they may change. -/
structure HistoryPort (U : Type) where
  codec : ScalarCodec
  validate : ModelNode → PyValue → U → Except Failure Unit × U
  getNode : String → Except String Unit
  readAttributes : String → List String → U → Except Failure (List AttributeValue) × U
  readDataTypeAsVariantType : String → U → Except Failure VariantType × U
  historyUpdate : String → HistoricalValue → U → Except Failure HistoryUpdateResult × U
  /-- The text of a status code. -/
  statusText : Nat → String
  /-- The language's `int` and the reading of a list of dimensions. -/
  toInt : PyValue → Except IntFailure Int
  toDimensions : PyValue → List Nat

/-- What happened on the way to one historical value: the outcome of the steps
before the service call, or the answer to the call. -/
inductive HistoryEvent where
  | prepared (target : String) (outcome : Except Failure Unit)
  | updated (target : String) (outcome : Except Failure Unit)

/-- The client object with what it was asked so far. -/
structure HistoryClient (U : Type) where
  server : U
  historyUpdateSupported : Option Bool
  events : List HistoryEvent

def Failure.serviceUnsupported : Failure → Bool
  | .status code _ => code = StatusCodes.badServiceUnsupported
  | _ => false

def classified (text : Text) (message : String) : Outcome :=
  let (status, errorClass) := classifyWriteError text message
  (status, errorClass ++ ": " ++ message)

/-- The handler's `except` clauses. The flag says that the failure makes the whole
service count as missing. -/
def historyFailure (text : Text) (historyUpdateAttempted : Bool) : Failure → Outcome × Bool
  | .validation status message => ((status, message), false)
  | .value message => ((400, message), false)
  | .status code message =>
      if code ∈ [StatusCodes.badHistoryOperationUnsupported, StatusCodes.badNotImplemented] ∨
          (code = StatusCodes.badServiceUnsupported ∧ historyUpdateAttempted) then
        ((501, "OPC UA historical writes unsupported: " ++ message), code = StatusCodes.badServiceUnsupported)
      else if code = StatusCodes.badNodeIdUnknown then ((404, message), false)
      else if code ∈ [StatusCodes.badHistoryOperationInvalid, StatusCodes.badInvalidArgument,
          StatusCodes.badTimestampNotSupported] then
        ((400, message), false)
      else (classified text message, false)
  | .other message => (classified text message, false)

section
variable {U : Type} (port : HistoryPort U)

/-- `StatusCode.check()`. -/
def checkStatus (code : Nat) : Except Failure Unit :=
  if StatusCodes.isGood code then .ok () else .error (.status code (port.statusText code))

/-- The rank and the dimensions that the two type attributes declare. -/
def historyType (attributes : List AttributeValue) : Except Failure (Int × List Nat) :=
  match attributes with
  | [rank, dimensions] =>
      match rank.statusCode, dimensions.statusCode with
      | some rankStatus, some dimensionsStatus =>
          match checkStatus port rankStatus with
          | .error failure => .error failure
          | .ok () =>
              let absent := dimensionsStatus = StatusCodes.badAttributeIdInvalid
              match if absent then .ok () else checkStatus port dimensionsStatus with
              | .error failure => .error failure
              | .ok () =>
                  match port.toInt rank.value with
                  | .error failure => .error failure.toFailure
                  | .ok valueRank => .ok (valueRank, if absent then [] else port.toDimensions dimensions.value)
      | _, _ => .error (.other "Missing OPC UA history type status")
  | _ => .error (.other "Incomplete OPC UA history type response")

/-- Everything `write_history_value` does before it calls the service. -/
def prepareHistoryValue (target : String) (value : PyValue) (quality timestamp : String) (server : U) :
    Except Failure HistoricalValue × U :=
  match port.readDataTypeAsVariantType target server with
  | (.error failure, server) => (.error failure, server)
  | (.ok variantType, server) =>
      match port.readAttributes target ["ValueRank", "ArrayDimensions"] server with
      | (.error failure, server) => (.error failure, server)
      | (.ok attributes, server) =>
          match historyType port attributes with
          | .error failure => (.error failure, server)
          | .ok (valueRank, dimensions) =>
              match historicalDataValue port.codec value quality (port.codec.timestamp timestamp) variantType valueRank
                dimensions with
              | .error (.valueError message) => (.error (.value message), server)
              | .error (.overflowError message) => (.error (.other message), server)
              | .ok dataValue => (.ok dataValue, server)

/-- The overall status of an answer and that of its one operation. -/
def checkUpdate (result : HistoryUpdateResult) : Except Failure Unit :=
  match checkStatus port result.statusCode with
  | .error failure => .error failure
  | .ok () =>
      match result.operationResults with
      | [operation] => checkStatus port operation
      | _ => .error (.other "Incomplete OPC UA HistoryUpdate operation results")

/-- The call of the service with the checks of its answer. -/
def callHistoryUpdate (target : String) (dataValue : HistoricalValue) (server : U) : Except Failure Unit × U :=
  match port.historyUpdate target dataValue server with
  | (.error failure, server) => (.error failure, server)
  | (.ok result, server) => (checkUpdate port result, server)

/-- What the client remembers of an exception that leaves `write_history_value`. -/
def HistoryClient.failed (client : HistoryClient U) (failure : Failure) : HistoryClient U :=
  if failure.serviceUnsupported then { client with historyUpdateSupported := some false } else client

def HistoryClient.log (client : HistoryClient U) (server : U) (event : HistoryEvent) : HistoryClient U :=
  { client with server, events := client.events ++ [event] }

/-- `OpcUaClient.write_history_value`. -/
def clientWriteHistoryValue (target : String) (value : PyValue) (quality timestamp : String)
    (client : HistoryClient U) : Except Failure Unit × HistoryClient U :=
  match port.getNode target with
  | .error message => (.error (.other message), client)
  | .ok () =>
      match prepareHistoryValue port target value quality timestamp client.server with
      | (.error failure, server) =>
          (.error failure, (client.log server (.prepared target (.error failure))).failed failure)
      | (.ok dataValue, server) =>
          let client := client.log server (.prepared target (.ok ()))
          match callHistoryUpdate port target dataValue client.server with
          | (.error failure, server) =>
              (.error failure, (client.log server (.updated target (.error failure))).failed failure)
          | (.ok (), server) =>
              (.ok (), { client.log server (.updated target (.ok ())) with historyUpdateSupported := some true })

/-- Whether an access level includes HistoryWrite. -/
def historyWritable (access : AttributeValue) : Except Failure Bool :=
  match port.toInt access.value with
  | .error failure => .error failure.toFailure
  | .ok level => .ok (level / 8 % 2 = 1)

def accessOf (attributes : List AttributeValue) : Except Failure (Bool × Bool) :=
  match attributes with
  | [access, userAccess] =>
      match access.statusCode with
      | none => .error (.other "Missing OPC UA history access status")
      | some code =>
          match checkStatus port code with
          | .error failure => .error failure
          | .ok () =>
              match userAccess.statusCode with
              | none => .error (.other "Missing OPC UA history access status")
              | some userCode =>
                  match checkStatus port userCode, historyWritable port access, historyWritable port userAccess with
                  | .error failure, _, _ | _, .error failure, _ | _, _, .error failure => .error failure
                  | .ok (), .ok writable, .ok userWritable => .ok (writable, userWritable)
  | _ => .error (.other "Incomplete OPC UA history access response")

/-- `OpcUaClient.read_history_write_access`. -/
def clientReadHistoryWriteAccess (target : String) (client : HistoryClient U) :
    Except Failure (Bool × Bool) × HistoryClient U :=
  match port.getNode target with
  | .error message => (.error (.other message), client)
  | .ok () =>
      match port.readAttributes target ["AccessLevel", "UserAccessLevel"] client.server with
      | (.error failure, server) => (.error failure, { client with server })
      | (.ok attributes, server) => (accessOf port attributes, { client with server })

/-- The exceptions of a call as the handler answers them. -/
def answered {A B : Type} (failed : Failure → B) (result : Except Failure A × HistoryClient U) :
    Except B A × HistoryClient U :=
  match result with
  | (.error failure, client) => (.error (failed failure), client)
  | (.ok value, client) => (.ok value, client)

/-- The client as the bulk handlers see it; they make no current-value call here. -/
def historyWritePort (text : Text) (historyUpdateSupported : Option Bool) : WritePort (HistoryClient U) where
  historyUpdateSupported
  validate node value client :=
    match port.validate node value client.server with
    | (.error failure, server) => (.error (historyFailure text false failure).1, { client with server })
    | (.ok (), server) => (.ok (), { client with server })
  readWriteAccess _ client := (.ok (false, false), client)
  isNoopWrite _ _ _ _ client := (false, client)
  readVariantType _ client := (.ok none, client)
  writeValue _ _ _ _ _ client := (.ok (), client)
  readHistoryWriteAccess target client :=
    answered (fun failure => (historyFailure text false failure).1) (clientReadHistoryWriteAccess port target client)
  writeHistoryValue target value quality timestamp client :=
    answered (historyFailure text true) (clientWriteHistoryValue port target value quality timestamp client)
  b64decode := port.codec.b64decode

/-- The HTTP answer of the bulk handler. -/
structure BulkHistoryResponse where
  status : Nat
  results : List BulkResultItem

/-- `update_historical_values_v1` with writes enabled. -/
def updateHistoricalValuesV1 (text : Text) (model : BuildResult) (items : List (WriteItem text))
    (client : HistoryClient U) : BulkHistoryResponse × Bool × HistoryClient U :=
  let (results, unsupported, session) :=
    updateHistoricalValues text (historyWritePort port text client.historyUpdateSupported) model items ⟨client, []⟩
  let status := if unsupported && !results.any BulkResultItem.ok then 501 else 200
  (⟨status, results⟩, unsupported, session.upstream)

end

/-! ## What a request asks of the service -/

def HistoryEvent.isUpdate : HistoryEvent → Bool
  | .prepared .. => false
  | .updated .. => true

/-- The step failed with the code of a missing service. -/
def HistoryEvent.serviceUnsupported : HistoryEvent → Bool
  | .prepared _ (.error failure) | .updated _ (.error failure) => failure.serviceUnsupported
  | .prepared _ (.ok _) | .updated _ (.ok _) => false

def BulkResultItem.elementId : BulkResultItem → String
  | .success elementId => elementId
  | .error elementId _ _ => elementId

/-- The service is missing: it was known to be, or a call of it said so. -/
def ServiceMissing (historyUpdateSupported : Option Bool) (events : List HistoryEvent) : Prop :=
  historyUpdateSupported = some false ∨ ∃ event ∈ events, event.isUpdate = true ∧ event.serviceUnsupported = true

/-- What the bulk handler promises of its answer and of the calls it makes. -/
structure BulkHistory {text : Text} (items : List (WriteItem text)) (historyUpdateSupported : Option Bool)
    (response : BulkHistoryResponse) (unsupported : Bool) (events : List HistoryEvent) : Prop where
  ordered : response.results.map BulkResultItem.elementId = items.map fun item => item.elementId.value
  once : ∃ calls : List (List HistoryEvent), events = calls.flatten ∧
    List.Forall₂ (fun _ own => (own.filter HistoryEvent.isUpdate).length ≤ 1) items calls
  quiet : ∀ earlier event later, events = earlier ++ event :: later → event.isUpdate = true →
    event.serviceUnsupported = true → ∀ other ∈ later, other.isUpdate = false
  missing : unsupported = true → ServiceMissing historyUpdateSupported events
  status : response.status = 501 ↔
    ServiceMissing historyUpdateSupported events ∧ ∀ result ∈ response.results, result.ok = false

/-- How a part of a request moves the flag: nothing happens once it is set, and an
event that sets it is the last one. -/
structure Trace (before after : Bool) (events : List HistoryEvent) : Prop where
  stopped : before = true → events = []
  flagged : after = true ↔ before = true ∨ ∃ event ∈ events, event.serviceUnsupported = true
  last : ∀ event ∈ events.dropLast, event.serviceUnsupported = false

theorem Trace.nil (flag : Bool) : Trace flag flag [] := ⟨fun _ => rfl, by simp, nofun⟩

theorem Trace.append {first second third : Bool} {events more : List HistoryEvent} (trace : Trace first second events)
    (next : Trace second third more) : Trace first third (events ++ more) where
  stopped set := by
    have none_first := trace.stopped set
    have none_second := next.stopped (trace.flagged.mpr (.inl set))
    rw [none_first, none_second, List.append_nil]
  flagged := by
    rw [next.flagged, trace.flagged, or_assoc]
    simp only [List.mem_append, or_and_right, exists_or]
  last := by
    cases more with
    | nil =>
        rw [List.append_nil]
        exact trace.last
    | cons event more =>
        have unset : second ≠ true := fun set => absurd (next.stopped set) (List.cons_ne_nil _ _)
        rw [List.dropLast_append_of_ne_nil (List.cons_ne_nil _ _)]
        intro other m
        rcases List.mem_append.mp m with old | new
        · exact Bool.eq_false_iff.mpr fun bad => unset (trace.flagged.mpr (.inr ⟨other, old, bad⟩))
        · exact next.last other new

theorem Trace.single (event : HistoryEvent) : Trace false event.serviceUnsupported [event] :=
  ⟨nofun, by simp, nofun⟩

theorem Trace.prepared (target : String) (event : HistoryEvent) :
    Trace false event.serviceUnsupported [.prepared target (.ok ()), event] :=
  (Trace.single (.prepared target (.ok ()))).append (Trace.single event)

theorem Trace.unique {before after : Bool} {events : List HistoryEvent} (trace : Trace before after events)
    {first second : HistoryEvent} (m₁ : first ∈ events) (m₂ : second ∈ events)
    (bad₁ : first.serviceUnsupported = true) (bad₂ : second.serviceUnsupported = true) : first = second := by
  have nonempty : events ≠ [] := List.ne_nil_of_mem m₁
  have at_end : ∀ event ∈ events, event.serviceUnsupported = true → event = events.getLast nonempty := by
    intro event m bad
    rw [← List.dropLast_append_getLast nonempty] at m
    rcases List.mem_append.mp m with early | late
    · rw [trace.last event early] at bad
      cases bad
    · exact List.mem_singleton.mp late
  rw [at_end first m₁ bad₁, at_end second m₂ bad₂]

theorem historyFailure_flag (text : Text) (failure : Failure) :
    (historyFailure text true failure).2 = failure.serviceUnsupported := by
  cases failure with
  | status code message =>
      by_cases missing : code = StatusCodes.badServiceUnsupported
      · simp [historyFailure, Failure.serviceUnsupported, missing]
      · simp only [historyFailure, Failure.serviceUnsupported, missing]
        split
        · rfl
        · split
          · rfl
          · split <;> rfl
  | validation status message => rfl
  | value message => rfl
  | other message => rfl

@[simp] theorem HistoryClient.failed_events {U : Type} (client : HistoryClient U) (failure : Failure) :
    (client.failed failure).events = client.events := by
  unfold HistoryClient.failed
  split <;> rfl

@[simp] theorem HistoryClient.log_events {U : Type} (client : HistoryClient U) (server : U) (event : HistoryEvent) :
    (client.log server event).events = client.events ++ [event] := rfl

/-- The events that one item adds, with the flag before and after it. -/
def ItemTrace (before after : Bool) (start finish : List HistoryEvent) : Prop :=
  ∃ own, finish = start ++ own ∧ (own.filter HistoryEvent.isUpdate).length ≤ 1 ∧ Trace before after own

theorem ItemTrace.quiet (flag : Bool) (events : List HistoryEvent) : ItemTrace flag flag events events :=
  ⟨[], (List.append_nil _).symm, Nat.zero_le _, Trace.nil flag⟩

/-- The flag that the answer to one write carries. -/
def missingService : Except (Outcome × Bool) Unit → Bool
  | .error (_, missing) => missing
  | .ok () => false

section
variable {U : Type} (port : HistoryPort U) (text : Text)

theorem clientWriteHistoryValue_trace (target : String) (value : PyValue) (quality timestamp : String)
    (client : HistoryClient U) :
    ItemTrace false
      (missingService (answered (historyFailure text true)
        (clientWriteHistoryValue port target value quality timestamp client)).1)
      client.events (clientWriteHistoryValue port target value quality timestamp client).2.events := by
  unfold clientWriteHistoryValue
  cases found : port.getNode target with
  | error message => exact ItemTrace.quiet false _
  | ok node =>
      rcases prepared : prepareHistoryValue port target value quality timestamp client.server with ⟨failure | data, server⟩
      · refine ⟨[.prepared target (.error failure)], ?_, Nat.zero_le _, ?_⟩
        · simp only [HistoryClient.failed_events, HistoryClient.log_events]
        · simp only [answered, missingService, historyFailure_flag]
          exact Trace.single (.prepared target (.error failure))
      · rcases called : callHistoryUpdate port target data server with ⟨failure | answer, last⟩
        · refine ⟨[.prepared target (.ok ()), .updated target (.error failure)], ?_, Nat.le_refl _, ?_⟩
          · simp [called, HistoryClient.log]
          · simp only [HistoryClient.log, called, answered, missingService, historyFailure_flag]
            exact Trace.prepared target (.updated target (.error failure))
        · refine ⟨[.prepared target (.ok ()), .updated target (.ok ())], ?_, Nat.le_refl _, ?_⟩
          · simp [called, HistoryClient.log]
          · simp only [HistoryClient.log, called, answered, missingService]
            exact Trace.prepared target (.updated target (.ok ()))

theorem clientReadHistoryWriteAccess_events (target : String) (client : HistoryClient U) :
    (clientReadHistoryWriteAccess port target client).2.events = client.events := by
  unfold clientReadHistoryWriteAccess
  split
  · rfl
  · split <;> rfl

theorem answered_events {A B : Type} (failed : Failure → B) (result : Except Failure A × HistoryClient U) :
    (answered failed result).2 = result.2 := by
  unfold answered
  split <;> rfl

theorem historyWritePort_validate_events (supported : Option Bool) (node : ModelNode) (value : PyValue)
    (client : HistoryClient U) :
    ((historyWritePort port text supported).validate node value client).2.events = client.events := by
  simp only [historyWritePort]
  split <;> rfl

/-- One item leaves a trace, whichever way it ends. -/
theorem writeHistoryItem_trace (supported : Option Bool) (model : BuildResult) (item : WriteItem text)
    (flag : Bool) (session : Session (HistoryClient U)) :
    ItemTrace flag (writeHistoryItem text (historyWritePort port text supported) model item flag session).2.1
      session.upstream.events
      (writeHistoryItem text (historyWritePort port text supported) model item flag session).2.2.upstream.events := by
  unfold writeHistoryItem
  cases findModelNode text model item.elementId.value with
  | none => exact ItemTrace.quiet flag _
  | some node =>
      dsimp only
      by_cases property : node.kind ≠ .property
      · rw [if_pos property]
        exact ItemTrace.quiet flag _
      rw [if_neg property]
      have validated := historyWritePort_validate_events port text supported node item.value session.upstream
      rcases validation : (historyWritePort port text supported).validate node item.value session.upstream with
        ⟨failure | answer, client⟩
      all_goals
        rw [validation] at validated
        dsimp only at validated
        rw [← validated]
      · exact ItemTrace.quiet flag _
      cases flag with
      | true => exact ItemTrace.quiet true _
      | false =>
          have read : ((historyWritePort port text supported).readHistoryWriteAccess node.sourceNodeId client).2.events
              = client.events := by
            rw [← clientReadHistoryWriteAccess_events port node.sourceNodeId client]
            exact congrArg HistoryClient.events (answered_events _ _)
          rcases access : (historyWritePort port text supported).readHistoryWriteAccess node.sourceNodeId client with
            ⟨failure | ⟨writable, userWritable⟩, client⟩
          all_goals
            simp only [Bool.false_eq_true, if_false, access]
            rw [access] at read
            dsimp only at read
            rw [← read]
          · exact ItemTrace.quiet false _
          by_cases permitted : (writable && userWritable) = true
          · have own := clientWriteHistoryValue_trace port text node.sourceNodeId item.value item.quality
              item.timestamp client
            rw [← answered_events (historyFailure text true)] at own
            simp only [permitted, if_true]
            rcases called : (historyWritePort port text supported).writeHistoryValue node.sourceNodeId item.value
              item.quality item.timestamp client with ⟨⟨outcome, missing⟩ | answer, client⟩
            all_goals
              have call : answered (historyFailure text true)
                  (clientWriteHistoryValue port node.sourceNodeId item.value item.quality item.timestamp _) = _ := called
              rw [call] at own
              exact own
          · simp only [permitted]
            exact ItemTrace.quiet false _

/-- The items' traces follow each other in the order of the request. -/
theorem updateHistoricalItems_trace (supported : Option Bool) (model : BuildResult) (items : List (WriteItem text))
    (flag : Bool) (session : Session (HistoryClient U)) :
    let run := updateHistoricalItems text (historyWritePort port text supported) model items flag session
    ∃ calls : List (List HistoryEvent),
      run.2.2.upstream.events = session.upstream.events ++ calls.flatten ∧
      List.Forall₂ (fun _ own => (own.filter HistoryEvent.isUpdate).length ≤ 1) items calls ∧
      Trace flag run.2.1 calls.flatten := by
  induction items generalizing flag session with
  | nil => exact ⟨[], (List.append_nil _).symm, .nil, Trace.nil flag⟩
  | cons item items ih =>
      obtain ⟨own, sent, atMost, trace⟩ := writeHistoryItem_trace port text supported model item flag session
      obtain ⟨calls, more, each, next⟩ :=
        ih (writeHistoryItem text (historyWritePort port text supported) model item flag session).2.1
          (writeHistoryItem text (historyWritePort port text supported) model item flag session).2.2
      refine ⟨own :: calls, ?_, .cons atMost each, trace.append next⟩
      rw [sent, List.append_assoc] at more
      exact more

theorem itemResult_elementId (item : WriteItem text) (outcome : Outcome) :
    (itemResult text item outcome).elementId = item.elementId.value := by
  unfold itemResult
  split <;> rfl

theorem updateHistoricalItems_elementIds {V : Type} (port : WritePort V) (model : BuildResult)
    (items : List (WriteItem text)) (flag : Bool) (session : Session V) :
    (updateHistoricalItems text port model items flag session).1.map BulkResultItem.elementId =
      items.map fun item => item.elementId.value := by
  induction items generalizing flag session with
  | nil => rfl
  | cons item items ih => exact congrArg₂ List.cons (itemResult_elementId text item _) (ih _ _)

/-- No step before a service call failed as if the service itself were missing. -/
def PreparedApart (events : List HistoryEvent) : Prop :=
  ∀ event ∈ events, event.isUpdate = false → event.serviceUnsupported = false

/-- Under a trace the flag tells of the service exactly if no preparation does. -/
theorem Trace.serviceMissing {supported : Option Bool} {after : Bool} {events : List HistoryEvent}
    (trace : Trace (supported = some false) after events) :
    (after = true → ServiceMissing supported events) ↔ PreparedApart events := by
  rw [trace.flagged, decide_eq_true_eq]
  constructor
  · intro known event m prepared
    rw [Bool.eq_false_iff]
    intro bad
    rcases known (.inr ⟨event, m, bad⟩) with before | ⟨update, present, called, missing⟩
    · rw [trace.stopped (decide_eq_true before)] at m
      cases m
    · rw [trace.unique m present bad missing, called] at prepared
      cases prepared
  · rintro apart (before | ⟨event, m, bad⟩)
    · exact .inl before
    · refine .inr ⟨event, m, ?_, bad⟩
      by_contra prepared
      rw [apart event m (Bool.eq_false_iff.mpr prepared)] at bad
      cases bad

theorem Trace.flag_of_missing {supported : Option Bool} {after : Bool} {events : List HistoryEvent}
    (trace : Trace (supported = some false) after events) (missing : ServiceMissing supported events) :
    after = true := by
  rw [trace.flagged, decide_eq_true_eq]
  rcases missing with before | ⟨event, m, -, bad⟩
  · exact .inl before
  · exact .inr ⟨event, m, bad⟩

variable {text}

theorem Trace.bulkHistory {items : List (WriteItem text)} {supported : Option Bool} {results : List BulkResultItem}
    {unsupported : Bool} {events : List HistoryEvent} (trace : Trace (supported = some false) unsupported events)
    (named : results.map BulkResultItem.elementId = items.map fun item => item.elementId.value)
    (once : ∃ calls : List (List HistoryEvent), events = calls.flatten ∧
      List.Forall₂ (fun _ own => (own.filter HistoryEvent.isUpdate).length ≤ 1) items calls) :
    BulkHistory items supported ⟨if unsupported && !results.any BulkResultItem.ok then 501 else 200, results⟩
      unsupported events ↔ PreparedApart events := by
  rw [← trace.serviceMissing]
  refine ⟨fun promised => promised.missing, fun missing => ⟨named, once, ?_, missing, ?_⟩⟩
  · intro earlier event later split called bad other m
    -- An event that reports the service missing is the last one.
    have early : event ∈ events.dropLast := by
      rw [split, List.dropLast_append_of_ne_nil (List.cons_ne_nil _ _),
        List.dropLast_cons_of_ne_nil (List.ne_nil_of_mem m)]
      exact List.mem_append_right _ List.mem_cons_self
    rw [trace.last event early] at bad
    cases bad
  · have flag : unsupported = true ↔ ServiceMissing supported events := ⟨missing, trace.flag_of_missing⟩
    rw [← flag]
    cases unsupported <;> cases succeeded : results.any BulkResultItem.ok <;> simp_all

/-- A bulk history request keeps its promises exactly if no preparatory read inside
`write_history_value` answers with the code of a missing service. -/
theorem updateHistoricalValuesV1_bulk (model : BuildResult) (items : List (WriteItem text))
    (supported : Option Bool) (server : U) :
    let (response, unsupported, client) := updateHistoricalValuesV1 port text model items ⟨server, supported, []⟩
    BulkHistory items supported response unsupported client.events ↔ PreparedApart client.events := by
  obtain ⟨calls, sent, each, trace⟩ := updateHistoricalItems_trace port text supported model items
    (supported = some false) ⟨⟨server, supported, []⟩, []⟩
  have named := updateHistoricalItems_elementIds text (historyWritePort port text supported) model items
    (supported = some false) ⟨⟨server, supported, []⟩, []⟩
  rw [List.nil_append] at sent
  rw [← sent] at trace
  exact trace.bulkHistory named ⟨calls, sent, each⟩

end

/-- A server that offers HistoryUpdate but refuses to tell the type of a node. -/
def typeless : HistoryPort Unit where
  codec :=
    { toFloat := fun _ => none
      isFinite := fun _ => true
      fitsSingle := fun _ => true
      fromisoformat := .error
      uuid := .ok
      b64decode := fun _ => none
      timestamp := fun _ => ⟨0, some 0, calendarEnd_pos⟩ }
  validate _ _ u := (.ok (), u)
  getNode _ := .ok ()
  readAttributes _ _ u := (.ok [⟨some 0, .int 8⟩, ⟨some 0, .int 8⟩], u)
  readDataTypeAsVariantType _ u := (.error (.status StatusCodes.badServiceUnsupported "BadServiceUnsupported"), u)
  historyUpdate _ _ u := (.ok ⟨0, [0]⟩, u)
  statusText _ := "Good"
  toInt
    | .int i => .ok i
    | _ => .error (.typeError "int() argument must be a number")
  toDimensions _ := []

/-- One property below no parent. -/
def levelModel : BuildResult where
  nodesById := .ofList [("level", ⟨"level", "Level", .property, none, [], "ns=2;s=Level"⟩)]
  childrenById := .empty
  nodeIdByName := .empty
  nodeIdByType := .empty

def levelUpdate : WriteItem Text.ascii where
  elementId := ⟨"level", by decide⟩
  value := .int 7
  quality := "Good"
  timestamp := "2026-01-01T00:00:00+00:00"

/-- The request is answered with 501 although the service was never called. -/
theorem updateHistoricalValuesV1_misread :
    let (response, unsupported, client) :=
      updateHistoricalValuesV1 typeless Text.ascii levelModel [levelUpdate] ⟨(), none, []⟩
    response.status = 501 ∧ unsupported = true ∧ client.events.filter HistoryEvent.isUpdate = [] ∧
      ¬ BulkHistory [levelUpdate] none response unsupported client.events := by
  refine ⟨rfl, rfl, rfl, fun promised => ?_⟩
  have missing : ServiceMissing none [.prepared "ns=2;s=Level"
      (.error (.status StatusCodes.badServiceUnsupported "BadServiceUnsupported"))] := promised.missing rfl
  rcases missing with known | ⟨event, m, called, -⟩
  · cases known
  · rw [List.mem_singleton.mp m] at called
    cases called

end I3x.Api

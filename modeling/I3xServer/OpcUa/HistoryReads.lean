import I3xServer.Container.Dialogue
import I3xServer.Container.Dict
import I3xServer.Domain.Text
import I3xServer.OpcUa.ReadValues
import Mathlib.Data.List.Infix

/-!
# Reading the history of many nodes

`readHistoryValues` reads its nodes in batches side by side. A batch goes on with the
continuation points of the nodes that have more pages, and a request that the server
finds too large is halved. What the server and the connection do is left to the answers.
-/
namespace I3x.OpcUa
open Container

abbrev Bytes := List UInt8

/-- The answer for one node. `check` is the text of the error that checking the status
raises; an empty continuation point counts as none. -/
structure HistoryReadResult (V : Type) where
  check : Option String
  dataValues : Option (List V)
  continuationPoint : Option Bytes
  deriving DecidableEq, Repr

structure RequestError where
  text : String
  statusCode : Option Nat
  isTimeout : Bool
  isConnectionError : Bool
  deriving DecidableEq, Repr

/-- The text operations, and how an id that names no node is refused. -/
structure HistoryClient where
  text : Text
  getNode : String → Option RequestError

inductive HistoryQuery where
  | historyRead (nodesToRead : List (String × Option Bytes))
  | waitForReconnect (error : RequestError)

def HistoryAnswer (V : Type) : HistoryQuery → Type
  | .historyRead _ => Except RequestError (List (HistoryReadResult V))
  | .waitForReconnect _ => Except RequestError Unit

inductive HistoryFailure where
  | raised (error : RequestError)
  | status (text : String)
  | resultCount (results nodes : Nat)
  | incomplete (nodeId : String)
  | exhausted
  deriving DecidableEq, Repr

abbrev HistoryDialogue (V α : Type) := Dialogue HistoryQuery (HistoryAnswer V) (Except HistoryFailure α)

abbrev HistoryLog (V : Type) := List (Exchange HistoryQuery (HistoryAnswer V))

/-- The status codes of a lost session, channel or connection. -/
def connectionLostStatusCodes : List Nat :=
  [0x80260000, 0x80250000, 0x80270000, 0x80860000, 0x80220000, 0x80AE0000, 0x808A0000, 0x800D0000, 0x80050000]

def connectionLostMarkers : List String :=
  ["connection is closed", "connection is not open", "connection reset", "broken pipe", "transport closed",
    "client is disconnected", "client is disconnecting", "badsessionclosed", "badsessionidinvalid",
    "badsecurechannelclosed"]

def historyMissingMarkers : List String :=
  ["badhistoryoperationunsupported", "historyoperationunsupported", "historyread not supported",
    "history read not supported", "badnodata", "goodnodata", "no data exists for the requested time range"]

namespace HistoryClient

/-- A text has a marker, case aside. -/
def mentions (client : HistoryClient) (text marker : String) : Bool :=
  decide (marker.toList <:+: (client.text.lower text).toList)

def shouldRetryAfterDisconnect (client : HistoryClient) (error : RequestError) : Bool :=
  match error.statusCode with
  | some code => code ∈ connectionLostStatusCodes
  | none =>
      if error.isTimeout then false
      else if client.mentions error.text "waiting for client to reconnect" then false
      else if error.isConnectionError then true
      else connectionLostMarkers.any (client.mentions error.text)

def isTooManyOperationsError (client : HistoryClient) (error : RequestError) : Bool :=
  client.mentions error.text "badtoomanyoperations" || client.mentions error.text "too many operations"

def isHistoryMissingOrUnsupported (client : HistoryClient) (text : String) : Bool :=
  historyMissingMarkers.any (client.mentions text)

variable {V : Type} (client : HistoryClient)

/-- One result for each node, or the answer is refused. -/
def counted (nodesToRead : List (String × Option Bytes)) (results : List (HistoryReadResult V)) :
    Except HistoryFailure (List (HistoryReadResult V)) :=
  if results.length ≠ nodesToRead.length then .error (.resultCount results.length nodesToRead.length)
  else .ok results

def readHistoryBatch (nodesToRead : List (String × Option Bytes)) : HistoryDialogue V (List (HistoryReadResult V)) :=
  match nodesToRead.findSome? fun entry => client.getNode entry.1 with
  | some refused => .done (.error (.raised refused))
  | none => .ask (.historyRead nodesToRead) fun
      | .ok results => .done (counted nodesToRead results)
      | .error error =>
          if client.shouldRetryAfterDisconnect error then
            .ask (.waitForReconnect error) fun
              | .error gone => .done (.error (.raised gone))
              | .ok () => .ask (.historyRead nodesToRead) fun
                  | .error again => .done (.error (.raised again))
                  | .ok results => .done (counted nodesToRead results)
          else if client.isTooManyOperationsError error ∧ 1 < nodesToRead.length then
            let splitAt := max 1 (nodesToRead.length / 2)
            (readHistoryBatch (nodesToRead.take splitAt)).attempt fun left =>
              (readHistoryBatch (nodesToRead.drop splitAt)).attempt fun right => .done (.ok (left ++ right))
          else .done (.error (.raised error))
termination_by nodesToRead.length
decreasing_by
  · simp only [List.length_take]; omega
  · simp only [List.length_drop]; omega

/-- What one round over the active nodes has read, and the nodes that have more. -/
structure HistoryRound (V : Type) where
  values : Dict String (List V)
  nextNodeIds : List String
  nextContinuations : Dict String Bytes

def takeResult (round : HistoryRound V) (entry : String × HistoryReadResult V) :
    Except HistoryFailure (HistoryRound V) :=
  match entry.2.check with
  | some text =>
      if client.isHistoryMissingOrUnsupported text then .ok { round with values := round.values.set entry.1 [] }
      else .error (.status text)
  | none =>
      match entry.2.dataValues with
      | none => .error (.incomplete entry.1)
      | some dataValues =>
          let values := round.values.modify entry.1 (· ++ dataValues)
          match entry.2.continuationPoint with
          | none | some [] => .ok { round with values }
          | some point => .ok ⟨values, round.nextNodeIds ++ [entry.1], round.nextContinuations.set entry.1 point⟩

/-- The entries of the next request: every active node with its continuation point. -/
def HistoryRound.nodesToRead (round : HistoryRound V) : List (String × Option Bytes) :=
  round.nextNodeIds.map fun nodeId => (nodeId, round.nextContinuations.get? nodeId)

def followContinuations : Nat → List String → List (HistoryReadResult V) → Dict String (List V) →
    HistoryDialogue V (Dict String (List V))
  | fuel, activeNodeIds, activeResults, values =>
      match (activeNodeIds.zip activeResults).foldlM (takeResult client) ⟨values, [], .empty⟩ with
      | .error failure => .done (.error failure)
      | .ok round =>
          if round.nextNodeIds = [] then .done (.ok round.values)
          else
            match fuel with
            | 0 => .done (.error .exhausted)
            | fuel + 1 => (readHistoryBatch client round.nodesToRead).attempt fun results =>
                followContinuations fuel round.nextNodeIds results round.values

/-- One batch, from its first request on. -/
def readHistoryOf (fuel : Nat) (nodeBatch : List String) : HistoryDialogue V (Dict String (List V)) :=
  (readHistoryBatch client (nodeBatch.map fun nodeId => (nodeId, none))).attempt fun batchValues =>
    followContinuations client fuel nodeBatch batchValues (.ofList (nodeBatch.map fun nodeId => (nodeId, [])))

/-- `limits.max_nodes_per_history_read_data or len(node_ids)` -/
def historyBatches (maxNodes : Option Nat) (nodeIds : List String) : List (List String) :=
  let batchSize :=
    match maxNodes with
    | none | some 0 => nodeIds.length
    | some limit => limit
  chunked nodeIds (max 1 batchSize)

def mergeBatches (batches : List (Dict String (List V))) : Dict String (List V) :=
  batches.foldl (fun values batch => values.update batch.entries) .empty

/-- What comes of batches that run side by side: all their values, or what one of them raises. -/
inductive Gathered : List (Except HistoryFailure (Dict String (List V))) →
    Except HistoryFailure (Dict String (List V)) → Prop where
  | all (batches : List (Dict String (List V))) : Gathered (batches.map .ok) (.ok (mergeBatches batches))
  | raised {outcomes : List (Except HistoryFailure (Dict String (List V)))} {failure : HistoryFailure}
      (m : .error failure ∈ outcomes) : Gathered outcomes (.error failure)

/-- A run of the whole read. The batches interleave as they may: the run of a batch is made
of its own exchanges, in their order. -/
def ReadHistoryValues (fuel : Nat) (maxNodes : Option Nat) (nodeIds : List String)
    (runs : List (HistoryLog V × Except HistoryFailure (Dict String (List V))))
    (outcome : Except HistoryFailure (Dict String (List V))) : Prop :=
  List.Forall₂ (fun batch run => Dialogue.Run (readHistoryOf client fuel batch) run.1 run.2)
    (historyBatches maxNodes nodeIds) runs ∧ Gathered (runs.map Prod.snd) outcome

/-- A client for texts in lower case. -/
def lowerCaseClient : HistoryClient := ⟨⟨id, id, fun _ => true⟩, fun _ => none⟩

/-- The server's error on a request that has too many operations. -/
def tooMany : RequestError := ⟨"badtoomanyoperations", some 0x80100000, false, false⟩

theorem tooMany_noticed : lowerCaseClient.isTooManyOperationsError tooMany = true := by
  rw [isTooManyOperationsError, mentions, Bool.or_eq_true, decide_eq_true_iff]
  exact .inl (List.infix_refl _)

end HistoryClient
end I3x.OpcUa

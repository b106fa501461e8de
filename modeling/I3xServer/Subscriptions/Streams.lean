import I3xServer.Subscriptions.Service

/-!
# Stream sessions and sync requests

The application service above the subscription service: opening a stream,
producing its events, and answering `POST /subscriptions/sync`. A stream takes a
number of rounds after which its client is gone; a run of any finite length
fits into enough of them.
-/
namespace I3x.Subscriptions
open Coroutine Program
variable {V : Type} (settings : Settings V)

def streamTimeoutMs : Nat := 2000

structure StreamSession (V : Type) where
  clientId : String
  subscriptionId : SubscriptionId
  streamGeneration : Nat
  scopeRelaxed : Bool
  acknowledged : SubscriptionSyncResult V

/-- The client id of a request, unless it is missing or blank. -/
def requiredClientId (clientId : Option String) : Option String :=
  clientId.bind fun clientId => if settings.text.strip clientId = "" then none else some clientId

/-- Activate the stream in the client's scope, or else without a scope. -/
def openStream (clientId : String) (id : SubscriptionId) : Act V (Option (Nat × Bool)) := do
  let scopedGeneration ← activateStream (some clientId) id
  match scopedGeneration with
  | some generation => pure (some (generation, false))
  | none =>
      let generation ← activateStream none id
      pure (generation.map fun generation => (generation, true))

/-- The session, or the status of the error response. -/
def beginStreamSession (clientId : Option String) (id : SubscriptionId) :
    Act V (Except Nat (StreamSession V)) :=
  match requiredClientId settings clientId with
  | none => pure (.error 400)
  | some clientId => do
      let normalizedClientId := settings.text.strip clientId
      let opened ← openStream normalizedClientId id
      match opened with
      | none => pure (.error 404)
      | some (streamGeneration, scopeRelaxed) =>
          let scope := if scopeRelaxed then none else some normalizedClientId
          let acknowledged ← sync settings scope id none true
          match acknowledged with
          | none => pure (.error 404)
          | some acknowledged =>
              pure (.ok
                { clientId := normalizedClientId, subscriptionId := id, streamGeneration, scopeRelaxed
                  acknowledged })

/-- Yield one event; the reply says whether the client is still there. -/
def emit (id : SubscriptionId) (event : StreamEvent V) : Act V Bool := await (.emit id event)

def streamRounds (session : StreamSession V) : Nat → Nat → Act V Unit
  | 0, _ => pure ()
  | rounds + 1, lastSequence => do
      let active ← isStreamActive session.subscriptionId session.streamGeneration
      if active then
        let waited ← waitForUpdates settings (some session.clientId) session.subscriptionId lastSequence
          streamTimeoutMs
        match waited with
        | .disconnected => pure ()
        | .closed =>
            let _ ← emit session.subscriptionId .close
        | .ready updates =>
            match updates.getLast? with
            | none =>
                let present ← emit session.subscriptionId .keepalive
                if present then streamRounds session rounds lastSequence
            | some last =>
                let present ← emit session.subscriptionId (.updates updates)
                if present then streamRounds session rounds last.sequenceNumber
      else
        let _ ← emit session.subscriptionId .close

/-- A session ends and leaves the flag as it is. -/
def missDeactivation (id : SubscriptionId) (generation : Nat) : Act V Unit :=
  note fun s => [.deactivationMissed id (isStreamActiveSection id generation s).1]

/-- The end of a generator. The cancellation that follows a client's departure strikes at
every suspension, so also while the deactivation waits for the lock. -/
def finallyDeactivate (id : SubscriptionId) (generation : Nat) : Act V Unit := do
  let completed : Bool ← await (.finalDeactivation id)
  if completed then deactivateStream id generation else missDeactivation id generation

def iterStreamEvents (session : StreamSession V) (rounds : Nat) : Act V Unit := do
  let present ← emit session.subscriptionId .connected
  if present then
    match session.acknowledged.updates.getLast? with
    | none => streamRounds settings session rounds 0
    | some last =>
        let present ← emit session.subscriptionId (.updates session.acknowledged.updates)
        if present then streamRounds settings session rounds last.sequenceNumber
  finallyDeactivate session.subscriptionId session.streamGeneration

/-- Produce the response of a session; a client that is gone before the first event
is pulled leaves the generator unstarted, its end included. -/
def respondStream (session : StreamSession V) (rounds : Nat) : Act V Unit := do
  let started : Bool ← await (.startResponse session.subscriptionId)
  if started then iterStreamEvents settings session rounds
  else missDeactivation session.subscriptionId session.streamGeneration

def streamSubscription (clientId : Option String) (id : SubscriptionId) (rounds : Nat) : Act V Nat := do
  let session ← beginStreamSession settings clientId id
  match session with
  | .error status => pure status
  | .ok session =>
      respondStream settings session rounds
      pure 200

/-- The answer to `POST /subscriptions/sync`. -/
inductive SyncResponse (V : Type) where
  | error (status : Nat)
  | success (updates : List (SubscriptionUpdate V))
  | dropped (updates : List (SubscriptionUpdate V)) (fromSequence toSequence : Option Nat)

def SyncResponse.status : SyncResponse V → Nat
  | .error status => status
  | .success _ => 200
  | .dropped .. => 206

def SyncResponse.ofResult (result : SubscriptionSyncResult V) : SyncResponse V :=
  if result.streamActive then .error 400
  else if result.queueOverflow then
    .dropped result.updates result.droppedFromSequence result.droppedToSequence
  else .success result.updates

def syncSubscription (clientId : Option String) (id : SubscriptionId) (lastSequenceNumber : Option Int) :
    Act V (SyncResponse V) :=
  match requiredClientId settings clientId with
  | none => pure (.error 400)
  | some clientId => do
      let result ← sync settings (some clientId) id lastSequenceNumber false
      match result with
      | none => pure (.error 404)
      | some result => pure (.ofResult result)

end I3x.Subscriptions

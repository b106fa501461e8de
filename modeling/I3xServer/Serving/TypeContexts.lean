import I3xServer.Coroutine.Exclusion
import I3xServer.Coroutine.History
import I3xServer.Serving.EntityTags

/-!
# The object type context

What requests need to know of the object types is built from a model, the namespaces
and the listed types, and kept with tokens of these three. A request whose tokens are
other ones is answered with what is kept, and a rebuild is scheduled beside it; without
anything kept it builds for itself. Builds take the context lock. The revisions that a
response records are those of the data it was made of.
-/
namespace I3x.Serving
open Coroutine Program Container
variable {M N T E : Type}

/-- `_ObjectTypeContext`; the content is the items and the two maps of element ids. -/
structure ObjectTypeContext (N T E : Type) where
  namespaceInfos : N
  objectTypes : T
  content : E
  revision : String

structure CachedContext (N T E : Type) where
  modelToken : String
  namespaceToken : N
  objectTypesToken : String
  context : ObjectTypeContext N T E

/-- The task of the last rebuild in the background. -/
inductive RefreshTask (M : Type) where
  | done
  | scheduled (model : M)
  | running

structure ContextState (M N T E : Type) where
  modelCache : Option M
  contextCache : Option (CachedContext N T E)
  refreshTask : RefreshTask M

inductive ContextLock where
  | objectTypeLock
  deriving DecidableEq, Repr

instance : Fintype ContextLock := ⟨{.objectTypeLock}, fun l => by cases l; decide⟩

/-- What the calls await; each of it may raise. -/
inductive ContextRequest (M N T : Type) where
  | namespaceInfos
  | objectTypes
  | buildContext (model : M) (namespaceInfos : N) (objectTypes : T)

abbrev ContextReply (M N T E : Type) : ContextRequest M N T → Type
  | .namespaceInfos => Option N
  | .objectTypes => Option T
  | .buildContext _ _ _ => Option E

/-- A rebuild is scheduled; a context is served that is not of the tokens asked for. -/
inductive ContextNote where
  | scheduled | servingStale
  deriving DecidableEq, Repr

abbrev ContextAct (M N T E : Type) :=
  Program (ContextState M N T E) ContextLock ContextNote (ContextRequest M N T) (ContextReply M N T E)

def upstream (q : ContextRequest M N T) : ContextAct M N T E (ContextReply M N T E q) := ask q

/-- The hashes of the contents. -/
structure ContentHashes (M N T E : Type) where
  modelRevision : M → String
  namespacesRevision : N → String
  objectTypesToken : T → String
  contextRevision : N → T → E → String

def ContentHashes.context (hashes : ContentHashes M N T E) (namespaceInfos : N) (objectTypes : T) (content : E) :
    ObjectTypeContext N T E where
  namespaceInfos
  objectTypes
  content
  revision := hashes.contextRevision namespaceInfos objectTypes content

/-- A context under the tokens of what it was built from. -/
def ContentHashes.cachedContext (hashes : ContentHashes M N T E) (model : M) (namespaceInfos : N) (objectTypes : T)
    (context : ObjectTypeContext N T E) : CachedContext N T E where
  modelToken := hashes.modelRevision model
  namespaceToken := namespaceInfos
  objectTypesToken := hashes.objectTypesToken objectTypes
  context

variable [DecidableEq N] (hashes : ContentHashes M N T E)

def cachedObjectTypeContext (model : M) (namespaceInfos : N) (objectTypes : T) (s : ContextState M N T E) :
    Option (ObjectTypeContext N T E) :=
  s.contextCache.bind fun cache =>
    if cache.modelToken = hashes.modelRevision model ∧ cache.namespaceToken = namespaceInfos ∧
        cache.objectTypesToken = hashes.objectTypesToken objectTypes then some cache.context
    else none

def staleObjectTypeContext (s : ContextState M N T E) : Option (ObjectTypeContext N T E) :=
  s.contextCache.map CachedContext.context

def scheduleObjectTypeContextRefresh (model : M) (s : ContextState M N T E) :
    ContextState M N T E × List ContextNote :=
  match s.refreshTask with
  | .done => ({ s with refreshTask := .scheduled model }, [.scheduled])
  | .scheduled _ | .running => (s, [])

/-- The stretch before the lock: a kept context, or none. -/
def serveKept (model : M) (namespaceInfos : N) (objectTypes : T) (allowStale : Bool) (s : ContextState M N T E) :
    Option (ObjectTypeContext N T E) × ContextState M N T E × List ContextNote :=
  match cachedObjectTypeContext hashes model namespaceInfos objectTypes s with
  | some context => (some context, s, [])
  | none =>
      match if allowStale then staleObjectTypeContext s else none with
      | some context =>
          let scheduled := scheduleObjectTypeContextRefresh model s
          (some context, scheduled.1, scheduled.2 ++ [.servingStale])
      | none => (none, s, [])

/-- The stretch inside the lock. -/
def rebuild (model : M) (namespaceInfos : N) (objectTypes : T) :
    ContextAct M N T E (Option (ObjectTypeContext N T E)) := do
  acquire .objectTypeLock
  let cached ← read (cachedObjectTypeContext hashes model namespaceInfos objectTypes)
  match cached with
  | some context =>
      release .objectTypeLock
      pure (some context)
  | none =>
      let built : Option E ← upstream (.buildContext model namespaceInfos objectTypes)
      match built with
      | none =>
          release .objectTypeLock
          pure none
      | some content =>
          let context := hashes.context namespaceInfos objectTypes content
          modify fun s =>
            { s with contextCache := some (hashes.cachedContext model namespaceInfos objectTypes context) }
          release .objectTypeLock
          pure (some context)

/-- With the namespaces at hand. -/
def resolveWith (model : M) (allowStale : Bool) (namespaceInfos : N) :
    ContextAct M N T E (Option (ObjectTypeContext N T E)) := do
  let objectTypes : Option T ← upstream .objectTypes
  match objectTypes with
  | none => pure none
  | some objectTypes =>
      let kept ← atomic (serveKept hashes model namespaceInfos objectTypes allowStale)
      match kept with
      | some context => pure (some context)
      | none => rebuild hashes model namespaceInfos objectTypes

/-- The context, or nothing when something raised. -/
def resolveObjectTypeContext (model : M) (namespaceInfos : Option N) (allowStale : Bool) :
    ContextAct M N T E (Option (ObjectTypeContext N T E)) :=
  match namespaceInfos with
  | some namespaceInfos => resolveWith hashes model allowStale namespaceInfos
  | none => do
      let read : Option N ← upstream .namespaceInfos
      match read with
      | none => pure none
      | some namespaceInfos => resolveWith hashes model allowStale namespaceInfos

/-- The data of a response and the revisions it has recorded. -/
structure Handled (M N T E : Type) where
  model : M
  namespaceInfos : N
  context : Option (ObjectTypeContext N T E)
  parts : RevisionParts

/-- What is recorded before the handler runs. -/
def requestParts (model : M) : RevisionParts :=
  recordRevision (enableEtag .empty) modelPart (hashes.modelRevision model)

/-- What the list of objects records; a failed context leaves it without tag. -/
def endpointParts (model : M) (namespaceInfos : N) (context : Option (ObjectTypeContext N T E)) : RevisionParts :=
  let parts :=
    match context with
    | some context => recordRevision (requestParts hashes model) objectTypesPart context.revision
    | none => markNotCacheable (requestParts hashes model)
  recordRevision parts namespacesPart (hashes.namespacesRevision namespaceInfos)

/-- What the list of object types records. -/
def typesParts (model : M) (context : ObjectTypeContext N T E) : RevisionParts :=
  recordRevision (requestParts hashes model) objectTypesPart context.revision

/-- `_get_object_endpoint_context`. -/
def getObjectEndpointContext (model : M) : ContextAct M N T E (Option (Handled M N T E)) := do
  let namespaceInfos : Option N ← upstream .namespaceInfos
  match namespaceInfos with
  | none => pure none
  | some namespaceInfos =>
      let context ← resolveObjectTypeContext hashes model (some namespaceInfos) true
      pure (some { model, namespaceInfos, context, parts := endpointParts hashes model namespaceInfos context })

/-- `get_object_types_v1`, up to the filter. -/
def getObjectTypes (model : M) : ContextAct M N T E (Option (Handled M N T E)) := do
  let context ← resolveObjectTypeContext hashes model none true
  match context with
  | none => pure none
  | some context =>
      pure (some
        { model, context
          namespaceInfos := context.namespaceInfos
          parts := typesParts hashes model context })

/-- The task in the background rebuilds for the newest model. -/
def refreshObjectTypeContext (model : M) : ContextAct M N T E Unit := do
  let target ← atomic fun s => (s.modelCache.getD model, { s with refreshTask := .running }, [])
  let _ ← resolveObjectTypeContext hashes target none false
  modify fun s => { s with refreshTask := .done }

inductive ContextCall (M : Type) where
  | getObjects (model : M)
  | getObjectTypes (model : M)
  | warm (model : M)
  | refresh (model : M)
  /-- A build of the model; one that a request makes drops the context. -/
  | modelBuilt (model : M) (byRequest : Bool)

inductive ContextOutcome (M N T E : Type) where
  | done
  | failed
  | handled (reply : Handled M N T E)
  | warmed (context : Option (ObjectTypeContext N T E))

def handledOrFailed : Option (Handled M N T E) → ContextOutcome M N T E
  | some reply => .handled reply
  | none => .failed

def contextProgram : ContextCall M → ContextAct M N T E (ContextOutcome M N T E)
  | .getObjects model => do
      let reply ← getObjectEndpointContext hashes model
      pure (handledOrFailed reply)
  | .getObjectTypes model => do
      let reply ← getObjectTypes hashes model
      pure (handledOrFailed reply)
  | .warm model => do
      let context ← resolveObjectTypeContext hashes model none false
      pure (.warmed context)
  | .refresh model => do
      refreshObjectTypeContext hashes model
      pure .done
  | .modelBuilt model byRequest => do
      modify fun s =>
        { s with modelCache := some model, contextCache := if byRequest then none else s.contextCache }
      pure .done

/-- A request may hold any model; the task in the background starts once it is scheduled. -/
def typeContexts : System (ContextState M N T E) ContextLock ContextNote (ContextRequest M N T)
    (ContextReply M N T E) (ContextCall M) (ContextOutcome M N T E) where
  program := contextProgram hashes
  mayCall s _ call := ∀ model, call = .refresh model → s.refreshTask = .scheduled model
  mayReply _ _ _ _ := True

def ContextState.initial : ContextState M N T E where
  modelCache := none
  contextCache := none
  refreshTask := .done

abbrev ContextTag (M : Type) := Tag (ContextCall M)
abbrev ContextEvent (M N T E : Type) :=
  Event ContextNote (ContextRequest M N T) (ContextReply M N T E) (ContextCall M) (ContextOutcome M N T E)
abbrev ContextHistory (M N T E : Type) :=
  History ContextNote (ContextRequest M N T) (ContextReply M N T E) (ContextCall M) (ContextOutcome M N T E)
abbrev ContextConfig (M N T E : Type) := Config (ContextState M N T E) ContextLock ContextNote
  (ContextRequest M N T) (ContextReply M N T E) (ContextCall M) (ContextOutcome M N T E)

/-! ## What a history says about the contexts -/

/-- A rebuild is scheduled or under way. -/
def refreshOpen : ContextHistory M N T E → Bool
  | [] => false
  | .noted _ .scheduled :: _ => true
  | .returned ⟨_, .refresh _⟩ _ :: _ => false
  | _ :: h => refreshOpen h

/-- The context is what a build from these data made. -/
def Built (h : ContextHistory M N T E) (model : M) (namespaceInfos : N) (objectTypes : T)
    (context : ObjectTypeContext N T E) : Prop :=
  ∃ t content, .replied t (.buildContext model namespaceInfos objectTypes) (some content) ∈ h ∧
    context = hashes.context namespaceInfos objectTypes content

/-- The context was built from data with the tokens of those that the call has read. -/
def Current (t : ContextTag M) (model : M) (namespaceInfos : N) (h : ContextHistory M N T E)
    (context : ObjectTypeContext N T E) : Prop :=
  ∃ listed builtFor objectTypes, .replied t .objectTypes (some listed) ∈ h ∧
    Built hashes h builtFor namespaceInfos objectTypes context ∧
    hashes.modelRevision builtFor = hashes.modelRevision model ∧
    hashes.objectTypesToken objectTypes = hashes.objectTypesToken listed

/-- The context was built from other data, and the call said so. -/
def Stale (t : ContextTag M) (h : ContextHistory M N T E) (context : ObjectTypeContext N T E) : Prop :=
  .noted t .servingStale ∈ h ∧ ∃ model namespaceInfos objectTypes,
    Built hashes h model namespaceInfos objectTypes context

/-- A response is made of data that the call has read and of a context that is current
or stale, and records the revisions of just these. -/
def Answered (t : ContextTag M) (h : ContextHistory M N T E) (reply : Handled M N T E) : Prop :=
  match t.call with
  | .getObjects model =>
      reply.model = model ∧ .replied t .namespaceInfos (some reply.namespaceInfos) ∈ h ∧
        reply.parts = endpointParts hashes model reply.namespaceInfos reply.context ∧
        ∀ context, reply.context = some context →
          Current hashes t model reply.namespaceInfos h context ∨ Stale hashes t h context
  | .getObjectTypes model =>
      reply.model = model ∧ ∃ context namespaceInfos, reply.context = some context ∧
        reply.namespaceInfos = context.namespaceInfos ∧ reply.parts = typesParts hashes model context ∧
        .replied t .namespaceInfos (some namespaceInfos) ∈ h ∧
        (Current hashes t model namespaceInfos h context ∨ Stale hashes t h context)
  | _ => False

/-- The call is a client's request for a list. -/
def ContextCall.Requests : ContextCall M → Prop
  | .getObjects _ | .getObjectTypes _ => True
  | _ => False

/-- How an event stands to the contexts before it: rebuilds in the background come one
at a time, a stale context is served only while one is open and only to a client's
request, and calls that wait for a context get a current one. -/
def Served : ContextEvent M N T E → ContextHistory M N T E → Prop
  | .noted _ .scheduled, h => refreshOpen h = false
  | .noted t .servingStale, h => refreshOpen h = true ∧ t.call.Requests
  | .returned t (.handled reply), h => Answered hashes t h reply
  | .returned t (.warmed (some context)), h => ∃ model namespaceInfos, t.call = .warm model ∧
      .replied t .namespaceInfos (some namespaceInfos) ∈ h ∧ Current hashes t model namespaceInfos h context
  | _, _ => True

end I3x.Serving

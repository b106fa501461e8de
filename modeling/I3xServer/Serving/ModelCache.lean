import I3xServer.Coroutine.History

/-!
# The model cache

One model of the address space is shared by all requests. It is built at startup,
on demand by the first request that finds none, and again by every periodic
refresh. Requests wait for a preload in the background; the other two builds take
the model lock. A call that fails to build leaves the cache as it is.
-/
namespace I3x.Serving
open Coroutine Program
variable {M : Type}

/-- How the server preloads the model: not at all, before it serves, or beside it. -/
inductive PreloadMode where
  | off | blocking | background
  deriving DecidableEq, Repr

/-- How far `_run_model_preload` is. -/
inductive Startup where
  | waiting | building | finished | failed
  deriving DecidableEq, Repr

structure PreloadSettings where
  mode : PreloadMode
  failStartupOnModelPreloadError : Bool
  deriving DecidableEq, Repr

structure CacheState (M : Type) where
  modelCache : Option M
  startup : Startup

inductive CacheLock where
  | modelLock
  deriving DecidableEq, Repr

instance : Fintype CacheLock := ⟨{.modelLock}, fun l => by cases l; decide⟩

/-- What the calls await: a build of the model, the preload task, and the warming of
the object type context, which swallows its errors. -/
inductive CacheRequest where
  | build | modelPreloadTask | warm
  deriving DecidableEq, Repr

/-- A build that raises answers `none`. -/
abbrev CacheReply (M : Type) : CacheRequest → Type
  | .build => Option M
  | .modelPreloadTask => Unit
  | .warm => Unit

abbrev CacheAct (M : Type) := Program (CacheState M) CacheLock Empty CacheRequest (CacheReply M)

def await (q : CacheRequest) : CacheAct M (CacheReply M q) := ask q

variable (settings : PreloadSettings)

/-- There is a preload task, and it is not done. -/
def preloading (s : CacheState M) : Bool :=
  decide (settings.mode = .background) && decide (s.startup ≠ .finished)

def runModelPreload : CacheAct M Unit := do
  modify fun s => { s with startup := .building }
  let built : Option M ← await .build
  match built with
  | none =>
      let raises := settings.failStartupOnModelPreloadError && decide (settings.mode = .blocking)
      modify fun s => { s with startup := if raises then .failed else .finished }
  | some preload =>
      modify fun s => { s with modelCache := some preload }
      if settings.mode = .blocking then
        let _ : Unit ← await .warm
      modify fun s => { s with startup := .finished }

def awaitModelPreload : CacheAct M Unit := do
  let waiting ← read (preloading settings)
  if waiting then
    let _ : Unit ← await .modelPreloadTask

/-- The model, or nothing when this request's own build raised. -/
def getOrBuildModel : CacheAct M (Option M) := do
  awaitModelPreload settings
  let cache ← read CacheState.modelCache
  match cache with
  | some model => pure (some model)
  | none =>
      acquire .modelLock
      let cache ← read CacheState.modelCache
      match cache with
      | some model =>
          release .modelLock
          pure (some model)
      | none =>
          let built : Option M ← await .build
          match built with
          | none =>
              release .modelLock
              pure none
          | some built =>
              modify fun s => { s with modelCache := some built }
              release .modelLock
              pure (some built)

/-- One turn of the loop of `_run_periodic_model_refresh`, without its pause. -/
def periodicModelRefresh : CacheAct M Unit := do
  awaitModelPreload settings
  acquire .modelLock
  let built : Option M ← await .build
  match built with
  | none => release .modelLock
  | some built =>
      modify fun s => { s with modelCache := some built }
      release .modelLock
      let _ : Unit ← await .warm

inductive CacheCall where
  | runModelPreload | getOrBuildModel | periodicModelRefresh
  deriving DecidableEq, Repr

inductive CacheOutcome (M : Type) where
  | done
  | model (model : Option M)

def cacheProgram : CacheCall → CacheAct M (CacheOutcome M)
  | .runModelPreload => do
      runModelPreload settings
      pure .done
  | .getOrBuildModel => do
      let model ← getOrBuildModel settings
      pure (.model model)
  | .periodicModelRefresh => do
      periodicModelRefresh settings
      pure .done

/-- The preload runs once. Where startup waits for it, nothing is served before. -/
def MayCall (s : CacheState M) : CacheCall → Prop
  | .runModelPreload => s.startup = .waiting
  | .getOrBuildModel | .periodicModelRefresh => settings.mode = .blocking → s.startup = .finished

def modelCache : System (CacheState M) CacheLock Empty CacheRequest (CacheReply M) CacheCall (CacheOutcome M) where
  program := cacheProgram settings
  mayCall s _ call := MayCall settings s call
  mayReply _ now q _ := q = .modelPreloadTask → now.startup = .finished

/-- Startup with an empty cache. -/
def CacheState.initial : CacheState M where
  modelCache := none
  startup := if settings.mode = .off then .finished else .waiting

abbrev CacheTag := Tag CacheCall
abbrev CacheEvent (M : Type) := Event Empty CacheRequest (CacheReply M) CacheCall (CacheOutcome M)
abbrev CacheHistory (M : Type) := History Empty CacheRequest (CacheReply M) CacheCall (CacheOutcome M)
abbrev CacheConfig (M : Type) :=
  Config (CacheState M) CacheLock Empty CacheRequest (CacheReply M) CacheCall (CacheOutcome M)

/-! ## What a history says about the builds -/

def CacheEvent.built? : CacheEvent M → Option M
  | .replied _ .build built => built
  | _ => none

/-- The model of the last build that succeeded. -/
def lastBuilt (h : CacheHistory M) : Option M := h.findSome? CacheEvent.built?

/-- The call whose build is under way. -/
def openBuild : CacheHistory M → Option CacheTag
  | [] => none
  | .requested t .build :: _ => some t
  | .replied _ .build _ :: _ => none
  | _ :: h => openBuild h

/-- How an event stands to the builds before it. A build begins when none is under
way, and a request begins one only if none has succeeded; a request is answered with
the last model built, or with an error if its own build raised. -/
def Orderly : CacheEvent M → CacheHistory M → Prop
  | .requested t .build, h => openBuild h = none ∧ (t.call = .getOrBuildModel → lastBuilt h = none)
  | .replied t .build _, h => openBuild h = some t
  | .returned _ (.model (some model)), h => lastBuilt h = some model
  | .returned t (.model none), h => .replied t .build none ∈ h
  | _, _ => True

end I3x.Serving

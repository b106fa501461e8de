import I3xServer.Mcp.BrowsePaths
import I3xServer.Mcp.InstanceTypes
import I3xServer.Mcp.NameSearch

/-!
# The access tools

Calls of the tools share one index, parts of which are built when they are first
needed. Whatever has been called before, an answer is that of a fresh index.
-/
namespace I3x.Mcp
open Container Mapper

/-- The tools that answer from the index, with the arguments they take. -/
inductive Call where
  | getBrowsePath (elementId : String)
  | resolveBrowsePath (segments : List String)
  | resolveBrowsePathText (path : String)
  | getInstancesOfType (typeElementId : String) (typeContextRevision : Option String)
      (includeSubtypes : Option Bool) (arguments : PageArguments) (context : Option Nat)
  | getChildren (elementId : String) (plane : Option Plane) (arguments : PageArguments)
  | findElementsByName (text : String) (arguments : PageArguments)
  | findElementsByNamespace (namespaceUri : String) (arguments : PageArguments)
  | findElementsByRole (semanticRole : SemanticRole) (arguments : PageArguments)

inductive Result where
  | browsePath (path : String) (segments : List String)
  | resolution (resolution : Resolution)
  | page (page : Page)
  | instances (page : Page) (typeContextRevision : String)
  deriving DecidableEq, Repr

structure Answer where
  modelRevision : String
  result : Result
  deriving DecidableEq, Repr

def badRequest (message : String) : Failure := .http ⟨400, "Bad Request", message⟩

def elementNotFound (elementId : String) : Failure :=
  .http ⟨404, "Not Found", "Model element not found: " ++ elementId⟩

/-- Text with a character that is not white space. -/
def Server.filled (server : Server) (text : String) : Bool := decide (server.unicode.strip text ≠ "")

/-- `validate_model_access_arguments`; the schema check fails on blank texts. -/
def validateArguments (server : Server) (schemaMessage : Call → String) (call : Call) : Except Failure Unit :=
  let filled := match call with
    | .getBrowsePath elementId => server.filled elementId
    | .resolveBrowsePath segments => decide (segments ≠ []) && segments.all server.filled
    | .resolveBrowsePathText path => server.filled path
    | .getInstancesOfType typeElementId revision _ arguments _ =>
        server.filled typeElementId && revision.all server.filled &&
          (decide (arguments.offset.getD 0 = 0) || revision.isSome)
    | .getChildren elementId _ _ => server.filled elementId
    | .findElementsByName text _ => server.filled text
    | .findElementsByNamespace namespaceUri _ => server.filled namespaceUri
    | .findElementsByRole _ _ => true
  if filled = false then .error (badRequest (schemaMessage call))
  else
    match call with
    | .resolveBrowsePathText path =>
        if (path.splitOn "/").all server.filled then .ok ()
        else .error (badRequest "path must contain non-empty slash-separated segments")
    | _ => .ok ()

namespace AccessModel
variable (server : Server) (model : AccessModel)

def getBrowsePath (elementId : String) : Except Failure Result :=
  if elementId ∉ model.nodesById.keys then .error (elementNotFound elementId)
  else (model.segments elementId).map fun segments => .browsePath ("/".intercalate segments) segments

def resolveBrowsePath (index : ModelAccessIndex) (segments : List String) : Except Failure Result × ModelAccessIndex :=
  match model.withPaths index with
  | .error failure => (.error failure, index)
  | .ok (children, index) => ((model.resolveSegments children segments).map .resolution, index)

def getInstancesOfType (index : ModelAccessIndex) (typeElementId : String) (requested : Option String)
    (includeSubtypes : Option Bool) (arguments : PageArguments) (context : Option Nat) :
    Except Failure Result × ModelAccessIndex :=
  match context with
  | none =>
      (.error (.http ⟨503, "Service Unavailable", "Revision-matched cached object type context is unavailable"⟩), index)
  | some token =>
      let revision := (server.contexts token).revision
      if 0 < arguments.offset.getD 0 ∧ requested = none then
        (.error (badRequest "typeContextRevision is required when offset is greater than 0"), index)
      else if requested ≠ none ∧ requested ≠ some revision then
        (.error (.http ⟨409, "Conflict", "Object type context changed; restart pagination from offset 0"⟩), index)
      else
        match model.withTypes server index token with
        | .error failure => (.error failure, index)
        | .ok index =>
            if typeElementId ∉ index.directInstances.keys then
              (.error (.http ⟨404, "Not Found", "Object type not found: " ++ typeElementId⟩), index)
            else
              let instances := if includeSubtypes.getD true then index.subtypeInstances else index.directInstances
              match instances.get? typeElementId with
              | some ids => (.ok (.instances (model.page ids arguments) revision), index)
              | none => (.error (.keyError typeElementId), index)

/-- The answer of a tool from an index, and the index afterwards. -/
def respond (index : ModelAccessIndex) : Call → Except Failure Result × ModelAccessIndex
  | .getBrowsePath elementId => (model.getBrowsePath elementId, index)
  | .resolveBrowsePath segments => model.resolveBrowsePath index segments
  | .resolveBrowsePathText path => model.resolveBrowsePath index (path.splitOn "/")
  | .getInstancesOfType typeElementId requested includeSubtypes arguments context =>
      model.getInstancesOfType server index typeElementId requested includeSubtypes arguments context
  | .getChildren elementId plane arguments =>
      if elementId ∉ model.nodesById.keys then (.error (elementNotFound elementId), index)
      else (.ok (.page (model.page ((index.childrenByPlane (plane.getD .hierarchy)).bucket elementId) arguments)), index)
  | .findElementsByName text arguments =>
      (.ok (.page (model.page (model.nameMatches server index text) arguments)), index)
  | .findElementsByNamespace namespaceUri arguments =>
      (.ok (.page (model.page (index.namespaces.bucket namespaceUri) arguments)), index)
  | .findElementsByRole semanticRole arguments =>
      (.ok (.page (model.page (index.roles.bucket semanticRole) arguments)), index)

def revisionOf : String := modelRevision server.digest model.toRevisedModel

/-- `invoke_model_access_tool`, with the index that the model keeps. -/
def invoke (cache : Option ModelAccessIndex) (call : Call) : Except Failure Answer × Option ModelAccessIndex :=
  match call with
  | .getBrowsePath elementId => ((model.getBrowsePath elementId).map (Answer.mk (model.revisionOf server)), cache)
  | _ =>
      let (result, index) := model.respond server (model.index server cache) call
      (result.map (Answer.mk (model.revisionOf server)), some index)

/-- The index after some calls on a newly published model. -/
def cacheAfter (calls : List Call) : Option ModelAccessIndex :=
  calls.foldl (fun cache call => (model.invoke server cache call).2) none

def answerAfter (calls : List Call) (call : Call) : Except Failure Answer :=
  (model.invoke server (model.cacheAfter server calls) call).1

/-- A call with its arguments checked first. -/
def tool (schemaMessage : Call → String) (calls : List Call) (call : Call) : Except Failure Answer :=
  match validateArguments server schemaMessage call with
  | .error failure => .error failure
  | .ok () => model.answerAfter server calls call

/-! ## The index in use -/

/-- An index of the model, with the parts built so far. -/
structure Current (index : ModelAccessIndex) : Prop where
  base : { index with
    pathChildren := none
    typeContextToken := none
    directInstances := .empty
    subtypeInstances := .empty } = model.buildIndex server
  paths : ∀ children, index.pathChildren = some children →
    model.SoundChains ∧ children = model.pathChildren (model.orderedIds server)
  types : ∀ token, index.typeContextToken = some token → ∃ expanded,
    expand ((server.contexts token).parents server) (model.directInstances server (server.contexts token)).entries
      (model.directInstances server (server.contexts token)) = .ok expanded ∧
    index.directInstances = (model.directInstances server (server.contexts token)).mapValues (fun _ => model.sortedIds server) ∧
    index.subtypeInstances = expanded.mapValues fun _ => model.sortedIds server

variable {server model}

theorem Current.build : model.Current server (model.buildIndex server) := ⟨rfl, nofun, nofun⟩

namespace Current
variable {index : ModelAccessIndex} (current : model.Current server index)
include current

theorem orderedIds : index.orderedIds = model.orderedIds server := congrArg ModelAccessIndex.orderedIds current.base

theorem nameGrams : index.nameGrams = model.nameGrams server := congrArg ModelAccessIndex.nameGrams current.base

theorem revision : index.revision = model.revisionOf server := congrArg ModelAccessIndex.revision current.base

/-- The children by path of a sound model; an unsound one is refused. -/
theorem withPaths :
    (model.SoundChains → ∃ index', model.withPaths index = .ok (model.pathChildren (model.orderedIds server), index') ∧
      model.Current server index') ∧
    ∀ children index', model.withPaths index = .ok (children, index') → model.Current server index' := by
  unfold AccessModel.withPaths
  cases built : index.pathChildren with
  | some children =>
      obtain ⟨-, rfl⟩ := current.paths _ built
      refine ⟨fun _ => ⟨index, rfl, current⟩, fun children index' same => ?_⟩
      cases same
      exact current
  | none =>
      dsimp only
      constructor
      · intro sound
        rw [model.validateParentChains_iff.mpr sound]
        have fresh : model.pathChildren index.orderedIds = model.pathChildren (model.orderedIds server) := by
          rw [current.orderedIds]
        refine ⟨{ index with pathChildren := some (model.pathChildren index.orderedIds) }, by rw [← fresh], current.base, fun children same => ?_, current.types⟩
        cases same
        exact ⟨sound, fresh⟩
      · intro children index' same
        split at same
        · cases same
        · next accepted =>
            cases same
            refine ⟨current.base, fun children same => ?_, current.types⟩
            cases same
            exact ⟨model.validateParentChains_iff.mp accepted, by rw [current.orderedIds]⟩

theorem withTypes {token : Nat} {index' : ModelAccessIndex} (ran : model.withTypes server index token = .ok index') :
    model.Current server index' ∧ index'.typeContextToken = some token := by
  unfold AccessModel.withTypes at ran
  split at ran
  · next same =>
      cases ran
      exact ⟨current, same⟩
  · dsimp only at ran
    split at ran
    · cases ran
    · next expanded filed =>
        cases ran
        refine ⟨⟨current.base, current.paths, fun other same => ?_⟩, rfl⟩
        cases same
        exact ⟨expanded, filed, rfl, rfl⟩

/-- A call leaves a current index. -/
theorem respond (call : Call) : model.Current server (model.respond server index call).2 := by
  have resolves (segments : List String) : model.Current server (model.resolveBrowsePath index segments).2 := by
    unfold AccessModel.resolveBrowsePath
    split
    · exact current
    · next ran => exact current.withPaths.2 _ _ ran
  cases call with
  | getBrowsePath => exact current
  | resolveBrowsePath segments => exact resolves segments
  | resolveBrowsePathText path => exact resolves _
  | getInstancesOfType typeElementId requested includeSubtypes arguments context =>
      show model.Current server (model.getInstancesOfType server index _ _ _ _ _).2
      unfold getInstancesOfType
      cases context with
      | none => exact current
      | some token =>
          dsimp only
          split
          · exact current
          · split
            · exact current
            · split
              · exact current
              · next ran =>
                  obtain ⟨next, -⟩ := current.withTypes ran
                  split
                  · exact next
                  · split <;> exact next
  | getChildren elementId plane arguments =>
      rw [AccessModel.respond]
      split <;> exact current
  | findElementsByName => exact current
  | findElementsByNamespace => exact current
  | findElementsByRole => exact current

end Current

theorem index_current {cache : Option ModelAccessIndex} (sound : ∀ kept, cache = some kept → model.Current server kept) :
    model.Current server (model.index server cache) := by
  unfold index
  cases cache with
  | none => exact .build
  | some kept =>
      dsimp only
      split
      · exact sound kept rfl
      · exact .build

/-- One call keeps the index that the model keeps current. -/
theorem invoke_current {cache : Option ModelAccessIndex} (sound : ∀ kept, cache = some kept → model.Current server kept)
    (call : Call) (kept : ModelAccessIndex) (after : (model.invoke server cache call).2 = some kept) :
    model.Current server kept := by
  have responded := (index_current sound).respond call
  cases call with
  | getBrowsePath => exact sound kept after
  | _ =>
      cases after
      exact responded

theorem cacheAfter_current (calls : List Call) (kept : ModelAccessIndex)
    (after : model.cacheAfter server calls = some kept) : model.Current server kept := by
  induction calls using List.reverseRecOn generalizing kept with
  | nil => cases after
  | append_singleton calls call ih =>
      rw [cacheAfter, List.foldl_append] at after
      exact invoke_current ih call kept after

theorem current_after (server : Server) (model : AccessModel) (calls : List Call) : model.Current server (model.index server (model.cacheAfter server calls)) :=
  index_current (cacheAfter_current calls)

/-! ## Searching by name -/

/-- Listed once, by folded name and then id. -/
def InOrder (server : Server) (model : AccessModel) (ids : List String) : Prop :=
  ids.Nodup ∧ ids.Pairwise fun a b => model.sortKey server a < model.sortKey server b

/-- There is one order of some elements. -/
theorem InOrder.unique {server : Server} {model : AccessModel} {ids others : List String}
    (order : model.InOrder server ids) (order' : model.InOrder server others) (same : ∀ id, id ∈ ids ↔ id ∈ others) :
    ids = others :=
  ((List.perm_ext_iff_of_nodup order.1 order'.1).mpr same).eq_of_pairwise
    (fun _ _ _ _ less less' => absurd less' less.asymm) order.2 order'.2

theorem keys_pumps : Sample.plant.nodesById.keys = ["a", "b"] := by decide

theorem inOrder_pumps : Sample.plant.InOrder Sample.server ["a", "b"] := by
  refine ⟨by decide, List.pairwise_pair.mpr ?_⟩
  exact Prod.Lex.toLex_lt_toLex.mpr (.inr ⟨rfl, by decide⟩)

def pageOf : Except Failure Answer → Option Page
  | .ok ⟨_, .page page⟩ => some page
  | .ok ⟨_, .instances page _⟩ => some page
  | _ => none

theorem findElementsByName_answer (calls : List Call) (text : String) (arguments : PageArguments) :
    ∃ index, model.Current server index ∧ model.answerAfter server calls (.findElementsByName text arguments) =
      .ok ⟨model.revisionOf server, .page (model.page (model.nameMatches server index text) arguments)⟩ :=
  ⟨_, current_after server model calls, rfl⟩

/-- All current indexes give the same matches. -/
theorem Current.nameMatches {index other : ModelAccessIndex} (current : model.Current server index)
    (current' : model.Current server other) (text : String) :
    model.nameMatches server index text = model.nameMatches server other text := by
  unfold AccessModel.nameMatches nameCandidates
  rw [current.nameGrams, current.orderedIds, current'.nameGrams, current'.orderedIds]

/-- The indexed search finds the elements whose folded name contains the folded text,
and its pages, of any sizes and after any other calls, list each of them once in order. -/
theorem findElementsByName_pages (server : Server) (model : AccessModel) (text : String) (history : Nat → List Call)
    (limits : Nat → Nat) (bounded : ∀ round, ∀ l ∈ some (limits round), 1 ≤ l ∧ l ≤ 100) :
    ∃ ids, model.InOrder server ids ∧
      (∀ id, id ∈ ids ↔ id ∈ model.nodesById.keys ∧
        contains (server.casefold (model.name id)) (server.casefold text) = true) ∧
      (∀ calls arguments, model.answerAfter server calls (.findElementsByName text arguments) =
        .ok ⟨model.revisionOf server, .page (model.page ids arguments)⟩) ∧
      ∃ pages, followPages
          (fun round offset => model.answerAfter server (history round)
            (.findElementsByName text ⟨some offset, some (limits round), bounded round⟩))
          (fun answer => (pageOf answer).bind Page.nextOffset) (ids.length + 1) 0 0 = some pages ∧
        (pages.flatMap fun answer => ((pageOf answer).map Page.items).getD []) =
          ids.map fun id => (id, model.name id) := by
  have fresh : model.Current server (model.buildIndex server) := .build
  have answers (calls : List Call) (arguments : PageArguments) :
      model.answerAfter server calls (.findElementsByName text arguments) = .ok ⟨model.revisionOf server,
        .page (model.page (model.nameMatches server (model.buildIndex server) text) arguments)⟩ := by
    obtain ⟨index, current, answer⟩ := findElementsByName_answer calls text arguments
    rw [answer, current.nameMatches fresh]
  refine ⟨model.nameMatches server (model.buildIndex server) text, ⟨nodup_sortedIds _ _ _, sortedIds_pairwise _ _ _⟩,
    mem_nameMatches _ _ rfl rfl _, answers, ?_⟩
  generalize model.nameMatches server (model.buildIndex server) text = ids at answers
  have tiled := @followPages_tile (String × String) (Except Failure Answer)
    (fun round offset => model.answerAfter server (history round)
      (.findElementsByName text ⟨some offset, some (limits round), bounded round⟩))
    (fun answer => (pageOf answer).bind Page.nextOffset) (fun answer => ((pageOf answer).map Page.items).getD [])
    (ids.map fun id => (id, model.name id)) limits (fun round => (bounded round _ rfl).1)
    (fun round offset => by rw [answers, ← List.map_drop, ← List.map_take]; rfl)
    (fun round offset => by rw [answers, ← List.map_drop, ← List.map_take, List.length_map, List.length_map]; rfl)
    (ids.length + 1) 0 0 (by rw [List.length_map]; omega)
  exact tiled

/-- Both pumps match, and pages of one item each list one after the other. -/
theorem findElementsByName_pages_pump :
    (∀ calls arguments, Sample.plant.answerAfter Sample.server calls (.findElementsByName "UMP" arguments) =
      .ok ⟨"r", .page (Sample.plant.page ["a", "b"] arguments)⟩) ∧
    ∃ pages, followPages (fun round offset => Sample.plant.answerAfter Sample.server
          (List.replicate round (.findElementsByRole .asset ⟨none, none, nofun⟩))
          (.findElementsByName "UMP" ⟨some offset, some 1, by simp⟩))
        (fun answer => (pageOf answer).bind Page.nextOffset) 3 0 0 = some pages ∧
      (pages.flatMap fun answer => ((pageOf answer).map Page.items).getD []) = [("a", "Pump"), ("b", "Pump")] := by
  obtain ⟨ids, order, mem, answers, pages, followed, listed⟩ := findElementsByName_pages Sample.server Sample.plant "UMP"
    (fun round => List.replicate round (.findElementsByRole .asset ⟨none, none, nofun⟩)) (fun _ => 1)
    (fun _ l m => by cases m; decide)
  have pumps (id : String) : id ∈ ids ↔ id ∈ ["a", "b"] := by
    rw [mem, keys_pumps]
    refine and_iff_left_of_imp fun m => ?_
    simp only [List.mem_cons, List.not_mem_nil, or_false] at m
    rcases m with rfl | rfl <;> decide
  obtain rfl := order.unique inOrder_pumps pumps
  exact ⟨answers, pages, followed, listed⟩

/-! ## Paths -/

theorem getBrowsePath_answer {id : String} {segments : List String} (m : id ∈ model.nodesById.keys)
    (climbed : model.segments id = .ok segments) (calls : List Call) :
    model.answerAfter server calls (.getBrowsePath id) =
      .ok ⟨model.revisionOf server, .browsePath ("/".intercalate segments) segments⟩ := by
  show (model.getBrowsePath id).map _ = _
  rw [getBrowsePath, if_neg (not_not.mpr m), climbed]
  rfl

theorem resolveBrowsePath_answer (sound : model.SoundChains) (calls : List Call) (segments : List String) :
    model.answerAfter server calls (.resolveBrowsePath segments) =
      (model.resolveSegments (model.pathChildren (model.orderedIds server)) segments).map fun resolution =>
        ⟨model.revisionOf server, .resolution resolution⟩ := by
  obtain ⟨index', ran, -⟩ := (current_after server model calls).withPaths.1 sound
  show (model.resolveBrowsePath _ segments).1.map _ = _
  unfold resolveBrowsePath
  rw [ran]
  dsimp only
  cases model.resolveSegments (model.pathChildren (model.orderedIds server)) segments <;> rfl

/-- The response for an element. -/
def Shows (model : AccessModel) (id : String) (resolution : Resolution) : Prop :=
  ∃ node, model.nodesById.get? id = some node ∧ resolution = .found id node.name node.kind

/-- What segments lead to: nothing, one element, or several. -/
theorem SoundChains.resolveSegments {server : Server} {model : AccessModel} (sound : model.SoundChains)
    (segments : List String) :
    ((∀ id ∈ model.nodesById.keys, model.segments id ≠ .ok segments) ∧
      model.resolveSegments (model.pathChildren (model.orderedIds server)) segments = .ok .absent) ∨
    (∃ id resolution, (∀ other, other ∈ model.nodesById.keys ∧ model.segments other = .ok segments ↔ other = id) ∧
      model.Shows id resolution ∧
      model.resolveSegments (model.pathChildren (model.orderedIds server)) segments = .ok resolution) ∨
    ((∀ id, ∃ other ≠ id, other ∈ model.nodesById.keys ∧ model.segments other = .ok segments) ∧
      model.resolveSegments (model.pathChildren (model.orderedIds server)) segments = .error ambiguousPath) := by
  obtain ⟨distinct, found⟩ := sound.descend (nodup_sortedIds server model model.nodesById.keys.toFinset)
    (fun id => by rw [mem_sortedIds, List.mem_toFinset]) segments
  have ordered : model.sortedIds server model.nodesById.keys.toFinset = model.orderedIds server := rfl
  rw [ordered] at distinct found
  unfold AccessModel.resolveSegments
  match eq : AccessModel.descend (model.pathChildren (model.orderedIds server)) segments [none] [] with
  | [] =>
      rw [eq] at found
      exact .inl ⟨fun id m same => List.not_mem_nil ((found id).mpr ⟨m, same⟩), rfl⟩
  | [id] =>
      rw [eq] at found
      obtain ⟨m, -⟩ := (found id).mp (List.mem_singleton_self id)
      obtain ⟨node, here⟩ := (Dict.mem_keys _ _).mp m
      refine .inr (.inl ⟨id, _, fun other => ?_, ⟨node, here, rfl⟩, ?_⟩)
      · rw [← found, List.mem_singleton]
      · dsimp only
        rw [here]
        show Except.ok (Resolution.found node.id node.name node.kind) = _
        rw [model.keyed id node here]
  | first :: second :: rest =>
      rw [eq] at found distinct
      refine .inr (.inr ⟨fun id => ?_, rfl⟩)
      by_cases same : first = id
      · refine ⟨second, ?_, (found second).mp (List.mem_cons_of_mem _ List.mem_cons_self)⟩
        rintro rfl
        exact (List.nodup_cons.mp distinct).1 (same ▸ List.mem_cons_self)
      · exact ⟨first, same, (found first).mp List.mem_cons_self⟩

/-- Where every chain of parents is sound, resolving the segments of an element gives
that element, or the conflict if another element has them too; whatever is resolved
has the segments asked for, and nothing is found only if no element has them. -/
theorem browse_paths_inverse (server : Server) (model : AccessModel) (schemaMessage : Call → String)
    (sound : model.SoundChains) :
    (∀ calls calls' id, id ∈ model.nodesById.keys → ∃ segments,
      model.answerAfter server calls (.getBrowsePath id) =
        .ok ⟨model.revisionOf server, .browsePath ("/".intercalate segments) segments⟩ ∧
      ((∀ name ∈ segments, server.filled name = true) →
        ((∀ other ∈ model.nodesById.keys, other ≠ id → model.segments other ≠ .ok segments) →
          ∃ resolution, model.Shows id resolution ∧
            model.tool server schemaMessage calls' (.resolveBrowsePath segments) =
              .ok ⟨model.revisionOf server, .resolution resolution⟩) ∧
        ((∃ other ∈ model.nodesById.keys, other ≠ id ∧ model.segments other = .ok segments) →
          model.tool server schemaMessage calls' (.resolveBrowsePath segments) = .error ambiguousPath))) ∧
    (∀ calls segments revision id name kind,
      model.tool server schemaMessage calls (.resolveBrowsePath segments) =
          .ok ⟨revision, .resolution (.found id name kind)⟩ →
        id ∈ model.nodesById.keys ∧ ∀ calls', model.answerAfter server calls' (.getBrowsePath id) =
          .ok ⟨model.revisionOf server, .browsePath ("/".intercalate segments) segments⟩) ∧
    ∀ calls segments revision,
      model.tool server schemaMessage calls (.resolveBrowsePath segments) = .ok ⟨revision, .resolution .absent⟩ →
        ∀ id ∈ model.nodesById.keys, model.segments id ≠ .ok segments := by
  have accepted {segments : List String} (filled : segments ≠ [] ∧ ∀ name ∈ segments, server.filled name = true)
      (calls : List Call) : model.tool server schemaMessage calls (.resolveBrowsePath segments) =
        model.answerAfter server calls (.resolveBrowsePath segments) := by
    have passes : (decide (segments ≠ []) && segments.all server.filled) = true := by
      rw [Bool.and_eq_true, decide_eq_true_eq, List.all_eq_true]
      exact filled
    rw [tool, validateArguments, passes, if_neg nofun]
  have answered {calls : List Call} {segments : List String} {answer : Answer}
      (ok : model.tool server schemaMessage calls (.resolveBrowsePath segments) = .ok answer) :
      ∃ resolution, model.resolveSegments (model.pathChildren (model.orderedIds server)) segments = .ok resolution ∧
        answer = ⟨model.revisionOf server, .resolution resolution⟩ := by
    rw [tool] at ok
    split at ok
    · cases ok
    · rw [resolveBrowsePath_answer sound] at ok
      cases resolved : model.resolveSegments (model.pathChildren (model.orderedIds server)) segments with
      | error failure =>
          rw [resolved] at ok
          cases ok
      | ok resolution =>
          rw [resolved] at ok
          exact ⟨resolution, rfl, (Except.ok.inj ok).symm⟩
  refine ⟨fun calls calls' id m => ?_, fun calls segments revision id name kind found => ?_,
    fun calls segments revision absent id m same => ?_⟩
  · obtain ⟨chain, climbs, climbed⟩ := sound.segments m
    refine ⟨_, getBrowsePath_answer m climbed calls, fun filled => ?_⟩
    have some' : chain.reverse.map model.name ≠ [] := by
      cases climbs <;> simp
    rw [accepted ⟨some', filled⟩, resolveBrowsePath_answer sound]
    constructor
    · intro only
      rcases sound.resolveSegments (chain.reverse.map model.name) with none | ⟨one, resolution, unique, shows, ran⟩ | many
      · exact absurd climbed (none.1 id m)
      · cases (unique id).mp ⟨m, climbed⟩
        exact ⟨resolution, shows, by rw [ran]; rfl⟩
      · obtain ⟨other, different, inside, same⟩ := many.1 id
        exact absurd same (only other inside different)
    · rintro ⟨other, inside, different, same⟩
      rcases sound.resolveSegments (chain.reverse.map model.name) with none | ⟨one, resolution, unique, -, -⟩ | many
      · exact absurd climbed (none.1 id m)
      · exact absurd (((unique other).mp ⟨inside, same⟩).trans ((unique id).mp ⟨m, climbed⟩).symm) different
      · rw [many.2]
        rfl
  · obtain ⟨resolution, ran, same⟩ := answered found
    cases same
    rcases @SoundChains.resolveSegments server model sound segments with none | ⟨one, resolution, unique, ⟨node, here, shown⟩, ran'⟩ | many
    · rw [ran] at none
      cases none.2
    · rw [ran, Except.ok.injEq] at ran'
      rw [← ran'] at shown
      cases shown
      obtain ⟨m, climbed⟩ := (unique id).mpr rfl
      exact ⟨m, getBrowsePath_answer m climbed⟩
    · rw [ran] at many
      cases many.2
  · obtain ⟨resolution, ran, eq⟩ := answered absent
    cases eq
    rcases @SoundChains.resolveSegments server model sound segments with none | ⟨one, resolution, unique, ⟨node, here, shown⟩, ran'⟩ | many
    · exact none.1 id m same
    · rw [ran, Except.ok.injEq] at ran'
      rw [← ran'] at shown
      cases shown
    · rw [ran] at many
      cases many.2

/-- The path of the lower pump leads back to it. -/
theorem browse_paths_inverse_pump :
    Sample.plant.answerAfter Sample.server [] (.getBrowsePath "b") =
        .ok ⟨"r", .browsePath "Pump/Pump" ["Pump", "Pump"]⟩ ∧
      Sample.plant.tool Sample.server (fun _ => "") [.getBrowsePath "a"] (.resolveBrowsePath ["Pump", "Pump"]) =
        .ok ⟨"r", .resolution (.found "b" "Pump" .asset)⟩ := by
  have sound : Sample.plant.SoundChains := by
    intro id m
    have root : Climbs Sample.plant.parent "a" ["a"] := .top (by decide)
    rw [keys_pumps] at m
    rcases List.mem_cons.mp m with rfl | m
    · exact ⟨["a"], root, by decide⟩
    · cases List.mem_singleton.mp m
      exact ⟨["b", "a"], .up (by decide) root, by decide⟩
  obtain ⟨segments, answer, resolves⟩ := (browse_paths_inverse Sample.server Sample.plant (fun _ => "") sound).1 []
    [.getBrowsePath "a"] "b" (by decide)
  have path : Sample.plant.answerAfter Sample.server [] (.getBrowsePath "b") =
      .ok ⟨"r", .browsePath "Pump/Pump" ["Pump", "Pump"]⟩ := by decide
  have same := answer.symm.trans path
  simp only [Except.ok.injEq, Answer.mk.injEq, Result.browsePath.injEq] at same
  obtain ⟨-, -, rfl⟩ := same
  obtain ⟨resolution, ⟨node, found, rfl⟩, resolved⟩ := (resolves (by decide)).1 fun other m different => by
    rw [keys_pumps] at m
    simp only [List.mem_cons, List.not_mem_nil, different, or_false] at m
    cases m
    decide
  cases found
  exact ⟨path, resolved⟩

/-! ## Instances -/

def Listed (context : ObjectTypeContext) (type : String) : Prop := ∃ item ∈ context.items, item.elementId = type

/-- Going up from some listed type comes back to a type passed before. -/
def CyclicTypes (server : Server) (context : ObjectTypeContext) : Prop :=
  ∃ type above, Listed context type ∧ Relation.ReflTransGen (context.Supertype server) type above ∧
    Relation.TransGen (context.Supertype server) above above

theorem grounded_iff_acyclic (context : ObjectTypeContext) :
    (∀ type, Listed context type → Grounded (context.parents server).get? (fun _ => false) type) ↔
      ¬ CyclicTypes server context := by
  have closed (a p : String) (up : (context.parents server).get? a = some p) :
      p ∈ (context.parents server).values.toFinset := (parents_closed _ a p up).resolve_right nofun
  constructor
  · rintro grounded ⟨type, above, listed, reach, cycle⟩
    exact (grounded_iff closed).mp (grounded type listed) ⟨above, reach, cycle⟩
  · intro acyclic type listed
    exact (grounded_iff closed).mpr fun ⟨above, reach, cycle⟩ => acyclic ⟨type, above, listed, reach, cycle⟩

/-- A type index in use holds, under each listed type, the instances of the types below. -/
theorem Current.subtypeInstances {index : ModelAccessIndex} (current : model.Current server index) {token : Nat}
    (kept : index.typeContextToken = some token) :
    ¬ CyclicTypes server (server.contexts token) ∧
    (∀ type, type ∈ index.directInstances.keys ↔ Listed (server.contexts token) type) ∧
    ∀ type, Listed (server.contexts token) type → ∃ ids : Finset String,
      index.subtypeInstances.get? type = some (model.sortedIds server ids) ∧
      ∀ id, id ∈ ids ↔ ∃ sub, Listed (server.contexts token) sub ∧
        Relation.ReflTransGen ((server.contexts token).Supertype server) sub type ∧
        model.InstanceOf server (server.contexts token) sub id := by
  obtain ⟨expanded, filed, direct, subtypes⟩ := current.types token kept
  generalize server.contexts token = context at filed direct subtypes
  have listed (type : String) : type ∈ (model.directInstances server context).keys ↔ Listed context type :=
    keys_directInstances server model context type
  have entries {type : String} {ids : Finset String} (m : (type, ids) ∈ (model.directInstances server context).entries) :
      Listed context type ∧ ids = (model.directInstances server context).members type := by
    have found := (Dict.mem_entries _ _ _).mp m
    refine ⟨(listed type).mp ((Dict.mem_keys _ _).mpr ⟨ids, found⟩), ?_⟩
    rw [Dict.members, found]
    rfl
  have grounded : ∀ type, Listed context type → Grounded (context.parents server).get? (fun _ => false) type := by
    intro type m
    by_contra none
    have found := Dict.get?_of_members ((listed type).mpr m)
    rw [expand_cyclic _ _ _ ⟨_, (Dict.mem_entries _ _ _).mpr found, none⟩] at filed
    cases filed
  obtain ⟨all, ran, more, spread⟩ := expand_ok (context.parents server) (model.directInstances server context).entries
    (model.directInstances server context) fun entry m => grounded entry.1 (entries m).1
  cases ran.symm.trans filed
  refine ⟨(grounded_iff_acyclic context).mp grounded, fun type => ?_, fun type m => ⟨expanded.members type, ?_, fun id => ?_⟩⟩
  · rw [direct, Dict.keys_mapValues, listed]
  · rw [subtypes, Dict.get?_mapValues, Dict.get?_of_members (more type ((listed type).mpr m))]
    rfl
  · rw [spread, mem_directInstances _ _ _ m]
    constructor
    · rintro (here | ⟨⟨sub, ids⟩, inside, above, mem⟩)
      · exact ⟨type, m, .refl, here⟩
      · obtain ⟨below, rfl⟩ := entries inside
        exact ⟨sub, below, above.to_reflTransGen, (mem_directInstances _ _ _ below _).mp mem⟩
    · rintro ⟨sub, below, reach, here⟩
      rcases Relation.reflTransGen_iff_eq_or_transGen.mp reach with rfl | above
      · exact .inl here
      · have found := Dict.get?_of_members ((listed sub).mpr below)
        exact .inr ⟨_, (Dict.mem_entries _ _ _).mpr found, above, (mem_directInstances _ _ _ below _).mpr here⟩

theorem withTypes_refused {index : ModelAccessIndex} (current : model.Current server index) {token : Nat}
    (cyclic : CyclicTypes server (server.contexts token)) : model.withTypes server index token = .error cyclicTypes := by
  have other : index.typeContextToken ≠ some token := fun same => (current.subtypeInstances same).1 cyclic
  have some' : ∃ type, Listed (server.contexts token) type ∧
      ¬ Grounded ((server.contexts token).parents server).get? (fun _ => false) type := by
    by_contra none
    refine (grounded_iff_acyclic (server.contexts token)).mp (fun type m => ?_) cyclic
    by_contra ungrounded
    exact none ⟨type, m, ungrounded⟩
  obtain ⟨type, m, ungrounded⟩ := some'
  have found := Dict.get?_of_members ((keys_directInstances server model (server.contexts token) type).mpr m)
  rw [withTypes, if_neg other]
  dsimp only
  rw [expand_cyclic _ _ _ ⟨_, (Dict.mem_entries _ _ _).mpr found, ungrounded⟩]

theorem withTypes_accepted (model : AccessModel) (index : ModelAccessIndex) {token : Nat}
    (acyclic : ¬ CyclicTypes server (server.contexts token)) : ∃ index', model.withTypes server index token = .ok index' := by
  rw [withTypes]
  split
  · exact ⟨_, rfl⟩
  · have grounded := (grounded_iff_acyclic (server.contexts token)).mpr acyclic
    obtain ⟨all, ran, -⟩ := expand_ok ((server.contexts token).parents server)
      (model.directInstances server (server.contexts token)).entries (model.directInstances server (server.contexts token))
      fun entry m => grounded entry.1 ((keys_directInstances _ _ _ _).mp
        ((Dict.mem_keys _ _).mpr ⟨entry.2, (Dict.mem_entries _ _ _).mp m⟩))
    dsimp only
    rw [ran]
    exact ⟨_, rfl⟩

/-- The instances of a listed type and of all types below it are listed once, in order;
a cycle above a listed type is answered with the error, whatever is asked for. -/
theorem getInstancesOfType_subtypes (server : Server) (model : AccessModel) (calls : List Call) (token : Nat)
    (type : String) (requested : Option String) (includeSubtypes : Option Bool)
    (accepted : requested = some (server.contexts token).revision ∨ requested = none) (arguments : PageArguments)
    (started : requested = none → arguments.offset.getD 0 = 0) :
    (CyclicTypes server (server.contexts token) →
      model.answerAfter server calls (.getInstancesOfType type requested includeSubtypes arguments (some token)) =
        .error cyclicTypes) ∧
    (¬ CyclicTypes server (server.contexts token) → Listed (server.contexts token) type → includeSubtypes.getD true = true →
      ∃ ids, model.InOrder server ids ∧
        (∀ id, id ∈ ids ↔ ∃ sub, Listed (server.contexts token) sub ∧
          Relation.ReflTransGen ((server.contexts token).Supertype server) sub type ∧
          model.InstanceOf server (server.contexts token) sub id) ∧
        model.answerAfter server calls (.getInstancesOfType type requested includeSubtypes arguments (some token)) =
          .ok ⟨model.revisionOf server, .instances (model.page ids arguments) (server.contexts token).revision⟩) := by
  have current := current_after server model calls
  generalize eq : model.index server (model.cacheAfter server calls) = index at current
  have unfolded : model.answerAfter server calls (.getInstancesOfType type requested includeSubtypes arguments (some token)) =
      (model.getInstancesOfType server index type requested includeSubtypes arguments (some token)).1.map
        (Answer.mk (model.revisionOf server)) := by
    rw [← eq]
    rfl
  have inOffset : ¬ (0 < arguments.offset.getD 0 ∧ requested = none) := fun both =>
    absurd (started both.2) (Nat.ne_of_gt both.1)
  have sameRevision : ¬ (requested ≠ none ∧ requested ≠ some (server.contexts token).revision) := fun both =>
    accepted.elim both.2 both.1
  rw [unfolded, getInstancesOfType]
  dsimp only
  rw [if_neg inOffset, if_neg sameRevision]
  constructor
  · intro cyclic
    rw [withTypes_refused current cyclic]
    rfl
  · intro acyclic listed wanted
    obtain ⟨index', ran⟩ := withTypes_accepted model index acyclic
    obtain ⟨current', kept⟩ := current.withTypes ran
    obtain ⟨-, known, instances⟩ := current'.subtypeInstances kept
    obtain ⟨ids, found, mem⟩ := instances type listed
    refine ⟨model.sortedIds server ids, ⟨nodup_sortedIds _ _ _, sortedIds_pairwise _ _ _⟩, fun id => ?_, ?_⟩
    · rw [mem_sortedIds, mem]
    · rw [ran]
      dsimp only
      rw [if_neg (not_not.mpr ((known type).mpr listed)), wanted, if_pos rfl, found]
      rfl

/-- The instances of the upper type are both pumps, one of them by the lower type. -/
theorem getInstancesOfType_subtypes_pump :
    Sample.plant.answerAfter Sample.server [] (.getInstancesOfType "t" none none ⟨none, none, nofun⟩ (some 0)) =
      .ok ⟨"r", .instances ⟨2, 2, 0, none, [("a", "Pump"), ("b", "Pump")]⟩ "c"⟩ := by
  have links : (Sample.context.parents Sample.server).entries = [("u", "t")] := by decide
  have only {type above : String} (up : Sample.context.Supertype Sample.server type above) : type = "u" ∧ above = "t" := by
    have m := (Dict.mem_entries _ _ _).mpr up
    rw [links, List.mem_singleton, Prod.mk.injEq] at m
    exact m
  have acyclic : ¬ CyclicTypes Sample.server (Sample.server.contexts 0) := by
    rintro ⟨-, above, -, -, cycle⟩
    obtain ⟨_, up, -⟩ := Relation.TransGen.head'_iff.mp cycle
    obtain ⟨_, -, up'⟩ := Relation.TransGen.tail'_iff.mp cycle
    exact absurd ((only up).1.symm.trans (only up').2) (by decide)
  have below : Sample.context.Supertype Sample.server "u" "t" := by
    show (Sample.context.parents Sample.server).get? "u" = some "t"
    decide
  obtain ⟨ids, order, mem, answer⟩ := (getInstancesOfType_subtypes Sample.server Sample.plant [] 0 "t" none none (.inr rfl)
    ⟨none, none, nofun⟩ fun _ => rfl).2 acyclic ⟨_, List.mem_cons_self, rfl⟩ rfl
  have pumps (id : String) : id ∈ ids ↔ id ∈ ["a", "b"] := by
    rw [mem]
    constructor
    · rintro ⟨_, -, -, instance', -⟩
      rw [← keys_pumps, Dict.mem_keys]
      rw [isInstance] at instance'
      cases found : Sample.plant.nodesById.get? id with
      | none =>
          rw [found] at instance'
          cases instance'
      | some node => exact ⟨node, rfl⟩
    · intro m
      simp only [List.mem_cons, List.not_mem_nil, or_false] at m
      rcases m with rfl | rfl
      · exact ⟨"t", ⟨⟨"t", "t"⟩, by decide, rfl⟩, .refl, by decide, .inl ⟨_, rfl, by decide⟩⟩
      · exact ⟨"u", ⟨⟨"u", "u"⟩, by decide, rfl⟩, .single below, by decide, .inl ⟨_, rfl, by decide⟩⟩
  obtain rfl := order.unique inOrder_pumps pumps
  exact answer

end AccessModel
end I3x.Mcp

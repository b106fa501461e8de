import I3xServer.Mcp.Messages

/-!
# The bodies of tool results

Each tool has its own way to compact the body of its response. What is sent is a trimmed
version: whatever can be read in it can be read in the body along the same path, with
lists of the same length, and a failure is reported exactly if the body reports one.
-/
namespace I3x.Mcp
open Container
variable {F : Type}

/-! ## Compaction -/

/-- Whether the source takes a value for true. -/
def truthy (isZero : F → Bool) : Value F → Bool
  | .null => false
  | .bool value => value
  | .number (.integer value) => value ≠ 0
  | .number (.float value) => !isZero value
  | .string text => text ≠ ""
  | .array items => !items.isEmpty
  | .object members => !members.isEmpty

/-- The members with the given names, in that order. -/
def pick (names : List String) : Value F → Value F
  | .object members => .object (names.filterMap fun name => (Members.get members name).map fun value => (name, value))
  | value => value

/-- The members that are not left out, which is told from name and value. -/
def leaveOut (left : String → Value F → Bool) : Value F → Value F
  | .object members => .object (members.filter fun m => !left m.1 (Members.getOrNull members m.1))
  | value => value

def compactObject : Value F → Value F := pick ["elementId", "displayName"]

def compactObjectType : Value F → Value F := pick ["elementId", "displayName", "namespaceUri", "version"]

def compactRelatedItem : Value F → Value F
  | .object members =>
      match Members.get members "object" with
      | some object => .object (Members.set members "object" (compactObject object))
      | none => .object members
  | related => related

def compactRelated : Value F → Value F
  | .array items => .array (items.map compactRelatedItem)
  | result => result

def compactQueriedType : Value F → Value F := leaveOut fun name _ => name = "related"

def isNull : Value F → Bool
  | .null => true
  | _ => false

def leftOutOfValues (name : String) (value : Value F) : Bool :=
  name = "isComposition" || (name = "components" && isNull value)

/-- Current and historical values alike. -/
def compactValues : Value F → Value F := leaveOut leftOutOfValues

/-- An item of a bulk response; only what a success has as its result is compacted. -/
def compactItem (isZero : F → Bool) (projectResult : Value F → Value F) : Value F → Value F
  | .object item =>
      match Members.get item "result" with
      | some result =>
          if truthy isZero (Members.getOrNull item "success") then
            .object (Members.set item "result" (projectResult result))
          else .object item
      | none => .object item
  | item => item

/-- The items of a list under a name, each mapped. -/
def mapUnder (name : String) (project : Value F → Value F) (body : Members F) : Members F :=
  match body.get name with
  | some (.array items) => body.set name (.array (items.map project))
  | _ => body

def compactBulkResults (isZero : F → Bool) (projectResult : Value F → Value F) : Members F → Members F :=
  mapUnder "results" (compactItem isZero projectResult)

def compactToolMembers (isZero : F → Bool) (toolName : String) : Members F → Members F :=
  if toolName = "getObjectsV1" then mapUnder "result" compactObject
  else if toolName = "listObjectsByIdV1" then compactBulkResults isZero compactObject
  else if toolName = "queryRelatedObjectsV1" then compactBulkResults isZero compactRelated
  else if toolName = "getObjectTypesV1" then mapUnder "result" compactObjectType
  else if toolName = "queryObjectTypesV1" then compactBulkResults isZero compactQueriedType
  else if toolName = "getRelationshipTypesV1" then mapUnder "result" compactObject
  else if toolName = "queryRelationshipTypesV1" then compactBulkResults isZero compactObject
  else if toolName = "queryLastKnownValuesV1" then compactBulkResults isZero compactValues
  else if toolName = "queryHistoricalValuesV1" then compactBulkResults isZero compactValues
  else id

def compactToolBody (isZero : F → Bool) (toolName : String) : Value F → Value F
  | .object body => .object (compactToolMembers isZero toolName body)
  | body => body

/-! ## Results -/

/-- The value is an object whose success is false. -/
def declaresFailure : Value F → Bool
  | .object item =>
      match Members.get item "success" with
      | some (.bool false) => true
      | _ => false
  | _ => false

def anyItemFailed (body : Members F) : Bool :=
  match body.get "results" with
  | some (.array results) => results.any declaresFailure
  | _ => false

def bodyFailed (statusCode : Int) : Value F → Bool
  | .object body => statusCode ≥ 400 || declaresFailure (.object body) || anyItemFailed body
  | _ => statusCode ≥ 400

/-- A tool result around a body; `dumps` writes it as a text. -/
def toolResult (dumps : Value F → String) (statusCode : Int) (body : Value F) : Value F :=
  .object [("content", .array [.object [("type", .string "text"), ("text", .string (dumps body))]]),
    ("structuredContent", .object [("statusCode", .number (.integer statusCode)), ("body", body)]),
    ("isError", .bool (bodyFailed statusCode body))]

/-! ## What can be read in a value -/

inductive JsonStep where
  | key (name : String)
  | index (i : Nat)
  deriving DecidableEq, Repr

def follow : Value F → List JsonStep → Option (Value F)
  | value, [] => some value
  | value, .key name :: path => (value.get name).bind fun inner => follow inner path
  | .array items, .index i :: path => items[i]?.bind fun inner => follow inner path
  | _, .index _ :: _ => none

/-- Lists of one length, or objects, or the same otherwise. -/
def SameHead : Value F → Value F → Prop
  | .array xs, .array ys => xs.length = ys.length
  | .object _, .object _ => True
  | v, w => v = w

/-- Whatever can be read in the first value can be read in the second one. -/
def Trimmed (v w : Value F) : Prop :=
  ∀ path u, follow v path = some u → ∃ u', follow w path = some u' ∧ SameHead u u'

theorem sameHead_refl (v : Value F) : SameHead v v := by
  cases v with
  | array items => exact rfl
  | object members => exact trivial
  | null => exact rfl
  | bool value => exact rfl
  | number value => exact rfl
  | string text => exact rfl

namespace Trimmed

theorem refl (v : Value F) : Trimmed v v := fun _ u read => ⟨u, read, sameHead_refl u⟩

theorem object {xs ys : Members F}
    (inside : ∀ name v, xs.get name = some v → ∃ w, ys.get name = some w ∧ Trimmed v w) :
    Trimmed (.object xs) (.object ys) := by
  intro path u read
  cases path with
  | nil =>
      cases read
      exact ⟨_, rfl, trivial⟩
  | cons step path =>
      cases step with
      | key name =>
          obtain ⟨v, found, further⟩ := Option.bind_eq_some_iff.mp read
          obtain ⟨w, there, trimmed⟩ := inside name v found
          obtain ⟨u', same, heads⟩ := trimmed path u further
          exact ⟨u', Option.bind_eq_some_iff.mpr ⟨w, there, same⟩, heads⟩
      | index i => cases read

theorem array {project : Value F → Value F} (trims : ∀ v, Trimmed (project v) v) (items : List (Value F)) :
    Trimmed (.array (items.map project)) (.array items) := by
  intro path u read
  cases path with
  | nil =>
      cases read
      exact ⟨_, rfl, List.length_map project⟩
  | cons step path =>
      cases step with
      | key name => cases read
      | index i =>
          obtain ⟨v, found, further⟩ := Option.bind_eq_some_iff.mp read
          rw [List.getElem?_map, Option.map_eq_some_iff] at found
          obtain ⟨item, there, rfl⟩ := found
          obtain ⟨u', same, heads⟩ := trims item path u further
          exact ⟨u', Option.bind_eq_some_iff.mpr ⟨item, there, same⟩, heads⟩

/-- Assignment of a trimmed version of what is there. -/
theorem set {members : Members F} {name : String} {value old : Value F} (there : members.get name = some old)
    (trimmed : Trimmed value old) : Trimmed (.object (members.set name value)) (.object members) := by
  refine object fun other v found => ?_
  rw [Members.get_set] at found
  split at found
  · rename_i same
    cases found
    exact ⟨old, same ▸ there, trimmed⟩
  · exact ⟨v, found, refl v⟩

end Trimmed

/-! ## The ways to compact -/

theorem get_pick (names : List String) (members : Members F) (name : String) :
    Members.get (names.filterMap fun name => (members.get name).map fun value => (name, value)) name =
      if name ∈ names then members.get name else none := by
  rw [Members.get_eq, ← List.filterMap_reverse]
  have reversed : name ∈ names ↔ name ∈ names.reverse := List.mem_reverse.symm
  simp only [reversed]
  generalize names.reverse = listed
  induction listed with
  | nil => rfl
  | cons first rest ih =>
      cases found : members.get first with
      | none =>
          rw [List.filterMap_cons_none (by rw [found]; rfl), ih]
          by_cases same : name = first
          · subst same
            simp [found]
          · simp [same]
      | some value =>
          rw [List.filterMap_cons_some (by rw [found]; rfl), lookup_cons_ite, ih]
          by_cases same : name = first
          · subst same
            simp [found]
          · simp [same]

theorem pick_trims (names : List String) (v : Value F) : Trimmed (pick names v) v := by
  cases v with
  | object members =>
      refine Trimmed.object fun name value found => ?_
      rw [get_pick] at found
      split at found
      · exact ⟨value, found, .refl value⟩
      · cases found
  | _ => exact .refl _

theorem pick_again (names : List String) (v : Value F) : pick names (pick names v) = pick names v := by
  cases v with
  | object members =>
      refine congrArg JsonValue.object (List.filterMap_congr fun name listed => ?_)
      rw [get_pick, if_pos listed]
  | _ => rfl

theorem get_leaveOut (left : String → Value F → Bool) (members : Members F) (name : String) :
    Members.get (members.filter fun m => !left m.1 (members.getOrNull m.1)) name =
      if !left name (members.getOrNull name) then members.get name else none := by
  rw [Members.get_eq, ← List.filter_reverse, lookup_filter fun name => !left name (members.getOrNull name)]
  rfl

theorem leaveOut_trims (left : String → Value F → Bool) (v : Value F) : Trimmed (leaveOut left v) v := by
  cases v with
  | object members =>
      refine Trimmed.object fun name value found => ?_
      rw [get_leaveOut] at found
      split at found
      · exact ⟨value, found, .refl value⟩
      · cases found
  | _ => exact .refl _

theorem leaveOut_again (left : String → Value F → Bool) (v : Value F) :
    leaveOut left (leaveOut left v) = leaveOut left v := by
  cases v with
  | object members =>
      refine congrArg JsonValue.object (List.filter_eq_self.mpr fun m inside => ?_)
      have kept := (List.mem_filter.mp inside).2
      rw [Members.getOrNull, get_leaveOut, if_pos kept]
      exact kept
  | _ => rfl

/-- What a projection of values may do. -/
structure Compacts (project : Value F → Value F) : Prop where
  trims : ∀ v, Trimmed (project v) v
  again : ∀ v, project (project v) = project v

theorem pick_compacts (names : List String) : Compacts (pick (F := F) names) := ⟨pick_trims names, pick_again names⟩

theorem leaveOut_compacts (left : String → Value F → Bool) : Compacts (leaveOut left) :=
  ⟨leaveOut_trims left, leaveOut_again left⟩

theorem compactRelatedItem_compacts : Compacts (compactRelatedItem (F := F)) where
  trims v := by
    cases v with
    | object members =>
        cases found : Members.get members "object" with
        | none =>
            simp only [compactRelatedItem, found]
            exact .refl _
        | some object =>
            simp only [compactRelatedItem, found]
            exact .set found (pick_trims _ object)
    | _ => exact .refl _
  again v := by
    cases v with
    | object members =>
        cases found : Members.get members "object" with
        | none => simp only [compactRelatedItem, found]
        | some object =>
            have assigned : Members.get (Members.set members "object" (compactObject object)) "object" =
                some (compactObject object) := (Members.get_set _ _ _ _).trans (if_pos rfl)
            simp only [compactRelatedItem, found, assigned]
            rw [Members.set_set, compactObject, pick_again]
    | _ => rfl

theorem compactRelated_compacts : Compacts (compactRelated (F := F)) where
  trims v := by
    cases v with
    | array items => exact .array compactRelatedItem_compacts.trims items
    | _ => exact .refl _
  again v := by
    cases v with
    | array items =>
        refine congrArg JsonValue.array ?_
        rw [List.map_map]
        exact List.map_congr_left fun item _ => compactRelatedItem_compacts.again item
    | _ => rfl

/-! ## Items of bulk responses -/

section
variable {isZero : F → Bool} {projectResult : Value F → Value F}

theorem compactItem_cases (isZero : F → Bool) (projectResult : Value F → Value F) (v : Value F) :
    compactItem isZero projectResult v = v ∨ ∃ (item : Members F) (result : Value F),
      v = .object item ∧ item.get "result" = some result ∧ truthy isZero (item.getOrNull "success") = true ∧
      compactItem isZero projectResult v = .object (item.set "result" (projectResult result)) := by
  cases v with
  | object item =>
      cases found : Members.get item "result" with
      | none => exact .inl (by simp only [compactItem, found])
      | some result =>
          cases success : truthy isZero (Members.getOrNull item "success") with
          | false => exact .inl (by simp only [compactItem, found, success, Bool.false_eq_true, if_false])
          | true =>
              exact .inr ⟨item, result, rfl, found, success, by simp only [compactItem, found, success, if_true]⟩
  | _ => exact .inl rfl

theorem compactItem_compacts (compacts : Compacts projectResult) : Compacts (compactItem isZero projectResult) where
  trims v := by
    rcases compactItem_cases isZero projectResult v with same | ⟨item, result, rfl, found, -, compacted⟩
    · rw [same]
      exact .refl v
    · rw [compacted]
      exact .set found (compacts.trims result)
  again v := by
    rcases compactItem_cases isZero projectResult v with same | ⟨item, result, rfl, found, success, compacted⟩
    · rw [same, same]
    · have assigned : Members.get (item.set "result" (projectResult result)) "result" =
          some (projectResult result) := (Members.get_set _ _ _ _).trans (if_pos rfl)
      have kept : Members.getOrNull (item.set "result" (projectResult result)) "success" =
          item.getOrNull "success" := by
        rw [Members.getOrNull, Members.get_set, if_neg (by decide), Members.getOrNull]
      rw [compacted]
      simp only [compactItem, assigned, kept, success, if_true]
      rw [Members.set_set, compacts.again]

/-- An item reports a failure as before, and then nothing is left out of it. -/
structure KeepsFailures (project : Value F → Value F) : Prop where
  declares : ∀ v, declaresFailure (project v) = declaresFailure v
  whole : ∀ v, declaresFailure v = true → project v = v

theorem compactItem_keepsFailures : KeepsFailures (compactItem isZero projectResult) where
  declares v := by
    rcases compactItem_cases isZero projectResult v with same | ⟨item, result, rfl, -, -, compacted⟩
    · rw [same]
    · rw [compacted, declaresFailure, declaresFailure, Members.get_set, if_neg (by decide)]
  whole v failure := by
    rcases compactItem_cases isZero projectResult v with same | ⟨item, result, rfl, -, success, -⟩
    · exact same
    · simp only [declaresFailure] at failure
      split at failure
      · rename_i stated
        rw [Members.getOrNull, stated] at success
        cases success
      · cases failure

end

/-! ## Bodies -/

/-- What compaction of a body may do: it trims it, once and for all, and keeps its failures. -/
structure Faithful (compact : Members F → Members F) : Prop where
  trims : ∀ body, Trimmed (.object (compact body)) (.object body)
  again : ∀ body, compact (compact body) = compact body
  success : ∀ body, (compact body).get "success" = body.get "success"
  failed : ∀ body, anyItemFailed (compact body) = anyItemFailed body
  failures : ∀ body i item, follow (.object body) [.key "results", .index i] = some item →
    declaresFailure item = true → follow (.object (compact body)) [.key "results", .index i] = some item

theorem faithful_id : Faithful (id : Members F → Members F) :=
  ⟨fun _ => .refl _, fun _ => rfl, fun _ => rfl, fun _ => rfl, fun _ _ _ read _ => read⟩

theorem mapUnder_cases (name : String) (project : Value F → Value F) (body : Members F) :
    mapUnder name project body = body ∨ ∃ items, body.get name = some (.array items) ∧
      mapUnder name project body = body.set name (.array (items.map project)) := by
  unfold mapUnder
  split
  · rename_i items found
    exact .inr ⟨items, found, rfl⟩
  · exact .inl rfl

theorem get_mapUnder_ne {name other : String} (apart : other ≠ name) (project : Value F → Value F)
    (body : Members F) :
    (mapUnder name project body).get other = body.get other := by
  rcases mapUnder_cases name project body with same | ⟨items, found, mapped⟩
  · rw [same]
  · rw [mapped, Members.get_set, if_neg apart]

/-- A list mapped under a name has no more and no fewer items that report a failure. -/
theorem anyItemFailed_mapUnder {name : String} {project : Value F → Value F}
    (declares : name = "results" → ∀ v, declaresFailure (project v) = declaresFailure v) (body : Members F) :
    anyItemFailed (mapUnder name project body) = anyItemFailed body := by
  rcases mapUnder_cases name project body with same | ⟨items, found, mapped⟩
  · rw [same]
  · rw [mapped, anyItemFailed, anyItemFailed, Members.get_set]
    by_cases results : name = "results"
    · subst results
      rw [if_pos rfl, found]
      simp only [List.any_map]
      congr 1
      exact funext (declares rfl)
    · rw [if_neg (Ne.symm results)]

theorem mapUnder_faithful {name : String} {project : Value F → Value F} (compacts : Compacts project)
    (keeps : name = "results" → KeepsFailures project) (other : name ≠ "success") :
    Faithful (mapUnder name project) where
  trims body := by
    rcases mapUnder_cases name project body with same | ⟨items, found, compacted⟩
    · rw [same]
      exact .refl _
    · rw [compacted]
      exact .set found (.array compacts.trims items)
  again body := by
    rcases mapUnder_cases name project body with same | ⟨items, found, compacted⟩
    · rw [same, same]
    · have assigned : (body.set name (.array (items.map project))).get name = some (.array (items.map project)) :=
        (Members.get_set _ _ _ _).trans (if_pos rfl)
      rw [compacted]
      simp only [mapUnder, assigned]
      rw [Members.set_set, List.map_map]
      exact congrArg (fun items => body.set name (.array items)) (List.map_congr_left fun item _ => compacts.again item)
  success body := get_mapUnder_ne (Ne.symm other) project body
  failed body := anyItemFailed_mapUnder (fun same => (keeps same).declares) body
  failures body i item read failure := by
    rcases mapUnder_cases name project body with same | ⟨items, found, compacted⟩
    · rw [same]
      exact read
    · rw [compacted]
      obtain ⟨results, there, further⟩ := Option.bind_eq_some_iff.mp read
      refine Option.bind_eq_some_iff.mpr ?_
      by_cases same : name = "results"
      · subst same
        cases Option.some.inj (there.symm.trans found)
        obtain ⟨inner, listed, whole⟩ := Option.bind_eq_some_iff.mp further
        cases whole
        refine ⟨.array (items.map project), (Members.get_set _ _ _ _).trans (if_pos rfl),
          Option.bind_eq_some_iff.mpr ⟨project item, ?_, congrArg some ((keeps rfl).whole item failure)⟩⟩
        rw [List.getElem?_map, listed, Option.map_some]
      · exact ⟨results, (Members.get_set _ _ _ _).trans ((if_neg (Ne.symm same)).trans there), further⟩

theorem listed_faithful {project : Value F → Value F} (compacts : Compacts project) :
    Faithful (mapUnder "result" project) :=
  mapUnder_faithful compacts (fun same => absurd same (by decide)) (by decide)

theorem bulk_faithful {isZero : F → Bool} {projectResult : Value F → Value F} (compacts : Compacts projectResult) :
    Faithful (compactBulkResults isZero projectResult) :=
  mapUnder_faithful (compactItem_compacts compacts) (fun _ => compactItem_keepsFailures) (by decide)

theorem compactToolMembers_faithful (isZero : F → Bool) (toolName : String) :
    Faithful (compactToolMembers isZero toolName) := by
  unfold compactToolMembers
  split_ifs
  · exact listed_faithful (pick_compacts _)
  · exact bulk_faithful (pick_compacts _)
  · exact bulk_faithful compactRelated_compacts
  · exact listed_faithful (pick_compacts _)
  · exact bulk_faithful (leaveOut_compacts _)
  · exact listed_faithful (pick_compacts _)
  · exact bulk_faithful (pick_compacts _)
  · exact bulk_faithful (leaveOut_compacts _)
  · exact bulk_faithful (leaveOut_compacts _)
  · exact faithful_id

theorem compactToolBody_trims (isZero : F → Bool) (toolName : String) (body : Value F) :
    Trimmed (compactToolBody isZero toolName body) body := by
  cases body with
  | object members => exact (compactToolMembers_faithful isZero toolName).trims members
  | _ => exact .refl _

theorem compactToolBody_failed (isZero : F → Bool) (toolName : String) (statusCode : Int) (body : Value F) :
    bodyFailed statusCode (compactToolBody isZero toolName body) = bodyFailed statusCode body := by
  cases body with
  | object members =>
      have faithful := compactToolMembers_faithful isZero toolName
      simp only [compactToolBody, bodyFailed, declaresFailure, faithful.success, faithful.failed]
  | _ => rfl

/-- Of the body of a tool call parts are left out, in one step that changes nothing when
repeated; the call is reported as failed exactly if the whole body reports a failure, and
an item that failed is sent whole, in its place. -/
theorem compaction_trims (isZero : F → Bool) (toolName : String) (statusCode : Int) (body : Value F) :
    Trimmed (compactToolBody isZero toolName body) body ∧
      compactToolBody isZero toolName (compactToolBody isZero toolName body) = compactToolBody isZero toolName body ∧
      bodyFailed statusCode (compactToolBody isZero toolName body) = bodyFailed statusCode body ∧
      ∀ i item, follow body [.key "results", .index i] = some item → declaresFailure item = true →
        follow (compactToolBody isZero toolName body) [.key "results", .index i] = some item := by
  refine ⟨compactToolBody_trims isZero toolName body, ?_, compactToolBody_failed isZero toolName statusCode body,
    ?_⟩
  · cases body with
    | object members => exact congrArg JsonValue.object ((compactToolMembers_faithful isZero toolName).again members)
    | _ => rfl
  · cases body with
    | object members => exact (compactToolMembers_faithful isZero toolName).failures members
    | _ => exact fun _ _ read _ => read

end I3x.Mcp

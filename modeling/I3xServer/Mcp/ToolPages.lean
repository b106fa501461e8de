import I3xServer.Container.Attempt
import I3xServer.Container.Paging
import I3xServer.Mcp.ToolBodies

/-!
# Pages of tool results

Five tools answer page by page. For every page the endpoint is asked for the whole body;
the page is cut out of it, with a note of where the next one begins, and then compacted.
Historical values hold a series of values and, below it, those of the components.
-/
namespace I3x.Mcp
open Container
variable {F : Type}

/-! ## Cutting pages -/

def natural (n : Nat) : Value F := .number (.integer n)

def pagination (total offset returned : Nat) : Value F :=
  .object ([("total", natural total), ("returned", natural returned), ("offset", natural offset)] ++
    (nextOffset total offset returned).toList.map fun next => ("nextOffset", natural next))

/-- The list under a name gives way to a page of it, and the pagination is put beside it. -/
def setPage (name : String) (limit offset : Nat) (items : List (Value F)) (members : Members F) : Members F :=
  let selected := (items.drop offset).take limit
  (members.set name (.array selected)).set "pagination" (pagination items.length offset selected.length)

def paginateMcpList (limit offset : Nat) (body : Members F) : Members F :=
  match body.get "result" with
  | some (.array items) => setPage "result" limit offset items body
  | _ => body

def paginateRelatedItem (isZero : F → Bool) (limit offset : Nat) : Value F → Value F
  | .object item =>
      match Members.get item "result" with
      | some (.array related) =>
          if truthy isZero (Members.getOrNull item "success") then
            .object (setPage "result" limit offset related item)
          else .object item
      | _ => .object item
  | item => item

def paginateHistoryValues (limit offset : Nat) (result : Members F) : Members F :=
  match result.get "values" with
  | some (.array values) => setPage "values" limit offset values result
  | _ => result

theorem sizeOf_component {result components : Members F} {m : String × Value F}
    (found : result.get "components" = some (.object components)) (inside : m ∈ components) :
    sizeOf m.2 < sizeOf (JsonValue.object result : Value F) := by
  have listed : ("components", (JsonValue.object components : Value F)) ∈ result :=
    List.mem_reverse.mp (lookup_mem found)
  have below := List.sizeOf_lt_of_mem listed
  have within := List.sizeOf_lt_of_mem inside
  have split : sizeOf m = 1 + sizeOf m.1 + sizeOf m.2 := by
    cases m
    rfl
  simp only [Prod.mk.sizeOf_spec, JsonValue.object.sizeOf_spec] at below ⊢
  omega

def paginateHistoryResult (limit offset : Nat) : Value F → Value F
  | .object result =>
      let paged := paginateHistoryValues limit offset result
      match _found : Members.get result "components" with
      | some (.object components) =>
          .object (Members.set paged "components"
            (.object (components.attach.map fun m => (m.1.1, paginateHistoryResult limit offset m.1.2))))
      | _ => .object paged
  | result => result
termination_by result => sizeOf result
decreasing_by exact sizeOf_component _found m.2

def paginateHistoryItem (isZero : F → Bool) (limit offset : Nat) : Value F → Value F
  | .object item =>
      match Members.get item "result" with
      | some (.object result) =>
          if truthy isZero (Members.getOrNull item "success") then
            .object (Members.set item "result" (paginateHistoryResult limit offset (.object result)))
          else .object item
      | _ => .object item
  | item => item

/-! ## Requests -/

def mcpPaginatedListTools : List String := ["getObjectsV1", "getObjectTypesV1", "getRelationshipTypesV1"]
def mcpDefaultPageSize : Nat := 50

def mcpBodyPaginatedTools : List (String × Nat) := [("queryRelatedObjectsV1", 50), ("queryHistoricalValuesV1", 100)]

def badLimit : HttpError := ⟨400, "Bad Request", "limit must be an integer from 1 to 500"⟩
def badOffset : HttpError := ⟨400, "Bad Request", "offset must be a non-negative integer"⟩

/-- `_validate_mcp_page`; absent arguments have defaults. -/
def validateMcpPage (arguments : Members F) (defaultLimit : Nat) : Except HttpError (Nat × Nat) :=
  match (arguments.get "limit").getD (natural defaultLimit) with
  | .number (.integer limit) =>
      if 1 ≤ limit ∧ limit ≤ 500 then
        match (arguments.get "offset").getD (natural 0) with
        | .number (.integer offset) => if 0 ≤ offset then .ok (limit.toNat, offset.toNat) else .error badOffset
        | _ => .error badOffset
      else .error badLimit
  | _ => .error badLimit

/-- The members without a name. -/
def Members.pop (members : Members F) (name : String) : Members F := members.filter fun m => m.1 ≠ name

/-- What the endpoint is asked: the query parameters, and the body if there is one. -/
structure UpstreamRequest (F : Type) where
  queryParams : Members F
  body : Option (Value F)

/-- The arguments that are query parameters; of the objects only the roots are asked for
unless the call says otherwise. -/
def queryParams (toolName : String) (parameters : List String) (arguments : Members F) : Members F :=
  let given := parameters.filterMap fun name =>
    match arguments.getOrNull name with
    | .null => none
    | value => some (name, value)
  if toolName = "getObjectsV1" ∧ "root" ∈ parameters ∧ isNull (arguments.getOrNull "root") then
    given ++ [("root", .bool true)]
  else given

def requestBody (arguments : Members F) : Option (Value F) :=
  match arguments.getOrNull "body" with
  | .null => none
  | body => some body

/-- What a tool of the endpoint declares of its arguments; of the input schema, the
properties and which of them are required. -/
structure ToolDefinition where
  name : String
  pathParameters : List String
  queryParameters : List String
  bodyRequired : Bool
  properties : List String
  required : List String

namespace ToolDefinition
variable (tool : ToolDefinition)

def allowedArguments : List String :=
  tool.pathParameters ++ tool.queryParameters ++
    (if tool.name ∈ mcpPaginatedListTools then ["limit", "offset"] else []) ++
    if tool.bodyRequired = true ∨ "body" ∈ tool.properties then ["body"] else []

/-- The arguments that a call needs and does not have. -/
def missingArguments (names : List String) : List String :=
  (tool.pathParameters.filter fun name => name ∉ names) ++
    tool.queryParameters.filter fun name => name ∈ tool.required ∧ name ∉ names

def unexpected (names : List String) : HttpError := ⟨400, "Bad Request", "Unexpected arguments: " ++ ", ".intercalate names⟩
def missing (names : List String) : HttpError :=
  ⟨400, "Bad Request", "Missing required arguments: " ++ ", ".intercalate names⟩

def checkArguments (arguments : Members F) : Except HttpError Unit :=
  let names := arguments.map Prod.fst
  let unknown := sorted (names.toFinset \ tool.allowedArguments.toFinset)
  if unknown ≠ [] then .error (unexpected unknown)
  else if tool.missingArguments names ≠ [] then .error (missing (tool.missingArguments names))
  else .ok ()

end ToolDefinition

/-- The page that a tool with a list as its result is asked for. -/
def listWindow (toolName : String) (arguments : Members F) : Except HttpError (Option (Nat × Nat)) :=
  if toolName ∈ mcpPaginatedListTools then (validateMcpPage arguments mcpDefaultPageSize).map some else .ok none

/-- The body that is sent, and the page that it asked for. -/
def bodyWindow (toolName : String) (arguments : Members F) : Except HttpError (Option (Value F) × Option (Nat × Nat)) :=
  match mcpBodyPaginatedTools.lookup toolName, requestBody arguments with
  | some defaultLimit, some (.object body) =>
      (validateMcpPage body defaultLimit).map fun window =>
        (some (.object (Members.pop (Members.pop body "limit") "offset")), some window)
  | _, body => .ok (body, none)

def missingBody : HttpError := ⟨400, "Bad Request", "Missing required body"⟩

/-- The request that is made, and the page that is cut out of its answer. -/
def planPage (tool : ToolDefinition) (arguments : Members F) : Except HttpError (UpstreamRequest F × Option (Nat × Nat)) :=
  (tool.checkArguments arguments).bind fun _ =>
    (listWindow tool.name arguments).bind fun listed =>
      (bodyWindow tool.name arguments).bind fun (body, window) =>
        if tool.bodyRequired = true ∧ body.isNone = true then .error missingBody
        else .ok (⟨queryParams tool.name tool.queryParameters arguments, body⟩, window.or listed)

def paginate (isZero : F → Bool) (toolName : String) (limit offset : Nat) : Value F → Value F
  | .object body =>
      if toolName ∈ mcpPaginatedListTools then .object (paginateMcpList limit offset body)
      else if toolName = "queryRelatedObjectsV1" then
        .object (mapUnder "results" (paginateRelatedItem isZero limit offset) body)
      else if toolName = "queryHistoricalValuesV1" then
        .object (mapUnder "results" (paginateHistoryItem isZero limit offset) body)
      else .object body
  | body => body

/-- A call of a tool, up to the result; the endpoint is a function of the request. -/
def callPage (isZero : F → Bool) (endpoint : UpstreamRequest F → Value F) (tool : ToolDefinition)
    (arguments : Members F) : Except HttpError (Value F) :=
  (planPage tool arguments).map fun plan =>
    let body := endpoint plan.1
    compactToolBody isZero tool.name
      (match plan.2 with
      | some (limit, offset) => paginate isZero tool.name limit offset body
      | none => body)

/-! ## Requests for pages -/

def setWindow (limit offset : Nat) (members : Members F) : Members F :=
  (members.set "limit" (natural limit)).set "offset" (natural offset)

/-- The arguments of the client's next request. -/
def withPage (toolName : String) (limit offset : Nat) (arguments : Members F) : Members F :=
  if toolName ∈ mcpPaginatedListTools then setWindow limit offset arguments
  else arguments.set "body" (.object (setWindow limit offset (arguments.objectAt "body")))

namespace Members

theorem pop_cons (m : String × Value F) (ms : Members F) (name : String) :
    pop (m :: ms) name = if m.1 = name then pop ms name else m :: pop ms name := by
  unfold pop
  by_cases same : m.1 = name
  · rw [if_pos same, List.filter_cons_of_neg (by simp [same])]
  · rw [if_neg same, List.filter_cons_of_pos (by simp [same])]

theorem pop_replace (members : Members F) (name other : String) (value : Value F) :
    (members.replace name value).pop other =
      if other = name then members.pop other else (members.pop other).replace name value := by
  induction members with
  | nil =>
      split
      · rfl
      · rfl
  | cons m ms ih =>
      rw [replace_cons, pop_cons, pop_cons, ih]
      by_cases asked : other = name
      · subst asked
        by_cases same : m.1 = other
        · simp only [if_pos same, if_true]
        · simp only [if_neg same, if_true]
      · by_cases same : m.1 = name
        · simp only [if_neg asked, if_neg (Ne.symm asked), same, replace_cons, if_true]
        · by_cases gone : m.1 = other
          · simp only [if_neg asked, if_neg same, if_pos gone]
          · simp only [if_neg asked, if_neg same, if_neg gone, replace_cons]

theorem mem_keys_pop (members : Members F) {name other : String} (apart : other ≠ name) :
    name ∈ (members.pop other).map Prod.fst ↔ name ∈ members.map Prod.fst := by
  simp only [pop, List.mem_map, List.mem_filter]
  constructor
  · rintro ⟨m, ⟨inside, -⟩, same⟩
    exact ⟨m, inside, same⟩
  · rintro ⟨m, inside, same⟩
    exact ⟨m, ⟨inside, by simpa [same] using Ne.symm apart⟩, same⟩

theorem mem_keys_set (members : Members F) (name other : String) (value : Value F) :
    other ∈ (members.set name value).map Prod.fst ↔ other = name ∨ other ∈ members.map Prod.fst := by
  have kept : (members.replace name value).map Prod.fst = members.map Prod.fst := by
    rw [replace, List.map_map]
    refine List.map_congr_left fun m _ => ?_
    rw [Function.comp_apply]
    split
    · next same => exact same.symm
    · rfl
  unfold set
  split
  · next present =>
      rw [kept]
      exact ⟨.inr, fun m => m.elim (fun same => same ▸ present) id⟩
  · rw [List.map_append, List.mem_append, or_comm, List.map_singleton, List.mem_singleton]

theorem pop_append (members more : Members F) (name : String) :
    pop (members ++ more) name = members.pop name ++ more.pop name := List.filter_append _ _

theorem pop_set (members : Members F) (name : String) (value : Value F) :
    (members.set name value).pop name = members.pop name := by
  unfold set
  split
  · rw [pop_replace, if_pos rfl]
  · rw [pop_append, pop_cons, if_pos rfl]
    exact List.append_nil _

theorem pop_set_ne (members : Members F) {name other : String} (apart : other ≠ name) (value : Value F) :
    (members.set name value).pop other = (members.pop other).set name value := by
  unfold set
  by_cases present : name ∈ members.map Prod.fst
  · rw [if_pos present, if_pos ((mem_keys_pop members apart).mpr present), pop_replace, if_neg apart]
  · rw [if_neg present, if_neg fun kept => present ((mem_keys_pop members apart).mp kept), pop_append, pop_cons,
      if_neg (Ne.symm apart)]
    rfl

end Members

theorem validateMcpPage_setWindow {limit offset : Nat} (bounds : 1 ≤ limit ∧ limit ≤ 500) (members : Members F)
    (defaultLimit : Nat) : validateMcpPage (setWindow limit offset members) defaultLimit = .ok (limit, offset) := by
  have within : (1 : Int) ≤ (limit : Int) ∧ (limit : Int) ≤ 500 := by omega
  have given : (setWindow limit offset members).get "limit" = some (natural limit) := by
    rw [setWindow, Members.get_set, if_neg (by decide), Members.get_set, if_pos rfl]
  have from' : (setWindow limit offset members).get "offset" = some (natural offset) := by
    rw [setWindow, Members.get_set, if_pos rfl]
  rw [validateMcpPage, given, from']
  simp only [Option.getD_some, natural, if_pos within, Int.natCast_nonneg, if_true, Int.toNat_natCast]

theorem pop_setWindow (limit offset : Nat) (members : Members F) :
    Members.pop (Members.pop (setWindow limit offset members) "limit") "offset" =
      Members.pop (Members.pop members "limit") "offset" := by
  rw [setWindow, Members.pop_set_ne _ (by decide), Members.pop_set, Members.pop_set]

theorem getOrNull_set_ne (members : Members F) {name other : String} (apart : other ≠ name) (value : Value F) :
    (members.set name value).getOrNull other = members.getOrNull other := by
  rw [Members.getOrNull, Members.get_set, if_neg apart, Members.getOrNull]

theorem queryParams_set {toolName name : String} {parameters : List String} (arguments : Members F) (value : Value F)
    (absent : name ∉ parameters) (other : name ≠ "root") :
    queryParams toolName parameters (arguments.set name value) = queryParams toolName parameters arguments := by
  have given : ∀ asked ∈ parameters,
      (match (arguments.set name value).getOrNull asked with
      | .null => none
      | value => some (asked, value)) =
      match arguments.getOrNull asked with
      | .null => none
      | value => some (asked, value) := by
    intro asked listed
    rw [getOrNull_set_ne arguments (fun same : asked = name => absent (same ▸ listed))]
  unfold queryParams
  rw [List.filterMap_congr given, getOrNull_set_ne arguments (Ne.symm other)]

theorem requestBody_set {name : String} (arguments : Members F) (value : Value F) (other : name ≠ "body") :
    requestBody (arguments.set name value) = requestBody arguments := by
  rw [requestBody, getOrNull_set_ne arguments (Ne.symm other), requestBody]

section
variable {isZero : F → Bool} {endpoint : UpstreamRequest F → Value F} {tool : ToolDefinition} {arguments : Members F}
  {request : UpstreamRequest F} {window : Nat × Nat}

theorem queryParams_setWindow {toolName : String} {parameters : List String}
    (plain : ∀ name ∈ ["limit", "offset", "body"], name ∉ parameters) (limit offset : Nat) :
    queryParams toolName parameters (setWindow limit offset arguments) = queryParams toolName parameters arguments := by
  rw [setWindow, queryParams_set _ _ (plain _ (by decide)) (by decide),
    queryParams_set _ _ (plain _ (by decide)) (by decide)]

/-- The arguments of a call are accepted if they are all allowed and none is missing. -/
theorem ToolDefinition.checkArguments_ok_iff : tool.checkArguments arguments = .ok () ↔
    (∀ name ∈ arguments.map Prod.fst, name ∈ tool.allowedArguments) ∧
      (∀ name ∈ tool.pathParameters, name ∈ arguments.map Prod.fst) ∧
      ∀ name ∈ tool.queryParameters, name ∈ tool.required → name ∈ arguments.map Prod.fst := by
  have known : sorted ((arguments.map Prod.fst).toFinset \ tool.allowedArguments.toFinset) = [] ↔
      ∀ name ∈ arguments.map Prod.fst, name ∈ tool.allowedArguments := by
    simp only [List.eq_nil_iff_forall_not_mem, mem_sorted, Finset.mem_sdiff, List.mem_toFinset, not_and, not_not]
  have complete : tool.missingArguments (arguments.map Prod.fst) = [] ↔
      (∀ name ∈ tool.pathParameters, name ∈ arguments.map Prod.fst) ∧
        ∀ name ∈ tool.queryParameters, name ∈ tool.required → name ∈ arguments.map Prod.fst := by
    simp only [missingArguments, List.append_eq_nil_iff, List.filter_eq_nil_iff, decide_eq_true_eq, not_and, not_not]
  rw [← known, ← complete, checkArguments]
  split_ifs with unknown missed
  · exact iff_of_false nofun fun both => unknown both.1
  · exact iff_of_false nofun fun both => missed both.2
  · exact iff_of_true rfl ⟨not_not.mp unknown, not_not.mp missed⟩

/-- An allowed argument may be set. -/
theorem ToolDefinition.checkArguments_set (accepted : tool.checkArguments arguments = .ok ()) {name : String}
    (allowed : name ∈ tool.allowedArguments) (value : Value F) : tool.checkArguments (arguments.set name value) = .ok () := by
  obtain ⟨known, path, query⟩ := checkArguments_ok_iff.mp accepted
  refine checkArguments_ok_iff.mpr ⟨fun other m => ?_, fun other m => ?_, fun other m needed => ?_⟩
  · exact ((Members.mem_keys_set _ _ _ _).mp m).elim (fun same => same ▸ allowed) (known other)
  · exact (Members.mem_keys_set _ _ _ _).mpr (.inr (path other m))
  · exact (Members.mem_keys_set _ _ _ _).mpr (.inr (query other m needed))

/-- No tool has pages both ways. -/
theorem lookup_listed {toolName : String} (listed : toolName ∈ mcpPaginatedListTools) :
    mcpBodyPaginatedTools.lookup toolName = none := by
  rcases List.mem_cons.mp listed with rfl | listed
  · rfl
  rcases List.mem_cons.mp listed with rfl | listed
  · rfl
  · rw [List.mem_singleton.mp listed]
    rfl

theorem bodyWindow_ok {toolName : String} {body : Option (Value F)}
    (read : bodyWindow toolName arguments = .ok (body, some window)) :
    ∃ defaultLimit inner, mcpBodyPaginatedTools.lookup toolName = some defaultLimit ∧
      arguments.get "body" = some (.object inner) ∧
      body = some (.object (Members.pop (Members.pop inner "limit") "offset")) := by
  unfold bodyWindow at read
  split at read
  · next defaultLimit inner found posted =>
      refine ⟨defaultLimit, inner, found, ?_, ?_⟩
      · unfold requestBody Members.getOrNull at posted
        cases given : arguments.get "body" with
        | none =>
            rw [given] at posted
            cases posted
        | some value =>
            rw [given] at posted
            cases value <;> cases posted
            rfl
      · cases valid : validateMcpPage inner defaultLimit with
        | error failure =>
            rw [valid] at read
            cases read
        | ok window =>
            rw [valid] at read
            cases read
            rfl
  · cases read

/-- A call that is answered with a page: of the list that is its result, or of the lists
in its body. -/
theorem planPage_ok (accepted : planPage tool arguments = .ok (request, some window)) :
    tool.checkArguments arguments = .ok () ∧
      (tool.name ∈ mcpPaginatedListTools ∧ ¬ (tool.bodyRequired = true ∧ (requestBody arguments).isNone = true) ∧
          request = ⟨queryParams tool.name tool.queryParameters arguments, requestBody arguments⟩ ∨
        tool.name ∉ mcpPaginatedListTools ∧ ∃ defaultLimit body,
          mcpBodyPaginatedTools.lookup tool.name = some defaultLimit ∧ arguments.get "body" = some (.object body) ∧
          request = ⟨queryParams tool.name tool.queryParameters arguments,
            some (.object (Members.pop (Members.pop body "limit") "offset"))⟩) := by
  obtain ⟨_, checked, rest⟩ := bind_eq_ok.mp accepted
  obtain ⟨listed, asked, rest⟩ := bind_eq_ok.mp rest
  obtain ⟨⟨body, page⟩, read, rest⟩ := bind_eq_ok.mp rest
  refine ⟨checked, ?_⟩
  dsimp only at rest
  split_ifs at rest with missing
  rw [Except.ok.injEq, Prod.mk.injEq] at rest
  obtain ⟨rfl, windows⟩ := rest
  by_cases list : tool.name ∈ mcpPaginatedListTools
  · rw [bodyWindow, lookup_listed list] at read
    cases read
    exact .inl ⟨list, missing, rfl⟩
  · rw [listWindow, if_neg list] at asked
    cases asked
    rw [Option.or_none] at windows
    subst windows
    obtain ⟨defaultLimit, inner, found, posted, rfl⟩ := bodyWindow_ok read
    exact .inr ⟨list, defaultLimit, inner, found, posted, rfl⟩

theorem planPage_withPage (accepted : planPage tool arguments = .ok (request, some window))
    (plain : ∀ name ∈ ["limit", "offset", "body"], name ∉ tool.queryParameters) {limit offset : Nat}
    (bounds : 1 ≤ limit ∧ limit ≤ 500) :
    planPage tool (withPage tool.name limit offset arguments) = .ok (request, some (limit, offset)) := by
  obtain ⟨checked, ⟨listed, given, rfl⟩ | ⟨unlisted, defaultLimit, body, found, posted, rfl⟩⟩ := planPage_ok accepted
  · have allowed : ∀ name ∈ ["limit", "offset"], name ∈ tool.allowedArguments := by
      intro name m
      unfold ToolDefinition.allowedArguments
      rw [if_pos listed]
      exact List.mem_append_left _ (List.mem_append_right _ m)
    have kept : requestBody (setWindow limit offset arguments) = requestBody arguments := by
      rw [setWindow, requestBody_set _ _ (by decide), requestBody_set _ _ (by decide)]
    have checked' : tool.checkArguments (setWindow limit offset arguments) = .ok () :=
      ToolDefinition.checkArguments_set (ToolDefinition.checkArguments_set checked (allowed _ (by decide)) _)
        (allowed _ (by decide)) _
    rw [withPage, if_pos listed, planPage, checked', listWindow, if_pos listed, validateMcpPage_setWindow bounds,
      bodyWindow, lookup_listed listed, kept, queryParams_setWindow plain]
    simp only [Except.bind, Except.map]
    rw [if_neg given]
    rfl
  · have inside : "body" ∈ arguments.map Prod.fst := by
      have m := lookup_mem ((Members.get_eq _ _).symm.trans posted)
      exact List.mem_map.mpr ⟨_, List.mem_reverse.mp m, rfl⟩
    have inner : arguments.objectAt "body" = body := by rw [Members.objectAt, posted]
    have sent (value : Members F) : requestBody (arguments.set "body" (.object value)) = some (.object value) := by
      rw [requestBody, Members.getOrNull, Members.get_set, if_pos rfl]
      rfl
    have checked' : tool.checkArguments (arguments.set "body" (.object (setWindow limit offset body))) = .ok () :=
      ToolDefinition.checkArguments_set checked ((ToolDefinition.checkArguments_ok_iff.mp checked).1 _ inside) _
    rw [withPage, if_neg unlisted, inner, planPage, checked', listWindow, if_neg unlisted, bodyWindow, found, sent,
      queryParams_set _ _ (plain _ (by decide)) (by decide)]
    simp only [Except.bind, validateMcpPage_setWindow bounds, Except.map, pop_setWindow]
    exact if_neg fun both => Bool.false_ne_true both.2

theorem callPage_withPage (accepted : planPage tool arguments = .ok (request, some window))
    (plain : ∀ name ∈ ["limit", "offset", "body"], name ∉ tool.queryParameters) {limit offset : Nat}
    (bounds : 1 ≤ limit ∧ limit ≤ 500) :
    callPage isZero endpoint tool (withPage tool.name limit offset arguments) =
      .ok (compactToolBody isZero tool.name (paginate isZero tool.name limit offset (endpoint request))) := by
  rw [callPage, planPage_withPage accepted plain bounds]
  rfl

end

/-! ## Series -/

/-- The components below a result, from the outermost inwards. -/
def componentPath (names : List String) : List JsonStep :=
  names.flatMap fun name => [.key "components", .key name]

/-- Where a body holds a list that is sent page by page, and under which name. -/
inductive Series (isZero : F → Bool) (body : Value F) : String → List JsonStep → String → Prop where
  | listed {toolName : String} (tool : toolName ∈ mcpPaginatedListTools) : Series isZero body toolName [] "result"
  | related (i : Nat) (item : Members F) (found : follow body [.key "results", .index i] = some (.object item))
      (success : truthy isZero (item.getOrNull "success") = true) :
      Series isZero body "queryRelatedObjectsV1" [.key "results", .index i] "result"
  | historical (i : Nat) (item : Members F) (names : List String)
      (found : follow body [.key "results", .index i] = some (.object item))
      (success : truthy isZero (item.getOrNull "success") = true) :
      Series isZero body "queryHistoricalValuesV1"
        (.key "results" :: .index i :: .key "result" :: componentPath names) "values"

/-- What a page has under a name, and where it says that the next one begins. -/
def itemsAt (path : List JsonStep) (name : String) (page : Value F) : List (Value F) :=
  match follow page (path ++ [.key name]) with
  | some (.array items) => items
  | _ => []

def nextAt (path : List JsonStep) (page : Value F) : Option Nat :=
  match follow page (path ++ [.key "pagination", .key "nextOffset"]) with
  | some (.number (.integer next)) => some next.toNat
  | _ => none

/-- At a place, the one value has a list of items and the other one a page of them. -/
structure Cut (limit offset : Nat) (path : List JsonStep) (name : String) (whole page : Value F)
    (items : List (Value F)) : Prop where
  all : follow whole (path ++ [.key name]) = some (.array items)
  some' : follow page (path ++ [.key name]) = some (.array ((items.drop offset).take limit))
  beside : follow page (path ++ [.key "pagination"]) =
    some (pagination items.length offset ((items.drop offset).take limit).length)

theorem follow_append (v : Value F) (path further : List JsonStep) :
    follow v (path ++ further) = (follow v path).bind fun inner => follow inner further := by
  induction path generalizing v with
  | nil => rfl
  | cons step path ih =>
      cases step with
      | key name =>
          simp only [List.cons_append, follow, Option.bind_assoc]
          exact Option.bind_congr fun inner _ => ih inner
      | index i =>
          cases v with
          | array items =>
              simp only [List.cons_append, follow, Option.bind_assoc]
              exact Option.bind_congr fun inner _ => ih inner
          | _ => rfl

theorem follow_key (members : Members F) (name : String) : follow (.object members) [.key name] = members.get name :=
  Option.bind_fun_some _

theorem get_setPage (members : Members F) (name other : String) (limit offset : Nat) (items : List (Value F)) :
    (setPage name limit offset items members).get other =
      if other = "pagination" then some (pagination items.length offset ((items.drop offset).take limit).length)
      else if other = name then some (.array ((items.drop offset).take limit)) else members.get other := by
  rw [setPage, Members.get_set, Members.get_set]

theorem mapUnder_eq {name : String} {body : Members F} {items : List (Value F)}
    (found : body.get name = some (.array items)) (project : Value F → Value F) :
    mapUnder name project body = body.set name (.array (items.map project)) := by
  rw [mapUnder, found]

/-- An item of the list is mapped where it stands. -/
theorem follow_mapUnder {name : String} {body : Members F} {i : Nat} {item : Value F}
    (found : follow (.object body) [.key name, .index i] = some item) (project : Value F → Value F) :
    follow (.object (mapUnder name project body)) [.key name, .index i] = some (project item) := by
  obtain ⟨listed, there, further⟩ := Option.bind_eq_some_iff.mp found
  cases listed with
  | array items =>
      obtain ⟨inner, inside, same⟩ := Option.bind_eq_some_iff.mp further
      cases same
      rw [mapUnder_eq there]
      refine Option.bind_eq_some_iff.mpr ⟨.array (items.map project),
        (Members.get_set _ _ _ _).trans (if_pos rfl), ?_⟩
      refine Option.bind_eq_some_iff.mpr ⟨project item, ?_, rfl⟩
      rw [List.getElem?_map, inside, Option.map_some]
  | _ => cases further

/-- A place in an item is a place in the body. -/
theorem Cut.under {limit offset : Nat} {path : List JsonStep} {name : String} {items : List (Value F)}
    {whole page item cut : Value F} (cutting : Cut limit offset path name item cut items) (ahead : List JsonStep)
    (there : follow whole ahead = some item) (paged : follow page ahead = some cut) :
    Cut limit offset (ahead ++ path) name whole page items := by
  refine ⟨?_, ?_, ?_⟩
  · rw [List.append_assoc, follow_append, there]
    exact cutting.all
  · rw [List.append_assoc, follow_append, paged]
    exact cutting.some'
  · rw [List.append_assoc, follow_append, paged]
    exact cutting.beside

/-! ### Lists -/

section
variable {isZero : F → Bool} {limit offset : Nat}

theorem compactToolMembers_listed (isZero : F → Bool) {toolName : String}
    (listed : toolName ∈ mcpPaginatedListTools) :
    ∃ project, compactToolMembers isZero toolName = mapUnder "result" project := by
  rcases List.mem_cons.mp listed with rfl | listed
  · exact ⟨compactObject, rfl⟩
  rcases List.mem_cons.mp listed with rfl | listed
  · exact ⟨compactObjectType, rfl⟩
  · rw [List.mem_singleton.mp listed]
    exact ⟨compactObject, rfl⟩

theorem cut_listed {toolName : String} (listed : toolName ∈ mcpPaginatedListTools) {body : Members F}
    {items : List (Value F)} (found : body.get "result" = some (.array items)) :
    ∃ sent, Cut limit offset [] "result" (compactToolBody isZero toolName (.object body))
      (compactToolBody isZero toolName (paginate isZero toolName limit offset (.object body))) sent := by
  obtain ⟨project, compacts⟩ := compactToolMembers_listed isZero listed
  have paged : (setPage "result" limit offset items body).get "result" =
      some (.array ((items.drop offset).take limit)) := by
    rw [get_setPage, if_neg (by decide), if_pos rfl]
  simp only [paginate, if_pos listed, paginateMcpList, found, compactToolBody, compacts, mapUnder_eq found,
    mapUnder_eq paged]
  refine ⟨items.map project, ?_, ?_, ?_⟩
  · rw [List.nil_append, follow_key, Members.get_set, if_pos rfl]
  · rw [List.nil_append, follow_key, Members.get_set, if_pos rfl, ← List.map_drop, ← List.map_take]
  · rw [List.nil_append, follow_key, Members.get_set, if_neg (by decide), get_setPage, if_pos rfl, ← List.map_drop,
      ← List.map_take, List.length_map, List.length_map]

/-! ### Related objects -/

theorem cut_related (limit offset : Nat) {item : Members F} {related : List (Value F)}
    (success : truthy isZero (item.getOrNull "success") = true) (found : item.get "result" = some (.array related)) :
    ∃ sent, Cut limit offset [] "result" (compactItem isZero compactRelated (.object item))
      (compactItem isZero compactRelated (paginateRelatedItem isZero limit offset (.object item))) sent := by
  have kept : truthy isZero (Members.getOrNull (setPage "result" limit offset related item) "success") = true := by
    rw [Members.getOrNull, get_setPage, if_neg (by decide), if_neg (by decide)]
    exact success
  have paged : (setPage "result" limit offset related item).get "result" =
      some (.array ((related.drop offset).take limit)) := by
    rw [get_setPage, if_neg (by decide), if_pos rfl]
  simp only [paginateRelatedItem, found, success, if_true, compactItem, paged, kept, compactRelated]
  refine ⟨related.map compactRelatedItem, ?_, ?_, ?_⟩
  · rw [List.nil_append, follow_key, Members.get_set, if_pos rfl]
  · rw [List.nil_append, follow_key, Members.get_set, if_pos rfl, ← List.map_drop, ← List.map_take]
  · rw [List.nil_append, follow_key, Members.get_set, if_neg (by decide), get_setPage, if_pos rfl, ← List.map_drop,
      ← List.map_take, List.length_map, List.length_map]

/-! ### Historical values -/

theorem paginateHistoryResult_object (limit offset : Nat) (result : Members F) :
    paginateHistoryResult limit offset (.object result) = .object
      (match result.get "components" with
      | some (.object components) =>
          (paginateHistoryValues limit offset result).set "components"
            (.object (components.map fun m => (m.1, paginateHistoryResult limit offset m.2)))
      | _ => paginateHistoryValues limit offset result) := by
  rw [paginateHistoryResult]
  split
  · rename_i components found
    rw [found]
    dsimp only
    rw [List.attach_map_val (f := fun m : String × Value F => (m.1, paginateHistoryResult limit offset m.2))]
  · rename_i other
    split
    · rename_i components found
      exact absurd found (other components)
    · rfl

theorem get_map (members : Members F) (project : Value F → Value F) (name : String) :
    Members.get (members.map fun m => (m.1, project m.2)) name = (members.get name).map project := by
  rw [Members.get_eq, Members.get_eq, ← List.map_reverse]
  induction members.reverse with
  | nil => rfl
  | cons m ms ih =>
      rw [List.map_cons, lookup_cons_ite, lookup_cons_ite, ih]
      split
      · rfl
      · rfl

theorem get_historyResult (result : Members F) {name : String} (other : name ≠ "components") :
    Members.get
      (match result.get "components" with
      | some (.object components) =>
          (paginateHistoryValues limit offset result).set "components"
            (.object (components.map fun m => (m.1, paginateHistoryResult limit offset m.2)))
      | _ => paginateHistoryValues limit offset result) name =
      (paginateHistoryValues limit offset result).get name := by
  split
  · rw [Members.get_set, if_neg other]
  · rfl

/-- The series of a result, and those of its components at any depth, are cut alike. -/
theorem cut_historyResult (names : List String) {v : Value F} {items : List (Value F)}
    (found : follow v (componentPath names ++ [.key "values"]) = some (.array items)) :
    Cut limit offset (componentPath names) "values" v (paginateHistoryResult limit offset v) items := by
  induction names generalizing v with
  | nil =>
      cases v with
      | object result =>
          have values : Members.get result "values" = some (.array items) := (follow_key _ _).symm.trans found
          rw [paginateHistoryResult_object]
          refine ⟨found, ?_, ?_⟩
          · refine (follow_key _ _).trans ?_
            rw [get_historyResult _ (by decide), paginateHistoryValues, values]
            exact (get_setPage _ _ _ _ _ _).trans ((if_neg (by decide)).trans (if_pos rfl))
          · refine (follow_key _ _).trans ?_
            rw [get_historyResult _ (by decide), paginateHistoryValues, values]
            exact (get_setPage _ _ _ _ _ _).trans (if_pos rfl)
      | _ => cases found
  | cons name names ih =>
      have split : componentPath (name :: names) = [.key "components", .key name] ++ componentPath names := rfl
      cases v with
      | object result =>
          obtain ⟨listed, there, further⟩ := Option.bind_eq_some_iff.mp found
          cases listed with
          | object components =>
              obtain ⟨inner, below, rest⟩ := Option.bind_eq_some_iff.mp further
              rw [split, paginateHistoryResult_object]
              refine (ih rest).under _ ?_ ?_
              · exact Option.bind_eq_some_iff.mpr ⟨_, there, Option.bind_eq_some_iff.mpr ⟨inner, below, rfl⟩⟩
              · have present : Members.get result "components" = some (.object components) := there
                rw [present]
                refine Option.bind_eq_some_iff.mpr ⟨_, (Members.get_set _ _ _ _).trans (if_pos rfl),
                  Option.bind_eq_some_iff.mpr ⟨paginateHistoryResult limit offset inner, ?_, rfl⟩⟩
                refine (get_map components _ name).trans ?_
                rw [show Members.get components name = some inner from below, Option.map_some]
          | _ => cases further
      | _ => cases found

/-- What is left out of historical values is never on the way to a series. -/
theorem follow_compactValues {v inner : Value F} {name : String} {path : List JsonStep}
    (other : name ≠ "isComposition") (solid : name = "components" → path ≠ [])
    (found : follow v (.key name :: path) = some inner) :
    follow (compactValues v) (.key name :: path) = some inner := by
  cases v with
  | object result =>
      obtain ⟨value, there, further⟩ := Option.bind_eq_some_iff.mp found
      have present : Members.get result name = some value := there
      refine Option.bind_eq_some_iff.mpr ⟨value, (get_leaveOut leftOutOfValues result name).trans ?_, further⟩
      rw [Members.getOrNull, present, Option.getD_some]
      cases value with
      | null =>
          have last : path = [] := by
            cases path with
            | nil => rfl
            | cons step path => cases step <;> cases further
          rw [if_pos]
          simpa [leftOutOfValues, isNull] using ⟨other, fun same => solid same last⟩
      | _ =>
          rw [if_pos]
          simpa [leftOutOfValues, isNull] using other
  | _ => cases found

theorem Cut.compactValues {names : List String} {v w : Value F} {items : List (Value F)}
    (cutting : Cut limit offset (componentPath names) "values" v w items) :
    Cut limit offset (componentPath names) "values" (compactValues v) (compactValues w) items := by
  cases names with
  | nil =>
      exact ⟨follow_compactValues (by decide) (fun same => absurd same (by decide)) cutting.all,
        follow_compactValues (by decide) (fun same => absurd same (by decide)) cutting.some',
        follow_compactValues (by decide) (fun same => absurd same (by decide)) cutting.beside⟩
  | cons name names =>
      exact ⟨follow_compactValues (by decide) (fun _ => List.cons_ne_nil _ _) cutting.all,
        follow_compactValues (by decide) (fun _ => List.cons_ne_nil _ _) cutting.some',
        follow_compactValues (by decide) (fun _ => List.cons_ne_nil _ _) cutting.beside⟩

theorem cut_historical (limit offset : Nat) {item : Members F} {names : List String} {items : List (Value F)}
    (success : truthy isZero (item.getOrNull "success") = true)
    (found : follow (.object item) (.key "result" :: componentPath names ++ [.key "values"]) = some (.array items)) :
    Cut limit offset (.key "result" :: componentPath names) "values"
      (compactItem isZero compactValues (.object item))
      (compactItem isZero compactValues (paginateHistoryItem isZero limit offset (.object item))) items := by
  obtain ⟨result, there, further⟩ := Option.bind_eq_some_iff.mp found
  have present : item.get "result" = some result := there
  cases result with
  | object result =>
      have kept : truthy isZero (Members.getOrNull
          (item.set "result" (paginateHistoryResult limit offset (.object result))) "success") = true := by
        rw [getOrNull_set_ne _ (by decide)]
        exact success
      have assigned : (item.set "result" (paginateHistoryResult limit offset (.object result))).get "result" =
          some (paginateHistoryResult limit offset (.object result)) := (Members.get_set _ _ _ _).trans (if_pos rfl)
      simp only [paginateHistoryItem, present, success, if_true, compactItem, assigned, kept]
      refine (cut_historyResult names further).compactValues.under [.key "result"] ?_ ?_
      · exact (follow_key _ _).trans ((Members.get_set _ _ _ _).trans (if_pos rfl))
      · exact (follow_key _ _).trans ((Members.get_set _ _ _ _).trans (if_pos rfl))
  | _ =>
      cases names with
      | nil => cases further
      | cons name names => cases further

end

/-! ## All pages -/

section
variable {isZero : F → Bool} {toolName name : String} {body : Value F} {path : List JsonStep} {items : List (Value F)}

/-- A page is cut at each series, wherever it is in the body. -/
theorem cut_page (series : Series isZero body toolName path name)
    (found : follow body (path ++ [.key name]) = some (.array items)) (limit offset : Nat) :
    ∃ sent, Cut limit offset path name (compactToolBody isZero toolName body)
      (compactToolBody isZero toolName (paginate isZero toolName limit offset body)) sent := by
  cases body with
  | object members =>
      cases series with
      | listed tool => exact cut_listed tool ((follow_key _ _).symm.trans found)
      | related i item there success =>
          rw [follow_append, there] at found
          obtain ⟨sent, cutting⟩ := cut_related limit offset success
            ((follow_key _ _).symm.trans found)
          exact ⟨sent, cutting.under _ (follow_mapUnder there _) (follow_mapUnder (follow_mapUnder there _) _)⟩
      | historical i item names there success =>
          have inner : follow (.object item) (.key "result" :: componentPath names ++ [.key "values"]) =
              some (.array items) := by
            have split : (.key "results" :: .index i :: .key "result" :: componentPath names) ++ [.key "values"] =
              [.key "results", .index i] ++ (.key "result" :: componentPath names ++ [.key "values"]) := rfl
            rw [split, follow_append, there] at found
            exact found
          exact ⟨items, (cut_historical limit offset success inner).under _
            (follow_mapUnder there _) (follow_mapUnder (follow_mapUnder there _) _)⟩
  | _ =>
      cases series with
      | listed tool => cases found
      | related i item there success => cases there
      | historical i item names there success => cases there

theorem declaresFailure_congr {item other : Members F} (same : item.get "success" = other.get "success") :
    declaresFailure (.object item) = declaresFailure (.object other) := by
  simp only [declaresFailure, same]

theorem paginateRelatedItem_declares (limit offset : Nat) (v : Value F) :
    declaresFailure (paginateRelatedItem isZero limit offset v) = declaresFailure v := by
  cases v with
  | object item =>
      dsimp only [paginateRelatedItem]
      split
      · split
        · refine declaresFailure_congr ?_
          rw [get_setPage, if_neg (by decide), if_neg (by decide)]
        · rfl
      · rfl
  | _ => rfl

theorem paginateHistoryItem_declares (limit offset : Nat) (v : Value F) :
    declaresFailure (paginateHistoryItem isZero limit offset v) = declaresFailure v := by
  cases v with
  | object item =>
      dsimp only [paginateHistoryItem]
      split
      · split
        · exact declaresFailure_congr ((Members.get_set _ _ _ _).trans (if_neg (by decide)))
        · rfl
      · rfl
  | _ => rfl

theorem get_paginateMcpList {limit offset : Nat} (members : Members F) {other : String}
    (beside : other ≠ "pagination") (apart : other ≠ "result") :
    (paginateMcpList limit offset members).get other = members.get other := by
  unfold paginateMcpList
  split
  · rw [get_setPage, if_neg beside, if_neg apart]
  · rfl

/-- A page reports a failure exactly if the whole body does. -/
theorem paginate_failed (isZero : F → Bool) (toolName : String) (limit offset : Nat) (statusCode : Int)
    (body : Value F) :
    bodyFailed statusCode (paginate isZero toolName limit offset body) = bodyFailed statusCode body := by
  cases body with
  | object members =>
      dsimp only [paginate]
      split_ifs
      · simp only [bodyFailed, declaresFailure, anyItemFailed]
        rw [get_paginateMcpList _ (by decide) (by decide), get_paginateMcpList _ (by decide) (by decide)]
      · simp only [bodyFailed, declaresFailure]
        rw [get_mapUnder_ne (by decide), anyItemFailed_mapUnder fun _ => paginateRelatedItem_declares limit offset]
      · simp only [bodyFailed, declaresFailure]
        rw [get_mapUnder_ne (by decide), anyItemFailed_mapUnder fun _ => paginateHistoryItem_declares limit offset]
      · rfl
  | _ => rfl

theorem get_pagination (total offset returned : Nat) :
    (pagination (F := F) total offset returned).get "nextOffset" = (nextOffset total offset returned).map natural := by
  unfold pagination
  cases nextOffset total offset returned with
  | none => rfl
  | some next => rfl

theorem Cut.next {whole page : Value F} {limit offset : Nat} (cutting : Cut limit offset path name whole page items) :
    nextAt path page = nextOffset items.length offset ((items.drop offset).take limit).length := by
  have read : follow page (path ++ [.key "pagination", .key "nextOffset"]) =
      (nextOffset items.length offset ((items.drop offset).take limit).length).map natural := by
    rw [show path ++ [.key "pagination", .key "nextOffset"] =
      path ++ [.key "pagination"] ++ [.key "nextOffset"] by simp, follow_append, cutting.beside, Option.bind_some]
    exact (Option.bind_fun_some _).trans (get_pagination _ _ _)
  rw [nextAt, read]
  cases nextOffset items.length offset ((items.drop offset).take limit).length with
  | none => rfl
  | some next => rfl

end

/-- What a page that was received has under a name; an error has nothing. -/
def receivedItems (path : List JsonStep) (name : String) : Except HttpError (Value F) → List (Value F)
  | .ok page => itemsAt path name page
  | .error _ => []

def receivedNext (path : List JsonStep) : Except HttpError (Value F) → Option Nat
  | .ok page => nextAt path page
  | .error _ => none

/-- A client that repeats an accepted call at the offset named beside a series, until none
is named, receives just what the series holds in the whole body once it is compacted, in
order, whatever sizes it asks for. Its calls are accepted, each makes the same request, and
every page reports a failure if the whole body does. -/
theorem pages_tile (isZero : F → Bool) (endpoint : UpstreamRequest F → Value F) {tool : ToolDefinition} {name : String}
    {arguments : Members F} {request : UpstreamRequest F} {window : Nat × Nat}
    (accepted : planPage tool arguments = .ok (request, some window))
    (plain : ∀ name ∈ ["limit", "offset", "body"], name ∉ tool.queryParameters) {path : List JsonStep}
    (series : Series isZero (endpoint request) tool.name path name) {items : List (Value F)}
    (found : follow (endpoint request) (path ++ [.key name]) = some (.array items)) {limit : Nat → Nat}
    (bounds : ∀ round, 1 ≤ limit round ∧ limit round ≤ 500) {fuel : Nat} (enough : items.length < fuel)
    (statusCode : Int) :
    (∀ round offset, planPage tool (withPage tool.name (limit round) offset arguments) =
      .ok (request, some (limit round, offset))) ∧
    ∃ pages, followPages (fun round offset => callPage isZero endpoint tool
        (withPage tool.name (limit round) offset arguments)) (receivedNext path) fuel 0 0 = some pages ∧
      follow (compactToolBody isZero tool.name (endpoint request)) (path ++ [.key name]) =
        some (.array (pages.flatMap (receivedItems path name))) ∧
      ∀ page ∈ pages, ∃ body, page = .ok body ∧
        bodyFailed statusCode body = bodyFailed statusCode (endpoint request) := by
  refine ⟨fun round _ => planPage_withPage accepted plain (bounds round), ?_⟩
  have called (round offset : Nat) : callPage isZero endpoint tool
      (withPage tool.name (limit round) offset arguments) =
        .ok (compactToolBody isZero tool.name (paginate isZero tool.name (limit round) offset (endpoint request))) :=
    callPage_withPage accepted plain (bounds round)
  obtain ⟨sent, first⟩ := cut_page series found 1 0
  have cutting (limit offset : Nat) : Cut limit offset path name (compactToolBody isZero tool.name (endpoint request))
      (compactToolBody isZero tool.name (paginate isZero tool.name limit offset (endpoint request))) sent := by
    obtain ⟨other, cutting⟩ := cut_page series found limit offset
    have same := cutting.all.symm.trans first.all
    cases same
    exact cutting
  have received (round offset : Nat) : receivedItems path name (callPage isZero endpoint tool
      (withPage tool.name (limit round) offset arguments)) = (sent.drop offset).take (limit round) := by
    rw [called, receivedItems, itemsAt, (cutting (limit round) offset).some']
  have linked (round offset : Nat) : receivedNext path (callPage isZero endpoint tool
      (withPage tool.name (limit round) offset arguments)) =
        nextOffset sent.length offset ((sent.drop offset).take (limit round)).length := by
    rw [called]
    exact (cutting (limit round) offset).next
  have size : sent.length = items.length := by
    obtain ⟨u, read, same⟩ := compactToolBody_trims isZero tool.name (endpoint request) _ _ first.all
    cases Option.some.inj (read.symm.trans found)
    exact same
  obtain ⟨pages, followed, tiled⟩ := followPages_tile (fun round => (bounds round).1) received linked 0
    (show sent.length - 0 < fuel by omega)
  refine ⟨pages, followed, ?_, fun page inside => ?_⟩
  · rw [tiled]
    exact first.all
  · obtain ⟨round, offset, rfl⟩ := mem_followPages followed inside
    refine ⟨_, called round offset, ?_⟩
    rw [compactToolBody_failed, paginate_failed]

/-- A plant whose pump has three values. -/
def plantHistory : Value Unit :=
  .object [("success", .bool true), ("results", .array [.object [("elementId", .string "plant"),
    ("success", .bool true), ("result", .object [("isComposition", .bool true), ("values", .array []),
      ("components", .object [("pump", .object [("values", .array [natural 1, natural 2, natural 3])])])])]])]

def historyTool : ToolDefinition where
  name := "queryHistoricalValuesV1"
  pathParameters := []
  queryParameters := []
  bodyRequired := true
  properties := ["body"]
  required := ["body"]

def plantArguments : Members Unit := [("body", .object [("elementIds", .array [.string "plant"])])]

def pumpPath : List JsonStep := .key "results" :: .index 0 :: .key "result" :: componentPath ["pump"]

theorem pages_tile_pump : ∃ pages, followPages
      (fun round offset => callPage (fun _ => false) (fun _ => plantHistory) historyTool
        (withPage historyTool.name (if round = 0 then 1 else 2) offset plantArguments))
      (receivedNext pumpPath) 4 0 0 = some pages ∧
    pages.flatMap (receivedItems pumpPath "values") = [natural 1, natural 2, natural 3] := by
  have bounds (round : Nat) : 1 ≤ (if round = 0 then 1 else 2) ∧ (if round = 0 then 1 else 2) ≤ 500 := by
    split_ifs <;> decide
  have accepted : planPage historyTool plantArguments =
    .ok (⟨[], some (.object [("elementIds", .array [.string "plant"])])⟩, some (100, 0)) := rfl
  have found : follow plantHistory (pumpPath ++ [.key "values"]) =
    some (.array [natural 1, natural 2, natural 3]) := rfl
  obtain ⟨-, pages, followed, tiled, -⟩ := pages_tile (fun _ => false) (fun _ => plantHistory) accepted
    (fun _ _ => List.not_mem_nil) (.historical 0 _ ["pump"] rfl rfl) found bounds (show 3 < 4 by decide) 200
  exact ⟨pages, followed, (JsonValue.array.inj (Option.some.inj tiled)).symm⟩

end I3x.Mcp

import I3xServer.Api.ValueComponents
import I3xServer.Container.BoundedSearch
import I3xServer.Mcp.ModelIndex
import I3xServer.OpcUa.BrowseTree

/-!
# The values below a container

The tool lists the properties below a container page by page. Each page searches the
children of the container again and asks the value endpoint for its own properties,
ten at a time.
-/
namespace I3x
open Container

namespace Mcp
variable {N D : Type}

/-! ## JSON bodies -/

/-- A JSON value. Of its numbers nothing is asked. -/
inductive JsonValue (N : Type) where
  | null
  | bool (value : Bool)
  | number (value : N)
  | string (text : String)
  | array (items : List (JsonValue N))
  | object (members : List (String × JsonValue N))

namespace JsonValue

/-- What an object has under a name; the last of several members of one name counts. -/
def get : JsonValue N → String → Option (JsonValue N)
  | .object members, name => members.reverse.lookup name
  | _, _ => none

def elementId (result : JsonValue N) : Option String :=
  match result.get "elementId" with
  | some (.string id) => some id
  | _ => none

end JsonValue

/-- A response of an endpoint; the body is absent where it is not valid JSON. -/
structure InternalResponse (N : Type) where
  statusCode : Nat
  body : Option (JsonValue N)

/-! ## The value endpoint -/

structure Vqt (N : Type) where
  value : JsonValue N
  quality : String
  timestamp : String

/-- What the value endpoint finds when it answers a request. A failed read is absent. -/
structure ValueEndpoint (N D : Type) where
  findModelNode : String → Option PublishedNode
  isComposition : PublishedNode → Bool
  readDataValues : List String → Option (List D)
  vqtFromDataValue : D → Vqt N
  goodNoData : Vqt N
  numeral : Nat → N

namespace ValueEndpoint
variable (endpoint : ValueEndpoint N D)

def responseDetail (title : String) (status : Nat) (detail : String) : JsonValue N :=
  .object [("title", .string title), ("status", .number (endpoint.numeral status)), ("detail", .string detail)]

def errorDetail (code : Nat) (message : String) : JsonValue N :=
  .object [("code", .number (endpoint.numeral code)), ("message", .string message)]

def readFailed : InternalResponse N where
  statusCode := 502
  body := some (.object [("success", .bool false), ("error", endpoint.errorDetail 502 "Failed to read values"),
    ("responseDetail", endpoint.responseDetail "Bad Gateway" 502 "Failed to read values")])

/-- The nodes whose values are read: at a depth of one no components are collected. -/
def nodeIds (elementIds : List String) : List String :=
  ((elementIds.filterMap endpoint.findModelNode).filter fun node => node.kind = .property).map fun node =>
    node.sourceNodeId

def rootVqt (values : Dict String D) (node : PublishedNode) : Vqt N :=
  match values.get? node.sourceNodeId with
  | some dataValue => endpoint.vqtFromDataValue dataValue
  | none => endpoint.goodNoData

def currentValue (values : Dict String D) (node : PublishedNode) : JsonValue N :=
  let vqt := endpoint.rootVqt values node
  .object [("isComposition", .bool (endpoint.isComposition node)), ("value", vqt.value),
    ("quality", .string vqt.quality), ("timestamp", .string vqt.timestamp), ("components", .null)]

/-- One item of the bulk response. -/
def bulkItem (values : Dict String D) (elementId : String) : JsonValue N :=
  match endpoint.findModelNode elementId with
  | none =>
      let message := "Element not found: " ++ elementId
      .object [("success", .bool false), ("elementId", .string elementId), ("subscriptionId", .null),
        ("result", .null), ("error", endpoint.errorDetail 404 message),
        ("responseDetail", endpoint.responseDetail "Not Found" 404 message)]
  | some node =>
      .object [("success", .bool true), ("elementId", .string elementId), ("subscriptionId", .null),
        ("result", endpoint.currentValue values node), ("error", .null), ("responseDetail", .null)]

/-- `query_last_known_values_v1` at a depth of one. -/
def queryLastKnownValues (elementIds : List String) : InternalResponse N :=
  let nodeIds := endpoint.nodeIds elementIds
  match if nodeIds = [] then some [] else endpoint.readDataValues nodeIds with
  | none => endpoint.readFailed
  | some dataValues =>
      let values : Dict String D := Dict.ofList (nodeIds.zip dataValues)
      ⟨200, some (.object [
        ("success", .bool (elementIds.all fun elementId => (endpoint.findModelNode elementId).isSome)),
        ("results", .array (elementIds.map (endpoint.bulkItem values)))])⟩

end ValueEndpoint

/-! ## The search -/

def maxNodes : Nat := 5000

def maxDepth : Nat := 32

def batchSize : Nat := 10

def tooManyNodes : HttpError := ⟨413, "Content Too Large", "Container subtree exceeds 5000 nodes"⟩

def tooDeep : HttpError := ⟨413, "Content Too Large", "Container subtree exceeds depth 32"⟩

/-- The search of `_invoke_container_values`, with the top of the stack in front. -/
def containerProperties (model : PublishedModel) (pending : List (String × Nat)) (visited : List String)
    (properties : List PublishedNode) : Except HttpError (List PublishedNode) :=
  match pending with
  | [] => .ok properties
  | (elementId, depth) :: pending =>
      if elementId ∈ visited then containerProperties model pending visited properties
      else if maxNodes < visited.length + 1 then .error tooManyNodes
      else if maxDepth < depth then .error tooDeep
      else
        match model.nodesById.get? elementId with
        | none => containerProperties model pending (visited ++ [elementId]) properties
        | some node =>
            if node.kind = .property then
              containerProperties model pending (visited ++ [elementId]) (properties ++ [node])
            else
              let children := (model.childrenById.bucket elementId).map fun childId => (childId, depth + 1)
              containerProperties model (children ++ pending) (visited ++ [elementId]) properties
termination_by (maxNodes - visited.length, pending.length)
decreasing_by
  · exact Prod.Lex.right _ (Nat.lt_succ_self _)
  all_goals
    refine Prod.Lex.left _ _ ?_
    simp only [List.length_append, List.length_singleton]
    omega

/-! ## Pages -/

/-- An item of a page, with the keys it may lack. -/
structure ContainerItem (N : Type) where
  id : String
  name : String
  success : Bool
  value : Option (JsonValue N)
  error : Option (JsonValue N)
  responseDetail : Option (JsonValue N)

structure ContainerPage (N : Type) where
  success : Bool
  containerId : String
  total : Nat
  returned : Nat
  offset : Nat
  items : List (ContainerItem N)
  nextOffset : Option Nat

/-- The answer to a request: an error, a failed response of the value endpoint, or a page. -/
inductive ContainerAnswer (N : Type) where
  | refused (failure : HttpError)
  | forwarded (response : InternalResponse N)
  | page (page : ContainerPage N)

namespace ContainerAnswer

def items : ContainerAnswer N → List (ContainerItem N)
  | .page answer => answer.items
  | _ => []

def nextOffset : ContainerAnswer N → Option Nat
  | .page answer => answer.nextOffset
  | _ => none

end ContainerAnswer

def keepResult (values : Dict String (JsonValue N)) (result : JsonValue N) : Dict String (JsonValue N) :=
  match result.elementId with
  | some id => values.set id result
  | none => values

/-- The results for the batches from a number on. The endpoint is asked for one batch
after the other, and may answer each as it likes. -/
def readBatches (endpoint : Nat → List String → InternalResponse N) :
    Nat → List (List String) → Dict String (JsonValue N) → Except (ContainerAnswer N) (Dict String (JsonValue N))
  | _, [], values => .ok values
  | number, batch :: batches, values =>
      let response := endpoint number batch
      if 400 ≤ response.statusCode then .error (.forwarded response)
      else
        match response.body with
        | none => .error (.refused ⟨502, "Bad Gateway", "Value endpoint returned invalid JSON"⟩)
        | some body =>
            match body.get "results" with
            | some (.array results) => readBatches endpoint (number + 1) batches (results.foldl keepResult values)
            | _ => .error (.refused ⟨502, "Bad Gateway", "Value endpoint returned an invalid result"⟩)

/-- `{key: vqt[key] for key in ("value", "quality", "timestamp") if key in vqt}`. -/
def compactVqt : JsonValue N → JsonValue N
  | .object members => .object (["value", "quality", "timestamp"].filterMap fun key =>
      ((JsonValue.object members).get key).map fun value => (key, value))
  | vqt => vqt

def containerItem (node : PublishedNode) : Option (JsonValue N) → ContainerItem N
  | none => ⟨node.id, node.name, false, none,
      some (.object [("message", .string "Value endpoint returned no result for this property")]), none⟩
  | some result =>
      match result.get "success" with
      | some (.bool true) =>
          ⟨node.id, node.name, true, some (compactVqt ((result.get "result").getD .null)), none, none⟩
      | _ => ⟨node.id, node.name, false, none, some ((result.get "error").getD .null),
          some ((result.get "responseDetail").getD .null)⟩

/-- `_invoke_container_values`. -/
def invokeContainerValues (unicode : Unicode) (model : PublishedModel)
    (endpoint : Nat → List String → InternalResponse N) (containerId : String) (limit offset : Int) :
    ContainerAnswer N :=
  if unicode.strip containerId = "" then .refused ⟨400, "Bad Request", "containerId must not be empty"⟩
  else if ¬ (1 ≤ limit ∧ limit ≤ 50) then .refused ⟨400, "Bad Request", "limit must be an integer from 1 to 50"⟩
  else if offset < 0 then .refused ⟨400, "Bad Request", "offset must be a non-negative integer"⟩
  else
    match model.nodesById.get? containerId with
    | none => .refused ⟨404, "Not Found", "Container not found: " ++ containerId⟩
    | some container =>
        if container.kind = .property then
          .refused ⟨400, "Bad Request", "containerId must identify an object, not a property"⟩
        else
          match containerProperties model [(containerId, 0)] [] [] with
          | .error failure => .refused failure
          | .ok properties =>
              let page := (properties.drop offset.toNat).take limit.toNat
              let batches := OpcUa.chunkedNodes (page.map fun node => node.id) batchSize
              match readBatches endpoint 0 batches .empty with
              | .error answer => answer
              | .ok values =>
                  let items := page.map fun node => containerItem node (values.get? node.id)
                  .page ⟨items.all fun item => item.success, containerId, properties.length, items.length,
                    offset.toNat, items, Container.nextOffset properties.length offset.toNat page.length⟩

/-! ## What the search lists -/

variable (model : PublishedModel)

/-- An element of the model leads to its children, unless it is a property. -/
def ListsChild (id child : String) : Prop :=
  ∃ node, model.nodesById.get? id = some node ∧ node.kind ≠ .property ∧ child ∈ model.childrenById.bucket id

/-- The properties that a container leads to without passing through another property,
each once, with their ids in the model. -/
structure ListsProperties (containerId : String) (order : List (String × PublishedNode)) : Prop where
  once : (order.map Prod.fst).Nodup
  mem : ∀ id node, (id, node) ∈ order ↔
    model.nodesById.get? id = some node ∧ node.kind = .property ∧ Relation.ReflTransGen (ListsChild model) containerId id

def followedIds (id : String) : List String :=
  match model.nodesById.get? id with
  | none => []
  | some node => if node.kind = .property then [] else model.childrenById.bucket id

def propertyEntry (id : String) : Option (String × PublishedNode) :=
  ((model.nodesById.get? id).filter fun node => node.kind = .property).map fun node => (id, node)

def overrunError : Overrun → HttpError
  | .nodes => tooManyNodes
  | .depth => tooDeep

variable {model}

theorem mem_followedIds {id child : String} : child ∈ followedIds model id ↔ ListsChild model id child := by
  unfold followedIds ListsChild
  cases model.nodesById.get? id with
  | none => simp
  | some node => by_cases property : node.kind = .property <;> simp [property]

theorem propertyEntry_eq_some {id : String} {entry : String × PublishedNode} :
    propertyEntry model id = some entry ↔
      entry.1 = id ∧ model.nodesById.get? id = some entry.2 ∧ entry.2.kind = .property := by
  obtain ⟨key, node⟩ := entry
  simp only [propertyEntry, Option.map_eq_some_iff, Option.filter_eq_some_iff, decide_eq_true_eq, Prod.mk.injEq]
  constructor
  · rintro ⟨node', ⟨found, property⟩, rfl, rfl⟩
    exact ⟨rfl, found, property⟩
  · rintro ⟨rfl, found, property⟩
    exact ⟨node, ⟨found, property⟩, rfl, rfl⟩

/-- The search of the tool is a bounded search that lists the properties among the
visited nodes. -/
theorem containerProperties_eq (pending : List (String × Nat)) (visited : List String) :
    containerProperties model pending visited ((visited.filterMap (propertyEntry model)).map Prod.snd) =
      match boundedSearch (followedIds model) maxNodes maxDepth pending visited with
      | .ok all => .ok ((all.filterMap (propertyEntry model)).map Prod.snd)
      | .error overrun => .error (overrunError overrun) := by
  fun_induction boundedSearch (followedIds model) maxNodes maxDepth pending visited with
  | case1 visited => rw [containerProperties]
  | case2 visited id depth pending old ih => rw [containerProperties, if_pos old, ih]
  | case3 visited id depth pending new many => rw [containerProperties, if_neg new, if_pos many]; rfl
  | case4 visited id depth pending new few deep => rw [containerProperties, if_neg new, if_neg few, if_pos deep]; rfl
  | case5 visited id depth pending new few shallow ih =>
      rw [containerProperties, if_neg new, if_neg few, if_neg shallow, ← ih, List.filterMap_append, List.map_append]
      cases found : model.nodesById.get? id with
      | none => simp [followedIds, propertyEntry, found]
      | some node => by_cases property : node.kind = .property <;> simp [followedIds, propertyEntry, found, property]

theorem listsProperties_of_search {containerId : String} {all : List String}
    (done : boundedSearch (followedIds model) maxNodes maxDepth [(containerId, 0)] [] = .ok all) :
    ListsProperties model containerId (all.filterMap (propertyEntry model)) := by
  obtain ⟨distinct, visited⟩ := boundedSearch_spec done
  have edges : (fun id child => child ∈ followedIds model id) = ListsChild model := by
    funext id child
    exact propext mem_followedIds
  rw [edges] at visited
  refine ⟨?_, fun id node => ?_⟩
  · have names : (all.filterMap (propertyEntry model)).map Prod.fst =
        all.filter fun id => (propertyEntry model id).isSome := by
      rw [List.map_filterMap, ← List.filterMap_eq_filter]
      refine List.filterMap_congr fun id _ => ?_
      cases entry : propertyEntry model id with
      | none => simp [Option.guard, entry]
      | some entry' => simp [Option.guard, entry, (propertyEntry_eq_some.mp entry).1]
    rw [names]
    exact distinct.filter _
  · rw [List.mem_filterMap]
    constructor
    · rintro ⟨id', m, entry⟩
      obtain ⟨rfl, found, property⟩ := propertyEntry_eq_some.mp entry
      exact ⟨found, property, (visited id).mp m⟩
    · rintro ⟨found, property, path⟩
      exact ⟨id, (visited id).mpr path, propertyEntry_eq_some.mpr ⟨rfl, found, property⟩⟩

/-! ## Results -/

/-- The response lists one result for each id that was asked for, under that id. -/
structure InternalResponse.Answers (response : InternalResponse N) (elementIds : List String)
    (result : String → JsonValue N) : Prop where
  accepted : response.statusCode < 400
  results : ∃ body, response.body = some body ∧ body.get "results" = some (.array (elementIds.map result))
  named : ∀ id, (result id).elementId = some id

theorem elementId_bulkItem (endpoint : ValueEndpoint N D) (values : Dict String D) (id : String) :
    (endpoint.bulkItem values id).elementId = some id := by
  unfold ValueEndpoint.bulkItem
  cases endpoint.findModelNode id <;> rfl

/-- A response lists one result for each id. -/
theorem InternalResponse.Answers.unique {response : InternalResponse N} {elementIds : List String}
    {first second : String → JsonValue N} (one : response.Answers elementIds first)
    (other : response.Answers elementIds second) : ∀ id ∈ elementIds, first id = second id := by
  obtain ⟨body, decoded, listed⟩ := one.results
  obtain ⟨body', decoded', listed'⟩ := other.results
  cases decoded.symm.trans decoded'
  have same : elementIds.map first = elementIds.map second := by
    simpa only [Option.some.injEq, JsonValue.array.injEq] using listed.symm.trans listed'
  exact List.map_inj_left.mp same

/-- The values that the endpoint reads for a request, under the sources they were read from. -/
def ValueEndpoint.Reads (endpoint : ValueEndpoint N D) (elementIds : List String) (values : Dict String D) : Prop :=
  ∃ dataValues, (if endpoint.nodeIds elementIds = [] then some [] else endpoint.readDataValues (endpoint.nodeIds elementIds)) =
      some dataValues ∧ values = .ofList ((endpoint.nodeIds elementIds).zip dataValues)

/-- What an item says of an element: the value that was read for it, or that the endpoint
found no such element. -/
def ValueEndpoint.Shows (endpoint : ValueEndpoint N D) (values : Dict String D) (elementId : String)
    (item : ContainerItem N) : Prop :=
  match endpoint.findModelNode elementId with
  | some served =>
      item.success = true ∧
        item.value = some (.object [("value", (endpoint.rootVqt values served).value),
          ("quality", .string (endpoint.rootVqt values served).quality),
          ("timestamp", .string (endpoint.rootVqt values served).timestamp)]) ∧
        item.error = none ∧ item.responseDetail = none
  | none =>
      item.success = false ∧ item.value = none ∧
        item.error = some (endpoint.errorDetail 404 ("Element not found: " ++ elementId)) ∧
        item.responseDetail = some (endpoint.responseDetail "Not Found" 404 ("Element not found: " ++ elementId))

/-- The value endpoint fails with the read, or answers every id from what it read. -/
theorem queryLastKnownValues_answers (endpoint : ValueEndpoint N D) (elementIds : List String) :
    400 ≤ (endpoint.queryLastKnownValues elementIds).statusCode ∨
      ∃ values, endpoint.Reads elementIds values ∧
        (endpoint.queryLastKnownValues elementIds).Answers elementIds (endpoint.bulkItem values) := by
  cases read : (if endpoint.nodeIds elementIds = [] then some []
      else endpoint.readDataValues (endpoint.nodeIds elementIds)) with
  | none =>
      simp only [ValueEndpoint.queryLastKnownValues, read]
      exact .inl (show 400 ≤ 502 by decide)
  | some dataValues =>
      refine .inr ⟨_, ⟨dataValues, read, rfl⟩, ?_, ?_, elementId_bulkItem endpoint _⟩
      all_goals simp only [ValueEndpoint.queryLastKnownValues, read]
      · decide
      · exact ⟨_, rfl, rfl⟩

/-- An endpoint whose reads succeed accepts every request. -/
theorem queryLastKnownValues_accepts {endpoint : ValueEndpoint N D} (serves : ∀ nodeIds, (endpoint.readDataValues nodeIds).isSome)
    (elementIds : List String) : (endpoint.queryLastKnownValues elementIds).statusCode = 200 := by
  cases read : (if endpoint.nodeIds elementIds = [] then some []
      else endpoint.readDataValues (endpoint.nodeIds elementIds)) with
  | none =>
      have given := serves (endpoint.nodeIds elementIds)
      split at read
      · cases read
      · rw [read] at given
        cases given
  | some dataValues => simp only [ValueEndpoint.queryLastKnownValues, read]

/-- The item of a property says what the endpoint found for it. -/
theorem containerItem_bulkItem (endpoint : ValueEndpoint N D) (values : Dict String D) (node : PublishedNode) :
    endpoint.Shows values node.id (containerItem node (some (endpoint.bulkItem values node.id))) := by
  unfold ValueEndpoint.Shows ValueEndpoint.bulkItem
  cases endpoint.findModelNode node.id with
  | none => exact ⟨rfl, rfl, rfl, rfl⟩
  | some served => exact ⟨rfl, rfl, rfl, rfl⟩

/-! ## Values of a page -/

/-- The value that a dictionary holds for an id is the result for it in a response to one
of the batches that asked for it. -/
def ResultFor (endpoint : Nat → List String → InternalResponse N) (batches : List (List String)) (id : String)
    (value : JsonValue N) : Prop :=
  ∃ number batch result, batches[number]? = some batch ∧ id ∈ batch ∧
    (endpoint number batch).Answers batch result ∧ value = result id

theorem keepResult_of_named {result : JsonValue N} {id : String} (named : result.elementId = some id)
    (values : Dict String (JsonValue N)) : keepResult values result = values.set id result := by
  rw [keepResult, named]

theorem get?_keepResults {result : String → JsonValue N} (named : ∀ id, (result id).elementId = some id)
    (elementIds : List String) (values : Dict String (JsonValue N)) (id : String) :
    ((elementIds.map result).foldl keepResult values).get? id =
      if id ∈ elementIds then some (result id) else values.get? id := by
  induction elementIds generalizing values with
  | nil => rfl
  | cons first elementIds ih =>
      rw [List.map_cons, List.foldl_cons, ih, keepResult_of_named (named first), Dict.get?_set]
      by_cases later : id ∈ elementIds
      · rw [if_pos later, if_pos (List.mem_cons_of_mem first later)]
      · rw [if_neg later]
        by_cases here : id = first
        · rw [if_pos here, if_pos (here ▸ List.mem_cons_self), here]
        · rw [if_neg here, if_neg fun m => (List.mem_cons.mp m).elim here later]

/-- The first failed response is passed on. If there is none, all batches are read, and
what is held for an id was held before or is the result for it. -/
theorem readBatches_spec {endpoint : Nat → List String → InternalResponse N} (number : Nat)
    (batches : List (List String))
    (answers : ∀ k batch, 400 ≤ (endpoint k batch).statusCode ∨ ∃ result, (endpoint k batch).Answers batch result)
    (values : Dict String (JsonValue N)) :
    (∃ k batch, batches[k]? = some batch ∧ 400 ≤ (endpoint (number + k) batch).statusCode ∧
      readBatches endpoint number batches values = .error (.forwarded (endpoint (number + k) batch))) ∨
    ∃ held, readBatches endpoint number batches values = .ok held ∧
      (∀ id ∈ batches.flatten, ∃ value, held.get? id = some value ∧
        ResultFor (fun k => endpoint (number + k)) batches id value) ∧
      ∀ id ∉ batches.flatten, held.get? id = values.get? id := by
  induction batches generalizing number values with
  | nil => exact .inr ⟨values, rfl, nofun, fun _ _ => rfl⟩
  | cons batch batches ih =>
      rcases answers number batch with failed | ⟨result, answered⟩
      · exact .inl ⟨0, batch, rfl, failed, if_pos failed⟩
      · obtain ⟨body, decoded, listed⟩ := answered.results
        have next : readBatches endpoint number (batch :: batches) values =
            readBatches endpoint (number + 1) batches ((batch.map result).foldl keepResult values) := by
          simp only [readBatches, decoded, listed]
          exact if_neg (Nat.not_le.mpr answered.accepted)
        have shift (k : Nat) : number + 1 + k = number + (k + 1) := by omega
        rcases ih (number + 1) ((batch.map result).foldl keepResult values) with
          ⟨k, batch', at', failed, read⟩ | ⟨held, read, given, kept⟩
        · rw [shift] at failed read
          exact .inl ⟨k + 1, batch', at', failed, next.trans read⟩
        · refine .inr ⟨held, next.trans read, fun id m => ?_, fun id absent => ?_⟩
          · by_cases inLater : id ∈ batches.flatten
            · obtain ⟨value, found, k, batch', result', at', inside, answered', rfl⟩ := given id inLater
              refine ⟨result' id, found, k + 1, batch', result', at', inside, ?_, rfl⟩
              simpa only [shift] using answered'
            · have inside : id ∈ batch := (List.mem_append.mp m).resolve_right inLater
              refine ⟨result id, ?_, 0, batch, result, rfl, inside, answered, rfl⟩
              rw [kept id inLater, get?_keepResults answered.named, if_pos inside]
          · obtain ⟨notHere, notLater⟩ := not_or.mp (fun m => absent (List.mem_append.mpr m))
            rw [kept id notLater, get?_keepResults answered.named, if_neg notHere]

/-! ## Pages of the search -/

/-- The ids that a request asks the endpoint for, batch by batch. -/
def pageBatches (nodes : List PublishedNode) : List (List String) :=
  OpcUa.chunkedNodes (nodes.map fun node => node.id) batchSize

/-- An item names its property, and shows what the endpoint found for it when a batch of
the page asked for it. -/
structure Carries (endpoint : Nat → ValueEndpoint N D) (batches : List (List String)) (node : PublishedNode)
    (item : ContainerItem N) : Prop where
  id : item.id = node.id
  name : item.name = node.name
  shown : ∃ number batch values, batches[number]? = some batch ∧ node.id ∈ batch ∧
    (endpoint number).Reads batch values ∧ (endpoint number).Shows values node.id item

theorem containerItem_names (node : PublishedNode) (result : Option (JsonValue N)) :
    (containerItem node result).id = node.id ∧ (containerItem node result).name = node.name := by
  cases result with
  | none => exact ⟨rfl, rfl⟩
  | some result =>
      rw [containerItem]
      split <;> exact ⟨rfl, rfl⟩

/-- The result that answers a batch is what the endpoint makes of the values it read for
that batch. -/
theorem ResultFor.carries {endpoint : Nat → ValueEndpoint N D} {batches : List (List String)} {node : PublishedNode}
    {value : JsonValue N} (given : ResultFor (fun number => (endpoint number).queryLastKnownValues) batches node.id value) :
    Carries endpoint batches node (containerItem node (some value)) := by
  obtain ⟨number, batch, result, at', inside, answered, rfl⟩ := given
  obtain ⟨values, read, answered'⟩ := (queryLastKnownValues_answers (endpoint number) batch).resolve_left
    (Nat.not_le.mpr answered.accepted)
  obtain ⟨id, name⟩ := containerItem_names node (some (result node.id))
  refine ⟨id, name, number, batch, values, at', inside, read, ?_⟩
  rw [answered.unique answered' node.id inside]
  exact containerItem_bulkItem (endpoint number) values node

section
variable {unicode : Unicode} {containerId : String} {container : PublishedNode} {limit offset : Int}

theorem invokeContainerValues_eq (named : unicode.strip containerId ≠ "")
    (found : model.nodesById.get? containerId = some container) (isObject : container.kind ≠ .property)
    (inRange : 1 ≤ limit ∧ limit ≤ 50) (positive : 0 ≤ offset) (endpoint : Nat → List String → InternalResponse N) :
    invokeContainerValues unicode model endpoint containerId limit offset =
      match containerProperties model [(containerId, 0)] [] [] with
      | .error failure => .refused failure
      | .ok properties =>
          let page := (properties.drop offset.toNat).take limit.toNat
          match readBatches endpoint 0 (pageBatches page) .empty with
          | .error answer => answer
          | .ok values =>
              let items := page.map fun node => containerItem node (values.get? node.id)
              .page ⟨items.all fun item => item.success, containerId, properties.length, items.length,
                offset.toNat, items, Container.nextOffset properties.length offset.toNat page.length⟩ := by
  rw [invokeContainerValues, if_neg named, if_neg (not_not.mpr inRange), if_neg (Int.not_lt.mpr positive), found]
  exact if_neg isObject

/-- A failed response of the endpoint is passed on, or the page has the listed
properties, each with its result. -/
theorem invokeContainerValues_page {properties : List PublishedNode} (named : unicode.strip containerId ≠ "")
    (found : model.nodesById.get? containerId = some container) (isObject : container.kind ≠ .property)
    (searched : containerProperties model [(containerId, 0)] [] [] = .ok properties)
    (inRange : 1 ≤ limit ∧ limit ≤ 50) (offset : Nat) (endpoint : Nat → ValueEndpoint N D) :
    let asked (number : Nat) := (endpoint number).queryLastKnownValues
    (∃ number batch, (pageBatches ((properties.drop offset).take limit.toNat))[number]? = some batch ∧
      400 ≤ (asked number batch).statusCode ∧
      invokeContainerValues unicode model asked containerId limit offset = .forwarded (asked number batch)) ∨
    ∃ page : ContainerPage N, invokeContainerValues unicode model asked containerId limit offset = .page page ∧
      List.Forall₂ (Carries endpoint (pageBatches ((properties.drop offset).take limit.toNat)))
        ((properties.drop offset).take limit.toNat) page.items ∧
      page.nextOffset =
        Container.nextOffset properties.length offset ((properties.drop offset).take limit.toNat).length := by
  intro asked
  rw [invokeContainerValues_eq named found isObject inRange (Int.natCast_nonneg offset), searched, Int.toNat_natCast]
  dsimp only
  generalize (properties.drop offset).take limit.toNat = nodes
  have answers (k : Nat) (batch : List String) :
      400 ≤ (asked k batch).statusCode ∨ ∃ result, (asked k batch).Answers batch result :=
    (queryLastKnownValues_answers (endpoint k) batch).imp_right fun ⟨_, _, answered⟩ => ⟨_, answered⟩
  have read := readBatches_spec 0 (pageBatches nodes) answers .empty
  simp only [Nat.zero_add] at read
  rcases read with ⟨number, batch, at', failed, read⟩ | ⟨values, read, given, -⟩
  · exact .inl ⟨number, batch, at', failed, by rw [read]⟩
  · rw [read]
    refine .inr ⟨_, rfl, ?_, rfl⟩
    rw [List.forall₂_map_right_iff, List.forall₂_same]
    intro node m
    have inside : node.id ∈ (pageBatches nodes).flatten := by
      rw [pageBatches, OpcUa.flatten_chunkedNodes (by decide)]
      exact List.mem_map.mpr ⟨node, m, rfl⟩
    obtain ⟨value, held, result⟩ := given node.id inside
    rw [held]
    exact result.carries

theorem ids_of_carries {endpoint : Nat → ValueEndpoint N D} {batches : List (List String)}
    {nodes : List PublishedNode} {items : List (ContainerItem N)}
    (carried : List.Forall₂ (Carries endpoint batches) nodes items) :
    items.map (fun item => item.id) = nodes.map fun node => node.id := by
  induction carried with
  | nil => rfl
  | cons first _ ih => rw [List.map_cons, List.map_cons, first.id, ih]

/-- Following the offsets lists the properties that the search found, in its order. -/
theorem followPages_properties {properties : List PublishedNode} {limits : Nat → Int} (named : unicode.strip containerId ≠ "")
    (found : model.nodesById.get? containerId = some container) (isObject : container.kind ≠ .property)
    (searched : containerProperties model [(containerId, 0)] [] [] = .ok properties)
    (inRange : ∀ round, 1 ≤ limits round ∧ limits round ≤ 50) {endpoints : Nat → Nat → ValueEndpoint N D}
    (served : ∀ round (offset : Nat) response, invokeContainerValues unicode model
      (fun number => (endpoints round number).queryLastKnownValues) containerId (limits round) offset ≠ .forwarded response) :
    ∃ pages, followPages (fun round (offset : Nat) => invokeContainerValues unicode model
        (fun number => (endpoints round number).queryLastKnownValues) containerId (limits round) offset)
        ContainerAnswer.nextOffset (properties.length + 1) 0 0 = some pages ∧
      (pages.flatMap ContainerAnswer.items).map (fun item => item.id) = properties.map fun node => node.id := by
  have page (round offset : Nat) :=
    (invokeContainerValues_page named found isObject searched (inRange round) offset (endpoints round)).resolve_left
      fun ⟨_, _, _, _, forwarded⟩ => served round offset _ forwarded
  have some' (round : Nat) : 1 ≤ (limits round).toNat := by
    have := inRange round
    omega
  have tile := @followPages_tile String (ContainerAnswer N)
    (fun round (offset : Nat) => invokeContainerValues unicode model
      (fun number => (endpoints round number).queryLastKnownValues) containerId (limits round) offset)
    ContainerAnswer.nextOffset (fun answer => answer.items.map fun item => item.id)
    (properties.map fun node => node.id) (fun round => (limits round).toNat) some' ?_ ?_
  · obtain ⟨pages, followed, tiled⟩ := @tile (properties.length + 1) 0 0 (by simp)
    exact ⟨pages, followed, by rw [List.map_flatMap, tiled, List.drop_zero]⟩
  · intro round offset
    obtain ⟨answer, answered, carried, -⟩ := page round offset
    rw [answered, ContainerAnswer.items, ids_of_carries carried, List.map_take, List.map_drop]
  · intro round offset
    obtain ⟨answer, answered, -, next⟩ := page round offset
    rw [answered, ContainerAnswer.nextOffset, next, ← List.map_drop, ← List.map_take, List.length_map, List.length_map]

end

/-- **Following the offsets lists every property below a container once, with what the
value endpoint found for it, unless every request is answered that the subtree is too
large or a failed read is passed on.** -/
theorem invokeContainerValues_pages {unicode : Unicode} {containerId : String} {container : PublishedNode}
    (named : unicode.strip containerId ≠ "") (found : model.nodesById.get? containerId = some container)
    (isObject : container.kind ≠ .property) :
    (∃ failure : HttpError, failure.status = 413 ∧
      ∀ (endpoint : Nat → List String → InternalResponse N) (limit offset : Int), 1 ≤ limit ∧ limit ≤ 50 → 0 ≤ offset →
        invokeContainerValues unicode model endpoint containerId limit offset = .refused failure) ∨
    ∃ order, ListsProperties model containerId order ∧
      ∀ (endpoints : Nat → Nat → ValueEndpoint N D) (limits : Nat → Int), (∀ round, 1 ≤ limits round ∧ limits round ≤ 50) →
        let asked (round number : Nat) := (endpoints round number).queryLastKnownValues
        let request (round offset : Nat) :=
          invokeContainerValues unicode model (asked round) containerId (limits round) offset
        let nodes (round offset : Nat) := ((order.map Prod.snd).drop offset).take (limits round).toNat
        (∀ round offset,
          (∃ number batch, (pageBatches (nodes round offset))[number]? = some batch ∧
            400 ≤ (asked round number batch).statusCode ∧
            request round offset = .forwarded (asked round number batch)) ∨
          ∃ page, request round offset = .page page ∧
            List.Forall₂ (Carries (endpoints round) (pageBatches (nodes round offset))) (nodes round offset) page.items) ∧
        ((∀ round offset response, request round offset ≠ .forwarded response) →
          ∃ pages, followPages request ContainerAnswer.nextOffset (order.length + 1) 0 0 = some pages ∧
            (pages.flatMap ContainerAnswer.items).map (fun item => item.id) = order.map fun entry => entry.2.id) := by
  have searched := @containerProperties_eq model [(containerId, 0)] []
  rw [List.filterMap_nil, List.map_nil] at searched
  cases done : boundedSearch (followedIds model) maxNodes maxDepth [(containerId, 0)] [] with
  | error overrun =>
      rw [done] at searched
      refine .inl ⟨overrunError overrun, by cases overrun <;> rfl, fun endpoint limit offset inRange positive => ?_⟩
      rw [invokeContainerValues_eq named found isObject inRange positive, searched]
  | ok all =>
      rw [done] at searched
      refine .inr ⟨_, listsProperties_of_search done, fun endpoints limits inRange => ⟨fun round offset => ?_, ?_⟩⟩
      · rcases invokeContainerValues_page named found isObject searched (inRange round) offset
          (endpoints round) with failed | ⟨page, answered, carried, -⟩
        · exact .inl failed
        · exact .inr ⟨page, answered, carried⟩
      · intro served
        obtain ⟨pages, followed, listed⟩ := followPages_properties named found isObject searched inRange served
        rw [List.length_map] at followed
        rw [List.map_map] at listed
        exact ⟨pages, followed, listed⟩

/-- The property that both objects of the loop list. -/
def loopLevel : PublishedNode := { Api.nestedProperty with id := "level", kind := .property }

/-- A loop of two objects, the second of which shares a property with the first and lists
an element that the model lacks. -/
def loopModel : PublishedModel :=
  let tank := { Api.nestedRoot with id := "tank", kind := .asset }
  let pump := { Api.nestedRoot with id := "pump", kind := .asset }
  { Api.nested.toPublishedModel with
    nodesById := .ofList [("tank", tank), ("pump", pump), ("level", loopLevel)]
    childrenById := .ofList [("tank", ["level", "pump"]), ("pump", ["tank", "level", "gone"])] }

/-- A value endpoint over the loop. -/
def loopEndpoint (readDataValues : List String → Option (List Nat)) : ValueEndpoint Nat Nat where
  findModelNode := loopModel.nodesById.get?
  isComposition _ := false
  readDataValues := readDataValues
  vqtFromDataValue value := ⟨.number value, "Good", "2026-01-01T12:00:00Z"⟩
  goodNoData := ⟨.null, "GoodNoData", "2026-01-01T12:00:00Z"⟩
  numeral := id

/-- The search of the loop ends with the shared property. -/
theorem containerProperties_loop : containerProperties loopModel [("tank", 0)] [] [] = .ok [loopLevel] := by
  have tank : loopModel.nodesById.get? "tank" = some { Api.nestedRoot with id := "tank", kind := .asset } := rfl
  have pump : loopModel.nodesById.get? "pump" = some { Api.nestedRoot with id := "pump", kind := .asset } := rfl
  have level : loopModel.nodesById.get? "level" = some loopLevel := rfl
  have gone : loopModel.nodesById.get? "gone" = none := rfl
  have ofTank : loopModel.childrenById.bucket "tank" = ["level", "pump"] := rfl
  have ofPump : loopModel.childrenById.bucket "pump" = ["tank", "level", "gone"] := rfl
  have property : loopLevel.kind = .property := rfl
  simp [containerProperties, tank, pump, level, gone, ofTank, ofPump, property, maxNodes, maxDepth]

theorem listsChild_loop : ListsChild loopModel "tank" "level" := ⟨_, rfl, by decide, by decide⟩

/-- The loop has one property below the tank. -/
theorem ListsProperties.loop {order : List (String × PublishedNode)} (lists : ListsProperties loopModel "tank" order) :
    order = [("level", loopLevel)] := by
  refine List.perm_singleton.mp ((List.perm_ext_iff_of_nodup lists.once.of_map (List.nodup_singleton _)).mpr ?_)
  rintro ⟨id, node⟩
  rw [lists.mem, List.mem_singleton]
  constructor
  · rintro ⟨found, property, -⟩
    have entry := (Dict.mem_entries _ id node).mpr found
    have entries : loopModel.nodesById.entries = [("tank", _), ("pump", _), ("level", loopLevel)] := rfl
    rw [entries] at entry
    simp only [List.mem_cons, List.not_mem_nil, or_false, Prod.mk.injEq] at entry
    obtain ⟨rfl, rfl⟩ | ⟨rfl, rfl⟩ | ⟨rfl, rfl⟩ := entry
    · cases property
    · cases property
    · rfl
  · rintro ⟨⟩
    exact ⟨rfl, rfl, .single listsChild_loop⟩

/-- A page of the loop, with the value that was read for its property. -/
theorem invokeContainerValues_pages_loop :
    let endpoint := loopEndpoint fun nodeIds => some (nodeIds.map fun _ => 7)
    let request (offset : Nat) :=
      invokeContainerValues Sample.server.unicode loopModel (fun _ => endpoint.queryLastKnownValues) "tank" 10 offset
    (∃ page item, request 0 = .page page ∧ page.items = [item] ∧ item.id = "level" ∧ item.success = true ∧
      item.value = some (.object [("value", .number 7), ("quality", .string "Good"),
        ("timestamp", .string "2026-01-01T12:00:00Z")])) ∧
    ∃ pages, followPages (fun _ => request) ContainerAnswer.nextOffset 2 0 0 = some pages ∧
      (pages.flatMap ContainerAnswer.items).map (fun item => item.id) = ["level"] := by
  intro endpoint request
  have found : loopModel.nodesById.get? "tank" = some { Api.nestedRoot with id := "tank", kind := .asset } := rfl
  obtain ⟨failure, -, refused⟩ | ⟨order, lists, answered⟩ := @invokeContainerValues_pages Nat Nat loopModel
    Sample.server.unicode "tank" _ (by decide) found (by decide)
  · have answer := refused (fun _ _ => ⟨500, none⟩) 1 1 (by decide) (by decide)
    rw [invokeContainerValues_eq (by decide) found (by decide) (by decide) (by decide), containerProperties_loop] at answer
    cases answer
  · cases lists.loop
    obtain ⟨each, followed⟩ := answered (fun _ _ => endpoint) (fun _ => 10) fun _ => by decide
    have accepts := @queryLastKnownValues_accepts Nat Nat endpoint fun _ => rfl
    have passed : ∀ (offset : Nat) response, request offset ≠ .forwarded response := by
      intro offset response forwarded
      obtain ⟨_, batch, _, failed, _⟩ | ⟨page, answered, _⟩ := each 0 offset
      · rw [accepts] at failed
        exact absurd failed (by decide)
      · exact absurd (answered.symm.trans forwarded) nofun
    refine ⟨?_, followed fun _ => passed⟩
    obtain ⟨_, batch, _, failed, _⟩ | ⟨page, answered, carried⟩ := each 0 0
    · rw [accepts] at failed
      exact absurd failed (by decide)
    · obtain ⟨item, rest, carries, none, items⟩ := List.forall₂_cons_left_iff.mp carried
      cases List.forall₂_nil_left_iff.mp none
      obtain ⟨_, batch, _, at', -, ⟨dataValues, read, rfl⟩, success, value, -⟩ := carries.shown
      cases List.mem_singleton.mp (show batch ∈ [["level"]] from List.mem_of_getElem? at')
      cases (show some [7] = some dataValues from read)
      exact ⟨page, item, answered, items, carries.id, success, value⟩

/-- The read of the property of the loop fails: the first page is the failed response,
and neither a refusal that the subtree is too large nor a page. -/
theorem invokeContainerValues_unread :
    let endpoint := loopEndpoint fun _ => none
    let answer := invokeContainerValues Sample.server.unicode loopModel (fun _ => endpoint.queryLastKnownValues) "tank" 10 0
    Relation.ReflTransGen (ListsChild loopModel) "tank" "level" ∧
      loopModel.nodesById.get? "level" = some loopLevel ∧ loopLevel.kind = .property ∧
      (∃ response : InternalResponse Nat, response.statusCode = 502 ∧ answer = .forwarded response) ∧
      ¬ ((∃ failure : HttpError, failure.status = 413 ∧ answer = .refused failure) ∨ ∃ page, answer = .page page) := by
  intro endpoint answer
  have found : loopModel.nodesById.get? "tank" = some { Api.nestedRoot with id := "tank", kind := .asset } := rfl
  have forwarded : answer = .forwarded endpoint.readFailed := by
    show invokeContainerValues _ _ _ _ _ _ = _
    rw [invokeContainerValues_eq (by decide) found (by decide) (by decide) (by decide), containerProperties_loop]
    rfl
  refine ⟨.single listsChild_loop, rfl, rfl, ⟨_, rfl, forwarded⟩, ?_⟩
  rw [forwarded]
  rintro (⟨_, -, refused⟩ | ⟨_, page⟩)
  · exact absurd refused nofun
  · exact absurd page nofun

end Mcp
end I3x

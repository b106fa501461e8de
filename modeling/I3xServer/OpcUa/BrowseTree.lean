import I3xServer.Container.Worklist
import I3xServer.Model.References
import I3xServer.OpcUa.TypeRequests

/-!
# Browsing the address space

The browse starts at the configured roots and follows forward hierarchical references.
It reads the nodes of a round in batches, and one by one where a batch fails; a node that
cannot be read is left out, but what it references is browsed.
-/
namespace I3x.OpcUa
open Container

inductive NodeClass where
  | unspecified | object | variable_ | method | objectType | variableType | referenceType | dataType | view
  deriving DecidableEq, Repr

def NodeClass.name : NodeClass → String
  | .unspecified => "Unspecified"
  | .object => "Object"
  | .variable_ => "Variable"
  | .method => "Method"
  | .objectType => "ObjectType"
  | .variableType => "VariableType"
  | .referenceType => "ReferenceType"
  | .dataType => "DataType"
  | .view => "View"

/-- The attributes of a node, `none` without a good value. A name may be a value without
a text. -/
structure NodeAttributes where
  browseName : Option (Option String)
  displayName : Option (Option String)
  nodeClass : Option NodeClass
  description : Option String := none
  dataType : Option String := none
  accessLevel : Option Nat := none
  userAccessLevel : Option Nat := none
  eventNotifier : Option Nat := none
  executable : Option Bool := none
  userExecutable : Option Bool := none
  typeDefinition : Option String := none
  deriving DecidableEq, Repr

def NodeAttributes.readable (attributes : NodeAttributes) : Bool :=
  attributes.browseName.isSome && attributes.displayName.isSome && attributes.nodeClass.isSome

structure ReferenceDescription where
  nodeId : String
  referenceTypeId : String
  deriving DecidableEq, Repr

/-- A configured node id that was parsed as an expanded one. -/
structure ExpandedNodeId where
  namespaceUri : Option String
  serverIndex : Nat
  identifier : String

/-- What the client library and the server answer to a browse. A read of many nodes may
fail in any pattern, but not the read of one readable node. -/
structure BrowseServer where
  endpoint : String
  namespaceArray : List String
  parseNodeId : String → Except String (Option ExpandedNodeId)
  nodeIdText : Nat → String → String
  quoted : String → String
  readFailure : String → String
  attributes : String → NodeAttributes
  readFails : List String → Bool
  references : String → List ReferenceDescription
  isHierarchical : String → Bool
  alone : ∀ node, (attributes node).readable = true → readFails [node] = false

/-- A node to visit, with the node whose reference led to it. -/
abbrev Entry := String × Option String

variable (text : Text) (server : BrowseServer)

/-! ## The roots -/

def resolveBrowseRoot (configuredId : String) : Except Stop String :=
  match server.parseNodeId configuredId with
  | .error message => .error (.raised message)
  | .ok none =>
      .error (.raised ("Browse root must be a local URI-based ExpandedNodeId: " ++ server.quoted configuredId))
  | .ok (some expanded) =>
      let namespaceUri := expanded.namespaceUri.getD ""
      if namespaceUri = "" ∨ expanded.serverIndex ≠ 0 then
        .error (.raised ("Browse root must be a local URI-based ExpandedNodeId: " ++ server.quoted configuredId))
      else
        match server.namespaceArray.idxOf? namespaceUri with
        | none =>
            .error (.raised ("Browse root namespace is not available on " ++ server.endpoint ++ ": " ++
              server.quoted configuredId))
        | some namespaceIndex =>
            let node := server.nodeIdText namespaceIndex expanded.identifier
            match (server.attributes node).nodeClass with
            | none =>
                .error (.raised ("Cannot read configured OPC UA browse root " ++ server.quoted configuredId ++ ": " ++
                  server.readFailure node))
            | some nodeClass =>
                if nodeClass = .object then .ok node
                else
                  .error (.raised ("Configured OPC UA browse root is not an Object: " ++ server.quoted configuredId))

def objectsFolder : String := "i=85"

def resolveBrowseRoots : Option (List String) → Except Stop (List String)
  | none => .ok [objectsFolder]
  | some [] => .error (.raised "Configured OPC UA browse roots must not be empty")
  | some configured => (configured.mapM (resolveBrowseRoot server)).map fun roots =>
      (Dict.ofList (roots.map fun root => (root, root))).values

/-! ## Reading nodes -/

def normalizeTypeDefinitionId (typeDefinitionId : Option String) : Option String :=
  typeDefinitionId.bind fun id =>
    if id = "" then none
    else if text.strip id ∈ ["i=0", "ns=0;i=0", "nsu=http://opcfoundation.org/UA/;i=0"] then none
    else some (text.strip id)

/-- The attribute of a node whose class has it. -/
def classAttribute {β : Type} (classes : List NodeClass) (nodeClass : NodeClass) (value : Option β) : Option β :=
  if nodeClass ∈ classes then value else none

def nodeInfo (entry : Entry) (browseName : String) (displayName : Option String) (nodeClass : NodeClass)
    (typeDefinitionId : Option String) : BrowsedNode :=
  let attributes := server.attributes entry.1
  { nodeId := entry.1
    parentNodeId := entry.2
    browseName
    displayName
    nodeClass := nodeClass.name
    dataType := classAttribute [.variable_] nodeClass attributes.dataType
    eventNotifier := (classAttribute [.object, .view] nodeClass attributes.eventNotifier).any fun value => value ≠ 0
    typeDefinitionId
    outgoingReferences := []
    description := attributes.description.filter fun description => text.strip description ≠ ""
    accessLevel := classAttribute [.variable_] nodeClass attributes.accessLevel
    userAccessLevel := classAttribute [.variable_] nodeClass attributes.userAccessLevel
    executable := classAttribute [.method] nodeClass attributes.executable
    userExecutable := classAttribute [.method] nodeClass attributes.userExecutable }

/-- The read of one node. A display name may lack a text; a browse name that does is
recorded as an empty one. -/
def readNodeInfo (entry : Entry) : Except String BrowsedNode :=
  if server.readFails [entry.1] then .error (server.readFailure entry.1)
  else
    let attributes := server.attributes entry.1
    match attributes.browseName, attributes.displayName with
    | some browseName, some displayName =>
        match attributes.nodeClass with
        | some nodeClass =>
            let typeDefinition := classAttribute [.object, .variable_] nodeClass attributes.typeDefinition
            .ok (nodeInfo text server entry (browseName.getD "") displayName nodeClass
              (normalizeTypeDefinitionId text typeDefinition))
        | none => .error ("Cannot read node class for OPC UA node " ++ entry.1)
    | _, _ => .error ("Cannot read required node names for OPC UA node " ++ entry.1)

def readNodeInfosFallback (entries : List Entry) : List BrowsedNode :=
  entries.filterMap fun entry => (readNodeInfo text server entry).toOption

/-- What a batched read yields for a node; `none` leaves it to a read of its own. -/
def batchNodeInfo (entry : Entry) : Option BrowsedNode :=
  let attributes := server.attributes entry.1
  match attributes.nodeClass, attributes.browseName, attributes.displayName with
  | some nodeClass, some (some browseName), some (some displayName) =>
      let typeDefinition := classAttribute [.object, .variable_] nodeClass attributes.typeDefinition
      some (nodeInfo text server entry browseName (some displayName) nodeClass
        (normalizeTypeDefinitionId text (normalizeTypeDefinitionId text typeDefinition)))
  | _, _, _ => none

def readNodeInfosBatch (entryBatch : List Entry) : List BrowsedNode :=
  if server.readFails (entryBatch.map Prod.fst) then readNodeInfosFallback text server entryBatch
  else
    entryBatch.filterMap (batchNodeInfo text server) ++
      readNodeInfosFallback text server (entryBatch.filter fun entry => (batchNodeInfo text server entry).isNone)

/-- `values[idx : idx + size]` for every multiple `idx` of the size; the fuel counts the
chunks still possible. -/
def chunkedNodesFrom {α : Type} (size : Nat) : Nat → List α → List (List α)
  | 0, _ | _ + 1, [] => []
  | fuel + 1, values => values.take size :: chunkedNodesFrom size fuel (values.drop size)

def chunkedNodes {α : Type} (values : List α) (size : Nat) : List (List α) :=
  chunkedNodesFrom size values.length values

theorem flatten_chunkedNodesFrom {α : Type} {size : Nat} (positive : 0 < size) (fuel : Nat) (values : List α)
    (enough : values.length ≤ fuel) : (chunkedNodesFrom size fuel values).flatten = values := by
  induction fuel generalizing values with
  | zero =>
      rw [List.length_eq_zero_iff.mp (Nat.le_zero.mp enough)]
      rfl
  | succ fuel ih =>
      cases values with
      | nil => rfl
      | cons value values =>
          have shorter : ((value :: values).drop size).length ≤ fuel := by
            simp only [List.length_drop, List.length_cons] at enough ⊢
            omega
          rw [chunkedNodesFrom, List.flatten_cons, ih _ shorter, List.take_append_drop]
          exact nofun

theorem flatten_chunkedNodes {α : Type} {size : Nat} (positive : 0 < size) (values : List α) :
    (chunkedNodes values size).flatten = values :=
  flatten_chunkedNodesFrom positive values.length values (Nat.le_refl _)

theorem length_of_mem_chunkedNodesFrom {α : Type} {size fuel : Nat} {values batch : List α}
    (m : batch ∈ chunkedNodesFrom size fuel values) : batch.length ≤ size ∧ batch.length ≤ values.length := by
  induction fuel generalizing values with
  | zero => cases m
  | succ fuel ih =>
      cases values with
      | nil => cases m
      | cons value values =>
          rw [chunkedNodesFrom] at m
          · rcases List.mem_cons.mp m with rfl | m
            · rw [List.length_take]
              exact ⟨Nat.min_le_left _ _, Nat.min_le_right _ _⟩
            · obtain ⟨short, within⟩ := ih m
              rw [List.length_drop] at within
              exact ⟨short, within.trans (Nat.sub_le _ _)⟩
          · exact nofun

theorem ne_nil_of_mem_chunkedNodesFrom {α : Type} {size fuel : Nat} (positive : 0 < size) {values batch : List α}
    (m : batch ∈ chunkedNodesFrom size fuel values) : batch ≠ [] := by
  induction fuel generalizing values with
  | zero => cases m
  | succ fuel ih =>
      cases values with
      | nil => cases m
      | cons value values =>
          rw [chunkedNodesFrom] at m
          · rcases List.mem_cons.mp m with rfl | m
            · rw [← List.length_pos_iff, List.length_take]
              exact lt_min positive (Nat.succ_pos _)
            · exact ih m
          · exact nofun

theorem length_chunkedNodesFrom_le {α : Type} (size fuel : Nat) (values : List α) :
    (chunkedNodesFrom size fuel values).length ≤ fuel := by
  induction fuel generalizing values with
  | zero => exact Nat.le_refl 0
  | succ fuel ih =>
      cases values with
      | nil => exact Nat.zero_le _
      | cons value values => exact Nat.succ_le_succ (ih _)

/-- A read of ten attributes of each node keeps to the limit of values a read may have. -/
def readNodeInfosLimited (limits : OpcUaOperationalLimits) (entries : List Entry) : List BrowsedNode :=
  let maxNodes := match limits.maxNodesPerRead with
    | none | some 0 => entries.length
    | some limit => limit
  (chunkedNodes entries (max 1 (min (maxNodes / 10) entries.length))).flatMap (readNodeInfosBatch text server)

/-! ## The loop -/

/-- A browse answers every node with all its forward references of the types asked for. -/
def browseDescriptions (includes : String → Bool) (nodes : List String) : List (String × List ReferenceDescription) :=
  nodes.map fun node => (node, (server.references node).filter fun ref => includes ref.referenceTypeId)

/-- The BrowseName of a reference type, if one is read and is not empty. -/
def BrowseServer.typeName (typeId : String) : Option String :=
  (server.attributes typeId).browseName.join.filter fun name => name ≠ ""

def nameReferenceType (names : Dict String String) (typeId : String) : Except Stop (Dict String String) :=
  match server.typeName typeId with
  | some browseName => .ok (names.set typeId browseName)
  | none => .error (.raised ("Cannot read BrowseName for reference type " ++ server.quoted typeId))

def readReferenceTypeBrowseNames (refs : List ReferenceDescription) (names : Dict String String) :
    Except Stop (Dict String String) :=
  let typeIds := ((refs.map ReferenceDescription.referenceTypeId).dedup.filter (· ∉ names.keys)).insertionSort (· ≤ ·)
  typeIds.foldlM (nameReferenceType server) names

def toReferenceInfos (refs : List ReferenceDescription) (referenceTypeNames : Dict String String) :
    List OpcUaReferenceInfo :=
  refs.map fun ref => ⟨ref.nodeId, ref.referenceTypeId, (referenceTypeNames.get? ref.referenceTypeId).getD ""⟩

def withReferences (allRefs : List (String × List ReferenceDescription)) (referenceTypeNames : Dict String String)
    (info : BrowsedNode) : BrowsedNode :=
  match allRefs.lookup info.nodeId with
  | none => info
  | some refs => { info with outgoingReferences := toReferenceInfos refs referenceTypeNames }

structure BrowseState where
  stack : List Entry
  visited : List String
  referenceTypeNames : Dict String String
  output : List BrowsedNode

variable (limits : OpcUaOperationalLimits)

def browseRound (state : BrowseState) : Except Stop BrowseState :=
  let maxNodesPerBrowse := limitOrDefault limits.maxNodesPerBrowse
  let filtered := unvisited state.visited (state.stack.take maxNodesPerBrowse)
  let stack := state.stack.drop maxNodesPerBrowse
  if filtered = [] then .ok { state with stack }
  else
    let nodes := filtered.map Prod.fst
    let nodeInfos := readNodeInfosLimited text server limits filtered
    let allRefs := browseDescriptions server (fun _ => true) nodes
    let browsed := browseDescriptions server server.isHierarchical nodes
    (readReferenceTypeBrowseNames server (allRefs.flatMap Prod.snd) state.referenceTypeNames).map fun names =>
      { stack := stack ++ browsed.flatMap fun entry => entry.2.map fun ref => (ref.nodeId, some entry.1)
        visited := state.visited ++ nodes
        referenceTypeNames := names
        output := state.output ++ nodeInfos.map (withReferences allRefs names) }

/-- The loop over the stack, for at most as many rounds as the fuel allows. -/
def browseLoop : Nat → BrowseState → Except Stop BrowseState
  | fuel, state =>
      if state.stack = [] then .ok state
      else
        match fuel with
        | 0 => .error .outOfFuel
        | fuel + 1 => (browseRound text server limits state).bind (browseLoop fuel)

def browseRun (configured : Option (List String)) (fuel : Nat) : Except Stop BrowseState :=
  (resolveBrowseRoots server configured).bind fun roots =>
    browseLoop text server limits fuel ⟨roots.map fun root => (root, none), [], .empty, []⟩

def browseTree (configured : Option (List String)) (fuel : Nat) : Except Stop (List BrowsedNode) :=
  (browseRun text server limits configured fuel).map BrowseState.output

end I3x.OpcUa

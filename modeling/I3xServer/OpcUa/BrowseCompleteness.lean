import I3xServer.OpcUa.BrowseTree

/-!
# What a browse returns

However the limits cut the rounds and the reads, and whichever batches fail, a browse
visits the reachable nodes once each and returns the readable ones among them.
-/
namespace I3x.OpcUa
open Container

/-- The entry that a returned node was visited as. -/
def entryOf (node : BrowsedNode) : Entry := (node.nodeId, node.parentNodeId)

def BrowseServer.Readable (server : BrowseServer) (node : String) : Prop := (server.attributes node).readable = true

instance (server : BrowseServer) : DecidablePred server.Readable := fun _ => inferInstanceAs (Decidable (_ = true))

/-- The targets of the forward hierarchical references of a node. -/
def BrowseServer.children (server : BrowseServer) (node : String) : List String :=
  ((server.references node).filter fun ref => server.isHierarchical ref.referenceTypeId).map ReferenceDescription.nodeId

/-- Every forward reference of a node has a type whose BrowseName can be read. -/
def BrowseServer.Named (server : BrowseServer) (node : String) : Prop :=
  ∀ ref ∈ server.references node, (server.typeName ref.referenceTypeId).isSome

variable {text : Text} {server : BrowseServer}

/-! ## Reading -/

theorem filterMap_entryOf {read : Entry → Option BrowsedNode} {p : Entry → Bool}
    (same : ∀ entry, (read entry).map entryOf = if p entry then some entry else none) (entries : List Entry) :
    (entries.filterMap read).map entryOf = entries.filter p := by
  rw [List.map_filterMap, ← List.filterMap_eq_filter]
  refine List.filterMap_congr fun entry _ => ?_
  rw [same, Option.guard_def]

theorem readNodeInfo_entry (entry : Entry) :
    ((readNodeInfo text server entry).toOption).map entryOf = if server.Readable entry.1 then some entry else none := by
  by_cases readable : server.Readable entry.1
  · have reads := server.alone entry.1 readable
    obtain ⟨⟨browseName, displayName⟩, nodeClass⟩ := by
      simpa only [BrowseServer.Readable, NodeAttributes.readable, Bool.and_eq_true, Option.isSome_iff_exists] using readable
    obtain ⟨browseName, browseNameRead⟩ := browseName
    obtain ⟨displayName, displayNameRead⟩ := displayName
    obtain ⟨nodeClass, nodeClassRead⟩ := nodeClass
    rw [if_pos readable]
    simp only [readNodeInfo, reads, browseNameRead, displayNameRead, nodeClassRead]
    rfl
  · rw [if_neg readable, Option.map_eq_none_iff, readNodeInfo]
    split
    · rfl
    · dsimp only
      split
      · split
        · next _ _ _ _ browseName displayName _ _ nodeClass =>
            refine absurd ?_ readable
            simp only [BrowseServer.Readable, NodeAttributes.readable, browseName, displayName, nodeClass,
              Option.isSome_some, Bool.and_true]
        · rfl
      · rfl

theorem fallback_entries (entries : List Entry) :
    (readNodeInfosFallback text server entries).map entryOf = entries.filter fun entry => server.Readable entry.1 :=
  filterMap_entryOf (fun entry => by simpa only [decide_eq_true_eq] using readNodeInfo_entry entry) entries

theorem batchNodeInfo_some {entry : Entry} {info : BrowsedNode} (complete : batchNodeInfo text server entry = some info) :
    entryOf info = entry ∧ server.Readable entry.1 := by
  unfold batchNodeInfo at complete
  dsimp only at complete
  split at complete
  · next nodeClass browseName displayName =>
      cases complete
      refine ⟨rfl, ?_⟩
      simp only [BrowseServer.Readable, NodeAttributes.readable, nodeClass, browseName, displayName, Option.isSome_some,
        Bool.and_true]
  · cases complete

theorem batchNodeInfo_entry (entry : Entry) :
    (batchNodeInfo text server entry).map entryOf =
      if (batchNodeInfo text server entry).isSome then some entry else none := by
  cases complete : batchNodeInfo text server entry with
  | none => rfl
  | some info => exact congrArg some (batchNodeInfo_some complete).1

/-- A batch yields its readable nodes, with those read alone behind the others. -/
theorem batch_entries (entries : List Entry) :
    ((readNodeInfosBatch text server entries).map entryOf).Perm (entries.filter fun entry => server.Readable entry.1) := by
  unfold readNodeInfosBatch
  split
  · exact .of_eq (fallback_entries entries)
  · rw [List.map_append, filterMap_entryOf batchNodeInfo_entry, fallback_entries]
    have parts := List.filter_append_perm (fun entry => (batchNodeInfo text server entry).isSome)
      (entries.filter fun entry => server.Readable entry.1)
    refine (List.Perm.of_eq ?_).trans parts
    simp only [List.filter_filter]
    congr 1
    · refine List.filter_congr fun entry _ => ?_
      cases complete : batchNodeInfo text server entry with
      | none => rfl
      | some info => simp only [(batchNodeInfo_some complete).2, decide_true, Bool.and_true]
    · refine List.filter_congr fun entry _ => ?_
      rw [Bool.and_comm, ← Option.not_isSome]

theorem chunks_entries {size : Nat} (positive : 0 < size) (entries : List Entry) :
    (((chunkedNodes entries size).flatMap (readNodeInfosBatch text server)).map entryOf).Perm
      (entries.filter fun entry => server.Readable entry.1) := by
  conv => rhs; rw [← flatten_chunkedNodes positive entries, List.filter_flatten]
  rw [List.map_flatMap, List.flatMap_def]
  refine List.Perm.flatten_congr ?_
  rw [List.forall₂_map_left_iff, List.forall₂_map_right_iff]
  exact List.forall₂_same.mpr fun batch _ => batch_entries batch

/-- The nodes of a round are read whatever the limit. -/
theorem limited_entries (limits : OpcUaOperationalLimits) (entries : List Entry) :
    ((readNodeInfosLimited text server limits entries).map entryOf).Perm
      (entries.filter fun entry => server.Readable entry.1) := chunks_entries (by omega) entries

/-! ## One round -/

/-- The types that have been named so far. -/
def TypesNamed (server : BrowseServer) (names : Dict String String) : Prop :=
  ∀ typeId ∈ names.keys, (server.typeName typeId).isSome

theorem nameTypes_spec (typeIds : List String) {names : Dict String String} (known : TypesNamed server names) :
    (∃ after, typeIds.foldlM (nameReferenceType server) names = .ok after ∧ TypesNamed server after ∧
      ∀ typeId ∈ typeIds, (server.typeName typeId).isSome) ∨
    (∃ message, typeIds.foldlM (nameReferenceType server) names = .error (.raised message)) ∧
      ∃ typeId ∈ typeIds, ¬ (server.typeName typeId).isSome := by
  induction typeIds generalizing names with
  | nil => exact Or.inl ⟨names, rfl, known, nofun⟩
  | cons typeId typeIds ih =>
      rw [List.foldlM_cons, nameReferenceType]
      cases read : server.typeName typeId with
      | none => exact Or.inr ⟨⟨_, rfl⟩, typeId, List.mem_cons_self, by rw [read]; nofun⟩
      | some browseName =>
          have known' : TypesNamed server (names.set typeId browseName) := by
            intro other m
            rcases (Dict.keys_set ..).mp m with rfl | old
            · exact read ▸ rfl
            · exact known other old
          rcases ih known' with ⟨after, run, grown, all⟩ | ⟨raised, other, m, unread⟩
          · exact Or.inl ⟨after, run, grown, List.forall_mem_cons.mpr ⟨read ▸ rfl, all⟩⟩
          · exact Or.inr ⟨raised, other, List.mem_cons_of_mem _ m, unread⟩

theorem readReferenceTypeBrowseNames_spec (refs : List ReferenceDescription) {names : Dict String String}
    (known : TypesNamed server names) :
    (∃ after, readReferenceTypeBrowseNames server refs names = .ok after ∧ TypesNamed server after ∧
      ∀ ref ∈ refs, (server.typeName ref.referenceTypeId).isSome) ∨
    (∃ message, readReferenceTypeBrowseNames server refs names = .error (.raised message)) ∧
      ∃ ref ∈ refs, ¬ (server.typeName ref.referenceTypeId).isSome := by
  have listed {typeId : String} :
      typeId ∈ ((refs.map ReferenceDescription.referenceTypeId).dedup.filter (· ∉ names.keys)).insertionSort (· ≤ ·) ↔
        (∃ ref ∈ refs, ref.referenceTypeId = typeId) ∧ typeId ∉ names.keys := by
    rw [List.mem_insertionSort, List.mem_filter, List.mem_dedup, List.mem_map, decide_eq_true_eq]
  rcases nameTypes_spec (((refs.map ReferenceDescription.referenceTypeId).dedup.filter
    (· ∉ names.keys)).insertionSort (· ≤ ·)) known with ⟨after, run, grown, all⟩ | ⟨raised, typeId, m, unread⟩
  · refine Or.inl ⟨after, run, grown, fun ref m => ?_⟩
    by_cases old : ref.referenceTypeId ∈ names.keys
    · exact known _ old
    · exact all _ (listed.mpr ⟨⟨ref, m, rfl⟩, old⟩)
  · obtain ⟨⟨ref, n, rfl⟩, -⟩ := listed.mp m
    exact Or.inr ⟨raised, ref, n, unread⟩

/-- What a round that does not raise makes of the state, with the entries it admits. -/
structure Round (server : BrowseServer) (state after : BrowseState) (rest admitted : List Entry) : Prop where
  stack : after.stack = rest ++ ledBy server.children admitted
  visited : after.visited = state.visited ++ admitted.map Prod.fst
  output : ∃ infos, after.output = state.output ++ infos ∧
    (infos.map entryOf).Perm (admitted.filter fun entry => server.Readable entry.1)
  names : TypesNamed server after.referenceTypeNames
  named : ∀ node ∈ admitted.map Prod.fst, server.Named node

theorem withReferences_entry (allRefs : List (String × List ReferenceDescription)) (names : Dict String String)
    (info : BrowsedNode) : entryOf (withReferences allRefs names info) = entryOf info := by
  unfold withReferences
  split <;> rfl

theorem browseDescriptions_led (admitted : List Entry) :
    ((browseDescriptions server server.isHierarchical (admitted.map Prod.fst)).flatMap fun entry =>
      entry.2.map fun ref => (ref.nodeId, some entry.1)) = ledBy server.children admitted := by
  simp only [browseDescriptions, ledBy, BrowseServer.children, List.flatMap_map, List.map_map, Function.comp_def]

theorem browseRound_spec (text : Text) (limits : OpcUaOperationalLimits) {state : BrowseState}
    (known : TypesNamed server state.referenceTypeNames) :
    let size := limitOrDefault limits.maxNodesPerBrowse
    let admitted := unvisited state.visited (state.stack.take size)
    (∃ after, browseRound text server limits state = .ok after ∧ Round server state after (state.stack.drop size) admitted) ∨
    (∃ message, browseRound text server limits state = .error (.raised message)) ∧
      ∃ node ∈ admitted.map Prod.fst, ¬ server.Named node := by
  intro size admitted
  unfold browseRound
  dsimp only
  split
  · next none_new =>
      have none_new : admitted = [] := none_new
      refine Or.inl ⟨_, rfl, ?_⟩
      rw [none_new]
      exact ⟨(List.append_nil _).symm, (List.append_nil _).symm, ⟨[], (List.append_nil _).symm, .nil⟩, known, nofun⟩
  · have asked {ref : ReferenceDescription} :
        ref ∈ (browseDescriptions server (fun _ => true) (admitted.map Prod.fst)).flatMap Prod.snd ↔
          ∃ node ∈ admitted.map Prod.fst, ref ∈ server.references node := by
      simp only [browseDescriptions, List.filter_true, List.mem_flatMap, List.mem_map, exists_exists_and_eq_and]
    rcases readReferenceTypeBrowseNames_spec
      ((browseDescriptions server (fun _ => true) (admitted.map Prod.fst)).flatMap Prod.snd) known with
      ⟨names, run, grown, all⟩ | ⟨⟨message, run⟩, ref, m, unread⟩
    · rw [run]
      refine Or.inl ⟨_, rfl, ⟨?_, rfl, ⟨_, rfl, ?_⟩, grown, fun node m ref n => all ref (asked.mpr ⟨node, m, n⟩)⟩⟩
      · exact congrArg (state.stack.drop size ++ ·) (browseDescriptions_led admitted)
      · simp only [List.map_map, Function.comp_def, withReferences_entry]
        exact limited_entries limits admitted
    · rw [run]
      obtain ⟨node, n, inside⟩ := asked.mp m
      exact Or.inr ⟨⟨message, rfl⟩, node, n, fun named => unread (named ref inside)⟩

/-! ## The whole browse -/

/-- The state of a browse that has visited the entries of `record`, in that order. -/
structure Browsing (server : BrowseServer) (roots : List String) (state : BrowseState) (record : List Entry) : Prop where
  search : Worklist server.children roots state.stack record
  visited : state.visited = record.map Prod.fst
  output : (state.output.map entryOf).Perm (record.filter fun entry => server.Readable entry.1)
  childrenLater : state.output.Pairwise fun first second => first.parentNodeId ≠ some second.nodeId
  names : TypesNamed server state.referenceTypeNames
  named : ∀ node ∈ record.map Prod.fst, server.Named node

theorem Browsing.start (server : BrowseServer) (roots : List String) :
    Browsing server roots ⟨roots.map fun root => (root, none), [], .empty, []⟩ [] where
  search := .start _ _
  visited := rfl
  output := .nil
  childrenLater := .nil
  names := nofun
  named := nofun

section
variable {roots : List String} {state : BrowseState} {record : List Entry}

theorem Browsing.round (browsing : Browsing server roots state record) {after : BrowseState} {size : Nat}
    (round : Round server state after (state.stack.drop size) (unvisited state.visited (state.stack.take size))) :
    Browsing server roots after (record ++ unvisited state.visited (state.stack.take size)) := by
  have split : Worklist server.children roots (state.stack.take size ++ state.stack.drop size) record :=
    (List.take_append_drop size state.stack).symm ▸ browsing.search
  have search := split.round
  rw [← browsing.visited] at search
  obtain ⟨infos, grown, read⟩ := round.output
  -- An admitted node is new, and its parent is not.
  have admitted {info : BrowsedNode} (m : info ∈ infos) :
      entryOf info ∈ unvisited state.visited (state.stack.take size) :=
    List.mem_of_mem_filter (read.subset (List.mem_map_of_mem m))
  have distinct := search.distinct
  rw [List.map_append, List.nodup_append, ← browsing.visited] at distinct
  have fresh {info : BrowsedNode} (m : info ∈ infos) : info.nodeId ∉ state.visited := fun old =>
    distinct.2.2 _ old _ (List.mem_map_of_mem (admitted m)) rfl
  have parent {info : BrowsedNode} (m : info ∈ infos) {id : String} (same : info.parentNodeId = some id) :
      id ∈ state.visited := by
    have led := split.led _ (List.mem_append_left _ ((unvisited_sublist _ _).subset (admitted m)))
    rw [Led, show (entryOf info).2 = some id from same] at led
    exact browsing.visited ▸ led.1
  have parentOfOld {info : BrowsedNode} (m : info ∈ state.output) {id : String} (same : info.parentNodeId = some id) :
      id ∈ state.visited := by
    have visited := List.mem_of_mem_filter (browsing.output.subset (List.mem_map_of_mem m))
    rw [entryOf, same] at visited
    obtain ⟨before, rest, whole, first, -⟩ := (browsing.search.parent visited).1
    rw [browsing.visited, whole]
    exact List.mem_append_left _ first
  refine ⟨round.stack ▸ search, ?_, ?_, ?_, round.names, ?_⟩
  · rw [round.visited, browsing.visited, List.map_append]
  · rw [grown, List.map_append, List.filter_append]
    exact browsing.output.append read
  · rw [grown, List.pairwise_append]
    refine ⟨browsing.childrenLater, ?_, fun first m second n same => fresh n (parentOfOld m same)⟩
    exact List.pairwise_of_forall_mem_list fun first m second n same => fresh n (parent m same)
  · rw [List.map_append]
    exact fun node m => (List.mem_append.mp m).elim (browsing.named node) (round.named node)

/-- How a browse ends: with nothing left to visit, at a reference type that cannot be named,
or with less fuel than it has entries to take. -/
theorem browseLoop_spec (text : Text) (limits : OpcUaOperationalLimits) (fuel : Nat)
    (browsing : Browsing server roots state record) :
    match browseLoop text server limits fuel state with
    | .ok after => after.stack = [] ∧ ∃ record, Browsing server roots after record
    | .error (.raised _) => ∃ node, Reached server.children roots node ∧ ¬ server.Named node
    | .error .outOfFuel => ∀ nodes : Finset String, (∀ node, Reached server.children roots node → node ∈ nodes) →
        fuel < debt server.children nodes state.stack record := by
  induction fuel generalizing state record with
  | zero =>
      rw [browseLoop]
      split_ifs with empty
      · exact ⟨empty, record, browsing⟩
      · exact fun nodes _ => Nat.add_pos_left (List.length_pos_iff.mpr empty) _
  | succ fuel ih =>
      rw [browseLoop]
      split_ifs with empty
      · exact ⟨empty, record, browsing⟩
      · rcases browseRound_spec text limits browsing.names with ⟨after, run, round⟩ | ⟨⟨message, run⟩, node, m, unnamed⟩
        · have rest := ih (browsing.round round)
          rw [run, show Except.bind (.ok after) (browseLoop text server limits fuel) =
            browseLoop text server limits fuel after from rfl]
          cases ended : browseLoop text server limits fuel after with
          | ok final =>
              rw [ended] at rest
              exact rest
          | error stop =>
            rw [ended] at rest
            cases stop with
            | raised message => exact rest
            | outOfFuel =>
              intro nodes finite
              have split : Worklist server.children roots (state.stack.take (limitOrDefault limits.maxNodesPerBrowse) ++
                  state.stack.drop (limitOrDefault limits.maxNodesPerBrowse)) record :=
                (List.take_append_drop _ state.stack).symm ▸ browsing.search
              have settled := split.debt_round finite
              rw [List.take_append_drop, ← browsing.visited, ← round.stack, List.length_take] at settled
              have positive := limitOrDefault_pos limits.maxNodesPerBrowse
              have left := List.length_pos_iff.mpr empty
              have more := rest nodes finite
              omega
        · rw [run]
          refine ⟨node, ?_, unnamed⟩
          obtain ⟨entry, n, rfl⟩ := List.mem_map.mp m
          have pending := List.mem_of_mem_take ((unvisited_sublist _ _).subset n)
          exact (browsing.search.led entry pending).reached browsing.search.reached

end

/-- The visited nodes and the returned ones of a browse from `roots`. -/
structure CompleteBrowse (server : BrowseServer) (roots visited : List String) (output : List BrowsedNode) : Prop where
  visitedOnce : visited.Nodup
  visited_iff : ∀ node, node ∈ visited ↔ Reached server.children roots node
  returnedOnce : (output.map fun node => node.nodeId).Nodup
  returned_iff : ∀ node, node ∈ output.map (fun node => node.nodeId) ↔
    server.Readable node ∧ Reached server.children roots node
  root : ∀ node ∈ output, node.parentNodeId = none → node.nodeId ∈ roots
  parent : ∀ node ∈ output, ∀ parent, node.parentNodeId = some parent →
    Precedes visited parent node.nodeId ∧ node.nodeId ∈ server.children parent
  childrenLater : output.Pairwise fun first second => first.parentNodeId ≠ some second.nodeId

theorem Browsing.complete {roots : List String} {state : BrowseState} {record : List Entry}
    (browsing : Browsing server roots state record) (ended : state.stack = []) :
    CompleteBrowse server roots state.visited state.output := by
  have search := browsing.search
  rw [ended] at search
  have ids : (state.output.map fun node => node.nodeId).Perm
      ((record.filter fun entry => server.Readable entry.1).map Prod.fst) := by
    have mapped := browsing.output.map Prod.fst
    rw [List.map_map] at mapped
    exact mapped
  have entry {node : BrowsedNode} (m : node ∈ state.output) : (node.nodeId, node.parentNodeId) ∈ record :=
    List.mem_of_mem_filter (browsing.output.subset (List.mem_map_of_mem m))
  refine ⟨?_, ?_, ?_, ?_, ?_, ?_, browsing.childrenLater⟩
  · exact browsing.visited ▸ search.distinct
  · exact browsing.visited ▸ search.exact
  · exact ids.nodup_iff.mpr (search.distinct.sublist (List.filter_sublist.map _))
  · intro node
    rw [ids.mem_iff, ← search.exact]
    simp only [List.mem_map, List.mem_filter, decide_eq_true_eq]
    constructor
    · rintro ⟨entry, ⟨m, readable⟩, rfl⟩
      exact ⟨readable, entry, m, rfl⟩
    · rintro ⟨readable, entry, m, rfl⟩
      exact ⟨entry, ⟨m, readable⟩, rfl⟩
  · exact fun node m none_named => search.root (none_named ▸ entry m)
  · exact fun node m parent same => browsing.visited ▸ search.parent (same ▸ entry m)

theorem browseRun_resolved {limits : OpcUaOperationalLimits} {configured : Option (List String)} {fuel : Nat}
    {roots : List String} (resolved : resolveBrowseRoots server configured = .ok roots) :
    browseRun text server limits configured fuel =
      browseLoop text server limits fuel ⟨roots.map fun root => (root, none), [], .empty, []⟩ := by
  rw [browseRun, resolved]
  rfl

/-- Whatever a browse returns is complete. -/
theorem browseTree_ok {limits : OpcUaOperationalLimits} {configured : Option (List String)} {fuel : Nat}
    {output : List BrowsedNode} (returned : browseTree text server limits configured fuel = .ok output) :
    ∃ roots visited, resolveBrowseRoots server configured = .ok roots ∧ CompleteBrowse server roots visited output := by
  cases resolved : resolveBrowseRoots server configured with
  | error stop =>
      rw [browseTree, browseRun, resolved] at returned
      cases returned
  | ok roots =>
      have spec := browseLoop_spec text limits fuel (Browsing.start server roots)
      rw [browseTree, browseRun_resolved resolved] at returned
      split at spec
      · next after ended =>
          rw [ended] at returned
          cases returned
          obtain ⟨empty, record, browsing⟩ := spec
          exact ⟨roots, after.visited, rfl, browsing.complete empty⟩
      · next raised =>
          rw [raised] at returned
          cases returned
      · next stopped =>
          rw [stopped] at returned
          cases returned

/-- With every type of a reachable reference named, a browse returns each reachable
readable node once; otherwise it raises. -/
theorem browseTree_complete (text : Text) (server : BrowseServer) (limits : OpcUaOperationalLimits)
    (configured : Option (List String)) {roots : List String}
    (resolved : resolveBrowseRoots server configured = .ok roots) (nodes : Finset String)
    (finite : ∀ node, Reached server.children roots node → node ∈ nodes) :
    ∃ enough, ∀ fuel, enough ≤ fuel →
      ((∀ node, Reached server.children roots node → server.Named node) →
        ∃ state, browseRun text server limits configured fuel = .ok state ∧
          browseTree text server limits configured fuel = .ok state.output ∧
          CompleteBrowse server roots state.visited state.output) ∧
      ((∃ node, Reached server.children roots node ∧ ¬ server.Named node) →
        ∃ message, browseTree text server limits configured fuel = .error (.raised message)) := by
  refine ⟨debt server.children nodes (roots.map fun root => (root, none)) [], fun fuel enough => ?_⟩
  have spec := browseLoop_spec text limits fuel (Browsing.start server roots)
  rw [browseTree, browseRun_resolved resolved]
  split at spec
  · next after ended =>
      rw [ended]
      obtain ⟨empty, record, browsing⟩ := spec
      refine ⟨fun _ => ⟨after, rfl, rfl, browsing.complete empty⟩, ?_⟩
      rintro ⟨node, reached, unnamed⟩
      have search := browsing.search
      rw [empty] at search
      exact absurd (browsing.named node ((search.exact node).mpr reached)) unnamed
  · next message raised =>
      rw [raised]
      refine ⟨fun named => ?_, fun _ => ⟨message, rfl⟩⟩
      obtain ⟨node, reached, missing⟩ := spec
      exact absurd (named node reached) missing
  · exact absurd enough (Nat.not_le_of_lt (spec nodes finite))

/-! ## Two objects that organize each other -/

def namedObject (name : String) : NodeAttributes where
  browseName := some (some name)
  displayName := some (some name)
  nodeClass := some .object

/-- A server whose only references are of the type with the attributes given. -/
def loopServer (organizes : NodeAttributes) : BrowseServer where
  endpoint := "opc.tcp://plant"
  namespaceArray := []
  parseNodeId _ := .ok none
  nodeIdText _ identifier := identifier
  quoted id := id
  readFailure _ := "BadNodeIdUnknown"
  attributes id := if id = "i=35" then organizes else namedObject id
  readFails _ := false
  references id :=
    if id = "i=85" then [⟨"tank", "i=35"⟩] else if id = "tank" then [⟨"i=85", "i=35"⟩] else []
  isHierarchical id := id = "i=35"
  alone _ _ := rfl

theorem loop_reached (organizes : NodeAttributes) (node : String)
    (reached : Reached (loopServer organizes).children [objectsFolder] node) :
    node ∈ ({"i=85", "tank"} : Finset String) := by
  obtain ⟨root, m, path⟩ := reached
  induction path with
  | refl => simp [List.mem_singleton.mp m, objectsFolder]
  | tail _ led ih =>
      rw [Finset.mem_insert, Finset.mem_singleton] at ih
      rcases ih with rfl | rfl <;> simp [BrowseServer.children, loopServer] at led <;> simp [led]

theorem loop_named_iff (organizes : NodeAttributes) (node : String) :
    (loopServer organizes).Named node ↔ node ≠ "i=85" ∧ node ≠ "tank" ∨
      (organizes.browseName.join.filter fun name => name ≠ "").isSome := by
  by_cases folder : node = "i=85"
  · simp [BrowseServer.Named, loopServer, folder, BrowseServer.typeName]
  · by_cases tank : node = "tank" <;> simp [BrowseServer.Named, loopServer, folder, tank, BrowseServer.typeName]

theorem browseTree_complete_loop :
    resolveBrowseRoots (loopServer (namedObject "Organizes")) none = .ok [objectsFolder] ∧
    ∃ enough, ∀ fuel, enough ≤ fuel → ∃ state : BrowseState,
      browseTree .ascii (loopServer (namedObject "Organizes")) ⟨some 1, some 4⟩ none fuel = .ok state.output ∧
      CompleteBrowse (loopServer (namedObject "Organizes")) [objectsFolder] state.visited state.output := by
  refine ⟨rfl, ?_⟩
  obtain ⟨enough, complete⟩ := browseTree_complete .ascii (loopServer (namedObject "Organizes")) ⟨some 1, some 4⟩ none
    rfl {"i=85", "tank"} (loop_reached _)
  refine ⟨enough, fun fuel le => ?_⟩
  obtain ⟨state, -, output, browse⟩ := (complete fuel le).1 fun node _ =>
    (loop_named_iff _ node).mpr (Or.inr (by simp [namedObject]))
  exact ⟨state, output, browse⟩

def unreadNode : NodeAttributes where
  browseName := none
  displayName := none
  nodeClass := none

/-- A reference type without a readable BrowseName keeps a browse from returning. -/
theorem unreadType_returnsNothing :
    (∀ node, Reached (loopServer unreadNode).children [objectsFolder] node → node ∈ ({"i=85", "tank"} : Finset String)) ∧
    ∀ fuel output, browseTree .ascii (loopServer unreadNode) ⟨some 1, some 4⟩ none fuel ≠ .ok output := by
  refine ⟨loop_reached _, fun fuel output returned => ?_⟩
  cases fuel with
  | zero => cases returned
  | succ fuel =>
      have run : browseTree .ascii (loopServer unreadNode) ⟨some 1, some 4⟩ none (fuel + 1) =
          ((browseRound .ascii (loopServer unreadNode) ⟨some 1, some 4⟩ ⟨[objectsFolder].map fun root => (root, none), [],
            .empty, []⟩).bind
            (browseLoop .ascii (loopServer unreadNode) ⟨some 1, some 4⟩ fuel)).map BrowseState.output := rfl
      rw [run] at returned
      rcases browseRound_spec .ascii ⟨some 1, some 4⟩ (Browsing.start (loopServer unreadNode) [objectsFolder]).names with
        ⟨after, -, round⟩ | ⟨⟨message, raised⟩, -⟩
      · have named := round.named objectsFolder List.mem_cons_self
        rw [loop_named_iff] at named
        simp [objectsFolder, unreadNode] at named
      · rw [raised] at returned
        cases returned

end I3x.OpcUa

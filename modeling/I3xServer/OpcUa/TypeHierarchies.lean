import I3xServer.OpcUa.TypeRequests

/-!
# Type hierarchies

The hierarchies of many types are discovered level by level, with as few requests as
the cache allows, and put together from what was discovered and what was cached. Each
is the list that a search for its type alone finds.
-/
namespace I3x.OpcUa
open Container

/-- What is known while types are discovered. -/
structure Discovery where
  cachedChains : Dict String (List OpcUaTypeDefinitionInfo)
  typeInfos : Dict String OpcUaTypeDefinitionInfo
  parentsById : Dict String (List String)

namespace Discovery

def start : Discovery := ⟨.empty, .empty, .empty⟩

def Known (d : Discovery) (typeId : String) : Prop := typeId ∈ d.parentsById.keys ∨ typeId ∈ d.cachedChains.keys

instance (d : Discovery) (typeId : String) : Decidable (d.Known typeId) := inferInstanceAs (Decidable (_ ∨ _))

/-- Look every new type up in the cache, and collect those without a fresh entry. -/
def lookUp (freshEntry : String → Option (List OpcUaTypeDefinitionInfo)) : Discovery → List String →
    Discovery × List String
  | d, [] => (d, [])
  | d, typeId :: rest =>
      if d.Known typeId then lookUp freshEntry d rest
      else
        match freshEntry typeId with
        | some chain => lookUp freshEntry { d with cachedChains := d.cachedChains.set typeId chain } rest
        | none =>
            let (d, unresolved) := lookUp freshEntry d rest
            (d, typeId :: unresolved)

end Discovery

section
variable (server : TypeServer) (limits : OpcUaOperationalLimits)

/-- The level-by-level loop. Entries come and go in the cache while requests are
awaited; `freshEntry round` is the entry that the lookup of a round finds. -/
def discover (freshEntry : Nat → String → Option (List OpcUaTypeDefinitionInfo)) :
    Nat → Nat → List String → Discovery → Except Stop Discovery
  | _, _, [], d => .ok d
  | 0, _, _ :: _, _ => .error .outOfFuel
  | fuel + 1, round, typeId :: pending, d =>
      let (d, unresolved) := d.lookUp (freshEntry round) (addNew [] (typeId :: pending))
      if unresolved = [] then .ok d
      else
        let nodes := unresolved.map server.nodeIdText
        match readTypeInfos server nodes (limitOrDefault limits.maxNodesPerRead) with
        | .error stop => .error stop
        | .ok infos =>
            match browseReferencesDescriptions server fuel nodes (limitOrDefault limits.maxNodesPerBrowse) with
            | .error stop => .error stop
            | .ok browsed =>
                let parents := browsed.map fun entry => (entry.1, addNew [] entry.2)
                discover freshEntry fuel (round + 1) (parents.flatMap Prod.snd)
                  { d with
                    typeInfos := d.typeInfos.update (infos.map fun info => (info.nodeId, info))
                    parentsById := d.parentsById.update parents }

/-- The ids seen and the hierarchy so far, with the new types of a cached chain. -/
def appendChain (state : List String × List OpcUaTypeDefinitionInfo) (chain : List OpcUaTypeDefinitionInfo) :
    List String × List OpcUaTypeDefinitionInfo :=
  chain.foldl
    (fun state info => if info.nodeId ∈ state.1 then state else (state.1 ++ [info.nodeId], state.2 ++ [info])) state

/-- The depth-first search of one hierarchy; the head of the list is the top of the stack. -/
def searchHierarchy (d : Discovery) : Nat → List String → List String × List OpcUaTypeDefinitionInfo →
    Except Stop (List OpcUaTypeDefinitionInfo)
  | _, [], state => .ok state.2
  | 0, _ :: _, _ => .error .outOfFuel
  | fuel + 1, typeId :: stack, (seen, hierarchy) =>
      if typeId ∈ seen then searchHierarchy d fuel stack (seen, hierarchy)
      else
        match d.cachedChains.get? typeId with
        | some chain => searchHierarchy d fuel stack (appendChain (seen, hierarchy) chain)
        | none =>
            match d.typeInfos.get? typeId, d.parentsById.get? typeId with
            | some info, some parents =>
                searchHierarchy d fuel (parents ++ stack) (seen ++ [typeId], hierarchy ++ [info])
            | _, _ => .error (.raised typeId)

/-- The answer, and what is stored in the cache. -/
structure ResolvedHierarchies where
  hierarchies : Dict String (List OpcUaTypeDefinitionInfo)
  stored : List (String × List OpcUaTypeDefinitionInfo)

def storedHierarchies (d : Discovery) (fuel : Nat) : Except Stop (List (String × List OpcUaTypeDefinitionInfo)) :=
  d.parentsById.keys.mapM fun root =>
    (searchHierarchy d fuel [root] ([], [])).map fun hierarchy => (root, hierarchy)

/-- The hierarchy of a requested type; a missing key raises. -/
def requestedHierarchy (hierarchies : Dict String (List OpcUaTypeDefinitionInfo)) (typeId : String) :
    Except Stop (String × List OpcUaTypeDefinitionInfo) :=
  match hierarchies.get? typeId with
  | some hierarchy => .ok (typeId, hierarchy)
  | none => .error (.raised typeId)

def resolveTypeDefinitionHierarchies (freshEntry : Nat → String → Option (List OpcUaTypeDefinitionInfo)) (fuel : Nat)
    (typeDefinitionIds : List String) : Except Stop ResolvedHierarchies :=
  let requestedIds := addNew [] typeDefinitionIds
  match discover server limits freshEntry fuel 0 requestedIds .start with
  | .error stop => .error stop
  | .ok d =>
      match storedHierarchies d fuel with
      | .error stop => .error stop
      | .ok stored =>
          match requestedIds.mapM (requestedHierarchy (d.cachedChains.update stored)) with
          | .error stop => .error stop
          | .ok hierarchies => .ok ⟨Dict.ofList hierarchies, stored⟩

/-! ## What is asked for -/

/-- The duplicate-free depth-first preorder of a type and its supertypes. -/
def TypeServer.Hierarchy (typeId : String) (hierarchy : List OpcUaTypeDefinitionInfo) : Prop :=
  ∃ tree, Unfolds server.supertypes [typeId] tree ∧ hierarchy = (addNew [] tree).map server.info

/-- The search for one type, without cache and batches. -/
def TypeServer.searchAlone (fuel : Nat) (typeId : String) : Option (List OpcUaTypeDefinitionInfo) :=
  (plainSearch server.supertypes fuel typeId).map (List.map server.info)

/-- A type is one of the given ones or above one of them. -/
def TypeServer.Reaches (typeDefinitionIds : List String) (typeId : String) : Prop :=
  ∃ root ∈ typeDefinitionIds,
    Relation.ReflTransGen (fun subtype supertype => supertype ∈ server.supertypes subtype) root typeId

/-- The types above the given ones are finitely many, none is above itself, all have
names, and their ids are canonical. -/
structure TypeServer.Acyclic (typeDefinitionIds : List String) : Prop where
  finite : {typeId | server.Reaches typeDefinitionIds typeId}.Finite
  acyclic : ∀ typeId, server.Reaches typeDefinitionIds typeId →
    ¬ Relation.TransGen (fun subtype supertype => supertype ∈ server.supertypes subtype) typeId typeId
  named : ∀ typeId, server.Reaches typeDefinitionIds typeId → server.Named typeId
  canonical : ∀ typeId, server.Reaches typeDefinitionIds typeId → server.nodeIdText typeId = typeId

end

/-! ## Lookups -/

namespace Discovery
variable {freshEntry : String → Option (List OpcUaTypeDefinitionInfo)}

/-- What one round of lookups does. -/
structure LookedUp (freshEntry : String → Option (List OpcUaTypeDefinitionInfo)) (d : Discovery) (typeIds : List String)
    (result : Discovery × List String) : Prop where
  typeInfos : result.1.typeInfos = d.typeInfos
  parentsById : result.1.parentsById = d.parentsById
  grows : ∀ typeId, d.Known typeId → result.1.Known typeId
  chains : ∀ typeId chain, result.1.cachedChains.get? typeId = some chain →
    d.cachedChains.get? typeId = some chain ∨ freshEntry typeId = some chain
  sublist : result.2.Sublist typeIds
  covers : ∀ typeId ∈ typeIds, result.1.Known typeId ∨ typeId ∈ result.2

theorem lookUp_spec (d : Discovery) (freshEntry : String → Option (List OpcUaTypeDefinitionInfo)) (typeIds : List String) :
    LookedUp freshEntry d typeIds (d.lookUp freshEntry typeIds) := by
  induction typeIds generalizing d with
  | nil => exact ⟨rfl, rfl, fun _ => id, fun _ _ => .inl, List.Sublist.refl _, nofun⟩
  | cons typeId rest ih =>
      unfold lookUp
      split
      · next known =>
          obtain ⟨infos, parents, grows, chains, sublist, covers⟩ := ih d
          exact ⟨infos, parents, grows, chains, sublist.trans (List.sublist_cons_self ..),
            List.forall_mem_cons.mpr ⟨.inl (grows _ known), covers⟩⟩
      · split
        · next chain fresh =>
            obtain ⟨infos, parents, grows, chains, sublist, covers⟩ :=
              ih { d with cachedChains := d.cachedChains.set typeId chain }
            refine ⟨infos, parents, fun other known => grows _ ?_, fun other found present => ?_,
              sublist.trans (List.sublist_cons_self ..), List.forall_mem_cons.mpr ⟨.inl (grows _ ?_), covers⟩⟩
            · exact known.imp id fun m => (Dict.keys_set _ _ _ _).mpr (.inr m)
            · rcases chains other found present with later | entry
              · rw [Dict.get?_set] at later
                split at later
                · next same => exact .inr (same ▸ (Option.some.inj later) ▸ fresh)
                · exact .inl later
              · exact .inr entry
            · exact .inr ((Dict.keys_set _ _ _ _).mpr (.inl rfl))
        · next none =>
            obtain ⟨infos, parents, grows, chains, sublist, covers⟩ := ih d
            exact ⟨infos, parents, grows, chains, sublist.cons_cons _, List.forall_mem_cons.mpr
              ⟨.inr List.mem_cons_self, fun other m => (covers other m).imp_right (List.mem_cons_of_mem _)⟩⟩

end Discovery

/-! ## Discovery -/

section
variable {server : TypeServer} {limits : OpcUaOperationalLimits}
  {freshEntry : Nat → String → Option (List OpcUaTypeDefinitionInfo)} {typeDefinitionIds : List String}

/-- What is discovered is right, and complete but for what is pending. -/
structure Discovered (server : TypeServer) (typeDefinitionIds : List String) (d : Discovery) (pending : List String) :
    Prop where
  infos : ∀ typeId info, d.typeInfos.get? typeId = some info → info = server.info typeId
  parents : ∀ typeId parents, d.parentsById.get? typeId = some parents →
    parents = server.supertypes typeId ∧ typeId ∈ d.typeInfos.keys ∧ server.Reaches typeDefinitionIds typeId ∧
      ∀ parent ∈ parents, d.Known parent ∨ parent ∈ pending
  chains : ∀ typeId chain, d.cachedChains.get? typeId = some chain → server.Hierarchy typeId chain
  requested : ∀ typeId ∈ typeDefinitionIds, d.Known typeId ∨ typeId ∈ pending
  pending : ∀ typeId ∈ pending, server.Reaches typeDefinitionIds typeId

theorem discovered_start (typeDefinitionIds : List String) :
    Discovered server typeDefinitionIds .start (addNew [] typeDefinitionIds) where
  infos := nofun
  parents := nofun
  chains := nofun
  requested _ m := .inr (mem_addNew.mpr (.inr m))
  pending typeId m := ⟨typeId, (mem_addNew.mp m).resolve_left List.not_mem_nil, .refl⟩

theorem Discovered.lookUp {d : Discovery} {pending : List String} (discovered : Discovered server typeDefinitionIds d pending)
    {round : Nat} (correct : ∀ typeId chain, freshEntry round typeId = some chain → server.Hierarchy typeId chain) :
    Discovered server typeDefinitionIds (d.lookUp (freshEntry round) (addNew [] pending)).1
      (d.lookUp (freshEntry round) (addNew [] pending)).2 := by
  obtain ⟨infos, parents, grows, chains, sublist, covers⟩ :=
    d.lookUp_spec (freshEntry round) (addNew [] pending)
  generalize d.lookUp (freshEntry round) (addNew [] pending) = result at *
  have later (typeId : String) (now : d.Known typeId ∨ typeId ∈ pending) :
      result.1.Known typeId ∨ typeId ∈ result.2 :=
    now.elim (fun known => .inl (grows _ known)) fun m => covers _ (mem_addNew.mpr (.inr m))
  refine ⟨?_, ?_, fun typeId chain found => ?_, fun typeId m => later _ (discovered.requested _ m), fun typeId m => ?_⟩
  · rw [infos]
    exact discovered.infos
  · rw [infos, parents]
    intro typeId found present
    obtain ⟨same, inside, reached, each⟩ := discovered.parents typeId found present
    exact ⟨same, inside, reached, fun parent m => later _ (each parent m)⟩
  · exact (chains typeId chain found).elim (discovered.chains typeId chain) (correct typeId chain)
  · exact discovered.pending typeId ((mem_addNew.mp (sublist.subset m)).resolve_left List.not_mem_nil)

/-- Reading the unresolved types makes their supertypes pending. -/
theorem Discovered.read {d : Discovery} {unresolved : List String}
    (discovered : Discovered server typeDefinitionIds d unresolved) :
    Discovered server typeDefinitionIds
      { d with
        typeInfos := d.typeInfos.update (unresolved.map fun typeId => (typeId, server.info typeId))
        parentsById := d.parentsById.update (unresolved.map fun typeId => (typeId, server.supertypes typeId)) }
      (unresolved.flatMap server.supertypes) := by
  have known (typeId : String) (now : d.Known typeId ∨ typeId ∈ unresolved) :
      Discovery.Known
        { d with
          typeInfos := d.typeInfos.update (unresolved.map fun typeId => (typeId, server.info typeId))
          parentsById := d.parentsById.update (unresolved.map fun typeId => (typeId, server.supertypes typeId)) }
        typeId := by
    unfold Discovery.Known
    rw [Dict.keys_update, List.map_map]
    simp only [Function.comp_def, List.map_id']
    rcases now with (inParents | inChains) | m
    · exact .inl (.inl inParents)
    · exact .inr inChains
    · exact .inl (.inr m)
  refine ⟨fun typeId info found => ?_, fun typeId parents found => ?_, discovered.chains,
    fun typeId m => .inl (known _ (discovered.requested _ m)), fun typeId m => ?_⟩
  · rw [Dict.get?_update_graph] at found
    split at found
    · exact (Option.some.inj found).symm
    · exact discovered.infos _ _ found
  · have inInfos (old : typeId ∈ unresolved ∨ typeId ∈ d.typeInfos.keys) :
        typeId ∈ (d.typeInfos.update (unresolved.map fun typeId => (typeId, server.info typeId))).keys := by
      rw [Dict.keys_update, List.map_map]
      simp only [Function.comp_def, List.map_id']
      exact old.symm
    rw [Dict.get?_update_graph] at found
    split at found
    · next m =>
        cases found
        exact ⟨rfl, inInfos (.inl m), discovered.pending _ m,
          fun parent edge => .inr (List.mem_flatMap.mpr ⟨typeId, m, edge⟩)⟩
    · obtain ⟨same, inside, reached, each⟩ := discovered.parents _ _ found
      exact ⟨same, inInfos (.inr inside), reached, fun parent m => .inl (known _ (each parent m))⟩
  · obtain ⟨subtype, m, edge⟩ := List.mem_flatMap.mp m
    obtain ⟨root, inside, path⟩ := discovered.pending subtype m
    exact ⟨root, inside, path.tail edge⟩

/-- The loop ends, and then nothing is pending. -/
theorem discover_spec (acyclic : server.Acyclic typeDefinitionIds)
    (correct : ∀ round typeId chain, freshEntry round typeId = some chain → server.Hierarchy typeId chain)
    {pages : Nat} (paged : ∀ typeId, server.Reaches typeDefinitionIds typeId → (server.furtherPages typeId).length ≤ pages)
    {fuel : Nat} {tree pending : List String} (unfolded : Unfolds server.supertypes pending tree)
    (enough : tree.length + pages ≤ fuel) {round : Nat} {d : Discovery}
    (discovered : Discovered server typeDefinitionIds d pending) :
    ∃ d', discover server limits freshEntry fuel round pending d = .ok d' ∧
      Discovered server typeDefinitionIds d' [] := by
  induction fuel generalizing tree pending round d with
  | zero =>
      cases unfolded with
      | nil => exact ⟨d, rfl, discovered⟩
      | cons below after => simp at enough
  | succ fuel ih =>
      cases pending with
      | nil => exact ⟨d, rfl, discovered⟩
      | cons typeId pending =>
          rw [discover]
          have looked := discovered.lookUp (correct round)
          have sublist := (d.lookUp_spec (freshEntry round) (addNew [] (typeId :: pending))).sublist
          generalize d.lookUp (freshEntry round) (addNew [] (typeId :: pending)) = result at *
          obtain ⟨d', unresolved⟩ := result
          dsimp only at looked sublist ⊢
          split
          · next none => exact ⟨d', rfl, none ▸ looked⟩
          · next some =>
              have canonical : unresolved.map server.nodeIdText = unresolved := by
                refine (List.map_congr_left fun other m => ?_).trans (List.map_id _)
                exact acyclic.canonical other (looked.pending other m)
              obtain ⟨tree', unfolded', short⟩ := unfolded.of_sublist (sublist.trans (addNew_sublist _))
              obtain ⟨tree'', unfolded'', shorter⟩ := unfolded'.level
              have positive : 0 < unresolved.length := List.length_pos_iff.mpr some
              rw [canonical, readTypeInfos_eq server (limitOrDefault_pos _) fun other m =>
                acyclic.named other (looked.pending other m)]
              dsimp only
              rw [browseReferencesDescriptions_eq server _ fun other m =>
                (paged other (looked.pending other m)).trans (by omega)]
              dsimp only
              have next := looked.read
              simp only [List.map_map, Function.comp_def, List.flatMap_map]
              exact ih unfolded'' (by omega) next

/-! ## The search -/

/-- The ids of a cached chain. -/
def Discovery.splice (d : Discovery) (typeId : String) : Option (List String) :=
  (d.cachedChains.get? typeId).map (List.map OpcUaTypeDefinitionInfo.nodeId)

theorem appendChain_info (server : TypeServer) (seen chain : List String) :
    appendChain (seen, seen.map server.info) (chain.map server.info) =
      (addNew seen chain, (addNew seen chain).map server.info) := by
  induction chain generalizing seen with
  | nil => rfl
  | cons typeId chain ih =>
      have step : appendChain (seen, seen.map server.info) ((typeId :: chain).map server.info) =
          appendChain (if typeId ∈ seen then (seen, seen.map server.info)
            else (seen ++ [typeId], seen.map server.info ++ [server.info typeId])) (chain.map server.info) := rfl
      rw [step, addNew_cons]
      split
      · exact ih seen
      · rw [← List.map_singleton, ← List.map_append]
        exact ih _

/-- The search over what was discovered is the search that splices in cached chains. -/
theorem searchHierarchy_eq {d : Discovery} (discovered : Discovered server typeDefinitionIds d []) (fuel : Nat)
    {stack : List String} (known : ∀ typeId ∈ stack, d.Known typeId) (seen : List String) :
    searchHierarchy d fuel stack (seen, seen.map server.info) =
      match spliceSearch server.supertypes d.splice fuel stack seen with
      | some found => .ok (found.map server.info)
      | none => .error .outOfFuel := by
  induction fuel generalizing stack seen with
  | zero => cases stack <;> rfl
  | succ fuel ih =>
      cases stack with
      | nil => rfl
      | cons typeId stack =>
          obtain ⟨here, rest⟩ := List.forall_mem_cons.mp known
          rw [searchHierarchy, spliceSearch]
          split
          · exact ih rest seen
          · unfold Discovery.splice
            cases cached : d.cachedChains.get? typeId with
            | some chain =>
                obtain ⟨tree, -, shape⟩ := discovered.chains typeId chain cached
                have ids : chain.map OpcUaTypeDefinitionInfo.nodeId = addNew [] tree := by
                  rw [shape, List.map_map]
                  exact List.map_id _
                dsimp only [Option.map_some]
                rw [ids, shape, appendChain_info]
                exact ih rest _
            | none =>
                have inParents : typeId ∈ d.parentsById.keys :=
                  here.resolve_right fun m => (Dict.get?_eq_none _ _).mp cached m
                obtain ⟨parents, found⟩ := (Dict.mem_keys _ _).mp inParents
                obtain ⟨same, inInfos, -, each⟩ := discovered.parents typeId parents found
                obtain ⟨info, read⟩ := (Dict.mem_keys _ _).mp inInfos
                cases discovered.infos typeId info read
                cases same
                dsimp only [Option.map_none]
                rw [read, found]
                dsimp only
                rw [← List.map_singleton, ← List.map_append]
                refine ih (fun parent m => ?_) _
                rcases List.mem_append.mp m with above | below
                · exact (each parent above).resolve_right List.not_mem_nil
                · exact rest parent below

/-! ## All hierarchies -/

/-- The hierarchy that a search for a type alone finds. -/
def TypeServer.hierarchyAlone (server : TypeServer) (fuel : Nat) (typeId : String) : List OpcUaTypeDefinitionInfo :=
  (server.searchAlone fuel typeId).getD []

theorem TypeServer.searchAlone_eq {typeId : String} {tree : List String}
    (unfolded : Unfolds server.supertypes [typeId] tree) {fuel : Nat} (enough : tree.length ≤ fuel) :
    server.searchAlone fuel typeId = some ((addNew [] tree).map server.info) := by
  rw [TypeServer.searchAlone, plainSearch_eq unfolded enough, Option.map_some]

/-- What was discovered gives every hierarchy. -/
theorem searchHierarchy_root {d : Discovery} (discovered : Discovered server typeDefinitionIds d [])
    {typeId : String} (known : d.Known typeId) {tree : List String}
    (unfolded : Unfolds server.supertypes [typeId] tree) {fuel : Nat} (enough : tree.length ≤ fuel) :
    searchHierarchy d fuel [typeId] ([], []) = .ok (server.hierarchyAlone fuel typeId) := by
  have faithful : ∀ other chain, d.splice other = some chain → ∀ inner, Unfolds server.supertypes [other] inner →
      chain = addNew [] inner := by
    intro other chain spliced inner shape
    obtain ⟨infos, cached, rfl⟩ := Option.map_eq_some_iff.mp spliced
    obtain ⟨tree', unfolded', rfl⟩ := discovered.chains other infos cached
    rw [unfolded'.unique shape, List.map_map]
    exact List.map_id _
  have all : ∀ other ∈ [typeId], d.Known other := fun other m => List.mem_singleton.mp m ▸ known
  have run := searchHierarchy_eq discovered fuel all []
  rw [spliceSearch_eq unfolded faithful enough] at run
  rw [TypeServer.hierarchyAlone, TypeServer.searchAlone_eq unfolded enough]
  exact run

theorem TypeServer.furtherPages_bounded (server : TypeServer) (typeIds : List String) :
    ∃ pages, ∀ typeId ∈ typeIds, (server.furtherPages typeId).length ≤ pages := by
  induction typeIds with
  | nil => exact ⟨0, nofun⟩
  | cons typeId typeIds ih =>
      obtain ⟨pages, bound⟩ := ih
      refine ⟨max (server.furtherPages typeId).length pages, List.forall_mem_cons.mpr ⟨Nat.le_max_left _ _, ?_⟩⟩
      exact fun other m => (bound other m).trans (Nat.le_max_right _ _)

/-- **Batched resolution ends, and answers and stores for each type what a search for
the type alone finds: the depth-first preorder of its supertypes.** -/
theorem resolveTypeDefinitionHierarchies_eq (acyclic : server.Acyclic typeDefinitionIds)
    (correct : ∀ round typeId chain, freshEntry round typeId = some chain → server.Hierarchy typeId chain) :
    ∃ enough, ∀ fuel ≥ enough, ∃ resolved,
      resolveTypeDefinitionHierarchies server limits freshEntry fuel typeDefinitionIds = .ok resolved ∧
      (∀ typeId, typeId ∈ resolved.hierarchies.keys ↔ typeId ∈ typeDefinitionIds) ∧
      (∀ typeId hierarchy, resolved.hierarchies.get? typeId = some hierarchy ∨ (typeId, hierarchy) ∈ resolved.stored →
        server.Hierarchy typeId hierarchy ∧ server.searchAlone fuel typeId = some hierarchy) := by
  obtain ⟨tree, unfolded⟩ : ∃ tree, Unfolds server.supertypes (addNew [] typeDefinitionIds) tree :=
    Unfolds.exists_of_acc fun root m => by
      have inside := (mem_addNew.mp m).resolve_left List.not_mem_nil
      exact acc_of_finite (acyclic.finite.subset fun typeId path => ⟨root, inside, path⟩)
        (fun typeId path => acyclic.acyclic typeId ⟨root, inside, path⟩) root .refl
  have inTree {typeId : String} (reached : server.Reaches typeDefinitionIds typeId) : typeId ∈ tree := by
    obtain ⟨root, m, path⟩ := reached
    induction path with
    | refl => exact unfolded.mem_of_mem (mem_addNew.mpr (.inr m))
    | tail _ edge ih => exact unfolded.mem_next ih edge
  obtain ⟨pages, paged⟩ := server.furtherPages_bounded tree
  refine ⟨tree.length + pages, fun fuel enough => ?_⟩
  obtain ⟨d, found, discovered⟩ : ∃ d, discover server limits freshEntry fuel 0 (addNew [] typeDefinitionIds) .start =
      .ok d ∧ Discovered server typeDefinitionIds d [] :=
    discover_spec acyclic correct (fun typeId reached => paged typeId (inTree reached)) unfolded enough
      (discovered_start typeDefinitionIds)
  have alone (typeId : String) (reached : server.Reaches typeDefinitionIds typeId) :
      ∃ inner, Unfolds server.supertypes [typeId] inner ∧ inner.length ≤ fuel := by
    obtain ⟨inner, shape, -, short⟩ := unfolded.part (inTree reached)
    exact ⟨inner, shape, by omega⟩
  have right (typeId : String) (reached : server.Reaches typeDefinitionIds typeId) :
      server.Hierarchy typeId (server.hierarchyAlone fuel typeId) ∧
        server.searchAlone fuel typeId = some (server.hierarchyAlone fuel typeId) := by
    obtain ⟨inner, shape, short⟩ := alone typeId reached
    have answer := TypeServer.searchAlone_eq shape short
    rw [TypeServer.hierarchyAlone, answer]
    exact ⟨⟨inner, shape, rfl⟩, rfl⟩
  have inParents {typeId : String} (m : typeId ∈ d.parentsById.keys) : server.Reaches typeDefinitionIds typeId := by
    obtain ⟨parents, present⟩ := (Dict.mem_keys _ _).mp m
    exact (discovered.parents typeId parents present).2.2.1
  have stored : storedHierarchies d fuel =
      .ok (d.parentsById.keys.map fun typeId => (typeId, server.hierarchyAlone fuel typeId)) := by
    refine mapM_ok fun typeId m => ?_
    obtain ⟨inner, shape, short⟩ := alone typeId (inParents m)
    rw [searchHierarchy_root discovered (.inl m) shape short]
    rfl
  have answered : (addNew [] typeDefinitionIds).mapM (requestedHierarchy (d.cachedChains.update
      (d.parentsById.keys.map fun typeId => (typeId, server.hierarchyAlone fuel typeId)))) =
      .ok ((addNew [] typeDefinitionIds).map fun typeId => (typeId, server.hierarchyAlone fuel typeId)) := by
    refine mapM_ok fun typeId m => ?_
    have requested := (mem_addNew.mp m).resolve_left List.not_mem_nil
    have present : (d.cachedChains.update (d.parentsById.keys.map fun typeId =>
        (typeId, server.hierarchyAlone fuel typeId))).get? typeId = some (server.hierarchyAlone fuel typeId) := by
      rw [Dict.get?_update_graph]
      split
      · rfl
      · next outside =>
          have known := (discovered.requested typeId requested).resolve_right List.not_mem_nil
          obtain ⟨chain, cached⟩ := (Dict.mem_keys _ _).mp (known.resolve_left outside)
          obtain ⟨inner, shape, rfl⟩ := discovered.chains typeId chain cached
          obtain ⟨inner', shape', short⟩ := alone typeId ⟨typeId, requested, .refl⟩
          cases shape.unique shape'
          rw [cached, TypeServer.hierarchyAlone, TypeServer.searchAlone_eq shape short, Option.getD_some]
    rw [requestedHierarchy, present]
  refine ⟨_, by
    unfold resolveTypeDefinitionHierarchies
    dsimp only
    rw [found]
    dsimp only
    rw [stored]
    dsimp only
    rw [answered], fun typeId => ?_, fun typeId hierarchy shown => ?_⟩
  · rw [Dict.ofList, Dict.keys_update, List.map_map]
    simp only [Function.comp_def, List.map_id']
    rw [mem_addNew]
    exact ⟨fun m => (m.resolve_left List.not_mem_nil).resolve_left List.not_mem_nil, fun m => .inr (.inr m)⟩
  · rcases shown with inAnswer | inStored
    · rw [Dict.ofList, Dict.get?_update_graph] at inAnswer
      split at inAnswer
      · next m =>
          cases inAnswer
          exact right typeId ⟨typeId, (mem_addNew.mp m).resolve_left List.not_mem_nil, .refl⟩
      · cases inAnswer
    · obtain ⟨other, m, same⟩ := List.mem_map.mp inStored
      cases same
      exact right typeId (inParents m)

/-- Types in an order in which supertypes come later have no cycle. -/
theorem TypeServer.acyclic_of_order (typeIds : List String) (roots : typeDefinitionIds ⊆ typeIds)
    (later : ∀ typeId ∈ typeIds, ∀ parent ∈ server.supertypes typeId,
      parent ∈ typeIds ∧ typeIds.idxOf typeId < typeIds.idxOf parent)
    (named : ∀ typeId ∈ typeIds, server.Named typeId)
    (canonical : ∀ typeId ∈ typeIds, server.nodeIdText typeId = typeId) : server.Acyclic typeDefinitionIds := by
  have inside {typeId : String} (reached : server.Reaches typeDefinitionIds typeId) : typeId ∈ typeIds := by
    obtain ⟨root, m, path⟩ := reached
    induction path with
    | refl => exact roots m
    | tail _ edge ih => exact (later _ ih _ edge).1
  refine ⟨typeIds.finite_toSet.subset fun _ => inside, fun typeId reached cycle => ?_,
    fun typeId reached => named _ (inside reached), fun typeId reached => canonical _ (inside reached)⟩
  have ascends {typeId' : String} (path : Relation.TransGen (fun subtype supertype =>
      supertype ∈ server.supertypes subtype) typeId typeId') :
      typeId' ∈ typeIds ∧ typeIds.idxOf typeId < typeIds.idxOf typeId' := by
    induction path with
    | single edge => exact later _ (inside reached) _ edge
    | tail _ edge ih => exact ⟨(later _ ih.1 _ edge).1, ih.2.trans (later _ ih.1 _ edge).2⟩
  exact Nat.lt_irrefl _ (ascends cycle).2

end

/-- Two types with a common supertype; the second supertype of the first comes with
the second page. -/
def diamond : TypeServer where
  nodeIdText := id
  browseName typeId := ⟨some typeId, "Good"⟩
  firstPage typeId := ((Dict.ofList [("A", ["B"]), ("B", ["D"]), ("C", ["D"])]).get? typeId).getD []
  furtherPages typeId := if typeId = "A" then [["C"]] else []

/-- The cache holds the common supertype. -/
def diamondEntry (_ : Nat) (typeId : String) : Option (List OpcUaTypeDefinitionInfo) :=
  if typeId = "D" then some [⟨"D", "D", none⟩] else none

theorem resolveTypeDefinitionHierarchies_diamond :
    ∃ enough, ∀ fuel ≥ enough, ∃ resolved,
      resolveTypeDefinitionHierarchies diamond ⟨some 1, none⟩ diamondEntry fuel ["A", "C"] = .ok resolved ∧
      (∀ typeId, typeId ∈ resolved.hierarchies.keys ↔ typeId ∈ ["A", "C"]) ∧
      (∀ typeId hierarchy, resolved.hierarchies.get? typeId = some hierarchy ∨ (typeId, hierarchy) ∈ resolved.stored →
        diamond.Hierarchy typeId hierarchy ∧ diamond.searchAlone fuel typeId = some hierarchy) := by
  refine resolveTypeDefinitionHierarchies_eq (TypeServer.acyclic_of_order ["A", "B", "C", "D"] (by decide)
    (by decide) (fun typeId m => ⟨typeId, rfl, ?_⟩) fun _ _ => rfl) fun round typeId chain entry => ?_
  · revert m typeId
    decide
  · unfold diamondEntry at entry
    split at entry
    · next top =>
        cases entry
        cases top
        have none : diamond.supertypes "D" = [] := rfl
        exact ⟨["D"], Unfolds.single (none ▸ .nil), rfl⟩
    · cases entry

end I3x.OpcUa

import I3xServer.OpcUa.TypeRequests
import Mathlib.Data.Set.Finite.Lattice

/-!
# Chains of reference types

The browse names of a reference type and its supertypes are found by a recursive search
that caches the chain of every type it passes. Chains are complete while no request
fails and no two types are above each other.
-/
namespace I3x.OpcUa
open Container

/-- When entries of the cache count as fresh, and which requests fail. Readings of the
clock and requests are numbered. -/
structure ChainEnvironment where
  fresh : Nat → Nat → Bool
  readFails : Nat → Bool
  browseFails : Nat → Bool

/-- The cached chains with the times of their storing, and the numbers of the next
reading of the clock and the next request. -/
structure ChainState where
  cache : Dict String (Nat × List String)
  clock : Nat
  requests : Nat

def ChainState.start : ChainState := ⟨.empty, 0, 0⟩

section
variable (server : TypeServer)

/-- The browse name of a type, unless it is empty. -/
def TypeServer.typeName (typeId : String) : Option String :=
  (server.browseName (server.nodeIdText typeId)).name.filter (· ≠ "")

/-- The supertypes that the search follows. -/
def TypeServer.followed (typeId : String) : List String :=
  (server.references (server.nodeIdText typeId)).filter (· ≠ "")

variable (env : ChainEnvironment)

/-- The fresh entry of a type; an entry that is not fresh is deleted. -/
def cachedChain (typeId : String) (s : ChainState) : Option (List String) × ChainState :=
  match s.cache.get? typeId with
  | none => (none, s)
  | some (cachedAt, names) =>
      if env.fresh s.clock cachedAt then (some names, { s with clock := s.clock + 1 })
      else (none, { s with cache := s.cache.erase typeId, clock := s.clock + 1 })

/-- The name of a type; none if the read fails. -/
def readBrowseName (typeId : String) (s : ChainState) : List String × ChainState :=
  (if env.readFails s.requests then [] else (server.typeName typeId).toList, { s with requests := s.requests + 1 })

/-- The supertypes of a type; none if the browse fails. -/
def browseSupertypes (pageFuel : Nat) (typeId : String) (s : ChainState) : Except Stop (List String × ChainState) :=
  if env.browseFails s.requests then .ok ([], { s with requests := s.requests + 1 })
  else
    (browseReferencesDescriptions server pageFuel [server.nodeIdText typeId] 1).map fun browsed =>
      ((browsed.flatMap Prod.snd).filter (· ≠ ""), { s with requests := s.requests + 1 })

def storeChain (typeId : String) (names : List String) (s : ChainState) : ChainState :=
  { s with cache := s.cache.set typeId (s.clock, names), clock := s.clock + 1 }

/-- The names of several supertypes, each resolved in turn, after those discovered. -/
def gatherChains (resolve : String → ChainState → Except Stop (List String × ChainState)) :
    List String → List String → ChainState → Except Stop (List String × ChainState)
  | [], discovered, s => .ok (discovered, s)
  | supertype :: rest, discovered, s =>
      match resolve supertype s with
      | .error stop => .error stop
      | .ok (names, s) => gatherChains resolve rest (addNew discovered names) s

/-- `_resolve_reference_type_chain`. The types in progress are those between the first
type and this one. -/
def resolveReferenceTypeChain (pageFuel : Nat) : Nat → List String → String → ChainState →
    Except Stop (List String × ChainState)
  | 0, _, _, _ => .error .outOfFuel
  | fuel + 1, inProgress, typeId, s =>
      match cachedChain env typeId s with
      | (some names, s) => .ok (names, s)
      | (none, s) =>
          if typeId ∈ inProgress then .ok ([], s)
          else
            let (own, s) := readBrowseName server env typeId s
            match browseSupertypes server env pageFuel typeId s with
            | .error stop => .error stop
            | .ok (supertypes, s) =>
                match gatherChains (resolveReferenceTypeChain pageFuel fuel (typeId :: inProgress)) supertypes own s with
                | .error stop => .error stop
                | .ok (discovered, s) => .ok (discovered, storeChain typeId discovered s)

/-- What happens to the cache: a call, or its reset with the connection. -/
inductive ChainAction where
  | resolve (typeId : String)
  | reset
  deriving DecidableEq, Repr

/-- The answers of a history, and the state behind it. -/
def runChains (fuel : Nat) : List ChainAction → ChainState → Except Stop (List (String × List String) × ChainState)
  | [], s => .ok ([], s)
  | .reset :: rest, s => runChains fuel rest { s with cache := .empty }
  | .resolve typeId :: rest, s =>
      match resolveReferenceTypeChain server env fuel fuel [] typeId s with
      | .error stop => .error stop
      | .ok (names, s) => (runChains fuel rest s).map fun result => ((typeId, names) :: result.1, result.2)

/-! ## Completeness -/

/-- One type is another or above it. -/
def TypeServer.Above : String → String → Prop :=
  Relation.ReflTransGen fun subtype supertype => supertype ∈ server.followed subtype

/-- Exactly the names of a type and of the types above it, each once. -/
structure TypeServer.Complete (typeId : String) (names : List String) : Prop where
  nodup : names.Nodup
  mem : ∀ name, name ∈ names ↔ ∃ above, server.Above typeId above ∧ server.typeName above = some name

def ChainState.Complete (s : ChainState) : Prop :=
  ∀ typeId cachedAt names, s.cache.get? typeId = some (cachedAt, names) → server.Complete typeId names

/-- Finitely many types are above one, and of these no two are above each other. -/
structure TypeServer.Untangled (typeId : String) : Prop where
  finite : {above | server.Above typeId above}.Finite
  apart : ∀ first second, server.Above typeId first → server.Above first second → server.Above second first →
    first = second

/-- No request fails. -/
structure ChainEnvironment.Unfailing : Prop where
  reads : ∀ n, env.readFails n = false
  browses : ∀ n, env.browseFails n = false

end

section
variable {server : TypeServer} {env : ChainEnvironment}

theorem TypeServer.Untangled.above {typeId above : String} (untangled : server.Untangled typeId)
    (path : server.Above typeId above) : server.Untangled above where
  finite := untangled.finite.subset fun _ further => path.trans further
  apart first second up := untangled.apart first second (path.trans up)

/-- What is above a type is the type itself, or above one of its other supertypes. -/
theorem TypeServer.above_iff {typeId above : String} :
    server.Above typeId above ↔
      above = typeId ∨ ∃ supertype ∈ server.followed typeId, supertype ≠ typeId ∧ server.Above supertype above := by
  constructor
  · intro path
    induction path using Relation.ReflTransGen.head_induction_on with
    | refl => exact .inl rfl
    | @head first second edge rest ih =>
        rcases Decidable.em (second = first) with same | other
        · exact same ▸ ih
        · exact .inr ⟨second, edge, other, rest⟩
  · rintro (rfl | ⟨supertype, edge, -, rest⟩)
    · exact .refl
    · exact .head edge rest

/-- A supertype other than the type itself has fewer types above it. -/
theorem TypeServer.Untangled.fewer {typeId supertype : String} (untangled : server.Untangled typeId)
    (edge : supertype ∈ server.followed typeId) (other : supertype ≠ typeId) :
    {above | server.Above supertype above}.ncard < {above | server.Above typeId above}.ncard := by
  refine Set.ncard_lt_ncard ⟨fun above path => .head edge path, fun same => other ?_⟩ untangled.finite
  exact (untangled.apart typeId supertype .refl (.single edge) (same .refl)).symm

theorem cachedChain_complete (env : ChainEnvironment) {s : ChainState} (complete : s.Complete server) (typeId : String) :
    (cachedChain env typeId s).2.Complete server ∧
      ∀ names, (cachedChain env typeId s).1 = some names → server.Complete typeId names := by
  unfold cachedChain
  split
  · exact ⟨complete, nofun⟩
  · next cachedAt names found =>
      split
      · refine ⟨complete, fun names' same => ?_⟩
        cases same
        exact complete typeId cachedAt names found
      · refine ⟨fun other at' names' present => complete other at' names' ?_, nofun⟩
        rw [Dict.get?_erase] at present
        split at present
        · cases present
        · exact present

theorem storeChain_complete {s : ChainState} (complete : s.Complete server) {typeId : String} {names : List String}
    (new : server.Complete typeId names) : (storeChain typeId names s).Complete server := by
  intro other cachedAt names' present
  unfold storeChain at present
  rw [Dict.get?_set] at present
  split at present
  · next same =>
      cases present
      exact same ▸ new
  · exact complete other cachedAt names' present

/-- What a call gives: names of the type only, and all of them unless it is in progress. -/
structure Resolved (server : TypeServer) (inProgress : List String) (typeId : String) (names : List String)
    (s : ChainState) : Prop where
  complete : s.Complete server
  nodup : names.Nodup
  sound : ∀ name ∈ names, ∃ above, server.Above typeId above ∧ server.typeName above = some name
  whole : typeId ∉ inProgress → server.Complete typeId names

theorem Resolved.of_complete {inProgress : List String} {typeId : String} {names : List String} {s : ChainState}
    (complete : s.Complete server) (whole : server.Complete typeId names) : Resolved server inProgress typeId names s :=
  ⟨complete, whole.nodup, fun name m => (whole.mem name).mp m, fun _ => whole⟩

/-- The supertypes are gathered one after the other. -/
theorem gatherChains_spec {inProgress : List String} {typeId : String}
    {resolve : String → ChainState → Except Stop (List String × ChainState)} {supertypes : List String}
    (above : ∀ supertype ∈ supertypes, server.Above typeId supertype)
    (each : ∀ supertype ∈ supertypes, ∀ s : ChainState, s.Complete server →
      ∃ names s', resolve supertype s = .ok (names, s') ∧ Resolved server inProgress supertype names s')
    {discovered : List String} (nodup : discovered.Nodup)
    (sound : ∀ name ∈ discovered, ∃ above, server.Above typeId above ∧ server.typeName above = some name)
    {s : ChainState} (complete : s.Complete server) :
    ∃ names s', gatherChains resolve supertypes discovered s = .ok (names, s') ∧ s'.Complete server ∧ names.Nodup ∧
      (∀ name ∈ names, ∃ above, server.Above typeId above ∧ server.typeName above = some name) ∧
      discovered ⊆ names ∧
      ∀ supertype ∈ supertypes, supertype ∉ inProgress → ∀ above name, server.Above supertype above →
        server.typeName above = some name → name ∈ names := by
  induction supertypes generalizing discovered s with
  | nil => exact ⟨discovered, s, rfl, complete, nodup, sound, List.Subset.refl _, nofun⟩
  | cons supertype rest ih =>
      obtain ⟨names, s', answer, resolved⟩ := each supertype List.mem_cons_self s complete
      have sound' : ∀ name ∈ addNew discovered names,
          ∃ above, server.Above typeId above ∧ server.typeName above = some name := by
        intro name m
        rcases mem_addNew.mp m with old | new
        · exact sound name old
        · obtain ⟨further, path, named⟩ := resolved.sound name new
          exact ⟨further, (above supertype List.mem_cons_self).trans path, named⟩
      obtain ⟨names', s'', answer', complete', nodup', sound'', kept, covered⟩ :=
        ih (fun other m => above other (List.mem_cons_of_mem _ m)) (fun other m => each other (List.mem_cons_of_mem _ m))
          (addNew_nodup nodup names) sound' resolved.complete
      refine ⟨names', s'', ?_, complete', nodup', sound'', fun name m => kept (mem_addNew.mpr (.inl m)),
        List.forall_mem_cons.mpr ⟨fun outside further name path named => ?_, covered⟩⟩
      · rw [gatherChains, answer]
        exact answer'
      · exact kept (mem_addNew.mpr (.inr (((resolved.whole outside).mem name).mpr ⟨further, path, named⟩)))

theorem browseSupertypes_eq (unfailing : env.Unfailing) {pageFuel : Nat} {typeId : String} {s : ChainState}
    (paged : (server.furtherPages (server.nodeIdText typeId)).length ≤ pageFuel) :
    browseSupertypes server env pageFuel typeId s =
      .ok (server.followed typeId, { s with requests := s.requests + 1 }) := by
  rw [browseSupertypes, unfailing.browses, if_neg Bool.false_ne_true,
    browseReferencesDescriptions_eq server 1 fun node m => List.mem_singleton.mp m ▸ paged]
  simp only [Except.map, List.map_singleton, List.flatMap_singleton, TypeServer.followed]

/-- A call answers with the complete chain, and leaves complete chains only. -/
theorem resolveReferenceTypeChain_spec (unfailing : env.Unfailing) {pageFuel : Nat} {fuel : Nat}
    {inProgress : List String} {typeId : String} (untangled : server.Untangled typeId)
    (paged : ∀ above, server.Above typeId above → (server.furtherPages (server.nodeIdText above)).length ≤ pageFuel)
    (below : ∀ lower ∈ inProgress, server.Above lower typeId)
    (enough : {above | server.Above typeId above}.ncard < fuel ∨ typeId ∈ inProgress ∧ 0 < fuel)
    {s : ChainState} (complete : s.Complete server) :
    ∃ names s', resolveReferenceTypeChain server env pageFuel fuel inProgress typeId s = .ok (names, s') ∧
      Resolved server inProgress typeId names s' := by
  induction fuel generalizing inProgress typeId s with
  | zero => omega
  | succ fuel ih =>
      rw [resolveReferenceTypeChain]
      obtain ⟨complete', hit⟩ := cachedChain_complete env complete typeId
      cases looked : cachedChain env typeId s with
      | mk entry s' =>
          rw [looked] at complete' hit
          cases entry with
          | some names => exact ⟨names, s', rfl, .of_complete complete' (hit names rfl)⟩
          | none =>
              dsimp only
              split
              · next within => exact ⟨[], s', rfl, complete', List.nodup_nil, nofun, fun outside => absurd within outside⟩
              · next outside =>
                  have size : {above | server.Above typeId above}.ncard < fuel + 1 :=
                    enough.resolve_right fun within => outside within.1
                  have positive : 0 < {above | server.Above typeId above}.ncard :=
                    (Set.ncard_pos untangled.finite).mpr ⟨typeId, .refl⟩
                  -- A supertype in progress would be above and below the type.
                  have new {supertype : String} (edge : supertype ∈ server.followed typeId) (other : supertype ≠ typeId) :
                      supertype ∉ typeId :: inProgress := by
                    intro m
                    have lower := (List.mem_cons.mp m).resolve_left other
                    exact other (untangled.apart supertype typeId (.single edge) (below supertype lower) (.single edge))
                  have each : ∀ supertype ∈ server.followed typeId, ∀ s : ChainState, s.Complete server →
                      ∃ names s', resolveReferenceTypeChain server env pageFuel fuel (typeId :: inProgress) supertype s =
                        .ok (names, s') ∧ Resolved server (typeId :: inProgress) supertype names s' := by
                    intro supertype edge s complete
                    have step : server.Above typeId supertype := .single edge
                    refine ih (untangled.above step) (fun above path => paged above (step.trans path))
                      (List.forall_mem_cons.mpr ⟨step, fun lower m => (below lower m).trans step⟩) ?_ complete
                    rcases Decidable.em (supertype = typeId) with same | other
                    · exact .inr ⟨List.mem_cons.mpr (.inl same), by omega⟩
                    · have fewer := untangled.fewer edge other
                      exact .inl (by omega)
                  simp only [readBrowseName, unfailing.reads, Bool.false_eq_true, if_false]
                  rw [browseSupertypes_eq unfailing (paged typeId .refl)]
                  dsimp only
                  obtain ⟨names, s'', answer, complete'', nodup, sound, own, covered⟩ := gatherChains_spec
                    (fun supertype edge => .single edge) each
                    (show (server.typeName typeId).toList.Nodup by cases server.typeName typeId <;> simp)
                    (fun name m => ⟨typeId, .refl, Option.mem_toList.mp m⟩)
                    (s := { s' with requests := s'.requests + 2 }) complete'
                  have whole : server.Complete typeId names := by
                    refine ⟨nodup, fun name => ⟨sound name, fun ⟨above, path, named⟩ => ?_⟩⟩
                    rcases TypeServer.above_iff.mp path with rfl | ⟨supertype, edge, other, rest⟩
                    · exact own (Option.mem_toList.mpr named)
                    · exact covered supertype edge (new edge other) above name rest named
                  rw [answer]
                  exact ⟨names, _, rfl, .of_complete (storeChain_complete complete'' whole) whole⟩

/-- Steps that suffice for a type. -/
def TypeServer.Enough (server : TypeServer) (typeId : String) (fuel : Nat) : Prop :=
  {above | server.Above typeId above}.ncard < fuel ∧
    ∀ above, server.Above typeId above → (server.furtherPages (server.nodeIdText above)).length ≤ fuel

theorem TypeServer.Untangled.enough {typeId : String} (untangled : server.Untangled typeId) :
    ∃ enough, ∀ fuel ≥ enough, server.Enough typeId fuel := by
  obtain ⟨pages, bound⟩ :=
    (untangled.finite.image fun above => (server.furtherPages (server.nodeIdText above)).length).bddAbove
  refine ⟨{above | server.Above typeId above}.ncard + 1 + pages, fun fuel more => ⟨by omega, fun above path => ?_⟩⟩
  exact (bound ⟨above, path, rfl⟩).trans (by omega)

theorem exists_enough {history : List ChainAction}
    (untangled : ∀ typeId, .resolve typeId ∈ history → server.Untangled typeId) :
    ∃ enough, ∀ fuel ≥ enough, ∀ typeId, .resolve typeId ∈ history → server.Enough typeId fuel := by
  induction history with
  | nil => exact ⟨0, fun _ _ _ m => by cases m⟩
  | cons action rest ih =>
      obtain ⟨later, rests⟩ := ih fun typeId m => untangled typeId (List.mem_cons_of_mem _ m)
      cases action with
      | reset =>
          refine ⟨later, fun fuel more typeId m => rests fuel more typeId ?_⟩
          exact (List.mem_cons.mp m).resolve_left nofun
      | resolve typeId =>
          obtain ⟨first, here⟩ := (untangled typeId List.mem_cons_self).enough
          refine ⟨max first later, fun fuel more other m => ?_⟩
          rcases List.mem_cons.mp m with same | after
          · cases same
            exact here fuel (by omega)
          · exact rests fuel (by omega) other after

/-- **In every history without failing requests, of types of which no two are above
each other, every answer and every cached chain is complete.** -/
theorem runChains_complete (unfailing : env.Unfailing) (history : List ChainAction)
    (untangled : ∀ typeId, .resolve typeId ∈ history → server.Untangled typeId) :
    ∃ enough, ∀ fuel ≥ enough, ∃ answers s, runChains server env fuel history .start = .ok (answers, s) ∧
      (∀ answer ∈ answers, server.Complete answer.1 answer.2) ∧ s.Complete server := by
  obtain ⟨enough, all⟩ := exists_enough untangled
  refine ⟨enough, fun fuel more => ?_⟩
  have each := all fuel more
  clear all more
  have start : ChainState.start.Complete server := nofun
  generalize ChainState.start = s at start
  induction history generalizing s with
  | nil => exact ⟨[], s, rfl, nofun, start⟩
  | cons action rest ih =>
      have later := ih (fun typeId m => untangled typeId (List.mem_cons_of_mem _ m))
        (fun typeId m => each typeId (List.mem_cons_of_mem _ m))
      cases action with
      | reset => exact later { s with cache := .empty } nofun
      | resolve typeId =>
          obtain ⟨steps, paged⟩ := each typeId List.mem_cons_self
          obtain ⟨names, s', answer, resolved⟩ := resolveReferenceTypeChain_spec unfailing
            (untangled typeId List.mem_cons_self) paged (show ∀ lower ∈ [], server.Above lower typeId from nofun)
            (.inl steps) start
          obtain ⟨answers, s'', others, complete, final⟩ := later s' resolved.complete
          refine ⟨(typeId, names) :: answers, s'', ?_,
            List.forall_mem_cons.mpr ⟨resolved.whole List.not_mem_nil, complete⟩, final⟩
          rw [runChains, answer]
          dsimp only
          rw [others]
          rfl

end

/-- Every entry is fresh, and no request fails. -/
def steadyEnvironment : ChainEnvironment := ⟨fun _ _ => true, fun _ => false, fun _ => false⟩

/-- A type with a supertype of its own. -/
def layered : TypeServer where
  nodeIdText := id
  browseName typeId := ⟨some typeId, "Good"⟩
  firstPage typeId := if typeId = "A" then ["B"] else []
  furtherPages _ := []

theorem layered_untangled (typeId : String) : layered.Untangled typeId := by
  have edge {subtype supertype : String} (m : supertype ∈ layered.followed subtype) :
      subtype = "A" ∧ supertype = "B" := by
    simp only [TypeServer.followed, TypeServer.references, layered, List.flatten_nil, List.append_nil, id] at m
    split at m
    · next bottom => exact ⟨bottom, List.mem_singleton.mp (List.mem_filter.mp m).1⟩
    · cases m
  have ends {first second : String} (path : layered.Above first second) :
      second = first ∨ first = "A" ∧ second = "B" := by
    induction path with
    | refl => exact .inl rfl
    | tail _ step ih =>
        obtain ⟨rfl, rfl⟩ := edge step
        exact .inr ⟨ih.elim Eq.symm And.left, rfl⟩
  refine ⟨(Set.toFinite {typeId, "B"}).subset fun above path => ?_, fun first second _ up down => ?_⟩
  · exact (ends path).imp id And.right
  · rcases ends up with same | ⟨rfl, rfl⟩
    · exact same.symm
    · rcases ends down with same | ⟨other, _⟩
      · exact same
      · exact absurd other (by decide)

theorem runChains_layered :
    ∃ enough, ∀ fuel ≥ enough, ∃ answers s,
      runChains layered steadyEnvironment fuel [.resolve "A", .resolve "B", .reset, .resolve "A"] .start = .ok (answers, s) ∧
      (∀ answer ∈ answers, layered.Complete answer.1 answer.2) ∧ s.Complete layered :=
  runChains_complete ⟨fun _ => rfl, fun _ => rfl⟩ _ fun typeId _ => layered_untangled typeId

/-- Two types that are supertypes of each other. -/
def circular : TypeServer where
  nodeIdText := id
  browseName typeId := ⟨some typeId, "Good"⟩
  firstPage typeId := if typeId = "A" then ["B"] else ["A"]
  furtherPages _ := []

/-- **After a call for the first type, the chain of the second lacks the first.** -/
theorem circular_not_complete :
    (runChains circular steadyEnvironment 5 [.resolve "A", .resolve "B"] .start).map Prod.fst =
      .ok [("A", ["A", "B"]), ("B", ["B"])] ∧ ¬ circular.Complete "B" ["B"] := by
  refine ⟨rfl, fun complete => ?_⟩
  have edge : "A" ∈ circular.followed "B" := by decide
  have inside := (complete.mem "A").mpr ⟨"A", .single edge, rfl⟩
  exact absurd inside (by decide)

end I3x.OpcUa

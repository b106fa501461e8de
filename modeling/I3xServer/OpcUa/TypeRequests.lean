import I3xServer.Container.Batch
import I3xServer.Container.DepthFirst
import I3xServer.Model.References
import I3xServer.OpcUa.ReadValues

/-!
# Requests about types

Names and supertypes are requested in batches, and a browse goes on while the server
returns continuation points. The answers do not depend on where the batches and the
pages end.
-/
namespace I3x.OpcUa
open Container

/-- The value read for a browse name: a name, unless the status is bad or the value is
no qualified name. -/
structure BrowseNameValue where
  name : Option String
  statusCode : String

/-- What the client library and the server answer about types. The inverse HasSubtype
references of a node come in pages; there is a continuation point while pages follow. -/
structure TypeServer where
  nodeIdText : String → String
  browseName : String → BrowseNameValue
  firstPage : String → List String
  furtherPages : String → List (List String)

structure OpcUaOperationalLimits where
  maxNodesPerBrowse : Option Nat
  maxNodesPerRead : Option Nat

/-- `limit or 128`. -/
def limitOrDefault : Option Nat → Nat
  | none | some 0 => 128
  | some limit => limit

/-- Why a run does not answer: it raised an exception, or was followed for too few steps. -/
inductive Stop where
  | raised (message : String)
  | outOfFuel
  deriving DecidableEq, Repr

/-- A node whose browse has not ended while pages are left. -/
structure BrowseEntry where
  node : String
  refs : List String
  pages : List (List String)

variable (server : TypeServer)

def browse (node : String) : BrowseEntry := ⟨node, server.firstPage node, server.furtherPages node⟩

/-- What `BrowseNext` adds to a node with a continuation point. -/
def BrowseEntry.next (entry : BrowseEntry) : BrowseEntry :=
  match entry.pages with
  | [] => entry
  | page :: pages => ⟨entry.node, entry.refs ++ page, pages⟩

def browseNextLoop : Nat → List BrowseEntry → Except Stop (List BrowseEntry)
  | fuel, entries =>
      if entries.all fun entry => entry.pages.isEmpty then .ok entries
      else
        match fuel with
        | 0 => .error .outOfFuel
        | fuel + 1 => browseNextLoop fuel (entries.map BrowseEntry.next)

/-- `_browse_references_descriptions`: every node with its references. -/
def browseReferencesDescriptions (fuel : Nat) (nodes : List String) (maxNodesPerBrowse : Nat) :
    Except Stop (List (String × List String)) :=
  ((chunked nodes (max 1 maxNodesPerBrowse)).mapM fun batch => browseNextLoop fuel (batch.map (browse server))).map
    fun batches => batches.flatten.map fun entry => (entry.node, entry.refs)

/-- The name of one type; without one, the message that is raised. -/
def readTypeInfo (node : String) : Except Stop OpcUaTypeDefinitionInfo :=
  let refusal := "Cannot resolve type BrowseName for " ++ node ++ ": " ++ (server.browseName node).statusCode
  match (server.browseName node).name with
  | some name => if name = "" then .error (.raised refusal) else .ok ⟨node, name, none⟩
  | none => .error (.raised refusal)

def readTypeInfos (nodes : List String) (maxNodesPerRead : Nat) : Except Stop (List OpcUaTypeDefinitionInfo) :=
  ((chunked nodes maxNodesPerRead).mapM fun batch : List String => batch.mapM (readTypeInfo server)).map List.flatten

/-- All references of a node. -/
def TypeServer.references (typeId : String) : List String :=
  server.firstPage typeId ++ (server.furtherPages typeId).flatten

/-- The supertypes of a type, each once, in the order of the browse. -/
def TypeServer.supertypes (typeId : String) : List String := addNew [] (server.references typeId)

/-- What is recorded of a type that has a name. -/
def TypeServer.info (typeId : String) : OpcUaTypeDefinitionInfo :=
  ⟨typeId, (server.browseName typeId).name.getD "", none⟩

/-- A type's name is read, and it is not empty. -/
def TypeServer.Named (typeId : String) : Prop :=
  ∃ name, (server.browseName typeId).name = some name ∧ name ≠ ""

/-! ## Batches and pages do not matter -/

theorem limitOrDefault_pos (limit : Option Nat) : 0 < limitOrDefault limit := by
  cases limit with
  | none => decide
  | some limit => cases limit <;> simp [limitOrDefault]

theorem chunked_flatten (nodes : List String) {size : Nat} (positive : 0 < size) :
    (chunked nodes size).flatten = nodes := flatten_chunkedFrom positive _ nodes (Nat.le_refl _)

theorem mem_of_mem_chunked {nodes batch : List String} {size : Nat} (positive : 0 < size)
    (m : batch ∈ chunked nodes size) : batch ⊆ nodes := by
  intro node n
  rw [← chunked_flatten nodes positive]
  exact List.mem_flatten.mpr ⟨batch, m, n⟩

/-- The references of an entry when its browse has ended. -/
def BrowseEntry.all (entry : BrowseEntry) : List String := entry.refs ++ entry.pages.flatten

theorem BrowseEntry.next_all (entry : BrowseEntry) : entry.next.all = entry.all := by
  unfold next
  split
  · rfl
  · next page pages shape => simp only [all, shape, List.flatten_cons, List.append_assoc]

theorem BrowseEntry.next_node (entry : BrowseEntry) : entry.next.node = entry.node := by
  unfold next
  split <;> rfl

theorem BrowseEntry.next_pages (entry : BrowseEntry) : entry.next.pages.length = entry.pages.length - 1 := by
  unfold next
  split
  · next shape => rw [shape]; rfl
  · next page pages shape => rw [shape]; rfl

theorem browseNextLoop_eq {fuel : Nat} {entries : List BrowseEntry}
    (enough : ∀ entry ∈ entries, entry.pages.length ≤ fuel) :
    browseNextLoop fuel entries = .ok (entries.map fun entry => ⟨entry.node, entry.all, []⟩) := by
  have ended {entries : List BrowseEntry} (done : ∀ entry ∈ entries, entry.pages = []) :
      entries = entries.map fun entry => ⟨entry.node, entry.all, []⟩ := by
    have same (entry : BrowseEntry) (last : entry.pages = []) : entry = ⟨entry.node, entry.all, []⟩ := by
      obtain ⟨node, refs, pages⟩ := entry
      cases last
      simp only [BrowseEntry.all, List.flatten_nil, List.append_nil]
    induction entries with
    | nil => rfl
    | cons entry entries ih =>
        rw [List.map_cons, ← same entry (done entry List.mem_cons_self),
          ← ih fun other m => done other (List.mem_cons_of_mem _ m)]
  induction fuel generalizing entries with
  | zero =>
      have done : ∀ entry ∈ entries, entry.pages = [] := fun entry m =>
        List.length_eq_zero_iff.mp (Nat.le_zero.mp (enough entry m))
      rw [browseNextLoop, if_pos (List.all_eq_true.mpr fun entry m => List.isEmpty_iff.mpr (done entry m)), ← ended done]
  | succ fuel ih =>
      rw [browseNextLoop]
      split
      · next done =>
          rw [← ended fun entry m => List.isEmpty_iff.mp (List.all_eq_true.mp done entry m)]
      · rw [ih, List.map_map]
        · simp only [Function.comp_def, BrowseEntry.next_all, BrowseEntry.next_node]
        · intro entry m
          obtain ⟨before, n, rfl⟩ := List.mem_map.mp m
          rw [before.next_pages]
          exact Nat.sub_le_of_le_add (enough before n)

/-- Every node is answered with all its references. -/
theorem browseReferencesDescriptions_eq {fuel : Nat} {nodes : List String} (maxNodesPerBrowse : Nat)
    (enough : ∀ node ∈ nodes, (server.furtherPages node).length ≤ fuel) :
    browseReferencesDescriptions server fuel nodes maxNodesPerBrowse =
      .ok (nodes.map fun node => (node, server.references node)) := by
  have positive : 0 < max 1 maxNodesPerBrowse := by omega
  have batches : (chunked nodes (max 1 maxNodesPerBrowse)).mapM
      (fun batch => browseNextLoop fuel (batch.map (browse server))) =
      .ok ((chunked nodes (max 1 maxNodesPerBrowse)).map fun batch =>
        batch.map fun node => ⟨node, server.references node, []⟩) := by
    refine mapM_ok fun batch m => ?_
    rw [browseNextLoop_eq, List.map_map]
    · rfl
    · intro entry n
      obtain ⟨node, inside, rfl⟩ := List.mem_map.mp n
      exact enough node (mem_of_mem_chunked positive m inside)
  rw [browseReferencesDescriptions, batches]
  simp only [Except.map, ← List.map_flatten, chunked_flatten nodes positive, List.map_map]
  rfl

theorem readTypeInfo_eq {node : String} (named : server.Named node) : readTypeInfo server node = .ok (server.info node) := by
  obtain ⟨name, read, filled⟩ := named
  simp only [readTypeInfo, TypeServer.info, read, if_neg filled, Option.getD_some]

/-- Every node is answered with its name. -/
theorem readTypeInfos_eq {nodes : List String} {maxNodesPerRead : Nat} (positive : 0 < maxNodesPerRead)
    (named : ∀ node ∈ nodes, server.Named node) :
    readTypeInfos server nodes maxNodesPerRead = .ok (nodes.map server.info) := by
  have batches : (chunked nodes maxNodesPerRead).mapM (fun batch : List String => batch.mapM (readTypeInfo server)) =
      .ok ((chunked nodes maxNodesPerRead).map fun batch => batch.map server.info) := by
    refine mapM_ok fun batch m => mapM_ok fun node n => readTypeInfo_eq server ?_
    exact named node (mem_of_mem_chunked positive m n)
  rw [readTypeInfos, batches]
  change Except.ok _ = _
  rw [← List.map_flatten, chunked_flatten nodes positive]

end I3x.OpcUa

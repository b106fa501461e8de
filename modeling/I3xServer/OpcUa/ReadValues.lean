import Mathlib.Data.List.Forall2
import Mathlib.Tactic.Common

/-!
# Reading the values of many nodes

`readValues` splits the requested ids into chunks, reads every chunk in one
call, and halves a chunk whose call fails until single nodes are left. The
client library is a port with a state, so that its calls may fail in any
pattern.
-/
namespace I3x.OpcUa

/-- The client library, as far as reads go. `none` as a value is a null value. -/
structure ReadPort (N V F σ : Type) where
  getNode : String → Except F N
  readValues : List N → σ → Except F (List (Option V)) × σ
  shouldRetryAfterDisconnect : F → Bool
  waitForReconnect : F → σ → Except F Unit × σ

variable {N V F σ : Type}

def getNodes (port : ReadPort N V F σ) (nodeIds : List String) : Except F (List N) :=
  nodeIds.mapM port.getNode

/-- The batch call with its one retry after a lost connection. The outer result
is an exception that leaves the batch function; the inner one is the failure
that the fallback handles. -/
def attemptBatch (port : ReadPort N V F σ) (nodeIds : List String) (nodes : List N) (s : σ) :
    Except F (Except F (List (Option V))) × σ :=
  match port.readValues nodes s with
  | (.ok values, s) => (.ok (.ok values), s)
  | (.error failure, s) =>
      if port.shouldRetryAfterDisconnect failure then
        match port.waitForReconnect failure s with
        | (.error gone, s) => (.error gone, s)
        | (.ok (), s) =>
            match getNodes port nodeIds with
            | .error bad => (.error bad, s)
            | .ok retryNodes =>
                match port.readValues retryNodes s with
                | (.ok values, s) => (.ok (.ok values), s)
                | (.error again, s) => (.ok (.error again), s)
      else (.ok (.error failure), s)

def readValuesBatchWithFallback (port : ReadPort N V F σ) (nodeIds : List String) (s : σ) :
    Except F (List (Option V)) × σ :=
  if nodeIds = [] then (.ok [], s)
  else
    match getNodes port nodeIds with
    | .error bad => (.error bad, s)
    | .ok nodes =>
        match attemptBatch port nodeIds nodes s with
        | (.error gone, s) => (.error gone, s)
        | (.ok (.ok values), s) => (.ok values, s)
        | (.ok (.error _), s) =>
            if nodeIds.length ≤ 1 then (.ok [none], s)
            else
              let splitAt := max 1 (nodeIds.length / 2)
              match readValuesBatchWithFallback port (nodeIds.take splitAt) s with
              | (.error bad, s) => (.error bad, s)
              | (.ok left, s) =>
                  match readValuesBatchWithFallback port (nodeIds.drop splitAt) s with
                  | (.error bad, s) => (.error bad, s)
                  | (.ok right, s) => (.ok (left ++ right), s)
termination_by nodeIds.length
decreasing_by
  · simp only [List.length_take]; omega
  · simp only [List.length_drop]; omega

/-- `values[idx : idx + size]` for every multiple `idx` of the size; the fuel
counts the chunks still possible. -/
def chunkedFrom (size : Nat) : Nat → List String → List (List String)
  | 0, _ => []
  | _ + 1, [] => []
  | fuel + 1, ids => ids.take size :: chunkedFrom size fuel (ids.drop size)

def chunked (ids : List String) (size : Nat) : List (List String) := chunkedFrom size ids.length ids

def readChunks (port : ReadPort N V F σ) : List (List String) → σ → Except F (List (Option V)) × σ
  | [], s => (.ok [], s)
  | batch :: batches, s =>
      match readValuesBatchWithFallback port batch s with
      | (.error bad, s) => (.error bad, s)
      | (.ok values, s) =>
          match readChunks port batches s with
          | (.error bad, s) => (.error bad, s)
          | (.ok rest, s) => (.ok (values ++ rest), s)

/-- `limits.max_nodes_per_read or len(node_ids)`, clamped to the number of ids. -/
def batchSize (maxNodesPerRead : Option Nat) (count : Nat) : Nat :=
  let maxNodes :=
    match maxNodesPerRead with
    | none => count
    | some limit => if limit = 0 then count else limit
  max 1 (min maxNodes count)

def readValues (port : ReadPort N V F σ) (maxNodesPerRead : Option Nat) (nodeIds : List String) (s : σ) :
    Except F (List (Option V)) × σ :=
  if nodeIds = [] then (.ok [], s)
  else readChunks port (chunked nodeIds (batchSize maxNodesPerRead nodeIds.length)) s

/-- The values that one cycle of the shared polling loop hands to the fan-out. -/
def pollCycle (port : ReadPort N V F σ) (maxNodesPerRead : Option Nat) (nodeIds : List String) (s : σ) :
    List (String × Option V) × σ :=
  if nodeIds = [] then ([], s)
  else
    match readValues port maxNodesPerRead nodeIds s with
    | (.error _, s) => ([], s)
    | (.ok values, s) => (nodeIds.zip values, s)

/-! ## Isolation -/

/-- A value for a readable node, a null value for any other. -/
def Answers (Readable : N → Prop) (IsValue : N → V → Prop) (node : N) : Option V → Prop
  | some x => Readable node ∧ IsValue node x
  | none => ¬ Readable node

/-- The library's documented behaviour on one connection: a batch read returns
one value per node in order or raises, it reads a node that is readable on its
own, and no failure is a lost connection. -/
structure Serving (port : ReadPort N V F σ) (Readable : N → Prop) (IsValue : N → V → Prop) : Prop where
  ordered : ∀ nodes s values, (port.readValues nodes s).1 = .ok values →
    List.Forall₂ (Answers Readable IsValue) nodes values
  alone : ∀ node s, Readable node → ∃ values, (port.readValues [node] s).1 = .ok values
  connected : ∀ nodes s failure, (port.readValues nodes s).1 = .error failure →
    port.shouldRetryAfterDisconnect failure = false

section
variable (port : ReadPort N V F σ) (Readable : N → Prop) (IsValue : N → V → Prop)

/-- The entry for one id: the server's value if the id names a node that is
readable on its own, a null value otherwise. -/
def EntryOf (nodeId : String) (value : Option V) : Prop :=
  (∀ node, port.getNode nodeId = .ok node → Readable node → ∃ x, value = some x ∧ IsValue node x) ∧
  ((∀ node, port.getNode nodeId = .ok node → ¬ Readable node) → value = none)

def Isolated (nodeIds : List String) (result : Except F (List (Option V))) : Prop :=
  ∃ values, result = .ok values ∧ List.Forall₂ (EntryOf port Readable IsValue) nodeIds values

def Parsable (nodeId : String) : Prop := ∃ node, port.getNode nodeId = .ok node

variable {port Readable IsValue}

theorem getNodes_error {nodeIds : List String} {nodeId : String} (m : nodeId ∈ nodeIds)
    (bad : ¬ Parsable port nodeId) : ∃ failure, getNodes port nodeIds = .error failure := by
  induction nodeIds with
  | nil => cases m
  | cons first rest ih =>
      simp only [getNodes, List.mapM_cons]
      cases head : port.getNode first with
      | error failure => exact ⟨failure, rfl⟩
      | ok node =>
          rcases List.mem_cons.mp m with rfl | later
          · exact absurd ⟨node, head⟩ bad
          · obtain ⟨failure, same⟩ := ih later
            exact ⟨failure, by
              rw [show List.mapM port.getNode rest = .error failure from same]; rfl⟩

theorem getNodes_ok {nodeIds : List String} (parsable : ∀ id ∈ nodeIds, Parsable port id) :
    ∃ nodes, getNodes port nodeIds = .ok nodes ∧
      List.Forall₂ (fun id node => port.getNode id = .ok node) nodeIds nodes := by
  induction nodeIds with
  | nil => exact ⟨[], rfl, .nil⟩
  | cons first rest ih =>
      obtain ⟨node, head⟩ := parsable first List.mem_cons_self
      obtain ⟨nodes, tail, rel⟩ := ih fun id m => parsable id (List.mem_cons_of_mem _ m)
      refine ⟨node :: nodes, ?_, .cons head rel⟩
      simp only [getNodes, List.mapM_cons, head]
      rw [show List.mapM port.getNode rest = .ok nodes from tail]
      rfl

theorem Serving.attempt (serving : Serving port Readable IsValue) (nodeIds : List String)
    (nodes : List N) (s : σ) :
    (attemptBatch port nodeIds nodes s).1 = .ok (port.readValues nodes s).1 := by
  unfold attemptBatch
  cases call : port.readValues nodes s with
  | mk result after =>
      cases result with
      | ok values => rfl
      | error failure =>
          have quiet := serving.connected nodes s failure (by rw [call])
          simp only [quiet, Bool.false_eq_true, if_false]

/-- The values of a successful call are the entries of the ids it was made for. -/
theorem Serving.entries (serving : Serving port Readable IsValue) {nodeIds : List String}
    {nodes : List N} {s : σ} {values : List (Option V)}
    (parsed : List.Forall₂ (fun id node => port.getNode id = .ok node) nodeIds nodes)
    (answered : (port.readValues nodes s).1 = .ok values) :
    List.Forall₂ (EntryOf port Readable IsValue) nodeIds values := by
  have honest := serving.ordered nodes s values answered
  clear answered
  induction parsed generalizing values with
  | nil => cases honest; exact .nil
  | cons head _ ih =>
      cases honest with
      | @cons _ value _ _ answer rest =>
          refine .cons ⟨fun node same readable => ?_, fun unreadable => ?_⟩ (ih rest)
          · cases head.symm.trans same
            cases value with
            | none => exact absurd readable answer
            | some x => exact ⟨x, rfl, answer.2⟩
          · cases value with
            | none => rfl
            | some x => exact absurd answer.1 (unreadable _ head)

/-- Halving isolates every unreadable node of a chunk whose ids all parse. -/
theorem batch_isolated (serving : Serving port Readable IsValue) (nodeIds : List String) (s : σ)
    (parsable : ∀ id ∈ nodeIds, Parsable port id) :
    Isolated port Readable IsValue nodeIds (readValuesBatchWithFallback port nodeIds s).1 := by
  induction count : nodeIds.length using Nat.strongRecOn generalizing nodeIds s with
  | ind count ih =>
      rw [readValuesBatchWithFallback]
      by_cases empty : nodeIds = []
      · subst empty
        exact ⟨[], rfl, .nil⟩
      rw [if_neg empty]
      obtain ⟨nodes, got, parsed⟩ := getNodes_ok parsable
      have attempted := serving.attempt nodeIds nodes s
      rw [got]
      dsimp only
      cases call : attemptBatch port nodeIds nodes s with
      | mk outcome after =>
          rw [call] at attempted
          cases attempted
          cases answered : (port.readValues nodes s).1 with
          | ok values => exact ⟨values, rfl, serving.entries parsed answered⟩
          | error failure =>
              by_cases single : nodeIds.length ≤ 1
              · obtain ⟨id, rfl⟩ : ∃ id, nodeIds = [id] := by
                  refine List.length_eq_one_iff.mp ?_
                  have := List.length_pos_iff.mpr empty
                  omega
                simp only [single, if_true]
                refine ⟨[none], rfl, .cons ⟨fun node same readable => ?_, fun _ => rfl⟩ .nil⟩
                cases parsed with
                | cons head tail =>
                    cases tail
                    cases head.symm.trans same
                    obtain ⟨values, ok⟩ := serving.alone node s readable
                    cases ok.symm.trans answered
              · simp only [single, if_false]
                obtain ⟨left, leftOk, leftEntries⟩ := ih _
                  (by simp only [List.length_take]; omega) (nodeIds.take (max 1 (nodeIds.length / 2)))
                  after (fun id m => parsable id (List.mem_of_mem_take m)) rfl
                cases first : readValuesBatchWithFallback port
                    (nodeIds.take (max 1 (nodeIds.length / 2))) after with
                | mk leftResult middle =>
                    rw [first] at leftOk
                    cases leftOk
                    dsimp only
                    obtain ⟨right, rightOk, rightEntries⟩ := ih _
                      (by simp only [List.length_drop]; omega) (nodeIds.drop (max 1 (nodeIds.length / 2)))
                      middle (fun id m => parsable id (List.mem_of_mem_drop m)) rfl
                    cases second : readValuesBatchWithFallback port
                        (nodeIds.drop (max 1 (nodeIds.length / 2))) middle with
                    | mk rightResult last =>
                        rw [second] at rightOk
                        cases rightOk
                        refine ⟨left ++ right, rfl, ?_⟩
                        have joined := List.rel_append leftEntries rightEntries
                        simpa only [List.take_append_drop] using joined

theorem batch_raises {nodeIds : List String} {nodeId : String} (m : nodeId ∈ nodeIds)
    (bad : ¬ Parsable port nodeId) (s : σ) :
    ∃ failure, (readValuesBatchWithFallback port nodeIds s).1 = .error failure := by
  obtain ⟨failure, same⟩ := getNodes_error m bad
  rw [readValuesBatchWithFallback, if_neg (List.ne_nil_of_mem m), same]
  exact ⟨failure, rfl⟩

theorem flatten_chunkedFrom {size : Nat} (positive : 0 < size) (fuel : Nat) (ids : List String)
    (enough : ids.length ≤ fuel) : (chunkedFrom size fuel ids).flatten = ids := by
  induction fuel generalizing ids with
  | zero =>
      rw [List.length_eq_zero_iff.mp (Nat.le_zero.mp enough)]
      rfl
  | succ fuel ih =>
      cases ids with
      | nil => rfl
      | cons id ids =>
          have shorter : ((id :: ids).drop size).length ≤ fuel := by
            simp only [List.length_drop, List.length_cons] at enough ⊢
            omega
          rw [chunkedFrom, List.flatten_cons, ih _ shorter, List.take_append_drop]
          exact nofun

theorem flatten_chunked (ids : List String) (limit : Option Nat) :
    (chunked ids (batchSize limit ids.length)).flatten = ids :=
  flatten_chunkedFrom (Nat.lt_of_lt_of_le Nat.zero_lt_one (Nat.le_max_left _ _)) _ ids (Nat.le_refl _)

theorem chunks_isolated (serving : Serving port Readable IsValue) (batches : List (List String)) (s : σ)
    (parsable : ∀ id ∈ batches.flatten, Parsable port id) :
    Isolated port Readable IsValue batches.flatten (readChunks port batches s).1 := by
  induction batches generalizing s with
  | nil => exact ⟨[], rfl, .nil⟩
  | cons batch batches ih =>
      simp only [List.flatten_cons, List.mem_append] at parsable ⊢
      obtain ⟨values, ok, entries⟩ := batch_isolated serving batch s fun id m => parsable id (Or.inl m)
      rw [readChunks]
      cases first : readValuesBatchWithFallback port batch s with
      | mk result after =>
          rw [first] at ok
          cases ok
          dsimp only
          obtain ⟨rest, restOk, restEntries⟩ := ih after fun id m => parsable id (Or.inr m)
          cases second : readChunks port batches after with
          | mk restResult last =>
              rw [second] at restOk
              cases restOk
              exact ⟨values ++ rest, rfl, List.rel_append entries restEntries⟩

theorem chunks_raise {batches : List (List String)} {nodeId : String} (m : nodeId ∈ batches.flatten)
    (bad : ¬ Parsable port nodeId) (s : σ) : ∃ failure, (readChunks port batches s).1 = .error failure := by
  induction batches generalizing s with
  | nil => cases m
  | cons batch batches ih =>
      rw [readChunks]
      cases first : readValuesBatchWithFallback port batch s with
      | mk result after =>
          cases result with
          | error failure => exact ⟨failure, rfl⟩
          | ok values =>
              rcases List.mem_append.mp (List.flatten_cons ▸ m) with here | later
              · obtain ⟨failure, raised⟩ := batch_raises here bad s
                rw [first] at raised
                cases raised
              · dsimp only
                obtain ⟨failure, raised⟩ := ih later after
                cases second : readChunks port batches after with
                | mk restResult last =>
                    rw [second] at raised
                    cases raised
                    exact ⟨failure, rfl⟩

theorem readValues_raises {nodeIds : List String} {nodeId : String} (m : nodeId ∈ nodeIds)
    (bad : ¬ Parsable port nodeId) (limit : Option Nat) (s : σ) :
    ∃ failure, (readValues port limit nodeIds s).1 = .error failure := by
  rw [readValues, if_neg (List.ne_nil_of_mem m)]
  exact chunks_raise (by rw [flatten_chunked]; exact m) bad s

theorem readValues_isolated (serving : Serving port Readable IsValue) (limit : Option Nat)
    (nodeIds : List String) (s : σ) (parsable : ∀ id ∈ nodeIds, Parsable port id) :
    Isolated port Readable IsValue nodeIds (readValues port limit nodeIds s).1 := by
  rw [readValues]
  by_cases empty : nodeIds = []
  · subst empty
    exact ⟨[], rfl, .nil⟩
  · rw [if_neg empty]
    have all := chunks_isolated serving (chunked nodeIds (batchSize limit nodeIds.length)) s
      (by rw [flatten_chunked]; exact parsable)
    rwa [flatten_chunked] at all

/-- One poll cycle hands the value of every polled node that is readable on its
own to the fan-out. -/
def CycleCovers (port : ReadPort N V F σ) (Readable : N → Prop) (IsValue : N → V → Prop)
    (nodeIds : List String) (handed : List (String × Option V)) : Prop :=
  ∀ id ∈ nodeIds, ∀ node, port.getNode id = .ok node → Readable node →
    ∃ x, (id, some x) ∈ handed ∧ IsValue node x

theorem forall₂_mem_zip {α β : Type} {r : α → β → Prop} {xs : List α} {ys : List β}
    (h : List.Forall₂ r xs ys) {x : α} (m : x ∈ xs) : ∃ y, (x, y) ∈ xs.zip ys ∧ r x y := by
  induction h with
  | nil => cases m
  | cons head tail ih =>
      rcases List.mem_cons.mp m with rfl | later
      · exact ⟨_, List.mem_cons_self, head⟩
      · obtain ⟨y, inside, rel⟩ := ih later
        exact ⟨y, List.mem_cons_of_mem _ inside, rel⟩

theorem pollCycle_covers (nodeIds : List String) (limit : Option Nat) (s : σ)
    (isolated : Isolated port Readable IsValue nodeIds (readValues port limit nodeIds s).1) :
    CycleCovers port Readable IsValue nodeIds (pollCycle port limit nodeIds s).1 := by
  intro id m node parsed readable
  obtain ⟨values, ok, entries⟩ := isolated
  obtain ⟨value, inside, entry⟩ := forall₂_mem_zip entries m
  obtain ⟨x, rfl, isValue⟩ := entry.1 node parsed readable
  refine ⟨x, ?_, isValue⟩
  rw [pollCycle, if_neg (List.ne_nil_of_mem m)]
  cases call : readValues port limit nodeIds s with
  | mk result after =>
      rw [call] at ok
      cases ok
      exact inside

/-- With a serving library, a read isolates bad nodes, and a poll cycle fans out
all others, exactly when every requested id parses. -/
theorem readValues_isolated_iff (serving : Serving port Readable IsValue) (limit : Option Nat)
    (nodeIds : List String) (s : σ) :
    (Isolated port Readable IsValue nodeIds (readValues port limit nodeIds s).1 ∧
      CycleCovers port Readable IsValue nodeIds (pollCycle port limit nodeIds s).1) ↔
      ∀ id ∈ nodeIds, Parsable port id := by
  constructor
  · rintro ⟨⟨values, ok, _⟩, _⟩ id m
    by_contra bad
    obtain ⟨failure, raised⟩ := readValues_raises m bad limit s
    cases ok.symm.trans raised
  · intro parsable
    have isolated := readValues_isolated serving limit nodeIds s parsable
    exact ⟨isolated, pollCycle_covers nodeIds limit s isolated⟩

end

/-! ## A server with one unreadable node

Node 0 holds the value 7 and node 1 cannot be read; a batch read that contains
node 1 raises, as does parsing any other text. -/

def twoNodes : ReadPort Nat Nat Unit Unit where
  getNode nodeId :=
    if nodeId = "ns=2;i=0" then .ok 0 else if nodeId = "ns=2;i=1" then .ok 1 else .error ()
  readValues nodes s := (if nodes.all (· = 0) then .ok (nodes.map fun _ => some 7) else .error (), s)
  shouldRetryAfterDisconnect _ := false
  waitForReconnect _ s := (.ok (), s)

theorem twoNodes_serving : Serving twoNodes (· = 0) (fun _ x => x = 7) where
  ordered nodes s values ok := by
    simp only [twoNodes] at ok
    split_ifs at ok with all
    cases ok
    rw [List.forall₂_map_right_iff, List.forall₂_same]
    exact fun node m => ⟨by simpa using List.all_eq_true.mp all node m, rfl⟩
  alone node s readable := by
    subst readable
    exact ⟨[some 7], rfl⟩
  connected _ _ _ _ := rfl

theorem readValues_isolated_iff_twoNodes :
    (Isolated twoNodes (· = 0) (fun _ x => x = 7) ["ns=2;i=0", "ns=2;i=1"]
        (readValues twoNodes (some 5) ["ns=2;i=0", "ns=2;i=1"] ()).1 ∧
      CycleCovers twoNodes (· = 0) (fun _ x => x = 7) ["ns=2;i=0", "ns=2;i=1"]
        (pollCycle twoNodes (some 5) ["ns=2;i=0", "ns=2;i=1"] ()).1) ↔
      ∀ id ∈ ["ns=2;i=0", "ns=2;i=1"], Parsable twoNodes id :=
  readValues_isolated_iff twoNodes_serving (some 5) _ ()

/-- One unparsable id keeps the value of a readable node from the fan-out. -/
theorem readValues_not_isolated_by_unparsable :
    Serving twoNodes (· = 0) (fun _ x => x = 7) ∧
      ¬ Isolated twoNodes (· = 0) (fun _ x => x = 7) ["ns=2;i=0", "pump"]
        (readValues twoNodes none ["ns=2;i=0", "pump"] ()).1 ∧
      ¬ CycleCovers twoNodes (· = 0) (fun _ x => x = 7) ["ns=2;i=0", "pump"]
        (pollCycle twoNodes none ["ns=2;i=0", "pump"] ()).1 := by
  have bad : ¬ Parsable twoNodes "pump" := by
    rintro ⟨node, parsed⟩
    have raises : twoNodes.getNode "pump" = .error () := rfl
    cases parsed.symm.trans raises
  have asked : "pump" ∈ ["ns=2;i=0", "pump"] := List.mem_cons_of_mem _ List.mem_cons_self
  obtain ⟨failure, raised⟩ := readValues_raises asked bad none ()
  refine ⟨twoNodes_serving, ?_, fun covers => ?_⟩
  · rintro ⟨values, ok, _⟩
    cases ok.symm.trans raised
  · obtain ⟨x, handed, _⟩ := covers "ns=2;i=0" List.mem_cons_self 0 rfl rfl
    have none_handed : (pollCycle twoNodes none ["ns=2;i=0", "pump"] ()).1 = [] := by
      rw [pollCycle, if_neg nofun]
      cases call : readValues twoNodes none ["ns=2;i=0", "pump"] () with
      | mk result after =>
          rw [call] at raised
          cases raised
          rfl
    rw [none_handed] at handed
    cases handed

end I3x.OpcUa

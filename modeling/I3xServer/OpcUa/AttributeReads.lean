import I3xServer.Container.SideBySide
import I3xServer.OpcUa.BrowseCompleteness
import I3xServer.OpcUa.HistoryReads

/-!
# Reading attributes in batches

A read of many attributes is cut into batches. A batch that the server finds too large is
halved by the one read and cut into smaller batches by the other; either way the values
come back in the order of the entries.
-/
namespace I3x.OpcUa
open Container

abbrev AttributeId := Nat

inductive ReadQuery where
  | read (nodesToRead : List (String × AttributeId))
  | waitForReconnect (error : RequestError)

def ReadAnswer (V : Type) : ReadQuery → Type
  | .read _ => Except RequestError (List V)
  | .waitForReconnect _ => Except RequestError Unit

inductive ReadFailure where
  | raised (error : RequestError)
  | valueCount (values attributes : Nat)
  deriving DecidableEq, Repr

abbrev ReadDialogue (V α : Type) := Dialogue ReadQuery (ReadAnswer V) (Except ReadFailure α)

abbrev ReadLog (V : Type) := List (Exchange ReadQuery (ReadAnswer V))

/-- `batch_size`, or `limits.max_nodes_per_read or len(nodes)`. -/
def attributeBatchSize (batchSize : Option Int) (limits : OpcUaOperationalLimits) (count : Nat) : Int :=
  match batchSize with
  | some size => size
  | none => match limits.maxNodesPerRead with
    | none | some 0 => count
    | some limit => limit

/-- The size that is given, or one within the limit and the number of nodes. -/
def effectiveBatchSize (batchSize : Option Int) (limits : OpcUaOperationalLimits) (count : Nat) : Int :=
  match batchSize with
  | some size => size
  | none => max 1 (min (attributeBatchSize none limits count) count)

theorem effectiveBatchSize_some (size : Int) (limits : OpcUaOperationalLimits) (count : Nat) :
    effectiveBatchSize (some size) limits count = size := rfl

namespace HistoryClient
variable {V : Type} (client : HistoryClient)

/-- One value for each attribute, or the answer is refused. -/
def countedValues (nodeAttributes : List (String × AttributeId)) (values : List V) : Except ReadFailure (List V) :=
  if values.length ≠ nodeAttributes.length then .error (.valueCount values.length nodeAttributes.length) else .ok values

def readAttributePairsBatch (nodeAttributes : List (String × AttributeId)) : ReadDialogue V (List V) :=
  .ask (.read nodeAttributes) fun
    | .ok values => .done (countedValues nodeAttributes values)
    | .error error =>
        if client.shouldRetryAfterDisconnect error then
          .ask (.waitForReconnect error) fun
            | .error gone => .done (.error (.raised gone))
            | .ok () => .ask (.read nodeAttributes) fun
                | .error again => .done (.error (.raised again))
                | .ok values => .done (countedValues nodeAttributes values)
        else if client.isTooManyOperationsError error ∧ 1 < nodeAttributes.length then
          let splitAt := max 1 (nodeAttributes.length / 2)
          (readAttributePairsBatch (nodeAttributes.take splitAt)).attempt fun left =>
            (readAttributePairsBatch (nodeAttributes.drop splitAt)).attempt fun right => .done (.ok (left ++ right))
        else .done (.error (.raised error))
termination_by nodeAttributes.length
decreasing_by
  · simp only [List.length_take]; omega
  · simp only [List.length_drop]; omega

def attributeBatches (batchSize : Option Int) (limits : OpcUaOperationalLimits)
    (nodeAttributes : List (String × AttributeId)) : List (List (String × AttributeId)) :=
  chunkedNodes nodeAttributes (max 1 (attributeBatchSize batchSize limits nodeAttributes.length)).toNat

/-- What comes of batches that run side by side: all their values in the order of the
batches, or what one of them raises. -/
inductive GatheredValues : List (Except ReadFailure (List V)) → Except ReadFailure (List V) → Prop where
  | all (batchValues : List (List V)) : GatheredValues (batchValues.map .ok) (.ok batchValues.flatten)
  | raised {outcomes : List (Except ReadFailure (List V))} {failure : ReadFailure} (m : .error failure ∈ outcomes) :
      GatheredValues outcomes (.error failure)

/-- The reads of the batches, which run side by side. -/
def pairsBatchReads (batchSize : Option Int) (limits : OpcUaOperationalLimits)
    (nodeAttributes : List (String × AttributeId)) : List (ReadDialogue V (List V)) :=
  (attributeBatches batchSize limits nodeAttributes).map client.readAttributePairsBatch

/-- A run of the whole read, with the exchanges of all batches as they interleave. -/
def ReadAttributePairs (batchSize : Option Int) (limits : OpcUaOperationalLimits)
    (nodeAttributes : List (String × AttributeId)) (log : ReadLog V) (outcome : Except ReadFailure (List V)) : Prop :=
  ∃ outcomes : List (Except ReadFailure (List V)),
    Dialogue.SideBySide (client.pairsBatchReads batchSize limits nodeAttributes) log (outcomes.map .done) ∧
      GatheredValues outcomes outcome

/-- The values of a batch are not counted here. -/
def readAttributeBatch (nodes : List String) (attr : AttributeId) : ReadDialogue V (List V) :=
  if nodes = [] then .done (.ok [])
  else
    let entries := nodes.map fun node => (node, attr)
    .ask (.read entries) fun
      | .ok values => .done (.ok values)
      | .error error =>
          if client.shouldRetryAfterDisconnect error then
            .ask (.waitForReconnect error) fun
              | .error gone => .done (.error (.raised gone))
              | .ok () => .ask (.read entries) fun
                  | .error again => .done (.error (.raised again))
                  | .ok values => .done (.ok values)
          else .done (.error (.raised error))

end HistoryClient

namespace HistoryClient
variable {V : Type} (client : HistoryClient)

/-- Batches one after the other. The read of one that is too large is repeated in batches
of half its size. -/
def readAttributeBatchLimited (limits : OpcUaOperationalLimits) (attr : AttributeId) (nodes : List String)
    (batchSize : Option Int) : ReadDialogue V (List V) :=
  if nodes = [] then .done (.ok [])
  else
    let size := (max 1 (effectiveBatchSize batchSize limits nodes.length)).toNat
    Dialogue.gather (fun nodeBatch : { batch // batch ∈ chunkedNodes nodes size } =>
      (client.readAttributeBatch nodeBatch.1 attr).bind fun
        | .ok values => .done (.ok values)
        | .error (.raised error) =>
            if client.isTooManyOperationsError error = false ∨ nodeBatch.1.length ≤ 1 then .done (.error (.raised error))
            else
              let reducedBatchSize : Nat := max 1 (nodeBatch.1.length / 2)
              readAttributeBatchLimited limits attr nodeBatch.1 (some reducedBatchSize)
        | .error failure => .done (.error failure))
      (chunkedNodes nodes size).attach
termination_by min (max 1 (effectiveBatchSize batchSize limits nodes.length)).toNat nodes.length
decreasing_by
  have short := length_of_mem_chunkedNodesFrom nodeBatch.2
  rw [effectiveBatchSize_some]
  omega

/-! ## A server that finds batches too large -/

/-- The status is BadTooManyOperations, and the text of the error names it. -/
def TooManyOperations (error : RequestError) : Prop :=
  error.statusCode = some 0x80100000 ∧ client.isTooManyOperationsError error = true

/-- A read is answered with one value for each entry, in order, or found too large, but
not the read of one entry. The connection stays. -/
def Reads (value : String × AttributeId → V) : Dialogue.Answering ReadQuery (ReadAnswer V) Unit :=
  fun _ query answer _ =>
    match query, answer with
    | .read entries, .ok values => values = entries.map value
    | .read entries, .error error => client.TooManyOperations error ∧ 1 < entries.length
    | .waitForReconnect _, _ => False

variable {client}

theorem TooManyOperations.not_retried {error : RequestError} (large : client.TooManyOperations error) :
    ¬ client.shouldRetryAfterDisconnect error = true := by
  rw [shouldRetryAfterDisconnect, large.1]
  show ¬ decide (0x80100000 ∈ connectionLostStatusCodes) = true
  decide

theorem readAttributePairsBatch_settles (value : String × AttributeId → V) (entries : List (String × AttributeId))
    (filled : entries ≠ []) :
    (client.readAttributePairsBatch entries).Settles (client.Reads value)
      (fun out _ => out = .ok (entries.map value)) (2 * entries.length - 1) () := by
  induction size : entries.length using Nat.strong_induction_on generalizing entries with
  | _ n ih =>
      have positive : 0 < entries.length := List.length_pos_iff.mpr filled
      rw [readAttributePairsBatch]
      refine ⟨⟨.ok (entries.map value), (), rfl⟩, 2 * n - 2, by omega, fun answer _ allowed => ?_⟩
      cases answer with
      | ok values =>
          obtain rfl : values = entries.map value := allowed
          show countedValues entries (entries.map value) = _
          rw [countedValues, if_neg (not_not.mpr (List.length_map value))]
      | error error =>
          obtain ⟨large, several⟩ : client.TooManyOperations error ∧ 1 < entries.length := allowed
          dsimp only
          rw [if_neg large.not_retried, if_pos ⟨large.2, several⟩]
          -- both halves are shorter, and together they are the whole
          have halves := List.take_append_drop (max 1 (entries.length / 2)) entries
          have lengths : (entries.take (max 1 (entries.length / 2))).length + (entries.drop (max 1 (entries.length / 2))).length = n ∧
              0 < (entries.take (max 1 (entries.length / 2))).length ∧ 0 < (entries.drop (max 1 (entries.length / 2))).length := by
            rw [List.length_take, List.length_drop]
            omega
          generalize entries.take (max 1 (entries.length / 2)) = left at halves lengths ⊢
          generalize entries.drop (max 1 (entries.length / 2)) = right at halves lengths ⊢
          subst halves
          obtain ⟨sum, someLeft, someRight⟩ := lengths
          have first := ih left.length (by omega) left (List.length_pos_iff.mp someLeft) rfl
          have second := ih right.length (by omega) right (List.length_pos_iff.mp someRight) rfl
          refine Dialogue.Settles.within (n := 2 * left.length - 1 + (2 * right.length - 1 + 0)) ?_ (by omega)
          refine Dialogue.Settles.attempt (fun values _ => values = left.map value)
            (first.mono (fun out _ same => ⟨_, same, rfl⟩) (Nat.le_refl _)) ?_
          rintro _ _ rfl
          refine Dialogue.Settles.attempt (fun values _ => values = right.map value)
            (second.mono (fun out _ same => ⟨_, same, rfl⟩) (Nat.le_refl _)) ?_
          rintro _ _ rfl
          show Except.ok _ = _
          rw [List.map_append]

/-! ## Smaller and smaller batches -/

theorem batchCosts {α : Type} {batches : List (List α)} (filled : ∀ batch ∈ batches, batch ≠ []) :
    (batches.map fun batch => 2 * batch.length - 1).sum + batches.length = 2 * batches.flatten.length := by
  induction batches with
  | nil => rfl
  | cons batch batches ih =>
      have positive : 0 < batch.length := List.length_pos_iff.mpr (filled batch List.mem_cons_self)
      have rest := ih fun other m => filled other (List.mem_cons_of_mem batch m)
      rw [List.map_cons, List.sum_cons, List.length_cons, List.flatten_cons, List.length_append]
      omega

theorem flatten_length_le {α : Type} (batches : List (List α)) {size : Nat}
    (short : ∀ batch ∈ batches, batch.length ≤ size) : batches.flatten.length ≤ batches.length * size := by
  induction batches with
  | nil => exact Nat.zero_le _
  | cons batch batches ih =>
      have first := short batch List.mem_cons_self
      have rest := ih fun other m => short other (List.mem_cons_of_mem batch m)
      rw [List.flatten_cons, List.length_append, List.length_cons, Nat.succ_mul]
      omega

/-- What a read in batches costs at most, if none but those of one entry are sure to be answered. -/
def readCost {α : Type} (nodes : List α) (size : Nat) : Nat :=
  ((chunkedNodes nodes size).map fun batch => 2 * batch.length - 1).sum

theorem readCost_eq {α : Type} {size : Nat} (positive : 0 < size) (nodes : List α) :
    readCost nodes size + (chunkedNodes nodes size).length = 2 * nodes.length := by
  have filled : ∀ batch ∈ chunkedNodes nodes size, batch ≠ [] := fun _ m => ne_nil_of_mem_chunkedNodesFrom positive m
  rw [readCost, batchCosts filled, flatten_chunkedNodes positive]

/-- More than one batch pays for the request that was refused. -/
theorem readCost_lt {α : Type} {size : Nat} (positive : 0 < size) {nodes : List α} (several : size < nodes.length) :
    readCost nodes size + 1 ≤ 2 * nodes.length - 1 := by
  have whole := readCost_eq positive nodes
  have long := flatten_length_le (chunkedNodes nodes size) fun batch m => (length_of_mem_chunkedNodesFrom m).1
  rw [flatten_chunkedNodes positive] at long
  have two : 2 ≤ (chunkedNodes nodes size).length := by
    by_contra fewer
    have one : (chunkedNodes nodes size).length ≤ 1 := by omega
    have within := Nat.mul_le_mul_right size one
    omega
  omega

theorem readAttributeBatch_settles (value : String × AttributeId → V) (attr : AttributeId) {nodes : List String}
    (filled : nodes ≠ []) : (client.readAttributeBatch nodes attr).Settles (client.Reads value)
      (fun out _ => out = .ok (nodes.map fun node => value (node, attr)) ∨
        ∃ error, out = .error (.raised error) ∧ client.TooManyOperations error ∧ 1 < nodes.length) 1 () := by
  rw [readAttributeBatch, if_neg filled]
  refine ⟨⟨.ok ((nodes.map fun node => (node, attr)).map value), (), rfl⟩, 0, rfl, fun answer _ allowed => ?_⟩
  cases answer with
  | ok values =>
      obtain rfl : values = (nodes.map fun node => (node, attr)).map value := allowed
      exact .inl (congrArg Except.ok List.map_map)
  | error error =>
      obtain ⟨large, several⟩ : client.TooManyOperations error ∧ 1 < (nodes.map fun node => (node, attr)).length := allowed
      dsimp only
      rw [if_neg large.not_retried]
      exact .inr ⟨error, rfl, large, (List.length_map _ : (nodes.map _).length = _) ▸ several⟩

theorem readAttributeBatchLimited_settles (limits : OpcUaOperationalLimits) (value : String × AttributeId → V)
    (attr : AttributeId) (nodes : List String) (batchSize : Option Int) :
    (client.readAttributeBatchLimited limits attr nodes batchSize).Settles (client.Reads value)
      (fun out _ => out = .ok (nodes.map fun node => value (node, attr)))
      (readCost nodes (max 1 (effectiveBatchSize batchSize limits nodes.length)).toNat) () := by
  induction size : min (max 1 (effectiveBatchSize batchSize limits nodes.length)).toNat nodes.length
    using Nat.strong_induction_on generalizing nodes batchSize with
  | _ n ih =>
      rw [readAttributeBatchLimited]
      by_cases none_left : nodes = []
      · rw [if_pos none_left, none_left]
        exact rfl
      rw [if_neg none_left]
      have positive : 0 < (max 1 (effectiveBatchSize batchSize limits nodes.length)).toNat := by omega
      generalize (max 1 (effectiveBatchSize batchSize limits nodes.length)).toNat = chunk at positive size ⊢
      have gathered : ((chunkedNodes nodes chunk).attach.flatMap fun nodeBatch =>
          nodeBatch.1.map fun node => value (node, attr)) = nodes.map fun node => value (node, attr) := by
        have whole := List.flatMap_map Subtype.val (List.map fun node => value (node, attr)) (chunkedNodes nodes chunk).attach
        rw [List.attach_map_subtype_val, List.flatMap_def, ← List.map_flatten, flatten_chunkedNodes positive] at whole
        exact whole.symm
      have cost : ((chunkedNodes nodes chunk).attach.map fun nodeBatch => 1 + (2 * nodeBatch.1.length - 1 - 1)).sum =
          readCost nodes chunk := by
        rw [readCost, ← List.attach_map_val (f := fun batch : List String => 2 * batch.length - 1)]
        refine congrArg List.sum (List.map_congr_left fun nodeBatch _ => ?_)
        have filled := List.length_pos_iff.mpr (ne_nil_of_mem_chunkedNodesFrom positive nodeBatch.2)
        omega
      rw [← gathered, ← cost]
      refine (Dialogue.Settles.gather (fun _ => True) (fun nodeBatch _ _ _ => ?_) trivial).mono
        (fun _ _ holds => holds.1) (Nat.le_refl _)
      have filled := ne_nil_of_mem_chunkedNodesFrom positive nodeBatch.2
      have short := length_of_mem_chunkedNodesFrom nodeBatch.2
      refine (readAttributeBatch_settles value attr filled).bind fun out _ read => ?_
      rcases read with rfl | ⟨error, rfl, large, several⟩
      · exact ⟨rfl, trivial⟩
      · have refused : ¬ (client.isTooManyOperationsError error = false ∨ nodeBatch.1.length ≤ 1) := by
          rw [large.2]
          exact fun small => small.elim nofun (Nat.not_le.mpr several)
        dsimp only
        rw [if_neg refused]
        have reduced : 0 < max 1 (nodeBatch.1.length / 2) ∧ max 1 (nodeBatch.1.length / 2) < nodeBatch.1.length := by omega
        have smaller := ih _ (by rw [effectiveBatchSize_some]; omega) nodeBatch.1
          (some (max 1 (nodeBatch.1.length / 2) : Nat)) rfl
        rw [effectiveBatchSize_some] at smaller
        have same : (max 1 ((max 1 (nodeBatch.1.length / 2) : Nat) : Int)).toNat = max 1 (nodeBatch.1.length / 2) := by omega
        rw [same] at smaller
        have paid := readCost_lt reduced.1 reduced.2
        exact smaller.mono (fun _ _ holds => ⟨holds, trivial⟩) (by omega)

/-! ## Every limit -/

theorem mem_attributeBatches {batchSize : Option Int} {limits : OpcUaOperationalLimits}
    {entries batch : List (String × AttributeId)} (m : batch ∈ attributeBatches batchSize limits entries) : batch ≠ [] :=
  ne_nil_of_mem_chunkedNodesFrom (by omega) m

theorem flatten_attributeBatches (batchSize : Option Int) (limits : OpcUaOperationalLimits)
    (entries : List (String × AttributeId)) : (attributeBatches batchSize limits entries).flatten = entries :=
  flatten_chunkedNodes (by omega) entries

theorem gathered_ok {batchValues : List (List V)} {outcome : Except ReadFailure (List V)}
    (gathered : GatheredValues (batchValues.map .ok) outcome) : outcome = .ok batchValues.flatten := by
  generalize same : (batchValues.map .ok : List (Except ReadFailure (List V))) = outcomes at gathered
  cases gathered with
  | all others => rw [List.map_injective_iff.mpr (fun _ _ => Except.ok.inj) same]
  | raised m =>
      rw [← same] at m
      obtain ⟨values, -, wrong⟩ := List.mem_map.mp m
      cases wrong

/-- What each batch comes to, and how many questions it may need. -/
def batchResults (value : String × AttributeId → V) (batches : List (List (String × AttributeId))) :
    List (Except ReadFailure (List V) × Nat) :=
  batches.map fun batch => (.ok (batch.map value), 2 * batch.length)

theorem eachSettles (value : String × AttributeId → V) {batches : List (List (String × AttributeId))}
    (filled : ∀ batch ∈ batches, batch ≠ []) : Dialogue.EachSettles (client.Reads value)
      (batches.map client.readAttributePairsBatch) (batchResults value batches) := by
  rw [Dialogue.EachSettles, batchResults, List.forall₂_map_left_iff, List.forall₂_map_right_iff, List.forall₂_same]
  exact fun batch m => (readAttributePairsBatch_settles value batch (filled batch m)).within (Nat.sub_le _ _)

theorem batchResults_values (value : String × AttributeId → V) (batches : List (List (String × AttributeId))) :
    (batchResults value batches).map Prod.fst = (batches.map (List.map value)).map .ok := by
  rw [batchResults, List.map_map, List.map_map]
  rfl

theorem batchResults_cost (value : String × AttributeId → V) (batches : List (List (String × AttributeId))) :
    ((batchResults value batches).map Prod.snd).sum = 2 * batches.flatten.length := by
  induction batches with
  | nil => rfl
  | cons batch batches ih =>
      rw [batchResults, List.map_cons, List.map_cons, List.sum_cons, List.flatten_cons, List.length_append, Nat.mul_add,
        ← ih]
      rfl

/-- A server that answers as `Reads` says, whatever it was asked before. -/
def Serves (client : HistoryClient) (value : String × AttributeId → V)
    (serve : Dialogue.Server ReadQuery (ReadAnswer V)) : Prop :=
  ∀ past entries, client.Reads value () (.read entries) (serve past (.read entries)) ()

theorem Serves.obliges {value : String × AttributeId → V} {serve : Dialogue.Server ReadQuery (ReadAnswer V)}
    (serves : client.Serves value serve) : Dialogue.Obliges (client.Reads value) serve := by
  intro past query answerable
  cases query with
  | read entries => exact serves past entries
  | waitForReconnect error =>
      obtain ⟨answer, never⟩ := answerable
      exact never.elim

/-- Whatever batches are refused and however they interleave, a run comes to all values. -/
theorem readAttributePairs_ok {value : String × AttributeId → V} {limits : OpcUaOperationalLimits}
    {batchSize : Option Int} {entries : List (String × AttributeId)} {log : ReadLog V}
    {outcome : Except ReadFailure (List V)} (run : client.ReadAttributePairs batchSize limits entries log outcome)
    (answered : Dialogue.Answered (client.Reads value) () log ()) :
    outcome = .ok (entries.map value) ∧ log.length ≤ 2 * entries.length := by
  obtain ⟨outcomes, steps, gathered⟩ := run
  obtain ⟨same, few⟩ := steps.results (eachSettles value fun _ => mem_attributeBatches) answered
  rw [batchResults_cost, flatten_attributeBatches] at few
  rw [same, batchResults_values] at gathered
  rw [gathered_ok gathered, ← List.map_flatten, flatten_attributeBatches]
  exact ⟨rfl, few⟩

/-- Whatever the server has answered so far, the batches have a run from there to their end. -/
theorem readAttributePairs_ends {value : String × AttributeId → V} {limits : OpcUaOperationalLimits}
    {batchSize : Option Int} {entries : List (String × AttributeId)}
    {serve : Dialogue.Server ReadQuery (ReadAnswer V)} (serves : client.Serves value serve) {log : ReadLog V}
    {rest : List (ReadDialogue V (List V))}
    (steps : Dialogue.SideBySide (client.pairsBatchReads batchSize limits entries) log rest)
    (given : Dialogue.Given serve [] log) : ∃ more, Dialogue.Given serve [] (log ++ more) ∧
      client.ReadAttributePairs batchSize limits entries (log ++ more) (.ok (entries.map value)) := by
  obtain ⟨more, outcomes, ended, given'⟩ := Dialogue.exists_sideBySide serve rest log
  have whole := steps.trans ended
  have served : Dialogue.Given serve [] (log ++ more) := Dialogue.given_append.mpr ⟨given, given'⟩
  have each : Dialogue.EachSettles (client.Reads value) (client.pairsBatchReads batchSize limits entries)
      (batchResults value (attributeBatches batchSize limits entries)) :=
    eachSettles value fun _ => mem_attributeBatches
  have answered := whole.answered each serves.obliges served
  obtain ⟨same, -⟩ := whole.results each answered
  refine ⟨more, served, outcomes, whole, ?_⟩
  have flat : ((attributeBatches batchSize limits entries).map (List.map value)).flatten = entries.map value := by
    rw [← List.map_flatten, flatten_attributeBatches]
  rw [same, batchResults_values, ← flat]
  exact .all _

/-- Under every limit, and whichever batches the server refuses, both reads come after at
most two requests for each entry to the values of all entries in order: every run that the
server answers ends so, and from every point of such a run there is one that ends. -/
theorem attributeReads_unbatched (value : String × AttributeId → V) (limits : OpcUaOperationalLimits)
    (batchSize : Option Int) :
    (∀ entries log outcome, client.ReadAttributePairs batchSize limits entries log outcome →
      Dialogue.Answered (client.Reads value) () log () →
        outcome = .ok (entries.map value) ∧ log.length ≤ 2 * entries.length) ∧
    (∀ entries serve, client.Serves value serve → ∀ log rest,
      Dialogue.SideBySide (client.pairsBatchReads batchSize limits entries) log rest → Dialogue.Given serve [] log →
        ∃ more, Dialogue.Given serve [] (log ++ more) ∧
          client.ReadAttributePairs batchSize limits entries (log ++ more) (.ok (entries.map value))) ∧
    (∀ entries, ∀ batch ∈ attributeBatches batchSize limits entries,
      (client.readAttributePairsBatch batch).Settles (client.Reads value) (fun out _ => out = .ok (batch.map value))
        (2 * batch.length) ()) ∧
    ∀ nodes attr, (client.readAttributeBatchLimited limits attr nodes batchSize).Settles (client.Reads value)
        (fun out _ => out = .ok (nodes.map fun node => value (node, attr))) (2 * nodes.length) () ∧
      ∀ serve, client.Serves value serve → ∃ log, Dialogue.Run
        (client.readAttributeBatchLimited limits attr nodes batchSize) log (.ok (nodes.map fun node => value (node, attr))) ∧
          Dialogue.Given serve [] log ∧ log.length ≤ 2 * nodes.length := by
  refine ⟨fun entries log outcome run answered => readAttributePairs_ok run answered,
    fun entries serve serves log rest steps given => readAttributePairs_ends serves steps given,
    fun entries batch m => ?_, fun nodes attr => ?_⟩
  · exact (readAttributePairsBatch_settles value batch (mem_attributeBatches m)).within (Nat.sub_le _ _)
  · have cost := readCost_eq (show 0 < (max 1 (effectiveBatchSize batchSize limits nodes.length)).toNat by omega) nodes
    have settles : (client.readAttributeBatchLimited limits attr nodes batchSize).Settles (client.Reads value)
        (fun out _ => out = .ok (nodes.map fun node => value (node, attr))) (2 * nodes.length) () :=
      (readAttributeBatchLimited_settles limits value attr nodes batchSize).within (by omega)
    exact ⟨settles, fun serve serves => settles.exists_given serves.obliges []⟩

/-! Three batches side by side, of which the server finds one too large. -/

/-- The attribute 13 is the value of a node. -/
def fivePairs : List (String × AttributeId) := [("a", 13), ("b", 13), ("c", 13), ("d", 13), ("e", 13)]

def refusedBatch : ReadLog String :=
  [⟨.read [("c", 13), ("d", 13)], .ok ["c", "d"]⟩, ⟨.read [("a", 13), ("b", 13)], .error tooMany⟩,
    ⟨.read [("e", 13)], .ok ["e"]⟩, ⟨.read [("a", 13)], .ok ["a"]⟩, ⟨.read [("b", 13)], .ok ["b"]⟩]

theorem run_answered (batch : List (String × AttributeId)) (values : List V) (count : values.length = batch.length) :
    Dialogue.Run (client.readAttributePairsBatch batch) [⟨.read batch, .ok values⟩] (.ok values) := by
  rw [readAttributePairsBatch]
  refine .ask _ ?_
  dsimp only
  rw [countedValues, if_neg (not_not.mpr count)]
  exact .done _

theorem tooMany_large : lowerCaseClient.TooManyOperations tooMany := ⟨rfl, tooMany_noticed⟩

theorem attributeReads_unbatched_refused :
    attributeBatches none ⟨none, some 2⟩ fivePairs =
      [[("a", 13), ("b", 13)], [("c", 13), ("d", 13)], [("e", 13)]] ∧
    ∃ outcome, lowerCaseClient.ReadAttributePairs none ⟨none, some 2⟩ fivePairs refusedBatch outcome ∧
      outcome = .ok ["a", "b", "c", "d", "e"] ∧ refusedBatch.length ≤ 10 := by
  have batches : attributeBatches none ⟨none, some 2⟩ fivePairs =
      [[("a", 13), ("b", 13)], [("c", 13), ("d", 13)], [("e", 13)]] := by decide
  obtain ⟨k, halved, last⟩ : ∃ k, lowerCaseClient.readAttributePairsBatch (V := String) [("a", 13), ("b", 13)] =
      .ask (.read [("a", 13), ("b", 13)]) k ∧ Dialogue.Run (k (.error tooMany))
        [⟨.read [("a", 13)], .ok ["a"]⟩, ⟨.read [("b", 13)], .ok ["b"]⟩] (.ok ["a", "b"]) := by
    rw [readAttributePairsBatch]
    refine ⟨_, rfl, ?_⟩
    dsimp only
    rw [if_neg tooMany_large.not_retried, if_pos ⟨tooMany_noticed, by decide⟩]
    refine Dialogue.run_attempt.mpr (.inr ⟨_, [_], [_], rfl, run_answered _ _ rfl, ?_⟩)
    exact Dialogue.run_attempt.mpr (.inr ⟨_, [_], [], rfl, run_answered _ _ rfl, .done _⟩)
  have steps : Dialogue.SideBySide (lowerCaseClient.pairsBatchReads none ⟨none, some 2⟩ fivePairs) refusedBatch
      ([["a", "b"], ["c", "d"], ["e"]].map fun values => .done (.ok values)) := by
    rw [pairsBatchReads, batches, List.map_cons, List.map_cons, List.map_cons, List.map_nil, halved]
    refine (Dialogue.SideBySide.of_run (run_answered _ ["c", "d"] rfl) [_] [_]).trans ?_
    refine Dialogue.SideBySide.trans (Dialogue.SideBySide.of_ask _ [] _) ?_
    exact (Dialogue.SideBySide.of_run (run_answered _ ["e"] rfl) [_, _] []).trans
      (Dialogue.SideBySide.of_run last [] [_, _])
  have run : lowerCaseClient.ReadAttributePairs none ⟨none, some 2⟩ fivePairs refusedBatch _ :=
    ⟨[.ok ["a", "b"], .ok ["c", "d"], .ok ["e"]], steps, .all [["a", "b"], ["c", "d"], ["e"]]⟩
  refine ⟨batches, _, run, (attributeReads_unbatched Prod.fst _ _).1 _ _ _ run ?_⟩
  refine Dialogue.answered_of_forall ?_
  simp only [refusedBatch, List.forall_mem_cons]
  exact ⟨rfl, ⟨tooMany_large, by decide⟩, rfl, rfl, rfl, nofun⟩

end HistoryClient
end I3x.OpcUa

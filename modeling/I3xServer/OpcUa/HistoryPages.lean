import Mathlib.Data.Nat.Init
import I3xServer.Container.Attempt
import I3xServer.Container.Parallel
import I3xServer.OpcUa.HistoryReads

/-!
# Paged histories

A server pages the history of every node. Whatever requests it finds too large, the read
puts the pages of every node together; and where anything else fails, it raises.
-/
namespace I3x.OpcUa
open Container

/-- What a server has still to say about a node: pages, of which all but the last one come
with a continuation point, unless it ends without history. -/
inductive NodeHistory (V : Type) where
  | missing
  | last (page : List V)
  | more (page : List V) (rest : NodeHistory V)
  deriving Repr

namespace NodeHistory
variable {V : Type}

def answers : NodeHistory V → Nat
  | .missing => 1
  | .last _ => 1
  | .more _ rest => rest.answers + 1

/-- What the pages add to the values read so far; without history nothing is left of these. -/
def onto (values : List V) : NodeHistory V → List V
  | .missing => []
  | .last page => values ++ page
  | .more page rest => rest.onto (values ++ page)

/-- The pages end without an error. -/
def whole : NodeHistory V → Bool
  | .missing => false
  | .last _ => true
  | .more _ rest => rest.whole

def pages : NodeHistory V → List (List V)
  | .missing => []
  | .last page => [page]
  | .more page rest => page :: rest.pages

/-- All pages together, and nothing for a node that has no history or comes to none. -/
def values (history : NodeHistory V) : List V := if history.whole then history.pages.flatten else []

theorem answers_pos (history : NodeHistory V) : 0 < history.answers := by
  cases history <;> exact Nat.succ_pos _

theorem onto_eq (history : NodeHistory V) (values : List V) :
    history.onto values = if history.whole then values ++ history.pages.flatten else [] := by
  induction history generalizing values with
  | missing => rfl
  | last page => rw [onto, pages, List.flatten_singleton, whole, if_pos rfl]
  | more page rest ih => rw [onto, ih, pages, List.flatten_cons, List.append_assoc, whole]

theorem onto_nil (history : NodeHistory V) : history.onto [] = history.values := by
  rw [onto_eq, List.nil_append, values]

end NodeHistory

/-- Where the server is with a node: the continuation point it waits for, and what comes then. -/
structure HistoryStage (V : Type) where
  point : Option Bytes
  left : NodeHistory V

namespace HistoryClient
variable {V : Type} (client : HistoryClient)

/-- The answer for a node at a stage, and the stage after it. -/
def Answers (stage : HistoryStage V) (result : HistoryReadResult V) (next : HistoryStage V) : Prop :=
  match stage.left with
  | .missing => ∃ text, result.check = some text ∧ client.isHistoryMissingOrUnsupported text = true
  | .last page => result.check = none ∧ result.dataValues = some page ∧ result.continuationPoint.getD [] = []
  | .more page rest => result.check = none ∧ result.dataValues = some page ∧
      ∃ point, point ≠ [] ∧ result.continuationPoint = some point ∧ next = ⟨some point, rest⟩

/-- Every node of a request is answered, and only these move on. -/
structure Paged (stages : String → HistoryStage V) (nodesToRead : List (String × Option Bytes))
    (results : List (HistoryReadResult V)) (next : String → HistoryStage V) : Prop where
  each : List.Forall₂ (fun entry result => client.Answers (stages entry.1) result (next entry.1)) nodesToRead results
  others : ∀ nodeId, nodeId ∉ nodesToRead.map Prod.fst → next nodeId = stages nodeId

/-- The server serves the next page of every node, or finds a request for several nodes too large. -/
def Allowed (stages : String → HistoryStage V) (nodesToRead : List (String × Option Bytes)) :
    Except RequestError (List (HistoryReadResult V)) → (String → HistoryStage V) → Prop
  | .ok results, next => client.Paged stages nodesToRead results next
  | .error error, next => client.isTooManyOperationsError error = true ∧
      client.shouldRetryAfterDisconnect error = false ∧ 1 < nodesToRead.length ∧ next = stages

/-- A paging server answered the exchanges, as far as they ask with the points it gave. -/
def Served : (String → HistoryStage V) → HistoryLog V → Prop
  | _, [] => True
  | stages, ⟨.historyRead nodesToRead, answer⟩ :: log =>
      (∀ entry ∈ nodesToRead, (stages entry.1).point = entry.2) →
        ∃ next, client.Allowed stages nodesToRead answer next ∧ Served next log
  | _, ⟨.waitForReconnect _, _⟩ :: _ => True

/-- The result of a node whose history is read or missing. -/
def Accepted (result : HistoryReadResult V) : Prop :=
  match result.check with
  | none => ∃ values, result.dataValues = some values
  | some text => client.isHistoryMissingOrUnsupported text = true

/-- The exchanges of a read in which nothing fails but what it makes up for: a request that
is too large is halved, and one on a lost connection is repeated after the reconnect. -/
inductive Settled : HistoryLog V → Prop where
  | nil : Settled []
  | answered {nodesToRead : List (String × Option Bytes)} {results : List (HistoryReadResult V)} {log : HistoryLog V}
      (count : results.length = nodesToRead.length) (accepted : ∀ result ∈ results, client.Accepted result)
      (rest : Settled log) : Settled (⟨.historyRead nodesToRead, .ok results⟩ :: log)
  | repeated {nodesToRead : List (String × Option Bytes)} {results : List (HistoryReadResult V)} {log : HistoryLog V}
      {error : RequestError} (lost : client.shouldRetryAfterDisconnect error = true)
      (count : results.length = nodesToRead.length) (accepted : ∀ result ∈ results, client.Accepted result)
      (rest : Settled log) : Settled (⟨.historyRead nodesToRead, .error error⟩ :: ⟨.waitForReconnect error, .ok ()⟩ ::
        ⟨.historyRead nodesToRead, .ok results⟩ :: log)
  | halved {nodesToRead : List (String × Option Bytes)} {log : HistoryLog V} {error : RequestError}
      (large : client.isTooManyOperationsError error = true) (several : 1 < nodesToRead.length)
      (rest : Settled log) : Settled (⟨.historyRead nodesToRead, .error error⟩ :: log)

variable {client}

/-! ## One request -/

variable (client) in
/-- What a request with its halves can come to. -/
inductive BatchRun : List (String × Option Bytes) → HistoryLog V →
    Except HistoryFailure (List (HistoryReadResult V)) → Prop where
  | refused {nodesToRead : List (String × Option Bytes)} {error : RequestError}
      (found : (nodesToRead.findSome? fun entry => client.getNode entry.1) = some error) :
      BatchRun nodesToRead [] (.error (.raised error))
  | answered {nodesToRead : List (String × Option Bytes)} (results : List (HistoryReadResult V)) :
      BatchRun nodesToRead [⟨.historyRead nodesToRead, .ok results⟩] (counted nodesToRead results)
  | repeated {nodesToRead : List (String × Option Bytes)} {error : RequestError} (results : List (HistoryReadResult V))
      (lost : client.shouldRetryAfterDisconnect error = true) :
      BatchRun nodesToRead [⟨.historyRead nodesToRead, .error error⟩, ⟨.waitForReconnect error, .ok ()⟩,
        ⟨.historyRead nodesToRead, .ok results⟩] (counted nodesToRead results)
  | failed {nodesToRead : List (String × Option Bytes)} {error : RequestError} {log : HistoryLog V}
      {failure : HistoryFailure} (given : client.shouldRetryAfterDisconnect error = true ∨
        ¬ (client.isTooManyOperationsError error = true ∧ 1 < nodesToRead.length)) :
      BatchRun nodesToRead (⟨.historyRead nodesToRead, .error error⟩ :: log) (.error failure)
  | halved {left right : List (String × Option Bytes)} {error : RequestError} {first second : HistoryLog V}
      {outcome : Except HistoryFailure (List (HistoryReadResult V))} {results : List (HistoryReadResult V)}
      (large : client.isTooManyOperationsError error = true) (several : 1 < (left ++ right).length)
      (start : BatchRun left first (.ok results)) (after : BatchRun right second outcome) :
      BatchRun (left ++ right) (⟨.historyRead (left ++ right), .error error⟩ :: (first ++ second))
        (outcome.map (results ++ ·))
  | halfFailed {left right : List (String × Option Bytes)} {error : RequestError} {first : HistoryLog V}
      {failure : HistoryFailure} (large : client.isTooManyOperationsError error = true)
      (several : 1 < (left ++ right).length) (start : BatchRun left first (.error failure)) :
      BatchRun (left ++ right) (⟨.historyRead (left ++ right), .error error⟩ :: first) (.error failure)

theorem BatchRun.of_run {nodesToRead : List (String × Option Bytes)} {log : HistoryLog V}
    {outcome : Except HistoryFailure (List (HistoryReadResult V))}
    (run : Dialogue.Run (client.readHistoryBatch nodesToRead) log outcome) : client.BatchRun nodesToRead log outcome := by
  induction size : nodesToRead.length using Nat.strong_induction_on generalizing nodesToRead log outcome with
  | _ n ih =>
      rw [readHistoryBatch] at run
      split at run
      · next refused =>
          obtain ⟨rfl, rfl⟩ := Dialogue.run_done.mp run
          exact .refused refused
      · obtain ⟨answer, rest, rfl, answered⟩ := Dialogue.run_ask.mp run
        clear run
        cases answer with
        | ok results =>
            obtain ⟨rfl, rfl⟩ := Dialogue.run_done.mp answered
            exact .answered results
        | error error =>
            dsimp only at answered
            split at answered
            · next lost =>
                obtain ⟨answer, rest, rfl, reconnected⟩ := Dialogue.run_ask.mp answered
                clear answered
                cases answer with
                | error gone =>
                    obtain ⟨rfl, rfl⟩ := Dialogue.run_done.mp reconnected
                    exact .failed (.inl lost)
                | ok back =>
                    obtain ⟨answer, rest, rfl, again⟩ := Dialogue.run_ask.mp reconnected
                    clear reconnected
                    cases answer with
                    | error error =>
                        obtain ⟨rfl, rfl⟩ := Dialogue.run_done.mp again
                        exact .failed (.inl lost)
                    | ok results =>
                        obtain ⟨rfl, rfl⟩ := Dialogue.run_done.mp again
                        exact .repeated results lost
            · split at answered
              · next large =>
                  obtain ⟨large, several⟩ := large
                  have halves := List.take_append_drop (max 1 (nodesToRead.length / 2)) nodesToRead
                  have shorter : (nodesToRead.take (max 1 (nodesToRead.length / 2))).length < n ∧
                      (nodesToRead.drop (max 1 (nodesToRead.length / 2))).length < n := by
                    rw [List.length_take, List.length_drop]
                    omega
                  generalize nodesToRead.take (max 1 (nodesToRead.length / 2)) = left at answered halves shorter
                  generalize nodesToRead.drop (max 1 (nodesToRead.length / 2)) = right at answered halves shorter
                  subst halves
                  rcases Dialogue.run_attempt.mp answered with ⟨e, start, rfl⟩ | ⟨results, first, last, rfl, start, after⟩
                  · exact .halfFailed large several (ih _ shorter.1 start rfl)
                  · have start := ih _ shorter.1 start rfl
                    rcases Dialogue.run_attempt.mp after with ⟨e, rest, rfl⟩ | ⟨more, second, none, rfl, rest, ended⟩
                    · exact .halved large several start (ih _ shorter.2 rest rfl)
                    · obtain ⟨rfl, rfl⟩ := Dialogue.run_done.mp ended
                      rw [List.append_nil]
                      exact .halved large several start (ih _ shorter.2 rest rfl)
              · next small =>
                  obtain ⟨rfl, rfl⟩ := Dialogue.run_done.mp answered
                  exact .failed (.inr small)

theorem Settled.append {first second : HistoryLog V} (settled : client.Settled first) (more : client.Settled second) :
    client.Settled (first ++ second) := by
  induction settled with
  | nil => exact more
  | answered count accepted _ ih => exact .answered count accepted ih
  | repeated lost count accepted _ ih => exact .repeated lost count accepted ih
  | halved large several _ ih => exact .halved large several ih

theorem counted_ok {nodesToRead : List (String × Option Bytes)} {results counts : List (HistoryReadResult V)}
    (ok : counted nodesToRead results = .ok counts) : counts = results ∧ results.length = nodesToRead.length := by
  unfold counted at ok
  split at ok
  · cases ok
  · next same => exact ⟨(Except.ok.inj ok).symm, not_not.mp same⟩

/-- Accepted results come from exchanges in which nothing fails for good. -/
theorem BatchRun.settled {nodesToRead : List (String × Option Bytes)} {log : HistoryLog V}
    {outcome : Except HistoryFailure (List (HistoryReadResult V))} (run : client.BatchRun nodesToRead log outcome)
    {results : List (HistoryReadResult V)} (ok : outcome = .ok results)
    (accepted : ∀ result ∈ results, client.Accepted result) : client.Settled log := by
  induction run generalizing results with
  | refused => cases ok
  | answered answers =>
      obtain ⟨rfl, count⟩ := counted_ok ok
      exact .answered count accepted .nil
  | repeated answers lost =>
      obtain ⟨rfl, count⟩ := counted_ok ok
      exact .repeated lost count accepted .nil
  | failed => cases ok
  | @halved left right error first second outcome firsts large several start after ihStart ihAfter =>
      cases outcome with
      | error failure => cases ok
      | ok seconds =>
          cases ok
          exact .halved large several (.append (ihStart rfl fun r m => accepted r (List.mem_append_left _ m))
            (ihAfter rfl fun r m => accepted r (List.mem_append_right _ m)))
  | halfFailed => cases ok

theorem Paged.append {stages middle next : String → HistoryStage V} {left right : List (String × Option Bytes)}
    {first second : List (HistoryReadResult V)} (distinct : ((left ++ right).map Prod.fst).Nodup)
    (start : client.Paged stages left first middle) (after : client.Paged middle right second next) :
    client.Paged stages (left ++ right) (first ++ second) next := by
  rw [List.map_append, List.nodup_append] at distinct
  obtain ⟨-, -, apart⟩ := distinct
  -- The second request leaves the nodes of the first, and the first left those of the second.
  have kept : ∀ entry ∈ left, next entry.1 = middle entry.1 := fun entry m =>
    after.others entry.1 fun n => apart _ (List.mem_map_of_mem m) _ n rfl
  have held : ∀ entry ∈ right, middle entry.1 = stages entry.1 := fun entry m =>
    start.others entry.1 fun n => apart _ n _ (List.mem_map_of_mem m) rfl
  have firsts : List.Forall₂ (fun entry result => client.Answers (stages entry.1) result (next entry.1)) left first := by
    refine ((List.forall₂_and_left _ _).mpr ⟨kept, start.each⟩).imp fun entry result answers => ?_
    rw [answers.1]
    exact answers.2
  have seconds : List.Forall₂ (fun entry result => client.Answers (stages entry.1) result (next entry.1)) right second := by
    refine ((List.forall₂_and_left _ _).mpr ⟨held, after.each⟩).imp fun entry result answers => ?_
    rw [← answers.1]
    exact answers.2
  refine ⟨List.rel_append firsts seconds, fun nodeId out => ?_⟩
  rw [List.map_append, List.mem_append, not_or] at out
  rw [after.others nodeId out.2, start.others nodeId out.1]

/-- A paging server's answers reach the nodes they are for, however requests are halved. -/
theorem BatchRun.served {nodesToRead : List (String × Option Bytes)} {log : HistoryLog V}
    {outcome : Except HistoryFailure (List (HistoryReadResult V))} (run : client.BatchRun nodesToRead log outcome)
    {stages : String → HistoryStage V} {more : HistoryLog V}
    (named : ∀ entry ∈ nodesToRead, client.getNode entry.1 = none) (distinct : (nodesToRead.map Prod.fst).Nodup)
    (current : ∀ entry ∈ nodesToRead, (stages entry.1).point = entry.2) (served : client.Served stages (log ++ more)) :
    ∃ results next, outcome = .ok results ∧ client.Paged stages nodesToRead results next ∧ client.Served next more := by
  induction run generalizing stages more with
  | refused found =>
      rw [List.findSome?_eq_none_iff.mpr named] at found
      cases found
  | answered results =>
      obtain ⟨next, allowed, later⟩ := served current
      refine ⟨results, next, ?_, allowed, later⟩
      rw [counted, if_neg (not_not.mpr allowed.each.length_eq.symm)]
  | repeated results lost =>
      obtain ⟨next, ⟨-, kept, -⟩, -⟩ := served current
      rw [lost] at kept
      cases kept
  | failed given =>
      obtain ⟨next, ⟨large, kept, several, -⟩, -⟩ := served current
      rcases given with lost | small
      · rw [lost] at kept
        cases kept
      · exact absurd ⟨large, several⟩ small
  | @halved left right error first second outcome firsts large several start after ihStart ihAfter =>
      obtain ⟨next, ⟨-, -, -, rfl⟩, later⟩ := served current
      have apart := distinct
      rw [List.map_append, List.nodup_append] at apart
      obtain ⟨distinctLeft, distinctRight, apart⟩ := apart
      have later : client.Served next (first ++ (second ++ more)) := by
        rw [← List.append_assoc]
        exact later
      obtain ⟨results, middle, same, paged, later⟩ := ihStart (fun entry m => named entry (List.mem_append_left _ m))
        distinctLeft (fun entry m => current entry (List.mem_append_left _ m)) later
      cases same
      obtain ⟨seconds, last, rfl, pagedAfter, later⟩ := ihAfter
        (fun entry m => named entry (List.mem_append_right _ m)) distinctRight
        (fun entry m => by
          rw [paged.others entry.1 fun n => apart _ n _ (List.mem_map_of_mem m) rfl]
          exact current entry (List.mem_append_right _ m)) later
      exact ⟨firsts ++ seconds, last, rfl, paged.append distinct pagedAfter, later⟩
  | @halfFailed left right error first failure large several start ih =>
      obtain ⟨next, ⟨-, -, -, rfl⟩, later⟩ := served current
      rw [List.map_append, List.nodup_append] at distinct
      obtain ⟨results, middle, same, -, -⟩ := ih (fun entry m => named entry (List.mem_append_left _ m)) distinct.1
        (fun entry m => current entry (List.mem_append_left _ m)) later
      cases same

/-- Every node of a request has its result. -/
theorem BatchRun.length_eq {nodesToRead : List (String × Option Bytes)} {log : HistoryLog V}
    {outcome : Except HistoryFailure (List (HistoryReadResult V))} (run : client.BatchRun nodesToRead log outcome)
    {results : List (HistoryReadResult V)} (ok : outcome = .ok results) : results.length = nodesToRead.length := by
  induction run generalizing results with
  | refused => cases ok
  | answered answers =>
      obtain ⟨rfl, count⟩ := counted_ok ok
      exact count
  | repeated answers =>
      obtain ⟨rfl, count⟩ := counted_ok ok
      exact count
  | failed => cases ok
  | @halved left right error first second outcome firsts _ _ _ _ ihStart ihAfter =>
      cases outcome with
      | error failure => cases ok
      | ok seconds =>
          cases ok
          rw [List.length_append, List.length_append, ihStart rfl, ihAfter rfl]
  | halfFailed => cases ok

/-! ## One round -/

/-- What a round has of a node: all its values, or those so far with the point to go on from. -/
def Taken (expected : List V) (answers : Nat) (stage : HistoryStage V) (round : HistoryRound V) (nodeId : String) : Prop :=
  (nodeId ∉ round.nextNodeIds ∧ round.values.get? nodeId = some expected) ∨
  (nodeId ∈ round.nextNodeIds ∧ stage.point = round.nextContinuations.get? nodeId ∧ stage.left.answers < answers ∧
    ∃ values, round.values.get? nodeId = some values ∧ stage.left.onto values = expected)

/-- A round goes on to another without touching the nodes that are not listed. -/
structure Beside (nodeIds : List String) (round later : HistoryRound V) : Prop where
  values : ∀ nodeId, nodeId ∉ nodeIds → later.values.get? nodeId = round.values.get? nodeId
  points : ∀ nodeId, nodeId ∉ nodeIds → later.nextContinuations.get? nodeId = round.nextContinuations.get? nodeId
  members : ∀ nodeId, nodeId ∉ nodeIds → (nodeId ∈ later.nextNodeIds ↔ nodeId ∈ round.nextNodeIds)
  distinct : round.nextNodeIds.Nodup → later.nextNodeIds.Nodup

theorem Beside.trans {nodeId : String} {nodeIds : List String} {round middle later : HistoryRound V}
    (first : Beside [nodeId] round middle) (rest : Beside nodeIds middle later) : Beside (nodeId :: nodeIds) round later := by
  have out {other : String} (absent : other ∉ nodeId :: nodeIds) : other ∉ [nodeId] ∧ other ∉ nodeIds :=
    ⟨fun m => absent (List.mem_singleton.mp m ▸ List.mem_cons_self), fun m => absent (List.mem_cons_of_mem _ m)⟩
  refine ⟨fun other absent => ?_, fun other absent => ?_, fun other absent => ?_, fun old => rest.distinct (first.distinct old)⟩
  · rw [rest.values other (out absent).2, first.values other (out absent).1]
  · rw [rest.points other (out absent).2, first.points other (out absent).1]
  · rw [rest.members other (out absent).2, first.members other (out absent).1]

theorem Taken.beside {expected : List V} {answers : Nat} {stage : HistoryStage V} {nodeIds : List String}
    {round later : HistoryRound V} {nodeId : String} (taken : Taken expected answers stage round nodeId)
    (beside : Beside nodeIds round later) (absent : nodeId ∉ nodeIds) : Taken expected answers stage later nodeId := by
  unfold Taken
  rw [beside.members nodeId absent, beside.values nodeId absent, beside.points nodeId absent]
  exact taken

theorem takeResult_answer {round : HistoryRound V} {nodeId : String} {result : HistoryReadResult V}
    {stage next : HistoryStage V} {values : List V} (answers : client.Answers stage result next)
    (fresh : nodeId ∉ round.nextNodeIds) (held : round.values.get? nodeId = some values) :
    ∃ later, client.takeResult round (nodeId, result) = .ok later ∧
      Taken (stage.left.onto values) stage.left.answers next later nodeId ∧ Beside [nodeId] round later := by
  have other {id : String} (absent : id ∉ [nodeId]) : id ≠ nodeId := fun same => absent (List.mem_singleton.mpr same)
  unfold Answers at answers
  unfold takeResult
  split at answers
  · next missing =>
      obtain ⟨text, check, missingText⟩ := answers
      rw [check]
      dsimp only
      rw [if_pos missingText, missing]
      refine ⟨_, rfl, .inl ⟨fresh, Dict.get?_set_self _ _ _⟩, ?_⟩
      exact ⟨fun id absent => Dict.get?_set_ne _ _ (other absent), fun _ _ => rfl, fun _ _ => Iff.rfl, id⟩
  · next page last =>
      obtain ⟨check, data, point⟩ := answers
      have ended : result.continuationPoint = none ∨ result.continuationPoint = some [] := by
        cases given : result.continuationPoint with
        | none => exact .inl rfl
        | some bytes =>
            rw [given] at point
            exact .inr (congrArg some point)
      rcases ended with given | given
      all_goals
        rw [check, data, given, last]
        refine ⟨_, rfl, .inl ⟨fresh, ?_⟩, ?_⟩
        · rw [Dict.get?_modify, if_pos rfl, held]
          rfl
        · refine ⟨fun id absent => ?_, fun _ _ => rfl, fun _ _ => Iff.rfl, id⟩
          rw [Dict.get?_modify, if_neg (other absent)]
  · next page rest more =>
      obtain ⟨check, data, point, some', given, rfl⟩ := answers
      obtain ⟨byte, bytes, rfl⟩ := List.exists_cons_of_ne_nil some'
      rw [check, data, given, more]
      refine ⟨_, rfl, .inr ⟨List.mem_append_right _ (List.mem_singleton_self _), ?_, Nat.lt_succ_self _, ?_⟩, ?_⟩
      · exact (Dict.get?_set_self _ _ _).symm
      · refine ⟨values ++ page, ?_, rfl⟩
        rw [Dict.get?_modify, if_pos rfl, held]
        rfl
      · refine ⟨fun id absent => ?_, fun id absent => Dict.get?_set_ne _ _ (other absent), fun id absent => ?_, fun old => ?_⟩
        · rw [Dict.get?_modify, if_neg (other absent)]
        · rw [List.mem_append, or_iff_left absent]
        · refine List.nodup_append.mpr ⟨old, List.nodup_singleton _, ?_⟩
          rintro a m b n rfl
          cases List.mem_singleton.mp n
          exact fresh m

/-- A round over the answers of a paging server. -/
theorem takeResults_answers {stages next : String → HistoryStage V} {expected : String → List V}
    {activeNodeIds : List String} {activeResults : List (HistoryReadResult V)} (round : HistoryRound V)
    (answers : List.Forall₂ (fun nodeId result => client.Answers (stages nodeId) result (next nodeId)) activeNodeIds
      activeResults) (distinct : activeNodeIds.Nodup) (fresh : ∀ nodeId ∈ activeNodeIds, nodeId ∉ round.nextNodeIds)
    (held : ∀ nodeId ∈ activeNodeIds, ∃ values, round.values.get? nodeId = some values ∧
      (stages nodeId).left.onto values = expected nodeId) :
    ∃ later, (activeNodeIds.zip activeResults).foldlM client.takeResult round = .ok later ∧
      (∀ nodeId ∈ activeNodeIds, Taken (expected nodeId) (stages nodeId).left.answers (next nodeId) later nodeId) ∧
      Beside activeNodeIds round later := by
  induction answers generalizing round with
  | nil => exact ⟨round, rfl, nofun, ⟨fun _ _ => rfl, fun _ _ => rfl, fun _ _ => Iff.rfl, id⟩⟩
  | @cons nodeId result nodeIds results answer _ ih =>
      obtain ⟨apart, distinct⟩ := List.nodup_cons.mp distinct
      obtain ⟨values, found, total⟩ := held nodeId List.mem_cons_self
      obtain ⟨middle, step, taken, beside⟩ := takeResult_answer answer (fresh nodeId List.mem_cons_self) found
      have absent {id : String} (m : id ∈ nodeIds) : id ∉ [nodeId] := fun n => apart (List.mem_singleton.mp n ▸ m)
      obtain ⟨later, ran, takens, besides⟩ := ih middle distinct
        (fun id m n => fresh id (List.mem_cons_of_mem _ m) ((beside.members id (absent m)).mp n))
        (fun id m => by
          rw [beside.values id (absent m)]
          exact held id (List.mem_cons_of_mem _ m))
      refine ⟨later, ?_, fun id m => ?_, beside.trans besides⟩
      · rw [List.zip_cons_cons, List.foldlM_cons]
        exact bind_eq_ok.mpr ⟨middle, step, ran⟩
      · rcases List.mem_cons.mp m with rfl | m
        · rw [← total]
          exact taken.beside besides apart
        · exact takens id m

theorem takeResults_accepted {entries : List (String × HistoryReadResult V)} {round later : HistoryRound V}
    (ok : entries.foldlM client.takeResult round = .ok later) : ∀ entry ∈ entries, client.Accepted entry.2 := by
  induction entries generalizing round with
  | nil => nofun
  | cons entry entries ih =>
      rw [List.foldlM_cons] at ok
      obtain ⟨middle, step, rest⟩ := bind_eq_ok.mp ok
      intro e m
      rcases List.mem_cons.mp m with rfl | m
      · unfold takeResult at step
        unfold Accepted
        split at step
        · next text check =>
            rw [check]
            split at step
            · assumption
            · cases step
        · next check =>
            rw [check]
            split at step
            · cases step
            · next values data => exact ⟨values, data⟩
      · exact ih rest e m

/-! ## Whole reads -/

theorem HistoryRound.ids_nodesToRead (round : HistoryRound V) : round.nodesToRead.map Prod.fst = round.nextNodeIds := by
  rw [HistoryRound.nodesToRead, List.map_map]
  exact List.map_id _

/-- What the rounds from one on can come to. -/
theorem followContinuations_cases {fuel : Nat} {activeNodeIds : List String}
    {activeResults : List (HistoryReadResult V)} {values : Dict String (List V)} {log : HistoryLog V}
    {outcome : Except HistoryFailure (Dict String (List V))}
    (run : Dialogue.Run (client.followContinuations fuel activeNodeIds activeResults values) log outcome) :
    (∃ failure, outcome = .error failure ∧
      (activeNodeIds.zip activeResults).foldlM client.takeResult ⟨values, [], .empty⟩ = .error failure) ∨
    ∃ round, (activeNodeIds.zip activeResults).foldlM client.takeResult ⟨values, [], .empty⟩ = .ok round ∧
      ((round.nextNodeIds = [] ∧ log = [] ∧ outcome = .ok round.values) ∨
        (round.nextNodeIds ≠ [] ∧ fuel = 0 ∧ outcome = .error .exhausted) ∨
        ∃ rest, fuel = rest + 1 ∧ Dialogue.Run ((client.readHistoryBatch round.nodesToRead).attempt fun results =>
          client.followContinuations rest round.nextNodeIds results round.values) log outcome) := by
  rw [followContinuations] at run
  split at run
  · next failure bad =>
      obtain ⟨-, rfl⟩ := Dialogue.run_done.mp run
      exact .inl ⟨failure, rfl, bad⟩
  · next round ran =>
      refine .inr ⟨round, ran, ?_⟩
      split at run
      · next none => exact .inl ⟨none, Dialogue.run_done.mp run⟩
      · next some' =>
          cases fuel with
          | zero => exact .inr (.inl ⟨some', rfl, (Dialogue.run_done.mp run).2⟩)
          | succ rest => exact .inr (.inr ⟨rest, rfl, run⟩)

/-- The rounds of a batch put the pages of every active node together. -/
theorem followContinuations_served {fuel : Nat} {stages next : String → HistoryStage V} {expected : String → List V}
    {activeNodeIds : List String} {activeResults : List (HistoryReadResult V)} {values : Dict String (List V)}
    {log : HistoryLog V} {outcome : Except HistoryFailure (Dict String (List V))}
    (run : Dialogue.Run (client.followContinuations fuel activeNodeIds activeResults values) log outcome)
    (served : client.Served next log)
    (answers : List.Forall₂ (fun nodeId result => client.Answers (stages nodeId) result (next nodeId)) activeNodeIds
      activeResults)
    (named : ∀ nodeId ∈ activeNodeIds, client.getNode nodeId = none) (distinct : activeNodeIds.Nodup)
    (enough : ∀ nodeId ∈ activeNodeIds, (stages nodeId).left.answers ≤ fuel + 1)
    (held : ∀ nodeId ∈ activeNodeIds, ∃ acc, values.get? nodeId = some acc ∧
      (stages nodeId).left.onto acc = expected nodeId) :
    ∃ all, outcome = .ok all ∧ ∀ nodeId,
      all.get? nodeId = if nodeId ∈ activeNodeIds then some (expected nodeId) else values.get? nodeId := by
  induction fuel using Nat.strong_induction_on
    generalizing stages next activeNodeIds activeResults values log outcome with
  | _ fuel ih =>
      obtain ⟨round, ran, taken, beside⟩ := takeResults_answers ⟨values, [], .empty⟩ answers distinct
        (fun _ _ => List.not_mem_nil) held
      have active {nodeId : String} (m : nodeId ∈ round.nextNodeIds) : nodeId ∈ activeNodeIds := by
        by_contra out
        exact List.not_mem_nil ((beside.members nodeId out).mp m)
      have going {nodeId : String} (m : nodeId ∈ round.nextNodeIds) :=
        (taken nodeId (active m)).resolve_left fun ended => ended.1 m
      have ended (nodeId : String) (out : nodeId ∉ round.nextNodeIds) : round.values.get? nodeId =
          if nodeId ∈ activeNodeIds then some (expected nodeId) else values.get? nodeId := by
        split
        · next m => exact ((taken nodeId m).resolve_right fun more => out more.1).2
        · next absent => exact beside.values nodeId absent
      rcases followContinuations_cases run with ⟨failure, -, bad⟩ | ⟨again, same, cases⟩
      · rw [ran] at bad
        cases bad
      · cases ran.symm.trans same
        rcases cases with ⟨none, -, rfl⟩ | ⟨some', zero, -⟩ | ⟨rest, rfl, follow⟩
        · exact ⟨round.values, rfl, fun nodeId => ended nodeId (none ▸ List.not_mem_nil)⟩
        · -- Every node that goes on has an answer left beyond the last round.
          obtain ⟨nodeId, nodeIds, eq⟩ := List.exists_cons_of_ne_nil some'
          have m : nodeId ∈ round.nextNodeIds := eq ▸ List.mem_cons_self
          have fewer := (going m).2.2.1
          have left := (next nodeId).left.answers_pos
          have bound := enough nodeId (active m)
          omega
        · have each {entry : String × Option Bytes} (m : entry ∈ round.nodesToRead) :
              entry.1 ∈ round.nextNodeIds ∧ (next entry.1).point = entry.2 := by
            obtain ⟨nodeId, n, rfl⟩ := List.mem_map.mp m
            exact ⟨n, (going n).2.1⟩
          have distinctNext : round.nextNodeIds.Nodup := beside.distinct List.nodup_nil
          have batch {first second : HistoryLog V} {answer : Except HistoryFailure (List (HistoryReadResult V))}
              (start : Dialogue.Run (client.readHistoryBatch round.nodesToRead) first answer)
              (served : client.Served next (first ++ second)) :=
            (BatchRun.of_run start).served (fun entry m => named entry.1 (active (each m).1))
              (by rwa [round.ids_nodesToRead]) (fun entry m => (each m).2) served
          rcases Dialogue.run_attempt.mp follow with ⟨failure, start, -⟩ | ⟨results, first, second, rfl, start, after⟩
          · rw [← List.append_nil log] at served
            obtain ⟨results, last, bad, -, -⟩ := batch start served
            cases bad
          · obtain ⟨results, last, same, paged, servedAfter⟩ := batch start served
            cases same
            have pagedNext : List.Forall₂ (fun nodeId result => client.Answers (next nodeId) result (last nodeId))
                round.nextNodeIds results := List.forall₂_map_left_iff.mp paged.each
            obtain ⟨all, rfl, found⟩ := ih rest (Nat.lt_succ_self _) after servedAfter pagedNext
              (fun nodeId m => named nodeId (active m)) distinctNext
              (fun nodeId m => by
                have fewer := (going m).2.2.1
                have bound := enough nodeId (active m)
                omega)
              fun nodeId m => (going m).2.2.2
            refine ⟨all, rfl, fun nodeId => ?_⟩
            rw [found]
            split
            · next m => rw [if_pos (active m)]
            · next out => exact ended nodeId out

/-- A round in which nothing fails takes accepted results only. -/
theorem followContinuations_settled {fuel : Nat} {activeNodeIds : List String}
    {activeResults : List (HistoryReadResult V)} {values all : Dict String (List V)} {log : HistoryLog V}
    (run : Dialogue.Run (client.followContinuations fuel activeNodeIds activeResults values) log (.ok all))
    (count : activeResults.length = activeNodeIds.length) :
    (∀ result ∈ activeResults, client.Accepted result) ∧ client.Settled log := by
  induction fuel using Nat.strong_induction_on generalizing activeNodeIds activeResults values log with
  | _ fuel ih =>
      rcases followContinuations_cases run with ⟨failure, bad, -⟩ | ⟨round, ran, cases⟩
      · cases bad
      · have accepted (result : HistoryReadResult V) (m : result ∈ activeResults) : client.Accepted result := by
          rw [← List.map_snd_zip (Nat.le_of_eq count)] at m
          obtain ⟨entry, n, rfl⟩ := List.mem_map.mp m
          exact takeResults_accepted ran entry n
        refine ⟨accepted, ?_⟩
        rcases cases with ⟨-, rfl, -⟩ | ⟨-, -, bad⟩ | ⟨rest, rfl, follow⟩
        · exact .nil
        · cases bad
        · rcases Dialogue.run_attempt.mp follow with ⟨failure, -, bad⟩ | ⟨results, first, second, rfl, start, after⟩
          · cases bad
          · have batch := BatchRun.of_run start
            have count : results.length = round.nextNodeIds.length := by
              rw [batch.length_eq rfl, ← round.ids_nodesToRead, List.length_map]
            obtain ⟨accepted, settled⟩ := ih rest (Nat.lt_succ_self _) after count
            exact (batch.settled rfl accepted).append settled

/-- The stages before anything is read. -/
def unread (histories : String → NodeHistory V) (nodeId : String) : HistoryStage V := ⟨none, histories nodeId⟩

theorem readHistoryOf_served {fuel : Nat} {histories : String → NodeHistory V} {nodeBatch : List String}
    {log : HistoryLog V} {outcome : Except HistoryFailure (Dict String (List V))}
    (run : Dialogue.Run (client.readHistoryOf fuel nodeBatch) log outcome)
    (served : client.Served (unread histories) log) (named : ∀ nodeId ∈ nodeBatch, client.getNode nodeId = none)
    (distinct : nodeBatch.Nodup) (enough : ∀ nodeId ∈ nodeBatch, (histories nodeId).answers ≤ fuel + 1) :
    ∃ all, outcome = .ok all ∧
      ∀ nodeId, all.get? nodeId = if nodeId ∈ nodeBatch then some ((histories nodeId).onto []) else none := by
  have ids : (nodeBatch.map fun nodeId => ((nodeId, none) : String × Option Bytes)).map Prod.fst = nodeBatch := by
    rw [List.map_map]
    exact List.map_id _
  have batch {first second : HistoryLog V} {answer : Except HistoryFailure (List (HistoryReadResult V))}
      (start : Dialogue.Run (client.readHistoryBatch (nodeBatch.map fun nodeId => (nodeId, none))) first answer)
      (served : client.Served (unread histories) (first ++ second)) :=
    (BatchRun.of_run start).served
      (fun entry m => by
        obtain ⟨nodeId, n, rfl⟩ := List.mem_map.mp m
        exact named nodeId n)
      (by rwa [ids])
      (fun entry m => by
        obtain ⟨nodeId, n, rfl⟩ := List.mem_map.mp m
        rfl) served
  rcases Dialogue.run_attempt.mp run with ⟨failure, start, -⟩ | ⟨results, first, second, rfl, start, after⟩
  · rw [← List.append_nil log] at served
    obtain ⟨results, last, bad, -, -⟩ := batch start served
    cases bad
  · obtain ⟨results, next, same, paged, later⟩ := batch start served
    cases same
    have answers : List.Forall₂ (fun nodeId result => client.Answers (unread histories nodeId) result (next nodeId))
        nodeBatch results := List.forall₂_map_left_iff.mp paged.each
    have emptied (nodeId : String) : (Dict.ofList (nodeBatch.map fun nodeId => (nodeId, ([] : List V)))).get? nodeId =
        if nodeId ∈ nodeBatch then some [] else none :=
      Dict.get?_update_graph .empty nodeBatch (fun _ => []) nodeId
    have held (nodeId : String) (m : nodeId ∈ nodeBatch) : ∃ acc,
        (Dict.ofList (nodeBatch.map fun nodeId => (nodeId, ([] : List V)))).get? nodeId = some acc ∧
          (unread histories nodeId).left.onto acc = (histories nodeId).onto [] :=
      ⟨[], by rw [emptied, if_pos m], rfl⟩
    obtain ⟨all, rfl, found⟩ := followContinuations_served after later answers named distinct enough held
    refine ⟨all, rfl, fun nodeId => ?_⟩
    rw [found, emptied]
    split
    · rfl
    · rfl

theorem readHistoryOf_settled {fuel : Nat} {nodeBatch : List String} {log : HistoryLog V}
    {all : Dict String (List V)} (run : Dialogue.Run (client.readHistoryOf fuel nodeBatch) log (.ok all)) :
    client.Settled log := by
  rcases Dialogue.run_attempt.mp run with ⟨failure, -, bad⟩ | ⟨results, first, second, rfl, start, after⟩
  · cases bad
  · have batch := BatchRun.of_run start
    obtain ⟨accepted, settled⟩ := followContinuations_settled after (by rw [batch.length_eq rfl, List.length_map])
    exact (batch.settled rfl accepted).append settled

theorem get?_mergeBatches {V : Type} {batches : List (Dict String (List V))} {nodeBatches : List (List String)}
    {f : String → List V} (each : List.Forall₂ (fun nodeBatch (values : Dict String (List V)) => ∀ nodeId,
      values.get? nodeId = if nodeId ∈ nodeBatch then some (f nodeId) else none) nodeBatches batches) (nodeId : String) :
    (mergeBatches batches).get? nodeId = if nodeId ∈ nodeBatches.flatten then some (f nodeId) else none := by
  have fold (start : Dict String (List V)) :
      (batches.foldl (fun values batch => values.update batch.entries) start).get? nodeId =
        if nodeId ∈ nodeBatches.flatten then some (f nodeId) else start.get? nodeId := by
    induction each generalizing start with
    | nil => rfl
    | @cons nodeBatch values nodeBatches batches here _ ih =>
        rw [List.foldl_cons, ih, Dict.get?_update_entries, here nodeId]
        simp only [List.flatten_cons, List.mem_append]
        by_cases later : nodeId ∈ nodeBatches.flatten
        · rw [if_pos later, if_pos (.inr later)]
        · rw [if_neg later]
          by_cases first : nodeId ∈ nodeBatch
          · rw [if_pos first, if_pos (.inl first), Option.some_or]
          · rw [if_neg first, if_neg fun m => m.elim first later, Option.none_or]
  exact fold .empty

/-- On a paging server a read puts together the pages of every node, and it gives an empty
list for a node that has no history or comes to none; a read with any other failure that a
reconnect does not repair raises. -/
theorem readHistoryValues_complete (client : HistoryClient) (fuel : Nat) (maxNodes : Option Nat) (nodeIds : List String)
    (distinct : nodeIds.Nodup) (runs : List (HistoryLog V × Except HistoryFailure (Dict String (List V))))
    (outcome : Except HistoryFailure (Dict String (List V)))
    (run : client.ReadHistoryValues fuel maxNodes nodeIds runs outcome) :
    (∀ histories : String → NodeHistory V, (∀ nodeId ∈ nodeIds, client.getNode nodeId = none ∧
        (histories nodeId).answers ≤ fuel + 1) → (∀ r ∈ runs, client.Served (unread histories) r.1) →
      ∃ values, outcome = .ok values ∧ ∀ nodeId, values.get? nodeId = if nodeId ∈ nodeIds then
        some (histories nodeId).values else none) ∧
    (∀ values, outcome = .ok values → ∀ r ∈ runs, client.Settled r.1) := by
  obtain ⟨ran, gathered⟩ := run
  constructor
  · intro histories known served
    have whole : (historyBatches maxNodes nodeIds).flatten = nodeIds :=
      flatten_chunkedFrom (Nat.lt_of_lt_of_le Nat.zero_lt_one (Nat.le_max_left _ _)) _ nodeIds (Nat.le_refl _)
    have each : List.Forall₂ (fun nodeBatch (outcome : Except HistoryFailure (Dict String (List V))) =>
        ∃ all, outcome = .ok all ∧ ∀ nodeId,
          all.get? nodeId = if nodeId ∈ nodeBatch then some (histories nodeId).values else none)
        (historyBatches maxNodes nodeIds) (runs.map Prod.snd) := by
      obtain ⟨lengths, ran⟩ := List.forall₂_iff_zip.mp ran
      refine List.forall₂_map_right_iff.mpr (List.forall₂_iff_zip.mpr ⟨lengths, fun {nodeBatch run} m => ?_⟩)
      obtain ⟨ofBatch, ofRun⟩ := List.of_mem_zip m
      have inside (nodeId : String) (n : nodeId ∈ nodeBatch) : nodeId ∈ nodeIds :=
        whole ▸ List.mem_flatten.mpr ⟨nodeBatch, ofBatch, n⟩
      have distinctBatch : nodeBatch.Nodup := (whole ▸ distinct).sublist (List.sublist_flatten_of_mem ofBatch)
      obtain ⟨all, ok, found⟩ := readHistoryOf_served (ran m) (served run ofRun) (fun id n => (known id (inside id n)).1)
        distinctBatch fun id n => (known id (inside id n)).2
      exact ⟨all, ok, fun nodeId => by rw [found, NodeHistory.onto_nil]⟩
    generalize runs.map Prod.snd = outcomes at each gathered
    cases gathered with
    | all batches =>
        have dicts := (List.forall₂_map_right_iff.mp each).imp fun nodeBatch (batch : Dict String (List V)) found => by
          obtain ⟨all, same, found⟩ := found
          cases same
          exact found
        exact ⟨_, rfl, fun nodeId => by rw [get?_mergeBatches dicts, whole]⟩
    | raised m =>
        obtain ⟨nodeBatch, -, all, bad, -⟩ := forall₂_mem_right each m
        cases bad
  · rintro values rfl run m
    generalize eq : runs.map Prod.snd = outcomes at gathered
    cases gathered with
    | all batches =>
        obtain ⟨all, -, ok⟩ := List.mem_map.mp (eq ▸ List.mem_map_of_mem m : run.2 ∈ batches.map .ok)
        obtain ⟨nodeBatch, -, whole⟩ := forall₂_mem_right ran m
        rw [← ok] at whole
        exact readHistoryOf_settled whole

/-! Every server has a run: it may answer by all that it was asked, and by where it is
with every node. -/

abbrev HistoryServer (V : Type) := HistoryLog V → (String → HistoryStage V) → (q : HistoryQuery) → HistoryAnswer V q

variable (client) in
/-- The server pages its histories: a request with the points that it has given is answered so. -/
def Pages (serve : HistoryServer V) : Prop := ∀ past stages nodesToRead,
  (∀ entry ∈ nodesToRead, (stages entry.1).point = entry.2) →
    ∃ next, client.Allowed stages nodesToRead (serve past stages (.historyRead nodesToRead)) next

theorem exists_served {α : Type} {serve : HistoryServer V} (pages : client.Pages serve) (p : HistoryDialogue V α)
    (past : HistoryLog V) (stages : String → HistoryStage V) :
    ∃ log out, Dialogue.Run p log out ∧ client.Served stages log := by
  induction p generalizing past stages with
  | done out => exact ⟨[], out, .done out, trivial⟩
  | ask q k ih =>
      cases q with
      | waitForReconnect error =>
          obtain ⟨log, out, run, -⟩ := ih (serve past stages (.waitForReconnect error)) past stages
          exact ⟨_, out, .ask _ run, trivial⟩
      | historyRead nodesToRead =>
          let answer := serve past stages (.historyRead nodesToRead)
          by_cases current : ∀ entry ∈ nodesToRead, (stages entry.1).point = entry.2
          · obtain ⟨next, allowed⟩ := pages past stages nodesToRead current
            obtain ⟨log, out, run, served⟩ := ih answer (past ++ [⟨_, answer⟩]) next
            exact ⟨_, out, .ask _ run, fun _ => ⟨next, allowed, served⟩⟩
          · obtain ⟨log, out, run, -⟩ := ih answer past stages
            exact ⟨_, out, .ask _ run, fun held => absurd held current⟩

theorem exists_gathered (outcomes : List (Except HistoryFailure (Dict String (List V)))) :
    ∃ outcome, Gathered outcomes outcome := by
  by_cases failed : ∃ failure, .error failure ∈ outcomes
  · obtain ⟨failure, m⟩ := failed
    exact ⟨_, .raised m⟩
  · have ok : ∃ batches : List (Dict String (List V)), outcomes = batches.map .ok := by
      induction outcomes with
      | nil => exact ⟨[], rfl⟩
      | cons outcome outcomes ih =>
          obtain ⟨batches, rfl⟩ := ih fun ⟨failure, m⟩ => failed ⟨failure, List.mem_cons_of_mem _ m⟩
          cases outcome with
          | error failure => exact absurd ⟨failure, List.mem_cons_self⟩ failed
          | ok batch => exact ⟨batch :: batches, rfl⟩
    obtain ⟨batches, rfl⟩ := ok
    exact ⟨_, .all batches⟩

theorem readHistoryValues_runs {serve : HistoryServer V} (pages : client.Pages serve) (fuel : Nat)
    (maxNodes : Option Nat) (nodeIds : List String) (histories : String → NodeHistory V) :
    ∃ runs outcome, client.ReadHistoryValues fuel maxNodes nodeIds runs outcome ∧
      ∀ r ∈ runs, client.Served (unread histories) r.1 := by
  have each (batches : List (List String)) : ∃ runs : List (HistoryLog V × Except HistoryFailure (Dict String (List V))),
      List.Forall₂ (fun batch run => Dialogue.Run (client.readHistoryOf fuel batch) run.1 run.2) batches runs ∧
        ∀ r ∈ runs, client.Served (unread histories) r.1 := by
    induction batches with
    | nil => exact ⟨[], .nil, nofun⟩
    | cons batch batches ih =>
        obtain ⟨runs, ran, served⟩ := ih
        obtain ⟨log, out, run, first⟩ := exists_served pages (client.readHistoryOf fuel batch) [] (unread histories)
        exact ⟨(log, out) :: runs, .cons run ran, List.forall_mem_cons.mpr ⟨first, served⟩⟩
  obtain ⟨runs, ran, served⟩ := each (historyBatches maxNodes nodeIds)
  obtain ⟨outcome, gathered⟩ := exists_gathered (runs.map Prod.snd)
  exact ⟨runs, outcome, ⟨ran, gathered⟩, served⟩

/-! Two nodes in one batch, of which one has a page more than the other. -/

theorem run_asked (nodeId : String) (point : Option Bytes) (result : HistoryReadResult Nat) : Dialogue.Run
    (lowerCaseClient.readHistoryBatch [(nodeId, point)]) [⟨.historyRead [(nodeId, point)], .ok [result]⟩]
      (.ok [result]) := by
  rw [readHistoryBatch]
  exact .ask _ (.done _)

/-- The request for both nodes is too large. -/
def unevenPages : HistoryLog Nat :=
  [⟨.historyRead [("m", none), ("n", none)], .error tooMany⟩,
    ⟨.historyRead [("m", none)], .ok [⟨none, some [1], none⟩]⟩,
    ⟨.historyRead [("n", none)], .ok [⟨none, some [7], some [1]⟩]⟩,
    ⟨.historyRead [("n", some [1])], .ok [⟨none, some [8], none⟩]⟩]

def unevenHistories : String → NodeHistory Nat
  | "m" => .last [1]
  | _ => .more [7] (.last [8])

theorem tooMany_kept : lowerCaseClient.shouldRetryAfterDisconnect tooMany = false := by decide

theorem run_unevenPages : lowerCaseClient.ReadHistoryValues 1 none ["m", "n"]
    [(unevenPages, .ok (.ofList [("m", [1]), ("n", [7, 8])]))] (.ok (.ofList [("m", [1]), ("n", [7, 8])])) := by
  have first : Dialogue.Run (lowerCaseClient.readHistoryBatch [("m", none), ("n", none)]) (unevenPages.take 3)
      (.ok [⟨none, some [1], none⟩, ⟨none, some [7], some [1]⟩]) := by
    rw [readHistoryBatch]
    refine .ask _ ?_
    dsimp only
    rw [tooMany_kept, if_neg Bool.false_ne_true, if_pos ⟨tooMany_noticed, by decide⟩]
    refine Dialogue.run_attempt.mpr (.inr ⟨_, [_], [_], rfl, run_asked "m" none ⟨none, some [1], none⟩, ?_⟩)
    exact Dialogue.run_attempt.mpr (.inr ⟨_, [_], [], rfl, run_asked "n" none _, .done _⟩)
  have last : Dialogue.Run (lowerCaseClient.followContinuations 0 ["n"] [⟨none, some [8], none⟩]
      (.ofList [("m", [1]), ("n", [7])])) [] (.ok (.ofList [("m", [1]), ("n", [7, 8])])) := by
    rw [followContinuations]
    exact .done _
  have second : Dialogue.Run (lowerCaseClient.followContinuations 1 ["m", "n"]
      [⟨none, some [1], none⟩, ⟨none, some [7], some [1]⟩] (.ofList [("m", []), ("n", [])])) (unevenPages.drop 3)
      (.ok (.ofList [("m", [1]), ("n", [7, 8])])) := by
    rw [followContinuations]
    exact Dialogue.run_attempt.mpr (.inr ⟨_, _, _, rfl, run_asked "n" (some [1]) _, last⟩)
  refine ⟨.cons ?_ .nil, .all [.ofList [("m", [1]), ("n", [7, 8])]]⟩
  exact Dialogue.run_attempt.mpr (.inr ⟨_, _, _, rfl, first, second⟩)

theorem readHistoryValues_complete_two : ∃ outcome values,
    lowerCaseClient.ReadHistoryValues 1 none ["m", "n"] [(unevenPages, outcome)] outcome ∧ outcome = .ok values ∧
      ∀ nodeId, values.get? nodeId =
        if nodeId ∈ ["m", "n"] then some (if nodeId = "m" then [1] else [7, 8]) else none := by
  have complete := readHistoryValues_complete lowerCaseClient 1 none ["m", "n"] (by decide) _ _ run_unevenPages
  -- the answers of the two requests, and of the one after them
  let opened (nodeId : String) : HistoryStage Nat :=
    if nodeId = "n" then ⟨some [1], .last [8]⟩ else unread unevenHistories nodeId
  have first : lowerCaseClient.Paged (unread unevenHistories) [("m", none)] [⟨none, some [1], none⟩]
      (unread unevenHistories) := ⟨.cons ⟨rfl, rfl, rfl⟩ .nil, fun _ _ => rfl⟩
  have second : lowerCaseClient.Paged (unread unevenHistories) [("n", none)] [⟨none, some [7], some [1]⟩] opened := by
    refine ⟨.cons ⟨rfl, rfl, [1], by decide, rfl, rfl⟩ .nil, fun nodeId out => if_neg fun same => ?_⟩
    exact out (List.mem_singleton.mpr same)
  have third : lowerCaseClient.Paged opened [("n", some [1])] [⟨none, some [8], none⟩] opened :=
    ⟨.cons ⟨rfl, rfl, rfl⟩ .nil, fun _ _ => rfl⟩
  have served : lowerCaseClient.Served (unread unevenHistories) unevenPages := by
    refine fun _ => ⟨_, ⟨tooMany_noticed, tooMany_kept, by decide, rfl⟩, fun _ => ⟨_, first, fun _ => ⟨_, second, ?_⟩⟩⟩
    exact fun _ => ⟨_, third, trivial⟩
  obtain ⟨values, ok, found⟩ := complete.1 unevenHistories (by decide) (by simpa using served)
  refine ⟨_, values, run_unevenPages, ok, fun nodeId => ?_⟩
  rw [found]
  split
  · rename_i known
    rcases List.mem_pair.mp known with rfl | rfl
    · rfl
    · rfl
  · rfl

/-! A node with two answers, of which the second one reports no data and takes the first
page back. -/

def twoAnswers (second : HistoryReadResult Nat) : HistoryLog Nat :=
  [⟨.historyRead [("n", none)], .ok [⟨none, some [7], some [1]⟩]⟩, ⟨.historyRead [("n", some [1])], .ok [second]⟩]

theorem run_twoAnswers (second : HistoryReadResult Nat) (values : List Nat)
    (taken : lowerCaseClient.takeResult ⟨.ofList [("n", [7])], [], .empty⟩ ("n", second) =
      .ok ⟨.ofList [("n", values)], [], .empty⟩) :
    lowerCaseClient.ReadHistoryValues 1 none ["n"] [(twoAnswers second, .ok (.ofList [("n", values)]))]
      (.ok (.ofList [("n", values)])) := by
  have last : Dialogue.Run (lowerCaseClient.followContinuations 0 ["n"] [second] (.ofList [("n", [7])])) []
      (.ok (.ofList [("n", values)])) := by
    rw [followContinuations]
    simp only [List.zip_cons_cons, List.zip_nil_right, List.foldlM_cons, taken]
    exact .done _
  have first : Dialogue.Run (lowerCaseClient.followContinuations 1 ["n"] [⟨none, some [7], some [1]⟩] (.ofList [("n", [])]))
      [⟨.historyRead [("n", some [1])], .ok [second]⟩] (.ok (.ofList [("n", values)])) := by
    rw [followContinuations]
    exact Dialogue.run_attempt.mpr (.inr ⟨_, _, _, rfl, run_asked "n" (some [1]) second, last⟩)
  refine ⟨.cons ?_ .nil, .all [.ofList [("n", values)]]⟩
  exact Dialogue.run_attempt.mpr (.inr ⟨_, _, _, rfl, run_asked "n" none _, first⟩)

/-- Its first answer succeeds and its second one fails, and still nothing is raised. -/
theorem laterFailure_emptied : lowerCaseClient.ReadHistoryValues 1 none ["n"]
    [(twoAnswers ⟨some "badnodata", none, none⟩, .ok (.ofList [("n", [])]))] (.ok (.ofList [("n", [])])) := by
  have missing : lowerCaseClient.isHistoryMissingOrUnsupported "badnodata" = true := by
    refine List.any_eq_true.mpr ⟨"badnodata", by simp [historyMissingMarkers], ?_⟩
    rw [mentions, decide_eq_true_iff]
    exact List.infix_refl _
  refine run_twoAnswers _ _ ?_
  rw [takeResult]
  simp only [missing, if_true]
  rfl

end HistoryClient
end I3x.OpcUa

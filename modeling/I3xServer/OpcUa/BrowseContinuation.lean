import I3xServer.Container.Settling
import I3xServer.OpcUa.BrowseCompleteness
import I3xServer.OpcUa.HistoryReads

/-!
# Browsing with continuation points

The references of a batch of nodes come in pages. The continuation points of all nodes
that have more are sent together, round after round, and each page extends the list of
its own node in place.
-/
namespace I3x.OpcUa
open Container

inductive BrowseDirection where
  | forward | inverse | both
  deriving DecidableEq, Repr

structure BrowseDescription where
  nodeId : String
  browseDirection : BrowseDirection
  referenceTypeId : Nat
  includeSubtypes : Bool
  deriving DecidableEq, Repr

/-- An empty continuation point counts as none. -/
structure BrowseResult where
  references : List ReferenceDescription
  continuationPoint : Option Bytes
  deriving DecidableEq, Repr

inductive BrowseQuery where
  | browse (nodesToBrowse : List BrowseDescription)
  | browseNext (continuationPoints : List Bytes)
  | waitForReconnect (error : RequestError)

def BrowseAnswer : BrowseQuery → Type
  | .browse _ => Except RequestError (List BrowseResult)
  | .browseNext _ => Except RequestError (List BrowseResult)
  | .waitForReconnect _ => Except RequestError Unit

inductive BrowseFailure where
  | raised (error : RequestError)
  | browseCount (results nodes : Nat)
  | nextCount (results points : Nat)
  | exhausted
  deriving DecidableEq, Repr

abbrev BrowseDialogue (α : Type) := Dialogue BrowseQuery BrowseAnswer (Except BrowseFailure α)

abbrev BrowseLog := List (Exchange BrowseQuery BrowseAnswer)

/-- A node with the references read so far. -/
abbrev NodeReferences := String × List ReferenceDescription

/-- A node that has more pages. Its list of references is the entry of the results at the
slot, which is the same object in the source. -/
structure ContinuationEntry where
  node : String
  point : Bytes
  slot : Nat
  deriving DecidableEq, Repr

structure BrowseProgress where
  results : List NodeReferences
  entries : List ContinuationEntry

/-- `if continuation_point` -/
def filledPoint : Option Bytes → Option Bytes
  | none | some [] => none
  | some point => some point

/-- The first page of a node starts its list. -/
def takeFirst (progress : BrowseProgress) (entry : String × BrowseResult) : BrowseProgress where
  results := progress.results ++ [(entry.1, entry.2.references)]
  entries := progress.entries ++
    ((filledPoint entry.2.continuationPoint).map fun point => ⟨entry.1, point, progress.results.length⟩).toList

/-- A further page extends the list of its node. -/
def takeNext (progress : BrowseProgress) (entry : ContinuationEntry × BrowseResult) : BrowseProgress where
  results := progress.results.modify entry.1.slot fun result => (result.1, result.2 ++ entry.2.references)
  entries := progress.entries ++
    ((filledPoint entry.2.continuationPoint).map fun point => { entry.1 with point }).toList

/-- What is asked of every node of a browse. -/
structure BrowseFilter where
  referenceTypeId : Nat
  browseDirection : BrowseDirection := .forward
  includeSubtypes : Bool := true
  deriving DecidableEq, Repr

def BrowseFilter.description (filter : BrowseFilter) (node : String) : BrowseDescription :=
  ⟨node, filter.browseDirection, filter.referenceTypeId, filter.includeSubtypes⟩

namespace HistoryClient
variable (client : HistoryClient)

/-- The answer to a request, which is repeated after a lost connection. -/
def withRetry (query : BrowseQuery) (results : BrowseAnswer query → Except RequestError (List BrowseResult)) :
    BrowseDialogue (List BrowseResult) :=
  .ask query fun answer =>
    match results answer with
    | .ok results => .done (.ok results)
    | .error error =>
        if client.shouldRetryAfterDisconnect error then
          .ask (.waitForReconnect error) fun
            | .error gone => .done (.error (.raised gone))
            | .ok () => .ask query fun again =>
                match results again with
                | .ok results => .done (.ok results)
                | .error error => .done (.error (.raised error))
        else .done (.error (.raised error))

def browseWithRetry (nodesToBrowse : List BrowseDescription) : BrowseDialogue (List BrowseResult) :=
  client.withRetry (.browse nodesToBrowse) id

def browseNextWithRetry (continuationPoints : List Bytes) : BrowseDialogue (List BrowseResult) :=
  client.withRetry (.browseNext continuationPoints) id

/-- The loop over the continuation points, for at most as many rounds as the fuel allows. -/
def followContinuationEntries : Nat → BrowseProgress → BrowseDialogue (List NodeReferences)
  | fuel, progress =>
      if progress.entries = [] then .done (.ok progress.results)
      else
        match fuel with
        | 0 => .done (.error .exhausted)
        | fuel + 1 => (client.browseNextWithRetry (progress.entries.map ContinuationEntry.point)).attempt fun nextResults =>
            if nextResults.length ≠ progress.entries.length then
              .done (.error (.nextCount nextResults.length progress.entries.length))
            else
              followContinuationEntries fuel
                ((progress.entries.zip nextResults).foldl takeNext { progress with entries := [] })

/-- One batch, whose lists are appended to those of the batches before it. -/
def browseBatch (fuel : Nat) (filter : BrowseFilter) (results : List NodeReferences) (nodeBatch : List String) :
    BrowseDialogue (List NodeReferences) :=
  (client.browseWithRetry (nodeBatch.map filter.description)).attempt fun browseResults =>
    if browseResults.length ≠ nodeBatch.length then
      .done (.error (.browseCount browseResults.length nodeBatch.length))
    else
      client.followContinuationEntries fuel ((nodeBatch.zip browseResults).foldl takeFirst ⟨results, []⟩)

def browseBatches (fuel : Nat) (filter : BrowseFilter) :
    List NodeReferences → List (List String) → BrowseDialogue (List NodeReferences)
  | results, [] => .done (.ok results)
  | results, nodeBatch :: batches => (client.browseBatch fuel filter results nodeBatch).attempt fun results =>
      browseBatches fuel filter results batches

def browseReferencesDescriptions (fuel : Nat) (filter : BrowseFilter) (nodes : List String) (maxNodesPerBrowse : Int) :
    BrowseDialogue (List NodeReferences) :=
  client.browseBatches fuel filter [] (chunkedNodes nodes (max 1 maxNodesPerBrowse).toNat)

end HistoryClient

/-! ## A server that pages -/

/-- The continuation points that a server has open, each with the pages that are left. -/
abbrev OpenPoints := Bytes → Option (List (List ReferenceDescription))

/-- A result shows the first one of the pages; the others wait behind a point that was free. -/
def Shows (open_ : OpenPoints) (result : BrowseResult) (next : OpenPoints) : List (List ReferenceDescription) → Prop
  | [] => False
  | [page] => result.references = page ∧ filledPoint result.continuationPoint = none ∧ next = open_
  | page :: rest => result.references = page ∧ ∃ point, filledPoint result.continuationPoint = some point ∧
      open_ point = none ∧ next = Function.update open_ point (some rest)

/-- Every description is answered with a first page of its references, of which there are
at most so many further pages. -/
inductive Browsed (references : BrowseDescription → List ReferenceDescription) (rounds : Nat) :
    OpenPoints → List BrowseDescription → List BrowseResult → OpenPoints → Prop where
  | nil (open_ : OpenPoints) : Browsed references rounds open_ [] [] open_
  | cons {open_ middle next : OpenPoints} {description : BrowseDescription} {descriptions : List BrowseDescription}
      {result : BrowseResult} {results : List BrowseResult} {pages : List (List ReferenceDescription)}
      (whole : pages.flatten = references description) (few : pages.length ≤ rounds + 1)
      (shows : Shows open_ result middle pages) (rest : Browsed references rounds middle descriptions results next) :
      Browsed references rounds open_ (description :: descriptions) (result :: results) next

/-- Every point is used up and answered with its next page. -/
inductive Continued : OpenPoints → List Bytes → List BrowseResult → OpenPoints → Prop where
  | nil (open_ : OpenPoints) : Continued open_ [] [] open_
  | cons {open_ middle next : OpenPoints} {point : Bytes} {points : List Bytes} {result : BrowseResult}
      {results : List BrowseResult} {pages : List (List ReferenceDescription)} (left : open_ point = some pages)
      (shows : Shows (Function.update open_ point none) result middle pages)
      (rest : Continued middle points results next) : Continued open_ (point :: points) (result :: results) next

/-- The server cuts the references of every node into pages as it likes, anew each time. -/
def PagesReferences (references : BrowseDescription → List ReferenceDescription) (rounds : Nat) :
    Dialogue.Answering BrowseQuery BrowseAnswer OpenPoints := fun open_ query answer next =>
  match query, answer with
  | .browse descriptions, .ok results => Browsed references rounds open_ descriptions results next
  | .browseNext points, .ok results => Continued open_ points results next
  | _, _ => False

/-! ## The lists during a round -/

/-- The pages that are still owed, at most `bound` of them, complete the list of an entry. -/
def Owed (open_ : OpenPoints) (expected results : List NodeReferences) (bound : Nat) (entry : ContinuationEntry) : Prop :=
  ∃ pages read, entry.point ≠ [] ∧ open_ entry.point = some pages ∧ pages ≠ [] ∧ pages.length ≤ bound ∧
    results[entry.slot]? = some (entry.node, read) ∧ expected[entry.slot]? = some (entry.node, read ++ pages.flatten)

/-- What is expected is there, or owed to one of the entries. -/
structure Accounted (open_ : OpenPoints) (expected results : List NodeReferences) (entries : List ContinuationEntry) :
    Prop where
  length : results.length = expected.length
  slots : (entries.map ContinuationEntry.slot).Nodup
  points : (entries.map ContinuationEntry.point).Nodup
  rest : ∀ slot, slot ∉ entries.map ContinuationEntry.slot → results[slot]? = expected[slot]?

variable {open_ next : OpenPoints} {expected results : List NodeReferences} {bound : Nat}

theorem filledPoint_ne_nil {given : Option Bytes} {point : Bytes} (filled : filledPoint given = some point) : point ≠ [] := by
  unfold filledPoint at filled
  split at filled
  · cases filled
  · cases filled
  · next some_point =>
      cases filled
      exact some_point

/-- Points that are in use are left alone. -/
theorem Shows.keeps {result : BrowseResult} {pages : List (List ReferenceDescription)}
    (shows : Shows open_ result next pages) {point : Bytes} (used : open_ point ≠ none) : next point = open_ point := by
  unfold Shows at shows
  split at shows
  · exact shows.elim
  · rw [shows.2.2]
  · obtain ⟨-, fresh, -, free, rfl⟩ := shows
    refine Function.update_of_ne ?_ _ _
    rintro rfl
    exact used free

theorem Owed.open {entry : ContinuationEntry} (owed : Owed open_ expected results bound entry) :
    open_ entry.point ≠ none := by
  obtain ⟨pages, -, -, left, -⟩ := owed
  rw [left]
  exact nofun

theorem Owed.slot_lt {entry : ContinuationEntry} (owed : Owed open_ expected results bound entry) :
    entry.slot < results.length := by
  obtain ⟨_, _, _, _, _, _, present, _⟩ := owed
  exact (List.getElem?_eq_some_iff.mp present).1

/-- An entry whose point and list are not touched is still owed its pages. -/
theorem Owed.frame {expected' results' : List NodeReferences} {entry : ContinuationEntry}
    (owed : Owed open_ expected results bound entry) (point : next entry.point = open_ entry.point)
    (there : results'[entry.slot]? = results[entry.slot]?) (due : expected'[entry.slot]? = expected[entry.slot]?) :
    Owed next expected' results' bound entry := by
  obtain ⟨pages, read, somePoint, left, filled, few, present, whole⟩ := owed
  exact ⟨pages, read, somePoint, point.trans left, filled, few, there.trans present, due.trans whole⟩

/-- The result of an entry goes into its list, and what is left stays owed. -/
theorem takeNext_step {entry : ContinuationEntry} {kept todo : List ContinuationEntry} {result : BrowseResult}
    {pages : List (List ReferenceDescription)} (left : open_ entry.point = some pages)
    (shows : Shows (Function.update open_ entry.point none) result next pages)
    (accounted : Accounted open_ expected results (kept ++ entry :: todo))
    (owedKept : ∀ e ∈ kept, Owed open_ expected results bound e)
    (owedTodo : ∀ e ∈ entry :: todo, Owed open_ expected results (bound + 1) e) :
    let taken := takeNext ⟨results, kept⟩ (entry, result)
    Accounted next expected taken.results (taken.entries ++ todo) ∧
      (∀ e ∈ taken.entries, Owed next expected taken.results bound e) ∧
      ∀ e ∈ todo, Owed next expected taken.results (bound + 1) e := by
  intro taken
  obtain ⟨pages', read, -, same, filled, few, present, whole⟩ := owedTodo entry List.mem_cons_self
  obtain rfl := Option.some.inj (same.symm.trans left)
  have slots := accounted.slots
  have points := accounted.points
  rw [List.map_append, List.map_cons, List.nodup_middle, List.nodup_cons, ← List.map_append] at slots points
  have others {e : ContinuationEntry} (m : e ∈ kept ++ todo) (used : open_ e.point ≠ none) :
      next e.point = open_ e.point ∧ taken.results[e.slot]? = results[e.slot]? := by
    have apart : e.point ≠ entry.point := fun eq => points.1 (eq ▸ List.mem_map_of_mem m)
    have elsewhere : entry.slot ≠ e.slot := fun eq => slots.1 (eq ▸ List.mem_map_of_mem m)
    have kept_open : Function.update open_ entry.point none e.point = open_ e.point := Function.update_of_ne apart _ _
    refine ⟨?_, ?_⟩
    · rw [shows.keeps (by rw [kept_open]; exact used), kept_open]
    · show (results.modify entry.slot _)[e.slot]? = _
      rw [List.getElem?_modify_ne _ _ elsewhere]
  have grown : taken.results[entry.slot]? = some (entry.node, read ++ result.references) := by
    show (results.modify entry.slot _)[entry.slot]? = _
    rw [List.getElem?_modify_eq _ _, present]
    rfl
  have keptOwed : ∀ e ∈ kept, Owed next expected taken.results bound e := fun e m =>
    have same := others (List.mem_append_left todo m) (owedKept e m).open
    (owedKept e m).frame same.1 same.2 rfl
  have todoOwed : ∀ e ∈ todo, Owed next expected taken.results (bound + 1) e := fun e m =>
    have owed := owedTodo e (List.mem_cons_of_mem entry m)
    have same := others (List.mem_append_right kept m) owed.open
    owed.frame same.1 same.2 rfl
  have length : taken.results.length = expected.length := (List.length_modify _ _ _).trans accounted.length
  have outside {slot : Nat} (apart : slot ≠ entry.slot) (absent : slot ∉ (kept ++ todo).map ContinuationEntry.slot) :
      taken.results[slot]? = expected[slot]? := by
    show (results.modify entry.slot _)[slot]? = _
    rw [List.getElem?_modify_ne _ _ apart.symm]
    refine accounted.rest slot ?_
    rw [List.map_append, List.map_cons, List.mem_append, List.mem_cons, ← or_left_comm, ← List.mem_append, ← List.map_append]
    exact fun m => m.elim apart absent
  unfold Shows at shows
  split at shows
  · exact absurd rfl filled
  · obtain ⟨rfl, ended, -⟩ := shows
    have same : taken.entries = kept := by
      show kept ++ ((filledPoint result.continuationPoint).map _).toList = kept
      rw [ended]
      exact List.append_nil kept
    rw [same]
    refine ⟨⟨length, slots.2, points.2, fun slot absent => ?_⟩, keptOwed, todoOwed⟩
    by_cases here : slot = entry.slot
    · rw [here, grown, whole, List.flatten_singleton]
    · exact outside here absent
  · next _ page rest more' =>
      obtain ⟨rfl, point, more, free, rfl⟩ := shows
      have same : taken.entries = kept ++ [{ entry with point }] := by
        show kept ++ ((filledPoint result.continuationPoint).map _).toList = _
        rw [more]
        rfl
      have fresh {e : ContinuationEntry} (m : e ∈ kept ++ todo) (used : open_ e.point ≠ none) : e.point ≠ point := by
        have apart : e.point ≠ entry.point := fun eq => points.1 (eq ▸ List.mem_map_of_mem m)
        rintro rfl
        rw [Function.update_of_ne apart] at free
        exact used free
      have used : ∀ e ∈ kept ++ todo, open_ e.point ≠ none := fun e m => (List.mem_append.mp m).elim
        (fun m => (owedKept e m).open) fun m => (owedTodo e (List.mem_cons_of_mem entry m)).open
      have owed : Owed (Function.update (Function.update open_ entry.point none) point (some rest)) expected taken.results
          bound { entry with point } := by
        refine ⟨rest, read ++ result.references, filledPoint_ne_nil more, Function.update_self _ _ _, more',
          Nat.le_of_succ_le_succ few, grown, ?_⟩
        rw [whole, List.flatten_cons, List.append_assoc]
      rw [same]
      refine ⟨⟨length, ?_, ?_, fun slot absent => ?_⟩, fun e m => ?_, todoOwed⟩
      · rw [List.append_assoc, List.singleton_append, List.map_append, List.map_cons, List.nodup_middle, List.nodup_cons,
          ← List.map_append]
        exact slots
      · rw [List.append_assoc, List.singleton_append, List.map_append, List.map_cons, List.nodup_middle, List.nodup_cons,
          ← List.map_append]
        refine ⟨fun m => ?_, points.2⟩
        obtain ⟨e, m, eq⟩ := List.mem_map.mp m
        exact fresh m (used e m) eq
      · rw [List.append_assoc, List.singleton_append, List.map_append, List.map_cons, List.mem_append, List.mem_cons,
          or_left_comm, ← List.mem_append, ← List.map_append, not_or] at absent
        exact outside absent.1 absent.2
      · rcases List.mem_append.mp m with old | new
        · exact keptOwed e old
        · rw [List.mem_singleton.mp new]
          exact owed

/-- A whole round, which leaves less to every entry that remains. -/
theorem takeNext_round {todo : List ContinuationEntry} (kept : List ContinuationEntry) {nextResults : List BrowseResult}
    (continued : Continued open_ (todo.map ContinuationEntry.point) nextResults next)
    (accounted : Accounted open_ expected results (kept ++ todo))
    (owedKept : ∀ e ∈ kept, Owed open_ expected results bound e)
    (owedTodo : ∀ e ∈ todo, Owed open_ expected results (bound + 1) e) :
    let taken := (todo.zip nextResults).foldl takeNext ⟨results, kept⟩
    Accounted next expected taken.results taken.entries ∧ ∀ e ∈ taken.entries, Owed next expected taken.results bound e := by
  induction todo generalizing open_ nextResults kept results with
  | nil =>
      cases continued
      rw [List.append_nil] at accounted
      exact ⟨accounted, owedKept⟩
  | cons entry todo ih =>
      cases continued with
      | cons left shows rest =>
          obtain ⟨accounted, owedKept, owedTodo⟩ := takeNext_step left shows accounted owedKept owedTodo
          exact ih _ rest accounted owedKept owedTodo

/-- The first page of a node starts a list that is complete, or owed the other pages. -/
theorem takeFirst_step (node : String) {references : List ReferenceDescription} {entries : List ContinuationEntry}
    {result : BrowseResult} {pages : List (List ReferenceDescription)} (whole : pages.flatten = references)
    (few : pages.length ≤ bound + 1) (shows : Shows open_ result next pages)
    (accounted : Accounted open_ expected results entries) (owed : ∀ e ∈ entries, Owed open_ expected results bound e) :
    let taken := takeFirst ⟨results, entries⟩ (node, result)
    Accounted next (expected ++ [(node, references)]) taken.results taken.entries ∧
      ∀ e ∈ taken.entries, Owed next (expected ++ [(node, references)]) taken.results bound e := by
  intro taken
  have started : taken.results = results ++ [(node, result.references)] := rfl
  have length : taken.results.length = (expected ++ [(node, references)]).length := by
    rw [started, List.length_append, List.length_append, accounted.length]
    rfl
  have within {slot : Nat} (old : slot < results.length) :
      taken.results[slot]? = results[slot]? ∧ (expected ++ [(node, references)])[slot]? = expected[slot]? := by
    rw [started, List.getElem?_append_left old, List.getElem?_append_left (accounted.length ▸ old)]
    exact ⟨rfl, rfl⟩
  have last : taken.results[results.length]? = some (node, result.references) ∧
      (expected ++ [(node, references)])[results.length]? = some (node, references) := by
    rw [started, List.getElem?_concat_length, accounted.length, List.getElem?_concat_length]
    exact ⟨rfl, rfl⟩
  have beyond {slot : Nat} (new : results.length < slot) :
      taken.results[slot]? = (expected ++ [(node, references)])[slot]? := by
    have size : taken.results.length ≤ slot := by
      rw [started, List.length_append]
      exact new
    rw [List.getElem?_eq_none size, List.getElem?_eq_none (length ▸ size)]
  have oldOwed : ∀ e ∈ entries, Owed next (expected ++ [(node, references)]) taken.results bound e := fun e m =>
    have same := within (owed e m).slot_lt
    (owed e m).frame (shows.keeps (owed e m).open) same.1 same.2
  have complete {slot : Nat} (absent : slot ∉ entries.map ContinuationEntry.slot) (ended : slot ≠ results.length) :
      taken.results[slot]? = (expected ++ [(node, references)])[slot]? := by
    rcases Nat.lt_or_gt_of_ne ended with old | new
    · rw [(within old).1, (within old).2, accounted.rest slot absent]
    · exact beyond new
  unfold Shows at shows
  split at shows
  · exact shows.elim
  · obtain ⟨rfl, ended, -⟩ := shows
    have same : taken.entries = entries := by
      show entries ++ ((filledPoint result.continuationPoint).map _).toList = entries
      rw [ended]
      exact List.append_nil entries
    rw [same]
    refine ⟨⟨length, accounted.slots, accounted.points, fun slot absent => ?_⟩, oldOwed⟩
    by_cases here : slot = results.length
    · rw [here, last.1, last.2, ← whole, List.flatten_singleton]
    · exact complete absent here
  · next _ page rest more' =>
      obtain ⟨rfl, point, more, free, rfl⟩ := shows
      have same : taken.entries = entries ++ [⟨node, point, results.length⟩] := by
        show entries ++ ((filledPoint result.continuationPoint).map _).toList = _
        rw [more]
        rfl
      rw [same]
      refine ⟨⟨length, ?_, ?_, fun slot absent => ?_⟩, fun e m => ?_⟩
      · rw [List.map_append, List.map_singleton, ← List.concat_eq_append, List.nodup_concat]
        refine ⟨fun m => ?_, accounted.slots⟩
        obtain ⟨e, m, eq⟩ := List.mem_map.mp m
        exact absurd (owed e m).slot_lt (eq ▸ Nat.lt_irrefl _)
      · rw [List.map_append, List.map_singleton, ← List.concat_eq_append, List.nodup_concat]
        refine ⟨fun m => ?_, accounted.points⟩
        obtain ⟨e, m, eq⟩ := List.mem_map.mp m
        exact (owed e m).open (eq ▸ free)
      · rw [List.map_append, List.mem_append, not_or, List.map_singleton, List.mem_singleton] at absent
        exact complete absent.1 absent.2
      · rcases List.mem_append.mp m with old | new
        · exact oldOwed e old
        · rw [List.mem_singleton.mp new]
          refine ⟨rest, result.references, filledPoint_ne_nil more, Function.update_self _ _ _, more',
            Nat.le_of_succ_le_succ few, last.1, ?_⟩
          rw [last.2, ← whole, List.flatten_cons]

/-- The first pages of a batch. -/
theorem takeFirst_round {references : BrowseDescription → List ReferenceDescription} {filter : BrowseFilter}
    {nodeBatch : List String} {browseResults : List BrowseResult} (progress : BrowseProgress) (expected : List NodeReferences)
    (browsed : Browsed references bound open_ (nodeBatch.map filter.description) browseResults next)
    (accounted : Accounted open_ expected progress.results progress.entries)
    (owed : ∀ e ∈ progress.entries, Owed open_ expected progress.results bound e) :
    let taken := (nodeBatch.zip browseResults).foldl takeFirst progress
    Accounted next (expected ++ nodeBatch.map fun node => (node, references (filter.description node))) taken.results
        taken.entries ∧
      ∀ e ∈ taken.entries, Owed next (expected ++ nodeBatch.map fun node => (node, references (filter.description node)))
        taken.results bound e := by
  induction nodeBatch generalizing open_ browseResults progress expected with
  | nil =>
      cases browsed
      rw [List.map_nil, List.append_nil]
      exact ⟨accounted, owed⟩
  | cons node nodes ih =>
      cases browsed with
      | cons whole few shows rest =>
          obtain ⟨accounted, owed⟩ := takeFirst_step node whole few shows accounted owed
          have later := ih _ _ rest accounted owed
          rw [List.append_assoc] at later
          exact later

theorem Browsed.length_eq {references : BrowseDescription → List ReferenceDescription} {rounds : Nat}
    {descriptions : List BrowseDescription} {results : List BrowseResult}
    (browsed : Browsed references rounds open_ descriptions results next) : results.length = descriptions.length := by
  induction browsed with
  | nil => rfl
  | cons _ _ _ _ ih => rw [List.length_cons, List.length_cons, ih]

theorem Continued.length_eq {points : List Bytes} {results : List BrowseResult}
    (continued : Continued open_ points results next) : results.length = points.length := by
  induction continued with
  | nil => rfl
  | cons _ _ _ ih => rw [List.length_cons, List.length_cons, ih]

/-- A server can answer a browse, for instance with all references at once. -/
theorem exists_browsed (references : BrowseDescription → List ReferenceDescription) (rounds : Nat) (open_ : OpenPoints)
    (descriptions : List BrowseDescription) : ∃ results next, Browsed references rounds open_ descriptions results next := by
  induction descriptions with
  | nil => exact ⟨[], open_, .nil open_⟩
  | cons description descriptions ih =>
      obtain ⟨results, next, browsed⟩ := ih
      refine ⟨⟨references description, none⟩ :: results, next, ?_⟩
      have whole : [references description].flatten = references description := List.append_nil _
      exact .cons whole (Nat.succ_le_succ (Nat.zero_le _)) ⟨rfl, rfl, rfl⟩ browsed

/-- It can continue from points that it has open, for instance under the same points. -/
theorem exists_continued {points : List Bytes} (distinct : points.Nodup)
    (left : ∀ point ∈ points, point ≠ [] ∧ ∃ pages, open_ point = some pages ∧ pages ≠ []) :
    ∃ results next, Continued open_ points results next := by
  induction points generalizing open_ with
  | nil => exact ⟨[], open_, .nil open_⟩
  | cons point points ih =>
      obtain ⟨some_point, pages, here, filled⟩ := left point List.mem_cons_self
      obtain ⟨absent, distinct⟩ := List.nodup_cons.mp distinct
      have others (value : Option (List (List ReferenceDescription))) : ∀ other ∈ points, other ≠ [] ∧
          ∃ pages, Function.update open_ point value other = some pages ∧ pages ≠ [] := by
        intro other m
        rw [Function.update_of_ne fun same : other = point => absent (same ▸ m)]
        exact left other (List.mem_cons_of_mem point m)
      match pages, filled with
      | [page], _ =>
          obtain ⟨results, next, rest⟩ := ih distinct (others none)
          exact ⟨⟨page, none⟩ :: results, next, .cons here ⟨rfl, rfl, rfl⟩ rest⟩
      | page :: second :: pages, _ =>
          obtain ⟨results, next, rest⟩ := ih distinct (others (some (second :: pages)))
          refine ⟨⟨page, some point⟩ :: results, next, .cons here ⟨rfl, point, ?_, Function.update_self _ _ _, rfl⟩ ?_⟩
          · obtain ⟨byte, bytes, rfl⟩ := List.exists_cons_of_ne_nil some_point
            rfl
          · rw [Function.update_idem]
            exact rest

/-! ## Whole reads -/

namespace HistoryClient
variable {client : HistoryClient} {references : BrowseDescription → List ReferenceDescription} {rounds : Nat}

theorem followContinuationEntries_done (fuel : Nat) {progress : BrowseProgress} (none_left : progress.entries = []) :
    client.followContinuationEntries fuel progress = .done (.ok progress.results) := by
  unfold followContinuationEntries
  exact if_pos none_left

theorem followContinuationEntries_next (fuel : Nat) {progress : BrowseProgress} (some_left : progress.entries ≠ []) :
    client.followContinuationEntries (fuel + 1) progress =
      (client.browseNextWithRetry (progress.entries.map ContinuationEntry.point)).attempt fun nextResults =>
        if nextResults.length ≠ progress.entries.length then
          .done (.error (.nextCount nextResults.length progress.entries.length))
        else
          client.followContinuationEntries fuel
            ((progress.entries.zip nextResults).foldl takeNext { progress with entries := [] }) := by
  rw [followContinuationEntries.eq_def]
  exact if_neg some_left

theorem followContinuationEntries_settles {fuel : Nat} {progress : BrowseProgress} (enough : bound ≤ fuel)
    (accounted : Accounted open_ expected progress.results progress.entries)
    (owed : ∀ e ∈ progress.entries, Owed open_ expected progress.results bound e) :
    (client.followContinuationEntries fuel progress).Settles (PagesReferences references rounds)
      (fun out _ => out = .ok expected) bound open_ := by
  induction bound generalizing fuel progress open_ with
  | zero =>
      have none_left : progress.entries = [] := by
        rw [List.eq_nil_iff_forall_not_mem]
        intro e m
        obtain ⟨pages, -, -, -, filled, few, -⟩ := owed e m
        exact filled (List.length_eq_zero_iff.mp (Nat.le_zero.mp few))
      rw [followContinuationEntries_done fuel none_left]
      rw [none_left] at accounted
      exact congrArg Except.ok (List.ext_getElem? fun slot => accounted.rest slot List.not_mem_nil)
  | succ bound ih =>
      by_cases none_left : progress.entries = []
      · rw [followContinuationEntries_done fuel none_left]
        rw [none_left] at accounted
        exact congrArg Except.ok (List.ext_getElem? fun slot => accounted.rest slot List.not_mem_nil)
      obtain ⟨fuel, rfl⟩ : ∃ less, fuel = less + 1 := ⟨fuel - 1, by omega⟩
      rw [followContinuationEntries_next fuel none_left]
      refine ⟨?_, bound, rfl, fun answer next allowed => ?_⟩
      · have left : ∀ point ∈ progress.entries.map ContinuationEntry.point,
            point ≠ [] ∧ ∃ pages, open_ point = some pages ∧ pages ≠ [] := by
          intro point inside
          obtain ⟨e, m, rfl⟩ := List.mem_map.mp inside
          obtain ⟨pages, -, somePoint, left, filled, -⟩ := owed e m
          exact ⟨somePoint, pages, left, filled⟩
        obtain ⟨results, next, continued⟩ := exists_continued accounted.points left
        exact ⟨.ok results, next, continued⟩
      · cases answer with
        | error error => exact allowed.elim
        | ok nextResults =>
            have continued : Continued open_ (progress.entries.map ContinuationEntry.point) nextResults next := allowed
            have count : nextResults.length = progress.entries.length :=
              continued.length_eq.trans (List.length_map _)
            obtain ⟨accounted, owed⟩ := takeNext_round [] continued accounted (fun _ => nofun) owed
            show Dialogue.Settles _ _ (if _ then _ else _) _ _
            rw [if_neg (not_not.mpr count)]
            exact ih (Nat.le_of_succ_le_succ enough) accounted owed

/-- Every node of a batch gets its references, whatever pages they come in. -/
theorem browseBatch_settles {fuel : Nat} (enough : rounds ≤ fuel) (filter : BrowseFilter) (results : List NodeReferences)
    (nodeBatch : List String) (open_ : OpenPoints) :
    (client.browseBatch fuel filter results nodeBatch).Settles (PagesReferences references rounds)
      (fun out _ => out = .ok (results ++ nodeBatch.map fun node => (node, references (filter.description node))))
      (rounds + 1) open_ := by
  obtain ⟨browseResults, next, browsed⟩ := exists_browsed references rounds open_ (nodeBatch.map filter.description)
  refine ⟨⟨.ok browseResults, next, browsed⟩, rounds, rfl, fun answer next allowed => ?_⟩
  cases answer with
  | error error => exact allowed.elim
  | ok browseResults =>
      have browsed : Browsed references rounds open_ (nodeBatch.map filter.description) browseResults next := allowed
      have count : browseResults.length = nodeBatch.length := browsed.length_eq.trans (List.length_map _)
      obtain ⟨accounted, owed⟩ := takeFirst_round ⟨results, []⟩ results browsed
        ⟨rfl, .nil, .nil, fun _ _ => rfl⟩ fun _ => nofun
      show Dialogue.Settles _ _ (if _ then _ else _) _ _
      rw [if_neg (not_not.mpr count)]
      exact followContinuationEntries_settles enough accounted owed

theorem browseBatches_settles {fuel : Nat} (enough : rounds ≤ fuel) (filter : BrowseFilter) (results : List NodeReferences)
    (batches : List (List String)) (open_ : OpenPoints) :
    (client.browseBatches fuel filter results batches).Settles (PagesReferences references rounds)
      (fun out _ => out = .ok (results ++ batches.flatten.map fun node => (node, references (filter.description node))))
      (batches.length * (rounds + 1)) open_ := by
  induction batches generalizing results open_ with
  | nil => exact congrArg Except.ok (List.append_nil results).symm
  | cons nodeBatch batches ih =>
      rw [browseBatches, List.length_cons, Nat.succ_mul, Nat.add_comm]
      refine Dialogue.Settles.attempt
        (fun taken _ => taken = results ++ nodeBatch.map fun node => (node, references (filter.description node)))
        ((browseBatch_settles enough filter results nodeBatch open_).mono (fun _ _ same => ⟨_, same, rfl⟩) (Nat.le_refl _)) ?_
      rintro _ next rfl
      refine (ih _ next).mono (fun _ _ same => ?_) (Nat.le_refl _)
      rw [same, List.append_assoc, List.flatten_cons, List.map_append]

/-! ## Wrong counts -/

/-- The server gives another number of results than it was asked for. -/
def Miscounted : Exchange BrowseQuery BrowseAnswer → Prop
  | ⟨.browse nodesToBrowse, .ok results⟩ => results.length ≠ nodesToBrowse.length
  | ⟨.browseNext continuationPoints, .ok results⟩ => results.length ≠ continuationPoints.length
  | _ => False

def IsCount : BrowseFailure → Prop
  | .browseCount _ _ | .nextCount _ _ => True
  | .raised _ | .exhausted => False

variable {query : BrowseQuery} {read : BrowseAnswer query → Except RequestError (List BrowseResult)} {count : Nat}

/-- A request with its repetition hands on its last answer, and only this one can be miscounted. -/
theorem withRetry_miscounted
    (counts : ∀ answer, Miscounted ⟨query, answer⟩ ↔ ∃ results, read answer = .ok results ∧ results.length ≠ count)
    {log : BrowseLog} {out : Except BrowseFailure (List BrowseResult)} (run : Dialogue.Run (client.withRetry query read) log out)
    (found : ∃ exchange ∈ log, Miscounted exchange) : ∃ results, out = .ok results ∧ results.length ≠ count := by
  have right {answer : BrowseAnswer query} {error : RequestError} (failed : read answer = .error error) :
      ¬ Miscounted ⟨query, answer⟩ := by
    intro miscounted
    obtain ⟨_, impossible, -⟩ := (counts answer).mp miscounted
    cases failed.symm.trans impossible
  have wrong {answer : BrowseAnswer query} {results : List BrowseResult} (given : read answer = .ok results)
      (miscounted : Miscounted ⟨query, answer⟩) : results.length ≠ count := by
    obtain ⟨_, same, off⟩ := (counts answer).mp miscounted
    cases given.symm.trans same
    exact off
  obtain ⟨exchange, m, miscounted⟩ := found
  obtain ⟨answer, rest, rfl, asked⟩ := Dialogue.run_ask.mp run
  split at asked
  · next results given =>
      obtain ⟨rfl, rfl⟩ := Dialogue.run_done.mp asked
      obtain rfl := List.mem_singleton.mp m
      exact ⟨results, rfl, wrong given miscounted⟩
  · next error failed =>
      have later : exchange ∈ rest := (List.mem_cons.mp m).resolve_left fun same => right failed (same ▸ miscounted)
      split at asked
      · obtain ⟨reconnected, rest, rfl, waited⟩ := Dialogue.run_ask.mp asked
        have again : exchange ∈ rest := (List.mem_cons.mp later).resolve_left fun same => by
          subst same
          exact miscounted
        cases reconnected with
        | error gone =>
            obtain ⟨rfl, -⟩ := Dialogue.run_done.mp waited
            cases again
        | ok _ =>
            obtain ⟨answer, rest, rfl, repeated⟩ := Dialogue.run_ask.mp waited
            split at repeated
            · next results given =>
                obtain ⟨rfl, rfl⟩ := Dialogue.run_done.mp repeated
                obtain rfl := List.mem_singleton.mp again
                exact ⟨results, rfl, wrong given miscounted⟩
            · next error failed =>
                obtain ⟨rfl, -⟩ := Dialogue.run_done.mp repeated
                obtain rfl := List.mem_singleton.mp again
                exact absurd miscounted (right failed)
      · obtain ⟨rfl, -⟩ := Dialogue.run_done.mp asked
        cases later

/-- The count is checked before the results are used. -/
theorem withRetry_exposes {α : Type} (wrongCount : Nat → BrowseFailure)
    (counts : ∀ answer, Miscounted ⟨query, answer⟩ ↔ ∃ results, read answer = .ok results ∧ results.length ≠ count)
    (named : ∀ given, IsCount (wrongCount given)) {g : List BrowseResult → BrowseDialogue α}
    (next : ∀ results, (g results).Exposes Miscounted IsCount) :
    ((client.withRetry query read).attempt fun results =>
      if results.length ≠ count then .done (.error (wrongCount results.length)) else g results).Exposes Miscounted IsCount := by
  intro log out run
  rcases Dialogue.run_attempt.mp run with ⟨e, failed, rfl⟩ | ⟨results, first, second, rfl, start, later⟩
  · intro found
    obtain ⟨_, impossible, -⟩ := withRetry_miscounted counts failed found
    cases impossible
  · by_cases off : results.length ≠ count
    · rw [if_pos off] at later
      obtain ⟨-, rfl⟩ := Dialogue.run_done.mp later
      exact fun _ => ⟨_, rfl, named _⟩
    · rw [if_neg off] at later
      rintro ⟨exchange, m, miscounted⟩
      rcases List.mem_append.mp m with m | m
      · obtain ⟨_, same, wrong⟩ := withRetry_miscounted counts start ⟨exchange, m, miscounted⟩
        cases same
        exact absurd wrong off
      · exact next results second out later ⟨exchange, m, miscounted⟩

theorem miscounted_next {points : List Bytes} {count : Nat} (same : points.length = count)
    (answer : BrowseAnswer (.browseNext points)) :
    Miscounted ⟨.browseNext points, answer⟩ ↔ ∃ results, id answer = Except.ok results ∧ results.length ≠ count := by
  cases same
  cases answer with
  | error error => exact ⟨False.elim, by rintro ⟨_, impossible, -⟩; cases impossible⟩
  | ok results => exact ⟨fun off => ⟨results, rfl, off⟩, by rintro ⟨_, same, off⟩; cases same; exact off⟩

theorem miscounted_browse {nodesToBrowse : List BrowseDescription} {count : Nat} (same : nodesToBrowse.length = count)
    (answer : BrowseAnswer (.browse nodesToBrowse)) :
    Miscounted ⟨.browse nodesToBrowse, answer⟩ ↔ ∃ results, id answer = Except.ok results ∧ results.length ≠ count := by
  cases same
  cases answer with
  | error error => exact ⟨False.elim, by rintro ⟨_, impossible, -⟩; cases impossible⟩
  | ok results => exact ⟨fun off => ⟨results, rfl, off⟩, by rintro ⟨_, same, off⟩; cases same; exact off⟩

theorem followContinuationEntries_exposes (fuel : Nat) (progress : BrowseProgress) :
    (client.followContinuationEntries fuel progress).Exposes Miscounted IsCount := by
  induction fuel generalizing progress with
  | zero =>
      unfold followContinuationEntries
      split
      · exact .done _
      · exact .done _
  | succ fuel ih =>
      by_cases none_left : progress.entries = []
      · rw [followContinuationEntries_done _ none_left]
        exact .done _
      · rw [followContinuationEntries_next fuel none_left]
        exact withRetry_exposes (fun given => .nextCount given progress.entries.length)
          (miscounted_next (List.length_map _)) (fun _ => trivial) fun _ => ih _

theorem browseBatches_exposes (fuel : Nat) (filter : BrowseFilter) (results : List NodeReferences)
    (batches : List (List String)) : (client.browseBatches fuel filter results batches).Exposes Miscounted IsCount := by
  induction batches generalizing results with
  | nil => exact .done _
  | cons nodeBatch batches ih =>
      refine Dialogue.Exposes.attempt ?_ ih
      exact withRetry_exposes (fun given => .browseCount given nodeBatch.length)
        (miscounted_browse (List.length_map _)) (fun _ => trivial) fun _ => followContinuationEntries_exposes fuel _

/-- Whatever the batch limit is and however the server pages, every node gets its own
references in the order of the nodes; and where a count is wrong, the read raises. -/
theorem browseReferencesDescriptions_pages (filter : BrowseFilter) (nodes : List String) (maxNodesPerBrowse : Int) :
    (∀ (references : BrowseDescription → List ReferenceDescription) (rounds more : Nat) (open_ : OpenPoints),
      (client.browseReferencesDescriptions (rounds + more) filter nodes maxNodesPerBrowse).Settles
        (PagesReferences references rounds)
        (fun out _ => out = .ok (nodes.map fun node => (node, references (filter.description node))))
        (nodes.length * (rounds + 1)) open_) ∧
    ∀ fuel, (client.browseReferencesDescriptions fuel filter nodes maxNodesPerBrowse).Exposes Miscounted IsCount := by
  refine ⟨fun references rounds more open_ => ?_, fun fuel => browseBatches_exposes fuel filter [] _⟩
  have size : 0 < (max 1 maxNodesPerBrowse).toNat := by omega
  refine (browseBatches_settles (Nat.le_add_right rounds more) filter [] _ open_).mono (fun out _ same => ?_) ?_
  · rw [same, flatten_chunkedNodes size, List.nil_append]
  · exact Nat.mul_le_mul_right _ (length_chunkedNodesFrom_le _ nodes.length nodes)

end HistoryClient
end I3x.OpcUa

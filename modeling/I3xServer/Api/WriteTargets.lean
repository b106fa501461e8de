import I3xServer.Api.WriteValues

/-!
# Which node a bulk write reaches

Both handlers send a write only to the source of the property their lookup
finds, and a willing upstream lets every such write through. Where the lookup
finds another node than the one an item names, the write is redirected.
-/
namespace I3x.Api
open Container

section
variable {text : Text} {U : Type} (port : WritePort U) (model : BuildResult)

/-- The write went to the property that the lookup finds for its item. -/
def Directed (text : Text) (model : BuildResult) (write : UpstreamWrite) : Prop :=
  ∃ node, findModelNode text model write.elementId = some node ∧ node.kind = .property ∧
    write.target = node.sourceNodeId

def AllDirected (text : Text) (model : BuildResult) (session : Session U) : Prop :=
  ∀ write ∈ session.written, Directed text model write

variable {port model}

theorem AllDirected.record {session : Session U} (h : AllDirected text model session) (u : U)
    {write : UpstreamWrite} (directed : Directed text model write) :
    AllDirected text model (session.record u write) := by
  intro other m
  rcases List.mem_append.mp m with old | new
  · exact h other old
  · exact (List.mem_singleton.mp new) ▸ directed

theorem writeResolved_directed {session : Session U} (h : AllDirected text model session)
    (item : WriteItem text) {node : ModelNode} (value : PyValue)
    (found : findModelNode text model item.elementId.value = some node) (kind : node.kind = .property) :
    AllDirected text model (writeResolved text port item node.sourceNodeId value session).2 := by
  unfold writeResolved
  split
  · exact h
  · split
    · exact h
    · split
      · exact h
      · split
        · exact h.record _ ⟨node, found, kind, rfl⟩
        · exact h.record _ ⟨node, found, kind, rfl⟩

theorem writeObjectValue_directed {session : Session U} (h : AllDirected text model session)
    (item : WriteItem text) :
    AllDirected text model (writeObjectValueByElementId text port model item session).2 := by
  unfold writeObjectValueByElementId
  cases found : findModelNode text model item.elementId.value with
  | none => exact h
  | some node =>
      by_cases kind : node.kind = .property
      · simp only [kind, ne_eq, not_true_eq_false, if_false]
        split
        · exact h
        · split
          · exact h
          · split
            · refine writeResolved_directed ?_ item _ found kind
              exact h
            · split
              · exact h
              · exact h
      · simp only [ne_eq, kind, not_false_eq_true, if_true]
        exact h

theorem updateObjectValues_directed {session : Session U} (h : AllDirected text model session)
    (items : List (WriteItem text)) :
    AllDirected text model (updateObjectValues text port model items session).2 := by
  induction items generalizing session with
  | nil => exact h
  | cons item items ih => exact ih (writeObjectValue_directed h item)

theorem writeHistoryItem_directed {session : Session U} (h : AllDirected text model session)
    (item : WriteItem text) (unsupported : Bool) :
    AllDirected text model (writeHistoryItem text port model item unsupported session).2.2 := by
  unfold writeHistoryItem
  cases found : findModelNode text model item.elementId.value with
  | none => exact h
  | some node =>
      by_cases kind : node.kind = .property
      · simp only [kind, ne_eq, not_true_eq_false, if_false]
        split
        · exact h
        · split
          · exact h
          · split
            · exact h
            · split
              · split
                · exact h.record _ ⟨node, found, kind, rfl⟩
                · exact h.record _ ⟨node, found, kind, rfl⟩
              · exact h
      · simp only [ne_eq, kind, not_false_eq_true, if_true]
        exact h

theorem updateHistoricalItems_directed {session : Session U} (h : AllDirected text model session)
    (items : List (WriteItem text)) (unsupported : Bool) :
    AllDirected text model (updateHistoricalItems text port model items unsupported session).2.2 := by
  induction items generalizing session unsupported with
  | nil => exact h
  | cons item items ih => exact ih (writeHistoryItem_directed h item unsupported) _

end

/-- An upstream server that accepts whatever it is sent. -/
def willing : WritePort Unit where
  historyUpdateSupported := some true
  validate _ _ u := (.ok (), u)
  readWriteAccess _ u := (.ok (true, true), u)
  isNoopWrite _ _ _ _ u := (false, u)
  readVariantType _ u := (.ok none, u)
  writeValue _ _ _ _ _ u := (.ok (), u)
  readHistoryWriteAccess _ u := (.ok (true, true), u)
  writeHistoryValue _ _ _ _ u := (.ok (), u)
  b64decode _ := none

section
variable {text : Text} (model : BuildResult)

/-- All writes the upstream server received during one bulk request of each kind. -/
def received {U : Type} (port : WritePort U) (items : List (WriteItem text)) (upstream : U) :
    List UpstreamWrite :=
  (updateObjectValues text port model items ⟨upstream, []⟩).2.written ++
    (updateHistoricalValues text port model items ⟨upstream, []⟩).2.2.written

def nullItem (elementId : WriteElementId text) : WriteItem text where
  elementId := elementId
  value := .none
  quality := "Bad"
  timestamp := "2026-01-01T00:00:00Z"

variable {model}

theorem received_directed {U : Type} (port : WritePort U) (items : List (WriteItem text)) (upstream : U)
    (write : UpstreamWrite) (m : write ∈ received model port items upstream) :
    Directed text model write := by
  have nothing : AllDirected text model (⟨upstream, []⟩ : Session U) := fun _ => nofun
  rcases List.mem_append.mp m with current | history
  · exact updateObjectValues_directed nothing items write current
  · exact updateHistoricalItems_directed nothing items _ write history

theorem received_willing (elementId : WriteElementId text) {node : ModelNode}
    (found : findModelNode text model elementId.value = some node) (kind : node.kind = .property) :
    ∃ write ∈ received model willing [nullItem elementId] (),
      write.elementId = elementId.value ∧ write.target = node.sourceNodeId := by
  refine ⟨⟨.current, elementId.value, node.sourceNodeId, .none, "Bad", "2026-01-01T00:00:00Z"⟩,
    List.mem_append_left _ ?_, rfl, rfl⟩
  simp only [updateObjectValues, writeObjectValueByElementId, nullItem, found, kind, ne_eq,
    not_true_eq_false, if_false, willing, Bool.and_self, if_true, writeResolved,
    decodeBytestringWriteValue, normalizeWritePayload, PyValue.isNone, Bool.not_true, Bool.false_and,
    Bool.false_eq_true, Session.record, List.nil_append]
  exact List.mem_singleton_self _

/-- The node that may receive a write for `elementId`: the element of that id, or
else the only node whose source node id it is. -/
def MayReceive (model : BuildResult) (elementId target : String) : Prop :=
  match model.nodesById.get? elementId with
  | some node => target = node.sourceNodeId
  | none => (∃! node, node ∈ model.nodes ∧ node.sourceNodeId = elementId) → target = elementId

/-- Whatever bulk request it is part of and whatever the upstream answers, an
item with this id is written to no other node than the one it names. -/
def KeepsTarget (text : Text) (model : BuildResult) (elementId : String) : Prop :=
  ∀ (U : Type) (port : WritePort U) (items : List (WriteItem text)) (upstream : U),
    ∀ write ∈ received model port items upstream,
      write.elementId = elementId → MayReceive model elementId write.target

/-- The node is the one of source `elementId`, or nothing can be written to it. -/
def Harmless (elementId : String) (node : ModelNode) : Prop :=
  node.sourceNodeId = elementId ∨ node.kind ≠ .property

/-- What the name index, the type index and the folded scan hold for `elementId`. -/
structure Unshadowed (text : Text) (model : BuildResult) (elementId : String) : Prop where
  named : ∀ node, indexed model model.nodeIdByName elementId = some node → Harmless elementId node
  typed : indexed model model.nodeIdByName elementId = none →
    ∀ node, indexed model model.nodeIdByType elementId = some node → Harmless elementId node
  folded : indexed model model.nodeIdByName elementId = none →
    indexed model model.nodeIdByType elementId = none →
    ∀ before node after, model.nodes = before ++ node :: after →
      text.lower node.sourceNodeId = text.lower elementId →
      (∀ other ∈ before, text.lower other.sourceNodeId ≠ text.lower elementId) →
      Harmless elementId node

variable {identity : Identity} {opcNodes : List OpcUaNodeInfo}

/-- Past both indexes of a built model, the scan compares folded source ids only. -/
theorem answersTo_folded {elementId : WriteElementId text} {model : BuildResult}
    (built : model = ModelBuilder.build identity opcNodes)
    (named : indexed model model.nodeIdByName elementId.value = none)
    (typed : indexed model model.nodeIdByType elementId.value = none)
    {node : ModelNode} (m : node ∈ model.nodes) :
    answersTo text node elementId.value = true ↔
      text.lower node.sourceNodeId = text.lower elementId.value := by
  subst built
  have noName : node.name ≠ elementId.value := by
    intro same
    obtain ⟨id, other, atName, present⟩ := ModelBuilder.build_named identity m
    rw [same] at atName
    simp only [indexed, atName, Option.bind_some, present, reduceCtorEq] at named
  have noType : node.type ≠ some elementId.value := by
    intro same
    obtain ⟨id, other, atType, present⟩ := ModelBuilder.build_typed identity m same elementId.valid.1
    simp only [indexed, atType, Option.bind_some, present, reduceCtorEq] at typed
  simp only [answersTo, noName, noType, decide_false, Bool.false_or, Bool.or_eq_true, decide_eq_true_eq]
  exact ⟨fun h => h.elim (congrArg text.lower) id, Or.inr⟩

theorem find_of_folded {elementId : WriteElementId text} {model : BuildResult}
    (built : model = ModelBuilder.build identity opcNodes)
    (direct : model.nodesById.get? elementId.value = none)
    (named : indexed model model.nodeIdByName elementId.value = none)
    (typed : indexed model model.nodeIdByType elementId.value = none) (node : ModelNode) :
    findModelNode text model elementId.value = some node ↔
      ∃ before after, model.nodes = before ++ node :: after ∧
        text.lower node.sourceNodeId = text.lower elementId.value ∧
        ∀ other ∈ before, text.lower other.sourceNodeId ≠ text.lower elementId.value := by
  have same {n : ModelNode} (m : n ∈ model.nodes) := answersTo_folded built named typed m
  simp only [findModelNode, direct, named, typed, List.find?_eq_some_iff_append]
  constructor
  · rintro ⟨hit, before, after, split, miss⟩
    have inside : node ∈ model.nodes := by rw [split]; simp
    refine ⟨before, after, split, (same inside).mp hit, fun other m folded => ?_⟩
    have present : other ∈ model.nodes := by rw [split]; exact List.mem_append_left _ m
    exact absurd ((same present).mpr folded) (by simpa using miss other m)
  · rintro ⟨before, after, split, hit, miss⟩
    have inside : node ∈ model.nodes := by rw [split]; simp
    refine ⟨(same inside).mpr hit, before, after, split, fun other m => ?_⟩
    have present : other ∈ model.nodes := by rw [split]; exact List.mem_append_left _ m
    have no : ¬ answersTo text other elementId.value = true := fun yes => miss other m ((same present).mp yes)
    simpa using no

/-- An unshadowed id is looked up to its own node, or to one nothing is written to. -/
theorem unshadowed_iff {elementId : WriteElementId text} {model : BuildResult}
    (built : model = ModelBuilder.build identity opcNodes)
    (direct : model.nodesById.get? elementId.value = none) :
    Unshadowed text model elementId.value ↔
      ∀ node, findModelNode text model elementId.value = some node → Harmless elementId.value node := by
  constructor
  · intro clear node found
    cases named : indexed model model.nodeIdByName elementId.value with
    | some other =>
        simp only [findModelNode, direct, named, Option.some.injEq] at found
        exact found ▸ clear.named other named
    | none =>
        cases typed : indexed model model.nodeIdByType elementId.value with
        | some other =>
            simp only [findModelNode, direct, named, typed, Option.some.injEq] at found
            exact found ▸ clear.typed named other typed
        | none =>
            obtain ⟨before, after, split, hit, miss⟩ :=
              (find_of_folded built direct named typed node).mp found
            exact clear.folded named typed before node after split hit miss
  · intro all
    refine ⟨fun node named => ?_, fun named node typed => ?_, fun named typed before node after split hit miss => ?_⟩
    · exact all node (by simp only [findModelNode, direct, named])
    · exact all node (by simp only [findModelNode, direct, named, typed])
    · exact all node ((find_of_folded built direct named typed node).mpr ⟨before, after, split, hit, miss⟩)

end

/-- An item of a bulk write keeps its target exactly when its id is an element id,
is no node's source node id, or is not shadowed by a name, a data type or an
earlier source node id that differs only in case. -/
theorem keepsTarget_iff (text : Text) (identity : Identity) (opcNodes : List OpcUaNodeInfo)
    (elementId : WriteElementId text) :
    KeepsTarget text (ModelBuilder.build identity opcNodes) elementId.value ↔
      (∃ node, (ModelBuilder.build identity opcNodes).nodesById.get? elementId.value = some node) ∨
      (∀ node ∈ (ModelBuilder.build identity opcNodes).nodes, node.sourceNodeId ≠ elementId.value) ∨
      Unshadowed text (ModelBuilder.build identity opcNodes) elementId.value := by
  generalize built : ModelBuilder.build identity opcNodes = model
  have distinct : model.SourcesDistinct := built ▸ ModelBuilder.build_sourcesDistinct identity opcNodes
  cases direct : model.nodesById.get? elementId.value with
  | some node =>
      refine iff_of_true (fun U port items upstream write m same => ?_) (Or.inl ⟨node, rfl⟩)
      obtain ⟨found, isFound, _, target⟩ := received_directed port items upstream write m
      rw [same, findModelNode_element direct, Option.some.injEq] at isFound
      simp only [MayReceive, direct, target, isFound]
  | none =>
      rw [unshadowed_iff built.symm direct]
      constructor
      · intro keeps
        refine Or.inr (or_iff_not_imp_left.mpr fun some_source node found => ?_)
        push Not at some_source
        obtain ⟨own, present, source⟩ := some_source
        by_contra harm
        simp only [Harmless, not_or, not_not] at harm
        obtain ⟨write, m, same, target⟩ := received_willing elementId found harm.2
        have may := keeps Unit willing _ () write m same
        simp only [MayReceive, direct] at may
        refine harm.1 (target.symm.trans (may ⟨own, ⟨present, source⟩, fun other h => ?_⟩))
        exact distinct other h.1 own present (h.2.trans source.symm)
      · rintro (⟨_, found⟩ | none_has | clear) U port items upstream write m same
        · cases found
        · simp only [MayReceive, direct]
          rintro ⟨node, h, _⟩
          exact absurd h.2 (none_has node h.1)
        · obtain ⟨node, found, kind, target⟩ := received_directed port items upstream write m
          rw [same] at found
          simp only [MayReceive, direct]
          intro _
          exact target.trans ((clear node found).resolve_right (not_not_intro kind))

def upperInlet : WriteElementId Text.ascii := ⟨"ns=2;s=ABC", by decide⟩

/-- A write to `ns=2;s=ABC` is sent to `ns=2;s=abc`, which the scan meets first. -/
theorem keepsTarget_fails_on_case_variant :
    ¬ KeepsTarget Text.ascii ModelBuilder.inlets upperInlet.value := by
  intro keeps
  have found : findModelNode Text.ascii ModelBuilder.inlets upperInlet.value =
      some ⟨"property-9f6bda939af951cf", "Inlet A", .property, some "i=11", [], "ns=2;s=abc"⟩ := by decide
  obtain ⟨write, m, same, target⟩ := received_willing upperInlet found rfl
  have direct : ModelBuilder.inlets.nodesById.get? upperInlet.value = none := by decide
  have may := keeps Unit willing _ () write m same
  simp only [MayReceive, direct, target] at may
  let own : ModelNode :=
    ⟨"property-a0ed2a9513fbdeaf", "Inlet B", .property, some "i=11", [], "ns=2;s=ABC"⟩
  have only : ∃! node, node ∈ ModelBuilder.inlets.nodes ∧ node.sourceNodeId = upperInlet.value := by
    refine ⟨own, by decide, fun other h => ?_⟩
    exact ModelBuilder.build_sourcesDistinct _ _ other h.1 own (by decide) h.2
  exact absurd (may only) (by decide)

end I3x.Api

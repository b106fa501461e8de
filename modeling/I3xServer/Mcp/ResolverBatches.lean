import I3xServer.Container.Batch
import I3xServer.Container.Json
import I3xServer.Domain.Interpreters
import I3xServer.Mcp.NodeIdTools

/-!
# Batches of the id resolvers

The resolvers take any values and answer each of them. A batch of node ids fails as a
whole if one of them has a numeric identifier that `int` does not read, although each
of its characters counts as a digit.
-/
namespace I3x
open Container

namespace Mcp
variable {V : Type} (interpreter : Interpreter) (model : IndexedModel)

/-- A value in a request: a text, or another value of whichever kind. -/
inductive Argument (V : Type) where
  | string (text : String)
  | other (value : V)
  deriving DecidableEq, Repr

/-- What is said of a text, or the refusal of another value. -/
inductive BatchItem (Resolution V : Type) where
  | ofText (resolution : Resolution)
  | notText (value : V) (code : Nat) (message : String)
  deriving DecidableEq, Repr

def BatchItem.succeeded {Resolution : Type} (succeeded : Resolution → Bool) : BatchItem Resolution V → Bool
  | .ofText resolution => succeeded resolution
  | .notText .. => false

def resolveElementArgument : Argument V → BatchItem ElementResolution V
  | .string elementId => .ofText (resolveElementId interpreter.toUnicode model elementId)
  | .other value => .notText value 400 "ElementId must be a non-empty string"

def elementItems (elementIds : List (Argument V)) : List (BatchItem ElementResolution V) :=
  elementIds.map (resolveElementArgument interpreter model)

/-- `_resolve_element_ids_to_node_ids` on any values. -/
def resolveElementArguments (elementIds : List (Argument V)) : Bool × List (BatchItem ElementResolution V) :=
  ((elementItems interpreter model elementIds).all (BatchItem.succeeded ElementResolution.succeeded),
    elementItems interpreter model elementIds)

def resolveNodeText (nodeId : String) : Except String NodeResolution :=
  if interpreter.strip nodeId = "" then .ok (.error nodeId 400 "NodeId must be a non-empty string")
  else
    match interpreter.canonicalNodeId model.namespaceUriByIndex nodeId with
    | .error literal => .error literal
    | .ok none => .ok (.error nodeId 400 "Invalid OPC UA NodeId format")
    | .ok (some canonicalId) =>
        match indexedElement interpreter.toUnicode model canonicalId nodeId with
        | none => .ok (.error nodeId 404 "NodeId not found in the cached model")
        | some node => .ok (.success nodeId node.id node.name node.kind)

def resolveNodeArgument : Argument V → Except String (BatchItem NodeResolution V)
  | .string nodeId => (resolveNodeText interpreter model nodeId).map .ofText
  | .other value => .ok (.notText value 400 "NodeId must be a non-empty string")

def nodeItems (nodeIds : List (Argument V)) : Except String (List (BatchItem NodeResolution V)) :=
  nodeIds.mapM (resolveNodeArgument interpreter model)

/-- `_resolve_node_ids_to_element_ids` on any values. -/
def resolveNodeArguments (nodeIds : List (Argument V)) : Except String (Bool × List (BatchItem NodeResolution V)) :=
  (nodeItems interpreter model nodeIds).map fun items =>
    (items.all (BatchItem.succeeded NodeResolution.succeeded), items)

/-- The items of an answer. -/
def itemsOf {Item : Type} (answer : Except String (Bool × List Item)) : Except String (List Item) := answer.map Prod.snd

end Mcp

/-! ## Without a limit -/

namespace Interpreter
variable {interpreter : Interpreter}

theorem withinLimit_of_unlimited (unlimited : interpreter.maxStrDigits = 0) (digits : List Char) :
    interpreter.withinLimit digits = true := by
  simp [withinLimit, unlimited]

theorem digitsValue_of_unlimited (unlimited : interpreter.maxStrDigits = 0) (digits : List Char) :
    interpreter.digitsValue digits = Unicode.digitsValue interpreter.decimal digits :=
  if_pos (withinLimit_of_unlimited unlimited digits)

theorem normalizeNodeIdentifier_of_unlimited (unlimited : interpreter.maxStrDigits = 0) (kind : Char)
    (text : List Char) :
    interpreter.normalizeNodeIdentifier kind text =
      NodeIds.normalizeNodeIdentifier interpreter.toUnicode kind text := by
  unfold normalizeNodeIdentifier
  split
  · next number =>
      rw [number, digitsValue_of_unlimited unlimited]
      rfl
  · rfl

/-- The digits of a namespace index are decimal. -/
theorem namespaceIndex_decimal {cs digits rest : List Char}
    (parsed : NodeIds.namespaceIndex interpreter.toUnicode cs = (some digits, rest)) :
    digits ≠ [] ∧ ∀ c ∈ digits, (interpreter.decimal c).isSome = true := by
  unfold NodeIds.namespaceIndex at parsed
  split at parsed
  · next after =>
      split at parsed
      · dsimp only at parsed
        split at parsed
        · cases parsed
        · next filled =>
            cases parsed
            exact ⟨filled, List.all_eq_true.mp List.all_takeWhile⟩
      · cases parsed
  · cases parsed

theorem digitsValue_isSome {decimal : Char → Option Nat} (digits : List Char) :
    (Unicode.digitsValue decimal digits).isSome = true ↔
      digits ≠ [] ∧ ∀ c ∈ digits, (decimal c).isSome = true := by
  have each : (digits.mapM decimal).isSome = true ↔ ∀ c ∈ digits, (decimal c).isSome = true := by
    induction digits with
    | nil => simp
    | cons c digits ih =>
        rw [List.mapM_cons, List.forall_mem_cons, ← ih]
        cases decimal c <;> cases digits.mapM decimal <;> simp
  unfold Unicode.digitsValue
  split
  · next none => simp [none]
  · next filled => rw [Option.isSome_map, each, and_iff_right filled]

theorem canonicalNodeId_of_unlimited (unlimited : interpreter.maxStrDigits = 0) (namespaceUri : Nat → Option String)
    (nodeId : String) :
    interpreter.canonicalNodeId namespaceUri nodeId =
      NodeIds.canonicalNodeId interpreter.toUnicode namespaceUri nodeId := by
  unfold canonicalNodeId NodeIds.canonicalNodeId
  simp only [normalizeNodeIdentifier_of_unlimited unlimited]
  split
  · rfl
  · cases parsed : NodeIds.namespaceIndex interpreter.toUnicode (interpreter.strip nodeId).toList with
    | mk indexText rest =>
        have number : interpreter.namespaceNumber indexText =
            some ((indexText.bind (Unicode.digitsValue interpreter.decimal)).getD 0) := by
          cases indexText with
          | none => rfl
          | some digits =>
              obtain ⟨value, read⟩ := Option.isSome_iff_exists.mp
                ((digitsValue_isSome digits).mpr (namespaceIndex_decimal parsed))
              rw [namespaceNumber, digitsValue_of_unlimited unlimited, Option.bind_some, read]
              rfl
        cases NodeIds.identifierLine rest with
        | none => rfl
        | some identifier =>
            dsimp only
            rewrite [number]
            rfl

/-! ## Where `int` raises -/

theorem digitsValue_isSome_iff {digits : List Char} (filled : digits ≠ []) :
    (interpreter.digitsValue digits).isSome = true ↔
      interpreter.withinLimit digits = true ∧ ∀ c ∈ digits, (interpreter.decimal c).isSome = true := by
  unfold digitsValue
  split
  · next within => rw [digitsValue_isSome, and_iff_right filled, and_iff_right within]
  · next beyond => exact ⟨nofun, fun h => absurd h.1 beyond⟩

theorem normalizeNodeIdentifier_ok_iff (kind : Char) (text : List Char) :
    (∃ normalized, interpreter.normalizeNodeIdentifier kind text = .ok normalized) ↔
      (kind = 'i' → text ≠ [] → text.all interpreter.isDigit = true →
        interpreter.withinLimit text = true ∧ ∀ c ∈ text, (interpreter.decimal c).isSome = true) := by
  unfold normalizeNodeIdentifier
  split
  · next number =>
      split
      · next refused =>
          refine ⟨fun _ _ filled digits => ?_, fun _ => ⟨_, rfl⟩⟩
          exact (refused.elim filled fun other => other digits).elim
      · next accepted =>
          obtain ⟨filled, digits⟩ := not_or.mp accepted
          rw [not_not] at digits
          have condition : (kind = 'i' → text ≠ [] → text.all interpreter.isDigit = true →
              interpreter.withinLimit text = true ∧ ∀ c ∈ text, (interpreter.decimal c).isSome = true) ↔
              (interpreter.digitsValue text).isSome = true := by
            rw [digitsValue_isSome_iff filled]
            exact ⟨fun h => h number filled digits, fun h _ _ _ => h⟩
          rw [condition]
          cases interpreter.digitsValue text with
          | none => exact ⟨nofun, nofun⟩
          | some value => exact ⟨fun _ => rfl, fun _ => ⟨_, rfl⟩⟩
  · next other =>
      refine ⟨fun _ number => absurd number other, fun _ => ?_⟩
      unfold NodeIds.normalizeNodeIdentifier
      rw [if_neg other]
      split <;> exact ⟨_, rfl⟩

/-- A node id has a canonical form, or is refused, exactly if its identifier is read. -/
theorem canonicalNodeId_ok_iff (namespaceUri : Nat → Option String) (nodeId : String) :
    (∃ canonicalId, interpreter.canonicalNodeId namespaceUri nodeId = .ok canonicalId) ↔
      interpreter.ReadsIdentifier nodeId := by
  have absent : interpreter.identifierPart (interpreter.strip nodeId) = none → interpreter.ReadsIdentifier nodeId := by
    intro none digits found
    rw [none] at found
    cases found
  have present {kind : Char} {text : List Char}
      (found : interpreter.identifierPart (interpreter.strip nodeId) = some (kind, text)) :
      interpreter.ReadsIdentifier nodeId ↔ ∃ normalized, interpreter.normalizeNodeIdentifier kind text = .ok normalized := by
    rw [normalizeNodeIdentifier_ok_iff]
    unfold ReadsIdentifier
    rw [found]
    constructor
    · intro reads number
      cases number
      exact reads text rfl
    · intro reads digits same
      cases same
      exact reads rfl
  unfold canonicalNodeId
  unfold identifierPart at absent present
  by_cases expanded : NodeIds.isExpanded (interpreter.strip nodeId) = true
  · simp only [if_pos expanded] at absent present ⊢
    generalize (interpreter.strip nodeId).toList.drop 4 = rest at *
    cases separated : rest.dropWhile (· ≠ ';') with
    | nil =>
        simp only [separated] at absent
        exact ⟨fun _ => absent trivial, fun _ => ⟨_, rfl⟩⟩
    | cons semicolon identifierText =>
        simp only [separated] at absent present
        dsimp only
        by_cases empty : rest.takeWhile (· ≠ ';') = []
        · rw [if_pos empty] at absent ⊢
          exact ⟨fun _ => absent rfl, fun _ => ⟨_, rfl⟩⟩
        · rw [if_neg empty] at absent ⊢
          simp only [if_neg empty] at present
          cases parsed : NodeIds.identifierLine identifierText with
          | none => exact ⟨fun _ => absent parsed, fun _ => ⟨_, rfl⟩⟩
          | some identifier =>
              obtain ⟨kind, text⟩ := identifier
              rw [present parsed]
              dsimp only
              cases interpreter.normalizeNodeIdentifier kind text with
              | error literal => exact ⟨nofun, nofun⟩
              | ok normalized => cases normalized <;> exact ⟨fun _ => ⟨_, rfl⟩, fun _ => ⟨_, rfl⟩⟩
  · simp only [if_neg expanded] at absent present ⊢
    cases index : NodeIds.namespaceIndex interpreter.toUnicode (interpreter.strip nodeId).toList with
    | mk indexText rest =>
        simp only [index] at absent present
        dsimp only
        have number : (interpreter.namespaceNumber indexText).isSome = indexText.all interpreter.withinLimit := by
          cases indexText with
          | none => rfl
          | some digits =>
              obtain ⟨filled, decimal⟩ := namespaceIndex_decimal index
              rw [Bool.eq_iff_iff, namespaceNumber, digitsValue_isSome_iff filled, Option.all_some,
                and_iff_left decimal]
        cases parsed : NodeIds.identifierLine rest with
        | none =>
            simp only [parsed, ite_self] at absent
            exact ⟨fun _ => absent trivial, fun _ => ⟨_, rfl⟩⟩
        | some identifier =>
            obtain ⟨kind, text⟩ := identifier
            dsimp only
            cases read : interpreter.namespaceNumber indexText with
            | none =>
                rw [read] at number
                simp only [← number, Option.isSome_none, Bool.false_eq_true, if_false] at absent
                exact ⟨fun _ => absent trivial, fun _ => ⟨_, rfl⟩⟩
            | some value =>
                rw [read] at number
                simp only [← number, Option.isSome_some, if_true] at present
                rw [present parsed]
                dsimp only
                cases interpreter.normalizeNodeIdentifier kind text with
                | error literal => exact ⟨nofun, nofun⟩
                | ok normalized =>
                    cases normalized with
                    | none => exact ⟨fun _ => ⟨_, rfl⟩, fun _ => ⟨_, rfl⟩⟩
                    | some canonical =>
                        refine ⟨fun _ => ⟨_, rfl⟩, fun _ => ?_⟩
                        dsimp only
                        split <;> exact ⟨_, rfl⟩

end Interpreter

namespace Mcp
variable {V : Type} (interpreter : Interpreter) (model : IndexedModel)

/-! ## Batches -/

/-- On texts, and without a limit, the batch is the one of the round trips. -/
theorem nodeItems_of_unlimited (unlimited : interpreter.maxStrDigits = 0) (nodeIds : List String) :
    nodeItems (V := V) interpreter model (nodeIds.map .string) =
      (nodeIds.mapM (resolveNodeId interpreter.toUnicode model)).map (List.map .ofText) := by
  unfold nodeItems
  have each (nodeId : String) : resolveNodeArgument (V := V) interpreter model (.string nodeId) =
      (resolveNodeId interpreter.toUnicode model nodeId).map .ofText := by
    unfold resolveNodeArgument resolveNodeText resolveNodeId
    dsimp only
    rewrite [Interpreter.canonicalNodeId_of_unlimited unlimited]
    rfl
  induction nodeIds with
  | nil => rfl
  | cons nodeId nodeIds ih =>
      rw [List.map_cons, List.mapM_cons, List.mapM_cons, each, ih]
      cases resolveNodeId interpreter.toUnicode model nodeId with
      | error literal => rfl
      | ok item => cases nodeIds.mapM (resolveNodeId interpreter.toUnicode model) <;> rfl

theorem resolveNodeArgument_ok_iff (argument : Argument V) :
    (∃ item, resolveNodeArgument interpreter model argument = .ok item) ↔
      ∀ nodeId, argument = .string nodeId → interpreter.ReadsIdentifier nodeId := by
  cases argument with
  | other value => exact ⟨fun _ => nofun, fun _ => ⟨_, rfl⟩⟩
  | string nodeId =>
      have only : (∀ other, Argument.string (V := V) nodeId = .string other → interpreter.ReadsIdentifier other) ↔
          interpreter.ReadsIdentifier nodeId := by
        constructor
        · exact fun all => all nodeId rfl
        · intro reads other same
          cases same
          exact reads
      have mapped : (∃ item, resolveNodeArgument (V := V) interpreter model (.string nodeId) = .ok item) ↔
          ∃ item, resolveNodeText interpreter model nodeId = .ok item := by
        simp only [resolveNodeArgument]
        cases resolveNodeText interpreter model nodeId with
        | error literal => exact ⟨fun ⟨_, h⟩ => (by cases h), fun ⟨_, h⟩ => (by cases h)⟩
        | ok item => exact ⟨fun _ => ⟨item, rfl⟩, fun _ => ⟨.ofText item, rfl⟩⟩
      rw [only, mapped, ← Interpreter.canonicalNodeId_ok_iff model.namespaceUriByIndex nodeId]
      unfold resolveNodeText
      split
      · next blank =>
          refine ⟨fun _ => ?_, fun _ => ⟨_, rfl⟩⟩
          rw [Interpreter.canonicalNodeId_ok_iff]
          intro digits found
          rw [blank] at found
          cases found
      · cases interpreter.canonicalNodeId model.namespaceUriByIndex nodeId with
        | error literal => exact ⟨nofun, nofun⟩
        | ok canonical =>
            refine ⟨fun _ => ⟨_, rfl⟩, fun _ => ?_⟩
            cases canonical with
            | none => exact ⟨_, rfl⟩
            | some canonicalId =>
                dsimp only
                split <;> exact ⟨_, rfl⟩

theorem elementItems_isolated (elementIds : List (Argument V)) :
    Isolated (ε := String) (fun inputs => .ok (elementItems interpreter model inputs)) elementIds := by
  refine ⟨_, rfl, List.length_map _, fun i input found => ?_⟩
  exact ⟨resolveElementArgument interpreter model input, by rw [elementItems, List.getElem?_map, found]; rfl, rfl⟩

theorem itemsOf_resolveNodeArguments (nodeIds : List (Argument V)) :
    itemsOf (resolveNodeArguments interpreter model nodeIds) = nodeItems interpreter model nodeIds := by
  unfold itemsOf resolveNodeArguments
  cases nodeItems interpreter model nodeIds <;> rfl

/-- **Batches are isolated exactly if `int` reads the numeric identifiers of their
node ids.** -/
theorem batches_isolated_iff (elementIds nodeIds : List (Argument V)) :
    Isolated (fun inputs => itemsOf (.ok (resolveElementArguments interpreter model inputs))) elementIds ∧
        Isolated (fun inputs => itemsOf (resolveNodeArguments interpreter model inputs)) nodeIds ↔
      ∀ nodeId, .string nodeId ∈ nodeIds → interpreter.ReadsIdentifier nodeId := by
  simp only [itemsOf_resolveNodeArguments]
  rw [and_iff_right (show Isolated (fun inputs => itemsOf (.ok (resolveElementArguments interpreter model inputs)))
    elementIds from elementItems_isolated interpreter model elementIds)]
  unfold nodeItems
  rw [isolated_mapM_iff]
  simp only [resolveNodeArgument_ok_iff]
  constructor
  · exact fun all nodeId m => all _ m nodeId rfl
  · intro reads argument m nodeId same
    exact reads nodeId (same ▸ m)

end Mcp

/-- An interpreter that knows one digit beyond the decimal ones. -/
def Interpreter.superscript : Interpreter where
  toUnicode := { Unicode.ascii with isDigit := fun c => c.isDigit || c = '²' }
  maxStrDigits := 4300

/-- **A superscript digit in one node id leaves the other without an answer.** -/
theorem Mcp.superscript_not_isolated : ¬ Isolated (fun inputs => Mcp.itemsOf (Mcp.resolveNodeArguments (V := Json)
    Interpreter.superscript Plant.spacedModel inputs)) [.string "ns=1;s=A", .string "ns=1;i=²"] := by
  rintro ⟨items, run, -, -⟩
  have raised : Mcp.itemsOf (Mcp.resolveNodeArguments (V := Json) Interpreter.superscript Plant.spacedModel
      [.string "ns=1;s=A", .string "ns=1;i=²"]) = .error "²" := rfl
  cases raised.symm.trans run

end I3x

import I3xServer.Domain.Interpreters
import I3xServer.Domain.Numbering
import I3xServer.Domain.Uuids

/-!
# Canonical node ids

A canonical node id is canonical again, and a node id has the canonical form of its
expanded form, as long as no namespace uri has a semicolon. One that does is taken apart
at the wrong place.
-/
namespace I3x
open Container

/-- An interpreter as documented. -/
structure StandardInterpreter extends Interpreter where
  isSpace : Char → Bool
  strip_eq : ∀ s, strip s = String.ofList (trim isSpace s.toList)
  space_ascii : ∀ c, c.val < 128 → isSpace c = Text.asciiSpace c
  digit_ascii : ∀ c, c.val < 128 → isDigit c = c.isDigit
  decimal_ascii : ∀ c, c.val < 128 → decimal c = Unicode.asciiDecimal c
  decimal_lt : ∀ c d, decimal c = some d → d < 10
  uuid_eq : ∀ s, uuid s = Uuid.uuid decimal isSpace s
  limit : maxStrDigits = 0 ∨ 640 ≤ maxStrDigits

namespace StandardInterpreter

def ascii : StandardInterpreter where
  toUnicode := { Unicode.ascii with uuid := Uuid.uuid Unicode.asciiDecimal Text.asciiSpace }
  maxStrDigits := 4300
  isSpace := Text.asciiSpace
  strip_eq _ := rfl
  space_ascii _ _ := rfl
  digit_ascii _ _ := rfl
  decimal_ascii _ _ := rfl
  decimal_lt c d denotes := by
    obtain ⟨digit, same⟩ := Option.ite_none_right_eq_some.mp denotes
    have bound : c.toNat ≤ 57 := (Char.isDigit_iff_toNat.mp digit).2
    have value : c.toNat - 48 = d := Option.some.inj same
    omega
  uuid_eq _ := rfl
  limit := .inr (by decide)

variable (interpreter : StandardInterpreter)

/-- The namespace index, kind and text of a node id that is written with an index. -/
def indexedParts (nodeId : String) : Option (Nat × Char × List Char) :=
  let normalized := interpreter.strip nodeId
  if NodeIds.isExpanded normalized then none
  else
    let (indexText, rest) := NodeIds.namespaceIndex interpreter.toUnicode normalized.toList
    match NodeIds.identifierLine rest, interpreter.namespaceNumber indexText with
    | some (kind, text), some index => some (index, kind, text)
    | _, _ => none

/-- `expanded_node_id` recognises an indexed node id with an identifier that is not empty. -/
def expands (nodeId : String) : Bool :=
  match NodeIds.identifier (NodeIds.namespaceIndex interpreter.toUnicode nodeId.toList).2 with
  | none => false
  | some (_, text) => (NodeIds.line text).any (· ≠ [])

/-- The text after the first semicolon begins like an identifier that is taken as it stands. -/
def Absorbed (uri : List Char) : Prop :=
  ∃ before kind after, uri = before ++ ';' :: kind :: '=' :: after ∧ before ≠ [] ∧ ';' ∉ before ∧
    (kind = 's' ∨ kind = 'b') ∧ '\n' ∉ after

/-- An identifier is written the way a number or a UUID is printed. -/
structure Printed (kind : Char) (text : List Char) : Prop where
  number : kind = 'i' → ∃ value : Nat, text = (toString value).toList
  uuid : kind = 'g' → ∃ value : Nat, text = Uuid.printed value

/-- What a uri with a semicolon must be like for a node id to keep its canonical form. -/
def KeepsUri (namespaceInfos : List OpcUaNamespaceInfo) (nodeId : String) : Prop :=
  ∀ index kind text uri, interpreter.indexedParts nodeId = some (index, kind, text) → index ≠ 0 →
    NodeIds.namespaceUriByIndex namespaceInfos index = some uri → ';' ∈ uri.toList →
      Absorbed uri.toList ∧ (interpreter.expands nodeId = true → Printed kind text)

/-! ## Identifiers -/

section
variable {interpreter}

theorem isDigit_toString {value : Nat} {c : Char} (m : c ∈ (toString value).toList) : c.isDigit = true := by
  rw [Nat.toString_eq_repr, Nat.toList_repr] at m
  exact Nat.isDigit_of_mem_toDigits (by decide) (by decide) m

theorem ascii_of_isDigit {c : Char} (digit : c.isDigit = true) : c.val < 128 := by
  have bound : c.toNat ≤ 57 := (Char.isDigit_iff_toNat.mp digit).2
  rw [UInt32.lt_iff_toNat_lt]
  exact Nat.lt_of_le_of_lt bound (by decide)

theorem not_space_of_isDigit {c : Char} (digit : c.isDigit = true) : interpreter.isSpace c = false := by
  rw [interpreter.space_ascii c (ascii_of_isDigit digit)]
  have bounds : 48 ≤ c.val.toNat ∧ c.val.toNat ≤ 57 := Char.isDigit_iff_toNat.mp digit
  simp only [Text.asciiSpace, Bool.or_eq_false_iff, Bool.and_eq_false_iff, decide_eq_false_iff_not,
    ← UInt32.toNat_inj, UInt32.le_iff_toNat_le, UInt32.reduceToNat]
  omega

theorem digitsValue_toString {value : Nat} (within : interpreter.withinLimit (toString value).toList = true) :
    interpreter.digitsValue (toString value).toList = some value := by
  rw [Interpreter.digitsValue, if_pos within, Nat.toString_eq_repr, Nat.toList_repr]
  refine NodeIds.digitsValue_toDigits (fun c digit => ?_) value
  rw [interpreter.decimal_ascii c (ascii_of_isDigit digit)]
  exact if_pos digit

theorem withinLimit_small {value : Nat} (small : value ≤ 0xFFFFFFFF) :
    interpreter.withinLimit (toString value).toList = true := by
  have short : (toString value).toList.length ≤ 10 := by
    rw [Nat.toString_eq_repr, String.length_toList, Nat.length_repr_le_iff (by decide)]
    omega
  rw [Interpreter.withinLimit, Bool.or_eq_true, decide_eq_true_eq, decide_eq_true_eq]
  exact interpreter.limit.imp_right fun limit => by omega

theorem toString_toList_ne_nil (value : Nat) : (toString value).toList ≠ [] := by
  rw [Nat.toString_eq_repr, Nat.toList_repr]
  exact Nat.toDigits_ne_nil

theorem normalize_number {value : Nat} (small : value ≤ 0xFFFFFFFF) :
    interpreter.normalizeNodeIdentifier 'i' (toString value).toList = .ok (some (toString value)) := by
  have digits : (toString value).toList.all interpreter.isDigit = true := by
    refine List.all_eq_true.mpr fun c m => ?_
    have digit := isDigit_toString m
    rw [interpreter.digit_ascii c (ascii_of_isDigit digit), digit]
  rw [Interpreter.normalizeNodeIdentifier, if_pos rfl, if_neg (not_or_intro (toString_toList_ne_nil value) (not_not.mpr digits)),
    digitsValue_toString (withinLimit_small small)]
  exact congrArg Except.ok (if_pos small)

theorem plain_of_mem_printed {value : Nat} {c : Char} (m : c ∈ Uuid.printed value) :
    c.val < 128 ∧ Text.asciiSpace c = false ∧ c ≠ '\n' ∧ Uuid.isBrace c = false := by
  rcases Uuid.mem_printed m with hex | rfl
  · exact hex.elim (P := fun c => c.val < 128 ∧ Text.asciiSpace c = false ∧ c ≠ '\n' ∧ Uuid.isBrace c = false) (by decide)
  · decide

theorem normalize_uuid (value : Nat) : interpreter.normalizeNodeIdentifier 'g' (Uuid.printed value) =
    .ok (some (String.ofList (Uuid.printed value))) := by
  have whole : trim Uuid.isBrace (Uuid.printed value) = Uuid.printed value := by
    have plain {c : Char} (m : c ∈ Uuid.printed value) := (plain_of_mem_printed m).2.2.2
    exact trim_eq_self ⟨fun c first => plain (List.mem_of_mem_head? first), fun c last => plain (List.mem_of_getLast? last)⟩
  have read : interpreter.uuid (String.ofList (trim Uuid.isBrace (Uuid.printed value))) =
      some (String.ofList (Uuid.printed value)) := by
    rw [whole, interpreter.uuid_eq, Uuid.uuid_printed interpreter.decimal_ascii]
  exact congrArg Except.ok read

/-- What an identifier is normalised to is the print of a number or a UUID, or its text. -/
theorem normalize_cases {kind : Char} {text : List Char} {n : String}
    (normal : interpreter.normalizeNodeIdentifier kind text = .ok (some n)) :
    (kind = 'i' ∧ ∃ value ≤ 0xFFFFFFFF, interpreter.digitsValue text = some value ∧ n = toString value) ∨
    (kind = 'g' ∧ ∃ value, n = String.ofList (Uuid.printed value)) ∨
    (kind ≠ 'i' ∧ kind ≠ 'g' ∧ n = String.ofList text) := by
  unfold Interpreter.normalizeNodeIdentifier at normal
  split at normal
  · next number =>
      split at normal
      · cases normal
      · split at normal
        · cases normal
        · next value denotes =>
            split at normal
            · next small =>
                cases normal
                exact .inl ⟨number, value, small, denotes, rfl⟩
            · cases normal
  · next number =>
      rw [NodeIds.normalizeNodeIdentifier, if_neg number] at normal
      split at normal
      · next guid =>
          have read := Except.ok.inj normal
          rw [interpreter.uuid_eq] at read
          obtain ⟨value, same⟩ := Uuid.uuid_eq_some read
          exact .inr (.inl ⟨guid, value, same⟩)
      · next guid =>
          cases normal
          exact .inr (.inr ⟨number, guid, rfl⟩)

variable {kind : Char} {text : List Char} {n : String}

theorem normalize_again (normal : interpreter.normalizeNodeIdentifier kind text = .ok (some n)) :
    interpreter.normalizeNodeIdentifier kind n.toList = .ok (some n) := by
  rcases normalize_cases normal with ⟨rfl, value, small, -, rfl⟩ | ⟨rfl, value, rfl⟩ | ⟨number, guid, rfl⟩
  · exact normalize_number small
  · rw [String.toList_ofList]
    exact normalize_uuid value
  · rw [String.toList_ofList]
    exact normal

theorem normalize_self_iff (normal : interpreter.normalizeNodeIdentifier kind text = .ok (some n)) :
    n.toList = text ↔ Printed kind text := by
  rcases normalize_cases normal with ⟨rfl, value, small, denotes, rfl⟩ | ⟨rfl, value, rfl⟩ | ⟨number, guid, rfl⟩
  · constructor
    · exact fun same => ⟨fun _ => ⟨value, same.symm⟩, nofun⟩
    · intro printed
      obtain ⟨other, rfl⟩ := printed.number rfl
      have within := (Option.ite_none_right_eq_some.mp denotes).1
      rw [digitsValue_toString within] at denotes
      rw [Option.some.inj denotes]
  · constructor
    · rw [String.toList_ofList]
      exact fun same => ⟨nofun, fun _ => ⟨value, same.symm⟩⟩
    · intro printed
      obtain ⟨other, same⟩ := printed.uuid rfl
      rw [same] at normal ⊢
      rw [normalize_uuid, Except.ok.injEq, Option.some.injEq] at normal
      rw [← normal, String.toList_ofList]
  · rw [String.toList_ofList]
    exact ⟨fun _ => ⟨fun same => absurd same number, fun same => absurd same guid⟩, fun _ => rfl⟩

/-- A canonical identifier has no line feed and ends without white space, if the identifier does. -/
theorem normalize_line (normal : interpreter.normalizeNodeIdentifier kind text = .ok (some n)) (line : '\n' ∉ text)
    (last : ∀ c ∈ text.getLast?, interpreter.isSpace c = false) :
    '\n' ∉ n.toList ∧ ∀ c ∈ n.toList.getLast?, interpreter.isSpace c = false := by
  rcases normalize_cases normal with ⟨-, value, -, -, rfl⟩ | ⟨-, value, rfl⟩ | ⟨-, -, rfl⟩
  · exact ⟨fun m => absurd (isDigit_toString m) (by decide),
      fun c last => not_space_of_isDigit (isDigit_toString (List.mem_of_getLast? last))⟩
  · rw [String.toList_ofList]
    refine ⟨fun m => (plain_of_mem_printed m).2.2.1 rfl, fun c last => ?_⟩
    have plain := plain_of_mem_printed (List.mem_of_getLast? last)
    exact (interpreter.space_ascii c plain.1).trans plain.2.1
  · rw [String.toList_ofList]
    exact ⟨line, last⟩

/-! ## Lines -/

def kinds : List Char := ['i', 's', 'g', 'b']

theorem line_eq_self {cs : List Char} (line : '\n' ∉ cs) : NodeIds.line cs = some cs := by
  have none_left : cs.dropWhile (· ≠ '\n') = [] := List.dropWhile_eq_nil_iff.mpr fun c m => decide_eq_true fun eq => line (eq ▸ m)
  rw [NodeIds.line, none_left]

/-- A line is a text up to a line feed that may end it. -/
theorem line_eq_some {cs body : List Char} (matched : NodeIds.line cs = some body) :
    '\n' ∉ body ∧ (cs = body ∨ cs = body ++ ['\n']) := by
  have whole := List.takeWhile_append_dropWhile (p := (· ≠ '\n')) (l := cs)
  have front : '\n' ∉ cs.takeWhile (· ≠ '\n') := by
    intro m
    have other := List.mem_takeWhile_imp m
    cases other
  unfold NodeIds.line at matched
  split at matched
  · next none_left =>
      rw [none_left, List.append_nil] at whole
      cases matched
      exact ⟨whole ▸ front, .inl rfl⟩
  · next feed =>
      cases matched
      rw [feed] at whole
      exact ⟨front, .inr whole.symm⟩
  · cases matched

theorem identifier_eq_some {cs text : List Char} {kind : Char} (matched : NodeIds.identifier cs = some (kind, text)) :
    kind ∈ kinds ∧ cs = kind :: '=' :: text := by
  unfold NodeIds.identifier at matched
  split at matched
  · split at matched
    · next known =>
        cases matched
        exact ⟨known, rfl⟩
    · cases matched
  · cases matched

theorem identifier_cons {kind : Char} (known : kind ∈ kinds) (text : List Char) :
    NodeIds.identifier (kind :: '=' :: text) = some (kind, text) := if_pos known

theorem identifierLine_cons {kind : Char} (known : kind ∈ kinds) {text : List Char} (line : '\n' ∉ text) :
    NodeIds.identifierLine (kind :: '=' :: text) = some (kind, text) := by
  rw [NodeIds.identifierLine, identifier_cons known]
  dsimp only
  rw [line_eq_self line]
  rfl

/-- An identifier at the end of a trimmed text is all of it. -/
theorem identifierLine_eq_some {cs text : List Char} {kind : Char}
    (matched : NodeIds.identifierLine cs = some (kind, text)) (last : ∀ c ∈ cs.getLast?, interpreter.isSpace c = false) :
    kind ∈ kinds ∧ '\n' ∉ text ∧ cs = kind :: '=' :: text := by
  unfold NodeIds.identifierLine at matched
  split at matched
  · cases matched
  · next kind' rest found =>
      obtain ⟨known, rfl⟩ := identifier_eq_some found
      obtain ⟨body, cut, same⟩ := Option.map_eq_some_iff.mp matched
      cases same
      obtain ⟨line, rfl | rfl⟩ := line_eq_some cut
      · exact ⟨known, line, rfl⟩
      · have feed : interpreter.isSpace '\n' = false :=
          last '\n' (by rw [← List.cons_append, ← List.cons_append, List.getLast?_concat]; rfl)
        rw [interpreter.space_ascii _ (by decide)] at feed
        exact absurd feed (by decide)

/-! ## Both forms -/

def expandedText (uri identifier : List Char) : List Char := "nsu=".toList ++ (uri ++ ';' :: identifier)

theorem span_separator {uri : List Char} (plain : ';' ∉ uri) (rest : List Char) :
    (uri ++ ';' :: rest).takeWhile (· ≠ ';') = uri ∧ (uri ++ ';' :: rest).dropWhile (· ≠ ';') = ';' :: rest := by
  have front : ∀ c ∈ uri, decide (c ≠ ';') = true := fun c m => decide_eq_true fun eq => plain (eq ▸ m)
  constructor
  · rw [List.takeWhile_append_of_pos front, List.takeWhile_cons_of_neg (by decide), List.append_nil]
  · rw [List.dropWhile_append_of_pos front, List.dropWhile_cons_of_neg (by decide)]

def indexedText (index : Nat) (identifier : List Char) : List Char :=
  "ns=".toList ++ ((toString index).toList ++ ';' :: identifier)

/-- How a node id is spelled in the namespace with an index. -/
def spelled (uriOf : Nat → Option String) (index : Nat) (identifier : List Char) : List Char :=
  match (if index = 0 then some NodeIds.standardNamespace else uriOf index) with
  | some uri => expandedText uri.toList identifier
  | none => indexedText index identifier

theorem toList_expanded (uri : String) (kind : Char) (n : String) :
    ("nsu=" ++ uri ++ ";" ++ String.singleton kind ++ "=" ++ n).toList = expandedText uri.toList (kind :: '=' :: n.toList) := by
  simp [expandedText]

variable {uriOf : Nat → Option String} {nodeId canonicalId : String}

/-- The canonical form of an expanded node id. -/
theorem canonicalNodeId_expanded {uri identifier : List Char} (plain : ';' ∉ uri)
    (spelled : (interpreter.strip nodeId).toList = expandedText uri identifier) :
    interpreter.canonicalNodeId uriOf nodeId = .ok (some canonicalId) ↔ uri ≠ [] ∧ ∃ kind text n,
      NodeIds.identifierLine identifier = some (kind, text) ∧
      interpreter.normalizeNodeIdentifier kind text = .ok (some n) ∧
      canonicalId.toList = expandedText uri (kind :: '=' :: n.toList) := by
  have expanded : NodeIds.isExpanded (interpreter.strip nodeId) = true := by
    rw [NodeIds.isExpanded, spelled]
    exact List.isPrefixOf_iff_prefix.mpr (List.prefix_append _ _)
  have rest : (interpreter.strip nodeId).toList.drop 4 = uri ++ ';' :: identifier := by rw [spelled]; rfl
  obtain ⟨front, back⟩ := span_separator plain identifier
  dsimp only [Interpreter.canonicalNodeId]
  rw [if_pos expanded, rest, front, back]
  dsimp only
  by_cases empty : uri = []
  · rw [if_pos empty]
    refine iff_of_false (fun same => ?_) fun given => given.1 empty
    cases same
  rw [if_neg empty]
  constructor
  · intro canonical
    split at canonical
    · cases canonical
    · next kind text found =>
        split at canonical
        · cases canonical
        · cases canonical
        · next n normal =>
            refine ⟨empty, kind, text, n, found, normal, ?_⟩
            rw [← Option.some.inj (Except.ok.inj canonical), toList_expanded, String.toList_ofList]
  · rintro ⟨-, kind, text, n, found, normal, same⟩
    rw [found]
    dsimp only
    rw [normal]
    refine congrArg (Except.ok ∘ some) (String.toList_inj.mp ?_)
    rw [toList_expanded, String.toList_ofList, same]

/-- The canonical form of a node id with an index. -/
theorem canonicalNodeId_indexed (indexed : NodeIds.isExpanded (interpreter.strip nodeId) = false) :
    interpreter.canonicalNodeId uriOf nodeId = .ok (some canonicalId) ↔ ∃ index kind text n,
      interpreter.indexedParts nodeId = some (index, kind, text) ∧
      interpreter.normalizeNodeIdentifier kind text = .ok (some n) ∧
      canonicalId.toList = spelled uriOf index (kind :: '=' :: n.toList) := by
  have plain : ¬ NodeIds.isExpanded (interpreter.strip nodeId) = true := by rw [indexed]; exact Bool.false_ne_true
  have written (index : Nat) (kind : Char) (n : String) :
      (match (if index = 0 then some NodeIds.standardNamespace else uriOf index) with
        | some uri => (.ok (some ("nsu=" ++ uri ++ ";" ++ (String.singleton kind ++ "=" ++ n))) : Except String (Option String))
        | none => .ok (some ("ns=" ++ toString index ++ ";" ++ (String.singleton kind ++ "=" ++ n)))) =
          .ok (some canonicalId) ↔ canonicalId.toList = spelled uriOf index (kind :: '=' :: n.toList) := by
    rw [spelled]
    cases (if index = 0 then some NodeIds.standardNamespace else uriOf index) with
    | some uri =>
        rw [Except.ok.injEq, Option.some.injEq, ← String.toList_inj, eq_comm]
        simp [expandedText]
    | none =>
        rw [Except.ok.injEq, Option.some.injEq, ← String.toList_inj, eq_comm]
        simp [indexedText]
  dsimp only [Interpreter.canonicalNodeId, indexedParts]
  rw [if_neg plain, if_neg plain]
  cases NodeIds.identifierLine (NodeIds.namespaceIndex interpreter.toUnicode (interpreter.strip nodeId).toList).2 with
  | none => exact ⟨nofun, fun ⟨_, _, _, _, impossible, _⟩ => nomatch impossible⟩
  | some found =>
      cases interpreter.namespaceNumber (NodeIds.namespaceIndex interpreter.toUnicode (interpreter.strip nodeId).toList).1 with
      | none => exact ⟨nofun, fun ⟨_, _, _, _, impossible, _⟩ => nomatch impossible⟩
      | some index =>
          obtain ⟨kind, text⟩ := found
          dsimp only
          constructor
          · intro canonical
            cases normal : interpreter.normalizeNodeIdentifier kind text with
            | error literal => rw [normal] at canonical; cases canonical
            | ok normalized =>
                rw [normal] at canonical
                cases normalized with
                | none => cases canonical
                | some n => exact ⟨index, kind, text, n, rfl, normal, (written index kind n).mp canonical⟩
          · rintro ⟨_, _, _, n, same, normal, spelling⟩
            cases same
            rw [normal]
            exact (written index kind n).mpr spelling

/-! ## Canonical ids are canonical -/

theorem getLast?_identifier {front text : List Char} (last : ∀ c ∈ text.getLast?, interpreter.isSpace c = false) :
    ∀ c ∈ (front ++ '=' :: text).getLast?, interpreter.isSpace c = false := by
  rw [List.getLast?_append, List.getLast?_cons]
  cases ends : text.getLast? with
  | none =>
      intro c same
      cases same
      rw [interpreter.space_ascii _ (by decide)]
      decide
  | some d =>
      intro c same
      cases same
      exact last d ends

theorem trimmed_spelled {front text : List Char} (last : ∀ c ∈ text.getLast?, interpreter.isSpace c = false) :
    Trimmed interpreter.isSpace ('n' :: (front ++ '=' :: text)) where
  first := by
    intro c same
    cases same
    rw [interpreter.space_ascii _ (by decide)]
    decide
  last := by
    rw [← List.cons_append]
    exact getLast?_identifier last

theorem toList_strip (s : String) : (interpreter.strip s).toList = trim interpreter.isSpace s.toList := by
  rw [interpreter.strip_eq, String.toList_ofList]

theorem expandedText_eq (uri : List Char) (kind : Char) (text : List Char) :
    expandedText uri (kind :: '=' :: text) = 'n' :: ((['s', 'u', '='] ++ uri ++ [';', kind]) ++ '=' :: text) := by
  simp [expandedText]

theorem indexedText_eq (index : Nat) (kind : Char) (text : List Char) :
    indexedText index (kind :: '=' :: text) = 'n' :: ((['s', '='] ++ (toString index).toList ++ [';', kind]) ++ '=' :: text) := by
  simp [indexedText]

/-- What white space follows an expanded node id does not matter. -/
theorem strip_expandedText {s : String} {uri text after : List Char} {kind : Char}
    (same : s.toList = expandedText uri (kind :: '=' :: text) ++ after) (blank : ∀ c ∈ after, interpreter.isSpace c = true)
    (last : ∀ c ∈ text.getLast?, interpreter.isSpace c = false) :
    (interpreter.strip s).toList = expandedText uri (kind :: '=' :: text) := by
  have trimmed : Trimmed interpreter.isSpace (expandedText uri (kind :: '=' :: text)) := by
    rw [expandedText_eq]
    exact trimmed_spelled last
  rw [toList_strip, same]
  exact @trim_pad _ _ [] _ _ trimmed (fun _ => nofun) blank

theorem canonicalNodeId_normal {uri : List Char} (some_uri : uri ≠ []) (plain : ';' ∉ uri) (known : kind ∈ kinds)
    (normal : interpreter.normalizeNodeIdentifier kind text = .ok (some n)) (line : '\n' ∉ text)
    (spelling : (interpreter.strip nodeId).toList = expandedText uri (kind :: '=' :: text))
    (same : canonicalId.toList = expandedText uri (kind :: '=' :: n.toList)) :
    interpreter.canonicalNodeId uriOf nodeId = .ok (some canonicalId) :=
  (canonicalNodeId_expanded plain spelling).mpr ⟨some_uri, kind, text, n, identifierLine_cons known line, normal, same⟩

theorem namespaceIndex_digits {digits : List Char} (some' : digits ≠ [])
    (decimal : ∀ c ∈ digits, (interpreter.decimal c).isSome = true) (rest : List Char) :
    NodeIds.namespaceIndex interpreter.toUnicode ("ns=".toList ++ (digits ++ ';' :: rest)) = (some digits, rest) := by
  have separator : (interpreter.decimal ';').isSome = false := by
    rw [interpreter.decimal_ascii _ (by decide)]
    decide
  change NodeIds.namespaceIndex _ ('n' :: 's' :: '=' :: (digits ++ ';' :: rest)) = _
  rw [NodeIds.namespaceIndex]
  rw [List.dropWhile_append_of_pos decimal, List.takeWhile_append_of_pos decimal, List.dropWhile_cons_of_neg (by simp [separator]),
    List.takeWhile_cons_of_neg (by simp [separator]), List.append_nil]
  exact if_neg some'

theorem namespaceIndex_plain {cs : List Char} (plain : cs.head? ≠ some 'n') :
    NodeIds.namespaceIndex interpreter.toUnicode cs = (none, cs) := by
  unfold NodeIds.namespaceIndex
  split
  · exact absurd rfl plain
  · rfl

/-- Where an identifier follows, the index before it is written out or left out. -/
theorem namespaceIndex_cases {cs identifier text : List Char} {digits : Option (List Char)} {kind : Char}
    (split_ : NodeIds.namespaceIndex interpreter.toUnicode cs = (digits, identifier))
    (found : NodeIds.identifier identifier = some (kind, text)) :
    (digits = none ∧ cs = identifier) ∨ ∃ written, digits = some written ∧ written ≠ [] ∧
      (∀ c ∈ written, (interpreter.decimal c).isSome = true) ∧ cs = "ns=".toList ++ (written ++ ';' :: identifier) := by
  unfold NodeIds.namespaceIndex at split_
  split at split_
  · next rest =>
      split at split_
      · next tail dropped =>
          dsimp only at split_
          split at split_
          · cases split_
            exact .inl ⟨rfl, rfl⟩
          · next some' =>
              cases split_
              refine .inr ⟨_, rfl, some', fun c => List.mem_takeWhile_imp, ?_⟩
              rw [← dropped, List.takeWhile_append_dropWhile]
              rfl
      · cases split_
        exact .inl ⟨rfl, rfl⟩
  · cases split_
    exact .inl ⟨rfl, rfl⟩

theorem namespaceIndex_indexedText (index : Nat) (identifier : List Char) :
    NodeIds.namespaceIndex interpreter.toUnicode (indexedText index identifier) =
      (some (toString index).toList, identifier) := by
  refine namespaceIndex_digits (toString_toList_ne_nil index) (fun c m => ?_) identifier
  have digit := isDigit_toString m
  rw [interpreter.decimal_ascii c (ascii_of_isDigit digit), Unicode.asciiDecimal, if_pos digit]
  rfl

/-- A node id in a namespace without a uri keeps its index. -/
theorem canonicalNodeId_unnamed {index : Nat} (within : interpreter.withinLimit (toString index).toList = true)
    (unnamed : spelled uriOf index (kind :: '=' :: n.toList) = indexedText index (kind :: '=' :: n.toList))
    (known : kind ∈ kinds) (normal : interpreter.normalizeNodeIdentifier kind n.toList = .ok (some n))
    (line : '\n' ∉ n.toList) (last : ∀ c ∈ n.toList.getLast?, interpreter.isSpace c = false)
    (same : canonicalId.toList = indexedText index (kind :: '=' :: n.toList)) :
    interpreter.canonicalNodeId uriOf canonicalId = .ok (some canonicalId) := by
  have stripped : (interpreter.strip canonicalId).toList = indexedText index (kind :: '=' :: n.toList) := by
    have trimmed : Trimmed interpreter.isSpace (indexedText index (kind :: '=' :: n.toList)) := by
      rw [indexedText_eq]
      exact trimmed_spelled last
    rw [toList_strip, same, trim_eq_self trimmed]
  have indexed : NodeIds.isExpanded (interpreter.strip canonicalId) = false := by
    rw [NodeIds.isExpanded, stripped]
    rfl
  refine (canonicalNodeId_indexed indexed).mpr ⟨index, kind, n.toList, n, ?_, normal, same.trans unnamed.symm⟩
  dsimp only [indexedParts]
  rw [indexed, stripped, namespaceIndex_indexedText, if_neg Bool.false_ne_true]
  dsimp only
  rw [identifierLine_cons known line, Interpreter.namespaceNumber, digitsValue_toString within]

/-! ## Uris with a semicolon -/

theorem normalize_semicolon (normal : interpreter.normalizeNodeIdentifier kind text = .ok (some n)) (m : ';' ∈ text) :
    kind ≠ 'i' ∧ kind ≠ 'g' := by
  have digit : interpreter.decimal ';' = none := interpreter.decimal_ascii _ (by decide)
  constructor
  · rintro rfl
    rcases normalize_cases normal with ⟨-, value, -, denotes, -⟩ | ⟨impossible, -⟩ | ⟨impossible, -⟩
    · obtain ⟨-, denotes⟩ := Option.ite_none_right_eq_some.mp denotes
      obtain ⟨-, denotes⟩ := Option.ite_none_left_eq_some.mp denotes
      obtain ⟨digits, read, -⟩ := Option.map_eq_some_iff.mp denotes
      exact Uuid.mem_of_mapM read m digit
    · cases impossible
    · exact impossible rfl
  · rintro rfl
    have inside : ';' ∈ (String.ofList (trim Uuid.isBrace text)).toList := by
      rw [String.toList_ofList]
      exact mem_trim m (by decide)
    have unread : interpreter.uuid (String.ofList (trim Uuid.isBrace text)) = none := by
      rw [interpreter.uuid_eq]
      exact Uuid.uuid_semicolon digit inside
    cases unread.symm.trans (Except.ok.inj normal)

/-- What stands before the first semicolon is taken for the uri, and the rest for an identifier. -/
theorem canonicalNodeId_absorbed {uri : List Char} (split_ : ';' ∈ uri) (known : kind ∈ kinds) (line : '\n' ∉ text)
    (last : ∀ c ∈ text.getLast?, interpreter.isSpace c = false)
    (spelling : (interpreter.strip nodeId).toList = expandedText uri (kind :: '=' :: text))
    (same : canonicalId.toList = expandedText uri (kind :: '=' :: n.toList)) :
    interpreter.canonicalNodeId uriOf nodeId = .ok (some canonicalId) ↔ Absorbed uri ∧ n.toList = text := by
  constructor
  · intro canonical
    obtain ⟨before, after, rfl, first⟩ := List.eq_append_cons_of_mem split_
    have spelling' : (interpreter.strip nodeId).toList = expandedText before (after ++ ';' :: kind :: '=' :: text) := by
      rw [spelling, expandedText, expandedText, List.append_assoc, List.cons_append]
    obtain ⟨some_uri, kind', text', n', found, normal, same'⟩ := (canonicalNodeId_expanded first spelling').mp canonical
    have ends : ∀ c ∈ (after ++ ';' :: kind :: '=' :: text).getLast?, interpreter.isSpace c = false := by
      have regroup : after ++ ';' :: kind :: '=' :: text = (after ++ [';', kind]) ++ '=' :: text := by simp
      rw [regroup]
      exact getLast?_identifier last
    obtain ⟨known', line', whole⟩ := identifierLine_eq_some found ends
    obtain ⟨rest, rfl, rfl⟩ : ∃ rest, after = kind' :: '=' :: rest ∧ text' = rest ++ ';' :: kind :: '=' :: text := by
      match after, whole with
      | [], whole =>
          simp only [List.nil_append, List.cons.injEq] at whole
          rw [← whole.1] at known'
          exact absurd known' (by decide)
      | [_], whole =>
          simp only [List.cons_append, List.nil_append, List.cons.injEq] at whole
          exact absurd whole.2.1 (by decide)
      | a :: b :: rest, whole =>
          simp only [List.cons_append, List.cons.injEq] at whole
          exact ⟨rest, by rw [whole.1, whole.2.1], whole.2.2.symm⟩
    obtain ⟨number, guid⟩ := normalize_semicolon normal (List.mem_append_right _ List.mem_cons_self)
    obtain ⟨impossible, -⟩ | ⟨impossible, -⟩ | ⟨-, -, rfl⟩ := normalize_cases normal
    · exact absurd impossible number
    · exact absurd impossible guid
    refine ⟨⟨before, kind', rest, rfl, some_uri, first, ?_, fun m => line' (List.mem_append_left _ m)⟩, ?_⟩
    · simpa [kinds, number, guid] using known'
    · rw [same', String.toList_ofList] at same
      simpa [expandedText] using same.symm
  · rintro ⟨⟨before, kind', after, rfl, some_uri, first, plain, line'⟩, rfl⟩
    have known' : kind' ∈ kinds := by rcases plain with rfl | rfl <;> decide
    have number : kind' ≠ 'i' := by rcases plain with rfl | rfl <;> decide
    have guid : kind' ≠ 'g' := by rcases plain with rfl | rfl <;> decide
    have normal (identifier : List Char) :
        interpreter.normalizeNodeIdentifier kind' identifier = .ok (some (String.ofList identifier)) := by
      rw [Interpreter.normalizeNodeIdentifier, if_neg number, NodeIds.normalizeNodeIdentifier, if_neg number, if_neg guid]
    have whole : '\n' ∉ after ++ ';' :: kind :: '=' :: n.toList := by
      have plain_kind : '\n' ≠ kind := by rintro rfl; exact absurd known (by decide)
      simp [line', line, plain_kind]
    refine canonicalNodeId_normal some_uri first known' (normal _) whole ?_ ?_
    · rw [spelling]
      simp [expandedText]
    · rw [same, String.toList_ofList]
      simp [expandedText]

/-! ## Expanding -/

/-- What is known of a trimmed node id with an index, also with something behind it. -/
structure Indexed (interpreter : StandardInterpreter) (front : List Char) (index : Nat) (kind : Char)
    (text : List Char) : Prop where
  known : kind ∈ kinds
  line : '\n' ∉ text
  last : ∀ c ∈ text.getLast?, interpreter.isSpace c = false
  reads : ∀ after, ∃ digits, NodeIds.namespaceIndex interpreter.toUnicode (front ++ kind :: '=' :: text ++ after) =
    (digits, kind :: '=' :: (text ++ after)) ∧ interpreter.namespaceNumber digits = some index
  unexpanded : ∀ after, "nsu=".toList.isPrefixOf (front ++ kind :: '=' :: text ++ after) = false

theorem head_ne_of_kind {kind : Char} (known : kind ∈ kinds) (rest : List Char) : (kind :: rest).head? ≠ some 'n' := by
  intro same
  cases same
  exact absurd known (by decide)

theorem getLast?_of_append (front : List Char) {rest : List Char} (last : ∀ c ∈ (front ++ rest).getLast?, interpreter.isSpace c = false) :
    ∀ c ∈ rest.getLast?, interpreter.isSpace c = false := by
  intro c ends
  refine last c ?_
  rw [List.getLast?_append, Option.mem_def.mp ends]
  rfl

theorem indexedParts_eq_some {index : Nat} (parts : interpreter.indexedParts nodeId = some (index, kind, text)) :
    ∃ front, (interpreter.strip nodeId).toList = front ++ kind :: '=' :: text ∧
      Indexed interpreter front index kind text := by
  dsimp only [indexedParts] at parts
  split at parts
  · cases parts
  · split at parts
    · next kind' text' index' found number =>
        cases parts
        have last : ∀ c ∈ (interpreter.strip nodeId).toList.getLast?, interpreter.isSpace c = false := by
          rw [toList_strip]
          exact (trimmed_trim _).last
        generalize (interpreter.strip nodeId).toList = cs at *
        obtain ⟨digits, identifier, split_⟩ : ∃ digits identifier, NodeIds.namespaceIndex interpreter.toUnicode cs =
          (digits, identifier) := ⟨_, _, rfl⟩
        rw [split_] at found number
        obtain ⟨rest, some'⟩ : ∃ rest, NodeIds.identifier identifier = some rest := by
          cases none_ : NodeIds.identifier identifier with
          | none => rw [NodeIds.identifierLine, none_] at found; cases found
          | some rest => exact ⟨rest, rfl⟩
        rcases namespaceIndex_cases split_ some' with ⟨rfl, rfl⟩ | ⟨written, rfl, filled, decimal, rfl⟩
        · obtain ⟨known, line, rfl⟩ := identifierLine_eq_some found last
          have plain (after : List Char) := head_ne_of_kind known ('=' :: text ++ after)
          refine ⟨[], rfl, known, line, getLast?_of_append [kind, '='] last, fun after => ?_, fun after => ?_⟩
          · exact ⟨none, namespaceIndex_plain (plain after), number⟩
          · refine Bool.eq_false_iff.mpr fun expanded => plain after ?_
            obtain ⟨tail, same⟩ := List.isPrefixOf_iff_prefix.mp expanded
            exact congrArg List.head? same.symm
        · have last' : ∀ c ∈ identifier.getLast?, interpreter.isSpace c = false :=
            getLast?_of_append ("ns=".toList ++ (written ++ [';'])) (by simpa using last)
          obtain ⟨known, line, rfl⟩ := identifierLine_eq_some found last'
          refine ⟨"ns=".toList ++ (written ++ [';']), by simp, known, line, getLast?_of_append [kind, '='] last',
            fun after => ⟨some written, ?_, number⟩, fun after => rfl⟩
          have regroup : "ns=".toList ++ (written ++ [';']) ++ kind :: '=' :: text ++ after =
              "ns=".toList ++ (written ++ ';' :: kind :: '=' :: (text ++ after)) := by simp
          rw [regroup, namespaceIndex_digits filled decimal]
    · cases parts

/-- White space in front keeps a node id from being expanded. -/
theorem expandedNodeId_of_space (namespaceInfos : List OpcUaNamespaceInfo) {c : Char} {rest : List Char}
    (starts : nodeId.toList = c :: rest) (space : interpreter.isSpace c = true) :
    interpreter.expandedNodeId namespaceInfos nodeId = .ok nodeId ∧ interpreter.expands nodeId = false := by
  have other {d : Char} (ascii : d.val < 128) (visible : Text.asciiSpace d = false) : c ≠ d := by
    rintro rfl
    rw [interpreter.space_ascii c ascii, visible] at space
    cases space
  have indices : NodeIds.namespaceIndex interpreter.toUnicode nodeId.toList = (none, c :: rest) := by
    rw [starts]
    exact namespaceIndex_plain fun same => other (by decide) (by decide) (Option.some.inj same)
  have none_ : NodeIds.identifier (c :: rest) = none := by
    cases found : NodeIds.identifier (c :: rest) with
    | none => rfl
    | some parts =>
        obtain ⟨known, same⟩ := identifier_eq_some found
        rw [(List.cons.inj same).1] at space
        have each : kinds.all (fun d => d.val < 128 && !Text.asciiSpace d) = true := rfl
        obtain ⟨ascii, visible⟩ := Bool.and_eq_true_iff.mp (List.all_eq_true.mp each _ known)
        rw [interpreter.space_ascii _ (of_decide_eq_true ascii), (Bool.not_eq_true' _).mp visible] at space
        cases space
  constructor
  · unfold Interpreter.expandedNodeId
    split
    · rfl
    · rw [indices]
      dsimp only
      rw [none_]
  · rw [expands, indices, none_]

/-- The namespace uri at an index, as both functions see it. -/
def uriAt (namespaceInfos : List OpcUaNamespaceInfo) (index : Nat) : Option String :=
  if index = 0 then some NodeIds.standardNamespace else NodeIds.namespaceUriByIndex namespaceInfos index

/-- A node id with an index is expanded with the uri at it, if there is one, and what white
space follows it is kept. -/
theorem expandedNodeId_indexed (namespaceInfos : List OpcUaNamespaceInfo) {front after : List Char} {index : Nat}
    (indexed : Indexed interpreter front index kind text) (starts : nodeId.toList = front ++ kind :: '=' :: text ++ after)
    (blank : ∀ c ∈ after, interpreter.isSpace c = true) :
    (interpreter.expandedNodeId namespaceInfos nodeId = .ok nodeId ∧
      (interpreter.expands nodeId = true → uriAt namespaceInfos index = none)) ∨
    ∃ uri expanded after', uriAt namespaceInfos index = some uri ∧ interpreter.expands nodeId = true ∧
      interpreter.expandedNodeId namespaceInfos nodeId = .ok expanded ∧
      expanded.toList = expandedText uri.toList (kind :: '=' :: text) ++ after' ∧
      ∀ c ∈ after', interpreter.isSpace c = true := by
  obtain ⟨digits, split_, number⟩ := indexed.reads after
  have unexpanded : ¬ NodeIds.isExpanded nodeId = true := by
    rw [NodeIds.isExpanded, starts, indexed.unexpanded after]
    exact Bool.false_ne_true
  have found := identifier_cons indexed.known (text ++ after)
  rw [← starts] at split_
  dsimp only [Interpreter.expandedNodeId, expands]
  rw [if_neg unexpanded, split_]
  dsimp only
  rw [found]
  dsimp only
  cases cut : NodeIds.line (text ++ after) with
  | none => exact .inl ⟨rfl, fun impossible => absurd impossible Bool.false_ne_true⟩
  | some body =>
      cases body with
      | nil => exact .inl ⟨rfl, fun impossible => absurd impossible Bool.false_ne_true⟩
      | cons b bs =>
          obtain ⟨line, ends⟩ := line_eq_some cut
          obtain ⟨after', whole, blank'⟩ : ∃ after', b :: bs = text ++ after' ∧ ∀ c ∈ after', interpreter.isSpace c = true := by
            rcases ends with same | same
            · exact ⟨after, same.symm, blank⟩
            · rcases List.eq_nil_or_concat after with rfl | ⟨init, last, rfl⟩
              · rw [List.append_nil] at same
                exact absurd (same ▸ List.mem_append_right _ List.mem_cons_self) indexed.line
              · rw [List.concat_eq_append] at same blank
                rw [← List.append_assoc] at same
                exact ⟨init, (List.append_inj_left' same rfl).symm, fun c m => blank c (List.mem_append_left _ m)⟩
          rw [number]
          dsimp only
          have written (uri : String) : ("nsu=" ++ uri ++ ";" ++ String.ofList (kind :: '=' :: b :: bs)).toList =
              expandedText uri.toList (kind :: '=' :: text) ++ after' := by
            rw [whole]
            simp [expandedText]
          unfold uriAt NodeIds.namespaceUriByIndex
          by_cases standard : index = 0
          · rw [if_pos standard, if_pos standard]
            exact .inr ⟨_, _, after', rfl, rfl, rfl, written _, blank'⟩
          · rw [if_neg standard, if_neg standard]
            cases namespaceInfos[index]? with
            | none => exact .inl ⟨rfl, fun _ => rfl⟩
            | some info =>
                by_cases empty : info.uri = ""
                · exact .inl ⟨congrArg Except.ok (if_pos empty), fun _ => if_pos empty⟩
                · exact .inr ⟨_, _, after', if_neg empty, rfl, congrArg Except.ok (if_neg empty), written _, blank'⟩

theorem exists_strip (nodeId : String) : ∃ before after, nodeId.toList = before ++ (interpreter.strip nodeId).toList ++ after ∧
    (∀ c ∈ before, interpreter.isSpace c = true) ∧ ∀ c ∈ after, interpreter.isSpace c = true := by
  rw [toList_strip]
  exact exists_trim nodeId.toList

/-- A node id with an index stays as it is, or gets the uri at the index. -/
theorem exists_expandedNodeId (namespaceInfos : List OpcUaNamespaceInfo) {front : List Char} {index : Nat}
    (indexed : Indexed interpreter front index kind text)
    (stripped : (interpreter.strip nodeId).toList = front ++ kind :: '=' :: text) :
    ∃ expanded, interpreter.expandedNodeId namespaceInfos nodeId = .ok expanded ∧
      ((expanded = nodeId ∧ (interpreter.expands nodeId = true → uriAt namespaceInfos index = none)) ∨
        ∃ uri, uriAt namespaceInfos index = some uri ∧ interpreter.expands nodeId = true ∧
          (interpreter.strip expanded).toList = expandedText uri.toList (kind :: '=' :: text)) := by
  obtain ⟨before, after, whole, left, right⟩ := @exists_strip interpreter nodeId
  cases before with
  | cons c before =>
      obtain ⟨same, kept⟩ := expandedNodeId_of_space namespaceInfos whole (left c List.mem_cons_self)
      rw [kept]
      exact ⟨nodeId, same, .inl ⟨rfl, nofun⟩⟩
  | nil =>
      rw [List.nil_append, stripped] at whole
      rcases expandedNodeId_indexed namespaceInfos indexed whole right with ⟨same, kept⟩ | ⟨uri, expanded, after', found, matched, same, chars, blank⟩
      · exact ⟨nodeId, same, .inl ⟨rfl, kept⟩⟩
      · exact ⟨expanded, same, .inr ⟨uri, found, matched, strip_expandedText chars blank indexed.last⟩⟩

theorem expandedNodeId_expanded (namespaceInfos : List OpcUaNamespaceInfo)
    (expanded : NodeIds.isExpanded (interpreter.strip nodeId) = true) :
    interpreter.expandedNodeId namespaceInfos nodeId = .ok nodeId := by
  obtain ⟨before, after, whole, left, -⟩ := @exists_strip interpreter nodeId
  cases before with
  | cons c before => exact (expandedNodeId_of_space namespaceInfos whole (left c List.mem_cons_self)).1
  | nil =>
      have starts : NodeIds.isExpanded nodeId = true := by
        rw [NodeIds.isExpanded, List.isPrefixOf_iff_prefix] at expanded ⊢
        rw [whole, List.nil_append]
        exact expanded.trans (List.prefix_append _ _)
      exact if_pos starts

/-! ## The number of an index -/

theorem foldl_digits_lt {values : List Nat} (small : ∀ d ∈ values, d < 10) (start : Nat) :
    values.foldl (fun n d => 10 * n + d) start < (start + 1) * 10 ^ values.length := by
  induction values generalizing start with
  | nil => simp
  | cons d values ih =>
      have first := small d List.mem_cons_self
      have rest := ih (fun e m => small e (List.mem_cons_of_mem d m)) (10 * start + d)
      have wider : (10 * start + d + 1) * 10 ^ values.length ≤ (10 * start + 10) * 10 ^ values.length :=
        Nat.mul_le_mul_right _ (by omega)
      rw [List.foldl_cons, List.length_cons, Nat.pow_succ]
      calc _ < (10 * start + d + 1) * 10 ^ values.length := rest
        _ ≤ (10 * start + 10) * 10 ^ values.length := wider
        _ = (start + 1) * (10 ^ values.length * 10) := by
          rw [Nat.mul_comm (10 ^ values.length) 10, ← Nat.mul_assoc, Nat.add_mul start 1 10, Nat.mul_comm start 10]

theorem values_of_mapM {digits : List Char} {values : List Nat} {f : Char → Option Nat}
    (read : digits.mapM f = some values) : values.length = digits.length ∧ ∀ d ∈ values, ∃ c, f c = some d := by
  induction digits generalizing values with
  | nil =>
      cases read
      exact ⟨rfl, fun _ => nofun⟩
  | cons c digits ih =>
      rw [List.mapM_cons] at read
      obtain ⟨d, first, read⟩ := Option.bind_eq_some_iff.mp read
      obtain ⟨rest, later, same⟩ := Option.bind_eq_some_iff.mp read
      cases same
      obtain ⟨length, each⟩ := ih later
      exact ⟨congrArg Nat.succ length, List.forall_mem_cons.mpr ⟨⟨c, first⟩, each⟩⟩

/-- The number of an index is printed with no more digits than it was written with. -/
theorem withinLimit_of_namespaceNumber {digits : Option (List Char)} {index : Nat}
    (number : interpreter.namespaceNumber digits = some index) :
    interpreter.withinLimit (toString index).toList = true := by
  cases digits with
  | none =>
      cases number
      exact withinLimit_small (by decide)
  | some digits =>
      obtain ⟨within, denotes⟩ := Option.ite_none_right_eq_some.mp number
      obtain ⟨filled, denotes⟩ := Option.ite_none_left_eq_some.mp denotes
      obtain ⟨values, read, rfl⟩ := Option.map_eq_some_iff.mp denotes
      obtain ⟨length, each⟩ := values_of_mapM read
      have small : ∀ d ∈ values, d < 10 := fun d m => (each d m).elim fun c value => interpreter.decimal_lt c d value
      have bound := foldl_digits_lt small 0
      rw [Nat.zero_add, Nat.one_mul, length] at bound
      have short : (toString (values.foldl (fun n d => 10 * n + d) 0)).toList.length ≤ digits.length := by
        rw [Nat.toString_eq_repr, String.length_toList, Nat.length_repr_le_iff (List.length_pos_iff.mpr filled)]
        exact bound
      rw [Interpreter.withinLimit, Bool.or_eq_true, decide_eq_true_eq, decide_eq_true_eq] at within ⊢
      exact within.imp_right fun limit => short.trans limit

/-! ## Both properties -/

section
variable {namespaceInfos : List OpcUaNamespaceInfo}

/-- A node id is as canonical as its expanded form. -/
def Stable (interpreter : StandardInterpreter) (namespaceInfos : List OpcUaNamespaceInfo) (nodeId canonicalId : String) : Prop :=
  interpreter.canonicalNodeId (NodeIds.namespaceUriByIndex namespaceInfos) canonicalId = .ok (some canonicalId) ∧
    ∃ expanded, interpreter.expandedNodeId namespaceInfos nodeId = .ok expanded ∧
      interpreter.canonicalNodeId (NodeIds.namespaceUriByIndex namespaceInfos) expanded = .ok (some canonicalId)

theorem stable_of_expanded (expanded : NodeIds.isExpanded (interpreter.strip nodeId) = true)
    (canonical : interpreter.canonicalNodeId (NodeIds.namespaceUriByIndex namespaceInfos) nodeId = .ok (some canonicalId)) :
    Stable interpreter namespaceInfos nodeId canonicalId := by
  refine ⟨?_, nodeId, expandedNodeId_expanded namespaceInfos expanded, canonical⟩
  obtain ⟨rest, spelling⟩ := List.isPrefixOf_iff_prefix.mp expanded
  have separated : ';' ∈ rest := by
    by_contra unseparated
    have none_left : rest.dropWhile (· ≠ ';') = [] :=
      List.dropWhile_eq_nil_iff.mpr fun c m => decide_eq_true fun eq => unseparated (eq ▸ m)
    have chars : (interpreter.strip nodeId).toList.drop 4 = rest := by rw [← spelling]; rfl
    dsimp only [Interpreter.canonicalNodeId] at canonical
    rw [if_pos expanded, chars, none_left] at canonical
    cases canonical
  obtain ⟨uri, identifier, rfl, plain⟩ := List.eq_append_cons_of_mem separated
  obtain ⟨some_uri, kind, text, n, found, normal, same⟩ := (canonicalNodeId_expanded plain spelling.symm).mp canonical
  have last : ∀ c ∈ identifier.getLast?, interpreter.isSpace c = false := by
    have ends : ∀ c ∈ (interpreter.strip nodeId).toList.getLast?, interpreter.isSpace c = false := by
      rw [toList_strip]
      exact (trimmed_trim _).last
    rw [← spelling] at ends
    refine getLast?_of_append ("nsu=".toList ++ (uri ++ [';'])) ?_
    simpa using ends
  obtain ⟨known, line, rfl⟩ := identifierLine_eq_some found last
  obtain ⟨line', last'⟩ := normalize_line normal line (getLast?_of_append [kind, '='] last)
  have stripped : (interpreter.strip canonicalId).toList = expandedText uri (kind :: '=' :: n.toList) :=
    strip_expandedText (same.trans (List.append_nil _).symm) (fun _ => nofun) last'
  exact canonicalNodeId_normal some_uri plain known (normalize_again normal) line' stripped same

theorem uriAt_ne_nil {index : Nat} {uri : String} (found : uriAt namespaceInfos index = some uri) : uri.toList ≠ [] := by
  unfold uriAt NodeIds.namespaceUriByIndex at found
  split at found
  · cases found
    decide
  · obtain ⟨info, -, found⟩ := Option.bind_eq_some_iff.mp found
    obtain ⟨filled, same⟩ := Option.ite_none_left_eq_some.mp found
    cases same
    exact fun empty => filled (String.toList_eq_nil_iff.mp empty)

/-- Only a uri of the table can have a semicolon. -/
theorem uriAt_semicolon_iff {index : Nat} {uri : String} : (uriAt namespaceInfos index = some uri ∧ ';' ∈ uri.toList) ↔
    index ≠ 0 ∧ NodeIds.namespaceUriByIndex namespaceInfos index = some uri ∧ ';' ∈ uri.toList := by
  unfold uriAt
  by_cases standard : index = 0
  · rw [if_pos standard]
    constructor
    · rintro ⟨same, m⟩
      cases same
      exact absurd m (by decide)
    · exact fun given => absurd standard given.1
  · rw [if_neg standard]
    exact ⟨fun given => ⟨standard, given⟩, fun given => given.2⟩

theorem keepsUri_iff {index : Nat} (parts : interpreter.indexedParts nodeId = some (index, kind, text)) :
    interpreter.KeepsUri namespaceInfos nodeId ↔ ∀ uri, uriAt namespaceInfos index = some uri → ';' ∈ uri.toList →
      Absorbed uri.toList ∧ (interpreter.expands nodeId = true → Printed kind text) := by
  constructor
  · intro keeps uri found m
    obtain ⟨other, found, m⟩ := uriAt_semicolon_iff.mp ⟨found, m⟩
    exact keeps index kind text uri parts other found m
  · intro keeps index' kind' text' uri parts' other found m
    cases parts.symm.trans parts'
    obtain ⟨found, m⟩ := uriAt_semicolon_iff.mpr ⟨other, found, m⟩
    exact keeps uri found m

theorem stable_iff_of_indexed (indexed : NodeIds.isExpanded (interpreter.strip nodeId) = false)
    (canonical : interpreter.canonicalNodeId (NodeIds.namespaceUriByIndex namespaceInfos) nodeId = .ok (some canonicalId)) :
    Stable interpreter namespaceInfos nodeId canonicalId ↔ interpreter.KeepsUri namespaceInfos nodeId := by
  obtain ⟨index, kind, text, n, parts, normal, spelling⟩ := (canonicalNodeId_indexed indexed).mp canonical
  obtain ⟨front, stripped, known, line, last, reads, unexpanded⟩ := indexedParts_eq_some parts
  obtain ⟨line', last'⟩ := normalize_line normal line last
  obtain ⟨expanded, expands, given⟩ :=
    exists_expandedNodeId namespaceInfos ⟨known, line, last, reads, unexpanded⟩ stripped
  have again := normalize_again normal
  change canonicalId.toList = (match uriAt namespaceInfos index with
    | some uri => expandedText uri.toList (kind :: '=' :: n.toList)
    | none => indexedText index (kind :: '=' :: n.toList)) at spelling
  rw [keepsUri_iff parts]
  cases found : uriAt namespaceInfos index with
  | none =>
      rw [found] at spelling
      have within : interpreter.withinLimit (toString index).toList = true := by
        obtain ⟨digits, -, number⟩ := reads []
        exact withinLimit_of_namespaceNumber number
      have unnamed : spelled (NodeIds.namespaceUriByIndex namespaceInfos) index (kind :: '=' :: n.toList) =
          indexedText index (kind :: '=' :: n.toList) := by
        change (match uriAt namespaceInfos index with
          | some uri => expandedText uri.toList (kind :: '=' :: n.toList)
          | none => indexedText index (kind :: '=' :: n.toList)) = _
        rw [found]
      refine iff_of_true ⟨canonicalNodeId_unnamed within unnamed known again line' last' spelling, expanded, expands, ?_⟩
        fun uri impossible => nomatch impossible
      rcases given with ⟨rfl, -⟩ | ⟨uri, impossible, -⟩
      · exact canonical
      · cases found.symm.trans impossible
  | some uri =>
      rw [found] at spelling
      have self : (interpreter.strip canonicalId).toList = expandedText uri.toList (kind :: '=' :: n.toList) :=
        strip_expandedText (spelling.trans (List.append_nil _).symm) (fun _ => nofun) last'
      by_cases m : ';' ∈ uri.toList
      · have first := @canonicalNodeId_absorbed interpreter _ _ _ (NodeIds.namespaceUriByIndex namespaceInfos) _ _ _ m
          known line' last' self spelling
        have second : (∃ expanded, interpreter.expandedNodeId namespaceInfos nodeId = .ok expanded ∧
            interpreter.canonicalNodeId (NodeIds.namespaceUriByIndex namespaceInfos) expanded = .ok (some canonicalId)) ↔
              (interpreter.expands nodeId = true → Absorbed uri.toList ∧ Printed kind text) := by
          rcases given with ⟨rfl, kept⟩ | ⟨uri', same, matched, spelled'⟩
          · exact iff_of_true ⟨expanded, expands, canonical⟩ fun matched => nomatch found.symm.trans (kept matched)
          · cases found.symm.trans same
            rw [← normalize_self_iff normal, ← canonicalNodeId_absorbed m known line last spelled' spelling]
            constructor
            · rintro ⟨other, expands', stable⟩ -
              cases expands.symm.trans expands'
              exact stable
            · exact fun stable => ⟨expanded, expands, stable matched⟩
        rw [Stable, first, second]
        constructor
        · rintro ⟨⟨absorbed, -⟩, printed⟩ _ same -
          cases same
          exact ⟨absorbed, fun matched => (printed matched).2⟩
        · intro keeps
          obtain ⟨absorbed, printed⟩ := keeps uri rfl m
          exact ⟨⟨absorbed, rfl⟩, fun matched => ⟨absorbed, printed matched⟩⟩
      · have some_uri := uriAt_ne_nil found
        refine iff_of_true ⟨canonicalNodeId_normal some_uri m known again line' self spelling, expanded, expands, ?_⟩ ?_
        · rcases given with ⟨rfl, -⟩ | ⟨uri', same, -, spelled'⟩
          · exact canonical
          · cases found.symm.trans same
            exact canonicalNodeId_normal some_uri m known normal line spelled' spelling
        · intro uri' same inside
          cases same
          exact absurd inside m

end

end

/-- A canonical node id is canonical, and the expanded form has it too, exactly if no uri
with a semicolon comes in, but for one that is put together again. -/
theorem canonicalNodeId_stable_iff (namespaceInfos : List OpcUaNamespaceInfo) {nodeId canonicalId : String}
    (canonical : interpreter.canonicalNodeId (NodeIds.namespaceUriByIndex namespaceInfos) nodeId = .ok (some canonicalId)) :
    (interpreter.canonicalNodeId (NodeIds.namespaceUriByIndex namespaceInfos) canonicalId = .ok (some canonicalId) ∧
      ∃ expanded, interpreter.expandedNodeId namespaceInfos nodeId = .ok expanded ∧
        interpreter.canonicalNodeId (NodeIds.namespaceUriByIndex namespaceInfos) expanded = .ok (some canonicalId)) ↔
      interpreter.KeepsUri namespaceInfos nodeId := by
  cases indexed : NodeIds.isExpanded (interpreter.strip nodeId) with
  | false => exact stable_iff_of_indexed indexed canonical
  | true =>
      refine iff_of_true (stable_of_expanded indexed canonical) fun index kind text uri parts => ?_
      dsimp only [indexedParts] at parts
      rw [indexed] at parts
      cases parts

/-- The uri is cut at its semicolon, and the canonical node id is none. -/
theorem canonicalNodeId_not_stable : ¬ ∀ (namespaceInfos : List OpcUaNamespaceInfo) (nodeId canonicalId : String),
    ascii.canonicalNodeId (NodeIds.namespaceUriByIndex namespaceInfos) nodeId = .ok (some canonicalId) →
      ascii.canonicalNodeId (NodeIds.namespaceUriByIndex namespaceInfos) canonicalId = .ok (some canonicalId) ∧
        ∃ expanded, ascii.expandedNodeId namespaceInfos nodeId = .ok expanded ∧
          ascii.canonicalNodeId (NodeIds.namespaceUriByIndex namespaceInfos) expanded = .ok (some canonicalId) := by
  intro all
  have cut := (all [⟨"http://opcfoundation.org/UA/"⟩, ⟨"urn:a;b"⟩] "ns=1;s=x" "nsu=urn:a;b;s=x" rfl).1
  have none_ : ascii.canonicalNodeId (NodeIds.namespaceUriByIndex [⟨"http://opcfoundation.org/UA/"⟩, ⟨"urn:a;b"⟩])
      "nsu=urn:a;b;s=x" = .ok none := rfl
  cases none_.symm.trans cut

theorem canonicalNodeId_stable_of_number :
    (ascii.canonicalNodeId (NodeIds.namespaceUriByIndex [⟨"http://opcfoundation.org/UA/"⟩, ⟨"urn:a"⟩]) "nsu=urn:a;i=7" =
        .ok (some "nsu=urn:a;i=7") ∧
      ∃ expanded, ascii.expandedNodeId [⟨"http://opcfoundation.org/UA/"⟩, ⟨"urn:a"⟩] " ns=1;i=007 " = .ok expanded ∧
        ascii.canonicalNodeId (NodeIds.namespaceUriByIndex [⟨"http://opcfoundation.org/UA/"⟩, ⟨"urn:a"⟩]) expanded =
          .ok (some "nsu=urn:a;i=7")) ↔
      ascii.KeepsUri [⟨"http://opcfoundation.org/UA/"⟩, ⟨"urn:a"⟩] " ns=1;i=007 " :=
  canonicalNodeId_stable_iff ascii [⟨"http://opcfoundation.org/UA/"⟩, ⟨"urn:a"⟩] rfl

end StandardInterpreter
end I3x

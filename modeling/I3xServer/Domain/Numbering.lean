import I3xServer.Domain.NodeIds
import Mathlib.Data.String.Basic
import Mathlib.Logic.Equiv.Defs

/-!
# Namespace numberings

A server numbers its namespaces anew in every session. What node ids say about
their namespace does not depend on the numbers, as long as the namespace table is
renumbered with them.
-/
namespace I3x

/-- What the text operations do with separators, and the parsers with decimal
digits. A semicolon is neither white space nor cased, so it keeps what stands on
its two sides apart. -/
structure Unicode.Standard (unicode : Unicode) : Prop where
  lower_separator : ∀ s t, unicode.lower (s ++ ";" ++ t) = unicode.lower s ++ ";" ++ unicode.lower t
  strip_separator : ∃ stripLeft stripRight : String → String,
    ∀ s t, unicode.strip (s ++ ";" ++ t) = stripLeft s ++ ";" ++ stripRight t
  decimal_digit : ∀ c : Char, c.isDigit = true → unicode.decimal c = some (c.toNat - '0'.toNat)
  decimal_separator : unicode.decimal ';' = none
  int_index : ∀ k : Nat, unicode.int (toString k) = some (k : Int)

namespace NodeIds

def indexedId (k : Nat) (text : String) : String := "ns=" ++ toString k ++ ";" ++ text

/-- One node id under two numberings of the namespaces. -/
inductive SameId (numbering : Equiv.Perm Nat) : String → String → Prop
  | plain (text : String) : ¬ "ns=".toList <+: text.toList → SameId numbering text text
  | indexed (k : Nat) (text : String) : SameId numbering (indexedId k text) (indexedId (numbering k) text)

theorem indexedId_toList (k : Nat) (text : String) :
    (indexedId k text).toList = 'n' :: 's' :: '=' :: (Nat.toDigits 10 k ++ ';' :: text.toList) := by
  simp [indexedId]

theorem separator_not_digit (k : Nat) : ';' ∉ Nat.toDigits 10 k := fun m =>
  absurd (Nat.isDigit_of_mem_toDigits (by decide) (by decide) m) (by decide)

theorem digits_span (k : Nat) (cs : List Char) :
    (Nat.toDigits 10 k ++ ';' :: cs).takeWhile (· ≠ ';') = Nat.toDigits 10 k ∧
      (Nat.toDigits 10 k ++ ';' :: cs).dropWhile (· ≠ ';') = ';' :: cs := by
  have digits : ∀ c ∈ Nat.toDigits 10 k, decide (c ≠ ';') = true := fun c m =>
    decide_eq_true fun eq => separator_not_digit k (eq ▸ m)
  rw [List.takeWhile_append_of_pos digits, List.dropWhile_append_of_pos digits]
  simp

theorem indexedId_inj {k k' : Nat} {text text' : String} (same : indexedId k text = indexedId k' text') :
    k = k' ∧ text = text' := by
  have chars := congrArg String.toList same
  simp only [indexedId_toList, List.cons.injEq, true_and] at chars
  have digits := congrArg (List.takeWhile (· ≠ ';')) chars
  have rest := congrArg (List.dropWhile (· ≠ ';')) chars
  rw [(digits_span k _).1, (digits_span k' _).1] at digits
  rw [(digits_span k _).2, (digits_span k' _).2, List.cons.injEq] at rest
  refine ⟨?_, String.toList_inj.mp rest.2⟩
  rw [← Nat.ofDigitChars_ten_toDigits (n := k), digits, Nat.ofDigitChars_ten_toDigits]

theorem indexedId_prefix (k : Nat) (text : String) : "ns=".toList <+: (indexedId k text).toList := by
  rw [indexedId_toList]
  exact ⟨_, rfl⟩

theorem append_le_append_left (start s t : String) : start ++ s ≤ start ++ t ↔ s ≤ t := by
  rw [← not_lt, ← not_lt, String.lt_iff_toList_lt, String.lt_iff_toList_lt, String.toList_append, String.toList_append]
  refine not_congr ?_
  induction start.toList with
  | nil => rfl
  | cons c cs ih => rw [List.cons_append, List.cons_append, List.cons_lt_cons_iff]; simp [ih]

/-- Ids of one namespace are ordered as their identifiers. -/
theorem indexedId_le (k : Nat) {text text' : String} : indexedId k text ≤ indexedId k text' ↔ text ≤ text' :=
  append_le_append_left _ _ _

theorem SameId.symm {numbering : Equiv.Perm Nat} {id id' : String} (h : SameId numbering id id') :
    SameId numbering.symm id' id := by
  cases h with
  | plain _ unindexed => exact .plain _ unindexed
  | indexed k text =>
      have back : SameId numbering.symm (indexedId (numbering k) text)
        (indexedId (numbering.symm (numbering k)) text) := .indexed (numbering k) text
      rwa [numbering.symm_apply_apply] at back

theorem SameId.unique {numbering : Equiv.Perm Nat} {id id' other other' : String} (h : SameId numbering id id')
    (h' : SameId numbering other other') (same : id = other) : id' = other' := by
  cases h with
  | plain _ unindexed =>
      cases h' with
      | plain _ unindexed' => exact same
      | indexed k text' => exact absurd (same ▸ indexedId_prefix k text') unindexed
  | indexed k text =>
      cases h' with
      | plain _ unindexed' => exact absurd (same ▸ indexedId_prefix k text) unindexed'
      | indexed k' text' =>
          obtain ⟨rfl, rfl⟩ := indexedId_inj same
          rfl

theorem SameId.iff {numbering : Equiv.Perm Nat} {id id' other other' : String} (h : SameId numbering id id')
    (h' : SameId numbering other other') : id = other ↔ id' = other' := ⟨h.unique h', h.symm.unique h'.symm⟩

/-! ## Reading an index -/

theorem digitsValue_toDigits {decimal : Char → Option Nat}
    (digit : ∀ c : Char, c.isDigit = true → decimal c = some (c.toNat - '0'.toNat)) (k : Nat) :
    Unicode.digitsValue decimal (Nat.toDigits 10 k) = some k := by
  have values : ∀ cs : List Char, (∀ c ∈ cs, c.isDigit = true) →
      cs.mapM decimal = some (cs.map fun c => c.toNat - '0'.toNat) := by
    intro cs digits
    induction cs with
    | nil => rfl
    | cons c cs ih =>
        rw [List.mapM_cons, digit c (digits c List.mem_cons_self), ih fun d m => digits d (List.mem_cons_of_mem _ m)]
        rfl
  have digits : ∀ c ∈ Nat.toDigits 10 k, c.isDigit = true := fun _ => Nat.isDigit_of_mem_toDigits (by decide) (by decide)
  rw [Unicode.digitsValue, if_neg Nat.toDigits_ne_nil, values _ digits, Option.map_some, List.foldl_map]
  exact congrArg some Nat.ofDigitChars_ten_toDigits

theorem ascii_standard : Unicode.ascii.Standard where
  lower_separator s t := by
    have separator : ';'.toLower = ';' := rfl
    rw [← String.toList_inj]
    simp [Unicode.ascii, Text.ascii, separator]
  strip_separator := by
    refine ⟨fun s => String.ofList (s.toList.dropWhile Text.asciiSpace),
      fun t => String.ofList (t.toList.reverse.dropWhile Text.asciiSpace).reverse, fun s t => ?_⟩
    have keep (xs ys : List Char) : (xs ++ ';' :: ys).dropWhile Text.asciiSpace =
        xs.dropWhile Text.asciiSpace ++ ';' :: ys := by
      rw [List.dropWhile_append]
      split
      · rename_i blank
        rw [List.isEmpty_iff.mp blank]
        rfl
      · rfl
    rw [← String.toList_inj]
    simp [Unicode.ascii, Text.ascii, keep]
  decimal_digit c digit := if_pos digit
  decimal_separator := rfl
  int_index k := by
    have value : Unicode.digitsValue Unicode.asciiDecimal (Nat.toDigits 10 k) = some k :=
      digitsValue_toDigits (fun c digit => if_pos digit) k
    change (Unicode.digitsValue Unicode.asciiDecimal (toString k).toList).map Int.ofNat = _
    rw [Nat.toString_eq_repr, Nat.toList_repr, value]
    rfl

section
variable {unicode : Unicode} (standard : unicode.Standard)
include standard

theorem namespaceIndex_indexed (k : Nat) (text : String) :
    namespaceIndex unicode (indexedId k text).toList = (some (Nat.toDigits 10 k), text.toList) := by
  have digits : ∀ c ∈ Nat.toDigits 10 k, (unicode.decimal c).isSome = true := fun c m => by
    rw [standard.decimal_digit c (Nat.isDigit_of_mem_toDigits (by decide) (by decide) m)]
    rfl
  have separator : (unicode.decimal ';').isSome = false := by rw [standard.decimal_separator]; rfl
  rw [indexedId_toList, namespaceIndex]
  rw [List.dropWhile_append_of_pos digits, List.takeWhile_append_of_pos digits, List.dropWhile_cons_of_neg (by simp [separator]),
    List.takeWhile_cons_of_neg (by simp [separator]), List.append_nil]
  exact if_neg Nat.toDigits_ne_nil

end

theorem namespaceIndex_plain (unicode : Unicode) {cs : List Char} (plain : ¬ "ns=".toList <+: cs) :
    namespaceIndex unicode cs = (none, cs) := by
  unfold namespaceIndex
  split
  · exact absurd ⟨_, rfl⟩ plain
  · rfl

/-! ## The namespace of an id -/

/-- The part of an expanded id behind the namespace. -/
def writtenIdentifier (cs : List Char) : Option String :=
  (identifier cs).bind fun found =>
    match line found.2 with
    | none | some [] => none
    | some body => some (String.ofList (found.1 :: '=' :: body))

def indexedNamespace (infos : List OpcUaNamespaceInfo) (k : Nat) : Option String :=
  if k = 0 then some standardNamespace else namespaceUriByIndex infos k

theorem not_isExpanded_indexedId (k : Nat) (text : String) : isExpanded (indexedId k text) = false := by
  rw [isExpanded, indexedId_toList]
  rfl

section
variable {unicode : Unicode} (standard : unicode.Standard)
include standard

theorem expandedNodeId_indexed (infos : List OpcUaNamespaceInfo) (k : Nat) (text : String) :
    expandedNodeId unicode infos (indexedId k text) =
      match writtenIdentifier text.toList, indexedNamespace infos k with
      | some written, some uri => "nsu=" ++ uri ++ ";" ++ written
      | _, _ => indexedId k text := by
  simp only [expandedNodeId, not_isExpanded_indexedId, Bool.false_eq_true, if_false, namespaceIndex_indexed standard,
    Option.bind_some, digitsValue_toDigits standard.decimal_digit, Option.getD_some, writtenIdentifier]
  cases identifier text.toList with
  | none => rfl
  | some found =>
      obtain ⟨kind, rest⟩ := found
      dsimp only [Option.bind_some]
      cases line rest with
      | none => rfl
      | some body =>
          cases body with
          | nil => rfl
          | cons c cs =>
              cases k with
              | zero => rfl
              | succ k =>
                  simp only [indexedNamespace, Nat.succ_ne_zero, if_false, namespaceUriByIndex]
                  cases infos[k + 1]? with
                  | none => rfl
                  | some info =>
                      dsimp only [Option.bind_some]
                      by_cases empty : info.uri = ""
                      · rw [if_pos empty, if_pos empty]
                      · rw [if_neg empty, if_neg empty]

variable {numbering : Equiv.Perm Nat} {infos infos' : List OpcUaNamespaceInfo}
  (zero : numbering 0 = 0) (permuted : ∀ k, infos'[numbering k]? = infos[k]?)
include zero permuted

omit standard in
theorem indexedNamespace_renumbered (k : Nat) : indexedNamespace infos' (numbering k) = indexedNamespace infos k := by
  have same : numbering k = 0 ↔ k = 0 := by rw [← zero, numbering.apply_eq_iff_eq, zero]
  simp only [indexedNamespace, same, namespaceUriByIndex, permuted]

/-- An id that the namespace table expands is expanded to the same text under both
numberings. -/
theorem expandedNodeId_sameId {id id' : String} (h : SameId numbering id id')
    (resolved : isExpanded (expandedNodeId unicode infos id) = true) :
    expandedNodeId unicode infos' id' = expandedNodeId unicode infos id := by
  cases h with
  | plain _ unindexed =>
      simp only [expandedNodeId, namespaceIndex_plain unicode unindexed, Option.bind_none, Option.getD_none]
  | indexed k text =>
      rw [expandedNodeId_indexed standard] at resolved ⊢
      rw [expandedNodeId_indexed standard, indexedNamespace_renumbered zero permuted]
      cases written : writtenIdentifier text.toList with
      | none =>
          rw [written] at resolved
          exact absurd resolved (by simp [not_isExpanded_indexedId])
      | some body =>
          cases uri : indexedNamespace infos k with
          | none =>
              rw [written, uri] at resolved
              exact absurd resolved (by simp [not_isExpanded_indexedId])
          | some uri => rfl

theorem isExpanded_sameId {id id' : String} (h : SameId numbering id id') :
    isExpanded (expandedNodeId unicode infos' id') = isExpanded (expandedNodeId unicode infos id) := by
  have back : ∀ k, infos[numbering.symm k]? = infos'[k]? := fun k => by
    rw [← permuted, numbering.apply_symm_apply]
  have zero' : numbering.symm 0 = 0 := by rw [Equiv.symm_apply_eq, zero]
  cases first : isExpanded (expandedNodeId unicode infos id) with
  | true =>
      rw [expandedNodeId_sameId standard zero permuted h first]
      exact first
  | false =>
      by_contra second
      rw [Bool.not_eq_false] at second
      rw [expandedNodeId_sameId standard zero' back h.symm second, second] at first
      cases first

omit standard zero permuted in
theorem namespaceUriFromExpandedNodeId_none {id : String} (unexpanded : isExpanded id = false) :
    namespaceUriFromExpandedNodeId id = none := by
  unfold namespaceUriFromExpandedNodeId
  split
  · rename_i rest chars
    rw [isExpanded, chars] at unexpanded
    cases unexpanded
  · rfl

/-- The namespace of an id is the same under both numberings. -/
theorem namespaceUri_sameId {id id' : String} (h : SameId numbering id id') :
    namespaceUriFromExpandedNodeId (expandedNodeId unicode infos' id') =
      namespaceUriFromExpandedNodeId (expandedNodeId unicode infos id) := by
  cases expanded : isExpanded (expandedNodeId unicode infos id) with
  | true => rw [expandedNodeId_sameId standard zero permuted h expanded]
  | false =>
      have expanded' := isExpanded_sameId standard zero permuted h
      rw [expanded] at expanded'
      rw [namespaceUriFromExpandedNodeId_none expanded, namespaceUriFromExpandedNodeId_none expanded']

omit standard zero in
theorem namespaceUriByIndex_renumbered (k : Nat) :
    namespaceUriByIndex infos' (numbering k) = namespaceUriByIndex infos k := by
  rw [namespaceUriByIndex, namespaceUriByIndex, permuted]

omit zero permuted in
theorem resolveNamespaceUri_indexed (infos : List OpcUaNamespaceInfo) (k : Nat) (text : String) :
    resolveNamespaceUri unicode infos (indexedId k text) = namespaceUriByIndex infos k := by
  have start : (indexedId k text).toList.takeWhile (· ≠ ';') = 'n' :: 's' :: '=' :: Nat.toDigits 10 k := by
    rw [indexedId_toList, List.takeWhile_cons_of_pos (by decide), List.takeWhile_cons_of_pos (by decide),
      List.takeWhile_cons_of_pos (by decide), (digits_span k _).1]
  have index : unicode.int (String.ofList (Nat.toDigits 10 k)) = some (Int.ofNat k) := standard.int_index k
  simp only [resolveNamespaceUri, start, index]

theorem resolveNamespaceUri_sameId {id id' : String} (h : SameId numbering id id') :
    resolveNamespaceUri unicode infos' id' = resolveNamespaceUri unicode infos id := by
  cases h with
  | plain _ unindexed =>
      have base := namespaceUriByIndex_renumbered permuted 0
      rw [zero] at base
      unfold resolveNamespaceUri
      split
      · rename_i digits start
        have indexed : "ns=".toList <+: id.toList.takeWhile (· ≠ ';') := by
          rw [start]
          exact ⟨digits, rfl⟩
        exact absurd (indexed.trans (List.takeWhile_prefix _)) unindexed
      · rw [base]
  | indexed k text =>
      rw [resolveNamespaceUri_indexed standard, resolveNamespaceUri_indexed standard,
        namespaceUriByIndex_renumbered permuted]

end

end NodeIds
end I3x

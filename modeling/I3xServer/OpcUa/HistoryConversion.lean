import I3xServer.Container.Parallel
import I3xServer.OpcUa.HistoryValues
import Mathlib.Data.List.Forall2

/-!
# What history updates accept

A value is accepted exactly if its leaves conform to the variant type and its lists are
rectangular and fit the declared rank and dimensions. Refusals are `ValueError`s, as long
as UTC can show the dates and times of the request.
-/
namespace I3x.OpcUa
open Container I3x.Api

/-! ## Nested values -/

def IsList (value : PyValue) : Prop := ∃ items, value = .list items

/-- Induction over the nesting of lists. -/
theorem listInduction {P : PyValue → Prop} (leaf : ∀ value, ¬ IsList value → P value)
    (list : ∀ items, (∀ item ∈ items, P item) → P (.list items)) : ∀ value, P value
  | .list items => list items fun item _ => listInduction leaf list item
  | .none | .bool _ | .int _ | .float _ | .str _ | .bytes _ | .datetime _ | .mapping _ => leaf _ nofun

mutual

/-- The values inside that are no lists, from left to right. -/
def leavesOf : PyValue → List PyValue
  | .list items => itemLeaves items
  | value => [value]

def itemLeaves : List PyValue → List PyValue
  | [] => []
  | item :: items => leavesOf item ++ itemLeaves items

end

/-- A rectangular value with the lengths of its dimensions. -/
inductive HasShape : PyValue → List Nat → Prop
  | leaf {value} (leaf : ¬ IsList value) : HasShape value []
  | empty : HasShape (.list []) [0]
  | list {item items shape} (first : HasShape item shape) (others : ∀ other ∈ items, HasShape other shape) :
      HasShape (.list (item :: items)) ((items.length + 1) :: shape)

/-- How lists are nested, without what they contain. -/
inductive Nesting where
  | leaf
  | list (items : List Nesting)

mutual

def nestingOf : PyValue → Nesting
  | .list items => .list (itemNestings items)
  | _ => .leaf

def itemNestings : List PyValue → List Nesting
  | [] => []
  | item :: items => nestingOf item :: itemNestings items

end

mutual

def VariantValue.nesting : VariantValue → Nesting
  | .array items => .list (variantNestings items)
  | _ => .leaf

def variantNestings : List VariantValue → List Nesting
  | [] => []
  | item :: items => item.nesting :: variantNestings items

end

theorem mem_leavesOf_leaf {value leaf : PyValue} (single : ¬ IsList value) : leaf ∈ leavesOf value ↔ leaf = value := by
  cases value with
  | list items => exact absurd ⟨items, rfl⟩ single
  | _ => simp only [leavesOf, List.mem_singleton]

theorem mem_leavesOf_list {items : List PyValue} {leaf : PyValue} :
    leaf ∈ leavesOf (.list items) ↔ ∃ item ∈ items, leaf ∈ leavesOf item := by
  rw [leavesOf]
  induction items with
  | nil => simp [itemLeaves]
  | cons item items ih => simp [itemLeaves, ih]

theorem nestingOf_leaf {value : PyValue} (single : ¬ IsList value) : nestingOf value = .leaf := by
  cases value with
  | list items => exact absurd ⟨items, rfl⟩ single
  | _ => rfl

theorem nestingOf_list (items : List PyValue) : nestingOf (.list items) = .list (items.map nestingOf) := by
  rw [nestingOf]
  induction items with
  | nil => rfl
  | cons item items ih =>
      rw [itemNestings, List.map_cons, Nesting.list.inj ih]

theorem nesting_array (items : List VariantValue) :
    (VariantValue.array items).nesting = .list (items.map VariantValue.nesting) := by
  rw [VariantValue.nesting]
  induction items with
  | nil => rfl
  | cons item items ih =>
      rw [variantNestings, List.map_cons, Nesting.list.inj ih]

/-! ## Lists -/

section
variable {codec : ScalarCodec} {variantType : VariantType}

theorem convertValue_leaf {value : PyValue} (single : ¬ IsList value) :
    convertValue codec variantType value =
      (convertScalar codec value variantType).map fun converted => (converted, []) := by
  rw [convertValue]
  exact fun items same => single ⟨items, same⟩

theorem convertItems_ok {items : List PyValue} {pairs : List (VariantValue × List Nat)} :
    convertItems codec variantType items = .ok pairs ↔
      List.Forall₂ (fun item pair => convertValue codec variantType item = .ok pair) items pairs := by
  induction items generalizing pairs with
  | nil =>
      rw [convertItems, List.forall₂_nil_left_iff]
      exact ⟨fun same => (Except.ok.inj same).symm, fun same => same ▸ rfl⟩
  | cons item items ih =>
      rw [convertItems, List.forall₂_cons_left_iff]
      cases first : convertValue codec variantType item with
      | error raised => exact iff_of_false nofun fun ⟨_, _, same, _⟩ => nomatch same
      | ok converted =>
          cases rest : convertItems codec variantType items with
          | error raised =>
              refine iff_of_false nofun ?_
              rintro ⟨_, others, -, each, -⟩
              exact nomatch rest.symm.trans (ih.mpr each)
          | ok others =>
              constructor
              · intro same
                cases same
                exact ⟨converted, others, rfl, ih.mp rest, rfl⟩
              · rintro ⟨_, others', same, each, rfl⟩
                cases same
                cases rest.symm.trans (ih.mpr each)
                rfl

/-- The only errors of a list that are not those of its items. -/
theorem convertItems_raised {items : List PyValue} {raised : Raised}
    (failed : convertItems codec variantType items = .error raised) :
    ∃ item ∈ items, convertValue codec variantType item = .error raised := by
  induction items with
  | nil => cases failed
  | cons item items ih =>
      rw [convertItems] at failed
      cases first : convertValue codec variantType item with
      | error other =>
          rw [first] at failed
          cases failed
          exact ⟨item, List.mem_cons_self, first⟩
      | ok converted =>
          rw [first] at failed
          cases rest : convertItems codec variantType items with
          | error other =>
              rw [rest] at failed
              cases failed
              obtain ⟨other, m, inside⟩ := ih rest
              exact ⟨other, List.mem_cons_of_mem _ m, inside⟩
          | ok others =>
              rw [rest] at failed
              cases failed

theorem convertScalar_nesting {value : PyValue} {converted : VariantValue}
    (done : convertScalar codec value variantType = .ok converted) : converted.nesting = .leaf := by
  unfold convertScalar at done
  dsimp only at done
  repeat' split at done
  all_goals first
    | (cases done <;> rfl)
    | skip
  unfold astimezoneUtc at done
  dsimp only at done
  split at done
  · cases done
    rfl
  · cases done

theorem nestings_of_each {items : List PyValue} {pairs : List (VariantValue × List Nat)}
    (each : List.Forall₂ (fun item pair => convertValue codec variantType item = .ok pair) items pairs)
    (kept : ∀ item ∈ items, ∀ pair, convertValue codec variantType item = .ok pair → pair.1.nesting = nestingOf item) :
    pairs.map (fun pair => pair.1.nesting) = items.map nestingOf := by
  induction each with
  | nil => rfl
  | @cons item pair items pairs first rest ih =>
      rw [List.map_cons, List.map_cons, kept item List.mem_cons_self pair first,
        ih fun other m => kept other (List.mem_cons_of_mem _ m)]

/-- A converted value is rectangular, all its leaves were converted, and its lists are
nested as before. -/
theorem convertValue_ok {value : PyValue} {converted : VariantValue} {shape : List Nat}
    (done : convertValue codec variantType value = .ok (converted, shape)) :
    HasShape value shape ∧ (∀ leaf ∈ leavesOf value, ∃ scalar, convertScalar codec leaf variantType = .ok scalar) ∧
      converted.nesting = nestingOf value := by
  induction value using listInduction generalizing converted shape with
  | leaf value single =>
      rw [convertValue_leaf single] at done
      cases scalar : convertScalar codec value variantType with
      | error raised =>
          rw [scalar] at done
          cases done
      | ok other =>
          rw [scalar] at done
          cases done
          refine ⟨.leaf single, fun leaf m => ?_, ?_⟩
          · exact ⟨_, (mem_leavesOf_leaf single).mp m ▸ scalar⟩
          · rw [convertScalar_nesting scalar, nestingOf_leaf single]
  | list items ih =>
      rw [convertValue] at done
      cases run : convertItems codec variantType items with
      | error raised =>
          rw [run] at done
          cases done
      | ok pairs =>
          rw [run] at done
          dsimp only at done
          split at done
          · cases done
          · next rectangular =>
              cases done
              have each := convertItems_ok.mp run
              have same : ∀ pair ∈ pairs, pair.2 = ((pairs.map Prod.snd).head?).getD [] := by simpa using rectangular
              refine ⟨?_, ?_, ?_⟩
              · cases each with
                | nil => exact .empty
                | @cons item pair items pairs first rest =>
                    change HasShape (.list (item :: items)) ((items.length + 1) :: pair.2)
                    refine .list (ih item List.mem_cons_self first).1 fun other m => ?_
                    obtain ⟨pair', n, converted⟩ := forall₂_mem_left rest m
                    have shape := same pair' (List.mem_cons_of_mem _ n)
                    rw [List.map_cons, List.head?_cons, Option.getD_some] at shape
                    exact shape ▸ (ih other (List.mem_cons_of_mem _ m) converted).1
              · intro leaf m
                obtain ⟨item, n, inside⟩ := mem_leavesOf_list.mp m
                obtain ⟨pair, -, converted⟩ := forall₂_mem_left each n
                exact (ih item n converted).2.1 leaf inside
              · rw [nesting_array, nestingOf_list, List.map_map]
                exact congrArg Nesting.list (nestings_of_each each fun item m pair done => (ih item m done).2.2)

theorem convertValue_complete {value : PyValue} {shape : List Nat} (rectangular : HasShape value shape)
    (scalars : ∀ leaf ∈ leavesOf value, ∃ scalar, convertScalar codec leaf variantType = .ok scalar) :
    ∃ converted, convertValue codec variantType value = .ok (converted, shape) := by
  induction rectangular with
  | @leaf value single =>
      obtain ⟨scalar, done⟩ := scalars value ((mem_leavesOf_leaf single).mpr rfl)
      exact ⟨scalar, by rw [convertValue_leaf single, done]; rfl⟩
  | empty => exact ⟨.array [], by rw [convertValue, convertItems]; rfl⟩
  | @list item items shape first others ihFirst ihOthers =>
      have each : ∀ other ∈ item :: items, ∃ converted, convertValue codec variantType other = .ok (converted, shape) := by
        intro other m
        have inside : ∀ leaf ∈ leavesOf other, ∃ scalar, convertScalar codec leaf variantType = .ok scalar :=
          fun leaf n => scalars leaf (mem_leavesOf_list.mpr ⟨other, m, n⟩)
        rcases List.mem_cons.mp m with rfl | later
        · exact ihFirst inside
        · exact ihOthers other later inside
      obtain ⟨pairs, run, shapes⟩ : ∃ pairs, List.Forall₂ (fun other pair =>
          convertValue codec variantType other = .ok pair) (item :: items) pairs ∧ ∀ pair ∈ pairs, pair.2 = shape := by
        generalize item :: items = all at each
        induction all with
        | nil => exact ⟨[], .nil, nofun⟩
        | cons other all ih =>
            obtain ⟨converted, done⟩ := each other List.mem_cons_self
            obtain ⟨pairs, run, shapes⟩ := ih fun more m => each more (List.mem_cons_of_mem _ m)
            exact ⟨(converted, shape) :: pairs, .cons done run, List.forall_mem_cons.mpr ⟨rfl, shapes⟩⟩
      refine ⟨.array (pairs.map Prod.fst), ?_⟩
      rw [convertValue, convertItems_ok.mpr run]
      cases run with
      | @cons _ pair _ pairs done rest =>
          have child : (((pair :: pairs).map Prod.snd).head?).getD [] = shape := shapes pair List.mem_cons_self
          have same : ¬ ((pair :: pairs).any fun other => other.2 ≠ shape) = true := by
            simpa using List.forall_mem_cons.mp shapes
          dsimp only
          rw [child, if_neg same]
          rfl

theorem convertValue_raised {value : PyValue} {raised : Raised}
    (failed : convertValue codec variantType value = .error raised) :
    (∃ leaf ∈ leavesOf value, convertScalar codec leaf variantType = .error raised) ∨
      ∃ message, raised = .valueError message := by
  induction value using listInduction with
  | leaf value single =>
      rw [convertValue_leaf single] at failed
      cases scalar : convertScalar codec value variantType with
      | error other =>
          rw [scalar] at failed
          cases failed
          exact Or.inl ⟨value, (mem_leavesOf_leaf single).mpr rfl, scalar⟩
      | ok converted =>
          rw [scalar] at failed
          cases failed
  | list items ih =>
      rw [convertValue] at failed
      cases run : convertItems codec variantType items with
      | error other =>
          rw [run] at failed
          cases failed
          obtain ⟨item, m, inside⟩ := convertItems_raised run
          exact (ih item m inside).imp_left fun ⟨leaf, n, scalar⟩ => ⟨leaf, mem_leavesOf_list.mpr ⟨item, m, n⟩, scalar⟩
      | ok pairs =>
          rw [run] at failed
          dsimp only at failed
          split at failed
          · cases failed
            exact Or.inr ⟨_, rfl⟩
          · cases failed

end

/-! ## Leaves -/

/-- UTC shows an aware date and time in the years 1 to 9999. -/
def ShownInUtc (clock : Nat) (utcoffset : Int) : Prop := 0 ≤ clock - utcoffset ∧ clock - utcoffset < calendarEnd

theorem astimezoneUtc_ok {clock : Nat} {utcoffset : Int} (shown : ShownInUtc clock utcoffset) :
    astimezoneUtc clock utcoffset = .ok (clock - utcoffset).toNat := if_pos shown

theorem astimezoneUtc_raised {clock : Nat} {utcoffset : Int} (beyond : ¬ ShownInUtc clock utcoffset) :
    astimezoneUtc clock utcoffset = .error (.overflowError "date value out of range") := if_neg beyond

def InIntegerRange (bits : Nat) (isSigned : Bool) (i : Int) : Prop :=
  if isSigned then -(2 ^ (bits - 1)) ≤ i ∧ i < 2 ^ (bits - 1) else 0 ≤ i ∧ i < 2 ^ bits

section
variable (codec : ScalarCodec)

/-- A number, and the finite floating-point number it is read as. -/
def ReadsAs (leaf : PyValue) (number : String) : Prop :=
  ((∃ i, leaf = .int i) ∨ ∃ literal, leaf = .float literal) ∧ codec.toFloat leaf = some number ∧
    codec.isFinite number = true

/-- A text that is read as a date and time with this clock and offset. -/
def IsAware (leaf : PyValue) (clock : Nat) (utcoffset : Int) : Prop :=
  ∃ s parsed, leaf = .str s ∧ codec.fromisoformat (s.replace "Z" "+00:00") = .ok parsed ∧ parsed.clock = clock ∧
    parsed.utcoffset = some utcoffset

/-- A leaf is a value of the variant type. -/
def Conforms (variantType : VariantType) (leaf : PyValue) : Prop :=
  match variantType.integerBits with
  | some (bits, isSigned) => ∃ i, leaf = .int i ∧ InIntegerRange bits isSigned i
  | none =>
      match variantType with
      | .float => ∃ number, ReadsAs codec leaf number ∧ codec.fitsSingle number = true
      | .double => ∃ number, ReadsAs codec leaf number
      | .boolean => ∃ b, leaf = .bool b
      | .string => ∃ s, leaf = .str s
      | .dateTime => ∃ clock utcoffset, IsAware codec leaf clock utcoffset
      | .guid => ∃ s parsed, leaf = .str s ∧ codec.uuid s = .ok parsed
      | .byteString => ∃ s octets, leaf = .str s ∧ codec.b64decode s = some octets
      | _ => False

/-- UTC shows the dates and times among the leaves. -/
def DatesShown (variantType : VariantType) (leaf : PyValue) : Prop :=
  variantType = .dateTime → ∀ clock utcoffset, IsAware codec leaf clock utcoffset → ShownInUtc clock utcoffset

variable {codec} {variantType : VariantType} {leaf : PyValue}

theorem convertScalar_integer {bits : Nat} {isSigned : Bool} (width : variantType.integerBits = some (bits, isSigned)) :
    (∃ scalar, convertScalar codec leaf variantType = .ok scalar) ↔
      ∃ i, leaf = .int i ∧ InIntegerRange bits isSigned i := by
  unfold convertScalar
  rw [width]
  cases leaf with
  | int i =>
      have range : ((if isSigned then -(2 ^ (bits - 1)) else 0 : Int) ≤ i ∧
          i ≤ (if isSigned then 2 ^ (bits - 1) - 1 else 2 ^ bits - 1 : Int)) ↔ InIntegerRange bits isSigned i := by
        unfold InIntegerRange
        cases isSigned <;> simp only [if_true, Bool.false_eq_true, if_false] <;> omega
      by_cases inside : InIntegerRange bits isSigned i
      · exact iff_of_true ⟨.integer i, if_pos (range.mpr inside)⟩ ⟨i, rfl, inside⟩
      · refine iff_of_false ?_ ?_
        · rintro ⟨scalar, done⟩
          dsimp only at done
          rw [if_neg fun fits => inside (range.mp fits)] at done
          cases done
        · rintro ⟨_, same, fits⟩
          cases same
          exact inside fits
  | _ =>
      refine iff_of_false ?_ ?_
      · rintro ⟨_, done⟩
        cases done
      · rintro ⟨_, same, _⟩
        cases same

theorem convertScalar_number (variantType : VariantType) (bound : String → Bool) :
    (∃ scalar : VariantValue, (match codec.toFloat leaf with
      | none => .error (.valueError "Numeric value is out of range")
      | some number =>
          if codec.isFinite number && bound number then .ok (.double number)
          else .error (.valueError ("Value does not conform to OPC UA " ++ variantType.name)) : Except Raised VariantValue) =
        .ok scalar) ↔
      ∃ number, codec.toFloat leaf = some number ∧ codec.isFinite number = true ∧ bound number = true := by
  cases codec.toFloat leaf with
  | none => exact iff_of_false nofun nofun
  | some number =>
      simp only [Option.some.injEq, exists_eq_left']
      split
      · next fits => exact iff_of_true ⟨_, rfl⟩ ((Bool.and_eq_true _ _).mp fits)
      · next unfit => exact iff_of_false nofun fun both => unfit ((Bool.and_eq_true _ _).mpr both)

/-- A leaf is converted exactly if it conforms. -/
theorem convertScalar_iff (shown : DatesShown codec variantType leaf) :
    (∃ scalar, convertScalar codec leaf variantType = .ok scalar) ↔ Conforms codec variantType leaf := by
  cases width : variantType.integerBits with
  | some bits =>
      unfold Conforms
      rw [width]
      exact convertScalar_integer width
  | none =>
      have numbers (bound : String → Bool) : (∃ number, ReadsAs codec leaf number ∧ bound number = true) →
          (∃ i, leaf = .int i) ∨ ∃ literal, leaf = .float literal := by
        rintro ⟨_, reads, _⟩
        exact reads.1
      cases variantType with
      | float =>
          cases leaf with
          | int i | float literal =>
              refine (convertScalar_number .float codec.fitsSingle).trans ?_
              simp [Conforms, VariantType.integerBits, ReadsAs, and_assoc]
          | _ =>
              refine iff_of_false (by rintro ⟨_, done⟩; cases done) fun conforms => ?_
              simpa using numbers codec.fitsSingle conforms
      | double =>
          cases leaf with
          | int i | float literal =>
              refine (convertScalar_number .double fun _ => true).trans ?_
              simp [Conforms, VariantType.integerBits, ReadsAs]
          | _ =>
              refine iff_of_false (by rintro ⟨_, done⟩; cases done) ?_
              rintro ⟨number, reads⟩
              simpa using numbers (fun _ => true) ⟨number, reads, rfl⟩
      | boolean => cases leaf <;> simp [convertScalar, Conforms, VariantType.integerBits, VariantType.supported]
      | string => cases leaf <;> simp [convertScalar, Conforms, VariantType.integerBits, VariantType.supported]
      | guid =>
          cases leaf with
          | str s =>
              simp only [convertScalar, Conforms, VariantType.integerBits, PyValue.str.injEq]
              cases parsed : codec.uuid s <;> simp [parsed]
          | _ => simp [convertScalar, Conforms, VariantType.integerBits, VariantType.supported]
      | byteString =>
          cases leaf with
          | str s =>
              simp only [convertScalar, Conforms, VariantType.integerBits, PyValue.str.injEq]
              cases decoded : codec.b64decode s <;> simp [decoded]
          | _ => simp [convertScalar, Conforms, VariantType.integerBits, VariantType.supported]
      | dateTime =>
          cases leaf with
          | str s =>
              simp only [convertScalar, VariantType.integerBits]
              change _ ↔ ∃ clock utcoffset, IsAware codec (.str s) clock utcoffset
              cases parsed : codec.fromisoformat (s.replace "Z" "+00:00") with
              | error message =>
                  refine iff_of_false (by rintro ⟨_, done⟩; cases done) ?_
                  rintro ⟨_, _, _, _, same, read, _⟩
                  cases same
                  cases parsed.symm.trans read
              | ok t =>
                  cases aware : t.utcoffset with
                  | none =>
                      refine iff_of_false (by simp [aware]) ?_
                      rintro ⟨_, _, _, _, same, read, _, offset⟩
                      cases same
                      cases parsed.symm.trans read
                      cases aware.symm.trans offset
                  | some utcoffset =>
                      have known : IsAware codec (.str s) t.clock utcoffset := ⟨s, t, rfl, parsed, rfl, aware⟩
                      refine iff_of_true ⟨.dateTime (t.clock - utcoffset).toNat, ?_⟩ ⟨_, _, known⟩
                      simp only [aware, astimezoneUtc_ok (shown rfl _ _ known)]
                      rfl
          | _ => simp [convertScalar, Conforms, VariantType.integerBits, VariantType.supported, IsAware]
      | null | other name =>
          refine iff_of_false ?_ id
          cases leaf <;> simp [convertScalar, VariantType.integerBits, VariantType.supported]
      | sByte | byte | int16 | uInt16 | int32 | uInt32 | int64 | uInt64 => cases width

/-- Whatever else keeps a leaf from being converted is a `ValueError`. -/
theorem convertScalar_raised (shown : DatesShown codec variantType leaf) {raised : Raised}
    (failed : convertScalar codec leaf variantType = .error raised) : ∃ message, raised = .valueError message := by
  by_cases date : variantType = .dateTime ∧ ∃ s, leaf = .str s
  · obtain ⟨rfl, s, rfl⟩ := date
    simp only [convertScalar, VariantType.integerBits] at failed
    cases parsed : codec.fromisoformat (s.replace "Z" "+00:00") with
    | error message =>
        rw [parsed] at failed
        cases failed
        exact ⟨message, rfl⟩
    | ok t =>
        simp only [parsed] at failed
        cases aware : t.utcoffset with
        | none =>
            rw [aware] at failed
            cases failed
            exact ⟨_, rfl⟩
        | some utcoffset =>
            simp only [aware, astimezoneUtc_ok (shown rfl _ _ ⟨s, t, rfl, parsed, rfl, aware⟩)] at failed
            cases failed
  · unfold convertScalar at failed
    dsimp only at failed
    repeat' split at failed
    all_goals first
      | (cases failed <;> exact ⟨_, rfl⟩)
      | exact absurd ⟨rfl, _, rfl⟩ date

/-! ## Data values -/

/-- The numbers of dimensions that a value rank allows. -/
def FitsRank (valueRank : Int) (dimensions : Nat) : Prop :=
  valueRank = -3 ∧ dimensions ≤ 1 ∨ valueRank = -2 ∨ valueRank = -1 ∧ dimensions = 0 ∨ valueRank = 0 ∧ 0 < dimensions ∨
    0 < valueRank ∧ (dimensions : Int) = valueRank

/-- Every dimension of an array keeps to its own declared limit; zero means no limit. -/
def FitsDimensions (shape arrayDimensions : List Nat) : Prop :=
  shape ≠ [] → arrayDimensions ≠ [] → List.Forall₂ (fun actual limit => limit = 0 ∨ actual ≤ limit) shape arrayDimensions

theorem conformsToRank_iff (valueRank : Int) (dimensions : Nat) :
    conformsToRank valueRank dimensions = true ↔ FitsRank valueRank dimensions := by
  simp only [conformsToRank, FitsRank, Bool.not_eq_true', Bool.or_eq_false_iff, Bool.and_eq_false_iff,
    decide_eq_false_iff_not]
  omega

theorem conformsToDimensions_iff (shape arrayDimensions : List Nat) :
    conformsToDimensions shape arrayDimensions = true ↔ FitsDimensions shape arrayDimensions := by
  have pairwise : (shape.length = arrayDimensions.length ∧
      ∀ pair ∈ shape.zip arrayDimensions, pair.2 = 0 ∨ pair.1 ≤ pair.2) ↔
      List.Forall₂ (fun actual limit => limit = 0 ∨ actual ≤ limit) shape arrayDimensions := by
    rw [List.forall₂_iff_zip]
    exact and_congr_right fun _ => ⟨fun all a b m => all (a, b) m, fun all pair m => all m⟩
  simp only [conformsToDimensions, FitsDimensions, Bool.or_eq_true, Bool.and_eq_true, decide_eq_true_eq,
    List.all_eq_true, pairwise]
  tauto

/-- The requests that a history update can carry out. -/
def Accepts (codec : ScalarCodec) (value : PyValue) (quality : String) (variantType : VariantType) (valueRank : Int)
    (arrayDimensions : List Nat) : Prop :=
  if value.isNone then quality ∈ ["Bad", "GoodNoData"]
  else
    quality ∈ ["Good", "Uncertain"] ∧ variantType.supported = true ∧ (∀ leaf ∈ leavesOf value, Conforms codec variantType leaf) ∧
      ∃ shape, HasShape value shape ∧ FitsRank valueRank shape.length ∧ FitsDimensions shape arrayDimensions

theorem qualityCode_isSome (quality : String) :
    (qualityCode quality).isSome = true ↔ quality ∈ ["Good", "Uncertain", "Bad", "GoodNoData"] := by
  unfold qualityCode
  split_ifs <;> simp [*]

/-- With a supported quality, a variant is built exactly for an accepted request. -/
theorem historicalVariant_spec {value : PyValue} {quality : String} (valueRank : Int) (arrayDimensions : List Nat)
    (supported : (qualityCode quality).isSome = true) (shown : ∀ leaf ∈ leavesOf value, DatesShown codec variantType leaf) :
    match historicalVariant codec value quality variantType valueRank arrayDimensions with
    | .ok (variant, _) => Accepts codec value quality variantType valueRank arrayDimensions ∧
        variant.map VariantValue.nesting = if value.isNone then none else some (nestingOf value)
    | .error raised => ¬ Accepts codec value quality variantType valueRank arrayDimensions ∧
        ∃ message, raised = .valueError message := by
  have known := (qualityCode_isSome quality).mp supported
  unfold historicalVariant Accepts
  by_cases null : value.isNone = true
  · simp only [if_pos null]
    split_ifs with paired
    · exact ⟨paired, rfl⟩
    · exact ⟨paired, _, rfl⟩
  · simp only [if_neg null]
    split_ifs with bad unsupported
    · refine ⟨fun accepted => ?_, _, rfl⟩
      rcases List.mem_cons.mp bad with rfl | bad
      · exact absurd accepted.1 (by decide)
      · cases List.mem_singleton.mp bad
        exact absurd accepted.1 (by decide)
    · refine ⟨fun accepted => ?_, _, rfl⟩
      rw [accepted.2.1] at unsupported
      cases unsupported
    · have good : quality ∈ ["Good", "Uncertain"] := by
        simp only [List.mem_cons, List.not_mem_nil, or_false] at known bad ⊢
        tauto
      have fits : variantType.supported = true := by simpa using unsupported
      cases run : convertValue codec variantType value with
      | error raised =>
          have message : ∃ message, raised = .valueError message := by
            rcases convertValue_raised run with ⟨leaf, m, scalar⟩ | message
            · exact convertScalar_raised (shown leaf m) scalar
            · exact message
          refine ⟨?_, message⟩
          rintro ⟨-, -, conforms, shape, rectangular, -⟩
          obtain ⟨converted, done⟩ : ∃ converted, convertValue codec variantType value = .ok (converted, shape) :=
            convertValue_complete rectangular fun leaf m => (convertScalar_iff (shown leaf m)).mpr (conforms leaf m)
          cases run.symm.trans done
      | ok pair =>
          obtain ⟨converted, shape⟩ := pair
          obtain ⟨rectangular, scalars, nesting⟩ := convertValue_ok run
          have only {other : List Nat} (also : HasShape value other) : other = shape := by
            obtain ⟨again, done⟩ := convertValue_complete also scalars
            cases run.symm.trans done
            rfl
          dsimp only
          split_ifs with rank dimensions
          · refine ⟨?_, _, rfl⟩
            rintro ⟨-, -, -, other, also, fitsRank, -⟩
            rw [only also, ← conformsToRank_iff] at fitsRank
            rw [fitsRank] at rank
            cases rank
          · refine ⟨?_, _, rfl⟩
            rintro ⟨-, -, -, other, also, -, fitsDimensions⟩
            rw [only also, ← conformsToDimensions_iff] at fitsDimensions
            rw [fitsDimensions] at dimensions
            cases dimensions
          · refine ⟨⟨good, fits, fun leaf m => (convertScalar_iff (shown leaf m)).mp (scalars leaf m), shape, rectangular,
              (conformsToRank_iff ..).mp (by simpa using rank), (conformsToDimensions_iff ..).mp (by simpa using dimensions)⟩, ?_⟩
            rw [Option.map_some, nesting]

end

/-- A history update is accepted exactly if its value fits, it is refused with a
`ValueError`, and what is sent is nested like the value, as long as UTC shows its dates. -/
theorem historicalDataValue_iff (codec : ScalarCodec) (value : PyValue) (quality : String) {timestamp : PyDateTime}
    {utcoffset : Int} (aware : timestamp.utcoffset = some utcoffset) (variantType : VariantType) (valueRank : Int)
    (arrayDimensions : List Nat) (timestampShown : ShownInUtc timestamp.clock utcoffset)
    (leavesShown : ∀ leaf ∈ leavesOf value, DatesShown codec variantType leaf) :
    ((∃ result, historicalDataValue codec value quality timestamp variantType valueRank arrayDimensions = .ok result) ↔
      Accepts codec value quality variantType valueRank arrayDimensions) ∧
    (∀ raised, historicalDataValue codec value quality timestamp variantType valueRank arrayDimensions = .error raised →
      ∃ message, raised = .valueError message) ∧
    ∀ result, historicalDataValue codec value quality timestamp variantType valueRank arrayDimensions = .ok result →
      result.value.map VariantValue.nesting = if value.isNone then none else some (nestingOf value) := by
  unfold historicalDataValue
  cases code : qualityCode quality with
  | none =>
      refine ⟨iff_of_false nofun fun accepted => ?_, fun raised failed => ⟨_, (Except.error.inj failed).symm⟩, nofun⟩
      have supported : (qualityCode quality).isSome = true := by
        rw [qualityCode_isSome]
        unfold Accepts at accepted
        split_ifs at accepted
        · simp only [List.mem_cons, List.not_mem_nil, or_false] at accepted ⊢
          tauto
        · have good := accepted.1
          simp only [List.mem_cons, List.not_mem_nil, or_false] at good ⊢
          tauto
      rw [code] at supported
      cases supported
  | some statusCode =>
      have spec := historicalVariant_spec valueRank arrayDimensions
        (show (qualityCode quality).isSome = true by rw [code]; rfl) leavesShown
      simp only [aware]
      cases run : historicalVariant codec value quality variantType valueRank arrayDimensions with
      | error raised =>
          rw [run] at spec
          exact ⟨iff_of_false nofun spec.1, fun other failed => Except.error.inj failed ▸ spec.2, nofun⟩
      | ok variant =>
          rw [run] at spec
          simp only [astimezoneUtc_ok timestampShown]
          exact ⟨iff_of_true ⟨_, rfl⟩ spec.1, nofun, fun result done => Except.ok.inj done ▸ spec.2⟩

/-! ## Requests at midnight of the first day -/

/-- Parsers that refuse every text. -/
def refusingCodec : ScalarCodec where
  toFloat _ := none
  isFinite _ := false
  fitsSingle _ := false
  fromisoformat _ := .error "Invalid isoformat string"
  uuid _ := .error "badly formed hexadecimal UUID string"
  b64decode _ := none
  timestamp _ := ⟨0, some 0, calendarEnd_pos⟩

/-- `0001-01-01T00:00:00` with an offset from UTC of some hours. -/
def firstMidnight (hours : Int) : PyDateTime := ⟨0, some (hours * 3600000000), calendarEnd_pos⟩

theorem historicalDataValue_iff_pair :
    ((∃ result, historicalDataValue refusingCodec (.list [.int 1, .int 2]) "Good" (firstMidnight 0) .int16 1 [2] =
        .ok result) ↔
      Accepts refusingCodec (.list [.int 1, .int 2]) "Good" .int16 1 [2]) ∧
    (∀ raised, historicalDataValue refusingCodec (.list [.int 1, .int 2]) "Good" (firstMidnight 0) .int16 1 [2] =
        .error raised → ∃ message, raised = .valueError message) ∧
    ∀ result, historicalDataValue refusingCodec (.list [.int 1, .int 2]) "Good" (firstMidnight 0) .int16 1 [2] =
        .ok result →
      result.value.map VariantValue.nesting = some (.list [.leaf, .leaf]) :=
  historicalDataValue_iff refusingCodec (.list [.int 1, .int 2]) "Good"
    (show (firstMidnight 0).utcoffset = some 0 from rfl) .int16 1 [2] ⟨by decide, by decide⟩ fun _ _ => nofun

/-- A null is accepted for a type without support and for a rank it does not have, a list
of limits has to be as long as the dimensions, and a timestamp before the first year in
UTC raises another exception. -/
theorem nullOfAnyType_accepted :
    historicalDataValue refusingCodec .none "Bad" (firstMidnight 0) (.other "ExtensionObject") 1 [] =
      .ok ⟨none, .null, 0x80000000, 0⟩ ∧
    (VariantType.other "ExtensionObject").supported = false ∧ ¬ FitsRank 1 0 ∧
    historicalDataValue refusingCodec (.list [.int 1, .int 2]) "Good" (firstMidnight 0) .int16 1 [2, 2] =
      .error (.valueError "Value does not conform to OPC UA ArrayDimensions") ∧
    historicalDataValue refusingCodec .none "Bad" (firstMidnight 1) .int16 (-1) [] =
      .error (.overflowError "date value out of range") := by
  have shown : astimezoneUtc 0 0 = .ok 0 := astimezoneUtc_ok ⟨by decide, by decide⟩
  have beyond : astimezoneUtc 0 3600000000 = .error (.overflowError "date value out of range") :=
    astimezoneUtc_raised (by unfold ShownInUtc; omega)
  refine ⟨?_, rfl, by unfold FitsRank; omega, rfl, ?_⟩
  · simp [historicalDataValue, qualityCode, firstMidnight, historicalVariant, PyValue.isNone, shown, Except.map]
  · simp [historicalDataValue, qualityCode, firstMidnight, historicalVariant, PyValue.isNone, beyond, Except.map]

end I3x.OpcUa

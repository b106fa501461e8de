import I3xServer.Api.RelatedObjects
import I3xServer.Domain.Instants
import Mathlib.Data.String.Basic

/-!
# The order of historical values

Historical values are sorted by the text of their time. Texts and instants are in
the same order unless a value at a whole second shares it with one that has a
fraction.
-/
namespace I3x.Api
open Container

/-- A raw historical value with its source timestamp, as the client decodes it. -/
structure HistoryDataValue (U : Type) where
  value : U
  statusCode : Option String
  sourceTimestamp : UtcDateTime

structure Vqt (J : Type) where
  value : J
  quality : String
  timestamp : String

/-- How the answer shows values and status codes. -/
structure HistoryRendering (U J : Type) where
  toJsonSafeValue : U → J
  isNone : J → Bool
  normalizeQuality : Option String → String

/-- The history of a component; its own components are not listed. -/
structure ComponentHistory (J : Type) where
  isComposition : Bool
  values : List (Vqt J)

structure HistoricalValueResult (J : Type) where
  isComposition : Bool
  values : List (Vqt J)
  components : Option (Dict String (ComponentHistory J))

variable {U J : Type} (rendering : HistoryRendering U J)

def toVqtFromHistoryValue (dataValue : HistoryDataValue U) : Vqt J :=
  let safeValue := rendering.toJsonSafeValue dataValue.value
  let quality := rendering.normalizeQuality dataValue.statusCode
  { value := safeValue
    quality := if rendering.isNone safeValue ∧ quality ≠ "Bad" ∧ quality ≠ "GoodNoData" then "GoodNoData" else quality
    timestamp := dataValue.sourceTimestamp.formatUtcTimestamp }

/-- The stable sort by the text of the time. -/
def sortByTimestamp (values : List (Vqt J)) : List (Vqt J) :=
  values.insertionSort fun first second => first.timestamp ≤ second.timestamp

section
variable (model : PublishedModel) (node : PublishedNode) (rootSourceNodes componentNodes : List PublishedNode)
  (valuesByNodeId : Dict String (List (HistoryDataValue U)))

/-- The raw values behind the values of the element itself. -/
def rootHistory : List (HistoryDataValue U) :=
  rootSourceNodes.flatMap fun source => valuesByNodeId.bucket source.sourceNodeId

def componentHistory (component : PublishedNode) : ComponentHistory J where
  isComposition := compositionChildrenForNode model component ≠ []
  values := sortByTimestamp
    ((valuesByNodeId.bucket component.sourceNodeId).map (toVqtFromHistoryValue rendering))

def buildHistoricalValueResult : HistoricalValueResult J :=
  let components := Dict.ofList
    (componentNodes.map fun component => (component.id, componentHistory rendering model valuesByNodeId component))
  { isComposition := compositionChildrenForNode model node ≠ []
    values := sortByTimestamp ((rootHistory rootSourceNodes valuesByNodeId).map (toVqtFromHistoryValue rendering))
    components := if components.entries.isEmpty then none else some components }

/-- The component nodes by id; of several with one id the last counts. -/
def componentById : Dict String PublishedNode :=
  Dict.ofList (componentNodes.map fun component => (component.id, component))

end

/-- Values shown for raw values in the order of their instants. -/
def InTimeOrder (raw : List (HistoryDataValue U)) (values : List (Vqt J)) : Prop :=
  ∃ ordered : List (HistoryDataValue U), ordered.Perm raw ∧
    (ordered.Pairwise fun first second => first.sourceTimestamp.instant ≤ second.sourceTimestamp.instant) ∧
    values = ordered.map (toVqtFromHistoryValue rendering)

/-- No value at a whole second shares it with one that has a fraction. -/
def OneForm (raw : List (HistoryDataValue U)) : Prop :=
  ∀ first ∈ raw, ∀ second ∈ raw,
    first.sourceTimestamp.wholeSeconds = second.sourceTimestamp.wholeSeconds →
      (first.sourceTimestamp.microsecond = 0 ↔ second.sourceTimestamp.microsecond = 0)

instance (raw : List (HistoryDataValue U)) : Decidable (OneForm raw) :=
  inferInstanceAs (Decidable (∀ first ∈ raw, ∀ second ∈ raw, _ → _))

/-- All values of an answer are in the order of their instants. -/
structure HistoryOrdered (rootSourceNodes componentNodes : List PublishedNode)
    (valuesByNodeId : Dict String (List (HistoryDataValue U))) (result : HistoricalValueResult J) : Prop where
  values : InTimeOrder rendering (rootHistory rootSourceNodes valuesByNodeId) result.values
  components : ∀ id component, (result.components.getD .empty).get? id = some component →
    ∃ source, (componentById componentNodes).get? id = some source ∧
      InTimeOrder rendering (valuesByNodeId.bucket source.sourceNodeId) component.values

/-! ## Sorting by text -/

/-- The stable sort of the raw values by their text. -/
def byText (raw : List (HistoryDataValue U)) : List (HistoryDataValue U) :=
  raw.insertionSort fun first second =>
    first.sourceTimestamp.formatUtcTimestamp ≤ second.sourceTimestamp.formatUtcTimestamp

theorem sortByTimestamp_map (raw : List (HistoryDataValue U)) :
    sortByTimestamp (raw.map (toVqtFromHistoryValue rendering)) = (byText raw).map (toVqtFromHistoryValue rendering) :=
  (List.map_insertionSort
    (fun first second : HistoryDataValue U =>
      first.sourceTimestamp.formatUtcTimestamp ≤ second.sourceTimestamp.formatUtcTimestamp)
    (fun first second : Vqt J => first.timestamp ≤ second.timestamp) (toVqtFromHistoryValue rendering) raw
    fun _ _ _ _ => Iff.rfl).symm

theorem byText_pairwise (raw : List (HistoryDataValue U)) : (byText raw).Pairwise fun first second =>
    first.sourceTimestamp.formatUtcTimestamp ≤ second.sourceTimestamp.formatUtcTimestamp := by
  have total : Std.Total fun first second : HistoryDataValue U =>
      first.sourceTimestamp.formatUtcTimestamp ≤ second.sourceTimestamp.formatUtcTimestamp := ⟨fun _ _ => le_total _ _⟩
  have trans : IsTrans (HistoryDataValue U) fun first second =>
      first.sourceTimestamp.formatUtcTimestamp ≤ second.sourceTimestamp.formatUtcTimestamp := ⟨fun _ _ _ => le_trans⟩
  exact List.pairwise_insertionSort _ raw

/-- Of two members of an ordered list one is related to the other. -/
theorem related_of_pairwise {α : Type} {R : α → α → Prop} {l : List α} (ordered : l.Pairwise R) {a b : α} (m : a ∈ l)
    (n : b ∈ l) (other : a ≠ b) : R a b ∨ R b a := by
  obtain ⟨i, hi, rfl⟩ := List.mem_iff_getElem.mp m
  obtain ⟨j, hj, rfl⟩ := List.mem_iff_getElem.mp n
  rcases Nat.lt_trichotomy i j with before | same | after
  · exact .inl (List.pairwise_iff_getElem.mp ordered i j hi hj before)
  · cases same
    exact absurd rfl other
  · exact .inr (List.pairwise_iff_getElem.mp ordered j i hj hi after)

/-- Sorting by text sorts by instants exactly if no second is written in both forms. -/
theorem sortByTimestamp_iff (raw : List (HistoryDataValue U)) :
    InTimeOrder rendering raw (sortByTimestamp (raw.map (toVqtFromHistoryValue rendering))) ↔ OneForm raw := by
  rw [sortByTimestamp_map]
  have perm : (byText raw).Perm raw := List.perm_insertionSort _ raw
  constructor
  · rintro ⟨ordered, same, times, shown⟩
    have texts : ordered.Pairwise fun first second =>
        first.sourceTimestamp.formatUtcTimestamp ≤ second.sourceTimestamp.formatUtcTimestamp := by
      have stamps := congrArg (List.map Vqt.timestamp) shown
      simp only [List.map_map] at stamps
      have sorted := (List.pairwise_map (f := Vqt.timestamp ∘ toVqtFromHistoryValue rendering)
        (R := fun first second : String => first ≤ second)).mpr (byText_pairwise raw)
      rw [stamps] at sorted
      exact List.pairwise_map.mp sorted
    have split (first second : HistoryDataValue U) (m : first ∈ raw) (n : second ∈ raw)
        (seconds : first.sourceTimestamp.wholeSeconds = second.sourceTimestamp.wholeSeconds)
        (fraction : first.sourceTimestamp.microsecond ≠ 0) (whole : second.sourceTimestamp.microsecond = 0) : False := by
      have text := UtcDateTime.formatUtcTimestamp_fraction seconds fraction whole
      have time : second.sourceTimestamp.instant < first.sourceTimestamp.instant := by
        unfold UtcDateTime.instant
        omega
      have apart : first ≠ second := fun same => by
        rw [same] at fraction
        exact fraction whole
      rcases related_of_pairwise (times.and texts) (same.mem_iff.mpr m) (same.mem_iff.mpr n) apart with before | after
      · exact absurd before.1 (Nat.not_le.mpr time)
      · exact absurd after.2 (not_le.mpr text)
    intro first m second n seconds
    by_contra different
    rcases Decidable.em (first.sourceTimestamp.microsecond = 0) with whole | fraction
    · have fraction : second.sourceTimestamp.microsecond ≠ 0 := fun zero => different (iff_of_true whole zero)
      exact split second first n m seconds.symm fraction whole
    · have whole : second.sourceTimestamp.microsecond = 0 := by
        by_contra other
        exact different (iff_of_false fraction other)
      exact split first second m n seconds fraction whole
  · intro oneForm
    refine ⟨byText raw, perm, (byText_pairwise raw).imp_of_mem fun {first second} m n text => ?_, rfl⟩
    by_contra later
    have less := UtcDateTime.formatUtcTimestamp_lt
      (oneForm second (perm.mem_iff.mp n) first (perm.mem_iff.mp m)) (Nat.not_le.mp later)
    exact absurd text (not_le.mpr less)

/-- **A history answer is in the order of its instants exactly if no list of values
holds a second in both forms.** -/
theorem historyOrdered_iff (model : PublishedModel) (node : PublishedNode)
    (rootSourceNodes componentNodes : List PublishedNode) (valuesByNodeId : Dict String (List (HistoryDataValue U))) :
    HistoryOrdered rendering rootSourceNodes componentNodes valuesByNodeId
        (buildHistoricalValueResult rendering model node rootSourceNodes componentNodes valuesByNodeId) ↔
      OneForm (rootHistory rootSourceNodes valuesByNodeId) ∧
        ∀ id source, (componentById componentNodes).get? id = some source →
          OneForm (valuesByNodeId.bucket source.sourceNodeId) := by
  have components (id : String) : ((buildHistoricalValueResult rendering model node rootSourceNodes componentNodes
      valuesByNodeId).components.getD .empty).get? id =
      ((componentById componentNodes).get? id).map (componentHistory rendering model valuesByNodeId) := by
    have built : (buildHistoricalValueResult rendering model node rootSourceNodes componentNodes
        valuesByNodeId).components.getD .empty = Dict.ofList (componentNodes.map fun component =>
          (component.id, componentHistory rendering model valuesByNodeId component)) := by
      simp only [buildHistoricalValueResult]
      split
      · next none => exact (Dict.eq_empty (List.isEmpty_iff.mp none)).symm
      · rfl
    have mapped := Dict.get?_ofList_values (componentNodes.map fun component => (component.id, component))
      (componentHistory rendering model valuesByNodeId) id
    rw [List.map_map] at mapped
    rw [built]
    exact mapped
  constructor
  · intro ordered
    refine ⟨(sortByTimestamp_iff rendering _).mp ordered.values, fun id source found => ?_⟩
    obtain ⟨_, same, inOrder⟩ := ordered.components id _ (by rw [components, found, Option.map_some])
    cases found.symm.trans same
    exact (sortByTimestamp_iff rendering _).mp inOrder
  · rintro ⟨root, each⟩
    refine ⟨(sortByTimestamp_iff rendering _).mpr root, fun id component found => ?_⟩
    rw [components, Option.map_eq_some_iff] at found
    obtain ⟨source, present, rfl⟩ := found
    exact ⟨source, present, (sortByTimestamp_iff rendering _).mpr (each id source present)⟩

/-- Ten o'clock, or half a second later. -/
def tenOClock (half : Bool) : UtcDateTime where
  year := 2024
  month := 5
  day := 1
  hour := 10
  minute := 0
  second := 0
  microsecond := if half then 500000 else 0
  year_bounds := by decide
  month_bounds := by decide
  day_bounds := by decide
  hour_lt := by decide
  minute_lt := by decide
  second_lt := by decide
  microsecond_lt := by cases half <;> decide

/-- A property with a value at ten o'clock and one half a second later. -/
def ticking : Browse := Plant.browse [Plant.node "A" "Variable" []]

def tickingNode : PublishedNode := ticking.publishedNode (Plant.node "A" "Variable" [])

def tickingHistory : List (HistoryDataValue Nat) := [⟨1, none, tenOClock false⟩, ⟨2, none, tenOClock true⟩]

/-- **The value at ten o'clock comes after the one half a second later.** -/
theorem ticking_not_ordered : ¬ HistoryOrdered (J := Nat) ⟨id, fun _ => false, fun _ => "Good"⟩ [tickingNode] []
    (Dict.ofList [("ns=1;s=A", tickingHistory)])
    (buildHistoricalValueResult ⟨id, fun _ => false, fun _ => "Good"⟩ ticking.published tickingNode [tickingNode] []
      (Dict.ofList [("ns=1;s=A", tickingHistory)])) := by
  intro ordered
  have source : rootHistory [tickingNode] (Dict.ofList [("ns=1;s=A", tickingHistory)]) = tickingHistory := rfl
  have values := ordered.values
  rw [source] at values
  have oneForm := (sortByTimestamp_iff _ tickingHistory).mp values
  exact absurd oneForm (by decide)

end I3x.Api

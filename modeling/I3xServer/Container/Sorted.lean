import Mathlib.Data.List.Sort
import Mathlib.Data.Finset.Card
import Mathlib.Data.Finset.Dedup

/-!
# Listing finite sets

A set has no order of its own. `Enumeration` is any way to list finite sets;
`sorted` is the one that lists them in increasing order.
-/
namespace Container
variable {α : Type}

structure Enumeration (α : Type) where
  list : Finset α → List α
  nodup : ∀ s, (list s).Nodup
  mem_list : ∀ s a, a ∈ list s ↔ a ∈ s

theorem Enumeration.length_list [DecidableEq α] (order : Enumeration α) (s : Finset α) :
    (order.list s).length = s.card := by
  have same : (order.list s).toFinset = s := by
    ext a
    rw [List.mem_toFinset, order.mem_list]
  rw [← List.toFinset_card_of_nodup (order.nodup s), same]

variable [LinearOrder α]

theorem insertionSort_perm {xs ys : List α} (h : xs.Perm ys) :
    xs.insertionSort (· ≤ ·) = ys.insertionSort (· ≤ ·) := by
  have same : (xs.insertionSort (· ≤ ·)).Perm (ys.insertionSort (· ≤ ·)) :=
    ((List.perm_insertionSort _ xs).trans h).trans (List.perm_insertionSort _ ys).symm
  exact same.eq_of_sortedLE List.sortedLE_insertionSort List.sortedLE_insertionSort

def sorted (s : Finset α) : List α :=
  Quot.liftOn s.val (List.insertionSort (· ≤ ·)) fun _ _ h => insertionSort_perm h

theorem coe_sorted (s : Finset α) : (↑(sorted s) : Multiset α) = s.val := by
  obtain ⟨m, nodup⟩ := s
  induction m using Quot.inductionOn with
  | h xs => exact Multiset.coe_eq_coe.mpr (List.perm_insertionSort _ xs)

theorem mem_sorted (s : Finset α) (a : α) : a ∈ sorted s ↔ a ∈ s := by
  rw [← Multiset.mem_coe, coe_sorted]
  rfl

theorem nodup_sorted (s : Finset α) : (sorted s).Nodup := by
  rw [← Multiset.coe_nodup, coe_sorted]
  exact s.nodup

theorem sorted_pairwise (s : Finset α) : (sorted s).Pairwise (· < ·) := by
  have increasing : (sorted s).Pairwise (· ≤ ·) := by
    obtain ⟨m, nodup⟩ := s
    induction m using Quot.inductionOn with
    | h xs => exact (List.sortedLE_insertionSort (l := xs)).pairwise
  exact increasing.imp₂ (fun _ _ less other => lt_of_le_of_ne less other) (nodup_sorted s)

def Enumeration.sorted : Enumeration α where
  list := Container.sorted
  nodup := nodup_sorted
  mem_list := mem_sorted

end Container

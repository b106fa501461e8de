import Mathlib.Order.Lattice
import Mathlib.Data.List.Lex
import Mathlib.Tactic.Common
import Mathlib.Algebra.GroupWithZero.Nat

/-!
# Numbers of a fixed width

Numbers written with as many decimal digits as agreed are ordered as texts the way
they are ordered as numbers, whatever follows them.
-/
namespace Container

/-- The decimal digits of a number below `10 ^ width`, with leading zeros. -/
def padded : Nat → Nat → List Char
  | 0, _ => []
  | width + 1, n => Nat.digitChar (n / 10 ^ width) :: padded width (n % 10 ^ width)

theorem digitChar_lt : ∀ d' < 10, ∀ d < d', Nat.digitChar d < Nat.digitChar d' := by decide

/-- The smaller number comes first as text. -/
theorem padded_lt {width n n' : Nat} (less : n < n') (bound : n' < 10 ^ width) (s s' : List Char) :
    padded width n ++ s < padded width n' ++ s' := by
  induction width generalizing n n' with
  | zero => omega
  | succ width ih =>
      have unit : 0 < 10 ^ width := Nat.pow_pos (by omega)
      rw [padded, padded, List.cons_append, List.cons_append, List.cons_lt_cons_iff]
      rcases Nat.lt_or_eq_of_le (Nat.div_le_div_right (c := 10 ^ width) less.le) with leading | same
      · refine .inl (digitChar_lt _ ?_ _ leading)
        rw [Nat.div_lt_iff_lt_mul unit, ← Nat.pow_succ']
        exact bound
      · refine .inr ⟨by rw [same], ih ?_ (Nat.mod_lt _ unit)⟩
        have whole := Nat.div_add_mod n (10 ^ width)
        have whole' := Nat.div_add_mod n' (10 ^ width)
        rw [same] at whole
        omega

/-- The same text in front does not matter. -/
theorem append_lt_append (text : List Char) {s s' : List Char} (less : s < s') : text ++ s < text ++ s' := by
  induction text with
  | nil => exact less
  | cons c text ih => exact List.cons_lt_cons_iff.mpr (.inr ⟨rfl, ih⟩)

end Container

import Mathlib.Data.Rat.Floor
import Mathlib.Data.Real.Basic
import ShowControl.Proofs.Number.Order

/-! Exact numbers.

Exact numbers stand for real ones, and are added, multiplied and compared as these are. Nothing that a
show computes with them is without a value. The fractions are such numbers. -/

set_option autoImplicit false
namespace ShowControl

class Number.Finite (α : Type) [Number α] : Prop where
  rounds (x : α) : ∃ n, Number.round x = .ok n

/-- Every number stands for a real one, with which the show could compute as well. -/
class Number.Exact (α : Type) [Number α] where
  value : α → ℝ
  zero : value 0 = 0
  one : value 1 = 1
  add (a b : α) : value (a + b) = value a + value b
  sub (a b : α) : value (a - b) = value a - value b
  mul (a b : α) : value (a * b) = value a * value b
  div (a b : α) : value (a / b) = value a / value b
  injective {a b : α} : value a = value b → a = b
  le_iff {a b : α} : a ≤ b ↔ value a ≤ value b
  lt_iff {a b : α} : a < b ↔ value a < value b
  defined (a : α) : Number.isUndefined a = false

/-- Numbers compare as the same just if they are. -/
class Number.Equated (α : Type) [Number α] : Prop where
  same_iff {a b : α} : Number.same a b = true ↔ a = b

namespace Number.Exact

variable {α : Type} [Number α] [Exact α]

instance : Number.Ordered α where
  le_trans first second := le_iff.2 (le_trans (le_iff.1 first) (le_iff.1 second))
  le_total _ _ := by simpa only [le_iff] using le_total _ _
  lt_iff _ _ := by rw [lt_iff, le_iff, not_le]
  comparable_of_numeral _ := le_iff.2 (le_refl _)

theorem comparable (a : α) : Number.Comparable a := le_iff.2 (le_refl _)

theorem value_atMost (bound x : α) : value (Number.atMost bound x) = min (value bound) (value x) := by
  rw [Number.atMost]
  split
  · next below => exact (min_eq_right (lt_iff.1 below).le).symm
  · next notBelow => exact (min_eq_left (not_lt.1 fun below => notBelow (lt_iff.2 below))).symm

theorem value_atLeast (bound x : α) :
    value (Number.atLeast bound x) = max (value bound) (value x) := by
  rw [Number.atLeast]
  split
  · next above => exact (max_eq_right (lt_iff.1 above).le).symm
  · next notAbove => exact (max_eq_left (not_lt.1 fun above => notAbove (lt_iff.2 above))).symm

theorem quotient_self {a : α} (positive : 0 < a) : a / a = 1 := by
  apply injective
  rw [lt_iff, zero] at positive
  rw [div, one, div_self (ne_of_gt positive)]

theorem positive_one : (0 : α) < 1 := by
  rw [lt_iff, zero, one]
  exact zero_lt_one

theorem atMost_eq {bound x : α} (come : bound ≤ Number.atMost bound x) :
    Number.atMost bound x = bound := by
  simp only [Number.atMost] at come ⊢
  split at come
  · next below => exact absurd come ((Ordered.lt_iff (comparable x) (comparable bound)).1 below)
  · next notBelow => rw [if_neg notBelow]

end Number.Exact

namespace Fraction

def round (x : ℚ) : Int :=
  let up := (x + 1 / 2).floor
  if x + 1 / 2 = up ∧ up % 2 = 1 then up - 1 else up

/-- The cosine of a multiple of π between no and half a turn. It is exact at the thirds and the
halves, and near elsewhere. -/
def cosHalf (u : ℚ) : ℚ :=
  if u ≤ 1 / 2 then (1 - 4 * u * u) / (1 + u * u)
  else (4 * (1 - u) * (1 - u) - 1) / (1 + (1 - u) * (1 - u))

def cosPi (u : ℚ) : ℚ :=
  let turn := u - 2 * (u / 2).floor
  cosHalf (if turn ≤ 1 then turn else 2 - turn)

def text (x : ℚ) : String := if x.den = 1 then s!"{x.num}" else s!"{x.num}/{x.den}"

def ofNumeral? : Decimal.Numeral → Option ℚ
  | .finite negative n ten =>
    let x : ℚ := (n : ℚ) * (10 : ℚ) ^ ten
    some (if negative then -x else x)
  | .infinite _ | .undefined _ => none

end Fraction

instance : Number ℚ where
  zero := 0
  one := 1
  add := (· + ·)
  sub := (· - ·)
  mul := (· * ·)
  div := (· / ·)
  le := (· ≤ ·)
  lt := (· < ·)
  decLe _ _ := inferInstanceAs (Decidable (_ ≤ _))
  decLt _ _ := inferInstanceAs (Decidable (_ < _))
  same a b := a = b
  ofNumeral? := Fraction.ofNumeral?
  isUndefined _ := false
  round x := .ok (Fraction.round x)
  cosPi := Fraction.cosPi
  hasCosPi _ := true
  shortest := Fraction.text
  brief := Fraction.text
  tenths := Fraction.text

instance : Number.Exact ℚ where
  value x := x
  zero := Rat.cast_zero
  one := Rat.cast_one
  add := Rat.cast_add
  sub := Rat.cast_sub
  mul := Rat.cast_mul
  div := Rat.cast_div
  injective same := Rat.cast_injective same
  le_iff := Rat.cast_le.symm
  lt_iff := Rat.cast_lt.symm
  defined _ := rfl

instance : Number.Finite ℚ := ⟨fun x => ⟨Fraction.round x, rfl⟩⟩

instance : Number.Equated ℚ := ⟨decide_eq_true_iff⟩

end ShowControl

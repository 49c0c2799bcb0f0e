import Mathlib.Data.Prod.Lex
import Mathlib.Order.Basic
import ShowControl.Number

/-! Comparing the numbers of a show.

A number is comparable if it is at most itself. Among comparable numbers the order is total, and what
a numeral reads as is comparable. Double precision is of this kind: its numbers are ranked by sign,
exponent and mantissa, and only an undefined one has no rank. -/

set_option autoImplicit false
namespace ShowControl

/-- A number that can be compared: it is not undefined. -/
def Number.Comparable {α : Type} [Number α] (a : α) : Prop := a ≤ a

instance {α : Type} [Number α] (a : α) : Decidable (Number.Comparable a) :=
  inferInstanceAs (Decidable (a ≤ a))

/-- The laws of the order. They ask nothing of the arithmetic. -/
class Number.Ordered (α : Type) [Number α] : Prop where
  le_trans {a b c : α} : a ≤ b → b ≤ c → a ≤ c
  le_total {a b : α} : Number.Comparable a → Number.Comparable b → a ≤ b ∨ b ≤ a
  lt_iff {a b : α} : Number.Comparable a → Number.Comparable b → (a < b ↔ ¬b ≤ a)
  comparable_of_numeral {n : Decimal.Numeral} {a : α} :
    Number.ofNumeral? n = some a → Number.Comparable a

namespace Number

variable {α : Type} [Number α] [Ordered α]

theorem not_lt_iff {a b : α} (left : Comparable a) (right : Comparable b) : ¬a < b ↔ b ≤ a := by
  rw [Ordered.lt_iff left right, not_not]

theorem le_of_lt {a b : α} (left : Comparable a) (right : Comparable b) (below : a < b) : a ≤ b :=
  (Ordered.le_total left right).resolve_right ((Ordered.lt_iff left right).1 below)

def largest? {α : Type} [Number α] : List α → Option α
  | [] => none
  | a :: rest => match largest? rest with
    | none => some a
    | some b => if b < a then some a else some b

omit [Ordered α] in
theorem comparable_of_largest? {values : List α} (comparable : ∀ v ∈ values, Comparable v) {m : α}
    (found : largest? values = some m) : Comparable m := by
  induction values generalizing m with
  | nil => simp [largest?] at found
  | cons a rest ih =>
    have later {b : α} := @ih (fun v member => comparable v (List.mem_cons_of_mem a member)) b
    simp only [largest?] at found
    split at found
    · cases found
      exact comparable _ List.mem_cons_self
    · next b top =>
      split at found
      · cases found
        exact comparable _ List.mem_cons_self
      · cases found
        exact later top

theorem reached_iff_largest? {values : List α} (comparable : ∀ v ∈ values, Comparable v) (bound : α) :
    (∃ v ∈ values, bound ≤ v) ↔ ∃ m, largest? values = some m ∧ bound ≤ m := by
  induction values with
  | nil => simp [largest?]
  | cons a rest ih =>
    have restComparable : ∀ v ∈ rest, Comparable v := fun v member =>
      comparable v (List.mem_cons_of_mem a member)
    have head : Comparable a := comparable a List.mem_cons_self
    simp only [List.mem_cons, exists_eq_or_imp, ih restComparable, largest?]
    cases top : largest? rest with
    | none => simp
    | some b =>
      have tail : Comparable b := comparable_of_largest? restComparable top
      by_cases below : b < a
      · simp only [below, if_true, Option.some.injEq, exists_eq_left', or_iff_left_iff_imp]
        exact fun reached => Ordered.le_trans reached (le_of_lt tail head below)
      · simp only [below, if_false, Option.some.injEq, exists_eq_left', or_iff_right_iff_imp]
        exact fun reached => Ordered.le_trans reached ((not_lt_iff tail head).1 below)

end Number

/-! Double precision -/

namespace Scalar

open Float.Model Float.Model.UnpackedFloat

/-- Where a floating-point number stands among the others; what is no number has no rank. The middle
part is the exponent and the last one the mantissa, and both count downwards below zero. -/
def rankOf : UnpackedFloat → Option (Int ×ₗ Int ×ₗ Int)
  | .notANumber => none
  | .infinity .negative => some (toLex (-2, toLex (0, 0)))
  | .finite .negative m e _ => some (toLex (-1, toLex (-e, -m)))
  | .zero _ => some (toLex (0, toLex (0, 0)))
  | .finite .positive m e _ => some (toLex (1, toLex (e, m)))
  | .infinity .positive => some (toLex (2, toLex (0, 0)))

def rank? : Scalar → Option (Int ×ₗ Int ×ₗ Int)
  | number x => rankOf x.toModel.unpack
  | undefined _ => none

private theorem compare_neg (a b : Int) : Ord.compare (-a) (-b) = (Ord.compare a b).swap := by
  rcases Int.lt_trichotomy a b with below | same | above
  · rw [Int.compare_eq_lt.2 below, Int.compare_eq_gt.2 (Int.neg_lt_neg below)]
    rfl
  · rw [same, Int.compare_eq_eq.2 rfl, Int.compare_eq_eq.2 rfl]
    rfl
  · rw [Int.compare_eq_gt.2 above, Int.compare_eq_lt.2 (Int.neg_lt_neg above)]
    rfl

private theorem compare_cast (m n : Nat) : Ord.compare (m : Int) n = Ord.compare m n := by
  rcases Nat.lt_trichotomy m n with below | same | above
  · rw [Nat.compare_eq_lt.2 below, Int.compare_eq_lt.2 (Int.ofNat_lt.2 below)]
  · rw [same, Nat.compare_eq_eq.2 rfl, Int.compare_eq_eq.2 rfl]
  · rw [Nat.compare_eq_gt.2 above, Int.compare_eq_gt.2 (Int.ofNat_lt.2 above)]

theorem compare_eq_rankOf (x y : UnpackedFloat) :
    x.compare y = (rankOf x).bind fun a => (rankOf y).map (Ord.compare a) := by
  -- The first parts of the ranks settle every pair but two finite numbers of one sign.
  rcases x with (_ | _) | _ | (_ | _) | ⟨_ | _, m, e, _⟩ <;>
    rcases y with (_ | _) | _ | (_ | _) | ⟨_ | _, m', e', _⟩ <;> try rfl
  · show some _ = some (Ordering.then .eq
      ((Ord.compare (-e) (-e')).then (Ord.compare (-(m : Int)) (-m'))))
    rw [compare_neg, compare_neg, compare_cast, Ordering.swap_then]
    rfl
  · show some _ = some (Ordering.then .eq ((Ord.compare e e').then (Ord.compare (m : Int) m')))
    rw [compare_cast]
    rfl

private theorem float_le_iff (x y : Float) :
    x ≤ y ↔ (x.toModel.unpack.compare y.toModel.unpack).any Ordering.isLE = true := by
  show decide (x.toModel ≤ y.toModel) = true ↔ _
  rw [decide_eq_true_iff]
  rfl

private theorem float_lt_iff (x y : Float) :
    x < y ↔ x.toModel.unpack.compare y.toModel.unpack = some .lt := by
  show decide (x.toModel < y.toModel) = true ↔ _
  rw [decide_eq_true_iff]
  show (x.toModel.unpack.compare y.toModel.unpack == some .lt) = true ↔ _
  rw [beq_iff_eq]

theorem le_iff_rank? (x y : Scalar) :
    x ≤ y ↔ ∃ a b, x.rank? = some a ∧ y.rank? = some b ∧ a ≤ b := by
  rcases x with x | negative
  · rcases y with y | negative
    · show decide (x ≤ y) = true ↔ _
      rw [decide_eq_true_iff, float_le_iff, compare_eq_rankOf]
      simp only [rank?]
      cases rankOf x.toModel.unpack with
      | none => simp
      | some a => cases rankOf y.toModel.unpack with
        | none => simp
        | some b => simp [Ordering.isLE_iff_ne_gt, compare_le_iff_le]
    · show false = true ↔ _
      simp [rank?]
  · show false = true ↔ _
    simp [rank?]

theorem lt_iff_rank? (x y : Scalar) :
    x < y ↔ ∃ a b, x.rank? = some a ∧ y.rank? = some b ∧ a < b := by
  rcases x with x | negative
  · rcases y with y | negative
    · show decide (x < y) = true ↔ _
      rw [decide_eq_true_iff, float_lt_iff, compare_eq_rankOf]
      simp only [rank?]
      cases rankOf x.toModel.unpack with
      | none => simp
      | some a => cases rankOf y.toModel.unpack with
        | none => simp
        | some b => simp [compare_lt_iff_lt]
    · show false = true ↔ _
      simp [rank?]
  · show false = true ↔ _
    simp [rank?]

/-- Both readings of the bits find no number in the same patterns. -/
private theorem ofBits_eq_undefined {bits : BitVec 64}
    (none : UnpackedFloat.unpack Format.binary64 bits = .notANumber) :
    Decimal.Binary64.ofBits bits.toNat = .undefined := by
  delta UnpackedFloat.unpack at none
  dsimp only at none
  by_cases exponent : @unpackExponent Format.binary64 bits = -1#_
  · rw [if_pos exponent] at none
    by_cases mantissa : @unpackMantissa Format.binary64 bits = 0#_
    · rw [if_pos mantissa] at none
      cases none
    · have biased := congrArg BitVec.toNat exponent
      have fraction : ¬(@unpackMantissa Format.binary64 bits).toNat = 0 := fun zero =>
        mantissa (BitVec.eq_of_toNat_eq (by simpa using zero))
      simp [unpackExponent, unpackMantissa, Nat.shiftRight_eq_div_pow] at biased fraction
      simp [Decimal.Binary64.ofBits, biased, fraction]
  · rw [if_neg exponent] at none
    by_cases least : @unpackExponent Format.binary64 bits = 0#_
    · rw [if_pos least] at none
      by_cases mantissa : @unpackMantissa Format.binary64 bits = 0#_
      · rw [dif_pos mantissa] at none
        cases none
      · rw [dif_neg mantissa] at none
        cases none
    · rw [if_neg least] at none
      cases none

theorem rank?_isSome_of_isFinite {x : Scalar} (finite : x.isFinite = true) :
    x.rank?.isSome = true := by
  cases x with
  | number x =>
    simp only [rank?]
    cases parts : x.toModel.unpack with
    | notANumber =>
      have undefined := ofBits_eq_undefined parts
      have content : (number x).toBinary = .undefined := undefined
      simp [isFinite, content] at finite
    | infinity s => cases s <;> rfl
    | zero s => rfl
    | finite s m e _ => cases s <;> rfl
  | undefined negative =>
    cases negative <;> exact absurd finite (by decide)

instance : Number.Ordered Scalar where
  le_trans := by
    intro a b c first second
    rw [le_iff_rank?] at first second ⊢
    obtain ⟨i, j, left, middle, below⟩ := first
    obtain ⟨j', k, middle', right, below'⟩ := second
    cases middle.symm.trans middle'
    exact ⟨i, k, left, right, below.trans below'⟩
  le_total := by
    intro a b left right
    obtain ⟨i, _, left, _, _⟩ := (le_iff_rank? a a).1 left
    obtain ⟨j, _, right, _, _⟩ := (le_iff_rank? b b).1 right
    rw [le_iff_rank?, le_iff_rank?]
    rcases le_total i j with below | above
    · exact .inl ⟨i, j, left, right, below⟩
    · exact .inr ⟨j, i, right, left, above⟩
  lt_iff := by
    intro a b left right
    obtain ⟨i, _, left, _, _⟩ := (le_iff_rank? a a).1 left
    obtain ⟨j, _, right, _, _⟩ := (le_iff_rank? b b).1 right
    simp [lt_iff_rank?, le_iff_rank?, left, right]
  comparable_of_numeral := by
    intro n a read
    have finite : a.isFinite = true := by
      simp only [Number.ofNumeral?] at read
      split at read
      · next finite => cases read; exact finite
      · cases read
    obtain ⟨i, rank⟩ := Option.isSome_iff_exists.1 (rank?_isSome_of_isFinite finite)
    exact (le_iff_rank? a a).2 ⟨i, i, rank, rank, le_refl i⟩

end Scalar

end ShowControl

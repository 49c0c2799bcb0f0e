import ShowControl.Decimal.Notation
import ShowControl.Decimal.Numeral

/-! The numbers of a show: times, thresholds and coordinates.

Everything that computes with them is written for any `Number`. A show runs on `Scalar`, double
precision; statements about exact arithmetic take a field instead. -/

set_option autoImplicit false
namespace ShowControl

inductive RoundingFault where
  | undefined
  | infinite
  deriving DecidableEq, Repr

/-- The operations that a show needs of its numbers. No law is asked for. -/
class Number (α : Type) extends Zero α, One α, Add α, Sub α, Mul α, Div α, LE α, LT α where
  decLe : (a b : α) → Decidable (a ≤ b)
  decLt : (a b : α) → Decidable (a < b)
  same : α → α → Bool
  ofNumeral? : Decimal.Numeral → Option α
  isUndefined : α → Bool
  /-- The nearest integer, and of two equally near ones the even one. -/
  round : α → Except RoundingFault Int
  cosPi : α → α
  /-- Whether the multiple of π is finite, so that it has a cosine. -/
  hasCosPi : α → Bool
  shortest : α → String
  /-- Six significant digits. -/
  brief : α → String
  tenths : α → String

instance Number.decidableLe {α : Type} [Number α] (a b : α) : Decidable (a ≤ b) := Number.decLe a b

instance Number.decidableLt {α : Type} [Number α] (a b : α) : Decidable (a < b) := Number.decLt a b

namespace Number

variable {α : Type} [Number α]

def atLeast (bound x : α) : α := if bound < x then x else bound

def atMost (bound x : α) : α := if x < bound then x else bound

end Number

/-- A double-precision number. One that is no number still has the sign that it came about with: a
double has a place for it, and an answer shows it. -/
inductive Scalar where
  | number (x : Float)
  | undefined (negative : Bool)

namespace Scalar

def ofFloat (x : Float) : Scalar := if x.isNaN then undefined true else number x

def ofBits (bits : Nat) (negative : Bool) : Scalar :=
  number (Float.ofBits (UInt64.ofNat (if negative then bits + Nat.pow 2 63 else bits)))

def ofNumeral : Decimal.Numeral → Scalar
  | .undefined negative => undefined negative
  | .infinite negative => ofBits 0x7ff0000000000000 negative
  | .finite negative n ten => ofBits (Decimal.Binary64.bitsOfDecimal n ten) negative

def toBits : Scalar → Nat
  | number x => x.toBits.toNat
  | undefined negative => if negative then 0xfff8000000000000 else 0x7ff8000000000000

def toBinary (x : Scalar) : Decimal.Binary64 := .ofBits x.toBits

/-- Applies an operation; an undefined operand is handed on, the first one first. -/
def apply (f : Float → Float → Float) : Scalar → Scalar → Scalar
  | undefined negative, _ => undefined negative
  | _, undefined negative => undefined negative
  | number x, number y => ofFloat (f x y)

def compare (f : Float → Float → Bool) : Scalar → Scalar → Bool
  | number x, number y => f x y
  | _, _ => false

def isFinite (x : Scalar) : Bool :=
  match x.toBinary with
  | .finite .. => true
  | _ => false

def truncate (x : Scalar) : Except RoundingFault Int :=
  match x.toBinary with
  | .undefined => .error .undefined
  | .infinite _ => .error .infinite
  | .finite negative m e =>
    let (up, down) := Decimal.scale e 0
    let n : Int := (m * up / down : Nat)
    .ok (if negative then -n else n)

def round (x : Scalar) : Except RoundingFault Int :=
  match x.toBinary with
  | .undefined => .error .undefined
  | .infinite _ => .error .infinite
  | .finite negative m e =>
    let n : Int := Decimal.fixed 0 m e
    .ok (if negative then -n else n)

def pi : Float := 3.141592653589793

def cosPi : Scalar → Scalar
  | undefined negative => undefined negative
  | number x => ofFloat (Float.cos (x * pi))

def hasCosPi : Scalar → Bool
  | undefined _ => true
  | number x => !(x * pi).isInf

instance : Number Scalar where
  zero := number 0
  one := number 1
  add := apply (· + ·)
  sub := apply (· - ·)
  mul := apply (· * ·)
  div := apply (· / ·)
  le x y := compare (fun a b => a ≤ b) x y = true
  lt x y := compare (fun a b => a < b) x y = true
  decLe _ _ := inferInstanceAs (Decidable (_ = _))
  decLt _ _ := inferInstanceAs (Decidable (_ = _))
  same := compare (· == ·)
  ofNumeral? n := let x := ofNumeral n; if x.isFinite then some x else none
  isUndefined
    | undefined _ => true
    | number _ => false
  round := round
  cosPi := cosPi
  hasCosPi := hasCosPi
  shortest x := x.toBinary.shortest
  brief x := x.toBinary.brief
  tenths x := x.toBinary.tenths

end Scalar

end ShowControl

import ShowControl.Decimal.Rounding

/-! Double-precision floating point, as sign, mantissa and binary exponent. -/

set_option autoImplicit false
namespace ShowControl.Decimal

inductive Binary64 where
  | finite (negative : Bool) (mantissa : Nat) (exponent : Int)
  | infinite (negative : Bool)
  | undefined
  deriving DecidableEq, Repr

namespace Binary64

def ofBits (bits : Nat) : Binary64 :=
  let negative := bits / Nat.pow 2 63 % 2 == 1
  let biased : Nat := bits / Nat.pow 2 52 % Nat.pow 2 11
  let fraction : Nat := bits % Nat.pow 2 52
  if biased == 0x7ff then
    if fraction == 0 then infinite negative else undefined
  else if biased == 0 then finite negative fraction (-1074)
  else finite negative (fraction + Nat.pow 2 52) ((biased : Int) - 1075)

/-- The bits of the double nearest to `n * 10 ^ ten`, without a sign bit. Halfway cases go to the even
mantissa; what lies beyond the greatest finite double by half a step or more is infinite. -/
def bitsOfDecimal (n : Nat) (ten : Int) : Nat :=
  if n = 0 then 0
  else if (310 : Int) < width n + ten then 0x7ff0000000000000
  else if width n + ten < (-330 : Int) then 0
  else
    let (up, down) := scale 0 ten
    let num := n * up
    let least := max (-1074) ((num.log2 : Int) - down.log2 - 53)
    let (shrink, grow) := scale least 0
    -- The logarithms tell the exponent up to one.
    let two := if Nat.pow 2 53 * (down * shrink) ≤ num * grow then least + 1 else least
    let (shrink, grow) := scale two 0
    let bits := (two + 1074).toNat * Nat.pow 2 52 + nearest (num * grow) (down * shrink)
    min bits 0x7ff0000000000000

end Binary64

end ShowControl.Decimal

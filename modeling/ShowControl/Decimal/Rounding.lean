/-! Exact rounding of fractions, in natural numbers.

A positive quantity is given as a product `n * 2 ^ two * 10 ^ ten` with integer exponents. -/

set_option autoImplicit false
namespace ShowControl.Decimal

/-- The integer nearest to `num / den`, and of two equally near ones the even one. -/
def nearest (num den : Nat) : Nat :=
  let q := num / den
  let r := num % den
  if 2 * r < den then q else if den < 2 * r then q + 1 else q + q % 2

def scale (two ten : Int) : Nat × Nat :=
  (Nat.pow 2 two.toNat * Nat.pow 10 ten.toNat, Nat.pow 2 (-two).toNat * Nat.pow 10 (-ten).toNat)

def width (n : Nat) : Nat := (Nat.toDigits 10 n).length

/-- The place of the leading digit of `num / den`: the least `k` with `num / den < 10 ^ k`. -/
def leadingPlace (num den : Nat) : Int :=
  let k : Int := (width num : Int) - width den
  -- The widths tell the place up to one.
  let (up, down) := scale 0 k
  if den * up ≤ num * down then k + 1 else k

/-- `n * 2 ^ two` to `places` significant digits: the digits as one number and the place of its last
one. -/
def significant (places n : Nat) (two : Int) : Nat × Int :=
  let (up, down) := scale two 0
  let k := leadingPlace (n * up) down
  let (up, down) := scale two (places - k)
  (nearest (n * up) down, k - places)

def fixed (places n : Nat) (two : Int) : Nat :=
  let (up, down) := scale two places
  nearest (n * up) down

theorem nearest_mul_right (n : Nat) {den : Nat} (h : 0 < den) : nearest (n * den) den = n := by
  simp [nearest, Nat.mul_div_cancel _ h, h]

theorem two_mul_nearest_mul_le (num den : Nat) : 2 * (nearest num den * den) ≤ 2 * num + den := by
  have split := Nat.div_add_mod num den
  rw [Nat.mul_comm] at split
  simp only [nearest]
  split
  · omega
  · split
    · rw [Nat.add_mul]; omega
    · have parity : num / den % 2 ≤ 1 := by omega
      have : num / den % 2 * den ≤ 1 * den := Nat.mul_le_mul_right den parity
      rw [Nat.add_mul]; omega

end ShowControl.Decimal

import ShowControl.Decimal.Binary64

/-! How a number is written: which digits, and where the point and the exponent stand. -/

set_option autoImplicit false
namespace ShowControl.Decimal

/-- Where the positional form ends and whether it always has a point. -/
structure Style where
  least : Int
  limit : Int
  pointed : Bool

/-- The style of the shortest form: positional from `0.0001` up to `1e16`, always with a point. -/
def Style.full : Style := ⟨-4, 16, true⟩

def Style.brief : Style := ⟨-4, 6, false⟩

def digitsOf (n : Nat) : List Char := Nat.toDigits 10 n

def exponentText (e : Int) : List Char :=
  let digits := digitsOf e.natAbs
  (if e < 0 then '-' else '+') :: (if digits.length < 2 then '0' :: digits else digits)

def Style.write (style : Style) (n : Nat) (ten : Int) : List Char :=
  let all := digitsOf n
  let digits := match all with
    | [] => []
    | d :: rest => d :: (rest.reverse.dropWhile (· == '0')).reverse
  let point := ten + all.length
  let exponent := point - 1
  if style.least ≤ exponent && exponent < style.limit then
    if point ≤ 0 then '0' :: '.' :: List.replicate (-point).toNat '0' ++ digits
    else if digits.length ≤ point.toNat then
      digits ++ List.replicate (point.toNat - digits.length) '0'
        ++ if style.pointed then ['.', '0'] else []
    else digits.take point.toNat ++ '.' :: digits.drop point.toNat
  else match digits with
    | [] => []
    | [d] => d :: 'e' :: exponentText exponent
    | d :: rest => d :: '.' :: rest ++ 'e' :: exponentText exponent

/-- The decimals that read back as the double `mantissa * 2 ^ exponent`, in quarters of its last
binary place: least, value, greatest. The ends belong to them for an even mantissa. Below a power of
two the next double is nearer. -/
def readBackQuarters (mantissa : Nat) (exponent : Int) : Nat × Nat × Nat :=
  let low := if mantissa = Nat.pow 2 52 ∧ -1074 < exponent then 1 else 2
  (4 * mantissa - low, 4 * mantissa, 4 * mantissa + 2)

/-- The number with `places` digits that reads back as the double and is nearest to it, if there is
one: only the two neighbours of the double on the grid of the last place can be it. -/
def readBackOn (places mantissa : Nat) (exponent place : Int) : Option Nat :=
  let (low, value, high) := readBackQuarters mantissa exponent
  let (up, down) := scale (exponent - 2) (-place)
  let floor := value * up / down
  let inside (c : Nat) : Bool :=
    if mantissa % 2 = 0 then low * up ≤ c * down && c * down ≤ high * up
    else low * up < c * down && c * down < high * up
  let below := value * up - floor * down
  let above := (floor + 1) * down - value * up
  let preferFloor := below < above || (below == above && floor % 2 == 0)
  if places = 0 then none
  else match inside floor && 0 < floor, inside (floor + 1) with
    | true, true => some (if preferFloor then floor else floor + 1)
    | true, false => some floor
    | false, true => some (floor + 1)
    | false, false => none

/-- The shortest decimal that reads back as `mantissa * 2 ^ exponent`: its digits as one number and
the place of the last one. Seventeen digits always suffice. -/
def shortestDigits (mantissa : Nat) (exponent : Int) : Nat × Int :=
  let (up, down) := scale exponent 0
  let k := leadingPlace (mantissa * up) down
  let candidates := (List.range 18).filterMap fun places =>
    (readBackOn places mantissa exponent (k - places)).map fun n => (n, k - (places : Int))
  candidates.headD (significant 17 mantissa exponent)

def Binary64.write (digits : Nat → Int → List Char) : Binary64 → String
  | .undefined => "nan"
  | .infinite false => "inf"
  | .infinite true => "-inf"
  | .finite false m e => String.ofList (digits m e)
  | .finite true m e => String.ofList ('-' :: digits m e)

def Binary64.shortest : Binary64 → String :=
  Binary64.write fun m e =>
    if m = 0 then Style.full.write 0 0
    else let (n, ten) := shortestDigits m e; Style.full.write n ten

def Binary64.brief : Binary64 → String :=
  Binary64.write fun m e =>
    if m = 0 then Style.brief.write 0 0
    else let (n, ten) := significant 6 m e; Style.brief.write n ten

def Binary64.tenths : Binary64 → String :=
  Binary64.write fun m e =>
    let n := fixed 1 m e
    digitsOf (n / 10) ++ '.' :: digitsOf (n % 10)

end ShowControl.Decimal

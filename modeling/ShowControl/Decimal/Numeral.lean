import ShowControl.Text.Blank
import ShowControl.Text.Digit

/-! Numbers as they are written in a script or a setting.

Blanks may stand around a numeral, single underscores between its digits, and its digits may be the
decimal digits of any script. -/

set_option autoImplicit false
namespace ShowControl.Decimal

inductive Numeral where
  | finite (negative : Bool) (digits : Nat) (exponent : Int)
  | infinite (negative : Bool)
  | undefined (negative : Bool)
  deriving DecidableEq, Repr

inductive IntegerFault where
  | malformed
  | tooLong (digits : Nat)
  deriving DecidableEq, Repr

def digitLimit : Nat := 4300

def ofDigits (digits : List Nat) : Nat := digits.foldl (fun n d => 10 * n + d) 0

def plainChars (s : String) : List Char :=
  (Text.trimChars Text.isPadding s.toList).map fun c =>
    match Text.digit? c with
    | some d => Char.ofNat (0x30 + d)
    | none => c

def takeSign : List Char → Bool × List Char
  | '-' :: rest => (true, rest)
  | '+' :: rest => (false, rest)
  | cs => (false, cs)

def digitValues (cs : List Char) : List Nat := cs.filterMap Text.digit?

/-- No underscore stands first, last, or behind another one. -/
def wellSpaced : List Char → Bool
  | [] => true
  | '_' :: _ => false
  | [_] => true
  | _ :: '_' :: rest => !rest.isEmpty && wellSpaced rest
  | _ :: rest => wellSpaced rest

/-- Reads an integer. Too many digits are found out before anything that follows them. -/
def readInteger (s : String) : Except IntegerFault Int :=
  let (negative, cs) := takeSign (plainChars s)
  let run := cs.takeWhile fun c => c.isDigit || c == '_'
  let digits := digitValues run
  if run.isEmpty || !wellSpaced run then .error .malformed
  else if digitLimit < digits.length then .error (.tooLong digits.length)
  else if run.length < cs.length then .error .malformed
  else .ok (if negative then -(ofDigits digits : Int) else ofDigits digits)

def dropUnderscores (previous : Char) : List Char → Option (List Char)
  | [] => if previous == '_' then none else some []
  | '_' :: rest => if previous.isDigit then dropUnderscores '_' rest else none
  | c :: rest =>
    if previous == '_' && !c.isDigit then none
    else (dropUnderscores c rest).map (c :: ·)

/-- Reads the exponent at the end of a numeral; nothing at all is the exponent zero. -/
def readExponent : List Char → Option Int
  | [] => some 0
  | e :: rest =>
    if e == 'e' || e == 'E' then
      let (negative, digits) := takeSign rest
      if !digits.isEmpty && digits.all Char.isDigit then
        let n := ofDigits (digitValues digits)
        some (if negative then -(n : Int) else n)
      else none
    else none

def readNumeral (s : String) : Option Numeral := do
  let cs ← dropUnderscores ' ' (plainChars s)
  let (negative, body) := takeSign cs
  let word := String.ofList (body.map Char.toLower)
  if word == "inf" || word == "infinity" then some (.infinite negative)
  else if word == "nan" then some (.undefined negative)
  else
    let whole := body.takeWhile Char.isDigit
    let rest := body.dropWhile Char.isDigit
    let (fraction, rest) := match rest with
      | '.' :: rest => (rest.takeWhile Char.isDigit, rest.dropWhile Char.isDigit)
      | rest => ([], rest)
    if whole.isEmpty && fraction.isEmpty then none
    else
      let exponent ← readExponent rest
      some (.finite negative (ofDigits (digitValues (whole ++ fraction)))
        (exponent - (fraction.length : Int)))

end ShowControl.Decimal

import ShowControl.Number
import ShowControl.Text.Case
import ShowControl.Text.Quoted

/-! Typed property values.

A script tags each property value with a type: `int`, `float`, `string`, or the name of an
enumeration. The text is read as that type when the value is applied. -/

set_option autoImplicit false
namespace ShowControl

inductive Orientation where
  | identity
  | right90
  | half
  | left90
  deriving DecidableEq, Repr

namespace Orientation

def all : List Orientation := [identity, right90, half, left90]

def name : Orientation → String
  | identity => "IDENTITY"
  | right90 => "ROTATE_90R"
  | half => "ROTATE_180"
  | left90 => "ROTATE_90L"

def shortName : Orientation → String
  | identity => "identity"
  | right90 => "90r"
  | half => "180"
  | left90 => "90l"

def ofIndex? (n : Int) : Option Orientation :=
  if n < 0 then none else all[n.toNat]?

end Orientation

inductive PropertyType where
  | int
  | float
  | string
  | orientation
  deriving DecidableEq, Repr

namespace PropertyType

def all : List PropertyType := [int, float, string, orientation]

def name : PropertyType → String
  | int => "int"
  | float => "float"
  | string => "string"
  | orientation => "GstOrientation"

def ofName? (name : String) : Option PropertyType := all.find? fun t => t.name = name

end PropertyType

inductive PropertyValue where
  | int (n : Int)
  | float (x : Scalar)
  | string (s : String)
  | orientation (o : Orientation)

namespace PropertyValue

def type : PropertyValue → PropertyType
  | int _ => .int
  | float _ => .float
  | string _ => .string
  | orientation _ => .orientation

def text : PropertyValue → String
  | int n => s!"int:{n}"
  | float x =>
    let digits := Number.shortest x
    s!"float:{digits}"
  | string s => s!"string:{s}"
  | orientation o => s!"GstOrientation.{o.name}"

end PropertyValue

inductive PropertyFault where
  | unreadable (type : PropertyType) (raw : String)
  | intRange (n : Int)
  | floatRange (raw : String)
  | unknownIndex (word : String)
  | unknownMember (word : String)
  deriving DecidableEq, Repr

def PropertyFault.message : PropertyFault → String
  | unreadable type raw =>
    let shown := Text.quoted raw
    s!"Unable to parse {shown} as {type.name}"
  | intRange n => s!"Value {n} out of range for int"
  | floatRange raw =>
    let shown := Text.quoted raw
    s!"Value {shown} out of range for float"
  | unknownIndex word => s!"Unknown GstOrientation index: {word}"
  | unknownMember word => s!"Unknown GstOrientation value: {word}"

/-- The integers that a property holds: 32 bits with a sign. -/
def PropertyValue.inRange (n : Int) : Bool := -2147483648 ≤ n && n ≤ 2147483647

/-- Reads an orientation. The short spellings come first, for `180` is also a number; then a text of
digits is an index, and any other text has to be the name of a member. -/
def Orientation.read (raw : String) : Except PropertyFault Orientation :=
  let word := Text.trim raw
  match all.find? fun o => o.shortName = Text.lower word with
  | some o => .ok o
  | none =>
    let digits := word.toList.dropWhile (· == '-')
    if !digits.isEmpty && digits.all Text.isDigit then
      match Decimal.readInteger word with
      | .error _ => .error (.unknownIndex word)
      | .ok n => match ofIndex? n with
        | some o => .ok o
        | none => .error (.unknownIndex word)
    else match all.find? fun o => o.name = Text.upper word with
      | some o => .ok o
      | none => .error (.unknownMember word)

def PropertyType.read (type : PropertyType) (raw : String) : Except PropertyFault PropertyValue :=
  match type with
  | string => .ok (.string raw)
  | int =>
    match Decimal.readInteger (Text.trim raw) with
    | .error _ => .error (.unreadable int raw)
    | .ok n => if PropertyValue.inRange n then .ok (.int n) else .error (.intRange n)
  | float =>
    match Decimal.readNumeral (Text.trim raw) with
    | none => .error (.unreadable float raw)
    | some n => match Number.ofNumeral? n with
      | none => .error (.floatRange raw)
      | some x => .ok (.float x)
  | orientation => (Orientation.read raw).map .orientation

end ShowControl

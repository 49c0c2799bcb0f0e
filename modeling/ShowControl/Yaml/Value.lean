import ShowControl.Config.Setting
import ShowControl.Text.Case
import ShowControl.Yaml.Node

/-! The settings that the parts of a document stand for. -/

set_option autoImplicit false
namespace ShowControl.Yaml

def splitAt (separator : Char) : List Char → List (List Char)
  | [] => [[]]
  | c :: rest =>
    if c = separator then [] :: splitAt separator rest
    else match splitAt separator rest with
      | [] => [[c]]
      | part :: parts => (c :: part) :: parts

def digitsOf (s : String) : Except Fault (Bool × List Char) :=
  match s.toList.filter (· ≠ '_') with
  | [] => .error .noDigits
  | cs => .ok (Decimal.takeSign cs)

def readInteger (cs : List Char) : Except Fault Int :=
  (Decimal.readInteger (String.ofList cs)).mapError fun _ => .number

def readInBase (base : Nat) (mark : Char) (cs : List Char) : Except Fault Int :=
  let (negative, body) := Decimal.takeSign (Decimal.plainChars (String.ofList cs))
  let digits := match body with
    | '0' :: c :: rest => if c.toLower = mark then rest else body
    | body => body
  match digits.mapM fun c => (hexDigit? c).filter (· < base) with
  | some (d :: digits) =>
    let n : Nat := (d :: digits).foldl (fun n d => base * n + d) 0
    .ok (if negative then -(n : Int) else n)
  | _ => .error .number

def integerOfDigits (cs : List Char) : Except Fault Int :=
  match cs with
  | [] => .error .noDigits
  | ['0'] => .ok 0
  | '0' :: 'b' :: rest => readInBase 2 'b' rest
  | '0' :: 'x' :: rest => readInBase 16 'x' rest
  | '0' :: _ => readInBase 8 'o' cs
  | cs =>
    if cs.contains ':' then do
      let places ← (splitAt ':' cs).mapM readInteger
      return places.foldl (fun n d => 60 * n + d) 0
    else readInteger cs

def integerOf (s : String) : Except Fault Int := do
  let (negative, cs) ← digitsOf s
  let n ← integerOfDigits cs
  return if negative then -n else n

/-- Adds up the places of a number in base sixty, from the last one on. -/
def sumPlaces (base : Nat) (sum : Scalar) : List Scalar → Except Fault Scalar
  | [] => .ok sum
  | place :: rest =>
    match Number.ofNumeral? (.finite false base 0) with
    | none => .error .tooManyPlaces
    | some unit => sumPlaces (60 * base) (sum + place * unit) rest

def readReal (cs : List Char) : Except Fault Scalar :=
  match Decimal.readNumeral (String.ofList cs) with
  | some n => .ok (.ofNumeral n)
  | none => .error .number

def realOf (s : String) : Except Fault Scalar := do
  let (negative, cs) ← digitsOf s
  let sign : Scalar := if negative then 0 - 1 else 1
  let word := String.ofList (cs.map Char.toLower)
  if word = ".inf" then return .ofNumeral (.infinite negative)
  else if word = ".nan" then return .undefined true
  else if cs.contains ':' then do
    let places ← (splitAt ':' cs).mapM readReal
    return sign * (← sumPlaces 1 0 places.reverse)
  else return sign * (← readReal cs)

def flagOf (s : String) : Except Fault Bool :=
  let word := Text.lower s
  if Tag.trueWords.contains word then .ok true
  else if Tag.falseWords.contains word then .ok false
  else .error .noTruthValue

def digit64? (c : Char) : Option Nat :=
  if 'A' ≤ c ∧ c ≤ 'Z' then some (c.toNat - 0x41)
  else if 'a' ≤ c ∧ c ≤ 'z' then some (c.toNat - 0x47)
  else if '0' ≤ c ∧ c ≤ '9' then some (c.toNat + 4)
  else if c = '+' then some 62
  else if c = '/' then some 63
  else none

/-- The octets of a text in base 64. `filled` digits of a group of four have been read, whose bits
without an octet of their own yet are `bits`, and `marks` equals signs behind them. Other characters
do not count. -/
def octetsFrom64 (filled bits marks : Nat) : List Char → Except Fault (List UInt8)
  | [] => if filled = 0 then .ok [] else .error .construction
  | c :: rest =>
    if c = '=' then
      if 2 ≤ filled && 4 ≤ filled + marks + 1 then .ok []
      else octetsFrom64 filled bits (if 2 ≤ filled then marks + 1 else marks) rest
    else match digit64? c with
      | none => octetsFrom64 filled bits marks rest
      | some d =>
        match filled with
        | 0 => octetsFrom64 1 d 0 rest
        | 1 => (octetsFrom64 2 (d % 16) 0 rest).map (UInt8.ofNat (bits * 4 + d / 16) :: ·)
        | 2 => (octetsFrom64 3 (d % 4) 0 rest).map (UInt8.ofNat (bits * 16 + d / 4) :: ·)
        | _ => (octetsFrom64 0 0 0 rest).map (UInt8.ofNat (bits * 64 + d) :: ·)

section

open Text.Pattern

def upToTwoDigits : Text.Pattern := seq digit (optional digit)

def twoDigits : Text.Pattern := seq digit digit

def timeZone : Text.Pattern :=
  oneOf [word "Z", chain [letter "+-", upToTwoDigits, optional (seq (letter ":") twoDigits)]]

def timeOfDay : Text.Pattern :=
  chain [upToTwoDigits, letter ":", twoDigits, letter ":", twoDigits,
    optional (seq (letter ".") (many digit)), optional (seq (many (letter " \t")) timeZone)]

def dateForm : Text.Pattern :=
  chain [twoDigits, twoDigits, letter "-", upToTwoDigits, letter "-", upToTwoDigits,
    optional (seq (either (letter "Tt") (Text.Pattern.some (letter " \t"))) timeOfDay)]

end

def leaf? (tag : Tag) (s : String) : Option (Except Fault Setting) :=
  match tag with
  | .text => some (.ok (.text s))
  | .integer => some ((integerOf s).map .integer)
  | .real => some ((realOf s).map .real)
  | .flag => some ((flagOf s).map .flag)
  | .missing => some (.ok .missing)
  | .octets =>
    some (if s.toList.all fun c => c.toNat < 0x80 then (octetsFrom64 0 0 0 s.toList).map .octets
      else .error .construction)
  | .date => some (if dateForm.admits s.toList then .ok .foreign else .error .noDate)
  | _ => none

/-- A value that is put together, or the fault that keeps it from being and the depth of that. The
outermost fault counts, and of several at one depth the first. -/
abbrev Reading (α : Type) : Type := Except (Nat × Fault) α

namespace Reading

def both {α β : Type} (a : Reading α) (b : Reading β) : Reading (α × β) :=
  match a, b with
  | .ok a, .ok b => .ok (a, b)
  | .error x, .error y => .error (if y.1 < x.1 then y else x)
  | .error x, .ok _ => .error x
  | .ok _, .error y => .error y

def all {α : Type} : List (Reading α) → Reading (List α)
  | [] => .ok []
  | a :: rest => (both a (all rest)).map fun (a, rest) => a :: rest

end Reading

namespace Node

def tag : Node → Tag
  | scalar tag _ | list tag _ | map tag _ => tag
  | enclosing => .other

/-- The text of a part that has to be one. Of a map, the text under its standard key counts. -/
def text? : Node → Option String
  | scalar _ s => some s
  | map _ entries =>
    match entries.find? fun e => e.1.tag = .standard with
    | some (_, .scalar _ s) => some s
    | _ => none
  | _ => none

def hasDistinctKeys (entries : List (Node × Node)) : Bool :=
  (entries.filterMap fun (key, _) => match key with
    | scalar .text s => some s
    | _ => none).Nodup

def merged : Nat → List (Node × Node) → Except Fault (List (Node × Node))
  | 0, _ => .error .endless
  | fuel + 1, entries => do
    let taken ← (entries.filter fun e => e.1.tag = .merge).mapM fun
      | (_, map _ inner) => merged fuel inner
      | (_, list _ parts) => do
        let parts ← parts.mapM fun
          | map _ inner => merged fuel inner
          | _ => .error .construction
        return parts.reverse.flatten
      | _ => .error .construction
    return taken.flatten ++ entries.filter fun e => e.1.tag ≠ .merge

/-- A key, which has to be a text with the tag of one. The standard key is the text of an equals
sign. -/
def key (node : Node) : Except Fault Key :=
  if node.tag = .standard then
    match node with
    | scalar _ s => .ok (.text s)
    | _ => .error .construction
  else match node.text?.bind (leaf? node.tag) with
    | none => .error .construction
    | some v => v.bind fun
      | .missing => .ok .missing
      | .flag b => .ok (.flag b)
      | .integer n => .ok (.integer n)
      | .real x => .ok (.real x)
      | .text s => .ok (.text s)
      | .octets b => .ok (.octets b)
      | .foreign => .ok .foreign
      | .list _ | .group _ => .error .construction

def entries (fuel : Nat) : Node → Except Fault (List (Node × Node))
  | map _ entries => if hasDistinctKeys entries then merged fuel entries else .error .construction
  | list _ (_ :: _) => .error .listAsMap
  | scalar _ s => .error (if s.isEmpty then .construction else .number)
  | _ => .error .construction

def setting : Nat → Nat → Node → Reading Setting
  | 0, depth, _ => .error (depth, .endless)
  | _ + 1, depth, enclosing => .error (depth, .endless)
  | fuel + 1, depth, node =>
    let inside {α : Type} (x : Except Fault α) : Reading α := x.mapError (depth + 1, ·)
    let group (_ : Unit) : Reading (List (Key × Setting)) := do
      let entries ← inside (node.entries fuel)
      Reading.all <| entries.map fun (key, v) =>
        Reading.both (inside key.key) (setting fuel (depth + 1) v)
    match node.tag with
    | .list => match node with
      | list _ items => (Reading.all (items.map (setting fuel (depth + 1)))).map .list
      | _ => .error (depth + 1, .construction)
    | .map => (group ()).map fun entries =>
        .group (entries.foldl (fun done (key, v) => Setting.assignEntry key v done) [])
    | .set => (group ()).map fun _ => .foreign
    | .pairs => match node with
      | list _ items =>
        (Reading.all <| items.map fun
          | map _ [(key, v)] =>
            (Reading.both (setting fuel (depth + 1) key) (setting fuel (depth + 1) v)).map
              fun (key, v) => .list [key, v]
          | _ => .error (depth + 1, .construction)).map .list
      | _ => .error (depth + 1, .construction)
    | tag => match node.text?.bind (leaf? tag) with
      | some v => v.mapError (depth, ·)
      | none => .error (depth, .construction)

end Node

end ShowControl.Yaml

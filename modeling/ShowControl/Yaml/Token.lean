import ShowControl.Yaml.Scalar

/-! The tokens of a document, and how those are written that start with a mark of their own. -/

set_option autoImplicit false
namespace ShowControl.Yaml

inductive Token where
  | documentEnd
  | documentStart
  | streamEnd
  | version (major minor : Nat)
  | shorthand (name lead : String)
  | blockList
  | blockMap
  | blockEnd
  | listStart
  | listEnd
  | mapStart
  | mapEnd
  | item
  | comma
  | key
  | value
  | anchor (name : String)
  | mention (name : String)
  | tag (handle rest : String)
  | scalar (text : String) (plain : Bool)
  deriving DecidableEq, Repr

namespace Token

def readName (c : Cursor) : Except Fault (String × Cursor) :=
  let (name, next) := (c.skip 1).split isNameChar
  let ends := next.isGapAt 0 ||
    next.rest.head?.any fun d => ['?', ':', ',', ']', '}', '%', '@', '\u0060'].contains d
  if name.isEmpty || !ends then .error .token else .ok (String.ofList name, next)

/-- The characters that a tag may hold; one that is given in full may hold three more. -/
def isTagChar (full : Bool) (c : Char) : Bool :=
  isNameChar c || ";/?:@&=+$.!~*'()".toList.contains c || (full && [',', '[', ']'].contains c)

def readOctet : List Char → Option (Nat × List Char)
  | '%' :: a :: b :: rest => (hexNumber? [a, b]).map (·, rest)
  | _ => none

/-- How many octets a character takes that starts with this one, and what the first one adds. -/
def octetsFrom (octet : Nat) : Option (Nat × Nat) :=
  if octet < 0x80 then some (0, octet)
  else if octet / 0x20 = 6 then some (1, octet % 0x20)
  else if octet / 0x10 = 14 then some (2, octet % 0x10)
  else if octet / 8 = 30 then some (3, octet % 8)
  else none

def readOctets : Nat → Nat → List Char → Option (Nat × List Char)
  | 0, n, cs => some (n, cs)
  | width + 1, n, cs => do
    let (octet, cs) ← readOctet cs
    if octet / 0x40 = 2 then readOctets width (0x40 * n + octet % 0x40) cs else none

def readEscape (cs : List Char) : Option (Char × List Char) := do
  let (octet, cs) ← readOctet cs
  let (width, n) ← octetsFrom octet
  let (n, cs) ← readOctets width n cs
  return (Char.ofNat n, cs)

def tagChars (full : Bool) : Nat → List Char → Except Fault (List Char × List Char)
  | 0, cs => .ok ([], cs)
  | _ + 1, [] => .ok ([], [])
  | fuel + 1, c :: rest =>
    if c = '%' then match readEscape (c :: rest) with
      | some (d, rest) => (tagChars full fuel rest).map fun (cs, r) => (d :: cs, r)
      | none => .error .token
    else if isTagChar full c then (tagChars full fuel rest).map fun (cs, r) => (c :: cs, r)
    else .ok ([], c :: rest)

def readTagChars (full : Bool) (c : Cursor) : Except Fault (List Char × Cursor) :=
  (tagChars full c.rest.length c.rest).map fun (cs, rest) =>
    (cs, c.skip (c.rest.length - rest.length))

def readHandle (c : Cursor) : Except Fault (List Char × Cursor) :=
  match c.rest with
  | '!' :: _ =>
    let (name, next) := (c.skip 1).split isNameChar
    if next.rest.head? = some '!' then .ok ('!' :: name ++ ['!'], next.skip 1)
    else .ok ('!' :: name, next)
  | _ => .error .token

/-- The handle and the rest of a tag. A single exclamation mark is the rest of a tag without one. -/
def readTagParts (c : Cursor) : Except Fault (List Char × List Char × Cursor) := do
  if (c.skip 1).startsWith "<" then
    let (rest, next) ← readTagChars true (c.skip 2)
    if rest.isEmpty || next.rest.head? ≠ some '>' then throw .token
    return ([], rest, next.skip 1)
  else
    let (handle, next) ← readHandle c
    let (rest, next) ← readTagChars false next
    if handle.length > 1 && handle.getLast? = some '!' then
      if rest.isEmpty then throw .token
      return (handle, rest, next)
    else match handle.drop 1 ++ rest with
      | [] => return ([], ['!'], next)
      | rest => return (['!'], rest, next)

def readTag (flow : Bool) (c : Cursor) : Except Fault (Token × Cursor) := do
  let (handle, rest, next) ← readTagParts c
  if next.isGapAt 0 || (flow && next.rest.head? = some ',') then
    return (tag (String.ofList handle) (String.ofList rest), next)
  else throw .token

def readNumber (c : Cursor) : Except Fault (Nat × Cursor) :=
  let (digits, next) := c.split Char.isDigit
  if digits.isEmpty || 9 < digits.length then .error .token
  else .ok (digits.foldl (fun n d => 10 * n + (d.toNat - 0x30)) 0, next)

def readVersion (c : Cursor) : Except Fault (Token × Cursor) := do
  let (major, next) ← readNumber (c.skipWhile isBlank)
  if next.rest.head? ≠ some '.' then throw .token
  let (minor, next) ← readNumber (next.skip 1)
  return (version major minor, next)

def readHandleDirective (c : Cursor) : Except Fault (Token × Cursor) := do
  let (name, next) ← readHandle (c.skipWhile isBlank)
  if name.length > 1 && name.getLast? ≠ some '!' then throw .token
  unless next.atBlank do throw .token
  let (lead, next) ← readTagChars true (next.skipWhile isBlank)
  if lead.isEmpty || !next.isGapAt 0 then throw .token
  return (shorthand (String.ofList name) (String.ofList lead), next)

def readDirective (c : Cursor) : Except Fault (Token × Cursor) := do
  let (name, next) := (c.skip 1).split isNameChar
  unless next.isGapAt 0 do throw .token
  let (token, next) ←
    if name = "YAML".toList then readVersion next
    else if name = "TAG".toList then readHandleDirective next
    else throw .token
  let next := (next.skipWhile isBlank).skipComment
  unless next.atLineEnd do throw .token
  return (token, next.nextLine)

end Token

end ShowControl.Yaml

/-! The characters of a document, and a place in it. -/

set_option autoImplicit false
namespace ShowControl.Yaml

inductive Fault where
  | character
  /-- A character or word that may not stand where it does. -/
  | token
  /-- Parts that do not fit together. -/
  | arrangement
  /-- A second document, a name that is given twice, or a mention of nothing. -/
  | composition
  /-- A key that comes twice or is no word, or a tag that does not fit. -/
  | construction
  | number
  | noDigits
  | tooManyPlaces
  | noTruthValue
  | noDate
  | listAsMap
  | endless
  deriving DecidableEq, Repr

def isBlank (c : Char) : Bool := c = ' ' || c = '\t'

def isBreak (c : Char) : Bool :=
  c = '\n' || c = '\r' || c = '\u0085' || c = '\u2028' || c = '\u2029'

def isAllowed (c : Char) : Bool :=
  let n := c.toNat
  n = 9 || n = 10 || n = 13 || (0x20 ≤ n && n ≤ 0x7e) || n = 0x85 ||
    (0xa0 ≤ n && n ≠ 0xfffe && n ≠ 0xffff)

def isNameChar (c : Char) : Bool := c.isAlphanum || c = '_' || c = '-'

def isFlowMark (c : Char) : Bool := [',', '[', ']', '{', '}'].contains c

structure Cursor where
  rest : List Char
  index : Nat
  line : Nat
  column : Nat

namespace Cursor

def start (text : List Char) : Cursor := ⟨text, 0, 0, 0⟩

def skip (n : Nat) (c : Cursor) : Cursor := ⟨c.rest.drop n, c.index + n, c.line, c.column + n⟩

def skipWhile (p : Char → Bool) (c : Cursor) : Cursor := c.skip (c.rest.takeWhile p).length

def split (p : Char → Bool) (c : Cursor) : List Char × Cursor :=
  (c.rest.takeWhile p, c.skipWhile p)

def startsWith (s : String) (c : Cursor) : Bool := s.toList.isPrefixOf c.rest

def isGapAt (n : Nat) (c : Cursor) : Bool :=
  (c.rest.drop n).head?.all fun d => isBlank d || isBreak d

def atBlank (c : Cursor) : Bool := c.rest.head?.any isBlank

def atBreak (c : Cursor) : Bool := c.rest.head?.any isBreak

def atLineEnd (c : Cursor) : Bool := c.rest.head?.all isBreak

/-- Passes over a line break. The answer has the form in which a text keeps it: all but two kinds
become line feeds. -/
def takeBreak? (c : Cursor) : Option (Char × Cursor) :=
  match c.rest with
  | [] => none
  | '\r' :: '\n' :: rest => some ('\n', ⟨rest, c.index + 2, c.line + 1, 0⟩)
  | b :: rest =>
    if isBreak b then
      some (if b = '\u2028' || b = '\u2029' then b else '\n', ⟨rest, c.index + 1, c.line + 1, 0⟩)
    else none

def nextLine (c : Cursor) : Cursor := (c.takeBreak?.map Prod.snd).getD c

def skipComment (c : Cursor) : Cursor :=
  if c.rest.head? = some '#' then c.skipWhile fun d => !isBreak d else c

/-- Whether the line starts with three characters that stand between documents. -/
def atMarker (marker : String) (c : Cursor) : Bool :=
  c.column = 0 && c.startsWith marker && c.isGapAt 3

def atBoundary (c : Cursor) : Bool := c.atMarker "---" || c.atMarker "..."

end Cursor

end ShowControl.Yaml

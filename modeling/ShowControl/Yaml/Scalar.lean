import ShowControl.Yaml.Cursor
import ShowControl.Text.Digit

/-! Texts as they are written in a document: plain, in quotes, or as a block of lines.

Between the words of a plain or quoted text one line break counts as a space, and of several the first
one is dropped. -/

set_option autoImplicit false
namespace ShowControl.Yaml

structure Gap where
  blanks : List Char
  broken : Bool
  /-- The break that ended it, unless it was taken back. -/
  first : Option Char
  more : List Char

namespace Gap

def none : Gap := ⟨[], false, .none, []⟩

def folded (g : Gap) : List Char :=
  if g.broken then
    match g.first, g.more with
    | some '\n', [] => [' ']
    | some '\n', more => more
    | first, more => first.toList ++ more
  else g.blanks

/-- Reads blanks and line breaks. At the start of a line no tab may stand in front of the column
`limit`. -/
def read (limit : Int) : Nat → Gap → Cursor → Except Fault (Gap × Cursor)
  | 0, g, c => .ok (g, c)
  | fuel + 1, g, c =>
    match c.rest, c.takeBreak? with
    | _, some (b, next) =>
      if g.broken then read limit fuel { g with more := g.more ++ [b] } next
      else read limit fuel { g with broken := true, first := some b } next
    | d :: _, .none =>
      if !isBlank d then .ok (g, c)
      else if !g.broken then read limit fuel { g with blanks := g.blanks ++ [d] } (c.skip 1)
      else if d = '\t' && c.column < limit then .error .token
      else read limit fuel g (c.skip 1)
    | [], .none => .ok (g, c)

end Gap

structure Written where
  text : List Char
  broken : Bool
  next : Cursor

/-- The end of a word in a plain text: a blank, a line break, a colon that ends a key, and in brackets
their marks. -/
def plainRun (flow : Bool) : List Char → Except Fault (List Char)
  | [] => .ok []
  | c :: rest =>
    let gapFollows := rest.head?.all fun d => isBlank d || isBreak d
    if isBlank c || isBreak c then .ok []
    else if flow && c = ':' && rest.head?.any fun d => d = '?' || isFlowMark d then .error .token
    else if (c = ':' && gapFollows) || (flow && isFlowMark c) then .ok []
    else (plainRun flow rest).map (c :: ·)

def plainFrom (flow : Bool) (limit : Int) : Nat → Gap → Cursor → Except Fault Written
  | 0, gap, c => .ok ⟨[], gap.broken, c⟩
  | fuel + 1, gap, c =>
    if c.atBoundary || c.rest.head? = some '#' then .ok ⟨[], gap.broken, c⟩
    else do
      let word ← plainRun flow c.rest
      let before := if word.isEmpty then [] else gap.folded ++ word
      let gap := if word.isEmpty then gap else .none
      let c := c.skip word.length
      if c.atBlank || c.atBreak then
        let (gap, c) ← Gap.read limit c.rest.length gap c
        if !flow && c.column < limit then return ⟨before, gap.broken, c⟩
        else
          let w ← plainFrom flow limit fuel gap c
          return { w with text := before ++ w.text }
      else return ⟨before, gap.broken, c⟩

def plainText (flow : Bool) (indent : Int) (c : Cursor) : Except Fault Written :=
  plainFrom flow (indent + 1) (c.rest.length + 1) .none c

def escapeOf? : Char → Option Char
  | '0' => some '\x00'
  | 'a' => some '\x07'
  | 'b' => some '\x08'
  | 't' => some '\t'
  | '\t' => some '\t'
  | 'n' => some '\n'
  | 'v' => some '\x0b'
  | 'f' => some '\x0c'
  | 'r' => some '\r'
  | 'e' => some '\x1b'
  | ' ' => some ' '
  | '"' => some '"'
  | '\\' => some '\\'
  | '/' => some '/'
  | 'N' => some '\u0085'
  | '_' => some '\u00a0'
  | 'L' => some '\u2028'
  | 'P' => some '\u2029'
  | _ => none

def hexWidth? : Char → Option Nat
  | 'x' => some 2
  | 'u' => some 4
  | 'U' => some 8
  | _ => none

def hexDigit? (c : Char) : Option Nat :=
  if c.isDigit then some (c.toNat - 0x30)
  else if 'a' ≤ c.toLower ∧ c.toLower ≤ 'f' then some (c.toLower.toNat - 0x57)
  else none

def hexNumber? (cs : List Char) : Option Nat := do
  return (← cs.mapM hexDigit?).foldl (fun n d => 16 * n + d) 0

def hexChar? (width : Nat) (cs : List Char) : Option Char := do
  let digits := cs.take width
  let n ← hexNumber? digits
  if digits.length = width && n.isValidChar then return Char.ofNat n else none

/-- The characters of a quoted text up to a gap, to its end, or to a line break that is taken back by
a backslash in front of it. -/
def quotedRun (double : Bool) : Nat → Cursor → Except Fault Written
  | 0, c => .ok ⟨[], false, c⟩
  | fuel + 1, c =>
    let push (d : Char) (n : Nat) : Except Fault Written := do
      let w ← quotedRun double fuel (c.skip n)
      return { w with text := d :: w.text }
    match double, c.rest with
    | false, '\'' :: '\'' :: _ => push '\'' 2
    | false, '\'' :: _ => .ok ⟨[], false, c⟩
    | true, '"' :: _ => .ok ⟨[], false, c⟩
    | true, '\\' :: d :: rest =>
      if isBreak d then .ok ⟨[], true, (c.skip 1).nextLine⟩
      else match escapeOf? d, hexWidth? d with
        | some e, _ => push e 2
        | none, some width => match hexChar? width rest with
          | some e => push e (2 + width)
          | none => .error .token
        | none, none => .error .token
    | true, ['\\'] => .error .token
    | _, d :: _ => if isBlank d || isBreak d then .ok ⟨[], false, c⟩ else push d 1
    | _, [] => .ok ⟨[], false, c⟩

def quotedFrom (double : Bool) : Nat → Cursor → Except Fault Written
  | 0, _ => .error .token
  | fuel + 1, c =>
    if c.atBoundary || c.rest.isEmpty then .error .token
    else do
      let run ← quotedRun double c.rest.length c
      if run.next.rest.head? = some (if double then '"' else '\'') then
        return ⟨run.text, false, run.next.skip 1⟩
      else
        let (gap, c) ← Gap.read 0 run.next.rest.length { Gap.none with broken := run.broken } run.next
        let w ← quotedFrom double fuel c
        return { w with text := run.text ++ gap.folded ++ w.text }

def quotedText (double : Bool) (c : Cursor) : Except Fault Written :=
  quotedFrom double (c.rest.length + 1) (c.skip 1)

inductive Chomping where
  | strip
  | clip
  | keep
  deriving DecidableEq, Repr

def chomping? : Char → Option Chomping
  | '-' => some .strip
  | '+' => some .keep
  | _ => none

def indentation? (c : Cursor) : Except Fault (Option Nat × Cursor) :=
  match c.rest with
  | d :: _ =>
    if d = '0' then .error .token
    else if d.isDigit then .ok (some (d.toNat - 0x30), c.skip 1)
    else .ok (none, c)
  | [] => .ok (none, c)

def blockHeader (c : Cursor) : Except Fault (Chomping × Option Nat × Cursor) :=
  match c.rest.head?.bind chomping? with
  | some chomping => do
    let (indent, c) ← indentation? (c.skip 1)
    return (chomping, indent, c)
  | none => do
    let (indent, c) ← indentation? c
    match indent, c.rest.head?.bind chomping? with
    | some _, some chomping => return (chomping, indent, c.skip 1)
    | _, _ => return (.clip, indent, c)

/-- Passes over empty lines and the indentation of the next one. The answer has the breaks, and the
widest indentation that was met. If there is no indentation yet, all spaces belong to it. -/
def emptyLines (indent : Option Nat) : Nat → Nat → Cursor → Except Fault (List Char × Nat × Cursor)
  | 0, widest, c => .ok ([], widest, c)
  | fuel + 1, widest, c =>
    let spaces := (c.rest.takeWhile (· = ' ')).length
    let c := c.skip (match indent with
      | none => spaces
      | some indent => min spaces (indent - c.column))
    let widest := max widest c.column
    if indent.all (c.column < ·) && c.rest.head? = some '\t' then .error .token
    else match c.takeBreak? with
      | none => .ok ([], widest, c)
      | some (b, next) =>
        (emptyLines indent fuel widest next).map fun (breaks, r) => (b :: breaks, r)

/-- The lines of a block from one that is not empty. `ending` is the break before it, `empty` the
breaks of the empty lines in between. The answer has the breaks behind the last line. -/
def blockLines (literal : Bool) (indent : Nat) :
    Nat → Bool → Option Char → List Char → Cursor →
      Except Fault (List Char × Option Char × List Char × Cursor)
  | 0, _, ending, empty, c => .ok ([], ending, empty, c)
  | fuel + 1, blankBefore, ending, empty, c =>
    if c.column ≠ indent || c.rest.isEmpty then .ok ([], ending, empty, c)
    else do
      let folds := !literal && ending = some '\n' && !blankBefore && !c.atBlank
      let before :=
        if folds then if empty.isEmpty then [' '] else empty
        else ending.toList ++ empty
      let (line, next) := c.split fun d => !isBreak d
      let (ending, next) := match next.takeBreak? with
        | some (b, next) => (some b, next)
        | none => (none, next)
      let (empty, _, next) ← emptyLines (some indent) (next.rest.length + 1) 0 next
      let (text, r) ← blockLines literal indent fuel c.atBlank ending empty next
      return (before ++ line ++ text, r)

def blockText (literal : Bool) (outer : Int) (c : Cursor) : Except Fault (List Char × Cursor) := do
  let (chomping, given, c) ← blockHeader (c.skip 1)
  let c := (c.skipWhile isBlank).skipComment
  unless c.atLineEnd do throw .token
  let c := c.nextLine
  let given := given.map fun n => (max outer 0).toNat + n
  let (empty, widest, c) ← emptyLines given (c.rest.length + 1) 0 c
  let indent := given.getD (max widest (max (outer + 1) 1).toNat)
  let (text, ending, empty, c) ← blockLines literal indent (c.rest.length + 1) false none empty c
  return (text ++ (if chomping = .strip then [] else ending.toList) ++
    (if chomping = .keep then empty else []), c)

end ShowControl.Yaml

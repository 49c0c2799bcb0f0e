import ShowControl.Yaml.Token

/-! The tokens of a document, one by one as they are asked for.

Whether a word is a key shows only at the colon behind it. So a token is not handed out while it may
still be one, and at the colon the marks of a key and of a map are put in front of it. Blocks have no
marks of their own either: they start where something is indented further and end where it no longer
is. -/

set_option autoImplicit false
namespace ShowControl.Yaml

structure Candidate where
  /-- Only a key can stand there. -/
  required : Bool
  number : Nat
  index : Nat
  line : Nat
  column : Nat

structure TokenStream where
  cursor : Cursor
  queue : List Token
  taken : Nat
  indent : Int
  outer : List Int
  keyAllowed : Bool
  /-- For each of the open brackets, the innermost first, and for what is around them all. -/
  candidates : List (Option Candidate)

abbrev Scan : Type → Type := StateT TokenStream (Except Fault)

namespace TokenStream

def ofText (text : List Char) : TokenStream := ⟨.start text, [], 0, -1, [], true, [none]⟩

def inFlow (s : TokenStream) : Bool := 1 < s.candidates.length

def candidate? (s : TokenStream) : Option Candidate := s.candidates.head?.join

def withCandidate (s : TokenStream) (candidate : Option Candidate) : TokenStream :=
  { s with candidates := candidate :: s.candidates.drop 1 }

def insertAt (s : TokenStream) (number : Nat) (tokens : List Token) : TokenStream :=
  let n := number - s.taken
  { s with queue := s.queue.take n ++ tokens ++ s.queue.drop n }

end TokenStream

namespace Scan

def emit (token : Token) : Scan Unit := modify fun s => { s with queue := s.queue ++ [token] }

def emitMark (token : Token) (n : Nat) : Scan Unit := do
  modify fun s => { s with cursor := s.cursor.skip n }
  emit token

def setKeyAllowed (keyAllowed : Bool) : Scan Unit := modify fun s => { s with keyAllowed }

/-- No key has started at the place that was noted last. -/
def dropCandidate : Scan Unit := do
  if (← get).candidate?.any Candidate.required then throw .token
  modify fun s => s.withCandidate none

def noteCandidate : Scan Unit := do
  let s ← get
  if s.keyAllowed then
    dropCandidate
    let c := s.cursor
    modify fun s => s.withCandidate <| some
      ⟨!s.inFlow && s.indent = c.column, s.taken + s.queue.length, c.index, c.line, c.column⟩

/-- A key is on one line and shorter than 1024 characters. -/
def dropStale : Scan Unit := do
  let s ← get
  let stale (k : Candidate) : Bool := k.line < s.cursor.line || k.index + 1024 < s.cursor.index
  if s.candidates.any fun k => k.any fun k => stale k && k.required then throw .token
  modify fun s => { s with candidates := s.candidates.map fun k => k.filter fun k => !stale k }

/-- Starts a block in a column, unless one has been started there or within brackets. The mark of it
goes in front of the token with a number. -/
def startBlock (column number : Nat) (token : Token) : Scan Unit :=
  modify fun s =>
    if s.inFlow || (column : Int) ≤ s.indent then s
    else ({ s with indent := column, outer := s.indent :: s.outer }).insertAt number [token]

def startBlockHere (token : Token) : Scan Unit := do
  let s ← get
  startBlock s.cursor.column (s.taken + s.queue.length) token

def endBlocks (column : Int) : Scan Unit :=
  modify fun s =>
    if s.inFlow then s
    else
      let ended := (s.indent :: s.outer).takeWhile (column < ·)
      match (s.indent :: s.outer).drop ended.length with
      | indent :: outer =>
        { s with indent, outer, queue := s.queue ++ ended.map fun _ => Token.blockEnd }
      | [] => s

/-- Passes over everything in front of the next token. Tabs may stand where no key can start. -/
def skipToToken : Nat → Scan Unit
  | 0 => return ()
  | fuel + 1 => do
    let s ← get
    let c := if s.cursor.index = 0 && s.cursor.startsWith "\ufeff" then s.cursor.skip 1 else s.cursor
    let tabs := s.inFlow || !s.keyAllowed
    let c := (c.skipWhile fun d => d = ' ' || (tabs && d = '\t')).skipComment
    match c.takeBreak? with
    | none => set { s with cursor := c }
    | some (_, next) =>
      set { s with cursor := next, keyAllowed := s.keyAllowed || !s.inFlow }
      skipToToken fuel

def emitRead (read : Cursor → Except Fault (Token × Cursor)) : Scan Unit := do
  let (token, next) ← read (← get).cursor
  modify fun s => { s with cursor := next }
  emit token

def fetchEnd : Scan Unit := do
  endBlocks (-1)
  dropCandidate
  setKeyAllowed false
  emit .streamEnd

def fetchBetween (read : Scan Unit) : Scan Unit := do
  endBlocks (-1)
  dropCandidate
  setKeyAllowed false
  read

def fetchOpening (token : Token) : Scan Unit := do
  noteCandidate
  modify fun s => { s with candidates := none :: s.candidates }
  setKeyAllowed true
  emitMark token 1

def fetchClosing (token : Token) : Scan Unit := do
  dropCandidate
  modify fun s => if s.inFlow then { s with candidates := s.candidates.drop 1 } else s
  setKeyAllowed false
  emitMark token 1

def fetchComma : Scan Unit := do
  dropCandidate
  setKeyAllowed true
  emitMark .comma 1

def fetchItem : Scan Unit := do
  let s ← get
  unless s.inFlow do
    unless s.keyAllowed do throw .token
    startBlockHere .blockList
  dropCandidate
  setKeyAllowed true
  emitMark .item 1

def fetchKey : Scan Unit := do
  let s ← get
  unless s.inFlow do
    unless s.keyAllowed do throw .token
    startBlockHere .blockMap
  dropCandidate
  setKeyAllowed !s.inFlow
  emitMark .key 1

def fetchValue : Scan Unit := do
  let s ← get
  match s.candidate? with
  | some k =>
    modify fun s => (s.insertAt k.number [.key]).withCandidate none
    startBlock k.column k.number .blockMap
    setKeyAllowed false
  | none =>
    unless s.inFlow do
      unless s.keyAllowed do throw .token
      startBlockHere .blockMap
    setKeyAllowed !s.inFlow
  emitMark .value 1

def fetchWord (read : Cursor → Except Fault (Token × Cursor)) : Scan Unit := do
  noteCandidate
  setKeyAllowed false
  emitRead read

def fetchName (token : String → Token) : Scan Unit :=
  fetchWord fun c => (Token.readName c).map fun (name, next) => (token name, next)

def fetchQuoted (double : Bool) : Scan Unit :=
  fetchWord fun c => (quotedText double c).map fun w => (.scalar (String.ofList w.text) false, w.next)

def fetchLines (literal : Bool) : Scan Unit := do
  dropCandidate
  setKeyAllowed true
  let s ← get
  emitRead fun c => (blockText literal s.indent c).map fun (text, next) =>
    (.scalar (String.ofList text) false, next)

def fetchPlain : Scan Unit := do
  noteCandidate
  let s ← get
  let w ← plainText s.inFlow s.indent s.cursor
  -- Behind a line break in the word, a key may stand again.
  set { s with cursor := w.next, keyAllowed := w.broken }
  emit (.scalar (String.ofList w.text) true)

def startsPlain (flow : Bool) (c : Cursor) : Bool :=
  match c.rest with
  | [] => false
  | d :: rest =>
    if "-?:,[]\x7b\x7d#&*!|>'\"%@\x60".toList.contains d then
      (d = '-' && !rest.head?.any isBlank) || (!flow && (d = '?' || d = ':') && !c.isGapAt 1)
    else !isBlank d && !isBreak d

def fetch : Scan Unit := do
  skipToToken ((← get).cursor.rest.length + 1)
  dropStale
  endBlocks (← get).cursor.column
  let s ← get
  let c := s.cursor
  let flow := s.inFlow
  let stands (d : Char) : Bool := c.rest.head? = some d
  if c.rest.isEmpty then fetchEnd
  else if c.column = 0 && stands '%' then fetchBetween (emitRead Token.readDirective)
  else if c.atMarker "---" then fetchBetween (emitMark .documentStart 3)
  else if c.atMarker "..." then fetchBetween (emitMark .documentEnd 3)
  else if stands '[' then fetchOpening .listStart
  else if stands '{' then fetchOpening .mapStart
  else if stands ']' then fetchClosing .listEnd
  else if stands '}' then fetchClosing .mapEnd
  else if stands ',' then fetchComma
  else if stands '-' && c.isGapAt 1 then fetchItem
  else if stands '?' && (flow || c.isGapAt 1) then fetchKey
  else if stands ':' && (flow || c.isGapAt 1) then fetchValue
  else if stands '*' then fetchName .mention
  else if stands '&' then fetchName .anchor
  else if stands '!' then fetchWord (Token.readTag flow)
  else if stands '|' && !flow then fetchLines true
  else if stands '>' && !flow then fetchLines false
  else if stands '\'' then fetchQuoted false
  else if stands '"' then fetchQuoted true
  else if startsPlain flow c then fetchPlain
  else throw .token

def fill : Nat → Scan Unit
  | 0 => return ()
  | fuel + 1 => do
    unless (← get).queue.isEmpty do dropStale
    let s ← get
    let open? := s.candidates.any fun k => k.any fun k => k.number = s.taken
    -- The mark of a key may still have to go in front of the first token.
    if s.queue.isEmpty || open? then
      fetch
      fill fuel

def peek : Scan Token := do
  fill ((← get).cursor.rest.length + 2)
  return (← get).queue.headD .streamEnd

def advance : Scan Unit := modify fun s => { s with queue := s.queue.drop 1, taken := s.taken + 1 }

end Scan

end ShowControl.Yaml

import ShowControl.Yaml.Plain
import ShowControl.Yaml.TokenStream

/-! The parts of a document, and how they are made of its tokens. -/

set_option autoImplicit false
namespace ShowControl.Yaml

inductive Node where
  | scalar (tag : Tag) (text : String)
  | list (tag : Tag) (items : List Node)
  | map (tag : Tag) (entries : List (Node × Node))
  /-- The mention of a list or map that it stands in. -/
  | enclosing

namespace Node

instance : Inhabited Node := ⟨enclosing⟩

def empty : Node := scalar .missing ""

end Node

structure Draft where
  stream : TokenStream
  handles : List (String × String)
  anchors : List (String × Node)

abbrev Compose : Type → Type := StateT Draft (Except Fault)

namespace Compose

def ofScan {α : Type} (x : Scan α) : Compose α := fun d =>
  (x d.stream).map fun (a, stream) => (a, { d with stream })

def peek : Compose Token := ofScan Scan.peek

def advance : Compose Unit := ofScan Scan.advance

def tagName (handle rest : String) : Compose String := do
  let _ ← peek
  if handle = "" then return rest
  match (← get).handles.lookup handle with
  | some lead => return lead ++ rest
  | none => throw .arrangement

def properties : Compose (Option String × Option String) := do
  match ← peek with
  | .anchor name =>
    advance
    match ← peek with
    | .tag handle rest =>
      advance
      return (some name, some (← tagName handle rest))
    | _ => return (some name, none)
  | .tag handle rest =>
    advance
    match ← peek with
    | .anchor name =>
      advance
      return (some name, some (← tagName handle rest))
    | _ => return (none, some (← tagName handle rest))
  | _ => return (none, none)

def declare (anchor : Option String) (node : Node) : Compose Unit := do
  if let some name := anchor then
    if ((← get).anchors.lookup name).isSome then throw .composition
    modify fun d => { d with anchors := (name, node) :: d.anchors }

def enclosed (anchor : Option String) (read : Compose Node) : Compose Node := do
  declare anchor .enclosing
  let node ← read
  if let some name := anchor then
    modify fun d => { d with anchors := (name, node) :: d.anchors }
  return node

def listTag (tag : Option String) : Tag :=
  match tag with
  | none | some "!" => .list
  | some name => .ofName name

def mapTag (tag : Option String) : Tag :=
  match tag with
  | none | some "!" => .map
  | some name => .ofName name

/-- The tag of a text. A single exclamation mark leaves it to the form of the text. -/
def textTag (tag : Option String) (text : String) (plain : Bool) : Tag :=
  match tag with
  | none => if plain then .ofPlain text else .text
  | some "!" => .ofPlain text
  | some name => .ofName name

def bare (anchor tag : Option String) : Compose Node := do
  if anchor.isNone && tag.isNone then throw .arrangement
  let node := Node.scalar (match tag with
    | none => .missing
    | some "!" => .text
    | some name => .ofName name) ""
  declare anchor node
  return node

mutual

/-- Reads a part. Within a block it may be a block itself; as an entry of a map its items need not be
indented further. -/
def node : Nat → Bool → Bool → Compose Node
  | 0, _, _ => throw .arrangement
  | fuel + 1, inBlock, inMap => do
    match ← peek with
    | .mention name =>
      advance
      match (← get).anchors.lookup name with
      | some node => return node
      | none => throw .composition
    | _ =>
      let (anchor, tag) ← properties
      match ← peek, inBlock, inMap with
      | .item, _, true => enclosed anchor (Node.list (listTag tag) <$> levelItems fuel)
      | .scalar text plain, _, _ =>
        advance
        let node := Node.scalar (textTag tag text plain) text
        declare anchor node
        return node
      | .listStart, _, _ =>
        enclosed anchor (Node.list (listTag tag) <$> (advance *> flowItems fuel true))
      | .mapStart, _, _ =>
        enclosed anchor (Node.map (mapTag tag) <$> (advance *> flowEntries fuel true))
      | .blockList, true, _ =>
        enclosed anchor (Node.list (listTag tag) <$> (advance *> blockItems fuel))
      | .blockMap, true, _ =>
        enclosed anchor (Node.map (mapTag tag) <$> (advance *> blockEntries fuel))
      | _, _, _ => bare anchor tag

def nodeBefore : Nat → List Token → Bool → Bool → Compose Node
  | 0, _, _, _ => throw .arrangement
  | fuel + 1, stops, inBlock, inMap => do
    if stops.contains (← peek) then return .empty else node fuel inBlock inMap

def blockItems : Nat → Compose (List Node)
  | 0 => throw .arrangement
  | fuel + 1 => do
    match ← peek with
    | .item =>
      advance
      let item ← nodeBefore fuel [.item, .blockEnd] true false
      return item :: (← blockItems fuel)
    | .blockEnd =>
      advance
      return []
    | _ => throw .arrangement

def levelItems : Nat → Compose (List Node)
  | 0 => throw .arrangement
  | fuel + 1 => do
    match ← peek with
    | .item =>
      advance
      let item ← nodeBefore fuel [.item, .key, .value, .blockEnd] true false
      return item :: (← levelItems fuel)
    | _ => return []

def valueBefore : Nat → List Token → Bool → Compose Node
  | 0, _, _ => throw .arrangement
  | fuel + 1, stops, inBlock => do
    match ← peek with
    | .value =>
      advance
      nodeBefore fuel stops inBlock inBlock
    | _ => return .empty

def blockEntries : Nat → Compose (List (Node × Node))
  | 0 => throw .arrangement
  | fuel + 1 => do
    match ← peek with
    | .key =>
      advance
      let key ← nodeBefore fuel [.key, .value, .blockEnd] true true
      let value ← valueBefore fuel [.key, .value, .blockEnd] true
      return (key, value) :: (← blockEntries fuel)
    | .blockEnd =>
      advance
      return []
    | _ => throw .arrangement

/-- Reads the items up to the closing bracket. A key with a value counts as a map. -/
def flowItems : Nat → Bool → Compose (List Node)
  | 0, _ => throw .arrangement
  | fuel + 1, isFirst => do
    if (← peek) = .listEnd then
      advance
      return []
    unless isFirst do
      unless (← peek) = .comma do throw .arrangement
      advance
    match ← peek with
    | .key =>
      advance
      let pair ← flowPair fuel
      return pair :: (← flowItems fuel false)
    | .listEnd =>
      advance
      return []
    | _ =>
      let item ← node fuel false false
      return item :: (← flowItems fuel false)

/-- Reads a map with one entry. If the key is missing, the token in its place is passed over. -/
def flowPair : Nat → Compose Node
  | 0 => throw .arrangement
  | fuel + 1 => do
    let key ←
      if [.value, .comma, .listEnd].contains (← peek) then
        advance
        pure Node.empty
      else node fuel false false
    let value ← valueBefore fuel [.comma, .listEnd] false
    return .map .map [(key, value)]

def flowEntries : Nat → Bool → Compose (List (Node × Node))
  | 0, _ => throw .arrangement
  | fuel + 1, isFirst => do
    if (← peek) = .mapEnd then
      advance
      return []
    unless isFirst do
      unless (← peek) = .comma do throw .arrangement
      advance
    match ← peek with
    | .key =>
      advance
      let key ← nodeBefore fuel [.value, .comma, .mapEnd] false false
      let value ← valueBefore fuel [.comma, .mapEnd] false
      return (key, value) :: (← flowEntries fuel false)
    | .mapEnd =>
      advance
      return []
    | _ =>
      let key ← node fuel false false
      return (key, .empty) :: (← flowEntries fuel false)

end

/-- Reads the directives in front of a document: one version at most, and each handle once. -/
def directives : Nat → Bool → Compose Unit
  | 0, _ => throw .arrangement
  | fuel + 1, versioned => do
    match ← peek with
    | .version major minor =>
      if versioned || major ≠ 1 || (minor ≠ 1 && minor ≠ 2) then throw .arrangement
      advance
      directives fuel true
    | .shorthand name lead =>
      if ((← get).handles.lookup name).isSome then throw .arrangement
      modify fun d => { d with handles := d.handles ++ [(name, lead)] }
      advance
      directives fuel versioned
    | _ => return ()

/-- The tag handles that every document has. Its own directives come first. -/
def standardHandles : List (String × String) := [("!", "!"), ("!!", Tag.lead)]

def head (fuel : Nat) : Compose Unit := do
  modify fun d => { d with handles := [] }
  directives fuel false
  unless (← peek) = .documentStart do throw .arrangement
  modify fun d => { d with handles := d.handles ++ standardHandles }
  advance

def skipEnds : Nat → Compose Unit
  | 0 => return ()
  | fuel + 1 => do
    if (← peek) = .documentEnd then
      advance
      skipEnds fuel

def document (fuel : Nat) : Compose (Option Node) := do
  let node ← match ← peek with
    | .streamEnd => return none
    | .version .. | .shorthand .. | .documentStart =>
      head fuel
      match ← peek with
      | .version .. | .shorthand .. | .documentStart | .documentEnd | .streamEnd =>
        pure Node.empty
      | _ => node fuel true false
    | _ =>
      modify fun d => { d with handles := standardHandles }
      node fuel true false
  skipEnds fuel
  unless (← peek) = .streamEnd do
    head fuel
    throw .composition
  return some node

end Compose

def Node.ofText? (text : List Char) : Except Fault (Option Node) :=
  (Compose.document (16 * text.length + 64) ⟨.ofText text, [], []⟩).map Prod.fst

end ShowControl.Yaml

import ShowControl.Pipeline.Layout
import ShowControl.Text.Blank

/-! Reading a sub-pipeline from its description.

    filesrc name=src ! decodebin name=demux demux. ! videoconvert ! proxysink name=video_out

A bare word is an element of that kind; `key=value` belongs to the element before it, and `name=`
names that element; `!` links what stands before it to what stands behind it; `name.` goes back to an
element, to start a branch there. An element without a name is called by its kind and a number. -/

set_option autoImplicit false
namespace ShowControl.Pipeline

inductive Fault where
  | linkWithoutSource
  | strayProperty (word : String)
  | linkWithoutTarget
  | noElement
  | duplicateElement (name : String)
  | unknownElement (name : String)
  deriving DecidableEq, Repr

def Fault.message : Fault → String
  | linkWithoutSource => "Connector '!' without a source element"
  | strayProperty word => s!"Property '{word}' does not follow an element"
  | linkWithoutTarget => "Dangling connector '!' at end of pipeline"
  | noElement => "Empty pipeline description"
  | duplicateElement name => s!"Duplicate element name in pipeline: {name}"
  | unknownElement name => s!"Unknown element reference in pipeline: {name}."

inductive Token where
  | link
  | reference (name : String)
  | property (key value : String)
  | element (kind : String)
  deriving DecidableEq, Repr

def Token.ofWord (word : String) : Token :=
  let cs := word.toList
  if word = "!" then link
  else if cs.contains '=' then
    property (String.ofList (cs.takeWhile (· ≠ '='))) (String.ofList ((cs.dropWhile (· ≠ '=')).drop 1))
  else if cs.getLast? = some '.' && 1 < cs.length then reference (String.ofList cs.dropLast)
  else element word

/-- One end of a link: an element by its position, or a name that is looked up at the end. -/
inductive End where
  | position (index : Nat)
  | named (name : String)
  deriving DecidableEq, Repr

structure Sketch where
  kind : String
  name : Option String
  properties : Table String String

/-- A description read up to some word; sketches and links stand in reverse. -/
structure Draft where
  sketches : List Sketch
  links : List (End × End)
  takesProperties : Bool
  last : Option End
  /-- The source of a link whose target has not been read. -/
  pending : Option End

def Draft.start : Draft := ⟨[], [], false, none, none⟩

def Draft.arrive (draft : Draft) (target : End) : Draft :=
  match draft.pending with
  | none => { draft with last := some target }
  | some source =>
    { draft with links := (source, target) :: draft.links, last := some target, pending := none }

def Draft.step (draft : Draft) (word : String) : Except Fault Draft :=
  match Token.ofWord word with
  | .link =>
    match draft.last, draft.pending with
    | some source, none => .ok { draft with pending := some source }
    | _, _ => .error .linkWithoutSource
  | .reference name => .ok { draft.arrive (.named name) with takesProperties := false }
  | .property key value =>
    match draft.sketches, draft.takesProperties, draft.pending with
    | sketch :: sketches, true, none =>
      if key = "" then .error (.strayProperty word)
      else if key = "name" then
        .ok { draft with sketches := { sketch with name := some value } :: sketches }
      else
        let properties := sketch.properties.insert key value
        .ok { draft with sketches := { sketch with properties } :: sketches }
    | _, _, _ => .error (.strayProperty word)
  | .element kind =>
    .ok { draft.arrive (.position draft.sketches.length) with
      sketches := ⟨kind, none, .empty⟩ :: draft.sketches, takesProperties := true }

/-- Names elements in order. `unnamed` holds the kinds of the unnamed ones before them, `taken` the
names. -/
def nameSketches (unnamed taken : List String) : List Sketch → Except Fault (List Element)
  | [] => .ok []
  | sketch :: rest => do
    let (name, unnamed) := match sketch.name with
      | some name => (name, unnamed)
      | none => (sketch.kind ++ toString (unnamed.count sketch.kind), sketch.kind :: unnamed)
    if name ∈ taken then throw (.duplicateElement name)
    let elements ← nameSketches unnamed (name :: taken) rest
    return ⟨sketch.kind, name, sketch.properties⟩ :: elements

def End.resolve (names : List String) : End → Except Fault String
  | position index => .ok (names.getD index "")
  | named name => if name ∈ names then .ok name else .error (.unknownElement name)

def Layout.ofDescription (description : String) : Except Fault Layout := do
  let draft ← (Text.words description).foldlM Draft.step .start
  if draft.pending.isSome then throw .linkWithoutTarget
  if draft.sketches.isEmpty then throw .noElement
  let elements ← nameSketches [] [] draft.sketches.reverse
  let names := elements.map Element.name
  -- References are looked up as the ends of links. One that stands by itself is not looked up.
  let links ← draft.links.reverse.mapM fun link => do
    return ⟨← link.1.resolve names, ← link.2.resolve names⟩
  return ⟨description, elements, links⟩

end ShowControl.Pipeline

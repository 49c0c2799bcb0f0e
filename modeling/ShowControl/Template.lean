import ShowControl.Act

/-! Templates: a sub-pipeline with parameterized property bindings, and what it becomes for given
arguments. -/

set_option autoImplicit false
namespace ShowControl

/-- Where the value of a binding comes from: the template itself, or a numbered argument. Parameters
are numbered from one. -/
inductive Source where
  | literal (text : String)
  | parameter (index : Nat) (default : Option String)
  deriving DecidableEq, Repr

/-- One property of one element. The element `raw` stands for the node as a whole. -/
structure Binding where
  element : String
  property : String
  type : PropertyType
  source : Source
  deriving DecidableEq, Repr

namespace Binding

def nodeElement : String := "raw"

def onNode (b : Binding) : Bool := b.element = nodeElement

def parameter? (b : Binding) : Option Nat :=
  match b.source with
  | .literal _ => none
  | .parameter index _ => some index

def resolve (b : Binding) (arguments : List String) : String :=
  match b.source with
  | .literal text => text
  | .parameter index _ => arguments.getD (index - 1) ""

end Binding

structure Template where
  name : String
  portCount : Nat
  layout : Pipeline.Layout
  bindings : List Binding
  ports : Table String Port
  defaults : Table Nat String
  standard : Bool

abbrev Library : Type := Table String Template

namespace Template

def parameters (t : Template) : List Nat := t.bindings.filterMap Binding.parameter?

def parameterCount (t : Template) : Nat := t.parameters.foldl max 0

def requiredCount (t : Template) : Nat :=
  match t.defaults.keys.min? with
  | none => t.parameterCount
  | some first => first - 1

def hasWindow (t : Template) : Bool :=
  -- A parameter that is given as this text makes no window.
  t.bindings.any fun b => b.onNode && b.property = "gtktag" && b.source = .literal "window"

def accepts (t : Template) (n : Nat) : Bool := t.requiredCount ≤ n && n ≤ t.parameterCount

def arityCause (t : Template) (n : Nat) : ScriptCause :=
  .arity t.name t.requiredCount t.parameterCount n

/-- Fills in the defaults of the arguments left out. A number that no binding uses has no default and
gets the empty text. -/
def bindArguments (t : Template) (arguments : List String) : Except Fault (List String) :=
  if t.accepts arguments.length then
    let missing := (List.range' (arguments.length + 1) (t.parameterCount - arguments.length))
    .ok (arguments ++ missing.map fun index => (t.defaults.get? index).getD "")
  else .error (.ofScript (t.arityCause arguments.length))

end Template

abbrev Settings : Type := Table String (Table String PropertyValue)

def Settings.get? (s : Settings) (element property : String) : Option PropertyValue :=
  (Table.get? s element).bind fun values => values.get? property

def Settings.set (s : Settings) (element property : String) (v : PropertyValue) : Settings :=
  Table.insert s element (((Table.get? s element).getD .empty).insert property v)

def Settings.entries (s : Settings) : List (String × String × PropertyValue) :=
  s.toList.flatMap fun (element, values) => values.toList.map fun (property, v) =>
    (element, property, v)

structure Expansion where
  template : Template
  arguments : List String
  elements : Settings
  node : Table String PropertyValue

namespace Expansion

/-- Enters the value of a binding. A later binding of the same property wins. -/
def add (x : Expansion) (b : Binding) : Except Fault Expansion :=
  match b.type.read (b.resolve x.arguments) with
  | .error fault =>
    .error (.ofDesk (.badArgument x.template.name b.parameter? b.element b.property fault))
  | .ok v =>
    if b.onNode then .ok { x with node := x.node.insert b.property v }
    else .ok { x with elements := x.elements.set b.element b.property v }

end Expansion

def Template.expand (t : Template) (arguments : List String) : Except Fault Expansion := do
  let bound ← t.bindArguments arguments
  t.bindings.foldlM Expansion.add ⟨t, bound, .empty, .empty⟩

def Library.find (library : Library) (name : String) : Except Fault Template :=
  match Table.get? library name with
  | some t => .ok t
  | none => .error (.ofDesk (.unknownTemplate name))

def Library.expand (library : Library) (name : String) (arguments : List String) :
    Except Fault Expansion := do
  (← library.find name).expand arguments

end ShowControl

import ShowControl.Backend
import ShowControl.Template

/-! Live nodes. -/

set_option autoImplicit false
namespace ShowControl

inductive Transport where
  | stopped
  | playing
  | paused
  deriving DecidableEq, Repr

namespace Transport

def name : Transport → String
  | stopped => "stopped"
  | playing => "playing"
  | paused => "paused"

/-- The state that a command leads to. A seek leaves the state as it is. -/
def after (state : Transport) : Verb → Transport
  | .start => playing
  | .pause => paused
  | .stop => stopped
  | .seek => state

end Transport

structure Window where
  x : Int
  y : Int
  width : Int
  height : Int
  visible : Bool
  deriving DecidableEq, Repr

def PropertyValue.toInteger : PropertyValue → Except HostFault Int
  | int n => .ok n
  | float x => x.truncate.mapError .roundsToNothing
  | string s =>
    match Decimal.readInteger s with
    | .ok n => .ok n
    | .error .malformed => .error (.notAnInteger s)
    | .error (.tooLong digits) => .error (.tooManyDigits digits)
  | orientation _ => .error .orientationAsInteger

namespace Window

def measure (settings : Table String PropertyValue) (name : String) : Except HostFault Int :=
  match settings.get? name with
  | some v => v.toInteger
  | none => .ok 0

/-- The window that the settings of a node describe. It is hidden at first. -/
def ofSettings (settings : Table String PropertyValue) : Except HostFault Window := do
  let x ← measure settings "x"
  let y ← measure settings "y"
  let width ← measure settings "width"
  let height ← measure settings "height"
  return ⟨x, y, width, height, false⟩

end Window

structure Node (α : Type) where
  name : String
  template : Template
  arguments : List String
  handle : Handle
  properties : Settings
  settings : Table String PropertyValue
  transport : Transport
  window : Option Window
  /-- The operands of the last seek, if there were two. -/
  segment : Option (α × α)
  seeks : Nat

namespace Node

variable {α : Type}

def ports (node : Node α) : Table String Port := node.template.ports

def ofExpansion (name : String) (handle : Handle) (expansion : Expansion) :
    Except HostFault (Node α) := do
  let window ← if expansion.template.hasWindow then
      some <$> Window.ofSettings expansion.node
    else pure none
  return {
    name, handle, window
    template := expansion.template
    arguments := expansion.arguments
    properties := .empty
    settings := expansion.node
    transport := .stopped
    segment := none
    seeks := 0 }

def command (node : Node α) (verb : Verb) (arguments : List α) : Node α :=
  match verb with
  | .seek =>
    let segment := match arguments with
      | [start, stop] => some (start, stop)
      | _ => none
    { node with segment, seeks := node.seeks + 1 }
  | verb => { node with transport := node.transport.after verb }

def setProperty (node : Node α) (element property : String) (v : PropertyValue) : Node α :=
  { node with properties := node.properties.set element property v }

def showWindow (node : Node α) : Node α :=
  { node with window := node.window.map fun w => { w with visible := true } }

def moveWindow (node : Node α) (x y : Int) : Node α :=
  { node with window := node.window.map fun w => { w with x, y } }

end Node

end ShowControl

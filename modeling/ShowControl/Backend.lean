import ShowControl.Act
import ShowControl.Signal

/-! The backend that plays the media: the commands it is given, and its replies.

A backend is a function from what it was told before to its next reply, so all that it does is known
from the journal of its commands. -/

set_option autoImplicit false
namespace ShowControl

inductive Verb where
  | start
  | pause
  | stop
  | seek
  deriving DecidableEq, Repr

namespace Verb

def all : List Verb := [start, pause, stop, seek]

def name : Verb → String
  | start => "start"
  | pause => "pause"
  | stop => "stop"
  | seek => "seek"

def find (name : String) : Except Fault Verb :=
  match all.find? fun verb => verb.name = name with
  | some verb => .ok verb
  | none => .error (.host (.unknownTransport name))

end Verb

structure Socket where
  handle : Handle
  port : String
  deriving DecidableEq, Repr

inductive Call (α : Type) where
  | create (node template description : String)
  | connect (source target : Socket)
  | disconnect (source target : Socket)
  | setProperty (handle : Handle) (element property : String) (value : PropertyValue)
  | transport (handle : Handle) (verb : Verb) (arguments : List α)
  | showWindow (handle : Handle)
  | moveWindow (handle : Handle) (x y : Int)

namespace Call

variable {α : Type}

def method : Call α → String
  | create .. => "create"
  | connect .. => "connect"
  | disconnect .. => "disconnect"
  | setProperty .. => "set_property"
  | transport .. => "transport"
  | showWindow _ => "window_show"
  | moveWindow .. => "window_move"

/-- The handle that the command is for. A node that is being created goes by its name. -/
def handle : Call α → Handle
  | create node _ _ => .name node
  | connect source _ | disconnect source _ => source.handle
  | setProperty handle _ _ _ | transport handle _ _ | showWindow handle | moveWindow handle _ _ =>
    handle

def operands [Number α] : Call α → List String
  | create _ template description => [template, description]
  | connect source target | disconnect source target =>
    [source.port, target.handle.text, target.port]
  | setProperty _ element property value => [element, property, value.text]
  | transport _ verb arguments => verb.name :: arguments.map Number.shortest
  | showWindow _ => []
  | moveWindow _ x y => [toString x, toString y]

def text [Number α] (call : Call α) : String :=
  " ".intercalate (call.method :: call.handle.text :: call.operands)

end Call

inductive Reply where
  | done
  /-- A connection is not made. -/
  | refused
  /-- The backend broke down, with its own words for it. -/
  | failed (text : String)
  deriving DecidableEq, Repr

structure Exchange (α : Type) where
  call : Call α
  reply : Reply

structure Backend (α : Type) where
  reply : List (Exchange α) → Call α → Reply
  handleFor : List (Exchange α) → String → Handle

/-- A backend that does all it is told and calls each node by its name. -/
def Backend.obliging {α : Type} : Backend α := ⟨fun _ _ => .done, fun _ => .name⟩

end ShowControl

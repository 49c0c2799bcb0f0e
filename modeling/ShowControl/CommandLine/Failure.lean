import ShowControl.Config.Load
import ShowControl.Fault
import ShowControl.Log.Folder

/-! Failures of a command. Those that a script or its settings are to blame for are reported by kind
and message; all others break the program off. -/

set_option autoImplicit false
namespace ShowControl

def ScriptFamily.name : ScriptFamily → String
  | general => "CompileError"
  | malformed => "ScriptSyntaxError"
  | arity => "ArityError"
  | unbalanced => "UnbalancedBlockError"

def DeskFamily.name : DeskFamily → String
  | duplicateNode => "DuplicateInstanceError"
  | danglingReference => "DanglingReferenceError"
  | unknownPort => "UnknownPortError"
  | portMismatch => "PortMismatchError"
  | unknownElement => "UnknownElementError"
  | plugConflict => "PlugConflictError"
  | propertyValue => "PropertyValueError"
  | typeMismatch => "TypeMismatchError"
  | unknownNode => "UnknownInstanceError"
  | noAnimation => "NoActiveTaskError"

/-- The kind of a fault of a show. A host fault has none. -/
def Fault.kind? : Fault → Option String
  | script fault => some fault.cause.family.name
  | desk _ cause => some cause.family.name
  | host _ => none

/-- The kind of a fault of the settings. What is no settings at all has none. -/
def LoadFault.kind? : LoadFault → Option String
  | noFile _ | unreadable _ | unresolved | invalid _ => some "ConfigError"
  | document _ | shape | nested | malformedReference | noHome => none

namespace CommandLine

inductive Failure where
  | logging (fault : LogFault)
  | settings (fault : LoadFault)
  | inShow (fault : Fault)

namespace Failure

def kind? : Failure → Option String
  | logging _ => none
  | settings fault => fault.kind?
  | inShow fault => fault.kind?

def message : Failure → String
  | logging fault => fault.message
  | settings fault => fault.message
  | inShow fault => fault.message

end Failure

end CommandLine

end ShowControl

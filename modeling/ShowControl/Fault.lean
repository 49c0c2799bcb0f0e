import ShowControl.Pipeline.Description
import ShowControl.Pipeline.Port
import ShowControl.Property

/-! What can go wrong, and the words for it.

A script fault says why a script cannot be compiled, and where. A desk fault is an inconsistency
between the parts of a show or an action that cannot be applied; those of the second sort skip the
action and nothing else. A host fault stems from outside the show: a number with no integer, a
backend that breaks down. -/

set_option autoImplicit false
namespace ShowControl

inductive ScriptFamily where
  | general
  | malformed
  | arity
  | unbalanced
  deriving DecidableEq, Repr

inductive Form where
  | templateHeader
  | binding
  | node
  | plug
  | trigger
  | progress
  | callback
  | action
  | play
  | seek
  | property
  | window
  | move
  deriving DecidableEq, Repr

def Form.text : Form → String
  | templateHeader => "Expected 'raw <name> <portCount> <pipeline...>'"
  | binding => "Expected '<element> <property> <type> <value>' in template body"
  | node => "Expected 'new <template> <instance> <args...>'"
  | plug => "Expected 'plug <srcPort> <srcInstance> <dstPort> <dstInstance>'"
  | trigger => "Expected 'on pre|progress|callback ...'"
  | progress => "Expected 'on progress <clock> <threshold>'"
  | callback => "Expected 'on callback <instance> <event>'"
  | action => "Expected 'act <instance> <verb> <args...>'"
  | play => "Expected 'play start|pause|stop'"
  | seek => "Expected 'seek <from> <to>'"
  | property => "Expected 'prop <element> <name> <type> <value>'"
  | window => "Expected 'window show' or 'window move ...'"
  | move => "Expected 'window move <clock> <t0> <x0> <y0> <t1> <x1> <y1> <easeX> <easeY>'"

inductive ScriptCause where
  | expected (form : Form)
  | unknownKeyword (word : String)
  | outsideTrigger (keyword : String)
  | closerWithoutOpener (keyword : String)
  | closerWithOperands (keyword : String)
  | unclosedTemplate
  | unclosedWrap
  | foreignInWrap (keyword : String)
  | templateExists (name : String)
  | malformedPortCount (word : String)
  | negativePortCount (n : Int)
  | pipeline (fault : Pipeline.Fault)
  | unknownPropertyType (name : String)
  | malformedParameter (word : String)
  | parameterZero
  | malformedLiteral (type : PropertyType) (fault : PropertyFault)
  | conflictingDefaults (index : Nat)
  | missingDefault (index first : Nat)
  | arity (template : String) (required total got : Nat)
  | malformedNumber (what word : String)
  | infiniteNumber (what word : String)
  | negativeThreshold (word : String)
  | unknownTrigger (word : String)
  | triggerWithoutAction
  | noAction (word : String)
  | unknownVerb (word : String)
  | unknownEasing (word : String)
  | backwardMove (t0 t1 : String)
  /-- A fault in the words of whoever reports it. -/
  | stated (family : ScriptFamily) (text : String)
  deriving DecidableEq, Repr

namespace ScriptCause

def family : ScriptCause → ScriptFamily
  | closerWithoutOpener _ | unclosedTemplate | unclosedWrap | foreignInWrap _ => .unbalanced
  | arity .. => .arity
  | stated family _ => family
  | _ => .malformed

def message : ScriptCause → String
  | expected form => form.text
  | unknownKeyword word => s!"Unknown keyword: {word}"
  | outsideTrigger keyword => s!"'{keyword}' outside of an 'on' trigger"
  | closerWithoutOpener keyword => s!"'{keyword}' without an opening block"
  | closerWithOperands keyword => s!"'{keyword}' takes no arguments"
  | unclosedTemplate => "'raw' block is missing its closing 'war'"
  | unclosedWrap => "'wrap' block is missing its closing 'parw'"
  | foreignInWrap keyword => s!"'{keyword}' inside a wrap block, missing 'parw'"
  | templateExists name => s!"Template already defined: {name}"
  | malformedPortCount word => s!"Malformed port count: {word}"
  | negativePortCount n => s!"Negative port count: {n}"
  | pipeline fault => fault.message
  | unknownPropertyType name => s!"Unknown property type: {name}"
  | malformedParameter word => s!"Malformed parameter reference: {word}"
  | parameterZero => "Parameters are numbered from $1"
  | malformedLiteral type fault => s!"Malformed {type.name} literal: {fault.message}"
  | conflictingDefaults index => s!"Conflicting defaults for ${index}"
  | missingDefault index first =>
    s!"Parameter ${index} needs a default because ${first} has one"
  | arity template required total got =>
    let span := if required = total then toString total else s!"{required} to {total}"
    s!"{template} expects {span} argument(s), got {got}"
  | malformedNumber what word => s!"Malformed numeric literal for {what}: {word}"
  | infiniteNumber what word => s!"Non-finite numeric literal for {what}: {word}"
  | negativeThreshold word => s!"Negative progress threshold: {word}"
  | unknownTrigger word => s!"Unknown trigger kind: {word}"
  | triggerWithoutAction => "Trigger without an action"
  | noAction word => s!"Expected 'act' or 'terminate', got {word}"
  | unknownVerb word => s!"Unknown action verb: {word}"
  | unknownEasing word => s!"Unknown easing function: {word}"
  | backwardMove t0 t1 => s!"Move ends before it starts: t1={t1} < t0={t0}"
  | stated _ text => text

end ScriptCause

structure ScriptFault where
  cause : ScriptCause
  number : Option Int
  text : Option String
  deriving DecidableEq, Repr

namespace ScriptFault

def ofCause (cause : ScriptCause) : ScriptFault := ⟨cause, none, none⟩

/-- Adds a position. The first position that a fault is given stays. -/
def locate (fault : ScriptFault) (number : Int) (text : Option String) : ScriptFault :=
  match fault.number with
  | some _ => fault
  | none => { fault with number := some number, text }

def message (fault : ScriptFault) : String :=
  match fault.number, fault.text with
  | none, _ => fault.cause.message
  | some number, none => s!"line {number}: {fault.cause.message}"
  | some number, some text =>
    let shown := Text.quoted (Text.trim text)
    s!"line {number}: {fault.cause.message}: {shown}"

end ScriptFault

structure PortRef where
  node : String
  port : String
  deriving DecidableEq, Repr

instance : ToString PortRef := ⟨fun r => s!"{r.node}.{r.port}"⟩

inductive NameUse where
  | plug
  | progress
  | callback
  | target
  | moveClock
  deriving DecidableEq, Repr

inductive DeskCause where
  | duplicateNode (name : String)
  /-- A `new` line names a template that is not defined above it. -/
  | undefinedTemplate (name : String)
  | unknownTemplate (name : String)
  | undeclared (place : NameUse) (name : String)
  /-- A plug names a node that is not live. -/
  | noSuchEnd (name : String)
  | unknownPort (port : PortRef)
  | plugDirections (source : PortRef) (is : Direction) (target : PortRef) (isToo : Direction)
  | portDirection (port : PortRef) (is wanted : Direction)
  | plugMedia (source : PortRef) (carries : Medium) (target : PortRef) (expects : Medium)
  | incompatible (source : PortRef) (carries : Medium) (target : PortRef) (expects : Medium)
  | refused (source target : PortRef)
  | occupied (target source : PortRef)
  | noTemplateElement (element : String)
  | noElement (node element : String)
  | noWindow (node : String)
  | badValue (fault : PropertyFault)
  | badArgument (template : String) (parameter : Option Nat) (element property : String)
      (fault : PropertyFault)
  | otherType (node element property : String) (type : PropertyType) (given : String)
  /-- A command names a node that is not live. -/
  | unknownNode (name : String)
  | noAnimation (node : String)
  deriving DecidableEq, Repr

inductive DeskFamily where
  | duplicateNode
  | danglingReference
  | unknownPort
  | portMismatch
  | unknownElement
  | plugConflict
  | propertyValue
  | typeMismatch
  | unknownNode
  | noAnimation
  deriving DecidableEq, Repr

/-- Whether a fault of the family skips an action and lets the show go on. -/
def DeskFamily.recoverable : DeskFamily → Bool
  | propertyValue | typeMismatch | unknownNode => true
  | _ => false

def NameUse.message (name : String) : NameUse → String
  | plug => s!"plug references undeclared instance {name}"
  | progress => s!"progress trigger on undeclared clock {name}"
  | callback => s!"callback trigger on undeclared instance {name}"
  | target => s!"action targets undeclared instance {name}"
  | moveClock => s!"window move timed on undeclared clock {name}"

namespace DeskCause

def family : DeskCause → DeskFamily
  | duplicateNode _ => .duplicateNode
  | undefinedTemplate _ | unknownTemplate _ | undeclared .. | noSuchEnd _ => .danglingReference
  | unknownPort _ => .unknownPort
  | plugDirections .. | portDirection .. | plugMedia .. | incompatible .. | refused .. =>
    .portMismatch
  | occupied .. => .plugConflict
  | noTemplateElement _ | noElement .. | noWindow _ => .unknownElement
  | badValue _ => .propertyValue
  | badArgument .. | otherType .. => .typeMismatch
  | unknownNode _ => .unknownNode
  | noAnimation _ => .noAnimation

def message : DeskCause → String
  | duplicateNode name => s!"Instance already exists: {name}"
  | undefinedTemplate name => s!"unknown template {name}"
  | unknownTemplate name => s!"Unknown template: {name}"
  | undeclared place name => place.message name
  | noSuchEnd name => s!"Unknown instance: {name}"
  | unknownPort r => s!"{r.node} has no port {r.port}"
  | plugDirections source is target isToo =>
    s!"plug must go from an out port to an in port, got {source} ({is.name}) -> " ++
      s!"{target} ({isToo.name})"
  | portDirection port is wanted => s!"{port} is an {is.name} port, expected {wanted.name}"
  | plugMedia source carries target expects =>
    s!"{source} carries {carries.name}, {target} expects {expects.name}"
  | incompatible source carries target expects =>
    s!"Cannot plug {source} ({carries.name}) into {target} ({expects.name})"
  | refused source target => s!"Backend refused {source} -> {target}"
  | occupied target source => s!"{target} is already fed by {source}"
  | noTemplateElement element => s!"Template has no element named {element}"
  | noElement node element => s!"{node} has no element {element}"
  | noWindow node => s!"{node} has no window"
  | badValue fault => fault.message
  | badArgument template parameter element property fault =>
    let place := match parameter with
      | some n => s!"${n}"
      | none => "literal"
    s!"{template}: {place} for {element}.{property}: {fault.message}"
  | otherType node element property type given =>
    s!"{node}.{element}.{property} is {type.name}, not {given}"
  | unknownNode name => s!"Unknown instance: {name}"
  | noAnimation node => s!"No active animation for {node}"

end DeskCause

inductive ValueUse where
  | conversion
  | comparison
  | display
  deriving DecidableEq, Repr

def ValueUse.message : ValueUse → String
  | conversion => "float() argument must be a string or a real number, not 'NoneType'"
  | comparison => "'<' not supported between instances of 'NoneType' and 'float'"
  | display => "unsupported format string passed to NoneType.__format__"

inductive HostFault where
  | notAnInteger (raw : String)
  | tooManyDigits (n : Nat)
  | orientationAsInteger
  | roundsToNothing (fault : RoundingFault)
  | notANumber (raw : String)
  | cosineDomain
  | noValue (use : ValueUse)
  | unknownEasing (name : String)
  | unknownTransport (verb : String)
  | noSuchPosition
  | backend (text : String)
  deriving DecidableEq, Repr

def HostFault.message : HostFault → String
  | notAnInteger raw =>
    let shown := String.ofList ((Text.quotedChars raw.toList).take 200)
    s!"invalid literal for int() with base 10: {shown}"
  | tooManyDigits n =>
    s!"Exceeds the limit (4300 digits) for integer string conversion: value has {n} digits; " ++
      "use sys.set_int_max_str_digits() to increase the limit"
  | orientationAsInteger =>
    "int() argument must be a string, a bytes-like object or a real number, not 'VideoOrientation'"
  | roundsToNothing .undefined => "cannot convert float NaN to integer"
  | roundsToNothing .infinite => "cannot convert float infinity to integer"
  | notANumber raw =>
    let shown := Text.quoted raw
    s!"could not convert string to float: {shown}"
  | cosineDomain => "math domain error"
  | noValue use => use.message
  | unknownEasing name => s!"Unknown easing function: {name}"
  | unknownTransport verb =>
    let shown := Text.quoted verb
    s!"{shown} is not a valid TransportOp"
  | noSuchPosition => "list index out of range"
  | backend text => text

inductive Fault where
  | script (fault : ScriptFault)
  /-- A desk fault, with the number of the script line that it was found on. -/
  | desk (line : Option Nat) (cause : DeskCause)
  | host (fault : HostFault)
  deriving DecidableEq, Repr

namespace Fault

def ofScript (cause : ScriptCause) : Fault := script (.ofCause cause)

def ofDesk (cause : DeskCause) : Fault := desk none cause

def message : Fault → String
  | script fault => fault.message
  | desk none cause => cause.message
  | desk (some line) cause => s!"line {line}: {cause.message}"
  | host fault => fault.message

def recoverable : Fault → Bool
  | desk _ cause => cause.family.recoverable
  | _ => false

def locate (fault : Fault) (number : Int) (text : Option String) : Fault :=
  match fault with
  | script fault => script (fault.locate number text)
  | other => other

end Fault

end ShowControl

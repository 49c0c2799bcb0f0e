import ShowControl.Config
import ShowControl.Script.Program

/-! Checking a program before anything is created.

The statements are gone through with the templates alone; then every cue is checked against what they
declare. -/

set_option autoImplicit false
namespace ShowControl

def Fault.onLine (fault : Fault) (line : Nat) : Fault :=
  match fault with
  | .script fault => .script (fault.locate line none)
  | .desk none cause => .desk (some line) cause
  | other => other

/-- What the statements read so far declare: nodes with their templates, and the source of each
input. -/
structure Blueprint where
  declared : Table String Template
  sources : Table PortRef PortRef

namespace Blueprint

def empty : Blueprint := ⟨.empty, .empty⟩

def checkPorts (source target : PortRef) (a b : Port) : Except DeskCause Unit :=
  if a.direction ≠ .output ∨ b.direction ≠ .input then
    .error (.plugDirections source a.direction target b.direction)
  else match a.medium, b.medium with
    | some m, some n => if m = n then .ok () else .error (.plugMedia source m target n)
    | _, _ => .ok ()

def template (b : Blueprint) (name : String) : Except DeskCause Template :=
  match b.declared.get? name with
  | some t => .ok t
  | none => .error (.undeclared .plug name)

def port (t : Template) (r : PortRef) : Except DeskCause Port :=
  match t.ports.get? r.port with
  | some p => .ok p
  | none => .error (.unknownPort r)

def plug (rewiring : Rewiring) (b : Blueprint) (source target : PortRef) :
    Except DeskCause Blueprint := do
  let s ← b.template source.node
  let t ← b.template target.node
  let a ← port s source
  let c ← port t target
  checkPorts source target a c
  if let some previous := b.sources.get? target then
    if previous ≠ source ∧ rewiring = .refuse then throw (.occupied target previous)
  return { b with sources := b.sources.insert target source }

def declare (library : Library) (b : Blueprint) (templateName name : String)
    (arguments : List String) : Except Fault Blueprint := do
  if b.declared.contains name then throw (.ofDesk (.duplicateNode name))
  let expansion ← library.expand templateName arguments
  return { b with declared := b.declared.insert name expansion.template }

def enter (library : Library) (rewiring : Rewiring) (b : Blueprint) :
    Statement → Except Fault Blueprint
  | .node templateName name arguments _ => b.declare library templateName name arguments
  | .plug source target _ => (b.plug rewiring source target).mapError .ofDesk

def enterAll (library : Library) (rewiring : Rewiring) (b : Blueprint)
    (statements : List Statement) : Except Fault Blueprint :=
  statements.foldlM (fun b s => (b.enter library rewiring s).mapError fun f => f.onLine s.line) b

variable {α : Type}

def addClock (clocks : List String) (clock : String) : List String :=
  if clock ∈ clocks then clocks else clocks ++ [clock]

def checkCommand (b : Blueprint) (clocks : List String) (target : String) (t : Template) :
    Command α → Except DeskCause (List String)
  | .play _ | .seek .. => .ok clocks
  | .property element _ _ _ =>
    if (t.layout.element? element).isSome then .ok clocks else .error (.noElement target element)
  | .showWindow => if t.hasWindow then .ok clocks else .error (.noWindow target)
  | .moveWindow move =>
    if !t.hasWindow then .error (.noWindow target)
    else if b.declared.contains move.clock then .ok (addClock clocks move.clock)
    else .error (.undeclared .moveClock move.clock)

def checkAction (b : Blueprint) (clocks : List String) : Action α → Except DeskCause (List String)
  | .terminate _ => .ok clocks
  | .command target command _ =>
    match b.declared.get? target with
    | none => .error (.undeclared .target target)
    | some t => b.checkCommand clocks target t command

def checkTrigger (b : Blueprint) (clocks : List String) :
    Trigger α → Except DeskCause (List String)
  | .pre => .ok clocks
  | .progress clock _ =>
    if b.declared.contains clock then .ok (addClock clocks clock)
    else .error (.undeclared .progress clock)
  | .callback node _ =>
    if b.declared.contains node then .ok clocks else .error (.undeclared .callback node)

def checkCue (b : Blueprint) (clocks : List String) (cue : Cue α) :
    Except DeskCause (List String) := do
  cue.group.actions.foldlM b.checkAction (← b.checkTrigger clocks cue.trigger)

def checkCues (b : Blueprint) (cues : List (Cue α)) : Except Fault (List String) :=
  cues.foldlM (fun clocks cue => (b.checkCue clocks cue).mapError (.desk (some cue.line))) []

end Blueprint

structure Report where
  nodes : List (String × String)
  /-- The plugs that are left, as pairs of source and target. -/
  plugs : List (PortRef × PortRef)
  clocks : List String
  windows : List String
  triggers : Nat

namespace Program

variable {α : Type}

def check (p : Program α) (rewiring : Rewiring) : Except Fault Report := do
  let b ← Blueprint.empty.enterAll p.templates rewiring p.statements
  let clocks ← b.checkCues p.cues
  return {
    clocks
    nodes := p.statements.filterMap fun
      | .node templateName name _ _ => some (name, templateName)
      | .plug .. => none
    plugs := b.sources.toList.map Prod.swap
    windows := (b.declared.toList.filter fun e => e.2.hasWindow).map Prod.fst
    triggers := p.cues.length }

def validate {σ : Type} (p : Program α) (rewiring : Rewiring) : Act σ Report := do
  let report ← Act.ofExcept (p.check rewiring)
  let nodes := report.nodes.length
  let plugs := report.plugs.length
  Act.info <| s!"Validated program: {nodes} instance(s), {plugs} active plug(s), " ++
    s!"{report.triggers} trigger(s)"
  return report

end Program

end ShowControl

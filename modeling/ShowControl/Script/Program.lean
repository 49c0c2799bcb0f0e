import ShowControl.Animation.Easing
import ShowControl.Template

/-! Programs: what a script says, ready to be run.

A program has templates, statements that create nodes and join them, and cues. A cue is a trigger
with the group of actions that it releases. -/

set_option autoImplicit false
namespace ShowControl

inductive PlayOp where
  | start
  | pause
  | stop
  deriving DecidableEq, Repr

def PlayOp.name : PlayOp → String
  | start => "start"
  | pause => "pause"
  | stop => "stop"

def PlayOp.ofName? (name : String) : Option PlayOp :=
  [start, pause, stop].find? fun op => op.name = name

structure Move (α : Type) where
  clock : String
  t0 : α
  x0 : α
  y0 : α
  t1 : α
  x1 : α
  y1 : α
  easeX : Easing
  easeY : Easing

inductive Command (α : Type) where
  | play (op : PlayOp)
  | seek (start stop : α)
  | property (element name : String) (type : PropertyType) (value : String)
  | showWindow
  | moveWindow (move : Move α)

inductive Action (α : Type) where
  | command (target : String) (command : Command α) (line : Nat)
  | terminate (line : Nat)

inductive GroupMode where
  | sequential
  | parallel
  deriving DecidableEq, Repr

structure ActionGroup (α : Type) where
  mode : GroupMode
  actions : List (Action α)

inductive Trigger (α : Type) where
  /-- Fires once, when the show starts. -/
  | pre
  /-- Fires once, when the clock has come to the threshold. -/
  | progress (clock : String) (threshold : α)
  /-- Fires when the node reports the event. -/
  | callback (node event : String)

structure Cue (α : Type) where
  trigger : Trigger α
  group : ActionGroup α
  order : Nat
  line : Nat

inductive Statement where
  | node (template name : String) (arguments : List String) (line : Nat)
  | plug (source target : PortRef) (line : Nat)
  deriving DecidableEq, Repr

structure Program (α : Type) where
  templates : Library
  statements : List Statement
  cues : List (Cue α)

variable {α : Type}

def Action.line : Action α → Nat
  | command _ _ line => line
  | terminate line => line

def Action.isTerminate : Action α → Bool
  | terminate _ => true
  | command .. => false

def ActionGroup.terminates (group : ActionGroup α) : Bool := group.actions.any Action.isTerminate

def Statement.line : Statement → Nat
  | node _ _ _ line => line
  | plug _ _ line => line

def Trigger.describe [Number α] : Trigger α → String
  | pre => "pre"
  | progress clock threshold =>
    let shown := Number.brief threshold
    s!"progress {clock} {shown}"
  | callback node event => s!"callback {node} {event}"

def Cue.describe [Number α] (cue : Cue α) : String := cue.trigger.describe

namespace Program

def nodeNames (p : Program α) : List String :=
  p.statements.filterMap fun
    | .node _ name _ _ => some name
    | .plug .. => none

def plugLines (p : Program α) : List Nat :=
  p.statements.filterMap fun
    | .plug _ _ line => some line
    | .node .. => none

def preCues (p : Program α) : List (Cue α) :=
  p.cues.filter fun cue => match cue.trigger with
    | .pre => true
    | _ => false

def callbackCues (p : Program α) : List (Cue α) :=
  p.cues.filter fun cue => match cue.trigger with
    | .callback .. => true
    | _ => false

def callbackCuesOn (p : Program α) (node event : String) : List (Cue α) :=
  p.cues.filter fun cue => match cue.trigger with
    | .callback n e => n = node && e = event
    | _ => false

variable [Number α]

/-- The progress cues with their clocks and thresholds, in the order of their thresholds; those with
one threshold keep their script order. -/
def timeline (p : Program α) : List (String × α × Cue α) :=
  let found := p.cues.filterMap fun cue => match cue.trigger with
    | .progress clock threshold => some (clock, threshold, cue)
    | _ => none
  found.mergeSort fun a b =>
    if a.2.1 < b.2.1 then true
    else if b.2.1 < a.2.1 then false
    else a.2.2.order ≤ b.2.2.order

def progressCues (p : Program α) : List (Cue α) := p.timeline.map fun entry => entry.2.2

def timelineOn (p : Program α) (clock : String) : List (α × Cue α) :=
  p.timeline.filterMap fun entry => if entry.1 = clock then some entry.2 else none

end Program

end ShowControl

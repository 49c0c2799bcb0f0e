import ShowControl.Channel
import ShowControl.Check
import ShowControl.Graph.Creation
import ShowControl.Graph.Wiring
import ShowControl.Show.Desk

/-! A show: a program and what has come of it so far.

The phase of a show only moves forward: idle, running, draining, terminated. -/

set_option autoImplicit false
namespace ShowControl

inductive Phase where
  | idle
  | running
  | draining
  | terminated
  deriving DecidableEq, Repr

def Phase.name : Phase → String
  | idle => "idle"
  | running => "running"
  | draining => "draining"
  | terminated => "terminated"

structure Show (α : Type) where
  program : Program α
  config : Config α
  desk : Desk α
  channel : Channel α
  report : Option Report
  phase : Phase
  phases : List Phase
  dispatched : List (Cue α)
  /-- The cues whose groups have been gone through, with what became of the actions. -/
  completed : List (Cue α × GroupResult α)
  ended : List (String × String)
  reason : Option String
  failure : Option Fault

namespace Show

variable {α : Type}

def ofProgram (program : Program α) (config : Config α) (backend : Backend α) : Show α where
  program := program
  config := config
  desk := ⟨Graph.start program.templates config.rewiring backend, .empty⟩
  channel := .ofCapacity 0
  report := none
  phase := .idle
  phases := []
  dispatched := []
  completed := []
  ended := []
  reason := none
  failure := none

def graph (s : Show α) : Graph α := s.desk.graph

def running (s : Show α) : Bool := s.phase = .running

def isOver (s : Show α) : Bool := s.phase = .draining || s.phase = .terminated

def hasFired (s : Show α) (cue : Cue α) : Bool :=
  s.dispatched.any fun fired => fired.order = cue.order

def terminal (s : Show α) (event : String) : Bool := s.config.terminalEvents.contains event

/-- Whether a cue can still fire and keeps the show alive: a progress cue that has not fired, or a
cue on a terminal event that has not been reported. -/
def awaits (s : Show α) (cue : Cue α) : Bool :=
  match cue.trigger with
  | .pre => false
  | .progress .. => !s.hasFired cue
  | .callback node event => s.terminal event && !s.ended.contains (node, event)

def pending (s : Show α) : List (Cue α) := s.program.cues.filter s.awaits

def onDesk {β : Type} (x : Act (Desk α) β) : Act (Show α) β :=
  x.zoom Show.desk fun s desk => { s with desk }

def onGraph {β : Type} (x : Act (Graph α) β) : Act (Show α) β := onDesk (Desk.onGraph x)

def onAnimator {β : Type} (x : Act (Animator α) β) : Act (Show α) β := onDesk (Desk.onAnimator x)

def onChannel {β : Type} (x : Act (Channel α) β) : Act (Show α) β :=
  x.zoom Show.channel fun s channel => { s with channel }

variable [Number α]

def createAll : List Statement → Act (Show α) Unit
  | [] => return ()
  | .node templateName name arguments _ :: rest => do
    let _ ← onGraph (Graph.instantiate templateName name arguments)
    createAll rest
  | .plug source target _ :: rest => do
    let _ ← onGraph (Graph.plug source target)
    createAll rest

/-- Checks the program, then creates and joins its nodes. Done once, it is not done again. -/
def build : Act (Show α) Report := do
  let s ← get
  match s.report with
  | some report => return report
  | none =>
    let report ← s.program.validate s.config.rewiring
    createAll s.program.statements
    modify fun s => { s with report := some report }
    return report

end Show

end ShowControl

import ShowControl.Config
import ShowControl.Graph.Node

/-! The live graph: nodes, the plugs between them, and the progress of their clocks.

Every change that the backend has to know of is made after the backend has been told. -/

set_option autoImplicit false
namespace ShowControl

structure Graph (α : Type) where
  library : Library
  rewiring : Rewiring
  backend : Backend α
  journal : List (Exchange α)
  nodes : Table String (Node α)
  handles : Table Handle String
  /-- The output that feeds each input, by input. -/
  plugs : Table PortRef PortRef
  progress : Table String α

namespace Graph

variable {α : Type}

def start (library : Library) (rewiring : Rewiring) (backend : Backend α) : Graph α :=
  ⟨library, rewiring, backend, [], .empty, .empty, .empty, .empty⟩

def node (g : Graph α) (name : String) : Except Fault (Node α) :=
  match g.nodes.get? name with
  | some node => .ok node
  | none => .error (.ofDesk (.unknownNode name))

def plugNode (g : Graph α) (name : String) : Except Fault (Node α) :=
  match g.nodes.get? name with
  | some node => .ok node
  | none => .error (.ofDesk (.noSuchEnd name))

/-- The node that a signal comes from: by its handle, or else by its name. -/
def resolve (g : Graph α) (handle : Handle) : Option String :=
  match g.handles.get? handle with
  | some name => some name
  | none => match handle with
    | .name name => if g.nodes.contains name then some name else none
    | _ => none

def edges (g : Graph α) : List (PortRef × PortRef) := g.plugs.toList.map Prod.swap

def sourceOf (g : Graph α) (target : PortRef) : Option PortRef := g.plugs.get? target

def modifyNode (g : Graph α) (name : String) (f : Node α → Node α) : Graph α :=
  { g with nodes := g.nodes.modify name f }

variable [Number α]

def issue (call : Call α) : Act (Graph α) Bool := do
  let g ← get
  let reply := g.backend.reply g.journal call
  modify fun g => { g with journal := g.journal ++ [⟨call, reply⟩] }
  Act.debug call.text
  match reply with
  | .done => return true
  | .refused => return false
  | .failed text => throw (.host (.backend text))

/-- Keeps the progress of a clock. Without a value the clock has made none yet, which cannot be
compared with progress that it had made. -/
def recordProgress (clock : String) (value : Option α) : Act (Graph α) Unit := do
  let previous := (← get).progress.get? clock
  match value with
  | none =>
    modify fun g => { g with progress := g.progress.erase clock }
    if previous.isSome then throw (.host (.noValue .comparison))
  | some value =>
    modify fun g => { g with progress := g.progress.insert clock value }
    if let some previous := previous then
      if value < previous then
        let old := Number.brief previous
        let new := Number.brief value
        Act.debug s!"Progress of {clock} went back from {old} to {new}"

end Graph

end ShowControl

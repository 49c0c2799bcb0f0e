import ShowControl.Graph.Basic

/-! Creating nodes from templates. -/

set_option autoImplicit false
namespace ShowControl.Graph

variable {α : Type} [Number α]

def assignProperty (name : String) (handle : Handle) (element property : String)
    (v : PropertyValue) : Act (Graph α) Unit := do
  let _ ← issue (.setProperty handle element property v)
  modify fun g => g.modifyNode name fun node => node.setProperty element property v

def assignAll (name : String) (handle : Handle) :
    List (String × String × PropertyValue) → Act (Graph α) Unit
  | [] => return ()
  | (element, property, v) :: rest => do
    assignProperty name handle element property v
    assignAll name handle rest

/-- Creates a node and sets the properties that its template binds. If the backend breaks down while
these are set, the node stays. -/
def instantiate (templateName name : String) (arguments : List String) :
    Act (Graph α) (Table String Port) := do
  let g ← get
  if g.nodes.contains name then throw (.ofDesk (.duplicateNode name))
  let expansion ← Act.ofExcept (g.library.expand templateName arguments)
  let handle := g.backend.handleFor g.journal name
  let _ ← issue (.create name templateName expansion.template.layout.description)
  -- The backend has the node by now, also if its window cannot be made.
  let node ← Act.ofExcept ((Node.ofExpansion name handle expansion).mapError .host)
  modify fun g => { g with
    nodes := g.nodes.insert name node
    handles := g.handles.insert handle name }
  assignAll name handle expansion.elements.entries
  let ports := expansion.template.ports
  let listing := if ports.keys.isEmpty then "none" else ", ".intercalate ports.keys
  Act.info s!"Created {name} from {templateName} (ports: {listing})"
  return ports

end ShowControl.Graph

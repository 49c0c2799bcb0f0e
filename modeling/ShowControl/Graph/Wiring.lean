import ShowControl.Graph.Basic

/-! Plugging outputs into inputs. An input has at most one source. -/

set_option autoImplicit false
namespace ShowControl.Graph

variable {α : Type}

def portOf (node : Node α) (port : String) (wanted : Direction) : Except Fault Port :=
  match node.ports.get? port with
  | none => .error (.ofDesk (.unknownPort ⟨node.name, port⟩))
  | some p =>
    if p.direction = wanted then .ok p
    else .error (.ofDesk (.portDirection ⟨node.name, port⟩ p.direction wanted))

def checkMedia (source target : PortRef) (a b : Port) : Except Fault Unit :=
  match a.medium, b.medium with
  | some m, some n =>
    if m = n then .ok () else .error (.ofDesk (.incompatible source m target n))
  | _, _ => .ok ()

def ends (g : Graph α) (source target : PortRef) : Except Fault (Node α × Node α) := do
  let s ← g.plugNode source.node
  let t ← g.plugNode target.node
  let a ← portOf s source.port .output
  let b ← portOf t target.port .input
  checkMedia source target a b
  return (s, t)

def socket (g : Graph α) (r : PortRef) : Socket :=
  match g.nodes.get? r.node with
  | some node => ⟨node.handle, r.port⟩
  | none => ⟨.absent, r.port⟩

variable [Number α]

def connect (source target : PortRef) : Act (Graph α) Unit := do
  let g ← get
  if ← issue (.connect (g.socket source) (g.socket target)) then
    modify fun g => { g with plugs := g.plugs.insert target source }
  else throw (.ofDesk (.refused source target))

/-- Plugs an output into an input. A plug that is there already stays as it is; another source of the
input is replaced, or is a fault, as the settings say. The answer tells whether anything changed. -/
def plug (source target : PortRef) : Act (Graph α) Bool := do
  let g ← get
  let _ ← Act.ofExcept (g.ends source target)
  match g.plugs.get? target with
  | none =>
    connect source target
    Act.info s!"Plugged {source} -> {target}"
    return true
  | some previous =>
    if previous = source then
      Act.debug s!"Plug {source} -> {target} already active"
      return false
    else if g.rewiring = .refuse then throw (.ofDesk (.occupied target previous))
    else
      -- The old source is gone by the time that the new one is tried, and does not come back.
      let _ ← issue (.disconnect (g.socket previous) (g.socket target))
      modify fun g => { g with plugs := g.plugs.erase target }
      connect source target
      Act.info s!"Rewired {target}: {previous} -> {source}"
      return true

def unplug (target : PortRef) : Act (Graph α) (Option PortRef) := do
  let g ← get
  let t ← Act.ofExcept (g.plugNode target.node)
  let _ ← Act.ofExcept (portOf t target.port .input)
  match g.plugs.get? target with
  | none => return none
  | some previous =>
    -- The input has lost its source even if the backend does not let go of it.
    modify fun g => { g with plugs := g.plugs.erase target }
    let _ ← issue (.disconnect (g.socket previous) (g.socket target))
    Act.info s!"Unplugged {previous} -> {target}"
    return some previous

end ShowControl.Graph

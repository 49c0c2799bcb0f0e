import ShowControl.Graph.Basic

/-! Commands to live nodes: transport, properties, windows. -/

set_option autoImplicit false
namespace ShowControl.Graph

variable {α : Type}

def windowed (g : Graph α) (name : String) : Except Fault (Node α × Window) := do
  let node ← g.node name
  match node.window with
  | some window => return (node, window)
  | none => throw (.ofDesk (.noWindow name))

/-- Checks that a value of the named type may be given to a property. A property that has a value
keeps its type. -/
def checkProperty (node : Node α) (element property typeName : String) : Except Fault Unit :=
  if (node.template.layout.element? element).isNone then
    .error (.ofDesk (.noElement node.name element))
  else match node.properties.get? element property with
    | some current =>
      if current.type.name = typeName then .ok ()
      else .error (.ofDesk (.otherType node.name element property current.type typeName))
    | none => .ok ()

def readValue (typeName raw : String) : Except Fault PropertyValue :=
  match PropertyType.ofName? typeName with
  | none => .error (.ofScript (.unknownPropertyType typeName))
  | some type => (type.read raw).mapError fun fault => .ofDesk (.badValue fault)

variable [Number α]

def setTransport (name : String) (verb : Verb) (arguments : List α) : Act (Graph α) Transport := do
  let node ← Act.ofExcept ((← get).node name)
  let _ ← issue (.transport node.handle verb arguments)
  modify fun g => g.modifyNode name fun node => node.command verb arguments
  let words := " ".intercalate (verb.name :: arguments.map Number.brief)
  Act.info s!"{name}: {words}"
  return node.transport.after verb

def setProperty (name element property typeName raw : String) :
    Act (Graph α) PropertyValue := do
  let node ← Act.ofExcept ((← get).node name)
  Act.ofExcept (checkProperty node element property typeName)
  let v ← Act.ofExcept (readValue typeName raw)
  let _ ← issue (.setProperty node.handle element property v)
  modify fun g => g.modifyNode name fun node => node.setProperty element property v
  Act.info s!"{name}.{element}.{property} = {v.text}"
  return v

def showWindow (name : String) : Act (Graph α) Unit := do
  let (node, window) ← Act.ofExcept ((← get).windowed name)
  let _ ← issue (.showWindow node.handle)
  modify fun g => g.modifyNode name Node.showWindow
  Act.info s!"{name}: window shown at ({window.x}, {window.y})"

/-- Moves a window. Nothing is done if it is there already. -/
def moveWindow (name : String) (x y : Int) : Act (Graph α) Unit := do
  let (node, window) ← Act.ofExcept ((← get).windowed name)
  if window.x = x ∧ window.y = y then return ()
  else
    let _ ← issue (.moveWindow node.handle x y)
    modify fun g => g.modifyNode name fun node => node.moveWindow x y

end ShowControl.Graph

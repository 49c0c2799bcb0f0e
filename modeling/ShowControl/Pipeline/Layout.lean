import ShowControl.Table

/-! The shape of a sub-pipeline: its elements, and the links between them. -/

set_option autoImplicit false
namespace ShowControl.Pipeline

structure Element where
  kind : String
  name : String
  properties : Table String String

structure Link where
  source : String
  target : String
  deriving DecidableEq, Repr

structure Layout where
  description : String
  elements : List Element
  links : List Link

namespace Layout

def element? (layout : Layout) (name : String) : Option Element :=
  layout.elements.find? fun e => e.name = name

def names (layout : Layout) : List String := layout.elements.map Element.name

/-- The elements that `name` feeds, in link order. -/
def targetsOf (layout : Layout) (name : String) : List String :=
  (layout.links.filter fun l => l.source = name).map Link.target

def sourcesOf (layout : Layout) (name : String) : List String :=
  (layout.links.filter fun l => l.target = name).map Link.source

end Layout

end ShowControl.Pipeline

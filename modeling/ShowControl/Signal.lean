import ShowControl.Number
import ShowControl.Text.Quoted

/-! What the backend tells the show: signals, and the handles by which they name their nodes. -/

set_option autoImplicit false
namespace ShowControl

inductive Handle where
  | name (text : String)
  | number (n : Int)
  | absent
  deriving DecidableEq, Repr

namespace Handle

def text : Handle → String
  | name text => text
  | number n => toString n
  | absent => "None"

def quoted : Handle → String
  | name text => Text.quoted text
  | other => other.text

end Handle

inductive Signal (α : Type) where
  /-- The progress of a clock. A report may come without a value. -/
  | progress (source : Handle) (value : Option α)
  | callback (source : Handle) (event : Option String)
  | stop (reason : Option String)

namespace Signal

variable {α : Type}

def kind : Signal α → String
  | progress .. => "progress"
  | callback .. => "callback"
  | stop _ => "stop"

def source : Signal α → Handle
  | progress source _ => source
  | callback source _ => source
  | stop _ => .absent

end Signal

end ShowControl

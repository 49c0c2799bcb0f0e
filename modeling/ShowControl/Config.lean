import ShowControl.Number

/-! The settings of a run. -/

set_option autoImplicit false
namespace ShowControl

/-- What becomes of a plug into an input that is already fed. -/
inductive Rewiring where
  | replace
  | refuse
  deriving DecidableEq, Repr

def Rewiring.name : Rewiring → String
  | replace => "rewire"
  | refuse => "error"

structure Config (α : Type) where
  tickMilliseconds : α
  rewiring : Rewiring
  /-- Events that a node reports at most once. -/
  terminalEvents : List String
  simulatedSeconds : α

namespace Config

variable {α : Type} [Number α]

def ten : α :=
  let five : α := 1 + 1 + 1 + 1 + 1
  five + five

def standard : Config α := ⟨ten, .replace, ["end"], ten⟩

def tickSeconds (c : Config α) : α :=
  let ten : α := ten
  c.tickMilliseconds / (ten * ten * ten)

def isStandard (c : Config α) : Bool :=
  let s : Config α := standard
  Number.same c.tickMilliseconds s.tickMilliseconds && c.rewiring = s.rewiring &&
    c.terminalEvents = s.terminalEvents && Number.same c.simulatedSeconds s.simulatedSeconds

end Config

end ShowControl

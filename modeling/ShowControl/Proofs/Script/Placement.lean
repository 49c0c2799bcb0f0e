import ShowControl.Proofs.Number.Exact
import ShowControl.Proofs.Property
import ShowControl.Proofs.Script.Lines
import ShowControl.Proofs.Script.Reading
import ShowControl.Proofs.Text.Words

/-! Where an action may be written.

It stands behind its trigger, on the next line, or alone in a block. Wherever it stands, it is read
from its own words and from the text behind them. -/

set_option autoImplicit false
namespace ShowControl

variable {α : Type}

def Action.at (number : Nat) : Action α → Action α
  | command target order _ => command target order number
  | terminate _ => terminate number

namespace Script

inductive Placement where
  | inline
  | below
  | block
  deriving DecidableEq, Repr

namespace Placement

def texts (header gap action : String) : Placement → List String
  | inline => [header ++ gap ++ action]
  | below => [header, action]
  | block => [header ++ gap ++ "wrap", action, "parw"]

def actionText (header gap action : String) : Placement → String
  | inline => header ++ gap ++ action
  | below | block => action

def lead (header : String) : Placement → List String
  | inline => Text.words header
  | below | block => []

def depth : Placement → Nat
  | inline => 0
  | below | block => 1

def mode : Placement → GroupMode
  | inline | below => .sequential
  | block => .parallel

end Placement

theorem Line.ofText?_of_words {text keyword : String} {operands : List String}
    (words : Text.words text = keyword :: operands) (plain : keyword.toList.head? ≠ some '/')
    (number : Nat) : Line.ofText? number text = some ⟨number, text, keyword, operands⟩ := by
  have head := Text.head?_trim words
  simp only [ofText?, words]
  split
  · next comment =>
    rw [comment] at head
    exact absurd head.symm plain
  · rfl

theorem linesFrom_cons {text keyword : String} {operands : List String}
    (words : Text.words text = keyword :: operands) (plain : keyword.toList.head? ≠ some '/')
    (number : Nat) (texts : List String) :
    linesFrom number (text :: texts) =
      ⟨number, text, keyword, operands⟩ :: linesFrom (number + 1) texts := by
  rw [linesFrom, List.zipIdx_cons]
  exact List.filterMap_cons_some (Line.ofText?_of_words words plain number)

section

variable [Number α]

variable {line next : Line} {offset : Nat} {rest : List Line}

/-- The cue that comes of an action at a place, or the fault on the line of the action. -/
def Placement.outcome (place : Placement) (header gap action : String) (trigger : Trigger α)
    (order number : Nat) (read : Except ScriptCause (Action α)) : Except Fault (Cue α) :=
  match read with
  | .ok act => .ok ⟨trigger, ⟨place.mode, [act.at (number + place.depth)]⟩, order, number⟩
  | .error cause => .error (.script ⟨cause, some (number + place.depth : Nat),
      some (place.actionText header gap action)⟩)

variable {header gap action keyword : String} {operands : List String} {trigger : Trigger α}

end

end Script

namespace Script.Sample

def stage : String := "raw w 0 fakesrc name=s\nwar\nnew w a\n"

def header : String := "on  callback a end"

def gap : String := "\t "

def deed : String := " act a  prop s name string  two  words "

def played (place : Placement) : String :=
  stage ++ "\n".intercalate (place.texts header gap deed)

end Script.Sample

end ShowControl

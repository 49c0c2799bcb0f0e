import ShowControl.Fault

/-! Easings: how far a move has come, as a function of the time that has passed. -/

set_option autoImplicit false
namespace ShowControl

/-- The easings by their names in a script. `mcos` is another name for `cos`. -/
inductive Easing where
  | linear
  | mcos
  | cos
  | jump
  deriving DecidableEq, Repr

namespace Easing

def all : List Easing := [linear, mcos, cos, jump]

def name : Easing → String
  | linear => "linear"
  | mcos => "mcos"
  | cos => "cos"
  | jump => "jump"

def ofName? (name : String) : Option Easing := all.find? fun e => e.name = name

theorem ofName?_name (e : Easing) : ofName? e.name = some e := by cases e <;> rfl

variable {α : Type} [Number α]

def smooth (u : α) : α := (1 - Number.cosPi u) / (1 + 1)

def hold (u : α) : α := if 1 ≤ u then 1 else 0

def apply : Easing → α → α
  | linear, u => u
  | mcos, u | cos, u => smooth u
  | jump, u => hold u

/-- The easing at any number. The cosine has no value at an infinite angle. -/
def evaluate (e : Easing) (u : α) : Except Fault α :=
  match e with
  | mcos | cos => if Number.hasCosPi u then .ok (smooth u) else .error (.host .cosineDomain)
  | other => .ok (other.apply u)

def find (name : String) : Except Fault Easing :=
  match ofName? name with
  | some e => .ok e
  | none => .error (.host (.unknownEasing name))

end Easing

variable {α : Type} [Number α]

/-- Clock time as a fraction of the time from `t0` to `t1`. An empty span is over as soon as it
starts; a quotient without a value counts as the start. -/
def normalize (t t0 t1 : α) : α :=
  if t1 ≤ t0 then if t1 ≤ t then 1 else 0
  else Number.atMost 1 (Number.atLeast 0 ((t - t0) / (t1 - t0)))

def blend (start stop e : α) : α := start * (1 - e) + stop * e

end ShowControl

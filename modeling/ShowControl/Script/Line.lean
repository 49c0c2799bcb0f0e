import ShowControl.Text.Blank

/-! The significant lines of a script: those that are neither blank nor comments. -/

set_option autoImplicit false
namespace ShowControl.Script

structure Line where
  number : Nat
  text : String
  keyword : String
  operands : List String
  deriving DecidableEq, Repr

def Line.words (line : Line) : List String := line.keyword :: line.operands

/-- A line of a script, unless it is blank or starts with `//`. -/
def Line.ofText? (number : Nat) (text : String) : Option Line :=
  match (Text.trim text).toList with
  | '/' :: '/' :: _ => none
  | _ => match Text.words text with
    | [] => none
    | keyword :: operands => some ⟨number, text, keyword, operands⟩

def linesOf (script : String) : List Line :=
  ((Text.lines script).zipIdx 1).filterMap fun (text, number) => Line.ofText? number text

end ShowControl.Script

import ShowControl.Number

/-! The arguments of a command.

Options may be given more than once, and the last one counts. Behind two dashes alone everything is an
operand. The options of the program come in front of the name of the command, those of the command
anywhere behind it. -/

set_option autoImplicit false
namespace ShowControl.CommandLine

inductive Job where
  | check
  | run (simulate : Bool) (timeout : Option Scalar)

structure Request where
  pretty : Bool
  verbose : Bool
  toFile : Bool
  script : String
  config : Option String
  job : Job

inductive Refusal where
  | misuse
  | help
  deriving DecidableEq, Repr

inductive Effect (β : Type) where
  | set (change : β → β)
  /-- Takes the next argument, or what is behind an equals sign. -/
  | take (change : String → β → β)

structure Form (β : Type) where
  names : List String
  effect : Effect β

section Scan

variable {β : Type}

def effect? (forms : List (Form β)) (name : String) : Option (Effect β) :=
  (forms.find? fun form => form.names.contains name).map Form.effect

def isOption (argument : String) : Bool :=
  match argument.toList with
  | '-' :: _ :: _ => true
  | _ => false

def bundle (forms : List (Form β)) (s : β) : List Char → Except Refusal β
  | [] => .ok s
  | c :: rest =>
    match effect? forms (String.ofList ['-', c]) with
    | some (.set change) => bundle forms (change s) rest
    | _ => .error .misuse

def splitName (argument : String) : String × Option String :=
  let cs := argument.toList
  let name := cs.takeWhile (· ≠ '=')
  (String.ofList name,
    if name.length < cs.length then some (String.ofList (cs.drop (name.length + 1))) else none)

/-- Carries out the options among arguments; the answer has the operands with it. If `first` is set,
everything from the first operand on is an operand. -/
def scan (forms : List (Form β)) (first : Bool) (s : β) :
    List String → Except Refusal (β × List String)
  | [] => .ok (s, [])
  | "--" :: rest => .ok (s, rest)
  | argument :: rest =>
    if isOption argument then
      let (name, operand) := splitName argument
      match effect? forms name, operand, rest with
      | some (.set change), none, rest => scan forms first (change s) rest
      | some (.set _), some _, _ => .error .misuse
      | some (.take change), some operand, rest => scan forms first (change operand s) rest
      | some (.take change), none, operand :: rest => scan forms first (change operand s) rest
      | some (.take _), none, [] => .error .misuse
      | none, _, rest =>
        if "--".toList.isPrefixOf argument.toList then .error .misuse
        else do
          let s ← bundle forms s (argument.toList.drop 1)
          scan forms first s rest
    else if first then .ok (s, argument :: rest)
    else (scan forms first s rest).map fun (s, operands) => (s, argument :: operands)

end Scan

structure ProgramOptions where
  pretty : Bool := true
  verbose : Bool := false
  toFile : Bool := false
  help : Bool := false

def programForms : List (Form ProgramOptions) :=
  [⟨["--pretty"], .set fun s => { s with pretty := true }⟩,
   ⟨["--no-pretty"], .set fun s => { s with pretty := false }⟩,
   ⟨["--verbose", "-v"], .set fun s => { s with verbose := true }⟩,
   ⟨["--log-file"], .set fun s => { s with toFile := true }⟩,
   ⟨["--no-log-file"], .set fun s => { s with toFile := false }⟩,
   ⟨["--help"], .set fun s => { s with help := true }⟩]

structure JobOptions where
  config : Option String := none
  simulate : Bool := true
  timeout : Option String := none
  help : Bool := false

def checkForms : List (Form JobOptions) :=
  [⟨["--config"], .take fun operand s => { s with config := some operand }⟩,
   ⟨["--help"], .set fun s => { s with help := true }⟩]

def runForms : List (Form JobOptions) :=
  checkForms ++
  [⟨["--simulate"], .set fun s => { s with simulate := true }⟩,
   ⟨["--no-simulate"], .set fun s => { s with simulate := false }⟩,
   ⟨["--timeout"], .take fun operand s => { s with timeout := some operand }⟩]

def timeoutOf : Option String → Except Refusal (Option Scalar)
  | none => .ok none
  | some s => match Decimal.readNumeral s with
    | some n => .ok (some (.ofNumeral n))
    | none => .error .misuse

def readJob (program : ProgramOptions) (forms : List (Form JobOptions))
    (job : JobOptions → Except Refusal Job) (arguments : List String) : Except Refusal Request := do
  let (s, operands) ← scan forms false {} arguments
  if s.help then throw .help
  let job ← job s
  match operands with
  | [script] => return ⟨program.pretty, program.verbose, program.toFile, script, s.config, job⟩
  | _ => throw .misuse

inductive Command where
  | check
  | run
  deriving DecidableEq, Repr

def readProgram (arguments : List String) :
    Except Refusal (ProgramOptions × Command × List String) := do
  let (s, operands) ← scan programForms true {} arguments
  if s.help then throw .help
  match operands with
  | "check" :: rest => return (s, .check, rest)
  | "run" :: rest => return (s, .run, rest)
  | _ => throw .misuse

def Command.readRequest (program : ProgramOptions) (arguments : List String) :
    Command → Except Refusal Request
  | check => readJob program checkForms (fun _ => .ok .check) arguments
  | run =>
    readJob program runForms (fun s => (Job.run s.simulate) <$> timeoutOf s.timeout) arguments

end ShowControl.CommandLine

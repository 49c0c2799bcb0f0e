import ShowControl.Script.Line
import ShowControl.Template

/-! Template definitions: a `raw` line, lines that bind properties, and a closing `war`. -/

set_option autoImplicit false
namespace ShowControl.Script

structure Block where
  body : List Line
  closer : Option Line

def Block.take (belongs : Line → Bool) (lines : List Line) : Block :=
  ⟨lines.takeWhile belongs, (lines.dropWhile belongs).head?⟩

def Block.size (block : Block) : Nat := block.body.length + 1

def Line.fault (line : Line) (cause : ScriptCause) : Fault :=
  .script ⟨cause, some line.number, some line.text⟩

def Line.locating {β : Type} (line : Line) (x : Except ScriptCause β) : Except Fault β :=
  x.mapError line.fault

def templateBlock (header : Line) (rest : List Line) : Except Fault Block :=
  let block := Block.take (fun line => line.keyword ≠ "war") rest
  match block.closer with
  | none => .error (header.fault .unclosedTemplate)
  | some closer =>
    if closer.operands.isEmpty then .ok block
    else .error (closer.fault (.closerWithOperands "war"))

def typeNamed (name : String) : Except Fault PropertyType :=
  match PropertyType.ofName? name with
  | some type => .ok type
  | none => .error (.ofScript (.unknownPropertyType name))

def checkLiteral (type : PropertyType) (text : String) : Except Fault Unit :=
  match type.read text with
  | .ok _ => .ok ()
  | .error fault => .error (.ofScript (.malformedLiteral type fault))

/-- The two parts of `$N` or `$N=default`. -/
def parameterParts? (cs : List Char) : Option (List Char × Option (List Char)) :=
  match cs with
  | '$' :: rest =>
    let digits := rest.takeWhile Text.isDecimalDigit
    if digits.isEmpty then none
    else match rest.dropWhile Text.isDecimalDigit with
      | [] => some (digits, none)
      | ['='] => none
      | '=' :: default => some (digits, some default)
      | _ => none
  | _ => none

def sourceOf (type : PropertyType) (word : String) : Except Fault Source :=
  match parameterParts? word.toList with
  | none =>
    if word.toList.head? = some '$' then .error (.ofScript (.malformedParameter word))
    else do
      checkLiteral type word
      return .literal word
  | some (digits, default) =>
    -- Not a fault of the script: the number is read without asking how long it is.
    if Decimal.digitLimit < digits.length then .error (.host (.tooManyDigits digits.length))
    else do
      let index := Decimal.ofDigits (Decimal.digitValues digits)
      if index = 0 then throw (.ofScript .parameterZero)
      let default := default.map String.ofList
      if let some text := default then checkLiteral type text
      return .parameter index default

def bindingOf (elements : List String) (line : Line) : Except Fault Binding :=
  match line.words with
  | [element, property, typeName, value] => do
    if element ≠ Binding.nodeElement && !elements.contains element then
      throw (.ofDesk (.noTemplateElement element))
    let type ← typeNamed typeName
    let source ← sourceOf type value
    return ⟨element, property, type, source⟩
  | _ => .error (.ofScript (.expected .binding))

def bindingAt (elements : List String) (line : Line) : Except Fault Binding :=
  (bindingOf elements line).mapError fun
    | .desk none cause => .desk (some line.number) cause
    | fault => fault.locate line.number (some line.text)

def addDefault (defaults : Table Nat String) (b : Binding) :
    Except ScriptCause (Table Nat String) :=
  match b.source with
  | .parameter index (some text) =>
    match defaults.get? index with
    | some other => if other = text then .ok defaults else .error (.conflictingDefaults index)
    | none => .ok (defaults.insert index text)
  | _ => .ok defaults

/-- The defaults of a template. Every parameter above one with a default needs one too. -/
def defaultsOf (bindings : List Binding) : Except ScriptCause (Table Nat String) := do
  let defaults ← bindings.foldlM addDefault .empty
  if let some first := defaults.keys.min? then
    let used := bindings.filterMap Binding.parameter?
    let missing := used.filter fun index => first < index && !defaults.contains index
    if let some index := missing.min? then throw (.missingDefault index first)
  return defaults

def portCountOf (word : String) : Except ScriptCause Nat :=
  match Decimal.readInteger word with
  | .error _ => .error (.malformedPortCount word)
  | .ok n => if n < 0 then .error (.negativePortCount n) else .ok n.toNat

def templateOf (standard : Bool) (header : Line) (body : List Line) : Except Fault Template :=
  match header.operands with
  | name :: count :: word :: words => do
    let portCount ← header.locating (portCountOf count)
    let description := " ".intercalate (word :: words)
    let layout ← header.locating <|
      (Pipeline.Layout.ofDescription description).mapError ScriptCause.pipeline
    let bindings ← body.mapM (bindingAt layout.names)
    let defaults ← header.locating (defaultsOf bindings)
    return { name, portCount, layout, bindings, ports := layout.ports, defaults, standard }
  | _ => .error (header.fault (.expected .templateHeader))

end ShowControl.Script

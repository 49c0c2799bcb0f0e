import ShowControl.Config.Reference

/-! What the references in settings stand for. -/

set_option autoImplicit false
namespace ShowControl

abbrev Environment : Type := List (String × String)

namespace Setting

mutual

def size : Setting → Nat
  | text s => s.length + 1
  | list items => sizes items + 1
  | group entries => entrySizes entries + 1
  | _ => 1

def sizes : List Setting → Nat
  | [] => 0
  | v :: rest => v.size + sizes rest

def entrySizes : List (Key × Setting) → Nat
  | [] => 0
  | (_, v) :: rest => v.size + entrySizes rest

end

def pendingMark : String := "???"

def isPending : Setting → Bool
  | text s => s = pendingMark
  | _ => false

/-- A text that is the pending mark behind backslashes has one of them too many. -/
def unescaped (s : String) : String :=
  match s.toList with
  | '\\' :: rest =>
    if String.ofList (rest.dropWhile (· = '\\')) = pendingMark then String.ofList rest else s
  | _ => s

mutual

def inside : Setting → String
  | missing | foreign => "None"
  | flag b => if b then "True" else "False"
  | integer n => toString n
  | real x => Number.shortest x
  | text s => Text.quoted s
  | octets b => Key.quotedOctets b
  | list items => "[" ++ ", ".intercalate (insideItems items) ++ "]"
  | group entries => "\x7b" ++ ", ".intercalate (insideEntries entries) ++ "\x7d"

def insideItems : List Setting → List String
  | [] => []
  | v :: rest => v.inside :: insideItems rest

def insideEntries : List (Key × Setting) → List String
  | [] => []
  | (key, v) :: rest =>
    let shown := match key with
      | .text s => Text.quoted s
      | key => key.shown
    (shown ++ ": " ++ v.inside) :: insideEntries rest

end

def inText : Setting → String
  | text s => s
  | v => v.inside

/-- The setting under a key, if there is one: in a list the keys are the positions, which count from
the end if they are negative. What is neither a group nor a list has no keys. -/
def child? (key : String) : Setting → Option (Option Setting)
  | group entries => some (at? key entries)
  | list items =>
    match Decimal.readInteger key with
    | .error _ => none
    | .ok n =>
      let n := if n < 0 then n + items.length else n
      some (if n < 0 then none else items[n.toNat]?)
  | missing => some none
  | _ => none

def keyParts : List Char → List (List Char)
  | [] => [[]]
  | c :: rest =>
    if c = '.' || c = '[' then [] :: keyParts rest
    else if c = ']' then keyParts rest
    else match keyParts rest with
      | [] => [[c]]
      | part :: parts => (c :: part) :: parts

def pathOf (s : String) : Nat × List String :=
  let body := s.toList.dropWhile (· = '.')
  let parts := match body with
    | '[' :: rest => keyParts rest
    | body => keyParts body
  (s.length - body.length, parts.map String.ofList)

def compute (environment : Environment) (name : String) (operands : List Setting) : Option Setting :=
  match name, operands with
  | "oc.env", [text key] => (environment.lookup key).map text
  | "oc.env", [text key, default] =>
    match environment.lookup key, default with
    | some s, _ => some (text s)
    | none, missing => some missing
    | none, v => some (text v.inText)
  | "oc.create", [list items] => some (list items)
  | "oc.create", [group entries] => some (group entries)
  | "oc.create", [missing] => some (group [])
  | "oc.decode", [missing] => some missing
  | "oc.dict.keys", [group entries] => some (list (entries.map fun e => text e.1.shown))
  | "oc.dict.values", [group entries] => some (list (entries.map Prod.snd))
  | _, _ => none

/-- A setting together with the groups and lists that it is in, the innermost one first. -/
structure Placed where
  setting : Setting
  around : List Setting

mutual

/-- What a setting stands for. If that is a group or a list, references in it are left as they are.
There is none if a key is unknown, if a value is still to come, or if references run in a circle. -/
def target : Nat → Environment → List Setting → Setting → Option Placed
  | 0, _, _, _ => none
  | fuel + 1, environment, around, v => match v with
    | text s =>
      if hasReference s then do
        match ← pieces s with
        | [piece] => follow fuel environment around piece
        | parts => return ⟨text (← textOf fuel environment around parts), around⟩
      else some ⟨text (unescaped s), around⟩
    | v => some ⟨v, around⟩

def textOf : Nat → Environment → List Setting → List Piece → Option String
  | 0, _, _, _ => none
  | fuel + 1, environment, around, parts => do
    let values ← parts.mapM (follow fuel environment around)
    return String.join (values.map fun v => v.setting.inText)

def follow : Nat → Environment → List Setting → Piece → Option Placed
  | 0, _, _, _ => none
  | fuel + 1, environment, around, piece => match piece with
    | .words cs => some ⟨text (String.ofList cs), around⟩
    | .reference points keys => do
      let keys ← keys.mapM (keysOf fuel environment around)
      Option.join (select fuel environment around points keys.flatten)
    | .call name operands => do
      let name ← name.mapM (keysOf fuel environment around)
      let operands ← operands.mapM (valueOf fuel environment around)
      apply fuel environment around (".".intercalate name.flatten) operands

/-- The keys that a piece of a path stands for. One that is a reference has to be a text. -/
def keysOf : Nat → Environment → List Setting → Piece → Option (List String)
  | 0, _, _, _ => none
  | fuel + 1, environment, around, piece => match piece with
    | .words cs => some [String.ofList cs]
    | piece => match follow fuel environment around piece with
      | some ⟨text s, _⟩ => some (pathOf s).2
      | _ => none

def valueOf : Nat → Environment → List Setting → Operand → Option Setting
  | 0, _, _, _ => none
  | fuel + 1, environment, around, operand => match operand with
    | .value v => some v
    | .text parts => (textOf fuel environment around parts).map text
    | .reference piece => (follow fuel environment around piece).map Placed.setting
    | .list items => (items.mapM (valueOf fuel environment around)).map list
    | .group entries =>
      (entries.mapM fun e => (valueOf fuel environment around e.2).map (e.1, ·)).map group

def apply : Nat → Environment → List Setting → String → List Setting → Option Placed
  | 0, _, _, _, _ => none
  | fuel + 1, environment, around, name, operands =>
    let find (path : String) : Option (Option Placed) :=
      let (points, keys) := pathOf path
      select fuel environment around points keys
    let here (v : Setting) : Placed := ⟨v, around⟩
    match name, operands with
    | "oc.select", [text path] => (find path).map fun v => v.getD (here missing)
    | "oc.select", [text path, default] => (find path).map fun v => v.getD (here default)
    | "oc.deprecated", [text path] => (find path).join
    | "oc.deprecated", [text path, text _] => (find path).join
    | "oc.decode", [text s] => do
      return here (← valueOf fuel environment around (← operandOf s))
    | "oc.dict.keys", [text path] => do
      return here (← compute environment name [(← (find path).join).setting])
    | "oc.dict.values", [text path] => do
      return here (← compute environment name [(← (find path).join).setting])
    | name, operands => (compute environment name operands).map here

def select : Nat → Environment → List Setting → Nat → List String → Option (Option Placed)
  | 0, _, _, _, _ => none
  | fuel + 1, environment, around, points, keys =>
    let start := match points with
      | 0 => around.drop (around.length - 1)
      | points + 1 => around.drop points
    match start with
    | [] => none
    | v :: around => walk fuel environment ⟨v, around⟩ keys

def walk : Nat → Environment → Placed → List String → Option (Option Placed)
  | 0, _, _, _ => none
  | _ + 1, _, v, [] => some (some v)
  | fuel + 1, environment, v, key :: keys => do
    match ← v.setting.child? key with
    | none => return none
    | some next =>
      if next.isPending then return none
      else walk fuel environment (← target fuel environment (v.setting :: v.around) next) keys

end

def resolve : Nat → Environment → List Setting → Setting → Option Setting
  | 0, _, _, _ => none
  | fuel + 1, environment, around, v => do
    let v ← target fuel environment around v
    let inner := v.setting :: v.around
    match v.setting with
    | list items => (items.mapM (resolve fuel environment inner)).map list
    | group entries =>
      (entries.mapM fun e => (resolve fuel environment inner e.2).map (e.1, ·)).map group
    | v => return v

def resolveEntries (environment : Environment) (entries : List (Key × Setting)) :
    Option (List (Key × Setting)) := do
  let v := group entries
  match ← resolve (16 * (v.size + 1)) environment [] v with
  | group entries => return entries
  | _ => none

end Setting

end ShowControl

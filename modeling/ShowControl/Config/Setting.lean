import ShowControl.Config
import ShowControl.Text.Quoted

/-! Settings as they are given by name, and the configuration that they come to.

A duration may be given as a number, as a truth value, which counts as one or zero, or as the text of
a number. -/

set_option autoImplicit false
namespace ShowControl

inductive Key where
  | missing
  | flag (b : Bool)
  | integer (n : Int)
  | real (x : Scalar)
  | text (s : String)
  | octets (octets : List UInt8)
  /-- A key of a kind that no group of settings has, such as a date. -/
  | foreign

inductive Setting where
  | missing
  | flag (b : Bool)
  | integer (n : Int)
  | real (x : Scalar)
  | text (s : String)
  | octets (octets : List UInt8)
  | list (items : List Setting)
  | group (entries : List (Key × Setting))
  | foreign

abbrev ConfigFaults : Type := List String

namespace Key

def number? : Key → Option Decimal.Binary64
  | flag b => some (.finite false (if b then 1 else 0) 0)
  | integer n => some (.finite (n < 0) n.natAbs 0)
  | real x => some x.toBinary
  | _ => none

def sameNumber : Decimal.Binary64 → Decimal.Binary64 → Bool
  | .finite s m e, .finite s' m' e' =>
    let (up, down) := Decimal.scale e 0
    let (up', down') := Decimal.scale e' 0
    m * up * down' = m' * up' * down && (s = s' || m = 0)
  | .infinite s, .infinite s' => s = s'
  | _, _ => false

/-- Whether two keys are one. Numbers and truth values are if they are equal as numbers. -/
def same : Key → Key → Bool
  | missing, missing | foreign, foreign => true
  | text s, text s' => s = s'
  | octets b, octets b' => b = b'
  | k, k' => match k.number?, k'.number? with
    | some x, some y => sameNumber x y
    | _, _ => false

/-- Octets in quotes. All but those of ASCII texts are written as escapes. -/
def quotedOctets (octets : List UInt8) : String :=
  let chars := octets.map fun b => Char.ofNat b.toNat
  let quote := Text.quoteFor chars
  let shown := chars.flatMap fun c =>
    if c.toNat < 0x80 then Text.quotedChar quote c else '\\' :: 'x' :: Text.hexDigits 2 c.toNat
  String.ofList ('b' :: quote :: shown ++ [quote])

def shown : Key → String
  | missing | foreign => "None"
  | flag b => if b then "True" else "False"
  | integer n => toString n
  | real x => Number.shortest x
  | text s => s
  | octets b => quotedOctets b

def name : Key → String
  | flag b => if b then "1" else "0"
  | k => k.shown

def isAllowed : Key → Bool
  | missing | foreign => false
  | _ => true

def text? : Key → Option String
  | text s => some s
  | _ => none

end Key

namespace Setting

/-- The entry under a key that is a text, or failing that, under one that reads like it. -/
def at? (key : String) (entries : List (Key × Setting)) : Option Setting :=
  let find (p : Key → Bool) := (entries.find? fun e => p e.1).map Prod.snd
  (find fun k => k.text? = some key).orElse fun _ => find fun k => k.shown = key

def assignEntry (key : Key) (v : Setting) : List (Key × Setting) → List (Key × Setting)
  | [] => [(key, v)]
  | e :: rest => if e.1.same key then (e.1, v) :: rest else e :: assignEntry key v rest

def bareNumber? (cs : List Char) : Option Scalar :=
  if cs.all (fun c => c.toNat < 0x80 && c ≠ '_') && Text.trimChars Text.isPadding cs = cs then
    (Decimal.readNumeral (String.ofList cs)).map Scalar.ofNumeral
  else none

/-- The text without its underscores, if it has any. None may stand at an end or beside another one. -/
def withoutUnderscores? (cs : List Char) : Option (List Char) :=
  if !cs.contains '_' || cs.head? = some '_' || cs.getLast? = some '_' then none
  else if (cs.zip (cs.drop 1)).any fun (c, d) => c = '_' && d = '_' then none
  else some (cs.filter (· ≠ '_'))

/-- Reads a number with blanks around it or with underscores between its digits, but not with both. -/
def numberOfText (s : String) : Option Scalar :=
  (bareNumber? (Text.trimChars Text.isPadding s.toList)).orElse fun _ =>
    (withoutUnderscores? s.toList).bind bareNumber?

def textOfOctets (octets : List UInt8) : Option String :=
  String.fromUTF8? (ByteArray.mk octets.toArray)

def text? : Setting → Option String
  | text s => some s
  | octets b => textOfOctets b
  | _ => none

def number? : Setting → Option Scalar
  | flag b => some (if b then 1 else 0)
  | integer n => Number.ofNumeral? (.finite (n < 0) n.natAbs 0)
  | real x => some x
  | v => v.text?.bind numberOfText

def positive? (v : Setting) : Option Scalar := v.number?.filter fun x => 0 < x

def rewiring? : Setting → Option Rewiring
  | text s => [Rewiring.replace, .refuse].find? fun r => r.name = s
  | _ => none

def nonTexts (items : List Setting) : List Nat :=
  items.zipIdx.filterMap fun (v, i) => if v.text?.isSome then none else some i

end Setting

namespace Config

def tickName : String := "tick_interval_ms"

def rewiringName : String := "rewire_policy"

def eventsName : String := "terminal_events"

def simulatedName : String := "simulate_duration_s"

def faultsOf (name : String) (v : Setting) : ConfigFaults :=
  if name = tickName || name = simulatedName then
    if v.positive?.isSome then [] else [name]
  else if name = rewiringName then
    if v.rewiring?.isSome then [] else [name]
  else if name = eventsName then
    match v with
    | .list items => (Setting.nonTexts items).map fun i => s!"{name}.{i}"
    | _ => [name]
  else [name]

def assign (c : Config Scalar) (name : String) (v : Setting) : Config Scalar :=
  if name = tickName then { c with tickMilliseconds := v.positive?.getD c.tickMilliseconds }
  else if name = simulatedName then
    { c with simulatedSeconds := v.positive?.getD c.simulatedSeconds }
  else if name = rewiringName then { c with rewiring := v.rewiring?.getD c.rewiring }
  else match v with
    | .list items => { c with terminalEvents := items.filterMap Setting.text? }
    | _ => c

/-- The configuration with these settings and the standard ones for the rest. Each fault is named
once. -/
def ofSettings (entries : List (Key × Setting)) : Except ConfigFaults (Config Scalar) :=
  match entries.flatMap fun (key, v) => (key.text?.map (faultsOf · v)).getD [key.name] with
  | [] => .ok (entries.foldl (fun c (key, v) => c.assign key.shown v) standard)
  | faults => .error (faults.eraseDups.mergeSort fun a b => a ≤ b)

end Config

end ShowControl

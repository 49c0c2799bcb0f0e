import ShowControl.Config.Setting
import ShowControl.Text.Pattern
import ShowControl.Text.Search

/-! References in the texts of settings.

`${a.b}` stands for another setting, named by the keys on the way to it from the outermost group, or
with points in front from a group around its place. A key may also stand in square brackets, or be a
reference itself, to the text that names it. `${f:x,y}` stands for the value of a function. A text that
is one reference stands for that value itself; within a longer text a reference stands for the text of
the value. A backslash in front takes a reference for words. -/

set_option autoImplicit false
namespace ShowControl.Setting

mutual

inductive Piece where
  | words (cs : List Char)
  /-- A setting, by its keys. Without points they start from the outermost group, with one point from
  the group or list that the text is in. -/
  | reference (points : Nat) (keys : List Piece)
  | call (name : List Piece) (operands : List Operand)

inductive Operand where
  | value (v : Setting)
  | text (pieces : List Piece)
  | reference (piece : Piece)
  | list (items : List Operand)
  | group (entries : List (Key × Operand))

end

def isWhite (c : Char) : Bool := c = ' ' || c = '\t'

def skipWhite (cs : List Char) : List Char := cs.dropWhile isWhite

def isKeyChar (c : Char) : Bool := !"\\\x7b\x7d()[]:. \t'\"".toList.contains c

/-- Splits off the characters of a key. A backslash admits one of the others. -/
def keyChars : List Char → List Char × List Char
  | '\\' :: c :: rest =>
    if isKeyChar c then ([], '\\' :: c :: rest)
    else let (key, rest) := keyChars rest; (c :: key, rest)
  | c :: rest =>
    if isKeyChar c then let (key, rest) := keyChars rest; (c :: key, rest) else ([], c :: rest)
  | [] => ([], [])

def isNamePart : Piece → Bool
  | .words cs =>
    cs.head?.any (fun c => c.isAlpha || c = '_') && cs.all fun c => c.isAlphanum || c = '_' || c = '-'
  | _ => true

section

open Text.Pattern

def anyCase (s : String) : Text.Pattern :=
  s.toList.foldr (fun c rest => seq (char fun d => d.toLower = c) rest) nothing

def digits : Text.Pattern := seq digit (many (seq (optional (letter "_")) digit))

def wholeForm : Text.Pattern :=
  either (word "0")
    (seq (char fun c => '1' ≤ c && c ≤ '9') (many (seq (optional (letter "_")) digit)))

def integerForm : Text.Pattern := seq (optional (letter "+-")) wholeForm

def pointForm : Text.Pattern :=
  either (seq wholeForm (letter ".")) (chain [optional wholeForm, letter ".", digits])

def realForm : Text.Pattern :=
  seq (optional (letter "+-")) <| oneOf
    [pointForm, chain [either wholeForm pointForm, letter "eE", optional (letter "+-"), digits],
     anyCase "inf", anyCase "nan"]

def plainKey : Text.Pattern := Text.Pattern.some (char fun c => c.isAlphanum || c = '_' || c = '$')

def bracketedKey : Text.Pattern := chain [letter "[", plainKey, letter "]"]

def gaps : Text.Pattern := many (letter " \t\n\r\x0b\x0c")

def pathForm : Text.Pattern :=
  chain [gaps, many (letter "."), either plainKey bracketedKey,
    many (either (seq (letter ".") plainKey) bracketedKey), gaps]

def nameForm : Text.Pattern :=
  seq (char fun c => c.isAlpha || c = '_') (many (char fun c => c.isAlphanum || c = '_' || c = '-'))

def operandForm : Text.Pattern :=
  Text.Pattern.some (char fun c => c.isAlphanum || "_/-+.$%*@?|".toList.contains c)

def callForm : Text.Pattern :=
  chain [gaps, optional (seq nameForm (many (seq (letter ".") nameForm))), gaps, letter ":", gaps,
    optional (seq operandForm (many (chain [gaps, letter ",", gaps, operandForm]))), gaps]

end

def isPlainlyWritten : List Char → Bool
  | '$' :: '{' :: rest =>
    let inside := rest.takeWhile (· ≠ '}')
    inside.length < rest.length && (pathForm.admits inside || callForm.admits inside) &&
      isPlainlyWritten rest
  | _ :: rest => isPlainlyWritten rest
  | [] => true

def ofWord (cs : List Char) : Setting :=
  let s := String.ofList cs
  let word := s.map Char.toLower
  if word = "null" then missing
  else if word = "true" || word = "false" then flag (word = "true")
  else if integerForm.admits cs then match Decimal.readInteger s with
    | .ok n => integer n
    | .error _ => text s
  else if realForm.admits cs then match Decimal.readNumeral s with
    | some n => real (.ofNumeral n)
    | none => text s
  else text s

def keyOfWord (cs : List Char) : Key :=
  match ofWord cs with
  | flag b => .flag b
  | integer n => .integer n
  | real x => .real x
  | text s => .text s
  | _ => .missing

def isOperandChar (c : Char) : Bool := c.isAlphanum || "_/-+.$%*@?|:\\".toList.contains c

def isEscapable (c : Char) : Bool := "\\()[]\x7b\x7d:=, \t".toList.contains c

def pushWord (c : Char) : List Piece → List Piece
  | .words cs :: rest => .words (c :: cs) :: rest
  | pieces => .words [c] :: pieces

def pushWords (cs : List Char) (pieces : List Piece) : List Piece := cs.foldr pushWord pieces

/-- The operand that pieces make. They are plain if they are words without a backslash in front of
them. -/
def Operand.ofPieces (plain : Bool) : List Piece → Option Operand
  | [] => none
  | [.words cs] => some (if plain then .value (ofWord cs) else .text [.words cs])
  | [piece] => some (.reference piece)
  | pieces => some (.text pieces)

def Operand.ofSlots : List (Option Operand) → List Operand
  | [none] => []
  | slots => slots.map fun slot => slot.getD (.value (Setting.text ""))

mutual

def readReference : Nat → List Char → Option (Piece × List Char)
  | 0, _ => none
  | fuel + 1, cs => do
    let cs := skipWhite cs
    let body := cs.dropWhile (· = '.')
    let points := cs.length - body.length
    let (keys, bracketed, rest) ← readKeys fuel true body
    match skipWhite rest with
    | '}' :: rest => return (.reference points keys, rest)
    | ':' :: rest =>
      if points ≠ 0 || bracketed || !keys.all isNamePart then none
      else
        let (slots, rest) ← readSlots fuel '}' (skipWhite rest)
        return (.call keys (Operand.ofSlots slots), rest)
    | _ => none

/-- Reads keys, and whether one is in brackets. The first one has no point in front. -/
def readKeys : Nat → Bool → List Char → Option (List Piece × Bool × List Char)
  | 0, _, _ => none
  | fuel + 1, isFirst, cs =>
    match cs, isFirst with
    | '[' :: rest, _ => do
      let (key, rest) ← readKey fuel rest
      match rest with
      | ']' :: rest => do
        let (keys, _, rest) ← readKeys fuel false rest
        return (key :: keys, true, rest)
      | _ => none
    | '.' :: rest, false => do
      let (key, rest) ← readKey fuel rest
      let (keys, bracketed, rest) ← readKeys fuel false rest
      return (key :: keys, bracketed, rest)
    | cs, true => do
      let (key, rest) ← readKey fuel cs
      let (keys, bracketed, rest) ← readKeys fuel false rest
      return (key :: keys, bracketed, rest)
    | cs, false => some ([], false, cs)

def readKey : Nat → List Char → Option (Piece × List Char)
  | 0, _ => none
  | fuel + 1, cs =>
    match skipWhite cs with
    | '$' :: '{' :: rest => readReference fuel rest
    | _ => match keyChars cs with
      | ([], _) => none
      | (key, rest) => some (.words key, rest)

def readSlots : Nat → Char → List Char → Option (List (Option Operand) × List Char)
  | 0, _, _ => none
  | fuel + 1, closing, cs => do
    let (slot, rest) ← readOperand fuel cs
    match skipWhite rest with
    | ',' :: rest =>
      let (slots, rest) ← readSlots fuel closing (skipWhite rest)
      return (slot :: slots, rest)
    | c :: rest => if c = closing then return ([slot], rest) else none
    | [] => none

def readOperand : Nat → List Char → Option (Option Operand × List Char)
  | 0, _ => none
  | fuel + 1, cs =>
    match cs with
    | '[' :: rest => do
      let (slots, rest) ← readSlots fuel ']' (skipWhite rest)
      return (some (.list (Operand.ofSlots slots)), rest)
    | '{' :: rest => do
      let (entries, rest) ← readEntries fuel true (skipWhite rest)
      return (some (.group entries), rest)
    | '\'' :: rest => readQuoted fuel '\'' rest
    | '"' :: rest => readQuoted fuel '"' rest
    | cs => do
      let (pieces, plain, rest) ← readPlain fuel cs
      return (Operand.ofPieces plain pieces, rest)

def readQuoted : Nat → Char → List Char → Option (Option Operand × List Char)
  | 0, _, _ => none
  | fuel + 1, quote, cs => do
    let (pieces, rest) ← readPieces fuel (some quote) cs
    return (some (.text pieces), rest)

def readEntries : Nat → Bool → List Char → Option (List (Key × Operand) × List Char)
  | 0, _, _ => none
  | fuel + 1, isFirst, cs =>
    match cs, isFirst with
    | '}' :: rest, true => some ([], rest)
    | cs, _ => do
      let word := cs.takeWhile fun c => isOperandChar c && c ≠ ':'
      let (value, rest) ← match word, skipWhite (cs.drop word.length) with
        | [], _ => none
        | _, ':' :: rest => readOperand fuel (skipWhite rest)
        | _, _ => none
      match value, skipWhite rest with
      | some v, ',' :: rest =>
        let (entries, rest) ← readEntries fuel false (skipWhite rest)
        return ((keyOfWord word, v) :: entries, rest)
      | some v, '}' :: rest => return ([(keyOfWord word, v)], rest)
      | _, _ => none

/-- Reads an operand without quotes, and whether it is words without a backslash in front of them.
Blanks at its end do not belong to it. -/
def readPlain : Nat → List Char → Option (List Piece × Bool × List Char)
  | 0, _ => none
  | fuel + 1, cs =>
    match cs with
    | '$' :: '{' :: rest => do
      let (piece, rest) ← readReference fuel rest
      let (pieces, _, rest) ← readPlain fuel rest
      return (piece :: pieces, false, rest)
    | '\\' :: c :: rest =>
      if isEscapable c then do
        let (pieces, _, rest) ← readPlain fuel rest
        return (pushWord c pieces, false, rest)
      else do
        let (pieces, plain, rest) ← readPlain fuel (c :: rest)
        return (pushWord '\\' pieces, plain, rest)
    | c :: rest =>
      let ends := (skipWhite cs).head?.all fun d => [',', ']', '}'].contains d
      if isOperandChar c || (isWhite c && !ends) then do
        let (pieces, plain, rest) ← readPlain fuel rest
        return (pushWord c pieces, plain, rest)
      else some ([], true, cs)
    | [] => some ([], true, [])

/-- Splits a text into its pieces, up to the quote that closes it if it stands in quotes; there are
none if a reference is malformed. Of the backslashes in front of a reference or a quote every second
one is dropped. -/
def readPieces : Nat → Option Char → List Char → Option (List Piece × List Char)
  | 0, _, _ => none
  | _ + 1, quote, [] => if quote.isNone then some ([], []) else none
  | fuel + 1, quote, c :: rest =>
    let slashes := (c :: rest).takeWhile (· = '\\')
    let kept := slashes.take (slashes.length / 2)
    match (c :: rest).drop slashes.length with
    | '$' :: '{' :: after =>
      if slashes.length % 2 = 1 then do
        let (pieces, rest) ← readPieces fuel quote after
        return (pushWords (kept ++ ['$', '{']) pieces, rest)
      else do
        let (reference, after) ← readReference fuel after
        let (pieces, rest) ← readPieces fuel quote after
        return (pushWords kept (reference :: pieces), rest)
    | d :: after =>
      if quote = some d then
        if slashes.length % 2 = 1 then do
          let (pieces, rest) ← readPieces fuel quote after
          return (pushWords (kept ++ [d]) pieces, rest)
        else some (if kept.isEmpty then [] else [.words kept], after)
      else do
        let (pieces, rest) ← readPieces fuel quote after
        return (pushWords (slashes ++ [d]) pieces, rest)
    | [] => if quote.isNone then some ([.words slashes], []) else none

end

def pieces (s : String) : Option (List Piece) :=
  (readPieces (2 * s.length + 4) none s.toList).map Prod.fst

def operandOf (s : String) : Option Operand :=
  match readOperand (2 * s.length + 4) s.toList with
  | some (some operand, []) => some operand
  | _ => none

def hasReference (s : String) : Bool := Text.occursIn ['$', '{'] s.toList

mutual

/-- Whether every key is one that a group may have, and every reference is well formed. No key may be
a text that reads like another one. -/
def wellFormed : Setting → Bool
  | text s => !hasReference s || isPlainlyWritten s.toList || (pieces s).isSome
  | list items => allWellFormed items
  | group entries => entriesWellFormed entries && (entries.map fun e => e.1.shown).Nodup
  | foreign => false
  | _ => true

def allWellFormed : List Setting → Bool
  | [] => true
  | v :: rest => v.wellFormed && allWellFormed rest

def entriesWellFormed : List (Key × Setting) → Bool
  | [] => true
  | (key, v) :: rest => key.isAllowed && v.wellFormed && entriesWellFormed rest

end

end ShowControl.Setting

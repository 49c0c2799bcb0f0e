import ShowControl.Text.Quoted

/-! What a command answers, and how it is written: as JSON in ASCII, on one line or indented. -/

set_option autoImplicit false
namespace ShowControl.CommandLine

inductive Answer where
  | absent
  | flag (b : Bool)
  | number (n : Nat)
  | text (s : String)
  | list (items : List Answer)
  | group (entries : List (String × Answer))

namespace Answer

def unitEscape (n : Nat) : List Char := '\\' :: 'u' :: Text.hexDigits 4 n

def charEscape (c : Char) : List Char :=
  let n := c.toNat
  if c = '"' || c = '\\' then ['\\', c]
  else if c = '\n' then ['\\', 'n']
  else if c = '\r' then ['\\', 'r']
  else if c = '\t' then ['\\', 't']
  else if n = 8 then ['\\', 'b']
  else if n = 12 then ['\\', 'f']
  else if 0x20 ≤ n && n ≤ 0x7e then [c]
  else if n < 0x10000 then unitEscape n
  else unitEscape (0xd800 + (n - 0x10000) / 0x400) ++ unitEscape (0xdc00 + (n - 0x10000) % 0x400)

def quotedText (s : String) : String :=
  String.ofList ('"' :: s.toList.flatMap charEscape ++ ['"'])

def bracketed (opening closing before between : String) (parts : List String) (after : String) :
    String :=
  if parts.isEmpty then opening ++ closing
  else opening ++ before ++ between.intercalate parts ++ after ++ closing

mutual

def compact : Answer → String
  | absent => "null"
  | flag b => if b then "true" else "false"
  | number n => toString n
  | text s => quotedText s
  | list items => bracketed "[" "]" "" ", " (compactItems items) ""
  | group entries => bracketed "\x7b" "\x7d" "" ", " (compactEntries entries) ""

def compactItems : List Answer → List String
  | [] => []
  | a :: rest => a.compact :: compactItems rest

def compactEntries : List (String × Answer) → List String
  | [] => []
  | (key, a) :: rest => (quotedText key ++ ": " ++ a.compact) :: compactEntries rest

end

def lineAt (depth : Nat) : String := "\n" ++ String.ofList (List.replicate (2 * depth) ' ')

mutual

def indented (depth : Nat) : Answer → String
  | list items =>
    bracketed "[" "]" (lineAt (depth + 1)) ("," ++ lineAt (depth + 1))
      (indentedItems (depth + 1) items) (lineAt depth)
  | group entries =>
    bracketed "\x7b" "\x7d" (lineAt (depth + 1)) ("," ++ lineAt (depth + 1))
      (indentedEntries (depth + 1) entries) (lineAt depth)
  | a => a.compact

def indentedItems (depth : Nat) : List Answer → List String
  | [] => []
  | a :: rest => a.indented depth :: indentedItems depth rest

def indentedEntries (depth : Nat) : List (String × Answer) → List String
  | [] => []
  | (key, a) :: rest => (quotedText key ++ ": " ++ a.indented depth) :: indentedEntries depth rest

end

def written (pretty : Bool) (a : Answer) : String :=
  (if pretty then a.indented 0 else a.compact) ++ "\n"

end Answer

end ShowControl.CommandLine

import ShowControl.Decimal.Numeral
import ShowControl.Text.Pattern

/-! Tags, and the one that a plain text has by its form. -/

set_option autoImplicit false
namespace ShowControl.Yaml

inductive Tag where
  | text
  | integer
  | real
  | flag
  | missing
  /-- Octets, in base 64. -/
  | octets
  | date
  | list
  | map
  | set
  /-- A list of pairs, each written as a map with one entry. -/
  | pairs
  /-- The key `<<`, whose value is a map with further entries. -/
  | merge
  /-- The key `=`, whose value stands for the map. -/
  | standard
  | other
  deriving DecidableEq, Repr

namespace Tag

def lead : String := "tag:yaml.org,2002:"

def names : List (String × Tag) :=
  [("str", text), ("int", integer), ("float", real), ("bool", flag), ("null", missing),
   ("binary", octets), ("timestamp", date), ("seq", list), ("map", map), ("set", set),
   ("omap", pairs), ("pairs", pairs), ("merge", merge), ("value", standard)]

def ofName (name : String) : Tag :=
  ((names.find? fun e => lead ++ e.1 = name).map Prod.snd).getD other

def nullWords : List String := ["", "~", "null", "Null", "NULL"]

def trueWords : List String := ["yes", "Yes", "YES", "true", "True", "TRUE", "on", "On", "ON"]

def falseWords : List String := ["no", "No", "NO", "false", "False", "FALSE", "off", "Off", "OFF"]

section

open Text.Pattern

def sign : Text.Pattern := optional (letter "+-")

def loose : Text.Pattern := many (char fun c => c.isDigit || c = '_')

def led : Text.Pattern := seq digit loose

def spaced : Text.Pattern := seq (some digit) (many (seq (letter "_") (some digit)))

def sixtieths : Text.Pattern :=
  some (chain [letter ":", optional (char fun c => '0' ≤ c && c ≤ '5'), digit])

def integerForm : Text.Pattern :=
  seq sign <| oneOf
    [seq (word "0b") (some (letter "01_")),
     seq (word "0") (some (char fun c => ('0' ≤ c && c ≤ '7') || c = '_')),
     word "0",
     seq (char fun c => '1' ≤ c && c ≤ '9') loose,
     seq (word "0x") (some (char fun c =>
       c.isDigit || ('a' ≤ c && c ≤ 'f') || ('A' ≤ c && c ≤ 'F') || c = '_')),
     chain [char fun c => '1' ≤ c && c ≤ '9', loose, sixtieths]]

def power (signed : Text.Pattern) : Text.Pattern := chain [letter "eE", signed, some digit]

def realForm : Text.Pattern :=
  oneOf
    [chain [sign, led, word ".", loose, optional (power (letter "+-"))],
     chain [sign, spaced, word ".", loose, optional (power sign)],
     chain [sign, spaced, power sign],
     chain [word ".", led, optional (power (letter "+-"))],
     chain [sign, led, sixtieths, word ".", loose],
     seq sign (oneOf [word ".inf", word ".Inf", word ".INF"]),
     oneOf [word ".nan", word ".NaN", word ".NAN"]]

end

def ofPlain (s : String) : Tag :=
  if nullWords.contains s then missing
  else if trueWords.contains s || falseWords.contains s then flag
  else if s = "<<" then merge
  else if s = "=" then standard
  else if realForm.admits s.toList then real
  else if integerForm.admits s.toList then integer
  else text

end Tag

end ShowControl.Yaml

import ShowControl.Yaml.Value

/-! A text as a document. -/

set_option autoImplicit false
namespace ShowControl.Yaml

/-- Reads a document. An empty one has no setting. -/
def parse (text : String) : Except Fault Setting := do
  let cs := text.toList
  unless cs.all isAllowed do throw .character
  let cs := if cs.head? = some '\ufeff' then cs.drop 1 else cs
  match ← Node.ofText? cs with
  | none => return .missing
  | some node => (node.setting (cs.length + 2) 0).mapError Prod.snd

def withLineFeeds : List Char → List Char
  | [] => []
  | '\r' :: '\n' :: rest => '\n' :: withLineFeeds rest
  | '\r' :: rest => '\n' :: withLineFeeds rest
  | c :: rest => c :: withLineFeeds rest

def parseFile (text : String) : Except Fault Setting :=
  parse (String.ofList (withLineFeeds text.toList))

end ShowControl.Yaml

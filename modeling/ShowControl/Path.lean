/-! Paths, and what is found under them. -/

set_option autoImplicit false
namespace ShowControl.Path

def parts (path : String) : List String :=
  (path.splitOn "/").filter fun part => part ≠ "" && part ≠ "."

def isRooted (path : String) : Bool := path.toList.head? = some '/'

def rooted (parts : List String) : String := "/" ++ "/".intercalate parts

/-- The path without parts that lead nowhere. Two slashes in front, and no third one, stay. -/
def plain (path : String) : String :=
  match isRooted path, parts path with
  | true, parts =>
    let slashes := (path.toList.takeWhile (· = '/')).length
    if slashes = 2 then "/" ++ rooted parts else rooted parts
  | false, [] => "."
  | false, parts => "/".intercalate parts

def descend (folder : List String) (parts : List String) : List String :=
  parts.foldl (fun folder part => if part = ".." then folder.dropLast else folder ++ [part]) folder

/-- The home folder of an account, by the tilde and the name of the account. The tilde alone stands for
the account that the program runs under. -/
def homeFolder? (home word : String) : Option String :=
  if word = "~" then some home
  else if word = "~root" then some "/root"
  else none

def expand (home path : String) : Option String :=
  match isRooted path, parts path with
  | false, word :: rest =>
    if word.toList.head? = some '~' then
      (homeFolder? home word).map fun folder => rooted (parts folder ++ rest)
    else some (plain path)
  | _, _ => some (plain path)

def noHomeMessage : String := "Could not determine home directory."

/-- The rooted form of a path that is written in a folder. There is none if the path starts at a home
folder that does not exist. -/
def resolve (home folder path : String) : Option String :=
  (expand home path).map fun path =>
    rooted (descend (if isRooted path then [] else parts folder) (parts path))

inductive Found where
  | file (text : String)
  | folder
  | nothing

/-- Files by their rooted paths, part by part. Their folders exist, and so does the one that one is in. -/
structure Tree where
  here : List String
  files : List (List String × String)

namespace Tree

def isFolder (t : Tree) (place : List String) : Bool :=
  place.isPrefixOf t.here || t.files.any fun (file, _) => place.isPrefixOf file && place ≠ file

/-- Goes along the parts of a path. Every step, also one that leads nowhere, starts from a folder. -/
def follow (t : Tree) (place : List String) : List String → Option (List String)
  | [] => some place
  | part :: rest =>
    if t.isFolder place then
      if part = "" || part = "." then t.follow place rest
      else if part = ".." then t.follow place.dropLast rest
      else t.follow (place ++ [part]) rest
    else none

def find (t : Tree) (path : String) : Found :=
  if path = "" then .nothing
  else match t.follow (if isRooted path then [] else t.here) (path.splitOn "/") with
    | none => .nothing
    | some place =>
      if t.isFolder place then .folder
      else match t.files.lookup place with
        | some text => .file text
        | none => .nothing

end Tree

end ShowControl.Path

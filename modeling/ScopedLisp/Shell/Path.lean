import ScopedLisp.Text.Range

namespace ScopedLisp

structure Path where
  slashes : Nat
  parts : List String
deriving DecidableEq

structure Homes where
  own : String
  accounts : List (String × String)

def Homes.accountsOf (table : String) : List (String × String) :=
  (Text.fields '\n' table).filterMap fun line =>
    match Text.fields ':' line with
    | name :: _ :: _ :: _ :: _ :: home :: _ => some (name, home)
    | _ => none

namespace Path

def isSlash (c : Char) : Bool := c == '/'

def parse (text : String) : Path :=
  let leading := (text.toList.takeWhile isSlash).length
  { slashes := if leading ≤ 2 then leading else 1
    parts := (Text.fields '/' text).filter fun part => part != "" && part != "." }

def text (p : Path) : String :=
  let plain := String.ofList (List.replicate p.slashes '/') ++ Text.joinWith "/" p.parts
  if plain = "" then "." else plain

def join (p : Path) (parts : List String) : Path := { p with parts := p.parts ++ parts }

def home? (homes : Homes) (part : String) : Option String :=
  if part = "~" then some homes.own else homes.accounts.lookup (part.drop 1).toString

def ofHome (folder : String) : Path :=
  let trimmed := String.ofList (Text.dropEnd isSlash folder.toList)
  parse (if trimmed = "" then "/" else trimmed)

def expand? (homes : Homes) (p : Path) : Option Path :=
  match p.slashes, p.parts with
  | 0, first :: rest =>
    if first.startsWith "~" then (home? homes first).map fun folder => (ofHome folder).join rest
    else some p
  | _, _ => some p

end Path

end ScopedLisp

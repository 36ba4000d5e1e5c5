import ScopedLisp.Named
import ScopedLisp.Shell.Path

namespace ScopedLisp

inductive FileFault where
  | notFound
  | notFolder
  | isFolder
  | invalid
  | denied
  | nameTooLong
deriving DecidableEq

def FileFault.message : FileFault → String
  | .notFound => "[Errno 2] No such file or directory"
  | .notFolder => "[Errno 20] Not a directory"
  | .isFolder => "[Errno 21] Is a directory"
  | .invalid => "[Errno 22] Invalid argument"
  | .denied => "[Errno 13] Permission denied"
  | .nameTooLong => "[Errno 36] File name too long"

inductive Node where
  | file (text : String)
  | folder (entries : List (String × Node))

namespace Node

def at? : Node → List String → Option Node
  | node, [] => some node
  | .file _, _ :: _ => none
  | .folder entries, name :: trail =>
    match entries.lookup name with
    | some node => at? node trail
    | none => none

def put (text : String) : Node → List String → Node
  | _, [] => .file text
  | .file old, _ :: _ => .file old
  | .folder entries, name :: trail =>
    let below := (entries.lookup name).getD (.folder [])
    .folder (Named.put entries name (put text below trail))

def names : Node → List String
  | .file _ => []
  | .folder entries => entries.map (·.1)

end Node

structure Disk where
  root : Node
  current : List String

namespace Disk

def nameLimit : Nat := 255

def pathLimit : Nat := 4095

def walk (root : Node) (trail : List String) : List String → Except FileFault (List String)
  | [] => .ok trail
  | part :: parts =>
    match root.at? trail with
    | none => .error .notFound
    | some (.file _) => .error .notFolder
    | some (.folder _) =>
      if nameLimit < part.utf8ByteSize then .error .nameTooLong
      else walk root (if part = ".." then trail.dropLast else trail ++ [part]) parts

def trail (d : Disk) (p : Path) : Except FileFault (List String) :=
  if pathLimit < p.text.utf8ByteSize then .error .nameTooLong
  else walk d.root (if p.slashes = 0 then d.current else []) p.parts

def read (d : Disk) (p : Path) : Except FileFault String :=
  match d.trail p with
  | .error fault => .error fault
  | .ok trail =>
    match d.root.at? trail with
    | none => .error .notFound
    | some (.file text) => .ok text
    | some (.folder _) => .error .invalid

def standInLength : Nat := 10

def write (d : Disk) (p : Path) (text : String) : Except FileFault Disk :=
  match d.trail p with
  | .error fault => .error fault
  | .ok trail =>
    let written : Disk := { d with root := d.root.put text trail }
    match d.root.at? trail with
    | some (.folder _) => .error .isFolder
    | some (.file _) =>
      let name := (p.parts.getLast?.getD "").utf8ByteSize
      if pathLimit < p.text.utf8ByteSize + standInLength || nameLimit < name + standInLength then
        .error .nameTooLong
      else .ok written
    | none => .ok written

end Disk

end ScopedLisp

import ScopedLisp.Fault
import ScopedLisp.Named

/-!
Frames of bindings and the store that holds them. A frame is named by its place in the store and
may continue in an outer frame; look-up goes outward along the chain of these, and a write touches
one frame only.
-/

namespace ScopedLisp

open Text

structure Frame where
  outer : Option FrameId
  bindings : List (String × Value)

namespace Frame

def get? (f : Frame) (name : String) : Option Value := f.bindings.lookup name

def set (f : Frame) (name : String) (v : Value) : Frame :=
  { f with bindings := Named.put f.bindings name v }

@[simp] theorem get?_set (f : Frame) (name other : String) (v : Value) :
    (f.set name v).get? other = if other = name then some v else f.get? other :=
  Named.lookup_put ..

@[simp] theorem outer_set (f : Frame) (name : String) (v : Value) :
    (f.set name v).outer = f.outer := rfl

def bindingText (b : String × Value) : String := b.1 ++ ": " ++ b.2.detailed

def bindingsText (f : Frame) : String :=
  "\x7b" ++ joinWith ", " (f.bindings.map bindingText) ++ "\x7d"

def text (f : Frame) : String := f.bindingsText ++ if f.outer.isSome then " -> ..." else ""

def fault? (f : Frame) : Option WritingFault :=
  Value.faultEach? .detailed Value.writingRoom (f.bindings.map (·.2))

end Frame

inductive Event where
  | parsed (program : Value)
  | called (name : String) (frame : Frame) (depth : Nat)

structure Store where
  frames : Array Frame
  events : Option (List Event)

namespace Store

def empty : Store := ⟨#[], none⟩

def allocate (s : Store) (outer : Option FrameId) : FrameId × Store :=
  (s.frames.size, { s with frames := s.frames.push ⟨outer, []⟩ })

def extend (s : Store) (i : FrameId) : FrameId × Store := s.allocate (some i)

/-- The frames from one outward, by their places. An outer frame is older than the frame that
continues in it, which is what ends the walk. -/
def chain (s : Store) (i : FrameId) : List FrameId :=
  match s.frames[i]? with
  | none => []
  | some f => i :: match f.outer with
    | none => []
    | some o => if o < i then chain s o else []
termination_by i

def get? (s : Store) (i : FrameId) (name : String) : Option Value :=
  s.frames[i]?.bind (·.get? name)

def find? (s : Store) (i : FrameId) (name : String) : Option FrameId :=
  (s.chain i).find? fun j => (s.get? j name).isSome

def lookup? (s : Store) (i : FrameId) (name : String) : Option Value :=
  (s.find? i name).bind (s.get? · name)

def set (s : Store) (i : FrameId) (name : String) (v : Value) : Store :=
  { s with frames := s.frames.modify i (·.set name v) }

def root (s : Store) (i : FrameId) : FrameId := (s.chain i).getLast?.getD i

def depth (s : Store) (i : FrameId) : Nat := (s.chain i).length - 1

def chainText (s : Store) (i : FrameId) : String :=
  "<Environment chain: "
    ++ joinWith " -> " ((s.chain i).filterMap fun j => s.frames[j]?.map (·.bindingsText)) ++ ">"

def frameText (s : Store) (i : FrameId) : String := (s.frames[i]?.map (·.text)).getD ""

def frameText? (s : Store) (i : FrameId) : Except WritingFault String :=
  match s.frames[i]?.bind (·.fault?) with
  | some fault => .error fault
  | none => .ok (s.frameText i)

def chainText? (s : Store) (i : FrameId) : Except WritingFault String :=
  match (s.chain i).findSome? fun j => s.frames[j]?.bind (·.fault?) with
  | some fault => .error fault
  | none => .ok (s.chainText i)

def findValue? (s : Store) (i : FrameId) : Value → Option FrameId
  | .symbol name => s.find? i name
  | _ => none

def contains (s : Store) (i : FrameId) (name : Value) : Bool := (s.findValue? i name).isSome

def lookupValue (s : Store) (i : FrameId) (name : Value) : Except Fault Value :=
  match name with
  | .symbol n =>
    match s.lookup? i n with
    | some v => .ok v
    | none => .error (.unbound name)
  | _ => .error (.unbound name)

def setValue (s : Store) (i : FrameId) (name v : Value) : Except Fault Store :=
  match name with
  | .symbol n => .ok (s.set i n v)
  | _ => .error (.unbindable name)

def put : List (Value × Value) → Value → Value → List (Value × Value)
  | [], name, v => [(name, v)]
  | (n, w) :: rest, name, v => if n.equal name then (n, v) :: rest else (n, w) :: put rest name v

def mapping (pairs : List (Value × Value)) : List (Value × Value) :=
  pairs.foldl (fun done p => put done p.1 p.2) []

def update (s : Store) (i : FrameId) : List (Value × Value) → Option Fault × Store
  | [] => (none, s)
  | (name, v) :: rest =>
    match s.setValue i name v with
    | .error fault => (some fault, s)
    | .ok s => update s i rest

end Store

end ScopedLisp

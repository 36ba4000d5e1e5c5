import ScopedLisp.Number.Written
import ScopedLisp.Text.Quoted
import ScopedLisp.Value

/-!
The written forms of a value. `display` is how results are shown, and what is shown of numbers,
symbols, lists and closures can be read again. `detailed` tells all kinds apart; messages show a
value in the `plain` form, which is bare for a symbol or a text and detailed within a list.
-/

namespace ScopedLisp

open Text

def integerText (i : Int) : String :=
  String.ofList ((if i < 0 then ['-'] else []) ++ Nat.toDigits 10 i.natAbs)

namespace Value

mutual

def detailed : Value → String
  | .number n => n.detailed
  | .symbol name => "Symbol(" ++ quoted name ++ ")"
  | .nil => "nil"
  | .list items => "[" ++ joinWith ", " (detailedEach items) ++ "]"
  | .closure params body _ =>
    "Lambda([" ++ joinWith ", " (detailedEach params) ++ "], ["
      ++ joinWith ", " (detailedEach body) ++ "])"
  | .integer i => integerText i
  | .text s => quoted s

def detailedEach : List Value → List String
  | [] => []
  | v :: vs => detailed v :: detailedEach vs

end

mutual

def display : Value → String
  | .number n => n.display
  | .symbol name => name
  | .nil => "nil"
  | .list items => "(" ++ joinWith " " (displayEach items) ++ ")"
  | .closure params body _ =>
    "fn(" ++ joinWith " " (plainEach params) ++ ") (" ++ joinWith " " (displayEach body) ++ ")"
  | .integer i => (Number.ofInt i).display
  | .text s => quoted s

def displayEach : List Value → List String
  | [] => []
  | v :: vs => display v :: displayEach vs

def plain : Value → String
  | .symbol name => name
  | .text s => s
  | .closure params body _ =>
    "fn(" ++ joinWith " " (plainEach params) ++ ") (" ++ joinWith " " (displayEach body) ++ ")"
  | .number n => n.detailed
  | .nil => "nil"
  | .list items => "[" ++ joinWith ", " (detailedEach items) ++ "]"
  | .integer i => integerText i

def plainEach : List Value → List String
  | [] => []
  | v :: vs => plain v :: plainEach vs

end

theorem detailedEach_eq_map (vs : List Value) : detailedEach vs = vs.map detailed := by
  induction vs with
  | nil => rfl
  | cons v vs ih => simp [detailedEach, ih]

theorem displayEach_eq_map (vs : List Value) : displayEach vs = vs.map display := by
  induction vs with
  | nil => rfl
  | cons v vs ih => simp [displayEach, ih]

theorem plainEach_eq_map (vs : List Value) : plainEach vs = vs.map plain := by
  induction vs with
  | nil => rfl
  | cons v vs ih => simp [plainEach, ih]

theorem plain_closure (params body : List Value) (home : Option FrameId) :
    plain (.closure params body home) = display (.closure params body home) := rfl

end Value

inductive WritingFault where
  | hugeInteger
  | tooDeep
deriving DecidableEq

namespace WritingFault

def message : WritingFault → String
  | .hugeInteger => "int too large to convert to float"
  | .tooDeep => "result nested too deeply to display"

end WritingFault

inductive Style where
  | display | plain | detailed
deriving DecidableEq

namespace Style

def ofItems : Style → Style
  | .display => .display
  | .plain | .detailed => .detailed

def listRoom : Style → Nat
  | .display => 3
  | .plain | .detailed => 1

def params : Style → Nat × Style
  | .display => (5, .plain)
  | .plain => (4, .plain)
  | .detailed => (3, .detailed)

def body : Style → Nat × Style
  | .display => (6, .display)
  | .plain => (5, .display)
  | .detailed => (3, .detailed)

end Style

namespace Value

def lacking (room cost : Nat) : Option WritingFault :=
  if room < cost then some .tooDeep else none

mutual

/-- What keeps a value from being written in a form when there is so much room for nesting. Of
several faults it is the one that writing comes to first. -/
def fault? : Style → Nat → Value → Option WritingFault
  | .display, _, .integer i => if (Number.ofInt i).isInfinite then some .hugeInteger else none
  | style, room, .list items =>
    lacking room style.listRoom <|> faultEach? style.ofItems (room - style.listRoom) items
  | style, room, .closure params body _ =>
    lacking room style.params.1 <|> faultEach? style.params.2 (room - style.params.1) params
      <|> lacking room style.body.1 <|> faultEach? style.body.2 (room - style.body.1) body
  | _, _, _ => none

def faultEach? : Style → Nat → List Value → Option WritingFault
  | _, _, [] => none
  | style, room, v :: vs => fault? style room v <|> faultEach? style room vs

end

theorem faultEach?_eq_none_iff {style : Style} {room : Nat} {vs : List Value} :
    faultEach? style room vs = none ↔ ∀ v ∈ vs, v.fault? style room = none := by
  induction vs with
  | nil => simp [faultEach?]
  | cons v vs ih => simp [faultEach?, ih]

theorem lacking_eq_none_iff {room cost : Nat} : lacking room cost = none ↔ cost ≤ room := by
  rw [lacking]
  split <;> simp <;> omega

theorem fault?_list (style : Style) (room : Nat) (items : List Value) :
    fault? style room (.list items) =
      (lacking room style.listRoom <|> faultEach? style.ofItems (room - style.listRoom) items) := by
  cases style <;> rfl

theorem fault?_list_eq_none_iff {style : Style} {room : Nat} {items : List Value} :
    fault? style room (.list items) = none ↔ style.listRoom ≤ room ∧
      ∀ v ∈ items, v.fault? style.ofItems (room - style.listRoom) = none := by
  simp [fault?_list, lacking_eq_none_iff, faultEach?_eq_none_iff]

def writingRoom : Nat := 980

def display? (v : Value) : Except WritingFault String :=
  match v.fault? .display writingRoom with
  | some fault => .error fault
  | none => .ok v.display

end Value

end ScopedLisp

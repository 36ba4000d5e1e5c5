import ScopedLisp.Text.Case
import ScopedLisp.Text.Quoted
import ScopedLisp.Text.Space

namespace ScopedLisp

open Text

inductive Scoping where
  | dynamic
  | lexical
deriving DecidableEq

structure UnknownScoping where
  mode : String
deriving DecidableEq

def UnknownScoping.message (fault : UnknownScoping) : String :=
  "Unknown scoping mode " ++ quoted fault.mode ++ ", expected one of dynamic, lexical"

namespace Scoping

def name : Scoping → String
  | .dynamic => "dynamic"
  | .lexical => "lexical"

def parse (text : String) : Except UnknownScoping Scoping :=
  let mode := lower (trim text)
  if mode = "dynamic" then .ok .dynamic
  else if mode = "lexical" then .ok .lexical
  else .error ⟨mode⟩

theorem lower_trim_name (mode : Scoping) : lower (trim mode.name) = mode.name := by
  have htrim : trim mode.name = mode.name := by cases mode <;> decide +kernel
  have hlatin : mode.name.toList.all (fun c => 0x61 ≤ c.toNat && c.toNat ≤ 0x7a) = true := by
    cases mode <;> decide +kernel
  rw [htrim]
  apply lower_latin
  intro c hc
  have hletter := List.all_eq_true.mp hlatin c hc
  simpa using hletter

theorem parse_name (mode : Scoping) : parse mode.name = .ok mode := by
  simp only [parse, lower_trim_name]
  cases mode <;> simp [name]

def ofSetting : Option String → Except UnknownScoping Scoping
  | none => .ok .dynamic
  | some text => if text = "" then .ok .dynamic else parse text

end Scoping

structure Ambient where
  override : Option Scoping
  saved : List (Option Scoping)
  setting : Option String

namespace Ambient

def initial : Ambient := ⟨none, [], none⟩

def current (a : Ambient) : Except UnknownScoping Scoping :=
  match a.override with
  | some mode => .ok mode
  | none => Scoping.ofSetting a.setting

def override? : Option String → Except UnknownScoping (Option Scoping)
  | none => .ok none
  | some text => (Scoping.parse text).map some

def choose (a : Ambient) (mode : Option String) : Except UnknownScoping Ambient :=
  (override? mode).map fun mode => { a with override := mode }

def enterMode (a : Ambient) (mode : Scoping) : Ambient :=
  { a with override := some mode, saved := a.override :: a.saved }

def enter (a : Ambient) (mode : String) : Except UnknownScoping Ambient :=
  (Scoping.parse mode).map a.enterMode

def leave (a : Ambient) : Ambient :=
  match a.saved with
  | [] => a
  | before :: outer => { a with override := before, saved := outer }

def configure (a : Ambient) (setting : Option String) : Ambient := { a with setting := setting }

@[simp] theorem leave_enterMode (a : Ambient) (mode : Scoping) : (a.enterMode mode).leave = a := rfl

@[simp] theorem current_enterMode (a : Ambient) (mode : Scoping) :
    (a.enterMode mode).current = .ok mode := rfl

end Ambient

end ScopedLisp

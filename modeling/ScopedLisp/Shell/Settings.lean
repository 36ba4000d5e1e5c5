import ScopedLisp.Shell.Log
import ScopedLisp.Shell.Path

namespace ScopedLisp

open Text

structure Settings where
  scoping : Option String
  prompt : Option String
  historyFile : Option String
  logLevel : Option String

inductive SettingFault where
  | scoping (fault : UnknownScoping)
  | logLevel (name : String)
  | noHome
  | bareScoping
deriving DecidableEq

def SettingFault.message : SettingFault → String
  | .scoping fault => fault.message
  | .logLevel name => "Unknown log level " ++ quoted name
  | .noHome => "Could not determine home directory."
  | .bareScoping => "No scoping mode given"

namespace Settings

def unset : Settings := ⟨none, none, none, none⟩

def scopingMode (s : Settings) : Except SettingFault Scoping :=
  (Scoping.ofSetting s.scoping).mapError .scoping

def promptText (s : Settings) : String := s.prompt.getD "λ "

def threshold (s : Settings) : Except SettingFault Level :=
  let text := s.logLevel.getD ""
  let name := upper (trim (if text = "" then "WARNING" else text))
  match Level.ofName? name with
  | some level => .ok level
  | none => .error (.logLevel name)

def historyPath (s : Settings) (homes : Homes) : Except SettingFault (Option Path) :=
  match s.historyFile with
  | none => .ok (some ((Path.ofHome homes.own).join [".slisp_history"]))
  | some text =>
    if trim text = "" then .ok none
    else match (Path.parse (trim text)).expand? homes with
      | some path => .ok (some path)
      | none => .error .noHome

end Settings

end ScopedLisp

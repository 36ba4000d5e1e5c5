import ScopedLisp.Shell.Dialogue
import ScopedLisp.Shell.History
import ScopedLisp.Shell.Options
import ScopedLisp.Shell.Settings

namespace ScopedLisp

open Text

structure Host where
  settings : Settings
  homes : Homes
  disk : Disk

structure Transcript where
  exitCode : Nat
  output : String
  errors : String
  unread : List Input
  broken : Option Failure

structure Launch where
  outcome : Except SettingFault Transcript
  history : History

namespace Launch

def versionText : String := "slisp 0.1.0\n"

def helpText : String :=
  "usage: slisp [-h] [--scoping \x7bdynamic,lexical\x7d] [--log-level LOG_LEVEL]"
    ++ " [--no-history] [--version]\n"

def stopped (inputs : List Input) : Options.Stop → Transcript
  | .help => ⟨0, helpText, "", inputs, none⟩
  | .version => ⟨0, versionText, "", inputs, none⟩
  | .fault fault => ⟨2, "", "slisp: error: " ++ fault.message ++ "\n", inputs, none⟩

inductive Refusal where
  | stop (stop : Options.Stop)
  | setting (fault : SettingFault)

structure Plan where
  level : Level
  historyFile : Option Path
  mode : Except SettingFault Scoping
  prompt : String

def threshold (o : Options) (s : Settings) : Except Refusal Level :=
  match o.logLevel with
  | .absent | .bare | .value "" => s.threshold.mapError .setting
  | .value name =>
    match Level.ofName? (upper name) with
    | some level => .ok level
    | none => .error (.stop (.fault (.unknownLevel name)))

def historyPath (o : Options) (s : Settings) (homes : Homes) : Except SettingFault (Option Path) :=
  if o.history then s.historyPath homes else .ok none

def mode (o : Options) (s : Settings) : Except SettingFault Scoping :=
  match o.scoping with
  | .value mode => .ok mode
  | .bare => .error .bareScoping
  | .absent => s.scopingMode

def plan (s : Settings) (homes : Homes) (words : List String) : Except Refusal Plan := do
  let o ← (Options.parse words).mapError .stop
  let level ← threshold o s
  let historyFile ← (historyPath o s homes).mapError .setting
  pure ⟨level, historyFile, mode o s, s.promptText⟩

def interpreter (mode : Scoping) : Interpreter × Store :=
  let (root, store) := Store.empty.allocate none
  (⟨mode, root⟩, store)

def opening : Output := .log (.shell .info "session started")

def closing : Output := .log (.shell .info "session ended")

def ending : Option Failure → Nat × List Output × String
  | none => (0, [closing], "")
  | some failure => (1, [], failure.message ++ "\n")

def converse (red : String → String) (mode : Scoping) (prompt : String) (threshold : Level)
    (before : List LogLine) (inputs : List Input) : Transcript :=
  let (i, store) := interpreter mode
  let dialogue := Dialogue.run threshold.hearsEvents i store inputs
  let (exitCode, last, words) := ending dialogue.broken
  let outputs := before.map .log ++ opening :: dialogue.outputs ++ last
  { exitCode
    output := String.join (outputs.map (Output.onOutput prompt))
    errors := String.join (outputs.map (Output.onError red threshold)) ++ words
    unread := dialogue.unread
    broken := dialogue.broken }

def plainWith (red : String → String) (settings : Settings) (scoping prompt : Option String)
    (inputs : List Input) : Except SettingFault Transcript :=
  let mode : Except SettingFault Scoping := match scoping with
    | some name => (Scoping.parse name).mapError .scoping
    | none => settings.scopingMode
  mode.map fun mode => converse red mode (prompt.getD settings.promptText) .warning [] inputs

def refused (inputs : List Input) : Refusal → Except SettingFault Transcript
  | .stop stop => .ok (stopped inputs stop)
  | .setting fault => .error fault

def runWith (red : String → String) (entriesOf : String → List String) (host : Host)
    (words : List String) (inputs : List Input) : Launch :=
  match plan host.settings host.homes words with
  | .error refusal => ⟨refused inputs refusal, ⟨[], none⟩⟩
  | .ok p =>
    let (history, logged) := History.load entriesOf host.disk p.historyFile
    ⟨p.mode.map fun mode => converse red mode p.prompt p.level logged inputs, history⟩

/-- One colouring, the escapes that most terminals understand. -/
def red (text : String) : String := "\x1b[31m" ++ text ++ "\x1b[0m"

def plain (settings : Settings) (scoping prompt : Option String) (inputs : List Input) :
    Except SettingFault Transcript :=
  plainWith red settings scoping prompt inputs

def run (host : Host) (words : List String) (inputs : List Input) : Launch :=
  runWith red History.parse host words inputs

def finish (l : Launch) (typed : List String) (disk : Disk) : Disk × List LogLine :=
  (l.history.type typed).save disk

end Launch

end ScopedLisp

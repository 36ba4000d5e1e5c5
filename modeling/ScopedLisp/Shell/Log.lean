import ScopedLisp.Interpreter

namespace ScopedLisp

inductive Level where
  | critical | error | warning | info | debug | notset
deriving DecidableEq

namespace Level

def value : Level → Nat
  | .critical => 50
  | .error => 40
  | .warning => 30
  | .info => 20
  | .debug => 10
  | .notset => 0

def name : Level → String
  | .critical => "CRITICAL"
  | .error => "ERROR"
  | .warning => "WARNING"
  | .info => "INFO"
  | .debug => "DEBUG"
  | .notset => "NOTSET"

def named : List (String × Level) :=
  [("CRITICAL", .critical), ("FATAL", .critical), ("ERROR", .error), ("WARNING", .warning),
    ("WARN", .warning), ("INFO", .info), ("DEBUG", .debug), ("NOTSET", .notset)]

def ofName? (name : String) : Option Level := named.lookup name

def hearsEvents (threshold : Level) : Bool := threshold.value ≤ debug.value

end Level

structure LogLine where
  level : Level
  source : String
  message : String

namespace LogLine

def text (l : LogLine) : String := l.level.name ++ " " ++ l.source ++ ": " ++ l.message ++ "\n"

def reaches (l : LogLine) (threshold : Level) : Bool := threshold.value ≤ l.level.value

def shell (level : Level) (message : String) : LogLine := ⟨level, "slisp.repl", message⟩

def ofEvent : Event → LogLine
  | .parsed program => ⟨.debug, "slisp.interpreter", "parsed " ++ program.detailed⟩
  | .called name frame depth =>
    ⟨.debug, "slisp.evaluation.apply",
      "call " ++ name ++ " with " ++ frame.text ++ " at frame depth " ++ Fault.natText depth⟩

end LogLine

end ScopedLisp

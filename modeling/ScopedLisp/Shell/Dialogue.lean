import ScopedLisp.Shell.Log

namespace ScopedLisp

open Text

inductive Input where
  | line (text : String)
  | interrupt
deriving DecidableEq

inductive Output where
  | prompt
  | newline
  | result (text : String)
  | complaint (message : String)
  | log (line : LogLine)
  | event (e : Event)

namespace Output

def onOutput (prompt : String) : Output → String
  | .prompt => prompt
  | .newline => "\n"
  | .result text => text ++ "\n"
  | .complaint _ | .log _ | .event _ => ""

def onError (red : String → String) (threshold : Level) : Output → String
  | .complaint message => red ("error: " ++ message) ++ "\n"
  | .log line => if line.reaches threshold then line.text else ""
  | .event e => if threshold.hearsEvents then (LogLine.ofEvent e).text else ""
  | .prompt | .newline | .result _ => ""

end Output

structure Response where
  outputs : List Output
  store : Store
  broken : Option Failure

structure Dialogue where
  outputs : List Output
  unread : List Input
  store : Store
  broken : Option Failure

namespace Dialogue

def quits : Input → Bool
  | .line text => trim text == "quit"
  | .interrupt => false

def reply : Except Failure Value → Except Failure Output
  | .ok v =>
    match v.display? with
    | .ok text => .ok (.result text)
    | .error .tooDeep => .ok (.complaint WritingFault.tooDeep.message)
    | .error .hugeInteger => .error (.evaluation .hugeInteger)
  | .error failure =>
    if failure.kind?.isSome then .ok (.complaint failure.message) else .error failure

def evaluateLine (listening : Bool) (i : Interpreter) (source : String) (s : Store) : Response :=
  let events := if listening then some [] else none
  let (result, s) := evaluateSource (.ok i.scoping) source i.root { s with events }
  let told := (s.events.getD []).reverse.map .event
  match reply result with
  | .ok answer => ⟨told ++ [answer], s, none⟩
  | .error failure => ⟨told, s, some failure⟩

def respond (listening : Bool) (i : Interpreter) (s : Store) : Input → Response
  | .line text => if trim text = "" then ⟨[], s, none⟩ else evaluateLine listening i text s
  | .interrupt => ⟨[.newline], s, none⟩

def run (listening : Bool) (i : Interpreter) (s : Store) : List Input → Dialogue
  | [] => ⟨[.prompt, .newline], [], s, none⟩
  | input :: inputs =>
    if quits input then ⟨[.prompt], inputs, s, none⟩
    else
      let r := respond listening i s input
      match r.broken with
      | some failure => ⟨.prompt :: r.outputs, inputs, r.store, some failure⟩
      | none =>
        let later := run listening i r.store inputs
        { later with outputs := .prompt :: r.outputs ++ later.outputs }

end Dialogue

end ScopedLisp

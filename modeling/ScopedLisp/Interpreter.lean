import ScopedLisp.Evaluation

namespace ScopedLisp

inductive Failure where
  | read (fault : ReadFault)
  | evaluation (fault : Fault)
  | unrecorded

namespace Failure

def message : Failure → String
  | .read fault => fault.message
  | .evaluation fault => fault.message
  | .unrecorded => "maximum recursion depth exceeded while getting the repr of an object"

def kind? : Failure → Option ErrorKind
  | .read _ => some .parse
  | .evaluation fault => fault.kind?
  | .unrecorded => none

end Failure

namespace Store

def cannotRecord (s : Store) (program : Value) : Bool :=
  s.events.isSome && (program.fault? .detailed Value.writingRoom).isSome

theorem cannotRecord_congr {s t : Store} (h : s.events.isSome = t.events.isSome)
    (program : Value) : s.cannotRecord program = t.cannotRecord program := by
  rw [cannotRecord, cannotRecord, h]

theorem cannotRecord_quiet {s : Store} (h : s.events = none) (program : Value) :
    s.cannotRecord program = false := by
  rw [cannotRecord, h]
  rfl

theorem cannotRecord_written {program : Value}
    (h : program.fault? .detailed Value.writingRoom = none) (s : Store) :
    s.cannotRecord program = false := by
  rw [cannotRecord, h, Option.isSome_none, Bool.and_false]

inductive Takes (s : Store) (source : String) : Prop where
  | unread {fault : ReadFault} (h : Reader.read source = .error fault)
  | unrecorded {program : Value} (h : Reader.read source = .ok program)
      (hs : s.cannotRecord program = true)
  | read {program : Value} (h : Reader.read source = .ok program)
      (hs : s.cannotRecord program = false)

theorem takes (s : Store) (source : String) : s.Takes source := by
  cases h : Reader.read source with
  | error fault => exact .unread h
  | ok program =>
    cases hs : s.cannotRecord program with
    | true => exact .unrecorded h hs
    | false => exact .read h hs

end Store

/-- All of a source text is read, then told to those who listen, and only then run. A failure to
tell it is caught nowhere. -/
def runSource (run : Value → Effect Value) (source : String) (s : Store) :
    Except Failure Value × Store :=
  match Reader.read source with
  | .error fault => (.error (.read fault), s)
  | .ok program =>
    if s.cannotRecord program then (.error .unrecorded, s)
    else
      match run program (Effect.note (.parsed program) s).2 with
      | (.ok v, s) => (.ok v, s)
      | (.error fault, s) => (.error (.evaluation fault.reported), s)

section source

variable {source : String}

theorem runSource_unread {fault : ReadFault} (h : Reader.read source = .error fault)
    (run : Value → Effect Value) (s : Store) :
    runSource run source s = (.error (.read fault), s) := by
  simp only [runSource, h]

variable {program : Value} {s : Store}

theorem runSource_unrecorded (h : Reader.read source = .ok program)
    (hs : s.cannotRecord program = true) (run : Value → Effect Value) :
    runSource run source s = (.error .unrecorded, s) := by
  simp only [runSource, h, hs, if_true]

theorem runSource_read (h : Reader.read source = .ok program)
    (hs : s.cannotRecord program = false) (run : Value → Effect Value) :
    let r := run program (Effect.note (.parsed program) s).2
    runSource run source s = (r.1.mapError fun fault => .evaluation fault.reported, r.2) := by
  simp only [runSource, h, hs, Bool.false_eq_true, if_false]
  generalize run program _ = r
  obtain ⟨fault | v, t⟩ := r <;> rfl

end source

def evaluateSource (rule : Except UnknownScoping Scoping) (source : String) (frame : FrameId)
    (s : Store) : Except Failure Value × Store :=
  runSource (evaluate rule evaluationRoom frame) source s

theorem evaluateSource_unread {source : String} {fault : ReadFault}
    (h : Reader.read source = .error fault) (rule : Except UnknownScoping Scoping) (i : FrameId)
    (s : Store) : evaluateSource rule source i s = (.error (.read fault), s) :=
  runSource_unread h _ s

theorem evaluateSource_unrecorded {source : String} {program : Value} {s : Store}
    (h : Reader.read source = .ok program) (hs : s.cannotRecord program = true)
    (rule : Except UnknownScoping Scoping) (i : FrameId) :
    evaluateSource rule source i s = (.error .unrecorded, s) :=
  runSource_unrecorded h hs _

theorem evaluateSource_read {source : String} {program : Value} {s : Store}
    (h : Reader.read source = .ok program) (hs : s.cannotRecord program = false)
    (rule : Except UnknownScoping Scoping) (i : FrameId) :
    let r := evaluate rule evaluationRoom i program (Effect.note (.parsed program) s).2
    evaluateSource rule source i s = (r.1.mapError fun fault => .evaluation fault.reported, r.2) :=
  runSource_read h hs _

structure Interpreter where
  scoping : Scoping
  root : FrameId

structure Session where
  store : Store
  ambient : Ambient
  interpreters : List (String × Interpreter)

namespace Session

inductive Command where
  | create (id : String) (scoping : Option String)
  | eval (id source : String)
  | evaluate (id source : String)
  | inspect (id : String)
  | current
  | choose (mode : Option String)
  | enter (mode : String)
  | leave
  | configure (setting : Option String)

inductive Reply where
  | mode (scoping : Scoping)
  | value (v : Value)
  | chain (text : Except WritingFault String)
  | failure (failure : Failure)
  | noInterpreter

def initial : Session := ⟨.empty, .initial, []⟩

def interpreter? (s : Session) (id : String) : Option Interpreter := s.interpreters.lookup id

def modeReply : Except UnknownScoping Scoping → Reply
  | .ok scoping => .mode scoping
  | .error fault => .failure (.evaluation (.unknownScoping fault))

def valueReply : Except Failure Value → Reply
  | .ok v => .value v
  | .error failure => .failure failure

def create (s : Session) (id : String) (scoping : Option String) : Reply × Session :=
  match (scoping.map Scoping.parse).getD s.ambient.current with
  | .error fault => (modeReply (.error fault), s)
  | .ok mode =>
    let (root, store) := s.store.allocate none
    (.mode mode, { s with store, interpreters := (id, ⟨mode, root⟩) :: s.interpreters })

def evalIn (s : Session) (i : Interpreter) (source : String) : Except Failure Value × Session :=
  let inside := s.ambient.enterMode i.scoping
  let (result, store) := evaluateSource inside.current source i.root s.store
  (result, { s with store, ambient := inside.leave })

def change (s : Session) : Except UnknownScoping Ambient → Reply × Session
  | .ok ambient => (modeReply ambient.current, { s with ambient })
  | .error fault => (modeReply (.error fault), s)

def run (s : Session) : Command → Reply × Session
  | .create id scoping => s.create id scoping
  | .eval id source =>
    match s.interpreter? id with
    | none => (.noInterpreter, s)
    | some i =>
      let (result, s) := s.evalIn i source
      (valueReply result, s)
  | .evaluate id source =>
    match s.interpreter? id with
    | none => (.noInterpreter, s)
    | some i =>
      let (result, store) := evaluateSource s.ambient.current source i.root s.store
      (valueReply result, { s with store })
  | .inspect id =>
    match s.interpreter? id with
    | none => (.noInterpreter, s)
    | some i => (.chain (s.store.chainText? i.root), s)
  | .current => (modeReply s.ambient.current, s)
  | .choose mode => s.change (s.ambient.choose mode)
  | .enter mode => s.change (s.ambient.enter mode)
  | .leave => s.change (.ok s.ambient.leave)
  | .configure setting => s.change (.ok (s.ambient.configure setting))

end Session

end ScopedLisp

import ScopedLisp.Effect

/-!
Evaluation. Every form is written over the evaluator for its parts, and `evaluate` ties the knot in
a room that bounds how deeply evaluations may be nested. Under dynamic scoping a call continues in
its caller's frame, under lexical scoping in the frame its closure was made in.
-/

namespace ScopedLisp

abbrev Evaluator := FrameId → Value → Effect Value

namespace Evaluator

open Effect

variable (ev : Evaluator) (frame : FrameId)

def each : List Value → Effect (List Value)
  | [] => pure []
  | e :: es => do
    let v ← ev frame e
    let vs ← each es
    pure (v :: vs)

def items : List Value → Effect (List Value)
  | [] => pure []
  | e :: es => do
    let v ← ev frame e
    let vs ← items es
    pure (match v with
      | .nil => vs
      | v => v :: vs)

def numbers (op : Operator) : List Value → Except Fault (List Number)
  | [] => .ok []
  | .number n :: vs => (numbers op vs).map (n :: ·)
  | v :: _ => .error (.operandNotNumber op v)

def operator (op : Operator) : List Value → Effect Value
  | a :: b :: rest => do
    let vs ← ev.each frame (a :: b :: rest)
    let ns ← ofExcept (numbers op vs)
    pure (.number (op.fold ns))
  | args => fail (.tooFewOperands op args.length)

def negation : List Value → Effect Value
  | [e] => do
    match ← ev frame e with
    | .number n => pure (.number (.ofBool n.isZero))
    | v => fail (.negandNotNumber v)
  | args => fail (.negationArity args.length)

def definition : List Value → Effect Value
  | [.symbol name, e] => do
    let v ← ev frame e
    assign frame (.symbol name) v
    pure .nil
  | [target, _] => fail (.targetNotSymbol target)
  | _ => fail .definitionArity

def function : List Value → Effect Value
  | [.list params, body] =>
    match params.find? (!·.isSymbol), body with
    | some p, _ => fail (.parameterNotSymbol p)
    | none, .list body => pure (.closure params body (some frame))
    | none, body => fail (.bodyNotList body)
  | [params, _] => fail (.parametersNotList params)
  | _ => fail .functionArity

def functionParts : List Value → Except Fault (List Value × List Value)
  | [.list params, body] =>
    match params.find? (!·.isSymbol), body with
    | some p, _ => .error (.parameterNotSymbol p)
    | none, .list body => .ok (params, body)
    | none, body => .error (.bodyNotList body)
  | [params, _] => .error (.parametersNotList params)
  | _ => .error .functionArity

theorem function_eq (es : List Value) :
    function frame es =
      Effect.ofExcept ((functionParts es).map fun f => Value.closure f.1 f.2 (some frame)) := by
  fun_cases function frame es <;> simp only [functionParts, *] <;> rfl

def choice : List Value → Effect Value
  | [] => fail .noDefault
  | [default] => ev frame default
  | .list [test, result] :: rest => do
    let v ← ev frame test
    if v.holds then ev frame result else choice rest
  | clause :: _ => fail (.clauseNotPair clause)

def parent (scoping : Scoping) (home : Option FrameId) (caller : FrameId) : FrameId :=
  match scoping, home with
  | .lexical, some home => home
  | _, _ => caller

def bindArguments (name : String) (inner : FrameId) (expected count : Nat) :
    List Value → List Value → Effect Unit
  | [], _ => pure ()
  | p :: _, [] => fail (.missingArgument name expected count p)
  | p :: ps, a :: as => do
    let v ← ev frame a
    assign inner p v
    bindArguments name inner expected count ps as

structure Parts where
  item : Evaluator
  inner : Evaluator
  operand : Evaluator

def call (parts : Parts) (rule : Except UnknownScoping Scoping) (name : String)
    (args : List Value) : Effect Value := do
  match ← lookup frame name with
  | .closure params body home =>
    let scoping ← ofExcept (rule.mapError .unknownScoping)
    let inner ← extend (parent scoping home frame)
    bindArguments parts.operand frame name inner params.length args.length params args
    noteCall name inner
    parts.inner inner (.list body)
  | _ => fail (.notClosure name)

theorem call_closure {parts : Parts} {scoping : Scoping} {name : String} {args : List Value}
    {s : Store} {params body : List Value} {home : Option FrameId}
    (h : s.lookup? frame name = some (.closure params body home)) :
    call frame parts (.ok scoping) name args s =
      (bindArguments parts.operand frame name s.frames.size params.length args.length params args
        >>= fun _ => noteCall name s.frames.size
        >>= fun _ => parts.inner s.frames.size (.list body))
      (s.extend (parent scoping home frame)).2 := by
  rw [call, lookup_bind, h]
  rfl

def form (parts : Parts) : Form → List Value → Effect Value
  | .operator op => operator parts.operand frame op
  | .negation => negation parts.inner frame
  | .definition => definition parts.inner frame
  | .function => function frame
  | .choice => choice parts.inner frame

def step (rule : Except UnknownScoping Scoping) (parts : Parts) : Evaluator := fun frame expr =>
  match expr with
  | .symbol name => lookup frame name
  | .number n => pure (.number n)
  | .list (.symbol head :: tail) =>
    match Form.ofName? head with
    | some f => form frame parts f tail
    | none => call frame parts rule head tail
  | .list es => do
    let vs ← items parts.item frame es
    pure (.list vs)
  | .nil | .closure .. | .integer _ | .text _ => pure .nil

/-- An evaluation takes one unit of room. The way to the parts of a form and to the body of a call
takes one more, and the way to operands and arguments two. -/
def parts (rule : Except UnknownScoping Scoping) : Nat → Parts
  | 0 => ⟨exhausted, exhausted, exhausted⟩
  | room + 1 =>
    let parts := parts rule room
    ⟨step rule parts, parts.item, parts.inner⟩
where
  exhausted : Evaluator := fun _ _ => fail .depthExceeded

end Evaluator

/-- Evaluation in so much room. The rule is the scoping mode in force, or the fault that comes up
when a call asks for it. -/
def evaluate (rule : Except UnknownScoping Scoping) (room : Nat) : Evaluator :=
  (Evaluator.parts rule room).item

theorem evaluate_succ (rule : Except UnknownScoping Scoping) (room : Nat) :
    evaluate rule (room + 1) = Evaluator.step rule (Evaluator.parts rule room) := rfl

theorem Evaluator.parts_eq (rule : Except UnknownScoping Scoping) (room : Nat) :
    parts rule room
      = ⟨evaluate rule room, evaluate rule (room - 1), evaluate rule (room - 2)⟩ := by
  rcases room with _ | _ | _ <;> rfl

theorem evaluate_list (rule : Except UnknownScoping Scoping) (room : Nat) (i : FrameId)
    {es : List Value} (h : ∀ name tail, es ≠ .symbol name :: tail) :
    evaluate rule (room + 1) i (.list es) =
      (evaluate rule room).items i es >>= fun vs => pure (.list vs) := by
  rw [evaluate_succ, Evaluator.step, Evaluator.parts_eq]
  exact h

theorem evaluate_form (rule : Except UnknownScoping Scoping) (room : Nat) (i : FrameId)
    {head : String} {f : Form} (h : Form.ofName? head = some f) (tail : List Value) :
    evaluate rule (room + 1) i (.list (.symbol head :: tail)) =
      Evaluator.form i (Evaluator.parts rule room) f tail := by
  rw [evaluate_succ, Evaluator.step, h]

def evaluationRoom : Nat := 980

end ScopedLisp

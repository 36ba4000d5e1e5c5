import ScopedLisp.Proofs.Chains

/-!
Evaluation with one map of names in place of frames. A call runs its body in a copy of its caller's
map, with the parameters bound to the arguments, and drops the copy at the end.
-/

namespace ScopedLisp.Flat

abbrev Names := String → Option Value

abbrev Run := ExceptT Fault (StateM Names)

abbrev Evaluator := Value → Run Value

def Names.bind (m : Names) (name : String) (v : Value) : Names :=
  fun other => if other = name then some v else m other

def Names.bindAll (m : Names) (bound : List (String × Value)) : Names :=
  bound.foldl (fun m b => m.bind b.1 b.2) m

def inCopy {α : Type} (bound : List (String × Value)) (run : Run α) : Run α :=
  fun m => ((run (m.bindAll bound)).1, m)

def lookup (name : String) : Run Value := do
  match (← get) name with
  | some v => pure v
  | none => throw (.unbound (.symbol name))

open ScopedLisp.Evaluator (numbers functionParts)

variable (ev : Evaluator)

def items (es : List Value) : Run Value := do
  let vs ← es.mapM ev
  pure (.list (vs.filter (! · matches .nil)))

def operator (op : Operator) (es : List Value) : Run Value :=
  if es.length < 2 then throw (.tooFewOperands op es.length)
  else do
    let vs ← es.mapM ev
    let ns ← ExceptT.mk (pure (numbers op vs))
    pure (.number (op.fold ns))

def negation : List Value → Run Value
  | [e] => do
    match ← ev e with
    | .number n => pure (.number (.ofBool n.isZero))
    | v => throw (.negandNotNumber v)
  | es => throw (.negationArity es.length)

def definition : List Value → Run Value
  | [.symbol name, e] => do
    let v ← ev e
    modify (Names.bind · name v)
    pure .nil
  | [target, _] => throw (.targetNotSymbol target)
  | _ => throw .definitionArity

def function (es : List Value) : Run Value :=
  ExceptT.mk (pure ((functionParts es).map fun f => .closure f.1 f.2 none))

def choice : List Value → Run Value
  | [] => throw .noDefault
  | [default] => ev default
  | .list [test, result] :: rest => do
    if (← ev test).holds then ev result else choice rest
  | clause :: _ => throw (.clauseNotPair clause)

def arguments (name : String) (expected count : Nat) :
    List Value → List Value → Run (List (String × Value))
  | [], _ => pure []
  | p :: _, [] => throw (.missingArgument name expected count p)
  | .symbol p :: ps, a :: as => do
    let v ← ev a
    let bound ← arguments name expected count ps as
    pure ((p, v) :: bound)
  | p :: _, a :: _ => do
    let _ ← ev a
    throw (.unbindable p)

def shown (listening : Bool) (bound : List (String × Value)) : Run Unit :=
  if listening && (Frame.bindAll ⟨none, []⟩ bound).fault?.isSome then throw .depthExceeded
  else pure ()

structure Parts where
  item : Evaluator
  inner : Evaluator
  operand : Evaluator

def call (listening : Bool) (parts : Parts) (name : String) (args : List Value) : Run Value := do
  match ← lookup name with
  | .closure params body _ =>
    let bound ← arguments parts.operand name params.length args.length params args
    shown listening bound
    inCopy bound (parts.inner (.list body))
  | _ => throw (.notClosure name)

def form (parts : Parts) : Form → List Value → Run Value
  | .operator op => operator parts.operand op
  | .negation => negation parts.inner
  | .definition => definition parts.inner
  | .function => function
  | .choice => choice parts.inner

def step (listening : Bool) (parts : Parts) : Evaluator
  | .symbol name => lookup name
  | .number n => pure (.number n)
  | .list (.symbol head :: tail) =>
    match Form.ofName? head with
    | some f => form parts f tail
    | none => call listening parts head tail
  | .list es => items parts.item es
  | .nil | .closure .. | .integer _ | .text _ => pure .nil

def parts (listening : Bool) : Nat → Parts
  | 0 => ⟨exhausted, exhausted, exhausted⟩
  | room + 1 =>
    let parts := parts listening room
    ⟨step listening parts, parts.item, parts.inner⟩
where
  exhausted : Evaluator := fun _ => throw .depthExceeded

def evaluate (listening : Bool) (room : Nat) : Evaluator := (parts listening room).item

end ScopedLisp.Flat

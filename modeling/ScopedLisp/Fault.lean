import ScopedLisp.Operator
import ScopedLisp.Reader
import ScopedLisp.Scoping
import ScopedLisp.Value.Written

namespace ScopedLisp

open Text

inductive Fault where
  | unbound (name : Value)
  | unbindable (name : Value)
  | tooFewOperands (op : Operator) (count : Nat)
  | operandNotNumber (op : Operator) (operand : Value)
  | negationArity (count : Nat)
  | negandNotNumber (operand : Value)
  | definitionArity
  | targetNotSymbol (target : Value)
  | functionArity
  | parametersNotList (params : Value)
  | parameterNotSymbol (param : Value)
  | bodyNotList (body : Value)
  | noDefault
  | clauseNotPair (clause : Value)
  | notClosure (name : String)
  | missingArgument (name : String) (expected count : Nat) (param : Value)
  | unknownScoping (fault : UnknownScoping)
  | depthExceeded
  | hugeInteger

inductive ErrorKind where
  | error | tokenize | parse | runtime | unbound | arity | type | invalidSymbol | malformed
deriving DecidableEq

namespace ErrorKind

def parent : ErrorKind → Option ErrorKind
  | .error => none
  | .tokenize | .parse | .runtime => some .error
  | .unbound | .arity | .type | .invalidSymbol | .malformed => some .runtime

def lineage (kind : ErrorKind) : List ErrorKind :=
  kind :: match kind.parent with
    | none => []
    | some p => p :: p.parent.toList

def text : ErrorKind → List Value → String
  | .tokenize, [char, position] =>
    "Unexpected character " ++ char.detailed ++ " at " ++ position.plain
  | .parse, [v] => "Parse error: " ++ v.plain
  | _, [] => ""
  | _, [v] => v.plain
  | _, vs => "(" ++ joinWith ", " (Value.detailedEach vs) ++ ")"

end ErrorKind

namespace Fault

def kind? : Fault → Option ErrorKind
  | .unbound _ => some .unbound
  | .unbindable _ | .targetNotSymbol _ | .parameterNotSymbol _ => some .invalidSymbol
  | .tooFewOperands .. | .negationArity _ | .definitionArity | .functionArity | .noDefault
  | .missingArgument .. => some .arity
  | .operandNotNumber .. | .negandNotNumber _ | .notClosure _ => some .type
  | .parametersNotList _ | .bodyNotList _ | .clauseNotPair _ => some .malformed
  | .depthExceeded => some .runtime
  | .unknownScoping _ | .hugeInteger => none

def natText (n : Nat) : String := String.ofList (Nat.toDigits 10 n)

def message : Fault → String
  | .unbound name => "Unbound symbol " ++ name.plain
  | .unbindable name => "Cannot bind " ++ name.plain ++ " as a symbol"
  | .tooFewOperands op count =>
    op.name ++ " requires at least 2 operands, got " ++ natText count
  | .operandNotNumber op operand =>
    "Operands of " ++ op.name ++ " must be numbers, got " ++ operand.plain
  | .negationArity count => "not requires exactly 1 argument, got " ++ natText count
  | .negandNotNumber operand => "not requires a number, got " ++ operand.plain
  | .definitionArity => "let requires exactly 2 arguments: (let name value)"
  | .targetNotSymbol target => "let first argument must be a Symbol, got " ++ target.plain
  | .functionArity => "fn requires exactly 2 arguments: (fn (params...) body)"
  | .parametersNotList params => "fn parameters must be a list, got " ++ params.plain
  | .parameterNotSymbol param => "fn parameter must be a Symbol, got " ++ param.plain
  | .bodyNotList body => "fn body must be a list, got " ++ body.plain
  | .noDefault => "cond requires at least a default expression"
  | .clauseNotPair clause => "cond clause must be a (test result) pair, got " ++ clause.plain
  | .notClosure name => "Not a lambda: " ++ name
  | .missingArgument name expected count param =>
    name ++ " expects " ++ natText expected ++ " arguments, got " ++ natText count
      ++ ": missing argument for " ++ param.plain
  | .unknownScoping fault => fault.message
  | .depthExceeded => "Maximum recursion depth exceeded"
  | .hugeInteger => WritingFault.hugeInteger.message

def shown? : Fault → Option Value
  | .unbound v | .unbindable v | .operandNotNumber _ v | .negandNotNumber v | .targetNotSymbol v
  | .parametersNotList v | .parameterNotSymbol v | .bodyNotList v | .clauseNotPair v
  | .missingArgument _ _ _ v => some v
  | _ => none

/-- What is reported of a fault: the fault, unless its message cannot be written. -/
def reported (fault : Fault) : Fault :=
  match fault.shown?.bind (Value.fault? .plain Value.writingRoom) with
  | none => fault
  | some .hugeInteger => .hugeInteger
  | some .tooDeep => .depthExceeded

end Fault

end ScopedLisp

import ScopedLisp.Number.Basic

namespace ScopedLisp

inductive Operator where
  | add | sub | mul | div | gt | gte | lt | lte | eq
deriving DecidableEq

namespace Operator

def all : List Operator := [.add, .sub, .mul, .div, .gt, .gte, .lt, .lte, .eq]

def name : Operator → String
  | .add => "+"
  | .sub => "-"
  | .mul => "*"
  | .div => "/"
  | .gt => "gt"
  | .gte => "gte"
  | .lt => "lt"
  | .lte => "lte"
  | .eq => "eq"

def ofName? (name : String) : Option Operator := all.find? (·.name == name)

def apply : Operator → Number → Number → Number
  | .add, a, b => a.add b
  | .sub, a, b => a.sub b
  | .mul, a, b => a.mul b
  | .div, a, b => a.div b
  | .gt, a, b => .ofBool (b.less a)
  | .gte, a, b => .ofBool (b.atMost a)
  | .lt, a, b => .ofBool (a.less b)
  | .lte, a, b => .ofBool (a.atMost b)
  | .eq, a, b => .ofBool (a.equal b)

def fold (op : Operator) : List Number → Number
  | [] => .zero
  | first :: rest => rest.foldl op.apply first

theorem ofName?_name (op : Operator) : ofName? op.name = some op := by
  cases op <;> decide +kernel

end Operator

inductive Form where
  | operator (op : Operator)
  | negation
  | definition
  | function
  | choice
deriving DecidableEq

def Form.ofName? (name : String) : Option Form :=
  match Operator.ofName? name with
  | some op => some (.operator op)
  | none =>
    if name = "not" then some .negation
    else if name = "let" then some .definition
    else if name = "fn" then some .function
    else if name = "cond" then some .choice
    else none

end ScopedLisp

import ScopedLisp.Token
import ScopedLisp.Value

/-!
Reading expressions from tokens. A list is read with the lists around it on a stack, each with its
items so far in reverse, so nesting has no bound here; `read` sets one.
-/

namespace ScopedLisp

inductive ReadFault where
  | endOfInput
  | unbalanced
  | unexpectedClose
  | unknownToken (kind lexeme : String)
  | tooDeep
deriving DecidableEq

namespace Reader

def closed (items : List Value) : Value := .list items.reverse

def readItems (items : List Value) (around : List (List Value)) :
    List Token → Except ReadFault Value × List Token
  | [] => (.error .unbalanced, [])
  | .number n :: ts => readItems (.number n :: items) around ts
  | .symbol name :: ts => readItems (.symbol name :: items) around ts
  | .opening _ :: ts => readItems [] (items :: around) ts
  | .closing _ :: ts =>
    match around with
    | [] => (.ok (closed items), ts)
    | outer :: around => readItems (closed items :: outer) around ts
  | .other kind lexeme :: ts => (.error (.unknownToken kind lexeme), ts)

def readExpr : List Token → Except ReadFault Value × List Token
  | [] => (.error .endOfInput, [])
  | .number n :: ts => (.ok (.number n), ts)
  | .symbol name :: ts => (.ok (.symbol name), ts)
  | .opening _ :: ts => readItems [] [] ts
  | .closing _ :: ts => (.error .unexpectedClose, ts)
  | .other kind lexeme :: ts => (.error (.unknownToken kind lexeme), ts)

theorem length_readItems (items : List Value) (around : List (List Value)) (ts : List Token) :
    (readItems items around ts).2.length ≤ ts.length := by
  fun_induction readItems items around ts <;> simp_all <;> omega

theorem length_readExpr (t : Token) (ts : List Token) :
    (readExpr (t :: ts)).2.length ≤ ts.length := by
  cases t <;> simp [readExpr, length_readItems]

structure Reading where
  exprs : List Value
  fault : Option ReadFault
  left : List Token

def readAll : List Token → Reading
  | [] => ⟨[], none, []⟩
  | t :: ts =>
    match _h : readExpr (t :: ts) with
    | (.error fault, left) => ⟨[], some fault, left⟩
    | (.ok expr, left) =>
      let rest := readAll left
      { rest with exprs := expr :: rest.exprs }
termination_by ts => ts.length
decreasing_by
  have h : left.length ≤ ts.length := by simpa [_h] using length_readExpr t ts
  exact Nat.lt_succ_of_le h

def nestingLimit : Nat := 1000

/-- The tokens before the one that opens a list too many, and the rest, if there is such a token and
no unexpected parenthesis stops the reading first. -/
def splitTooDeep? (limit depth : Nat) : List Token → Option (List Token × List Token)
  | [] => none
  | t :: ts =>
    let after (depth : Nat) :=
      (splitTooDeep? limit depth ts).map fun (front, deep) => (t :: front, deep)
    match t, depth with
    | .opening _, _ => if depth = limit then some ([], t :: ts) else after (depth + 1)
    | .closing _, 0 => none
    | .closing _, depth + 1 => after depth
    | .number _, _ | .symbol _, _ => after depth
    | .other .., _ => none

def expressions (source : String) : List Value × Option ReadFault :=
  let tokens := Token.ofSource source
  match splitTooDeep? nestingLimit 0 tokens with
  | some (front, _) => ((readAll front).exprs, some .tooDeep)
  | none => ((readAll tokens).exprs, (readAll tokens).fault)

def program : List Value → Value
  | [expr] => expr
  | exprs => .list exprs

def read (source : String) : Except ReadFault Value :=
  match expressions source with
  | (exprs, none) => .ok (program exprs)
  | (_, some fault) => .error fault

end Reader

namespace ReadFault

def description : ReadFault → String
  | .endOfInput => "Unexpected end of input"
  | .unbalanced => "Unbalanced parentheses"
  | .unexpectedClose => "Unexpected closing parenthesis"
  | .unknownToken kind lexeme => "Unknown token: " ++ kind ++ " " ++ lexeme
  | .tooDeep => "Expression nested too deeply"

def message (fault : ReadFault) : String := "Parse error: " ++ fault.description

end ReadFault

end ScopedLisp

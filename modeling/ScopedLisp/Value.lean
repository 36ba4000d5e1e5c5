import ScopedLisp.Number.Rounding

namespace ScopedLisp

abbrev FrameId := Nat

inductive Value where
  | number (n : Number)
  | symbol (name : String)
  | nil
  | list (items : List Value)
  | closure (params body : List Value) (home : Option FrameId)
  | integer (i : Int)
  | text (s : String)
deriving Inhabited

namespace Value

@[elab_as_elim] theorem induct {P : Value → Prop} (number : ∀ n, P (.number n))
    (symbol : ∀ name, P (.symbol name)) (nil : P .nil)
    (list : ∀ items, (∀ v ∈ items, P v) → P (.list items))
    (closure : ∀ params body home, (∀ v ∈ params, P v) → (∀ v ∈ body, P v) →
      P (.closure params body home))
    (integer : ∀ i, P (.integer i)) (text : ∀ s, P (.text s)) (v : Value) : P v :=
  Value.rec (motive_1 := P) (motive_2 := fun vs => ∀ v ∈ vs, P v) number symbol nil
    list closure integer text (fun _ h => nomatch h)
    (fun _ _ hv hvs _ h => by
      cases h with
      | head => exact hv
      | tail _ h => exact hvs _ h) v

def isSymbol : Value → Bool
  | .symbol _ => true
  | _ => false

def holds : Value → Bool
  | .number n => !n.isZero
  | _ => false

mutual

/-- Equality of what values mean: zeros are equal, a NaN equals nothing, an integer equals the
number of its size, and the frame that a closure captured does not count. -/
def equal : Value → Value → Bool
  | .number a, .number b => a.equal b
  | .number a, .integer b => a.equalInt b
  | .integer a, .number b => b.equalInt a
  | .integer a, .integer b => a == b
  | .symbol a, .symbol b => a == b
  | .text a, .text b => a == b
  | .nil, .nil => true
  | .list as, .list bs => equalEach as bs
  | .closure ps b _, .closure qs c _ => equalEach ps qs && equalEach b c
  | _, _ => false

def equalEach : List Value → List Value → Bool
  | [], [] => true
  | a :: as, b :: bs => equal a b && equalEach as bs
  | _, _ => false

end

end Value

end ScopedLisp

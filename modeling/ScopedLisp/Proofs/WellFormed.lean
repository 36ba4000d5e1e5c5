import ScopedLisp.Proofs.Invariants
import ScopedLisp.Proofs.Parsing

namespace ScopedLisp

open Token (Lexed)

inductive Value.WellFormed : Value → Prop where
  | number (n : Number) : WellFormed (.number n)
  | nil : WellFormed .nil
  | closure {params body : List Value} {home : Option FrameId} (hp : ∀ p ∈ params, p.isSymbol)
      (hb : ∀ e ∈ body, e.Expression Lexed) : WellFormed (.closure params body home)
  | list {items : List Value} (h : ∀ v ∈ items, WellFormed v) (hn : ∀ v ∈ items, v ≠ .nil) :
      WellFormed (.list items)

def Frame.WellFormed (f : Frame) : Prop := ∀ b ∈ f.bindings, b.2.WellFormed

def Store.WellFormed (s : Store) : Prop := ∀ f ∈ s.frames, f.WellFormed

def Fault.Regular (rule : Except UnknownScoping Scoping) : Fault → Prop
  | .tooFewOperands .. | .negationArity _ | .definitionArity | .functionArity | .noDefault
  | .notClosure _ | .depthExceeded => True
  | .operandNotNumber _ v | .negandNotNumber v => v.WellFormed
  | .unbound name | .missingArgument _ _ _ name => name.isSymbol
  | .targetNotSymbol e | .parametersNotList e | .parameterNotSymbol e | .bodyNotList e
  | .clauseNotPair e => e.Expression Lexed
  | .unknownScoping fault => rule = .error fault
  | .unbindable _ | .hugeInteger => False

theorem Store.WellFormed.allocate {s : Store} (h : s.WellFormed) (outer : Option FrameId) :
    (s.allocate outer).2.WellFormed :=
  Store.All.allocate (P := Value.WellFormed) h outer

inductive Sound (rule : Except UnknownScoping Scoping) {α : Type} (Q : α → Prop) :
    Except Fault α × Store → Prop where
  | value {a : α} {s : Store} (hs : s.WellFormed) (ha : Q a) : Sound rule Q (.ok a, s)
  | fault {fault : Fault} {s : Store} (hs : s.WellFormed) (hf : fault.Regular rule) :
      Sound rule Q (.error fault, s)

variable {rule : Except UnknownScoping Scoping}

theorem Sound.ne_unbindable {α : Type} {Q : α → Prop} {r : Except Fault α × Store}
    (h : Sound rule Q r) (name : Value) : r.1 ≠ .error (.unbindable name) := by
  intro hr
  cases h with
  | value hs ha => cases hr
  | fault hs hf =>
    cases hr
    exact hf

open Value (WellFormed)

def Evaluator.Keeps (rule : Except UnknownScoping Scoping) (ev : Evaluator) : Prop :=
  ∀ i (e : Value) s, e.Expression Lexed → s.WellFormed → Sound rule WellFormed (ev i e s)

namespace Invariant

def wellFormed (rule : Except UnknownScoping Scoping) : Invariant where
  Code e := e.Expression Lexed
  Good := WellFormed
  Fit := Fault.Regular rule

theorem wellFormed_lawful (rule : Except UnknownScoping Scoping) :
    (wellFormed rule).Lawful rule where
  items he := Value.expression_list.mp he
  number := .number
  nil := .nil
  list := .list
  closure hp hb := .closure (fun p hmem => (hp p hmem).1) (Value.expression_list.mp hb)
  body h := by
    cases h with
    | closure _ hb => exact .list hb
  parameter h hmem := by
    cases h with
    | closure hp _ => exact ⟨.inl (hp _ hmem), fun _ _ _ _ => hp _ hmem⟩
  bare {fault} h := by
    cases fault <;> simp only [Fault.isBare, Bool.false_eq_true] at h
    all_goals trivial
  unknownScoping h := h
  unbound _ := rfl
  notClosure _ := trivial
  operand _ h := h
  negand h := h
  target he := he
  parameters he := he
  notParameter he := he
  notBody he := he
  clause he := he

end Invariant

theorem evaluate_sound (rule : Except UnknownScoping Scoping) (room : Nat) :
    Evaluator.Keeps rule (evaluate rule room) := by
  intro i e s he hs
  have hends := (Invariant.wellFormed_lawful rule).evaluate room i e s he hs
  generalize evaluate rule room i e s = r at hends
  cases hends with
  | value hs ha => exact .value hs ha
  | fault hs hf => exact .fault hs hf

end ScopedLisp

import ScopedLisp.Proofs.Confinement

namespace ScopedLisp

namespace Store

structure Matches (listening : Bool) (s t : Store) : Prop where
  frames : s.frames = t.frames
  left : s.events.isSome = listening
  right : t.events.isSome = listening

namespace Matches

variable {l : Bool} {s t : Store}

theorem refl (s : Store) : s.Matches s.events.isSome s := ⟨rfl, rfl, rfl⟩

theorem own (h : s.Matches l t) : s.Matches s.events.isSome t :=
  ⟨h.frames, rfl, h.right.trans h.left.symm⟩

theorem trans {l' : Bool} {u : Store} (h : s.Matches l t) (h' : t.Matches l' u) :
    s.Matches l u :=
  ⟨h.frames.trans h'.frames, h.left, h'.right.trans (h'.left.symm.trans h.right)⟩

theorem lookup?_eq (h : s.Matches l t) (i : FrameId) (name : String) :
    s.lookup? i name = t.lookup? i name :=
  lookup?_congr name fun j _ => by rw [h.frames]

theorem set (h : s.Matches l t) (i : FrameId) (name : String) (v : Value) :
    (s.set i name v).Matches l (t.set i name v) := by
  refine ⟨?_, h.left, h.right⟩
  rw [Store.set, Store.set, h.frames]

theorem extend (h : s.Matches l t) (i : FrameId) : (s.extend i).2.Matches l (t.extend i).2 := by
  refine ⟨?_, h.left, h.right⟩
  rw [Store.extend, Store.extend, allocate, allocate, h.frames]

theorem note (h : s.Matches l t) (event event' : Event) :
    (Effect.note event s).2.Matches l (Effect.note event' t).2 := by
  refine ⟨h.frames, ?_, ?_⟩
  · simpa [Effect.note] using h.left
  · simpa [Effect.note] using h.right

end Matches

end Store

inductive Outlasts {α : Type} (listening : Bool) :
    Except Fault α × Store → Except Fault α × Store → Prop where
  | exhausted (s : Store) (end' : Except Fault α × Store) :
      Outlasts listening (.error .depthExceeded, s) end'
  | same (r : Except Fault α) {s t : Store} (h : s.Matches listening t) :
      Outlasts listening (r, s) (r, t)

namespace Effect

variable {α β : Type}

def Extends (m m' : Effect α) : Prop :=
  ∀ listening s t, s.Matches listening t → Outlasts listening (m s) (m' t)

theorem Extends.bind {m m' : Effect α} {f f' : α → Effect β} (hm : m.Extends m')
    (hf : ∀ a, (f a).Extends (f' a)) : (m >>= f).Extends (m' >>= f') := by
  intro l s t h
  have hfirst := hm l s t h
  rw [bind_apply, bind_apply]
  generalize m s = r, m' t = r' at hfirst
  cases hfirst with
  | exhausted s r' => exact .exhausted _ _
  | same r h =>
    cases r with
    | ok a => exact hf a l _ _ h
    | error fault => exact .same _ h

theorem extends_pure (a : α) : (pure a : Effect α).Extends (pure a) := fun _ _ _ h => .same _ h

theorem extends_fail (fault : Fault) : (fail fault : Effect α).Extends (fail fault) :=
  fun _ _ _ h => .same _ h

theorem extends_ofExcept (r : Except Fault α) : (ofExcept r).Extends (ofExcept r) := by
  cases r with
  | ok a => exact extends_pure a
  | error fault => exact extends_fail fault

theorem extends_lookup (i : FrameId) (name : String) : (lookup i name).Extends (lookup i name) := by
  intro l s t h
  rw [lookup, lookup, Store.lookupValue, Store.lookupValue, h.lookup?_eq]
  exact .same _ h

theorem extends_extend (i : FrameId) : (extend i).Extends (extend i) := by
  intro l s t h
  have hsame : (s.extend i).1 = (t.extend i).1 := by
    rw [Store.extend, Store.extend, Store.allocate, Store.allocate, h.frames]
  rw [extend, extend, hsame]
  exact .same _ (h.extend i)

theorem extends_assign (i : FrameId) (name v : Value) :
    (assign i name v).Extends (assign i name v) := by
  intro l s t h
  cases name with
  | symbol a => exact .same _ (h.set i a v)
  | _ => exact .same _ h

theorem extends_noteCall (name : String) (i : FrameId) :
    (noteCall name i).Extends (noteCall name i) := by
  intro l s t h
  have hl := h.left.trans h.right.symm
  rw [noteCall, noteCall, h.frames]
  cases he : s.events with
  | none =>
    have he' : t.events = none := by simpa [he] using hl
    rw [he']
    exact .same _ h
  | some events =>
    obtain ⟨events', he'⟩ : ∃ events', t.events = some events' := by
      rw [← Option.isSome_iff_exists, ← hl, he, Option.isSome_some]
    rw [he']
    cases t.frames[i]? with
    | none => exact .same _ h
    | some f =>
      dsimp only
      split
      · exact .same _ h
      · exact .same _ (h.note _ _)

end Effect

namespace Evaluator

open Effect

def Extends (ev ev' : Evaluator) : Prop := ∀ i e, (ev i e).Extends (ev' i e)

section forms

variable {ev ev' : Evaluator} {i : FrameId}

theorem each_extends (hev : ev.Extends ev') (es : List Value) :
    (ev.each i es).Extends (ev'.each i es) := by
  induction es with
  | nil => exact extends_pure []
  | cons e es ih =>
    apply (hev i e).bind
    intro v
    apply ih.bind
    intro vs
    exact extends_pure _

theorem items_extends (hev : ev.Extends ev') (es : List Value) :
    (ev.items i es).Extends (ev'.items i es) := by
  induction es with
  | nil => exact extends_pure []
  | cons e es ih =>
    apply (hev i e).bind
    intro v
    apply ih.bind
    intro vs
    exact extends_pure _

theorem operator_extends (hev : ev.Extends ev') (op : Operator) (es : List Value) :
    (ev.operator i op es).Extends (ev'.operator i op es) := by
  rcases es with _ | ⟨a, _ | ⟨b, rest⟩⟩
  · exact extends_fail _
  · exact extends_fail _
  · apply (each_extends hev (a :: b :: rest)).bind
    intro vs
    apply (extends_ofExcept (numbers op vs)).bind
    intro ns
    exact extends_pure _

theorem negation_extends (hev : ev.Extends ev') (es : List Value) :
    (ev.negation i es).Extends (ev'.negation i es) := by
  rcases es with _ | ⟨e, _ | ⟨b, rest⟩⟩
  · exact extends_fail _
  · apply (hev i e).bind
    intro v
    cases v with
    | number n => exact extends_pure _
    | _ => exact extends_fail _
  · exact extends_fail _

theorem definition_extends (hev : ev.Extends ev') (es : List Value) :
    (ev.definition i es).Extends (ev'.definition i es) := by
  rcases es with _ | ⟨target, _ | ⟨e, _ | ⟨extra, rest⟩⟩⟩
  · exact extends_fail _
  · cases target <;> exact extends_fail _
  · cases target with
    | symbol name =>
      apply (hev i e).bind
      intro v
      apply (extends_assign i (.symbol name) v).bind
      intro _
      exact extends_pure _
    | _ => exact extends_fail _
  · cases target <;> exact extends_fail _

theorem choice_extends (hev : ev.Extends ev') (es : List Value) :
    (ev.choice i es).Extends (ev'.choice i es) := by
  fun_induction choice ev i es with
  | case1 => exact extends_fail _
  | case2 default =>
    rw [choice]
    exact hev i default
  | case3 test result rest hne ih =>
    rw [choice]
    · apply (hev i test).bind
      intro v
      split
      · exact hev i result
      · exact ih
    · exact hne
  | case4 clause rest hne hpair =>
    rw [choice]
    · exact extends_fail _
    all_goals assumption

theorem bindArguments_extends (hev : ev.Extends ev') (name : String) (n : FrameId)
    (expected count : Nat) (ps args : List Value) :
    (bindArguments ev i name n expected count ps args).Extends
      (bindArguments ev' i name n expected count ps args) := by
  induction ps generalizing args with
  | nil => exact extends_pure ()
  | cons p ps ih =>
    cases args with
    | nil => exact extends_fail _
    | cons a as =>
      apply (hev i a).bind
      intro v
      apply (extends_assign n p v).bind
      intro _
      exact ih as

end forms

variable {rule : Except UnknownScoping Scoping} {ps ps' : Parts} {i : FrameId}

theorem call_extends (hb : ps.inner.Extends ps'.inner) (ho : ps.operand.Extends ps'.operand)
    (name : String) (args : List Value) :
    (call i ps rule name args).Extends (call i ps' rule name args) := by
  apply (extends_lookup i name).bind
  intro callee
  cases callee with
  | closure params body home =>
    apply (extends_ofExcept (rule.mapError .unknownScoping)).bind
    intro scoping
    apply (extends_extend (parent scoping home i)).bind
    intro n
    apply (bindArguments_extends ho name n params.length args.length params args).bind
    intro _
    apply (extends_noteCall name n).bind
    intro _
    exact hb n (.list body)
  | _ => exact extends_fail _

theorem form_extends (hb : ps.inner.Extends ps'.inner) (ho : ps.operand.Extends ps'.operand)
    (f : Form) (es : List Value) : (form i ps f es).Extends (form i ps' f es) := by
  cases f with
  | operator op => exact operator_extends ho op es
  | negation => exact negation_extends hb es
  | definition => exact definition_extends hb es
  | function =>
    rw [form, form, function_eq]
    exact extends_ofExcept _
  | choice => exact choice_extends hb es

theorem step_extends (hit : ps.item.Extends ps'.item) (hb : ps.inner.Extends ps'.inner)
    (ho : ps.operand.Extends ps'.operand) : (step rule ps).Extends (step rule ps') := by
  intro i e
  fun_cases step rule ps i e with
  | case1 name => exact extends_lookup i name
  | case2 n => exact extends_pure _
  | case3 head tail f hf =>
    rw [step, hf]
    exact form_extends hb ho f tail
  | case4 head tail hf =>
    rw [step, hf]
    exact call_extends hb ho head tail
  | case5 es hes =>
    rw [step]
    · apply (items_extends hit es).bind
      intro vs
      exact extends_pure _
    · exact hes
  | _ => exact extends_pure _

/-- How many levels of the stack the ways to the parts of an expression take, each besides the one
that the evaluation at their end takes. -/
structure Tolls where
  item : Nat
  inner : Nat
  operand : Nat

def evaluateOn (tolls : Tolls) (rule : Except UnknownScoping Scoping) (atEnd : Evaluator) :
    Nat → Evaluator
  | 0 => atEnd
  | levels + 1 => step rule
    ⟨evaluateOn tolls rule atEnd (levels - tolls.item),
      evaluateOn tolls rule atEnd (levels - tolls.inner),
      evaluateOn tolls rule atEnd (levels - tolls.operand)⟩
termination_by levels => levels
decreasing_by all_goals omega

def Tolls.ofRoom : Tolls := ⟨0, 1, 2⟩

theorem evaluate_eq_evaluateOn (rule : Except UnknownScoping Scoping) (room : Nat) :
    evaluate rule room = evaluateOn .ofRoom rule parts.exhausted room := by
  induction room using Nat.strongRecOn with
  | ind room ih =>
    cases room with
    | zero =>
      rw [evaluateOn]
      rfl
    | succ room =>
      rw [evaluateOn, evaluate_succ, parts_eq, ih room (by omega), ih (room - 1) (by omega),
        ih (room - 2) (by omega)]
      rfl

theorem evaluateOn_extends (tolls : Tolls) (rule : Except UnknownScoping Scoping)
    (atEnd : Evaluator) {levels more : Nat} (h : levels ≤ more) :
    (evaluateOn tolls rule parts.exhausted levels).Extends (evaluateOn tolls rule atEnd more) := by
  induction levels using Nat.strongRecOn generalizing more with
  | ind levels ih =>
    cases levels with
    | zero =>
      intro i e l s t _
      rw [evaluateOn]
      exact .exhausted s _
    | succ levels =>
      obtain ⟨more, rfl⟩ := Nat.exists_eq_add_of_le' (Nat.zero_lt_of_lt h)
      have hle : levels ≤ more := Nat.le_of_succ_le_succ h
      have hpart : ∀ toll, (evaluateOn tolls rule parts.exhausted (levels - toll)).Extends
          (evaluateOn tolls rule atEnd (more - toll)) := by
        intro toll
        exact ih _ (by omega) (Nat.sub_le_sub_right hle toll)
      rw [evaluateOn, evaluateOn]
      exact step_extends (hpart tolls.item) (hpart tolls.inner) (hpart tolls.operand)

end Evaluator

theorem evaluate_extends (rule : Except UnknownScoping Scoping) {room larger : Nat}
    (h : room ≤ larger) : (evaluate rule room).Extends (evaluate rule larger) := by
  rw [Evaluator.evaluate_eq_evaluateOn, Evaluator.evaluate_eq_evaluateOn]
  exact Evaluator.evaluateOn_extends .ofRoom rule _ h

theorem Outlasts.of_ok {α : Type} {l : Bool} {a : α} {s : Store} {r : Except Fault α × Store}
    (h : Outlasts l (.ok a, s) r) : ∃ t, r = (.ok a, t) ∧ s.Matches l t := by
  cases h with
  | same _ hst => exact ⟨_, rfl, hst⟩

theorem Outlasts.of_ne {α : Type} {l : Bool} {r r' : Except Fault α × Store}
    (h : Outlasts l r r') (hne : r.1 ≠ .error .depthExceeded) : r'.1 = r.1 ∧ r'.2.frames = r.2.frames := by
  cases h with
  | exhausted s r' => exact absurd rfl hne
  | same r hst => exact ⟨rfl, hst.frames.symm⟩

/-- An evaluation that does not fail for want of room ends in the same way, and with the same
bindings, in every larger room. So it does under a bound on how deeply evaluations are nested,
where no way takes a toll, and under any other tolls; and since it does so whatever is to happen at
the end of the stack, no part of it has been there. -/
theorem stack_shows_only_as_failure (rule : Except UnknownScoping Scoping) {room larger : Nat}
    (hle : room ≤ larger) (i : FrameId) (e : Value) (s : Store) :
    ((evaluate rule room i e s).1 ≠ .error .depthExceeded →
      (evaluate rule larger i e s).1 = (evaluate rule room i e s).1 ∧
        (evaluate rule larger i e s).2.frames = (evaluate rule room i e s).2.frames) ∧
    ∀ (tolls : Evaluator.Tolls) (atEnd : Evaluator),
      let r := Evaluator.evaluateOn tolls rule Evaluator.parts.exhausted room i e s
      let r' := Evaluator.evaluateOn tolls rule atEnd larger i e s
      r.1 ≠ .error .depthExceeded → r'.1 = r.1 ∧ r'.2.frames = r.2.frames := by
  have hsame := Store.Matches.refl s
  constructor
  · exact (evaluate_extends rule hle i e _ s s hsame).of_ne
  · intro tolls atEnd r r'
    exact (Evaluator.evaluateOn_extends tolls rule atEnd hle i e _ s s hsame).of_ne

theorem stack_shows_only_as_failure_choice :
    let f : Value := .closure [.symbol "a"] [.symbol "not", .symbol "a"] none
    let s : Store := ⟨#[⟨none, [("f", f)]⟩], none⟩
    let test : Value := .list [.symbol "f", .number .zero]
    let e : Value := .list [.symbol "cond", .list [test, .symbol "f"], .number .zero]
    (evaluate (.ok .dynamic) 7 0 e s).1.isOk = true ∧ 7 ≤ evaluationRoom ∧
      (evaluate (.ok .dynamic) evaluationRoom 0 e s).1 = (evaluate (.ok .dynamic) 7 0 e s).1 := by
  intro f s test e
  have hvalue : (evaluate (.ok .dynamic) 7 0 e s).1.isOk = true := by decide +kernel
  have hle : 7 ≤ evaluationRoom := by decide
  have hne : (evaluate (.ok .dynamic) 7 0 e s).1 ≠ .error .depthExceeded := by
    intro h
    rw [h] at hvalue
    cases hvalue
  exact ⟨hvalue, hle, ((stack_shows_only_as_failure (.ok .dynamic) hle 0 e s).1 hne).1⟩

end ScopedLisp

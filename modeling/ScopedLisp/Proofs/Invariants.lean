import ScopedLisp.Proofs.Confinement

/-!
What holds of all values that there are. A property of values is kept by evaluation if numbers and
nil have it and if lists and functions have it whose parts are as they should be; then every fault
is of the kinds that come of such values and of the code that was evaluated.
-/

namespace ScopedLisp

theorem Named.mem_put {α : Type} {entries : List (String × α)} {name : String} {a : α}
    {b : String × α} (h : b ∈ put entries name a) : b = (name, a) ∨ b ∈ entries := by
  induction entries with
  | nil => simpa [put] using h
  | cons e es ih =>
    simp only [put] at h
    split at h
    · rcases List.mem_cons.mp h with rfl | h
      · exact .inl rfl
      · exact .inr (List.mem_cons_of_mem e h)
    · rcases List.mem_cons.mp h with rfl | h
      · exact .inr (List.mem_cons_self ..)
      · rcases ih h with rfl | h
        · exact .inl rfl
        · exact .inr (List.mem_cons_of_mem e h)

def Store.All (P : Value → Prop) (s : Store) : Prop := ∀ f ∈ s.frames, ∀ b ∈ f.bindings, P b.2

namespace Store.All

variable {P : Value → Prop} {s : Store} {i : FrameId} {name : String} {v : Value}

theorem set (h : s.All P) (i : FrameId) (name : String) (hv : P v) : (s.set i name v).All P := by
  intro f hf
  obtain ⟨j, hj⟩ := Array.getElem?_of_mem hf
  rw [frames_set] at hj
  split at hj
  · obtain ⟨g, hg, rfl⟩ := Option.map_eq_some_iff.mp hj
    intro b hb
    rcases Named.mem_put hb with rfl | hb
    · exact hv
    · exact h g (Array.mem_of_getElem? hg) b hb
  · exact h f (Array.mem_of_getElem? hj)

theorem allocate (h : s.All P) (outer : Option FrameId) : (s.allocate outer).2.All P := by
  intro f hf
  rcases Array.mem_push.mp hf with hf | rfl
  · exact h f hf
  · exact fun b hb => nomatch hb

theorem get? (h : s.All P) (hv : s.get? i name = some v) : P v := by
  obtain ⟨f, hf, hb⟩ := Option.bind_eq_some_iff.mp hv
  obtain ⟨before, after, hbindings, -⟩ := List.lookup_eq_some_iff.mp hb
  exact h f (Array.mem_of_getElem? hf) (name, v) (by simp [hbindings])

theorem lookup? (h : s.All P) (hv : s.lookup? i name = some v) : P v := by
  obtain ⟨j, -, hj⟩ := Option.bind_eq_some_iff.mp hv
  exact h.get? hj

end Store.All

def Fault.isBare : Fault → Bool
  | .tooFewOperands .. | .negationArity _ | .definitionArity | .functionArity | .noDefault
  | .depthExceeded => true
  | _ => false

structure Invariant where
  Code : Value → Prop
  Good : Value → Prop
  Fit : Fault → Prop

structure Invariant.Lawful (I : Invariant) (rule : Except UnknownScoping Scoping) : Prop where
  items {es : List Value} : I.Code (.list es) → ∀ e ∈ es, I.Code e
  number (n : Number) : I.Good (.number n)
  nil : I.Good .nil
  list {vs : List Value} : (∀ v ∈ vs, I.Good v) → (∀ v ∈ vs, v ≠ .nil) → I.Good (.list vs)
  closure {params body : List Value} {home : Option FrameId} :
    (∀ p ∈ params, p.isSymbol ∧ I.Code p) → I.Code (.list body) → I.Good (.closure params body home)
  body {params body : List Value} {home : Option FrameId} :
    I.Good (.closure params body home) → I.Code (.list body)
  parameter {params body : List Value} {home : Option FrameId} {p : Value} :
    I.Good (.closure params body home) → p ∈ params → (p.isSymbol ∨ I.Fit (.unbindable p)) ∧
      ∀ name expected count, I.Code (.symbol name) → I.Fit (.missingArgument name expected count p)
  bare {fault : Fault} : fault.isBare → I.Fit fault
  unknownScoping {fault : UnknownScoping} : rule = .error fault → I.Fit (.unknownScoping fault)
  unbound {name : String} : I.Code (.symbol name) → I.Fit (.unbound (.symbol name))
  notClosure {name : String} : I.Code (.symbol name) → I.Fit (.notClosure name)
  operand {v : Value} (op : Operator) : I.Good v → I.Fit (.operandNotNumber op v)
  negand {v : Value} : I.Good v → I.Fit (.negandNotNumber v)
  target {e : Value} : I.Code e → I.Fit (.targetNotSymbol e)
  parameters {e : Value} : I.Code e → I.Fit (.parametersNotList e)
  notParameter {e : Value} : I.Code e → I.Fit (.parameterNotSymbol e)
  notBody {e : Value} : I.Code e → I.Fit (.bodyNotList e)
  clause {e : Value} : I.Code e → I.Fit (.clauseNotPair e)

namespace Invariant

inductive Ends (I : Invariant) {α : Type} (Q : α → Prop) : Except Fault α × Store → Prop where
  | value {a : α} {s : Store} (hs : s.All I.Good) (ha : Q a) : Ends I Q (.ok a, s)
  | fault {fault : Fault} {s : Store} (hs : s.All I.Good) (hf : I.Fit fault) :
      Ends I Q (.error fault, s)

variable {I : Invariant} {rule : Except UnknownScoping Scoping} {s : Store}

theorem Ends.bind {α β : Type} {Q : α → Prop} {R : β → Prop} {m : Effect α} {f : α → Effect β}
    (hm : I.Ends Q (m s)) (hf : ∀ a t, t.All I.Good → Q a → I.Ends R (f a t)) :
    I.Ends R ((m >>= f) s) := by
  rw [Effect.bind_apply]
  generalize m s = r at hm
  cases hm with
  | value hs ha => exact hf _ _ hs ha
  | fault hs hfault => exact .fault hs hfault

theorem Ends.ofExcept {α : Type} {Q : α → Prop} {r : Except Fault α} (hs : s.All I.Good)
    (hok : ∀ a, r = .ok a → Q a) (herror : ∀ fault, r = .error fault → I.Fit fault) :
    I.Ends Q (Effect.ofExcept r s) := by
  cases r with
  | ok a => exact .value hs (hok a rfl)
  | error fault => exact .fault hs (herror fault rfl)

def Kept (I : Invariant) (ev : Evaluator) : Prop :=
  ∀ i e s, I.Code e → s.All I.Good → I.Ends I.Good (ev i e s)

open Evaluator

section forms

variable {ev : Evaluator} {i : FrameId} {es : List Value}

theorem each_ends (hev : I.Kept ev) (hes : ∀ e ∈ es, I.Code e) (hs : s.All I.Good) :
    I.Ends (fun vs => ∀ v ∈ vs, I.Good v) (ev.each i es s) := by
  induction es generalizing s with
  | nil => exact .value hs (by simp)
  | cons e es ih =>
    rw [List.forall_mem_cons] at hes
    apply (hev i e s hes.1 hs).bind
    intro v t ht hv
    apply (ih hes.2 ht).bind
    intro vs u hu hvs
    exact .value hu (List.forall_mem_cons.mpr ⟨hv, hvs⟩)

theorem items_ends (hev : I.Kept ev) (hes : ∀ e ∈ es, I.Code e) (hs : s.All I.Good) :
    I.Ends (fun vs => (∀ v ∈ vs, I.Good v) ∧ ∀ v ∈ vs, v ≠ .nil) (ev.items i es s) := by
  induction es generalizing s with
  | nil => exact .value hs (by simp)
  | cons e es ih =>
    rw [List.forall_mem_cons] at hes
    apply (hev i e s hes.1 hs).bind
    intro v t ht hv
    apply (ih hes.2 ht).bind
    rintro vs u hu ⟨hvs, hn⟩
    refine .value hu ?_
    split
    · exact ⟨hvs, hn⟩
    · next hne =>
      exact ⟨List.forall_mem_cons.mpr ⟨hv, hvs⟩, List.forall_mem_cons.mpr ⟨hne, hn⟩⟩

theorem fit_numbers (hI : I.Lawful rule) (op : Operator) {vs : List Value}
    (hvs : ∀ v ∈ vs, I.Good v) {fault : Fault} (h : numbers op vs = .error fault) :
    I.Fit fault := by
  fun_induction numbers op vs with
  | case1 => cases h
  | case2 n vs ih =>
    rw [List.forall_mem_cons] at hvs
    cases hn : numbers op vs with
    | ok ns => simp [hn, Except.map] at h
    | error fault' =>
      simp only [hn, Except.map, Except.error.injEq] at h
      exact ih hvs.2 (hn.trans (congrArg _ h))
  | case3 v vs hne =>
    rw [← Except.error.inj h]
    exact hI.operand op (hvs v (by simp))

theorem operator_ends (hI : I.Lawful rule) (hev : I.Kept ev) (op : Operator)
    (hes : ∀ e ∈ es, I.Code e) (hs : s.All I.Good) :
    I.Ends I.Good (ev.operator i op es s) := by
  unfold operator
  split
  · apply (each_ends hev hes hs).bind
    intro vs t ht hvs
    apply (Ends.ofExcept (Q := fun _ => True) ht (fun _ _ => trivial)
      fun _ => fit_numbers hI op hvs).bind
    intro ns u hu _
    exact .value hu (hI.number _)
  · exact .fault hs (hI.bare rfl)

theorem negation_ends (hI : I.Lawful rule) (hev : I.Kept ev) (hes : ∀ e ∈ es, I.Code e)
    (hs : s.All I.Good) : I.Ends I.Good (ev.negation i es s) := by
  unfold negation
  split
  · apply (hev i _ s (hes _ (by simp)) hs).bind
    intro v t ht hv
    split
    · exact .value ht (hI.number _)
    · exact .fault ht (hI.negand hv)
  · exact .fault hs (hI.bare rfl)

theorem definition_ends (hI : I.Lawful rule) (hev : I.Kept ev) (hes : ∀ e ∈ es, I.Code e)
    (hs : s.All I.Good) : I.Ends I.Good (ev.definition i es s) := by
  unfold definition
  split
  · next name e =>
    apply (hev i e s (hes e (by simp)) hs).bind
    intro v t ht hv
    exact .value (ht.set i name hv) hI.nil
  · exact .fault hs (hI.target (hes _ (by simp)))
  · exact .fault hs (hI.bare rfl)

theorem function_ends (hI : I.Lawful rule) (hes : ∀ e ∈ es, I.Code e) (hs : s.All I.Good) :
    I.Ends I.Good (function i es s) := by
  fun_cases function i es with
  | case1 params body p hp =>
    have hparams := hI.items (hes (.list params) (by simp))
    exact .fault hs (hI.notParameter (hparams p (List.mem_of_find?_eq_some hp)))
  | case2 params body hp =>
    have hparams := hI.items (hes (.list params) (by simp))
    refine .value hs (hI.closure ?_ (hes _ (by simp)))
    intro p hmem
    exact ⟨by simpa using List.find?_eq_none.mp hp p hmem, hparams p hmem⟩
  | case3 params body hp hbody => exact .fault hs (hI.notBody (hes _ (by simp)))
  | case4 params body hparams => exact .fault hs (hI.parameters (hes _ (by simp)))
  | case5 => exact .fault hs (hI.bare rfl)

theorem choice_ends (hI : I.Lawful rule) (hev : I.Kept ev) (hes : ∀ e ∈ es, I.Code e)
    (hs : s.All I.Good) : I.Ends I.Good (ev.choice i es s) := by
  fun_induction choice ev i es generalizing s with
  | case1 => exact .fault hs (hI.bare rfl)
  | case2 default => exact hev i default s (hes default (by simp)) hs
  | case3 test result rest _ ih =>
    rw [List.forall_mem_cons] at hes
    obtain ⟨hclause, hrest⟩ := hes
    have hparts := hI.items hclause
    apply (hev i test s (hparts test (by simp)) hs).bind
    intro v t ht _
    split
    · exact hev i result t (hparts result (by simp)) ht
    · exact ih hrest ht
  | case4 clause rest => exact .fault hs (hI.clause (hes clause (by simp)))

end forms

section call

variable {ev : Evaluator} {i n : FrameId}

theorem bindArguments_ends (hev : I.Kept ev) {name : String}
    (hname : I.Code (.symbol name)) (expected count : Nat) {ps args : List Value}
    (hps : ∀ p ∈ ps, (p.isSymbol ∨ I.Fit (.unbindable p)) ∧ ∀ name expected count,
      I.Code (.symbol name) → I.Fit (.missingArgument name expected count p))
    (hargs : ∀ a ∈ args, I.Code a) (hs : s.All I.Good) :
    I.Ends (fun _ => True) (bindArguments ev i name n expected count ps args s) := by
  induction ps generalizing args s with
  | nil => exact .value hs trivial
  | cons p ps ih =>
    rw [List.forall_mem_cons] at hps
    obtain ⟨⟨hp, hmissing⟩, hps⟩ := hps
    cases args with
    | nil => exact .fault hs (hmissing name expected count hname)
    | cons a as =>
      rw [List.forall_mem_cons] at hargs
      apply (hev i a s hargs.1 hs).bind
      intro v t ht hv
      cases p with
      | symbol param => exact ih hps hargs.2 (ht.set n param hv)
      -- only a symbol can be bound
      | _ =>
        rcases hp with hp | hp
        · exact absurd hp Bool.false_ne_true
        · exact .fault ht hp

theorem noteCall_ends (hI : I.Lawful rule) (name : String) (hs : s.All I.Good) :
    I.Ends (fun _ => True) (Effect.noteCall name n s) := by
  unfold Effect.noteCall
  split
  · split
    · exact .fault hs (hI.bare rfl)
    · exact .value hs trivial
  · exact .value hs trivial

theorem call_ends (hI : I.Lawful rule) {parts : Parts} (hb : I.Kept parts.inner)
    (ho : I.Kept parts.operand) {name : String} (hname : I.Code (.symbol name))
    {args : List Value} (hargs : ∀ a ∈ args, I.Code a) (hs : s.All I.Good) :
    I.Ends I.Good (call i parts rule name args s) := by
  cases hl : s.lookup? i name with
  | none =>
    rw [call, Effect.lookup_bind, hl]
    exact .fault hs (hI.unbound hname)
  | some callee =>
    have hcallee := hs.lookup? hl
    cases callee with
    | closure params body home =>
      cases rule with
      | error fault =>
        rw [call, Effect.lookup_bind, hl]
        exact .fault hs (hI.unknownScoping rfl)
      | ok scoping =>
        rw [call_closure i hl]
        have hext := hs.allocate (some (parent scoping home i))
        have hparams := fun p hp => hI.parameter (p := p) hcallee hp
        apply (bindArguments_ends ho hname _ _ hparams hargs hext).bind
        intro _ t ht _
        apply (noteCall_ends hI name ht).bind
        intro _ u hu _
        exact hb _ _ u (hI.body hcallee) hu
    | _ =>
      rw [call, Effect.lookup_bind, hl]
      exact .fault hs (hI.notClosure hname)

end call

variable {i : FrameId}

theorem form_ends (hI : I.Lawful rule) {parts : Parts} (hb : I.Kept parts.inner)
    (ho : I.Kept parts.operand) (f : Form) {es : List Value} (hes : ∀ e ∈ es, I.Code e)
    (hs : s.All I.Good) : I.Ends I.Good (form i parts f es s) := by
  cases f with
  | operator op => exact operator_ends hI ho op hes hs
  | negation => exact negation_ends hI hb hes hs
  | definition => exact definition_ends hI hb hes hs
  | function => exact function_ends hI hes hs
  | choice => exact choice_ends hI hb hes hs

theorem step_kept (hI : I.Lawful rule) {parts : Parts} (hit : I.Kept parts.item)
    (hb : I.Kept parts.inner) (ho : I.Kept parts.operand) : I.Kept (step rule parts) := by
  intro i e s he hs
  unfold step
  split
  · next name =>
    rw [Effect.lookup, Store.lookupValue]
    cases hl : s.lookup? i name with
    | some v => exact .value hs (hs.lookup? hl)
    | none => exact .fault hs (hI.unbound he)
  · exact .value hs (hI.number _)
  · next head tail =>
    have hes := hI.items he
    rw [List.forall_mem_cons] at hes
    cases Form.ofName? head with
    | some f => exact form_ends hI hb ho f hes.2 hs
    | none => exact call_ends hI hb ho hes.1 hes.2 hs
  · apply (items_ends hit (hI.items he) hs).bind
    rintro vs t ht ⟨hvs, hn⟩
    exact .value ht (hI.list hvs hn)
  all_goals exact .value hs hI.nil

theorem parts_kept (hI : I.Lawful rule) (room : Nat) :
    I.Kept (parts rule room).item ∧ I.Kept (parts rule room).inner ∧
      I.Kept (parts rule room).operand := by
  induction room with
  | zero =>
    have hnone : I.Kept parts.exhausted := fun i e s _ hs => .fault hs (hI.bare rfl)
    exact ⟨hnone, hnone, hnone⟩
  | succ room ih =>
    obtain ⟨hit, hb, ho⟩ := ih
    exact ⟨step_kept hI hit hb ho, hit, hb⟩

theorem Lawful.evaluate (hI : I.Lawful rule) (room : Nat) : I.Kept (evaluate rule room) :=
  (parts_kept hI room).1

end Invariant

end ScopedLisp

import ScopedLisp.Interpreter
import ScopedLisp.Proofs.CorrespondingRuns

namespace ScopedLisp

def Form.choiceParts : List Value → List Value
  | [] => []
  | [default] => [default]
  | .list [test, result] :: rest => test :: result :: choiceParts rest
  | clause :: rest => clause :: choiceParts rest

def Form.parts : Form → List Value → List Value
  | .choice, es => choiceParts es
  | _, es => es

def Value.parts : Value → List Value
  | .list (.symbol head :: tail) =>
    match Form.ofName? head with
    | some f => f.parts tail
    | none => .symbol head :: tail
  | .list es => es
  | _ => []

inductive Value.StandsIn (e : Value) : Value → Prop where
  | self : StandsIn e e
  | part {v p : Value} (hp : p ∈ v.parts) (h : StandsIn e p) : StandsIn e v

theorem Value.StandsIn.trans {e v w : Value} (h : e.StandsIn v) (g : v.StandsIn w) :
    e.StandsIn w := by
  induction g with
  | self => exact h
  | part hp _ ih => exact .part hp ih

theorem Value.parts_form {head : String} {f : Form} (h : Form.ofName? head = some f)
    (es : List Value) : (Value.list (.symbol head :: es)).parts = f.parts es := by
  simp only [parts, h]

theorem Value.parts_call {head : String} (h : Form.ofName? head = none) (es : List Value) :
    (Value.list (.symbol head :: es)).parts = .symbol head :: es := by
  simp only [parts, h]

theorem Value.parts_items {es : List Value} (h : ∀ head tail, es ≠ .symbol head :: tail) :
    (Value.list es).parts = es := by
  rw [parts]
  exact h

section standsIn

variable {e : Value} {head : String} {es : List Value}

theorem Value.standsIn_iff {v : Value} : e.StandsIn v ↔ e = v ∨ ∃ p ∈ v.parts, e.StandsIn p := by
  constructor
  · rintro (_ | ⟨hp, h⟩)
    · exact .inl rfl
    · exact .inr ⟨_, hp, h⟩
  · rintro (rfl | ⟨p, hp, h⟩)
    · exact .self
    · exact .part hp h

@[simp] theorem Value.standsIn_symbol {a : String} : e.StandsIn (.symbol a) ↔ e = .symbol a := by
  rw [standsIn_iff]
  simp [parts]

@[simp] theorem Value.standsIn_number {n : Number} : e.StandsIn (.number n) ↔ e = .number n := by
  rw [standsIn_iff]
  simp [parts]

theorem Value.standsIn_form {f : Form} (h : Form.ofName? head = some f) :
    e.StandsIn (.list (.symbol head :: es)) ↔
      e = .list (.symbol head :: es) ∨ ∃ p ∈ f.parts es, e.StandsIn p := by
  rw [standsIn_iff, parts_form h]

theorem Value.standsIn_call (h : Form.ofName? head = none) :
    e.StandsIn (.list (.symbol head :: es)) ↔
      e = .list (.symbol head :: es) ∨ ∃ p ∈ Value.symbol head :: es, e.StandsIn p := by
  rw [standsIn_iff, parts_call h]

end standsIn

theorem Evaluator.functionParts_eq_ok {es : List Value} {f : List Value × List Value}
    (h : functionParts es = .ok f) : es = [.list f.1, .list f.2] := by
  unfold functionParts at h
  split at h
  · split at h
    · cases h
    · obtain rfl := Except.ok.inj h
      rfl
    · cases h
  · cases h
  · cases h

def Failure.detached : Failure → Failure
  | .read fault => .read fault
  | .evaluation fault => .evaluation fault.detached
  | .unrecorded => .unrecorded

theorem Failure.message_detached (f : Failure) : f.detached.message = f.message := by
  cases f with
  | read | unrecorded => rfl
  | evaluation fault => exact fault.message_detached

theorem Failure.kind?_detached (f : Failure) : f.detached.kind? = f.kind? := by
  cases f with
  | read | unrecorded => rfl
  | evaluation fault => cases fault <;> rfl

def Session.Reply.detached : Session.Reply → Session.Reply
  | .value v => .value v.detached
  | .failure f => .failure f.detached
  | reply => reply

namespace Correspondence

structure Diagonal (c : Correspondence) : Prop where
  code_eq {k : c.Kind} {e e' : Value} : c.Code k e e' → e = e'
  read_eq {k : c.Kind} {a a' : String} : c.Reads k a a' → a = a'
  bound_eq {k : c.Kind} {a a' : String} : c.Binds k a a' → a = a'
  function_eq {k l : c.Kind} {f f' : List Value × List Value} : c.Function k l f f' → f = f'
  shown_iff {v v' : Value} : c.Shown v v' ↔ v.detached = v'.detached
  reads {k : c.Kind} {a : String} : c.Code k (.symbol a) (.symbol a) → c.Reads k a a
  part {k : c.Kind} {e p : Value} : c.Code k e e → p ∈ e.parts → c.Code k p p
  defines {k : c.Kind} {a : String} {v : Value} :
    let e : Value := .list [.symbol "let", .symbol a, v]
    c.Code k e e → c.Binds k a a
  makes {k : c.Kind} {params body : List Value} :
    let e : Value := .list [.symbol "fn", .list params, .list body]
    c.Code k e e → ∃ l, c.Function k l (params, body) (params, body)
  parameter {k l : c.Kind} {f : List Value × List Value} {a : String} :
    c.Function k l f f → .symbol a ∈ f.1 → c.Binds l a a
  body {k l : c.Kind} {f : List Value × List Value} :
    c.Function k l f f → c.Code l (.list f.2) (.list f.2)

namespace Diagonal

variable {c : Correspondence} {k : c.Kind}

theorem shown_self (h : c.Diagonal) (v : Value) : c.Shown v v := h.shown_iff.mpr rfl

theorem branches (h : c.Diagonal) {es : List Value} (hes : ∀ p ∈ Form.choiceParts es, c.Code k p p) :
    c.Branches k es es := by
  fun_induction Form.choiceParts es with
  | case1 => exact .none
  | case2 default => exact .default (hes default (by simp))
  | case3 test result rest hne ih =>
    rw [List.forall_mem_cons, List.forall_mem_cons] at hes
    exact .pair hne hne hes.1 hes.2.1 (ih hes.2.2)
  | case4 clause rest hne hpair ih =>
    rw [List.forall_mem_cons] at hes
    exact .malformed hne hne hpair hpair (h.shown_self clause)

theorem operands (h : c.Diagonal) {head : String} {f : Form} (hf : Form.ofName? head = some f)
    {es : List Value} (he : c.Code k (.list (.symbol head :: es)) (.list (.symbol head :: es))) :
    c.Operands k f es es := by
  have hparts : ∀ p ∈ f.parts es, c.Code k p p := by
    rw [← Value.parts_form hf]
    exact fun p => h.part he
  cases f with
  | operator op => exact .operator op (List.forall₂_same.mpr hparts)
  | negation => exact .negation (List.forall₂_same.mpr hparts)
  | definition =>
    rcases es with _ | ⟨target, _ | ⟨e, _ | ⟨extra, rest⟩⟩⟩
    · exact .incomplete (by simp) (by simp)
    · exact .incomplete (by simp) (by simp)
    · cases target with
      | symbol a =>
        obtain rfl : head = "let" := Form.eq_name hf
        exact .definition (h.defines he) (hparts e (by simp [Form.parts]))
      | _ => exact .undefinable rfl rfl (h.shown_self _)
    · exact .incomplete (by simp) (by simp)
  | function =>
    apply Operands.function
    cases hfun : Evaluator.functionParts es with
    | error fault => exact .fault (.same fault)
    | ok f =>
      obtain rfl := Evaluator.functionParts_eq_ok hfun
      obtain rfl : head = "fn" := Form.eq_name hf
      exact .value (h.makes he)
  | choice => exact .choice (h.branches hparts)

theorem shape (h : c.Diagonal) {e : Value} (he : c.Code k e e) : c.Shape k e e := by
  cases e with
  | symbol a => exact .symbol (h.reads he)
  | number n => exact .number n
  | list es =>
    by_cases hs : ∃ head tail, es = .symbol head :: tail
    · obtain ⟨head, tail, rfl⟩ := hs
      cases hf : Form.ofName? head with
      | some f => exact .form hf hf (h.operands hf he)
      | none =>
        have hparts : ∀ p ∈ Value.symbol head :: tail, c.Code k p p := by
          rw [← Value.parts_call hf]
          exact fun p => h.part he
        rw [List.forall_mem_cons] at hparts
        exact .call hf hf (h.reads hparts.1) (List.forall₂_same.mpr hparts.2)
    · simp only [not_exists] at hs
      have hparts : ∀ p ∈ es, c.Code k p p := by
        rw [← Value.parts_items hs]
        exact fun p => h.part he
      exact .items hs hs (List.forall₂_same.mpr hparts)
  | nil | closure | integer | text => exact .inert rfl rfl

theorem detached_eq (h : c.Diagonal) {w : c.World} {v v' : Value} (hv : c.Alike w v v') :
    v.detached = v'.detached := by
  apply Value.Like.detached_eq hv
  rintro _ _ (_ | _ | _ | ⟨hf, -⟩)
  · rfl
  · rfl
  · rfl
  · obtain ⟨rfl, rfl⟩ := Prod.mk.inj (h.function_eq hf)
    rfl

theorem lawful (h : c.Diagonal) : c.Lawful where
  shape {k e e'} he := by
    obtain rfl := h.code_eq he
    exact h.shape he
  parameters {k l f f'} hf := by
    obtain rfl := h.function_eq hf
    apply List.forall₂_same.mpr
    intro p hp
    cases p with
    | symbol a => exact .symbol (h.parameter hf hp)
    | _ => exact .other rfl rfl (h.shown_self _)
  body {k l f f'} hf := by
    obtain rfl := h.function_eq hf
    exact h.body hf
  bound_iff ha hb := by rw [h.bound_eq ha, h.bound_eq hb]
  shown hv := h.shown_iff.mpr (h.detached_eq hv)
  shown_read ha := by
    rw [h.read_eq ha]
    exact h.shown_self _
  shown_bound ha := by
    rw [h.bound_eq ha]
    exact h.shown_self _
  written hv := Value.writtenAlike_of_detached_eq (h.shown_iff.mp hv)

theorem evaluateSource (h : c.Diagonal) {mode mode' : Scoping} (H : c.Heaps mode mode')
    {source : String} {w : c.World} {s s' : Store} {i i' : FrameId} (hs : H.Holds w s s')
    (hi : w i i' k) (hcode : ∀ program, Reader.read source = .ok program → c.Code k program program) :
    let r := evaluateSource (.ok mode) source i s
    let r' := evaluateSource (.ok mode') source i' s'
    (Session.valueReply r.1).detached = (Session.valueReply r'.1).detached ∧
      ∃ u, Grows w s s' u r.2 r'.2 ∧ H.Holds u r.2 r'.2 := by
  have hrecord := Store.cannotRecord_congr (H.listens hs)
  cases s'.takes source with
  | unread hread =>
    rw [evaluateSource_unread hread, evaluateSource_unread hread]
    exact ⟨rfl, w, .refl w (Nat.le_refl _) (Nat.le_refl _), hs⟩
  | unrecorded hread hs' =>
    rw [evaluateSource_unrecorded hread ((hrecord _).trans hs'),
      evaluateSource_unrecorded hread hs']
    exact ⟨rfl, w, .refl w (Nat.le_refl _) (Nat.le_refl _), hs⟩
  | @read program hread hs' =>
    have hnoted : H.Holds w (Effect.note (.parsed program) s).2
        (Effect.note (.parsed program) s').2 := by
      apply H.congr hs
      · exact fun _ _ _ _ => ⟨rfl, rfl⟩
      · have hl := H.listens hs
        simpa [Effect.note] using hl
    have hnote : Grows w s s' w (Effect.note (.parsed program) s).2
        (Effect.note (.parsed program) s').2 := .refl w (Nat.le_refl _) (Nat.le_refl _)
    have hruns := evaluate_corresponds h.lawful H evaluationRoom w _ _ i i' k program program hnoted
      hi (hcode program hread)
    rw [evaluateSource_read hread ((hrecord _).trans hs'), evaluateSource_read hread hs']
    dsimp only
    generalize evaluate (.ok mode) evaluationRoom i program (Effect.note (.parsed program) s).2 = r,
      evaluate (.ok mode') evaluationRoom i' program (Effect.note (.parsed program) s').2 = r' at hruns
    cases hruns with
    | value hg ht hv =>
      constructor
      · exact congrArg Session.Reply.value (h.detached_eq hv)
      · exact ⟨_, hnote.trans hg, ht⟩
    | fault hg ht hf =>
      have hreported := hf.reported fun _ _ hv => h.lawful.written hv
      constructor
      · exact congrArg (fun fault => Session.Reply.failure (.evaluation fault))
          (hreported.detached_eq fun _ _ hv => h.shown_iff.mp hv)
      · exact ⟨_, hnote.trans hg, ht⟩

end Diagonal

end Correspondence

end ScopedLisp

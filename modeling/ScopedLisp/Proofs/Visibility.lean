import ScopedLisp.Proofs.Sessions

namespace ScopedLisp

open Store (SameOuter)

def Form.branches : List Value → List Value
  | [] => []
  | [default] => [default]
  | .list [test, result] :: rest => test :: result :: branches rest
  | _ :: rest => branches rest

def Form.searched : Form → List Value → List Value
  | .operator _, es | .negation, es => es
  | .definition, [_, e] => [e]
  | .function, [_, body] => [body]
  | .choice, es => branches es
  | _, _ => []

namespace Value

/-- What stands in evaluated positions. The head of a call does, the name of a form does not. -/
def searched : Value → List Value
  | .list (.symbol head :: tail) =>
    match Form.ofName? head with
    | some f => f.searched tail
    | none => .symbol head :: tail
  | .list es => es
  | _ => []

inductive Reads (a : String) : Value → Prop where
  | symbol : Reads a (.symbol a)
  | part {e p : Value} (hp : p ∈ e.searched) (h : Reads a p) : Reads a e

theorem searched_form {head : String} {f : Form} (h : Form.ofName? head = some f)
    (es : List Value) : (Value.list (.symbol head :: es)).searched = f.searched es := by
  simp only [searched, h]

theorem searched_call {head : String} (h : Form.ofName? head = none) (es : List Value) :
    (Value.list (.symbol head :: es)).searched = .symbol head :: es := by
  simp only [searched, h]

theorem searched_items {es : List Value} (h : ∀ head tail, es ≠ .symbol head :: tail) :
    (Value.list es).searched = es := by
  rw [searched]
  exact h

end Value

structure View where
  frames : FrameId → Prop
  names : String → Prop
  whole : FrameId → Prop

namespace View

def Covers (V : View) (e : Value) : Prop := ∀ a, e.Reads a → V.names a

def Admits (V : View) (v : Value) : Prop :=
  ∀ params body home, (Value.closure params body home).Within v →
    (∀ i, home = some i → V.frames i) ∧ V.Covers (.list body)

structure Agree (V : View) (s t : Store) : Prop where
  events : t.events = s.events
  shape : ∀ i, SameOuter s t i
  outward : ∀ i o, V.frames i → s.next? i = some o → V.frames o
  bound : ∀ i a, V.frames i → V.names a → t.get? i a = s.get? i a
  admits : ∀ i a v, V.frames i → V.names a → s.get? i a = some v → V.Admits v
  whole : ∀ i, V.whole i → t.frames[i]? = s.frames[i]?
  fresh : ∀ i, s.frames.size ≤ i → V.frames i ∧ V.whole i

variable {V : View}

theorem Covers.part {e p : Value} (h : V.Covers e) (hp : p ∈ e.searched) : V.Covers p :=
  fun a ha => h a (.part hp ha)

theorem admits_list {vs : List Value} : V.Admits (.list vs) ↔ ∀ v ∈ vs, V.Admits v := by
  constructor
  · intro h v hv params body home hw
    exact h params body home (.item hv hw)
  · rintro h params body home (_ | ⟨hv, hw⟩)
    exact h _ hv params body home hw

theorem admits_number (n : Number) : V.Admits (.number n) := by
  rintro params body home ⟨⟩

theorem admits_nil : V.Admits .nil := by
  rintro params body home ⟨⟩

theorem admits_closure {params body : List Value} {i : FrameId} (hi : V.frames i)
    (hb : V.Covers (.list body)) : V.Admits (.closure params body (some i)) := by
  rintro _ _ _ ⟨⟩
  exact ⟨fun j hj => Option.some.inj hj ▸ hi, hb⟩

namespace Agree

variable {s t : Store} {i : FrameId} {a : String} {v : Value}

theorem size_eq (h : V.Agree s t) : t.frames.size = s.frames.size := by
  apply Nat.le_antisymm
  · by_contra hlt
    have hs := (h.shape s.frames.size).lt_size_iff.mp (Nat.lt_of_not_le hlt)
    exact Nat.lt_irrefl _ hs
  · by_contra hlt
    have ht := (h.shape t.frames.size).lt_size_iff.mpr (Nat.lt_of_not_le hlt)
    exact Nat.lt_irrefl _ ht

theorem depth_eq (h : V.Agree s t) (i : FrameId) : t.depth i = s.depth i :=
  Store.depth_congr fun j _ => h.shape j

theorem lookup? (h : V.Agree s t) (hi : V.frames i) (ha : V.names a) :
    t.lookup? i a = s.lookup? i a ∧ ∀ v, s.lookup? i a = some v → V.Admits v := by
  induction i using Nat.strongRecOn with
  | _ i ih =>
    rw [Store.lookup?_eq t, Store.lookup?_eq s, (h.shape i).next?_eq, h.bound i a hi ha]
    cases hv : s.get? i a with
    | some v =>
      refine ⟨rfl, ?_⟩
      rintro _ ⟨⟩
      exact h.admits i a v hi ha hv
    | none =>
      -- both look-ups go on in the same frame, which can be seen as well
      cases ho : s.next? i with
      | none => exact ⟨rfl, fun _ hv => nomatch hv⟩
      | some o => exact ih o (Store.next?_lt ho) (h.outward i o hi ho)

theorem note (h : V.Agree s t) (event : Event) :
    V.Agree (Effect.note event s).2 (Effect.note event t).2 where
  events := congrArg (·.map (event :: ·)) h.events
  shape := h.shape
  outward := h.outward
  bound := h.bound
  admits := h.admits
  whole := h.whole
  fresh := h.fresh

theorem set (h : V.Agree s t) (i : FrameId) (a : String) (hv : V.Admits v) :
    V.Agree (s.set i a v) (t.set i a v) where
  events := h.events
  shape j := by
    have hs := Store.sameOuter_set s i a v j
    have ht := Store.sameOuter_set t i a v j
    exact (Eq.trans ht (h.shape j)).trans (Eq.symm hs)
  outward j o hj ho := by
    rw [Store.next?_set] at ho
    exact h.outward j o hj ho
  bound j b hj hb := by
    simp only [Store.get?_set_eq, h.bound j b hj hb, (h.shape j).lt_size_iff]
  admits j b w hj hb hw := by
    rw [Store.get?_set_eq] at hw
    split at hw
    · exact Option.some.inj hw ▸ hv
    · exact h.admits j b w hj hb hw
  whole j hj := by rw [Store.frames_set, Store.frames_set, h.whole j hj]
  fresh := by
    rw [Store.size_set]
    exact h.fresh

theorem extend (h : V.Agree s t) (hi : V.frames i) :
    V.Agree (s.extend i).2 (t.extend i).2 := by
  have hframes := Store.frames_extend s i
  have hframes' : ∀ j, (t.extend i).2.frames[j]? =
      if j = s.frames.size then some ⟨some i, []⟩ else t.frames[j]? := by
    intro j
    rw [Store.frames_extend, h.size_eq]
  refine ⟨h.events, ?_, ?_, ?_, ?_, ?_, ?_⟩
  · intro j
    rw [SameOuter, hframes, hframes']
    split
    · rfl
    · exact h.shape j
  · intro j o hj ho
    rw [Store.next?, hframes] at ho
    split at ho
    · have hio : some i = some o := (Option.filter_eq_some_iff.mp ho).1
      exact Option.some.inj hio ▸ hi
    · exact h.outward j o hj ho
  · intro j b hj hb
    rw [Store.get?, Store.get?, hframes, hframes']
    split
    · rfl
    · exact h.bound j b hj hb
  · intro j b w hj hb hw
    rw [Store.get?, hframes] at hw
    split at hw
    · cases hw
    · exact h.admits j b w hj hb hw
  · intro j hj
    rw [hframes, hframes', h.whole j hj]
  · intro j hj
    rw [Store.size_extend] at hj
    exact h.fresh j (Nat.le_of_succ_le hj)

end Agree

inductive Ends (V : View) {α : Type} (Q : α → Prop) :
    Except Fault α × Store → Except Fault α × Store → Prop where
  | value {a : α} {s t : Store} (h : V.Agree s t) (ha : Q a) : Ends V Q (.ok a, s) (.ok a, t)
  | fault (fault : Fault) {s t : Store} (h : V.Agree s t) :
      Ends V Q (.error fault, s) (.error fault, t)

def Steady (V : View) {α : Type} (Q : α → Prop) (m : Effect α) : Prop :=
  ∀ s t, V.Agree s t → V.Ends Q (m s) (m t)

section effects

open Effect

variable {α β : Type} {Q : α → Prop} {R : β → Prop}

theorem Steady.bind {m : Effect α} {f : α → Effect β} (hm : V.Steady Q m)
    (hf : ∀ a, Q a → V.Steady R (f a)) : V.Steady R (m >>= f) := by
  intro s t h
  have hfirst := hm s t h
  rw [bind_apply, bind_apply]
  generalize m s = r, m t = r' at hfirst
  cases hfirst with
  | value h ha => exact hf _ ha _ _ h
  | fault fault h => exact .fault fault h

theorem steady_pure {a : α} (ha : Q a) : V.Steady Q (pure a) := fun _ _ h => .value h ha

theorem steady_fail (fault : Fault) : V.Steady Q (fail fault : Effect α) :=
  fun _ _ h => .fault fault h

theorem steady_ofExcept {r : Except Fault α} (hr : ∀ a, r = .ok a → Q a) :
    V.Steady Q (ofExcept r) := by
  cases r with
  | ok a => exact steady_pure (hr a rfl)
  | error fault => exact steady_fail fault

theorem steady_lookup {i : FrameId} (hi : V.frames i) {a : String} (ha : V.names a) :
    V.Steady V.Admits (lookup i a) := by
  intro s t h
  obtain ⟨hsame, hadmits⟩ := h.lookup? hi ha
  rw [lookup, lookup, Store.lookupValue, Store.lookupValue, hsame]
  cases hv : s.lookup? i a with
  | some v => exact .value h (hadmits v hv)
  | none => exact .fault _ h

theorem steady_extend {i : FrameId} (hi : V.frames i) :
    V.Steady (fun n => V.frames n ∧ V.whole n) (extend i) := by
  intro s t h
  have hn : (t.extend i).1 = (s.extend i).1 := h.size_eq
  rw [extend, extend, hn]
  exact .value (h.extend hi) (h.fresh _ (Nat.le_refl _))

theorem steady_assign (i : FrameId) (name : Value) {v : Value} (hv : V.Admits v) :
    V.Steady (fun _ => True) (assign i name v) := by
  intro s t h
  cases name with
  | symbol a => exact .value (h.set i a hv) trivial
  | _ => exact .fault _ h

theorem steady_noteCall (name : String) {i : FrameId} (hi : V.whole i) :
    V.Steady (fun _ => True) (noteCall name i) := by
  intro s t h
  rw [noteCall, noteCall, h.events, h.whole i hi, h.depth_eq i]
  split
  · split
    · exact .fault _ h
    · exact .value (h.note _) trivial
  · exact .value h trivial

end effects

end View

namespace Evaluator

open View

def Respects (V : View) (ev : Evaluator) : Prop :=
  ∀ i e, V.frames i → V.Covers e → V.Steady V.Admits (ev i e)

variable {V : View}

section forms

variable {ev : Evaluator} {i : FrameId} {es : List Value}

theorem each_steady (hev : Respects V ev) (hi : V.frames i) (hes : ∀ e ∈ es, V.Covers e) :
    V.Steady (fun vs => ∀ v ∈ vs, V.Admits v) (ev.each i es) := by
  induction es with
  | nil => exact steady_pure (by simp)
  | cons e es ih =>
    rw [List.forall_mem_cons] at hes
    apply (hev i e hi hes.1).bind
    intro v hv
    apply (ih hes.2).bind
    intro vs hvs
    exact steady_pure (List.forall_mem_cons.mpr ⟨hv, hvs⟩)

theorem items_steady (hev : Respects V ev) (hi : V.frames i) (hes : ∀ e ∈ es, V.Covers e) :
    V.Steady (fun vs => ∀ v ∈ vs, V.Admits v) (ev.items i es) := by
  induction es with
  | nil => exact steady_pure (by simp)
  | cons e es ih =>
    rw [List.forall_mem_cons] at hes
    apply (hev i e hi hes.1).bind
    intro v hv
    apply (ih hes.2).bind
    intro vs hvs
    apply steady_pure
    split
    · exact hvs
    · exact List.forall_mem_cons.mpr ⟨hv, hvs⟩

theorem operator_steady (hev : Respects V ev) (hi : V.frames i) (op : Operator)
    (hes : ∀ e ∈ es, V.Covers e) : V.Steady V.Admits (ev.operator i op es) := by
  unfold operator
  split
  · apply (each_steady hev hi hes).bind
    intro vs _
    apply (steady_ofExcept (Q := fun _ => True) fun _ _ => trivial).bind
    intro ns _
    exact steady_pure (admits_number _)
  · exact steady_fail _

theorem negation_steady (hev : Respects V ev) (hi : V.frames i) (hes : ∀ e ∈ es, V.Covers e) :
    V.Steady V.Admits (ev.negation i es) := by
  unfold negation
  split
  · apply (hev i _ hi (hes _ (by simp))).bind
    intro v _
    split
    · exact steady_pure (admits_number _)
    · exact steady_fail _
  · exact steady_fail _

theorem definition_steady (hev : Respects V ev) (hi : V.frames i)
    (hes : ∀ e ∈ Form.definition.searched es, V.Covers e) :
    V.Steady V.Admits (ev.definition i es) := by
  unfold definition
  split
  · next name e =>
    apply (hev i e hi (hes e (by simp [Form.searched]))).bind
    intro v hv
    apply (steady_assign i (.symbol name) hv).bind
    intro _ _
    exact steady_pure admits_nil
  · exact steady_fail _
  · exact steady_fail _

theorem function_steady (hi : V.frames i) (hes : ∀ e ∈ Form.function.searched es, V.Covers e) :
    V.Steady V.Admits (function i es) := by
  rw [function_eq]
  apply steady_ofExcept
  intro v hv
  cases hf : functionParts es with
  | error fault => simp [hf, Except.map] at hv
  | ok f =>
    obtain rfl := functionParts_eq_ok hf
    obtain rfl : Value.closure f.1 f.2 (some i) = v := by simpa [hf, Except.map] using hv
    exact admits_closure hi (hes _ (by simp [Form.searched]))

theorem choice_steady (hev : Respects V ev) (hi : V.frames i)
    (hes : ∀ e ∈ Form.branches es, V.Covers e) : V.Steady V.Admits (ev.choice i es) := by
  fun_induction choice ev i es with
  | case1 => exact steady_fail _
  | case2 default => exact hev i default hi (hes default (by simp [Form.branches]))
  | case3 test result rest hne ih =>
    rw [Form.branches, List.forall_mem_cons, List.forall_mem_cons] at hes
    · obtain ⟨htest, hresult, hrest⟩ := hes
      apply (hev i test hi htest).bind
      intro v _
      split
      · exact hev i result hi hresult
      · exact ih hrest
    · exact hne
  | case4 clause rest => exact steady_fail _

theorem bindArguments_steady (hev : Respects V ev) (hi : V.frames i) (name : String) (n : FrameId)
    (expected count : Nat) (ps : List Value) {args : List Value} (hargs : ∀ a ∈ args, V.Covers a) :
    V.Steady (fun _ => True) (bindArguments ev i name n expected count ps args) := by
  induction ps generalizing args with
  | nil => exact steady_pure trivial
  | cons p ps ih =>
    cases args with
    | nil => exact steady_fail _
    | cons a as =>
      rw [List.forall_mem_cons] at hargs
      apply (hev i a hi hargs.1).bind
      intro v hv
      apply (steady_assign n p hv).bind
      intro _ _
      exact ih hargs.2

end forms

variable {rule : Except UnknownScoping Scoping} {ps : Parts} {i : FrameId}

theorem call_steady (hb : Respects V ps.inner) (ho : Respects V ps.operand) (hi : V.frames i)
    {name : String} (hname : V.names name) {args : List Value} (hargs : ∀ a ∈ args, V.Covers a) :
    V.Steady V.Admits (call i ps rule name args) := by
  apply (steady_lookup hi hname).bind
  intro callee hcallee
  cases callee with
  | closure params body home =>
    obtain ⟨hhome, hbody⟩ := hcallee params body home .self
    apply (steady_ofExcept (Q := fun _ => True) fun _ _ => trivial).bind
    intro scoping _
    -- the frame of the call continues in the caller's frame or where the function was made
    have hparent : V.frames (parent scoping home i) := by
      unfold parent
      split
      · exact hhome _ rfl
      · exact hi
    apply (steady_extend hparent).bind
    rintro n ⟨hn, hwhole⟩
    apply (bindArguments_steady ho hi name n params.length args.length params hargs).bind
    intro _ _
    apply (steady_noteCall name hwhole).bind
    intro _ _
    exact hb n (.list body) hn hbody
  | _ => exact steady_fail _

theorem form_steady (hb : Respects V ps.inner) (ho : Respects V ps.operand) (hi : V.frames i)
    (f : Form) {es : List Value} (hes : ∀ e ∈ f.searched es, V.Covers e) :
    V.Steady V.Admits (form i ps f es) := by
  cases f with
  | operator op => exact operator_steady ho hi op hes
  | negation => exact negation_steady hb hi hes
  | definition => exact definition_steady hb hi hes
  | function => exact function_steady hi hes
  | choice => exact choice_steady hb hi hes

theorem step_respects (hit : Respects V ps.item) (hb : Respects V ps.inner)
    (ho : Respects V ps.operand) : Respects V (step rule ps) := by
  intro i e hi he
  unfold step
  split
  · next name => exact steady_lookup hi (he name .symbol)
  · exact steady_pure (admits_number _)
  · next head tail =>
    cases hf : Form.ofName? head with
    | some f =>
      apply form_steady hb ho hi
      rw [← Value.searched_form hf]
      exact fun p => he.part
    | none =>
      have hparts : ∀ p ∈ Value.symbol head :: tail, V.Covers p := by
        rw [← Value.searched_call hf]
        exact fun p => he.part
      rw [List.forall_mem_cons] at hparts
      exact call_steady hb ho hi (hparts.1 head .symbol) hparts.2
  · next es hes =>
    have hparts : ∀ p ∈ es, V.Covers p := by
      rw [← Value.searched_items hes]
      exact fun p => he.part
    apply (items_steady hit hi hparts).bind
    intro vs hvs
    exact steady_pure (admits_list.mpr hvs)
  all_goals exact steady_pure admits_nil

theorem parts_respects (V : View) (rule : Except UnknownScoping Scoping) (room : Nat) :
    Respects V (parts rule room).item ∧ Respects V (parts rule room).inner ∧
      Respects V (parts rule room).operand := by
  induction room with
  | zero =>
    have hnone : Respects V parts.exhausted := fun i e _ _ => steady_fail _
    exact ⟨hnone, hnone, hnone⟩
  | succ room ih =>
    obtain ⟨hit, hb, ho⟩ := ih
    exact ⟨step_respects hit hb ho, hit, hb⟩

end Evaluator

theorem evaluate_respects (V : View) (rule : Except UnknownScoping Scoping) (room : Nat) :
    Evaluator.Respects V (evaluate rule room) :=
  (Evaluator.parts_respects V rule room).1

end ScopedLisp

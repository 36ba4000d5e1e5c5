import ScopedLisp.Proofs.Chains

namespace ScopedLisp

/-- A definition of the name stands in the expression, in no function. A clause of a choice is no
expression, so it is no function either when its test is the symbol `fn`. -/
inductive Value.Defines (name : String) : Value → Prop where
  | here (v : Value) : Defines name (.list [.symbol "let", .symbol name, v])
  | part {items : List Value} {e : Value} (hf : items.head? ≠ some (.symbol "fn"))
      (he : e ∈ items) (h : Defines name e) : Defines name (.list items)
  | test {clauses : List Value} {test result : Value} (hc : .list [test, result] ∈ clauses)
      (h : Defines name test) : Defines name (.list (.symbol "cond" :: clauses))
  | result {clauses : List Value} {test result : Value} (hc : .list [test, result] ∈ clauses)
      (h : Defines name result) : Defines name (.list (.symbol "cond" :: clauses))

/-- Of the frames that are in the first store only frame `i` may differ in the second, and there
only in the bindings of names with the property. -/
structure Store.Confined (i : Nat) (P : String → Prop) (s t : Store) : Prop where
  listens : t.events.isSome = s.events.isSome
  size_le : s.frames.size ≤ t.frames.size
  frame : ∀ j < s.frames.size, j ≠ i → t.frames[j]? = s.frames[j]?
  outer : ∀ j < s.frames.size, t.frames[j]?.map (·.outer) = s.frames[j]?.map (·.outer)
  kept : ∀ name, (s.get? i name).isSome → (t.get? i name).isSome
  changed : ∀ name, t.get? i name ≠ s.get? i name → P name

namespace Store.Confined

variable {i n : Nat} {P Q : String → Prop} {s t u : Store}

theorem refl (i : Nat) (P : String → Prop) (s : Store) : Confined i P s s where
  listens := rfl
  size_le := Nat.le_refl _
  frame _ _ _ := rfl
  outer _ _ := rfl
  kept _ h := h
  changed _ h := absurd rfl h

theorem mono (h : Confined i P s t) (hPQ : ∀ name, P name → Q name) : Confined i Q s t where
  listens := h.listens
  size_le := h.size_le
  frame := h.frame
  outer := h.outer
  kept := h.kept
  changed name hn := hPQ name (h.changed name hn)

theorem trans (h : Confined i P s t) (k : Confined i P t u) : Confined i P s u where
  listens := k.listens.trans h.listens
  size_le := Nat.le_trans h.size_le k.size_le
  frame j hj hi := by rw [k.frame j (Nat.lt_of_lt_of_le hj h.size_le) hi, h.frame j hj hi]
  outer j hj := by rw [k.outer j (Nat.lt_of_lt_of_le hj h.size_le), h.outer j hj]
  kept name hs := k.kept name (h.kept name hs)
  changed name hn := by
    by_cases ht : t.get? i name = s.get? i name
    · exact k.changed name (ht ▸ hn)
    · exact h.changed name ht

theorem beyond (hi : i < s.frames.size) (hn : s.frames.size ≤ n) (h : Confined i P s t)
    (k : Confined n Q t u) : Confined i P s u where
  listens := k.listens.trans h.listens
  size_le := Nat.le_trans h.size_le k.size_le
  frame j hj hi := by
    rw [k.frame j (Nat.lt_of_lt_of_le hj h.size_le) (by lia), h.frame j hj hi]
  outer j hj := by rw [k.outer j (Nat.lt_of_lt_of_le hj h.size_le), h.outer j hj]
  kept name hs := by
    rw [get?, k.frame i (Nat.lt_of_lt_of_le hi h.size_le) (by lia)]
    exact h.kept name hs
  changed name hc := by
    rw [get?, k.frame i (Nat.lt_of_lt_of_le hi h.size_le) (by lia)] at hc
    exact h.changed name hc

theorem set (hi : i < s.frames.size) (name : String) (v : Value) (hP : P name) :
    Confined i P s (s.set i name v) where
  listens := rfl
  size_le := by simp
  frame j _ hj := frames_set_ne s i name v hj
  outer j _ := by
    rw [frames_set]
    split <;> cases s.frames[j]? <;> rfl
  kept other h := by
    rw [get?_set s name v hi]
    split
    · rfl
    · exact h
  changed other h := by
    rw [get?_set s name v hi] at h
    split at h
    · next e => exact e ▸ hP
    · exact absurd rfl h

theorem extend (hi : i < s.frames.size) (o : FrameId) : Confined i P s (s.extend o).2 where
  listens := rfl
  size_le := by simp
  frame j hj _ := frames_extend_of_lt s o hj
  outer j hj := by rw [frames_extend_of_lt s o hj]
  kept name h := by rwa [get?, frames_extend_of_lt s o hi]
  changed name h := by
    rw [get?, frames_extend_of_lt s o hi] at h
    exact absurd rfl h

theorem of_frames_eq (h : t.frames = s.frames) (hl : t.events.isSome = s.events.isSome) :
    Confined i P s t where
  listens := hl
  size_le := Nat.le_of_eq (by rw [h])
  frame _ _ _ := by rw [h]
  outer _ _ := by rw [h]
  kept name hs := by rwa [get?, h]
  changed name hc := by
    rw [get?, h] at hc
    exact absurd rfl hc

theorem bind {α β : Type} {m : Effect α} {f : α → Effect β} (hm : Confined i P s (m t).2)
    (hf : ∀ a u, t.frames.size ≤ u.frames.size → Confined i P s u → Confined i P s (f a u).2)
    (ht : t.frames.size ≤ (m t).2.frames.size) : Confined i P s ((m >>= f) t).2 := by
  rw [Effect.bind_apply]
  rcases hr : m t with ⟨_ | a, u⟩ <;> rw [hr] at hm ht
  · exact hm
  · exact hf a u ht hm

theorem seq {α β : Type} {m : Effect α} {f : α → Effect β} (hm : Confined i P s (m s).2)
    (hf : ∀ a t, s.frames.size ≤ t.frames.size → Confined i P t (f a t).2) :
    Confined i P s ((m >>= f) s).2 :=
  bind hm (fun a t ht h => h.trans (hf a t ht)) hm.size_le

theorem ofExcept {α : Type} (r : Except Fault α) : Confined i P s (Effect.ofExcept r s).2 := by
  cases r <;> exact refl i P s

end Store.Confined

open Store Evaluator

namespace Evaluator

def Confines (ev : Evaluator) : Prop :=
  ∀ (i : Nat) (e : Value) (s : Store), i < s.frames.size → Confined i (e.Defines ·) s (ev i e s).2

variable {ev : Evaluator} {i : Nat} {s : Store} {P : String → Prop}

theorem Confines.apply (hev : Confines ev) (hi : i < s.frames.size) {e : Value}
    (hP : ∀ name, e.Defines name → P name) : Confined i P s (ev i e s).2 :=
  (hev i e s hi).mono hP

theorem each_confined (hev : Confines ev) (es : List Value) (hi : i < s.frames.size)
    (hP : ∀ e ∈ es, ∀ name, e.Defines name → P name) : Confined i P s (ev.each i es s).2 := by
  induction es generalizing s with
  | nil => exact .refl i P s
  | cons e es ih =>
    refine .seq (hev.apply hi (hP e (by simp))) fun v t ht => ?_
    refine .seq (ih (Nat.lt_of_lt_of_le hi ht) fun a ha => hP a (by simp [ha])) fun vs u _ => ?_
    exact .refl i P u

theorem items_confined (hev : Confines ev) (es : List Value) (hi : i < s.frames.size)
    (hP : ∀ e ∈ es, ∀ name, e.Defines name → P name) : Confined i P s (ev.items i es s).2 := by
  induction es generalizing s with
  | nil => exact .refl i P s
  | cons e es ih =>
    refine .seq (hev.apply hi (hP e (by simp))) fun v t ht => ?_
    refine .seq (ih (Nat.lt_of_lt_of_le hi ht) fun a ha => hP a (by simp [ha])) fun vs u _ => ?_
    exact .refl i P u

theorem operator_confined (hev : Confines ev) (op : Operator) (es : List Value)
    (hi : i < s.frames.size) (hP : ∀ e ∈ es, ∀ name, e.Defines name → P name) :
    Confined i P s (ev.operator i op es s).2 := by
  unfold operator
  split
  · refine .seq (each_confined hev _ hi hP) fun vs t _ => ?_
    refine .seq (.ofExcept _) fun ns u _ => ?_
    exact .refl i P u
  · exact .refl i P s

theorem negation_confined (hev : Confines ev) (es : List Value) (hi : i < s.frames.size)
    (hP : ∀ e ∈ es, ∀ name, e.Defines name → P name) : Confined i P s (ev.negation i es s).2 := by
  unfold negation
  split
  · refine .seq (hev.apply hi (hP _ (by simp))) fun v t _ => ?_
    split <;> exact .refl i P t
  · exact .refl i P s

theorem assign_confined (hi : i < s.frames.size) (name : String) (v : Value) (hP : P name) :
    Confined i P s (Effect.assign i (.symbol name) v s).2 :=
  .set hi name v hP

theorem definition_confined (hev : Confines ev) (es : List Value) (hi : i < s.frames.size)
    (hP : ∀ e ∈ es, ∀ name, e.Defines name → P name)
    (hd : ∀ name v, es = [.symbol name, v] → P name) :
    Confined i P s (ev.definition i es s).2 := by
  unfold definition
  split
  · next name e =>
    refine .seq (hev.apply hi (hP e (by simp))) fun v t ht => ?_
    refine .seq (assign_confined (Nat.lt_of_lt_of_le hi ht) name v (hd name e rfl))
      fun _ u _ => ?_
    exact .refl i P u
  · exact .refl i P s
  · exact .refl i P s

theorem function_confined (frame : FrameId) (es : List Value) :
    Confined i P s (function frame es s).2 := by
  fun_cases function frame es <;> exact .refl i P s

theorem choice_confined (hev : Confines ev) (es : List Value) (hi : i < s.frames.size)
    (hP : ∀ e ∈ es, ∀ name, e.Defines name → P name)
    (hc : ∀ test result, .list [test, result] ∈ es →
      ∀ name, test.Defines name ∨ result.Defines name → P name) :
    Confined i P s (ev.choice i es s).2 := by
  fun_induction Evaluator.choice ev i es generalizing s with
  | case1 => exact .refl i P s
  | case2 default => exact hev.apply hi (hP default (by simp))
  | case3 test result rest _ ih =>
    -- the clause is no expression itself, but its two parts are
    have hpair := hc test result (by simp)
    refine .seq (hev.apply hi fun name h => hpair name (.inl h)) fun v t ht => ?_
    have hit := Nat.lt_of_lt_of_le hi ht
    split
    · exact hev.apply hit fun name h => hpair name (.inr h)
    · exact ih hit (fun a ha => hP a (by simp [ha])) fun a b hab => hc a b (by simp [hab])
  | case4 => exact .refl i P s

theorem bindArguments_confined (hev : Confines ev) (name : String) {n : Nat} (expected count : Nat)
    (ps args : List Value) (hi : i < s.frames.size) (hn : s.frames.size ≤ n)
    (hP : ∀ a ∈ args, ∀ name, a.Defines name → P name) {t : Store} (h : Confined i P s t)
    (hnt : n < t.frames.size) :
    let u := (bindArguments ev i name n expected count ps args t).2
    Confined i P s u ∧ t.frames.size ≤ u.frames.size := by
  induction ps generalizing args t with
  | nil => exact ⟨h, Nat.le_refl _⟩
  | cons p ps ih =>
    cases args with
    | nil => exact ⟨h, Nat.le_refl _⟩
    | cons a as =>
      have hit := Nat.lt_of_lt_of_le hi h.size_le
      have ha : Confined i P s (ev i a t).2 := h.trans (hev.apply hit (hP a (by simp)))
      have hsize : t.frames.size ≤ (ev i a t).2.frames.size := (hev i a t hit).size_le
      simp only [bindArguments, Effect.bind_apply]
      rcases hr : ev i a t with ⟨_ | v, u⟩ <;> rw [hr] at ha hsize
      · exact ⟨ha, hsize⟩
      · have hnu := Nat.lt_of_lt_of_le hnt hsize
        cases p with
        | symbol param =>
          -- the frame that is being filled was not there at first, so this write does not count
          have hset : Confined i P s (u.set n param v) :=
            .beyond hi hn ha (.set (P := fun _ => True) hnu param v trivial)
          obtain ⟨hrest, hle⟩ := ih as (fun b hb => hP b (by simp [hb])) hset (by simpa using hnu)
          rw [size_set] at hle
          exact ⟨hrest, Nat.le_trans hsize hle⟩
        | _ => exact ⟨ha, hsize⟩

theorem noteCall_confined (name : String) (n : FrameId) :
    Confined i P s (Effect.noteCall name n s).2 := by
  unfold Effect.noteCall
  split
  · split
    · exact .refl i P s
    · exact .of_frames_eq rfl (by simp [Effect.note])
  · exact .refl i P s

theorem call_confined {parts : Parts} (ho : Confines parts.operand) (hb : Confines parts.inner)
    (rule : Except UnknownScoping Scoping) (name : String) (args : List Value)
    (hi : i < s.frames.size) (hP : ∀ a ∈ args, ∀ name, a.Defines name → P name) :
    Confined i P s (call i parts rule name args s).2 := by
  cases hl : s.lookup? i name with
  | none => rw [call, Effect.lookup_bind, hl]; exact .refl i P s
  | some callee =>
    cases callee with
    | closure params body home =>
      cases rule with
      | error fault => rw [call, Effect.lookup_bind, hl]; exact .refl i P s
      | ok scoping =>
        rw [call_closure i hl]
        obtain ⟨hargs, hsize⟩ := bindArguments_confined ho name params.length args.length params
          args hi (Nat.le_refl _) hP (.extend hi (parent scoping home i)) (by simp)
        refine .bind hargs (fun _ t ht h => ?_) hsize
        have hnote := noteCall_confined (i := i) (P := P) (s := t) name s.frames.size
        refine .bind (h.trans hnote) (fun _ u hu h => ?_) hnote.size_le
        have hn : s.frames.size < u.frames.size := by
          simp only [size_extend] at ht
          lia
        exact .beyond hi (Nat.le_refl _) h (hb _ _ u hn)
    | _ => rw [call, Effect.lookup_bind, hl]; exact .refl i P s

end Evaluator

def Form.name : Form → String
  | .operator op => op.name
  | .negation => "not"
  | .definition => "let"
  | .function => "fn"
  | .choice => "cond"

theorem Form.ofName?_fn : Form.ofName? "fn" = some .function := by decide +kernel

theorem Form.eq_name {name : String} {f : Form} (h : Form.ofName? name = some f) :
    name = f.name := by
  unfold Form.ofName? at h
  split at h
  · next op hop =>
    obtain rfl := Option.some.inj h
    have hname := List.find?_some hop
    exact (eq_of_beq hname).symm
  · grind [Form.name]

namespace Evaluator

variable {i : Nat} {s : Store}

theorem defines_part {head : String} (hf : Form.ofName? head ≠ some .function) (es : List Value) :
    ∀ e ∈ es, ∀ name, e.Defines name → (Value.list (.symbol head :: es)).Defines name := by
  intro e he name h
  refine .part ?_ (List.mem_cons_of_mem _ he) h
  intro hfn
  simp only [List.head?_cons, Option.some.injEq, Value.symbol.injEq] at hfn
  exact hf (hfn ▸ Form.ofName?_fn)

theorem form_confined {parts : Parts} (ho : Confines parts.operand) (hb : Confines parts.inner)
    {head : String} {f : Form} (hf : Form.ofName? head = some f) (es : List Value)
    (hi : i < s.frames.size) :
    Confined i ((Value.list (.symbol head :: es)).Defines ·) s (form i parts f es s).2 := by
  cases f with
  | operator op => exact operator_confined ho op es hi (defines_part (by simp [hf]) es)
  | negation => exact negation_confined hb es hi (defines_part (by simp [hf]) es)
  | definition =>
    refine definition_confined hb es hi (defines_part (by simp [hf]) es) ?_
    rintro name v rfl
    exact (Form.eq_name hf : head = "let") ▸ .here v
  | function => exact function_confined i es
  | choice =>
    refine choice_confined hb es hi (defines_part (by simp [hf]) es) ?_
    rintro test result hc name (h | h)
    · exact (Form.eq_name hf : head = "cond") ▸ .test hc h
    · exact (Form.eq_name hf : head = "cond") ▸ .result hc h

theorem step_confined {parts : Parts} (hit : Confines parts.item) (ho : Confines parts.operand)
    (hb : Confines parts.inner) (rule : Except UnknownScoping Scoping) :
    Confines (step rule parts) := by
  intro i e s hi
  unfold step
  split
  · exact .refl i _ s
  · exact .refl i _ s
  · next head tail =>
    cases hf : Form.ofName? head with
    | some f => exact form_confined ho hb hf tail hi
    | none => exact call_confined ho hb rule head tail hi (defines_part (by simp [hf]) tail)
  · next es hes =>
    refine .seq (items_confined hit es hi ?_) fun vs t _ => .refl i _ t
    intro e he name h
    refine .part ?_ he h
    cases es with
    | nil => simp
    | cons a as =>
      intro ha
      simp only [List.head?_cons, Option.some.injEq] at ha
      exact hes "fn" as (by rw [ha])
  all_goals exact .refl i _ s

theorem parts_confined (rule : Except UnknownScoping Scoping) (room : Nat) :
    Confines (parts rule room).item ∧ Confines (parts rule room).inner ∧
      Confines (parts rule room).operand := by
  induction room with
  | zero =>
    have hnone : Confines parts.exhausted := fun i e s _ => .refl i _ s
    exact ⟨hnone, hnone, hnone⟩
  | succ room ih =>
    obtain ⟨hit, hb, ho⟩ := ih
    exact ⟨step_confined hit ho hb rule, hit, hb⟩

end Evaluator

theorem evaluate_confined (rule : Except UnknownScoping Scoping) (room : Nat) :
    Confines (evaluate rule room) :=
  (parts_confined rule room).1

theorem Value.Defines.of_call {f name : String} {args : List Value} (hf : Form.ofName? f = none)
    (h : (Value.list (.symbol f :: args)).Defines name) : ∃ a ∈ args, a.Defines name := by
  cases h with
  | here v => exact absurd hf (by decide +kernel)
  | part _ he h =>
    rcases List.mem_cons.mp he with rfl | he
    · nomatch h
    · exact ⟨_, he, h⟩
  | test => exact absurd hf (by decide +kernel)
  | result => exact absurd hf (by decide +kernel)

/-- Whether it ends with a value or a fault, an evaluation leaves all other frames and all outer
links as they are, takes no binding away, and binds what the expression defines outside of
functions; so a call binds nothing for its caller but what its arguments define. -/
theorem evaluate_writes_own_frame (rule : Except UnknownScoping Scoping) (room : Nat) {s : Store}
    {i : FrameId} (e : Value) (hi : i < s.frames.size) :
    let t := (evaluate rule room i e s).2
    (∀ j < s.frames.size, j ≠ i → t.frames[j]? = s.frames[j]?) ∧
    (∀ j < s.frames.size, t.frames[j]?.map (·.outer) = s.frames[j]?.map (·.outer)) ∧
    (∀ name, (s.get? i name).isSome → (t.get? i name).isSome) ∧
    (∀ name, t.get? i name ≠ s.get? i name → e.Defines name) ∧
    ∀ f args, e = .list (.symbol f :: args) → Form.ofName? f = none →
      ∀ name, t.get? i name ≠ s.get? i name → ∃ a ∈ args, a.Defines name := by
  intro t
  have h : Confined i (e.Defines ·) s t := evaluate_confined rule room i e s hi
  refine ⟨h.frame, h.outer, h.kept, h.changed, ?_⟩
  rintro f args rfl hf name hn
  exact (h.changed name hn).of_call hf

theorem evaluate_writes_own_frame_call :
    let s : Store := ⟨#[⟨none, [("f", .closure [.symbol "a"]
      [.symbol "let", .symbol "b", .symbol "a"] (some 0))]⟩, ⟨some 0, []⟩], none⟩
    let a : Value := .list [.symbol "let", .symbol "c", .symbol "f"]
    let t := (evaluate (.ok .lexical) 9 1 (.list [.symbol "f", a]) s).2
    1 < s.frames.size ∧ t.frames[0]? = s.frames[0]? ∧
      ∀ name, t.get? 1 name ≠ s.get? 1 name → ∃ b ∈ [a], b.Defines name := by
  intro s a t
  have hi : 1 < s.frames.size := by decide
  obtain ⟨hframe, -, -, -, hcall⟩ :=
    evaluate_writes_own_frame (.ok .lexical) 9 (.list [.symbol "f", a]) hi
  exact ⟨hi, hframe 0 (by decide) (by decide), hcall "f" [a] rfl (by decide +kernel)⟩

end ScopedLisp

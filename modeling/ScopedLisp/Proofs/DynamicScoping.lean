import ScopedLisp.Proofs.Confinement
import ScopedLisp.Proofs.FlatEvaluation
import ScopedLisp.Proofs.Likeness

/-!
Dynamic scoping as evaluation with one map of names: a chain of frames is read like the map of what
look-up finds from its first frame, and an evaluation in that frame does to this map what the flat
evaluation does.
-/

namespace ScopedLisp

open Flat (Names Run)

def Value.Alike : Value → Value → Prop := Value.Like fun v w => v.detached = w.detached

theorem Value.Alike.refl (v : Value) : v.Alike v :=
  Like.refl (R := fun v w => v.detached = w.detached) (fun _ => rfl) v

theorem Value.Alike.detached_eq {v w : Value} (h : v.Alike w) : v.detached = w.detached :=
  Like.detached_eq h fun _ _ h => h

theorem map_detached_eq {v? w? : Option Value} (h : Option.Rel Value.Alike v? w?) :
    v?.map Value.detached = w?.map Value.detached := by
  cases h with
  | none => rfl
  | some hv => exact congrArg some hv.detached_eq

namespace Flat

variable {α β : Type} (m : Names)

theorem bind_apply (x : Run α) (f : α → Run β) : (x >>= f) m =
    match x m with
    | (.ok a, n) => f a n
    | (.error fault, n) => (.error fault, n) := by
  simp only [Bind.bind, ExceptT.bind, ExceptT.mk, StateT.bind]
  rcases x m with ⟨_ | a, n⟩ <;> rfl

theorem lookup_apply (name : String) : lookup name m =
    match m name with
    | some v => (.ok v, m)
    | none => (.error (.unbound (.symbol name)), m) := by
  rw [lookup, bind_apply]
  change (match m name with | some v => pure v | none => throw _ : Run Value) m = _
  cases m name <;> rfl

end Flat

/-- What look-up finds from the frame is what the map has. -/
structure Flattens (listening : Bool) (i : Nat) (s : Store) (m : Names) : Prop where
  lt : i < s.frames.size
  listens : s.events.isSome = listening
  lookup : ∀ name, Option.Rel Value.Alike (s.lookup? i name) (m name)

inductive Follows {α β : Type} (listening : Bool) (i : Nat) (Q : Store → α → β → Prop) :
    Except Fault α × Store → Except Fault β × Names → Prop where
  | value {s : Store} {m : Names} {a : α} {b : β} (h : Q s a b) (hs : Flattens listening i s m) :
      Follows listening i Q (.ok a, s) (.ok b, m)
  | fault {s : Store} {m : Names} {f g : Fault} (h : f.Like (fun v w => v.detached = w.detached) g)
      (hs : Flattens listening i s m) : Follows listening i Q (.error f, s) (.error g, m)

namespace Follows

variable {α β γ δ : Type} {listening : Bool} {i : Nat} {s : Store} {m : Names}
  {Q : Store → α → β → Prop}

theorem bind {x : Effect α} {y : Run β} {f : α → Effect γ} {g : β → Run δ}
    {P : Store → γ → δ → Prop} (hxy : Follows listening i Q (x s) (y m))
    (hfg : ∀ a b t n, Q t a b → Flattens listening i t n → Follows listening i P (f a t) (g b n)) :
    Follows listening i P ((x >>= f) s) ((y >>= g) m) := by
  rw [Effect.bind_apply, Flat.bind_apply]
  generalize x s = r, y m = r' at hxy
  cases hxy with
  | value h hs => exact hfg _ _ _ _ h hs
  | fault h hs => exact .fault h hs

theorem map {r : Except Fault α × Store} {y : Run β} {k : β → δ} {P : Store → α → δ → Prop}
    (h : Follows listening i Q r (y m)) (hk : ∀ a b, Q r.2 a b → P r.2 a (k b)) :
    Follows listening i P r ((y >>= fun b => pure (k b)) m) := by
  rw [Flat.bind_apply]
  generalize y m = r' at h
  cases h with
  | value h hs => exact .value (hk _ _ h) hs
  | fault h hs => exact .fault h hs

theorem imp {r : Except Fault α × Store} {f : Except Fault β × Names} {P : Store → α → β → Prop}
    (h : Follows listening i Q r f) (hQP : ∀ a b, Q r.2 a b → P r.2 a b) :
    Follows listening i P r f := by
  cases h with
  | value h hs => exact .value (hQP _ _ h) hs
  | fault h hs => exact .fault h hs

end Follows

namespace Flattens

variable {listening : Bool} {i : Nat} {s : Store} {m : Names}

theorem set (h : Flattens listening i s m) {v w : Value} (hv : v.Alike w) (name : String) :
    Flattens listening i (s.set i name v) (m.bind name w) where
  lt := by simpa using h.lt
  listens := h.listens
  lookup other := by
    rw [Store.lookup?_set_self s name v h.lt, Names.bind]
    split
    · exact .some hv
    · exact h.lookup other

theorem of_frames_eq {t : Store} (h : Flattens listening i s m)
    (ht : ∀ j ≤ i, t.frames[j]? = s.frames[j]?) (hl : t.events.isSome = listening)
    (hlt : i < t.frames.size) : Flattens listening i t m where
  lt := hlt
  listens := hl
  lookup name := by
    rw [Store.lookup?_congr name ht]
    exact h.lookup name

end Flattens

def Imitates (listening : Bool) (fv : Flat.Evaluator) (ev : Evaluator) : Prop :=
  ∀ i e s m, Flattens listening i s m → Follows listening i (fun _ => Value.Alike) (ev i e s) (fv e m)

section forms

variable {listening : Bool} {fv : Flat.Evaluator} {ev : Evaluator} {i : Nat} {s : Store} {m : Names}

theorem each_follows (hev : Imitates listening fv ev) (es : List Value)
    (h : Flattens listening i s m) :
    Follows listening i (fun _ => List.Forall₂ Value.Alike) (ev.each i es s) (es.mapM fv m) := by
  induction es generalizing s m with
  | nil => exact .value .nil h
  | cons e es ih =>
    rw [List.mapM_cons]
    refine .bind (hev i e s m h) fun v w t n hv ht => ?_
    refine .bind (ih ht) fun vs ws u o hvs hu => ?_
    exact .value (.cons hv hvs) hu

theorem items_follows (hev : Imitates listening fv ev) (es : List Value)
    (h : Flattens listening i s m) :
    Follows listening i (fun _ vs ws => List.Forall₂ Value.Alike vs (ws.filter (! · matches .nil)))
      (ev.items i es s) (es.mapM fv m) := by
  induction es generalizing s m with
  | nil => exact .value .nil h
  | cons e es ih =>
    rw [List.mapM_cons]
    refine .bind (hev i e s m h) fun v w t n hv ht => ?_
    refine .bind (ih ht) fun vs ws u o hvs hu => ?_
    cases hv with
    | nil => exact .value hvs hu
    | number a => exact .value (.cons (.number a) hvs) hu
    | list hl hp => exact .value (.cons (.list hl hp) hvs) hu
    | closure hc => exact .value (.cons (.closure hc) hvs) hu
    | symbol ha => exact .value (.cons (.symbol ha) hvs) hu
    | integer ha => exact .value (.cons (.integer ha) hvs) hu
    | text ha => exact .value (.cons (.text ha) hvs) hu

theorem operator_follows (hev : Imitates listening fv ev) (op : Operator) (es : List Value)
    (h : Flattens listening i s m) :
    Follows listening i (fun _ => Value.Alike) (ev.operator i op es s) (Flat.operator fv op es m) := by
  rcases es with _ | ⟨a, _ | ⟨b, rest⟩⟩
  · exact .fault (.same _) h
  · exact .fault (.same _) h
  · refine .bind (each_follows hev (a :: b :: rest) h) fun vs ws t n hvs ht => ?_
    have hns := Evaluator.numbers_like (fun v w h => Value.Alike.detached_eq h) op hvs
    refine .bind (Q := fun _ => Eq) ?_ fun ns _ u o hn hu => ?_
    · generalize Evaluator.numbers op vs = r, Evaluator.numbers op ws = r' at hns
      cases hns with
      | value h => exact .value h ht
      | fault h => exact .fault h ht
    · exact .value (hn ▸ .number _) hu

theorem negation_follows (hev : Imitates listening fv ev) (es : List Value)
    (h : Flattens listening i s m) :
    Follows listening i (fun _ => Value.Alike) (ev.negation i es s) (Flat.negation fv es m) := by
  rcases es with _ | ⟨e, _ | ⟨b, rest⟩⟩
  · exact .fault (.same _) h
  · refine .bind (hev i e s m h) fun v w t n hv ht => ?_
    have hd := hv.detached_eq
    cases hv with
    | number a => exact .value (.number _) ht
    | _ => exact .fault (.negandNotNumber hd) ht
  · exact .fault (.same _) h

theorem definition_follows (hev : Imitates listening fv ev) (es : List Value)
    (h : Flattens listening i s m) :
    Follows listening i (fun _ => Value.Alike) (ev.definition i es s) (Flat.definition fv es m) := by
  rcases es with _ | ⟨target, _ | ⟨e, _ | ⟨b, rest⟩⟩⟩
  · exact .fault (.same _) h
  · cases target <;> exact .fault (.same _) h
  · cases target with
    | symbol name =>
      refine .bind (hev i e s m h) fun v w t n hv ht => ?_
      exact .value .nil (ht.set hv name)
    | _ => exact .fault (.same _) h
  · cases target <;> exact .fault (.same _) h

theorem function_follows (es : List Value) (h : Flattens listening i s m) :
    Follows listening i (fun _ => Value.Alike) (Evaluator.function i es s) (Flat.function es m) := by
  rw [Evaluator.function_eq, Flat.function]
  cases Evaluator.functionParts es with
  | error fault => exact .fault (.same _) h
  | ok f => exact .value (.closure rfl) h

theorem choice_follows (hev : Imitates listening fv ev) (es : List Value)
    (h : Flattens listening i s m) :
    Follows listening i (fun _ => Value.Alike) (ev.choice i es s) (Flat.choice fv es m) := by
  fun_induction Evaluator.choice ev i es generalizing s m with
  | case1 => exact .fault (.same _) h
  | case2 default =>
    rw [Flat.choice]
    exact hev i default s m h
  | case3 test result rest hne ih =>
    rw [Flat.choice]
    · refine .bind (hev i test s m h) fun v w t n hv ht => ?_
      rw [hv.holds_eq]
      split
      · exact hev i result t n ht
      · exact ih ht
    · exact hne
  | case4 clause rest hne hpair =>
    rw [Flat.choice]
    · exact .fault (.same _) h
    all_goals assumption

end forms

section call

variable {listening : Bool} {i : Nat} {t : Store} {m : Names}

theorem lookup_bindAll {bs cs : List (String × Value)} (h : BindingsAlike Eq Value.Alike bs cs)
    {f : Frame} (base : String → Option Value)
    (hf : ∀ name, Option.Rel Value.Alike ((f.get? name).or (base name)) (m name)) (name : String) :
    Option.Rel Value.Alike (((f.bindAll bs).get? name).or (base name)) (m.bindAll cs name) := by
  induction h generalizing f m with
  | nil => exact hf name
  | @cons b c bs cs hbc _ ih =>
    obtain ⟨hn, hv⟩ := hbc
    refine ih (f := f.set b.1 b.2) (m := m.bind c.1 c.2) fun other => ?_
    rw [Frame.get?_set, Names.bind, hn]
    split
    · exact .some hv
    · exact hf other

theorem arguments_follow {fv : Flat.Evaluator} {ev : Evaluator} (hev : Imitates listening fv ev)
    (hc : ev.Confines) (name : String) (expected count : Nat) {n : Nat} (hin : i < n)
    (ps args : List Value) {f : Frame} (h : Flattens listening i t m)
    (hn : t.frames[n]? = some f) :
    Follows listening i (fun u _ cs => ∃ bs, BindingsAlike Eq Value.Alike bs cs ∧
        u.frames[n]? = some (f.bindAll bs))
      (ev.bindArguments i name n expected count ps args t)
      (Flat.arguments fv name expected count ps args m) := by
  induction ps generalizing args t m f with
  | nil => exact .value ⟨[], .nil, hn⟩ h
  | cons p ps ih =>
    cases args with
    | nil => cases p <;> exact .fault (.same _) h
    | cons a as =>
      have hlt : n < t.frames.size := (Array.getElem?_eq_some_iff.mp hn).1
      -- the frame that is being filled is no frame of the caller's chain
      have hkeep : (ev i a t).2.frames[n]? = some f := by
        rw [(hc i a t h.lt).frame n hlt (Nat.ne_of_gt hin), hn]
      have harg : Follows listening i (fun u v w => v.Alike w ∧ u.frames[n]? = some f)
          (ev i a t) (fv a m) := (hev i a t m h).imp fun v w hv => ⟨hv, hkeep⟩
      cases p with
      | symbol x =>
        refine .bind harg fun v w u o ⟨hv, hu⟩ hs => ?_
        have hset : Flattens listening i (u.set n x v) o :=
          hs.of_frames_eq (fun j hj => Store.frames_set_ne u n x v (by lia)) hs.listens
            (by simpa using hs.lt)
        have hfill : (u.set n x v).frames[n]? = some (f.set x v) := by
          rw [Store.frames_set, if_pos rfl, hu, Option.map_some]
        exact (ih as hset hfill).map fun _ cs ⟨bs, hbs, hfilled⟩ =>
          ⟨(x, v) :: bs, .cons ⟨rfl, hv⟩ hbs, hfilled⟩
      | _ =>
        refine .bind harg fun v w u o _ hs => ?_
        exact .fault (.same _) hs

theorem flattens_call {n : Nat} (hin : i < n) {bs cs : List (String × Value)}
    (hbs : BindingsAlike Eq Value.Alike bs cs)
    (hn : t.frames[n]? = some (Frame.bindAll ⟨some i, []⟩ bs)) (h : Flattens listening i t m) :
    Flattens listening n t (m.bindAll cs) where
  lt := (Array.getElem?_eq_some_iff.mp hn).1
  listens := h.listens
  lookup name := by
    have hnext := Store.next?_of_filled hn hin
    have hget : t.get? n name = (Frame.bindAll ⟨some i, []⟩ bs).get? name := by
      rw [Store.get?, hn, Option.bind_some]
    rw [Store.lookup?_eq, hnext, hget, Option.bind_some]
    exact lookup_bindAll hbs (f := ⟨some i, []⟩) (t.lookup? i ·) h.lookup name

theorem body_follows {fv : Flat.Evaluator} {ev : Evaluator} (hev : Imitates listening fv ev)
    (hc : ev.Confines) {n : Nat} (hin : i < n) (body : Value) {cs : List (String × Value)}
    (h : Flattens listening i t m) (hn : Flattens listening n t (m.bindAll cs)) :
    Follows listening i (fun _ => Value.Alike) (ev n body t) (Flat.inCopy cs (fv body) m) := by
  have hbody := hev n body t _ hn
  have hkeep := hc n body t hn.lt
  change Follows listening i _ _ ((fv body (m.bindAll cs)).1, m)
  generalize ev n body t = r, fv body (m.bindAll cs) = f at hbody hkeep ⊢
  -- the body writes its own frame and younger ones, none of which the caller's chain has
  have hback {u : Store} (hu : Store.Confined n (body.Defines ·) t u)
      (hl : u.events.isSome = listening) : Flattens listening i u m := by
    refine h.of_frames_eq (fun j hj => ?_) hl (Nat.lt_of_lt_of_le h.lt hu.size_le)
    exact hu.frame j (Nat.lt_of_le_of_lt hj h.lt) (by lia)
  cases hbody with
  | value hv hs => exact .value hv (hback hkeep hs.listens)
  | fault hf hs => exact .fault hf (hback hkeep hs.listens)

theorem shown_follows (name : String) {n : Nat} {bs cs : List (String × Value)}
    (hbs : BindingsAlike Eq Value.Alike bs cs) {o : Option FrameId}
    (hn : t.frames[n]? = some (Frame.bindAll ⟨o, []⟩ bs)) (h : Flattens listening i t m) :
    Follows listening i (fun u _ _ => u.frames = t.frames) (Effect.noteCall name n t)
      (Flat.shown listening cs m) := by
  have hnames : ∀ a a' b b' : String, a = a' → b = b' → (a = b ↔ a' = b') := by
    rintro a _ b _ rfl rfl
    rfl
  have hfault : (Frame.bindAll ⟨o, []⟩ bs).fault? = (Frame.bindAll ⟨none, []⟩ cs).fault? :=
    BindingsAlike.fault?_eq ((hbs.bindAll hnames .nil).mono fun v w hv =>
      Value.writtenAlike_of_detached_eq hv.detached_eq)
  have hl := h.listens
  rw [Effect.noteCall, hn]
  cases he : t.events with
  | none =>
    rw [he] at hl
    obtain rfl := hl
    exact .value rfl h
  | some events =>
    rw [he, Option.isSome_some] at hl
    obtain rfl := hl
    rw [Flat.shown, Bool.true_and, ← hfault]
    dsimp only
    split
    · exact .fault (.same _) h
    · exact .value rfl (h.of_frames_eq (fun _ _ => rfl) (by simp [he]) h.lt)

theorem call_follows {fparts : Flat.Parts} {parts : Evaluator.Parts}
    (hi : Imitates listening fparts.inner parts.inner)
    (ho : Imitates listening fparts.operand parts.operand) (hc : parts.operand.Confines)
    (hb : parts.inner.Confines) (name : String) (args : List Value)
    (h : Flattens listening i t m) :
    Follows listening i (fun _ => Value.Alike) (Evaluator.call i parts (.ok .dynamic) name args t)
      (Flat.call listening fparts name args m) := by
  have hl := h.lookup name
  rw [Flat.call, Flat.bind_apply, Flat.lookup_apply]
  generalize hm : m name = w? at hl
  generalize hs : t.lookup? i name = v? at hl
  cases hl with
  | none =>
    rw [Evaluator.call, Effect.lookup_bind, hs]
    exact .fault (.same _) h
  | @some v w hvw =>
    cases hvw with
    | @closure ps b qs c home home' hd =>
      obtain ⟨rfl, rfl⟩ : ps = qs ∧ b = c := by simpa [Value.detached] using hd
      rw [Evaluator.call_closure i hs]
      have hext : Flattens listening i (t.extend i).2 m :=
        h.of_frames_eq (fun j hj => Store.frames_extend_of_lt t i (Nat.lt_of_le_of_lt hj h.lt))
          h.listens (by simpa using Nat.lt_succ_of_lt h.lt)
      have hn := Store.frames_extend_self t i
      refine .bind (arguments_follow ho hc name ps.length args.length h.lt ps args hext hn)
        fun _ cs u o hbound hs => ?_
      obtain ⟨bs, hbs, hu⟩ := hbound
      refine .bind (shown_follows name hbs hu hs) fun _ _ v o' hv hs' => ?_
      rw [← hv] at hu
      exact body_follows hi hb h.lt (.list b) hs' (flattens_call h.lt hbs hu hs')
    | _ =>
      rw [Evaluator.call, Effect.lookup_bind, hs]
      exact .fault (.same _) h

end call

section evaluate

variable {listening : Bool} {fparts : Flat.Parts} {parts : Evaluator.Parts}

theorem lookup_follows {i : Nat} {s : Store} {m : Names} (name : String)
    (h : Flattens listening i s m) :
    Follows listening i (fun _ => Value.Alike) (Effect.lookup i name s) (Flat.lookup name m) := by
  have hl := h.lookup name
  rw [Flat.lookup_apply, Effect.lookup, Store.lookupValue]
  generalize s.lookup? i name = v?, m name = w? at hl
  cases hl with
  | some hv => exact .value hv h
  | none => exact .fault (.same _) h

theorem form_follows (hi : Imitates listening fparts.inner parts.inner)
    (ho : Imitates listening fparts.operand parts.operand) (f : Form) (es : List Value) {i : Nat}
    {s : Store} {m : Names} (h : Flattens listening i s m) :
    Follows listening i (fun _ => Value.Alike) (Evaluator.form i parts f es s)
      (Flat.form fparts f es m) := by
  cases f with
  | operator op => exact operator_follows ho op es h
  | negation => exact negation_follows hi es h
  | definition => exact definition_follows hi es h
  | function => exact function_follows es h
  | choice => exact choice_follows hi es h

theorem step_follows (hit : Imitates listening fparts.item parts.item)
    (hi : Imitates listening fparts.inner parts.inner)
    (ho : Imitates listening fparts.operand parts.operand)
    (hc : parts.operand.Confines) (hb : parts.inner.Confines) :
    Imitates listening (Flat.step listening fparts) (Evaluator.step (.ok .dynamic) parts) := by
  intro i e s m h
  fun_cases Flat.step listening fparts e with
  | case1 name => exact lookup_follows name h
  | case2 n => exact .value (.number n) h
  | case3 head tail f hf =>
    rw [Evaluator.step, hf]
    exact form_follows hi ho f tail h
  | case4 head tail hf =>
    rw [Evaluator.step, hf]
    exact call_follows hi ho hc hb head tail h
  | case5 es hes =>
    rw [Evaluator.step]
    · refine .bind (items_follows hit es h) fun vs ws t n hvs ht => ?_
      exact .value (Value.Like.list_iff.mpr hvs) ht
    all_goals exact hes
  | _ => exact .value .nil h

theorem evaluate_follows (listening : Bool) (room : Nat) :
    Imitates listening (Flat.evaluate listening room) (evaluate (.ok .dynamic) room) := by
  have hparts : Imitates listening (Flat.parts listening room).item
        (Evaluator.parts (.ok .dynamic) room).item ∧
      Imitates listening (Flat.parts listening room).inner
        (Evaluator.parts (.ok .dynamic) room).inner ∧
      Imitates listening (Flat.parts listening room).operand
        (Evaluator.parts (.ok .dynamic) room).operand := by
    induction room with
    | zero =>
      have hnone : Imitates listening Flat.parts.exhausted Evaluator.parts.exhausted :=
        fun i e s m h => .fault (.same _) h
      exact ⟨hnone, hnone, hnone⟩
    | succ room ih =>
      obtain ⟨hit, hi, ho⟩ := ih
      obtain ⟨-, hb, hc⟩ := Evaluator.parts_confined (.ok .dynamic) room
      exact ⟨step_follows hit hi ho hc hb, hit, hi⟩
  exact hparts.1

end evaluate

theorem Follows.endAlike {α β : Type} {listening : Bool} {i : Nat} {Q : Store → α → β → Prop}
    {r : Except Fault α × Store} {f : Except Fault β × Names} (h : Follows listening i Q r f) :
    EndAlike (fun v w => v.detached = w.detached) (Q r.2) r.1 f.1 ∧ Flattens listening i r.2 f.2 := by
  cases h with
  | value h hs => exact ⟨.value h, hs⟩
  | fault h hs => exact ⟨.fault h, hs⟩

/-- Under dynamic scoping an evaluation ends as the flat one does, which starts with the map of what
look-up finds from the frame; and whether it ended with a value or a fault, look-up then finds what
the flat one's map has. -/
theorem evaluate_dynamic_eq_flat (room : Nat) {s : Store} {i : FrameId} (e : Value)
    (hi : i < s.frames.size) :
    let r := evaluate (.ok .dynamic) room i e s
    let f : Except Fault Value × Names :=
      (Flat.evaluate s.events.isSome room e).run (s.lookup? i)
    detachedEnd r.1 = detachedEnd f.1 ∧
      ∀ name, (r.2.lookup? i name).map Value.detached = (f.2 name).map Value.detached := by
  intro r f
  have hstart : Flattens s.events.isSome i s (s.lookup? i) := by
    refine ⟨hi, rfl, fun name => ?_⟩
    cases s.lookup? i name with
    | none => exact .none
    | some v => exact .some (Value.Alike.refl v)
  obtain ⟨hend, hs⟩ := (evaluate_follows s.events.isSome room i e s _ hstart).endAlike
  refine ⟨hend.detachedEnd_eq (fun _ _ h => h) fun _ _ h => Value.Alike.detached_eq h, ?_⟩
  exact fun name => map_detached_eq (hs.lookup name)

theorem evaluate_dynamic_eq_flat_call :
    let body : List Value := [.list [.symbol "let", .symbol "y", .symbol "x"], .symbol "y"]
    let s : Store := ⟨#[⟨none, [("f", .closure [.symbol "a"] body (some 0))]⟩, ⟨some 0, []⟩], none⟩
    let e : Value := .list [.symbol "f", .list [.symbol "let", .symbol "x", .symbol "f"]]
    let r := evaluate (.ok .dynamic) 9 1 e s
    let f : Except Fault Value × Names := (Flat.evaluate false 9 e).run (s.lookup? 1)
    1 < s.frames.size ∧ detachedEnd r.1 = detachedEnd f.1 ∧
      ∀ name, (r.2.lookup? 1 name).map Value.detached = (f.2 name).map Value.detached := by
  intro body s e r f
  have hi : 1 < s.frames.size := by decide
  exact ⟨hi, evaluate_dynamic_eq_flat 9 e hi⟩

end ScopedLisp

import Mathlib.Data.List.Induction
import ScopedLisp.Proofs.Rooms

namespace ScopedLisp

namespace Evaluator

inductive InTurn (ev : Evaluator) (i : FrameId) : List Value → Store → List Value → Store → Prop
    where
  | nil (s : Store) : InTurn ev i [] s [] s
  | cons {e v : Value} {es vs : List Value} {s t u : Store} (h : ev i e s = (.ok v, t))
      (hes : InTurn ev i es t vs u) : InTurn ev i (e :: es) s (v :: vs) u

section inTurn

variable {ev ev' : Evaluator} {i : FrameId} {es vs : List Value} {e : Value} {s t u : Store}
  {fault : Fault}

theorem each_ok : ev.each i es s = (.ok vs, t) ↔ InTurn ev i es s vs t := by
  induction es generalizing s vs with
  | nil =>
    constructor
    · rintro ⟨⟩
      exact .nil _
    · rintro ⟨⟩
      rfl
  | cons e es ih =>
    constructor
    · intro h
      obtain ⟨v, t', he, h⟩ := Effect.bind_eq_ok.mp h
      obtain ⟨vs', t'', hes, ⟨⟩⟩ := Effect.bind_eq_ok.mp h
      exact .cons he (ih.mp hes)
    · rintro (_ | ⟨he, hes⟩)
      rw [each, Effect.bind_ok he, Effect.bind_ok (ih.mpr hes)]
      rfl

theorem each_error : ev.each i es s = (.error fault, u) ↔
    ∃ before e after vs t, es = before ++ e :: after ∧ InTurn ev i before s vs t ∧
      ev i e t = (.error fault, u) := by
  induction es generalizing s with
  | nil =>
    constructor
    · rintro ⟨⟩
    · rintro ⟨before, e, after, vs, t, h, -⟩
      simp at h
  | cons e es ih =>
    constructor
    · intro h
      rcases Effect.bind_eq_error.mp h with he | ⟨v, t', he, h⟩
      · exact ⟨[], e, es, [], s, rfl, .nil s, he⟩
      · rcases Effect.bind_eq_error.mp h with hes | ⟨vs', t'', -, ⟨⟩⟩
        obtain ⟨before, e', after, vs, t, rfl, hb, he'⟩ := ih.mp hes
        exact ⟨e :: before, e', after, v :: vs, t, rfl, .cons he hb, he'⟩
    · rintro ⟨before, e', after, vs, t, h, hb, he⟩
      cases hb with
      | nil =>
        obtain ⟨rfl, rfl⟩ := List.cons.inj h
        rw [each, Effect.bind_error he]
      | cons hfirst hrest =>
        obtain ⟨rfl, rfl⟩ := List.cons.inj h
        have hes := ih.mpr ⟨_, e', after, _, t, rfl, hrest, he⟩
        rw [each, Effect.bind_ok hfirst, Effect.bind_error hes]

theorem inTurn_singleton : InTurn ev i [e] s vs t ↔ ∃ v, vs = [v] ∧ ev i e s = (.ok v, t) := by
  constructor
  · rintro (_ | ⟨h, ⟨⟩⟩)
    exact ⟨_, rfl, h⟩
  · rintro ⟨v, rfl, h⟩
    exact .cons h (.nil t)

theorem inTurn_concat : InTurn ev i (es ++ [e]) s vs u ↔
    ∃ vs' v t, vs = vs' ++ [v] ∧ InTurn ev i es s vs' t ∧ ev i e t = (.ok v, u) := by
  induction es generalizing s vs with
  | nil =>
    constructor
    · rintro (_ | ⟨h, ⟨⟩⟩)
      exact ⟨[], _, _, rfl, .nil _, h⟩
    · rintro ⟨vs', v, t, rfl, ⟨⟩, h⟩
      exact .cons h (.nil u)
  | cons e' es ih =>
    constructor
    · rintro (_ | ⟨h, hes⟩)
      obtain ⟨vs', v, t, rfl, hes', he⟩ := ih.mp hes
      exact ⟨_ :: vs', v, t, rfl, .cons h hes', he⟩
    · rintro ⟨vs', v, t, rfl, (_ | ⟨h, hes⟩), he⟩
      exact .cons h (ih.mpr ⟨_, v, t, rfl, hes, he⟩)

theorem InTurn.extends (h : InTurn ev i es s vs t) (hev : ev.Extends ev') {l : Bool} {s' : Store}
    (hs : s.Matches l s') : ∃ t', InTurn ev' i es s' vs t' ∧ t.Matches l t' := by
  induction h generalizing s' with
  | nil => exact ⟨s', .nil s', hs⟩
  | @cons e v es vs s t u h _ ih =>
    have hfirst := hev i e l s s' hs
    rw [h] at hfirst
    obtain ⟨t', ht', hmatch⟩ := hfirst.of_ok
    obtain ⟨u', hu', hend⟩ := ih hmatch
    exact ⟨u', .cons ht' hu', hend⟩

end inTurn

section numbers

variable (op : Operator)

theorem numbers_map (ns : List Number) : numbers op (ns.map .number) = .ok ns := by
  induction ns with
  | nil => rfl
  | cons n ns ih =>
    rw [List.map_cons, numbers, ih]
    rfl

theorem numbers_stops (ns : List Number) {v : Value} (hv : ∀ n, v ≠ .number n)
    (after : List Value) :
    numbers op (ns.map .number ++ v :: after) = .error (.operandNotNumber op v) := by
  induction ns with
  | nil =>
    cases v with
    | number n => exact absurd rfl (hv n)
    | _ => rfl
  | cons n ns ih =>
    rw [List.map_cons, List.cons_append, numbers, ih]
    rfl

theorem exists_numbers (vs : List Value) : ∃ ns : List Number, vs = ns.map .number ∨
    ∃ v after, vs = ns.map .number ++ v :: after ∧ ∀ n, v ≠ .number n := by
  induction vs with
  | nil => exact ⟨[], .inl rfl⟩
  | cons v vs ih =>
    by_cases hv : ∃ n, v = .number n
    · obtain ⟨n, rfl⟩ := hv
      obtain ⟨ns, rfl | ⟨w, after, rfl, hw⟩⟩ := ih
      · exact ⟨n :: ns, .inl rfl⟩
      · exact ⟨n :: ns, .inr ⟨w, after, rfl, hw⟩⟩
    · exact ⟨[], .inr ⟨v, vs, rfl, not_exists.mp hv⟩⟩

end numbers

section operator

variable {ev : Evaluator} {i : FrameId} {op : Operator} {es : List Value} {s t : Store}

theorem operator_eq (h : 2 ≤ es.length) :
    ev.operator i op es = ev.each i es >>= fun vs =>
      Effect.ofExcept (numbers op vs) >>= fun ns => pure (.number (op.fold ns)) := by
  rcases es with _ | ⟨a, _ | ⟨b, rest⟩⟩
  · cases h
  · exact absurd h (by simp)
  · rfl

theorem operator_ok (h : 2 ≤ es.length) {v : Value} : ev.operator i op es s = (.ok v, t) ↔
    ∃ ns : List Number, InTurn ev i es s (ns.map .number) t ∧ v = .number (op.fold ns) := by
  rw [operator_eq h]
  constructor
  · intro hrun
    obtain ⟨vs, u, hes, hrun⟩ := Effect.bind_eq_ok.mp hrun
    obtain ⟨ns, rfl | ⟨w, after, rfl, hw⟩⟩ := exists_numbers vs
    · rw [numbers_map, Effect.ofExcept_ok_bind] at hrun
      cases hrun
      exact ⟨ns, each_ok.mp hes, rfl⟩
    · rw [numbers_stops op ns hw, Effect.ofExcept_error_bind] at hrun
      cases hrun
  · rintro ⟨ns, hes, rfl⟩
    rw [Effect.bind_ok (each_ok.mpr hes), numbers_map, Effect.ofExcept_ok_bind]
    rfl

theorem operator_error (h : 2 ≤ es.length) {fault : Fault} :
    ev.operator i op es s = (.error fault, t) ↔
      (∃ before e after vs u, es = before ++ e :: after ∧ InTurn ev i before s vs u ∧
        ev i e u = (.error fault, t)) ∨
      ∃ (ns : List Number) (v : Value) (after : List Value),
        InTurn ev i es s (ns.map .number ++ v :: after) t ∧ (∀ n, v ≠ .number n) ∧
          fault = .operandNotNumber op v := by
  rw [operator_eq h, Effect.bind_eq_error, each_error]
  apply or_congr_right
  constructor
  · rintro ⟨vs, u, hes, hrun⟩
    obtain ⟨ns, rfl | ⟨w, after, rfl, hw⟩⟩ := exists_numbers vs
    · rw [numbers_map, Effect.ofExcept_ok_bind] at hrun
      cases hrun
    · rw [numbers_stops op ns hw, Effect.ofExcept_error_bind] at hrun
      cases hrun
      exact ⟨ns, w, after, each_ok.mp hes, hw, rfl⟩
  · rintro ⟨ns, v, after, hes, hv, rfl⟩
    refine ⟨_, t, each_ok.mpr hes, ?_⟩
    rw [numbers_stops op ns hv, Effect.ofExcept_error_bind]

end operator

end Evaluator

open Evaluator

namespace Operator

def applied (op : Operator) (es : List Value) : Value := .list (.symbol op.name :: es)

def nested (op : Operator) (first : Value) (more : List Value) : Value :=
  more.foldl (fun inner e => op.applied [inner, e]) first

theorem nested_concat (op : Operator) (first : Value) (more : List Value) (e : Value) :
    op.nested first (more ++ [e]) = op.applied [op.nested first more, e] := by
  rw [nested, List.foldl_append]
  rfl

theorem fold_concat (op : Operator) {ns : List Number} (hne : ns ≠ []) (n : Number) :
    op.fold (ns ++ [n]) = op.fold [op.fold ns, n] := by
  obtain ⟨m, ms, rfl⟩ := List.exists_cons_of_ne_nil hne
  simp [fold]

end Operator

section nested

variable {rule : Except UnknownScoping Scoping} {i : FrameId} {op : Operator} {a b v : Value}
  {s t : Store} {room : Nat}

theorem evaluate_applied (rule : Except UnknownScoping Scoping) (room : Nat) (i : FrameId)
    (op : Operator) (es : List Value) :
    evaluate rule (room + 1) i (op.applied es) = (evaluate rule (room - 2)).operator i op es := by
  have hform : Form.ofName? op.name = some (.operator op) := by
    rw [Form.ofName?, Operator.ofName?_name]
  rw [Operator.applied, evaluate_form rule room i hform, parts_eq]
  rfl

theorem applied_ok {es : List Value} (hes : 2 ≤ es.length) :
    evaluate rule room i (op.applied es) s = (.ok v, t) ↔ ∃ smaller, room = smaller + 1 ∧
      ∃ ns : List Number, InTurn (evaluate rule (smaller - 2)) i es s (ns.map .number) t ∧
        v = .number (op.fold ns) := by
  constructor
  · intro h
    cases room with
    | zero => cases h
    | succ room =>
      rw [evaluate_applied] at h
      exact ⟨room, rfl, (operator_ok hes).mp h⟩
  · rintro ⟨smaller, rfl, hrun⟩
    rw [evaluate_applied]
    exact (operator_ok hes).mpr hrun

theorem applied_concat_ok {es : List Value} (hes : es ≠ []) {e : Value} :
    evaluate rule room i (op.applied (es ++ [e])) s = (.ok v, t) ↔
      ∃ (smaller : Nat) (ns : List Number) (n : Number) (u : Store), room = smaller + 1 ∧
        InTurn (evaluate rule (smaller - 2)) i es s (ns.map .number) u ∧
        evaluate rule (smaller - 2) i e u = (.ok (.number n), t) ∧
        v = .number (op.fold (ns ++ [n])) := by
  have hlen : 2 ≤ (es ++ [e]).length := by
    have hpos := List.length_pos_iff.mpr hes
    rw [List.length_append, List.length_singleton]
    omega
  rw [applied_ok hlen]
  constructor
  · rintro ⟨smaller, rfl, ns, hrun, rfl⟩
    obtain ⟨vs, w, u, hns, hbefore, he⟩ := inTurn_concat.mp hrun
    obtain ⟨ns', last, rfl, rfl, hlast⟩ := List.map_eq_append_iff.mp hns
    obtain ⟨n, rfl, rfl⟩ := List.map_eq_singleton_iff.mp hlast
    exact ⟨smaller, ns', n, u, rfl, hbefore, he, rfl⟩
  · rintro ⟨smaller, ns, n, u, rfl, hbefore, he, rfl⟩
    refine ⟨smaller, rfl, ns ++ [n], ?_, rfl⟩
    rw [List.map_append]
    exact inTurn_concat.mpr ⟨_, _, u, rfl, hbefore, he⟩

theorem applied_pair_ok {e : Value} :
    evaluate rule room i (op.applied [a, e]) s = (.ok v, t) ↔ ∃ smaller m n u, room = smaller + 1 ∧
      evaluate rule (smaller - 2) i a s = (.ok (.number m), u) ∧
      evaluate rule (smaller - 2) i e u = (.ok (.number n), t) ∧ v = .number (op.fold [m, n]) := by
  rw [show [a, e] = [a] ++ [e] from rfl, applied_concat_ok (by simp)]
  constructor
  · rintro ⟨smaller, ns, n, u, rfl, ha, he, rfl⟩
    obtain ⟨w, hns, ha⟩ := inTurn_singleton.mp ha
    obtain ⟨m, rfl, rfl⟩ := List.map_eq_singleton_iff.mp hns
    exact ⟨smaller, m, n, u, rfl, ha, he, rfl⟩
  · rintro ⟨smaller, m, n, u, rfl, ha, he, rfl⟩
    exact ⟨smaller, [m], n, u, rfl, inTurn_singleton.mpr ⟨_, rfl, ha⟩, he, rfl⟩

theorem nested_of_applied {rest : List Value}
    (h : evaluate rule room i (op.applied (a :: b :: rest)) s = (.ok v, t)) :
    ∃ u, evaluate rule (room + 3 * rest.length) i (op.nested a (b :: rest)) s = (.ok v, u) ∧
      t.Matches t.events.isSome u := by
  induction rest using List.reverseRecOn generalizing room v t with
  | nil => exact ⟨t, h, .refl t⟩
  | append_singleton rest e ih =>
    have hoperands : a :: b :: rest ≠ [] := List.cons_ne_nil a _
    obtain ⟨smaller, ns, n, u, rfl, hbefore, he, rfl⟩ := (applied_concat_ok hoperands).mp h
    have hne : ns ≠ [] := by
      rintro rfl
      cases hbefore
    have hflat : evaluate rule (smaller + 1) i (op.applied (a :: b :: rest)) s =
        (.ok (.number (op.fold ns)), u) :=
      (applied_ok (by simp)).mpr ⟨smaller, rfl, ns, hbefore, rfl⟩
    obtain ⟨u', hinner, hu⟩ := ih hflat
    have hle : smaller - 2 ≤ smaller + 1 + 3 * rest.length := by omega
    have hlast := evaluate_extends rule hle i e _ u u' hu
    rw [he] at hlast
    obtain ⟨t', hlast, ht⟩ := hlast.of_ok
    refine ⟨t', ?_, ht.own⟩
    rw [← List.cons_append, Operator.nested_concat, applied_pair_ok, Operator.fold_concat op hne]
    have hroom : smaller + 3 * (rest.length + 1) - 2 = smaller + 1 + 3 * rest.length := by omega
    refine ⟨smaller + 3 * (rest.length + 1), op.fold ns, n, u', ?_, ?_, ?_, rfl⟩
    · rw [List.length_append, List.length_singleton]
      omega
    · rw [hroom]
      exact hinner
    · rw [hroom]
      exact hlast

theorem applied_of_nested {rest : List Value}
    (h : evaluate rule room i (op.nested a (b :: rest)) s = (.ok v, t)) :
    ∃ u, evaluate rule room i (op.applied (a :: b :: rest)) s = (.ok v, u) ∧
      t.Matches t.events.isSome u := by
  induction rest using List.reverseRecOn generalizing room v t with
  | nil => exact ⟨t, h, .refl t⟩
  | append_singleton rest e ih =>
    rw [← List.cons_append, Operator.nested_concat, applied_pair_ok] at h
    obtain ⟨smaller, m, n, u, rfl, hinner, he, rfl⟩ := h
    obtain ⟨u', hflat, hu⟩ := ih hinner
    obtain ⟨inside, hroom, ns, hrun, hm⟩ := (applied_ok (by simp)).mp hflat
    obtain rfl : m = op.fold ns := Value.number.inj hm
    -- the operands have more room in the flat form, where they are not nested
    have hle : inside - 2 ≤ smaller - 2 := by omega
    obtain ⟨u'', hrun', hu'⟩ := hrun.extends (evaluate_extends rule hle) (.refl s)
    have hlast := evaluate_extends rule (Nat.le_refl (smaller - 2)) i e _ u u'' (hu.trans hu')
    rw [he] at hlast
    obtain ⟨t', hlast, ht⟩ := hlast.of_ok
    refine ⟨t', ?_, ht.own⟩
    have hne : ns ≠ [] := by
      rintro rfl
      cases hrun'
    rw [← List.cons_append, ← List.cons_append, applied_concat_ok (by simp)]
    exact ⟨smaller, ns, n, u'', rfl, hrun', hlast, congrArg _ (Operator.fold_concat op hne n).symm⟩

end nested

def Returns (r : Except Fault Value × Store) (v : Value) (frames : Array Frame) : Prop :=
  r.1 = .ok v ∧ r.2.frames = frames

theorem returns_iff {r : Except Fault Value × Store} {v : Value} {frames : Array Frame} :
    Returns r v frames ↔ ∃ t, r = (.ok v, t) ∧ t.frames = frames := by
  constructor
  · rintro ⟨hv, hframes⟩
    exact ⟨r.2, Prod.ext hv rfl, hframes⟩
  · rintro ⟨t, rfl, hframes⟩
    exact ⟨rfl, hframes⟩

/-- In a room that is enough for the nested form, an operator over two or more operands gives a
number if and only if the nested form does, then the same one, and the same bindings are left. What
it gives in any room, the nested form gives in a larger one. It fails as its first operand to fail
does, else, when all operands have been evaluated, at the first one that gave no number. Over fewer
than two it evaluates none. -/
theorem operator_is_left_nested (rule : Except UnknownScoping Scoping) (op : Operator) (room : Nat)
    (i : FrameId) (s : Store) :
    (∀ a b rest,
      let flat := op.applied (a :: b :: rest)
      let nested := op.nested a (b :: rest)
      ((evaluate rule room i nested s).1 ≠ .error .depthExceeded → ∀ v frames,
        Returns (evaluate rule room i flat s) v frames ↔
          Returns (evaluate rule room i nested s) v frames) ∧
      ∀ v frames, Returns (evaluate rule room i flat s) v frames →
        (∃ n, v = .number n) ∧
          Returns (evaluate rule (room + 3 * rest.length) i nested s) v frames) ∧
    (∀ es fault t, 2 ≤ es.length →
      (evaluate rule (room + 1) i (op.applied es) s = (.error fault, t) ↔
        (∃ before e after vs u, es = before ++ e :: after ∧
          InTurn (evaluate rule (room - 2)) i before s vs u ∧
          evaluate rule (room - 2) i e u = (.error fault, t)) ∨
        ∃ (ns : List Number) (v : Value) (after : List Value),
          InTurn (evaluate rule (room - 2)) i es s (ns.map .number ++ v :: after) t ∧
            (∀ n, v ≠ .number n) ∧ fault = .operandNotNumber op v)) ∧
    ∀ es, es.length < 2 →
      evaluate rule (room + 1) i (op.applied es) s =
        (.error (.tooFewOperands op es.length), s) := by
  refine ⟨?_, ?_, ?_⟩
  · intro a b rest flat nested
    have hdeeper : ∀ v frames, Returns (evaluate rule room i flat s) v frames →
        Returns (evaluate rule (room + 3 * rest.length) i nested s) v frames := by
      intro v frames h
      obtain ⟨t, ht, rfl⟩ := returns_iff.mp h
      obtain ⟨u, hu, hmatch⟩ := nested_of_applied ht
      exact returns_iff.mpr ⟨u, hu, hmatch.frames.symm⟩
    refine ⟨?_, ?_⟩
    · intro hroom v frames
      constructor
      · intro h
        have hle : room ≤ room + 3 * rest.length := Nat.le_add_right _ _
        obtain ⟨hv, hframes⟩ := (evaluate_extends rule hle i nested _ s s (.refl s)).of_ne hroom
        obtain ⟨hv', hframes'⟩ := hdeeper v frames h
        exact ⟨hv.symm.trans hv', hframes.symm.trans hframes'⟩
      · intro h
        obtain ⟨t, ht, rfl⟩ := returns_iff.mp h
        obtain ⟨u, hu, hmatch⟩ := applied_of_nested ht
        exact returns_iff.mpr ⟨u, hu, hmatch.frames.symm⟩
    · intro v frames h
      refine ⟨?_, hdeeper v frames h⟩
      obtain ⟨t, ht, -⟩ := returns_iff.mp h
      obtain ⟨-, -, ns, -, hns⟩ := (applied_ok (by simp)).mp ht
      exact ⟨_, hns⟩
  · intro es fault t hes
    rw [evaluate_applied]
    exact operator_error hes
  · intro es hes
    rw [evaluate_applied]
    match es, hes with
    | [], _ => rfl
    | [_], _ => rfl
    | _ :: _ :: rest, hes => exact absurd hes (by simp)

theorem operator_is_left_nested_comparison :
    let s : Store := ⟨#[⟨none, []⟩], none⟩
    let a : Value := .number ⟨0x4008000000000000⟩
    let b : Value := .number ⟨0x4000000000000000⟩
    let c : Value := .number ⟨0x4014000000000000⟩
    let nested := evaluate (.ok .dynamic) 9 0 (Operator.lt.nested a [b, c]) s
    nested.1 ≠ .error .depthExceeded ∧ Returns nested (.number .one) s.frames ∧
      Returns (evaluate (.ok .dynamic) 9 0 (Operator.lt.applied [a, b, c]) s) (.number .one)
        s.frames := by
  intro s a b c nested
  have hnested : Returns nested (.number .one) s.frames := by
    constructor
    · with_unfolding_all rfl
    · with_unfolding_all rfl
  have hne : nested.1 ≠ .error .depthExceeded := by
    rw [hnested.1]
    rintro ⟨⟩
  have hsame := ((operator_is_left_nested (.ok .dynamic) .lt 9 0 s).1 a b [c]).1 hne
  exact ⟨hne, hnested, (hsame _ _).mpr hnested⟩

end ScopedLisp

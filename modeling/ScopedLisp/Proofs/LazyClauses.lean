import Mathlib.Data.List.Forall2
import ScopedLisp.Evaluation

namespace ScopedLisp

namespace Value

def cond (es : List Value) : Value := .list (.symbol "cond" :: es)

def Selects (v : Value) : Prop := ∃ n, v = .number n ∧ ∀ sign, n ≠ .ofRank sign 0

theorem holds_iff {v : Value} : v.holds = true ↔ v.Selects := by
  cases v with
  | number n =>
    rw [holds, Bool.not_eq_true', Number.isZero, decide_eq_false_iff_not]
    constructor
    · intro hrank
      refine ⟨n, rfl, ?_⟩
      rintro sign rfl
      exact hrank (Number.rank_ofRank sign (by decide))
    · rintro ⟨n', h, hzero⟩ hrank
      obtain rfl := Value.number.inj h
      apply hzero n.negative
      rw [← hrank, Number.ofRank_rank]
  | _ =>
    constructor
    · rintro ⟨⟩
    · rintro ⟨n, ⟨⟩, -⟩

theorem selects_nan {n : Number} (h : n.isNaN = true) : (number n).Selects := by
  have hrank : Number.topRank < n.rank := of_decide_eq_true h
  refine ⟨n, rfl, ?_⟩
  rintro sign rfl
  rw [Number.rank_ofRank sign (by decide)] at hrank
  exact absurd hrank (Nat.not_lt_zero _)

def SameTest (clause clause' : Value) : Prop :=
  ∃ test result result', clause = .list [test, result] ∧ clause' = .list [test, result']

end Value

namespace Evaluator

inductive Passed (ev : Evaluator) (i : FrameId) : List Value → Store → Store → Prop where
  | nil (s : Store) : Passed ev i [] s s
  | cons {test result v : Value} {clauses : List Value} {s t u : Store}
      (htest : ev i test s = (.ok v, t)) (hv : ¬v.Selects) (hrest : Passed ev i clauses t u) :
      Passed ev i (.list [test, result] :: clauses) s u

inductive Settles (ev : Evaluator) (i : FrameId) (s : Store) :
    Value → Except Fault Value × Store → Prop where
  | malformed {clause : Value} (h : ∀ test result, clause ≠ .list [test, result]) :
      Settles ev i s clause (.error (.clauseNotPair clause), s)
  | raised {test result : Value} {fault : Fault} {t : Store}
      (htest : ev i test s = (.error fault, t)) :
      Settles ev i s (.list [test, result]) (.error fault, t)
  | selected {test result v : Value} {t : Store} (htest : ev i test s = (.ok v, t))
      (hv : v.Selects) : Settles ev i s (.list [test, result]) (ev i result t)

section choice

variable {ev : Evaluator} {i : FrameId} {test result clause v : Value} {rest clauses : List Value}
  {s t : Store} {r : Except Fault Value × Store}

theorem choice_pair (hrest : rest ≠ []) : ev.choice i (.list [test, result] :: rest) =
    ev i test >>= fun v => if v.holds then ev i result else ev.choice i rest := by
  rw [choice]
  exact hrest

theorem choice_passed_one (hrest : rest ≠ []) (htest : ev i test s = (.ok v, t))
    (hv : ¬v.Selects) : ev.choice i (.list [test, result] :: rest) s = ev.choice i rest t := by
  rw [choice_pair hrest, Effect.bind_ok htest, if_neg (mt Value.holds_iff.mp hv)]

theorem choice_passed (hrest : rest ≠ []) (h : Passed ev i clauses s t) :
    ev.choice i (clauses ++ rest) s = ev.choice i rest t := by
  induction h with
  | nil => rfl
  | cons htest hv _ ih =>
    rw [List.cons_append, choice_passed_one (List.append_ne_nil_of_right_ne_nil _ hrest) htest hv]
    exact ih

theorem choice_settled (hrest : rest ≠ []) (h : Settles ev i s clause r) :
    ev.choice i (clause :: rest) s = r := by
  cases h with
  | malformed h =>
    rw [choice]
    · rfl
    · exact hrest
    · exact h
  | raised htest => rw [choice_pair hrest, Effect.bind_error htest]
  | selected htest hv =>
    rw [choice_pair hrest, Effect.bind_ok htest, if_pos (Value.holds_iff.mpr hv)]

theorem passes_or_settles (ev : Evaluator) (i : FrameId) (clause : Value) (s : Store) :
    (∃ test result v t, clause = .list [test, result] ∧ ev i test s = (.ok v, t) ∧ ¬v.Selects) ∨
      ∃ r, Settles ev i s clause r := by
  by_cases hpair : ∃ test result, clause = .list [test, result]
  · obtain ⟨test, result, rfl⟩ := hpair
    rcases htest : ev i test s with ⟨fault | v, t⟩
    · exact .inr ⟨_, .raised htest⟩
    · by_cases hv : v.Selects
      · exact .inr ⟨_, .selected htest hv⟩
      · exact .inl ⟨test, result, v, t, rfl, htest, hv⟩
  · refine .inr ⟨_, .malformed ?_⟩
    rintro test result rfl
    exact hpair ⟨test, result, rfl⟩

theorem all_pass_or_one_settles (ev : Evaluator) (i : FrameId) (clauses : List Value) (s : Store) :
    (∃ t, Passed ev i clauses s t) ∨ ∃ before clause after t r,
      clauses = before ++ clause :: after ∧ Passed ev i before s t ∧ Settles ev i t clause r := by
  induction clauses generalizing s with
  | nil => exact .inl ⟨s, .nil s⟩
  | cons clause clauses ih =>
    rcases passes_or_settles ev i clause s with ⟨test, result, v, t, rfl, htest, hv⟩ | ⟨r, hr⟩
    · rcases ih t with ⟨u, hu⟩ | ⟨before, c, after, u, r, rfl, hbefore, hr⟩
      · exact .inl ⟨u, .cons htest hv hu⟩
      · exact .inr ⟨_, c, after, u, r, rfl, .cons htest hv hbefore, hr⟩
    · exact .inr ⟨[], clause, clauses, s, r, rfl, .nil s, hr⟩

theorem choice_eq_iff {default : Value} : ev.choice i (clauses ++ [default]) s = r ↔
    (∃ t, Passed ev i clauses s t ∧ ev i default t = r) ∨
    ∃ before clause after t, clauses = before ++ clause :: after ∧ Passed ev i before s t ∧
      Settles ev i t clause r := by
  have hsettles : ∀ before clause after t r, clauses = before ++ clause :: after →
      Passed ev i before s t → Settles ev i t clause r →
      ev.choice i (clauses ++ [default]) s = r := by
    rintro before clause after t r rfl hbefore hr
    rw [List.append_assoc, choice_passed (by simp) hbefore]
    exact choice_settled (by simp) hr
  constructor
  · intro h
    rcases all_pass_or_one_settles ev i clauses s with
      ⟨t, ht⟩ | ⟨before, c, after, t, r', hc, hb, hr⟩
    · rw [choice_passed (by simp) ht] at h
      exact .inl ⟨t, ht, h⟩
    · obtain rfl : r' = r := (hsettles before c after t r' hc hb hr).symm.trans h
      exact .inr ⟨before, c, after, t, hc, hb, hr⟩
  · rintro (⟨t, ht, h⟩ | ⟨before, c, after, t, hc, hb, hr⟩)
    · rw [choice_passed (by simp) ht]
      exact h
    · exact hsettles before c after t r hc hb hr

theorem Passed.sameTests {clauses' : List Value} (h : Passed ev i clauses s t)
    (hsame : List.Forall₂ Value.SameTest clauses clauses') : Passed ev i clauses' s t := by
  induction h generalizing clauses' with
  | nil =>
    cases hsame
    exact .nil _
  | cons htest hv _ ih =>
    obtain ⟨clause', rest', ⟨_, _, result', hc, rfl⟩, hrest, rfl⟩ :=
      List.forall₂_cons_left_iff.mp hsame
    cases hc
    exact .cons htest hv (ih hrest)

end choice

end Evaluator

open Evaluator

theorem evaluate_cond (rule : Except UnknownScoping Scoping) (room : Nat) (i : FrameId)
    (es : List Value) :
    evaluate rule (room + 1) i (.cond es) = (evaluate rule (room - 1)).choice i es := by
  have hform : Form.ofName? "cond" = some .choice := by decide +kernel
  rw [Value.cond, evaluate_form rule room i hform, parts_eq]
  rfl

/-- A `cond` evaluates the tests of its clauses in order. The first element before the default that
is not a pair, or whose test fails or selects, settles its end; if there is none, the default does.
What stands behind a selecting clause, and the results of the clauses before it, make no difference,
and a clause that selects nothing is as good as its test evaluated in advance. -/
theorem cond_is_lazy_chain (rule : Except UnknownScoping Scoping) (room : Nat) (i : FrameId)
    (s : Store) :
    let ev := evaluate rule (room - 1)
    let cond := fun es => evaluate rule (room + 1) i (.cond es)
    (∀ clauses default r, cond (clauses ++ [default]) s = r ↔
      (∃ t, Passed ev i clauses s t ∧ ev i default t = r) ∨
      ∃ before clause after t, clauses = before ++ clause :: after ∧ Passed ev i before s t ∧
        Settles ev i t clause r) ∧
    (∀ before before' test result after after' v t u, Passed ev i before s t →
      ev i test t = (.ok v, u) → v.Selects → List.Forall₂ Value.SameTest before before' →
      after ≠ [] → after' ≠ [] →
      cond (before ++ .list [test, result] :: after) s =
        cond (before' ++ .list [test, result] :: after') s) ∧
    (∀ test result rest v t, rest ≠ [] → ev i test s = (.ok v, t) → ¬v.Selects →
      cond (.list [test, result] :: rest) s = cond rest t) ∧
    ∀ n : Number, n.isNaN = true → (Value.number n).Selects := by
  intro ev cond
  have hcond : ∀ es, cond es = ev.choice i es := evaluate_cond rule room i
  simp only [hcond]
  refine ⟨?_, ?_, ?_, ?_⟩
  · intro clauses default r
    exact choice_eq_iff
  · intro before before' test result after after' v t u hbefore htest hv hsame hafter hafter'
    have hsettles : Settles ev i t (.list [test, result]) (ev i result u) := .selected htest hv
    rw [choice_passed (by simp) hbefore, choice_passed (by simp) (hbefore.sameTests hsame),
      choice_settled hafter hsettles, choice_settled hafter' hsettles]
  · intro test result rest v t hrest htest hv
    exact choice_passed_one hrest htest hv
  · intro n hn
    exact Value.selects_nan hn

theorem cond_is_lazy_chain_binding :
    let s : Store := ⟨#[⟨none, []⟩], none⟩
    let x : Value := .symbol "x"
    let binding : Value := .list [.symbol "let", x, .number .one]
    let selected : Value := .list [x, x]
    let cond := fun es => evaluate (.ok .dynamic) 9 0 (.cond es) s
    (cond [.list [binding, x], selected, .nil]).1 = .ok (.number .one) ∧
      cond [.list [binding, x], selected, .nil] =
        cond [.list [binding, .list [.symbol "y"]], selected, .nil, .list [.symbol "y"]] := by
  intro s x binding selected cond
  let t : Store := ⟨#[⟨none, [("x", .number .one)]⟩], none⟩
  have hfirst : evaluate (.ok .dynamic) 7 0 binding s = (.ok .nil, t) := by with_unfolding_all rfl
  have hsecond : evaluate (.ok .dynamic) 7 0 x t = (.ok (.number .one), t) := by
    with_unfolding_all rfl
  have hnil : ¬Value.nil.Selects := by
    rintro ⟨n, ⟨⟩, -⟩
  have hone : (Value.number .one).Selects := Value.holds_iff.mp (by decide)
  have hsame : ∀ result result',
      List.Forall₂ Value.SameTest [.list [binding, result]] [.list [binding, result']] := by
    intro result result'
    exact .cons ⟨binding, result, result', rfl, rfl⟩ .nil
  obtain ⟨-, hlazy, -, -⟩ := cond_is_lazy_chain (.ok .dynamic) 8 0 s
  constructor
  · with_unfolding_all rfl
  · exact hlazy _ _ x x [.nil] _ _ t t (.cons hfirst hnil (.nil t)) hsecond hone (hsame _ _)
      (by simp) (by simp)

end ScopedLisp

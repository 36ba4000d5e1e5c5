import ScopedLisp.Interpreter
import ScopedLisp.Proofs.Confinement
import ScopedLisp.Proofs.ReadingBack

namespace ScopedLisp

open Text Token

def Token.Typable : Token → Prop
  | .number n => n.isFinite = true
  | t => ∃ source, t ∈ ofSource source

theorem Number.lexed {n : Number} (h : n.isFinite = true) : Lexed (.number n) := by
  have hn := Lexed.number n.proper_numeral
  rwa [Number.value_numeral h] at hn

theorem Token.Typable.lexed {t : Token} (h : t.Typable) : Lexed t := by
  cases t with
  | number n => exact Number.lexed h
  | symbol | opening | closing | other =>
    obtain ⟨source, ht⟩ := h
    exact lexed_of_mem_lex ht

namespace Value

abbrev Data (v : Value) : Prop := v.Expression fun t => ∃ n, t = .number n ∧ n.isFinite = true

/-- The values that can be typed as they are shown. -/
inductive Typable : Value → Prop where
  | data {v : Value} (h : v.Data) : Typable v
  | function {params body : List Value} (home : Option FrameId)
      (hp : ∀ p ∈ params, ∃ name, p = .symbol name ∧ Token.Typable (.symbol name))
      (hb : ∀ e ∈ body, e.Expression Token.Typable) : Typable (.closure params body home)

def typed : Value → List Value
  | .closure params body _ => [.symbol "fn", .list params, .list body]
  | v => [v]

theorem nesting_of_fault? {room : Nat} {v : Value} (h : v.fault? .display room = none) :
    3 * v.nesting ≤ room := by
  induction v using Value.induct generalizing room with
  | list items ih =>
    obtain ⟨hroom, hitems⟩ := fault?_list_eq_none_iff.mp h
    simp only [Style.listRoom, Style.ofItems] at hroom hitems
    have hle : nestingEach items ≤ (room - 3) / 3 := by
      rw [nestingEach_le_iff]
      intro v hv
      have hv := ih v hv (hitems v hv)
      omega
    rw [nesting]
    omega
  | number | symbol | nil | closure | integer | text => exact Nat.zero_le room

theorem Data.typed_eq {v : Value} (h : v.Data) : v.typed = [v] := by
  cases h <;> rfl

theorem Typable.expression {v : Value} (h : v.Typable) :
    ∀ e ∈ v.typed, e.Expression Token.Typable := by
  have hdata : ∀ t, (∃ n, t = Token.number n ∧ n.isFinite = true) → t.Typable := by
    rintro t ⟨n, rfl, hn⟩
    exact hn
  have hname : Token.Typable (.symbol "fn") := ⟨"fn", by decide +kernel⟩
  cases h with
  | data h =>
    rw [h.typed_eq, List.forall_mem_singleton]
    exact h.mono hdata
  | @function params body home hp hb =>
    have hparams : ∀ p ∈ params, p.Expression Token.Typable := by
      intro p hmem
      obtain ⟨name, rfl, hsymbol⟩ := hp p hmem
      exact .symbol hsymbol
    rw [typed, List.forall_mem_cons, List.forall_mem_cons, List.forall_mem_singleton]
    exact ⟨.symbol hname, .list hparams, .list hb⟩

theorem Expression.lex_typable {e : Value} (h : e.Expression Token.Typable) {rest : List Char}
    (hr : Ends rest) : lex (e.display.toList ++ rest) = e.tokens ++ lex rest := by
  have hfinite : ∀ n, Token.Typable (.number n) → n.isInfinite = false := by
    intro n hn
    simp only [Token.Typable, Number.isFinite, decide_eq_true_eq] at hn
    rw [Number.isInfinite, decide_eq_false_iff_not]
    exact Nat.ne_of_lt hn
  have hlex := (h.mono fun _ => Token.Typable.lexed).lex_display rest hr
  rwa [h.reread_eq hfinite] at hlex

theorem display_function {params : List Value}
    (hp : ∀ p ∈ params, ∃ name, p = .symbol name ∧ Token.Typable (.symbol name))
    (body : List Value) (home : Option FrameId) :
    (Value.closure params body home).display.toList =
      ['f', 'n'] ++ ((Value.list params).display.toList ++ ' ' :: (Value.list body).display.toList) := by
  have hparams : plainEach params = displayEach params := by
    rw [plainEach_eq_map, displayEach_eq_map]
    apply List.map_congr_left
    intro p hmem
    obtain ⟨name, rfl, -⟩ := hp p hmem
    rfl
  simp [display, hparams]

theorem ends_list (items : List Value) (cs : List Char) :
    Ends ((Value.list items).display.toList ++ cs) := by
  have hparen : isSymbolChar '(' = false := by decide +kernel
  simpa [display] using ends_cons hparen _

theorem Typable.ofSource_display {v : Value} (h : v.Typable) :
    ofSource v.display = tokensEach v.typed := by
  have hexpression := h.expression
  cases h with
  | data h =>
    rw [h.typed_eq, List.forall_mem_singleton] at hexpression
    have hlex := hexpression.lex_typable ends_nil
    rw [List.append_nil, lex_nil] at hlex
    rw [ofSource, hlex, h.typed_eq]
    rfl
  | @function params body home hp hb =>
    rw [typed, List.forall_mem_cons, List.forall_mem_cons, List.forall_mem_singleton] at hexpression
    obtain ⟨-, hparams, hbody⟩ := hexpression
    have hname : IsName ['f', 'n'] :=
      ⟨by decide, List.all_eq_true.mp (by decide +kernel), by decide +kernel⟩
    have hspace : isSpace ' ' = true := by decide +kernel
    have hlast := hbody.lex_typable ends_nil
    rw [List.append_nil, lex_nil] at hlast
    rw [ofSource, display_function hp, hname.lex_append (ends_list params _),
      hparams.lex_typable (ends_of_space hspace _), lex_space hspace, hlast]
    rfl

theorem Typable.fault?_typed {v : Value} (h : v.Typable)
    (hf : v.fault? .display writingRoom = none) :
    ∃ room ≤ writingRoom, ∀ e ∈ v.typed, e.fault? .display room = none := by
  cases h with
  | data h =>
    refine ⟨writingRoom, Nat.le_refl _, ?_⟩
    rw [h.typed_eq, List.forall_mem_singleton]
    exact hf
  | @function params body home hp hb =>
    have hbody : faultEach? .display (writingRoom - 6) body = none := by
      have hparts : (lacking writingRoom 5 <|> faultEach? .plain (writingRoom - 5) params <|>
        lacking writingRoom 6 <|> faultEach? .display (writingRoom - 6) body) = none := hf
      simp only [Option.orElse_eq_orElse, Option.orElse_eq_or, Option.or_eq_none_iff] at hparts
      exact hparts.2.2.2
    -- a list takes half the room around it that the body of a function takes
    refine ⟨writingRoom - 3, Nat.sub_le _ _, ?_⟩
    rw [typed, List.forall_mem_cons, List.forall_mem_cons, List.forall_mem_singleton]
    refine ⟨rfl, fault?_list_eq_none_iff.mpr ⟨by decide, ?_⟩, fault?_list_eq_none_iff.mpr
      ⟨by decide, faultEach?_eq_none_iff.mp hbody⟩⟩
    intro p hmem
    obtain ⟨name, rfl, -⟩ := hp p hmem
    rfl

theorem nesting_program_le (es : List Value) :
    (Reader.program es).nesting ≤ nestingEach es + 1 := by
  fun_cases Reader.program es with
  | case1 e => simp [nestingEach]
  | case2 => exact Nat.le_refl _

theorem Typable.fault?_program {v : Value} (h : v.Typable)
    (hf : v.fault? .display writingRoom = none) :
    (Reader.program v.typed).fault? .detailed writingRoom = none := by
  obtain ⟨room, hroom, htyped⟩ := h.fault?_typed hf
  have heach : nestingEach v.typed ≤ room / 3 := by
    rw [nestingEach_le_iff]
    intro e he
    have hle := nesting_of_fault? (htyped e he)
    omega
  have hpos : writingRoom / 3 + 1 ≤ writingRoom := by decide
  have hle := nesting_program_le v.typed
  rw [(Reader.expression_program h.expression).fault?_eq_none_iff, Style.listRoom, Nat.one_mul]
  omega

end Value

section evaluation

variable (rule : Except UnknownScoping Scoping) (i : FrameId) (s : Store)

theorem items_data {ev : Evaluator} {es : List Value} (h : ∀ e ∈ es, e.Data)
    (hev : ∀ e ∈ es, ev i e s = (.ok e, s)) : ev.items i es s = (.ok es, s) := by
  induction es with
  | nil => rfl
  | cons e es ih =>
    rw [List.forall_mem_cons] at h hev
    rw [Evaluator.items, Effect.bind_ok hev.1, Effect.bind_ok (ih h.2 hev.2)]
    cases h.1 <;> rfl

theorem evaluate_data {v : Value} (h : v.Data) {room : Nat} (hroom : v.nesting < room) :
    evaluate rule room i v s = (.ok v, s) := by
  induction h generalizing room with
  | number =>
    obtain ⟨room, rfl⟩ := Nat.exists_eq_add_one_of_ne_zero (Nat.ne_zero_of_lt hroom)
    rfl
  | symbol h =>
    obtain ⟨n, hn, -⟩ := h
    cases hn
  | @list items h ih =>
    obtain ⟨room, rfl⟩ := Nat.exists_eq_add_one_of_ne_zero (Nat.ne_zero_of_lt hroom)
    have hplain : ∀ name tail, items ≠ .symbol name :: tail := by
      rintro name tail rfl
      cases h _ (List.mem_cons_self ..) with
      | symbol h =>
        obtain ⟨n, hn, -⟩ := h
        cases hn
    have hnesting : ∀ e ∈ items, e.nesting < room := by
      rw [Value.nesting] at hroom
      intro e he
      exact Nat.lt_of_le_of_lt (Value.nestingEach_le_iff.mp (Nat.le_refl _) e he)
        (Nat.lt_of_succ_lt_succ hroom)
    have hitems := items_data i s h fun e he => ih e he (hnesting e he)
    rw [evaluate_list rule room i hplain, Effect.bind_ok hitems]
    rfl

theorem evaluate_typed {v : Value} (h : v.Typable) :
    ∃ w, w.detached = v.detached ∧ ∀ room, v.nesting < room → ∀ s,
      evaluate rule room i (Reader.program v.typed) s = (.ok w, s) := by
  cases h with
  | data h =>
    refine ⟨v, rfl, ?_⟩
    intro room hroom s
    rw [h.typed_eq]
    exact evaluate_data rule i s h hroom
  | @function params body home hp hb =>
    refine ⟨.closure params body (some i), rfl, ?_⟩
    intro room hroom s
    obtain ⟨room, rfl⟩ := Nat.exists_eq_add_one_of_ne_zero (Nat.ne_zero_of_lt hroom)
    have hsymbols : params.find? (!·.isSymbol) = none := by
      rw [List.find?_eq_none]
      intro p hmem
      obtain ⟨name, rfl, -⟩ := hp p hmem
      simp [Value.isSymbol]
    rw [Value.typed, Reader.program]
    · rw [evaluate_form rule room i Form.ofName?_fn]
      simp only [Evaluator.form, Evaluator.function, hsymbols]
      rfl
    · simp

/-- What is shown of a function or of data of finite numbers reads as the expressions that evaluate
to the value, in any room that is more than its nesting. A value that is too deep to be shown has no
text; the text of any other is one that is not too deep to be evaluated. -/
theorem evaluate_display {v : Value} (h : v.Typable) :
    ∃ w, w.detached = v.detached ∧
      (∃ es, Reader.readAll (ofSource v.display) = ⟨es, none, []⟩ ∧
        ∀ room, v.nesting < room → evaluate rule room i (Reader.program es) s = (.ok w, s)) ∧
      ∀ text, v.display? = .ok text → (evaluateSource rule text i s).1 = .ok w ∧
        (evaluateSource rule text i s).2.frames = s.frames := by
  obtain ⟨w, hw, hrun⟩ := evaluate_typed rule i h
  have htokens := h.ofSource_display
  have hspells := Spells.of_expressions h.expression
  rw [← htokens] at hspells
  refine ⟨w, hw, ⟨v.typed, Reader.readAll_of_spells hspells, fun room hroom => hrun room hroom s⟩, ?_⟩
  intro text htext
  obtain ⟨hfault, rfl⟩ := Value.display?_eq_ok_iff.mp htext
  obtain ⟨room, hroom, htyped⟩ := h.fault?_typed hfault
  have hread : Reader.read v.display = .ok (Reader.program v.typed) :=
    Reader.read_of_tokens htokens h.expression htyped (Nat.le_trans hroom (by decide))
  have hnesting : v.nesting < evaluationRoom := by
    have hle := Value.nesting_of_fault? hfault
    have hpos : Value.writingRoom < 3 * evaluationRoom := by decide
    omega
  have hrecord := Store.cannotRecord_written (h.fault?_program hfault) s
  rw [evaluateSource_read hread hrecord, hrun evaluationRoom hnesting]
  exact ⟨rfl, rfl⟩

theorem evaluate_display_function :
    let v : Value := .closure [.symbol "a"] [.symbol "*", .symbol "a", .number ⟨0x4000000000000000⟩] none
    v.Typable ∧ v.display? = .ok "fn(a) (* a 2)" ∧
      ∃ w, w.detached = v.detached ∧
        (evaluateSource (.ok .lexical) "fn(a) (* a 2)" 0 ⟨#[⟨none, []⟩], none⟩).1 = .ok w := by
  intro v
  have htimes : Token.Typable (.symbol "*") := ⟨"*", by decide +kernel⟩
  have hname : Token.Typable (.symbol "a") := ⟨"a", by decide +kernel⟩
  have hnumber : Token.Typable (.number ⟨0x4000000000000000⟩) :=
    show Number.isFinite _ = true by decide +kernel
  have hv : v.Typable := by
    apply Value.Typable.function
    · rw [List.forall_mem_singleton]
      exact ⟨"a", rfl, hname⟩
    · rw [List.forall_mem_cons, List.forall_mem_cons, List.forall_mem_singleton]
      exact ⟨.symbol htimes, .symbol hname, .number hnumber⟩
  have htext : v.display? = .ok "fn(a) (* a 2)" :=
    Value.display?_eq_ok_iff.mpr ⟨rfl, by decide +kernel⟩
  obtain ⟨w, hw, -, hrun⟩ := evaluate_display (.ok .lexical) 0 ⟨#[⟨none, []⟩], none⟩ hv
  exact ⟨hv, htext, w, hw, (hrun _ htext).1⟩

end evaluation

end ScopedLisp

import ScopedLisp.Proofs.Nesting
import ScopedLisp.Proofs.Tokenization
import ScopedLisp.TokenStream

namespace ScopedLisp

open Token

namespace TokenStream

variable {s p : TokenStream} {t : Token}

theorem toList_of_peek (h : s.peek = (some t, p)) : s.toList = t :: p.advance.2.toList := by
  have hs := s.peek_eq
  rw [h] at hs
  obtain ⟨hfront, hp⟩ := hs
  rw [p.advance_eq.2, hp]
  cases hl : s.toList with
  | nil => simp [hl] at hfront
  | cons u us =>
    rw [hl, List.head?_cons] at hfront
    rw [Option.some.inj hfront, List.tail_cons]

theorem toList_of_peek_none (h : s.peek = (none, p)) : s.toList = [] ∧ p.toList = [] := by
  have hs := s.peek_eq
  rw [h] at hs
  have hnil : s.toList = [] := List.head?_eq_none_iff.mp hs.1.symm
  exact ⟨hnil, hs.2.trans hnil⟩

theorem readItems_eq (items : List Value) (around : List (List Value)) (s : TokenStream) :
    (s.readItems items around).1 = (Reader.readItems items around s.toList).1 ∧
      (s.readItems items around).2.toList = (Reader.readItems items around s.toList).2 := by
  fun_induction readItems items around s with
  | case1 _ _ s p h =>
    obtain ⟨hs, hp⟩ := toList_of_peek_none h
    rw [hs, hp]
    exact ⟨rfl, rfl⟩
  | case2 items s l p h =>
    rw [toList_of_peek h]
    exact ⟨rfl, rfl⟩
  | case3 items s l p h outer around ih =>
    rw [toList_of_peek h]
    exact ih
  | case4 items around s n p h ih =>
    rw [toList_of_peek h]
    exact ih
  | case5 items around s name p h ih =>
    rw [toList_of_peek h]
    exact ih
  | case6 items around s l p h ih =>
    rw [toList_of_peek h]
    exact ih
  | case7 items around s kind lexeme p h =>
    rw [toList_of_peek h]
    exact ⟨rfl, rfl⟩

theorem readExpr_eq (s : TokenStream) :
    s.readExpr.1 = (Reader.readExpr s.toList).1 ∧
      s.readExpr.2.toList = (Reader.readExpr s.toList).2 := by
  obtain ⟨hfront, hrest⟩ := s.advance_eq
  rcases hs : s.advance with ⟨_ | t, rest⟩ <;> rw [hs] at hfront hrest
  · have hnil : s.toList = [] := List.head?_eq_none_iff.mp hfront.symm
    rw [hnil] at hrest ⊢
    simp only [readExpr, hs]
    exact ⟨rfl, hrest⟩
  · have hcons : s.toList = t :: rest.toList := by
      cases hl : s.toList with
      | nil => simp [hl] at hfront
      | cons u us =>
        rw [hl, List.head?_cons] at hfront
        rw [Option.some.inj hfront, hrest, hl, List.tail_cons]
    rw [hcons]
    cases t with
    | opening l =>
      simp only [readExpr, hs, Reader.readExpr]
      exact readItems_eq [] [] rest
    | number | symbol | closing | other =>
      simp only [readExpr, hs, Reader.readExpr]
      exact ⟨trivial, trivial⟩

theorem reads_peeked (h : s.peek = (some t, p)) :
    p.readExpr.1 = (Reader.readExpr s.toList).1 ∧
      p.readExpr.2.toList = (Reader.readExpr s.toList).2 := by
  have hp := s.peek_eq.2
  rw [h] at hp
  rw [← hp]
  exact p.readExpr_eq

end TokenStream

namespace Reader

variable {ts rest left : List Token} {es : List Value} {t : Token} {e : Value}

theorem readAll_nil : readAll [] = ⟨[], none, []⟩ := by rw [readAll]

theorem readAll_ok (h : readExpr (t :: ts) = (.ok e, left)) :
    readAll (t :: ts) = { readAll left with exprs := e :: (readAll left).exprs } := by
  rw [readAll]
  split
  · next heq => simp [h] at heq
  · next heq =>
    rw [h] at heq
    obtain ⟨he, rfl⟩ := Prod.mk.inj heq
    rw [Except.ok.inj he]

theorem readAll_error {fault : ReadFault} (h : readExpr (t :: ts) = (.error fault, left)) :
    readAll (t :: ts) = ⟨[], some fault, left⟩ := by
  rw [readAll]
  split
  · next heq =>
    rw [h] at heq
    obtain ⟨he, rfl⟩ := Prod.mk.inj heq
    rw [Except.error.inj he]
  · next heq => simp [h] at heq

end Reader

theorem TokenStream.readAll_eq (s : TokenStream) :
    s.readAll.1 = ((Reader.readAll s.toList).exprs, (Reader.readAll s.toList).fault) ∧
      s.readAll.2.toList = (Reader.readAll s.toList).left := by
  fun_induction readAll s with
  | case1 s p h =>
    obtain ⟨hs, hp⟩ := toList_of_peek_none h
    rw [hs, hp, Reader.readAll_nil]
    exact ⟨rfl, rfl⟩
  | case2 s t p h fault rest he =>
    obtain ⟨hread, hrest⟩ := reads_peeked h
    rw [he] at hread hrest
    rw [toList_of_peek h] at hread hrest ⊢
    have hfault : Reader.readExpr (t :: _) = (.error fault, rest.toList) :=
      Prod.ext hread.symm hrest.symm
    rw [Reader.readAll_error hfault]
    exact ⟨rfl, rfl⟩
  | case3 s t p h e rest he more ih =>
    obtain ⟨hread, hrest⟩ := reads_peeked h
    rw [he] at hread hrest
    rw [toList_of_peek h] at hread hrest ⊢
    have hexpr : Reader.readExpr (t :: _) = (.ok e, rest.toList) := Prod.ext hread.symm hrest.symm
    rw [Reader.readAll_ok hexpr]
    obtain ⟨hmore, hleft⟩ := ih
    refine ⟨?_, hleft⟩
    change (e :: rest.readAll.1.1, rest.readAll.1.2) = _
    rw [hmore]

namespace Reader

variable {ts rest left : List Token} {es : List Value} {t : Token} {e : Value}

theorem readItems_spells (h : Spells ts es) (items : List Value) (around : List (List Value)) :
    readItems items around (ts ++ rest) = readItems (es.reverse ++ items) around rest := by
  induction h generalizing items around rest with
  | nil => rfl
  | number n _ ih =>
    rw [List.cons_append, readItems, ih, List.reverse_cons, List.append_assoc, List.singleton_append]
  | symbol name _ ih =>
    rw [List.cons_append, readItems, ih, List.reverse_cons, List.append_assoc, List.singleton_append]
  | list l r _ _ ihi ih =>
    rw [List.cons_append, List.append_assoc, readItems, ihi, List.cons_append, readItems, ih, closed,
      List.append_nil, List.reverse_reverse, List.reverse_cons, List.append_assoc,
      List.singleton_append]

theorem readItems_covered (h : ∀ t ∈ ts, t.isKnown) (items : List Value)
    (around : List (List Value)) (hc : Covered around.length ts) :
    readItems items around ts = (.error .unbalanced, []) := by
  induction ts generalizing items around with
  | nil => rfl
  | cons t ts ih =>
    rw [List.forall_mem_cons] at h
    cases t with
    | number n => exact ih h.2 _ _ (covered_number.mp hc)
    | symbol name => exact ih h.2 _ _ (covered_symbol.mp hc)
    | opening l => exact ih h.2 _ _ (covered_opening.mp hc)
    | closing l =>
      cases around with
      | nil => exact absurd hc not_covered_closing
      | cons outer around => exact ih h.2 _ _ (covered_closing.mp hc)
    | other kind lexeme => simp [isKnown] at h

theorem readAll_spells (h : Spells ts es) :
    readAll (ts ++ rest) = { readAll rest with exprs := es ++ (readAll rest).exprs } := by
  induction h with
  | nil => rfl
  | number n _ ih =>
    rw [List.cons_append, readAll_ok rfl, ih]
    rfl
  | symbol name _ ih =>
    rw [List.cons_append, readAll_ok rfl, ih]
    rfl
  | @list l r inner ts items es hi _ _ ih =>
    have hread : readExpr (.opening l :: ((inner ++ .closing r :: ts) ++ rest)) =
        (.ok (.list items), ts ++ rest) := by
      rw [List.append_assoc, readExpr, readItems_spells hi, List.cons_append, readItems, closed,
        List.append_nil, List.reverse_reverse]
    rw [List.cons_append, readAll_ok hread, ih]
    rfl

theorem readAll_of_spells (h : Spells ts es) : readAll ts = ⟨es, none, []⟩ := by
  rw [← List.append_nil ts, readAll_spells h, readAll_nil, List.append_nil]

theorem readAll_stops (h : ∀ t ∈ ts, t.isKnown) {fault : Option ReadFault} (hs : Stops ts fault) :
    (readAll ts).exprs = [] ∧ (readAll ts).fault = fault := by
  cases hs with
  | nil =>
    rw [readAll_nil]
    exact ⟨rfl, rfl⟩
  | closing l ts =>
    rw [readAll_error rfl]
    exact ⟨rfl, rfl⟩
  | opening l hc =>
    rw [List.forall_mem_cons] at h
    have hread : readExpr (.opening l :: _) = (.error .unbalanced, []) :=
      readItems_covered h.2 [] [] hc
    rw [readAll_error hread]
    exact ⟨rfl, rfl⟩

theorem readAll_spells_stops (h : ∀ t ∈ ts ++ rest, t.isKnown) (hs : Spells ts es)
    {fault : Option ReadFault} (hstop : Stops rest fault) :
    (readAll (ts ++ rest)).exprs = es ∧ (readAll (ts ++ rest)).fault = fault := by
  obtain ⟨hexprs, hfault⟩ := readAll_stops (fun t ht => h t (by simp [ht])) hstop
  rw [readAll_spells hs]
  exact ⟨by simp [hexprs], hfault⟩

theorem splitTooDeep?_eq_none_iff {limit depth : Nat} (h : ∀ t ∈ ts, t.isKnown)
    (hc : Covered depth ts) (hd : depth ≤ limit) :
    splitTooDeep? limit depth ts = none ↔ Shallow limit depth ts := by
  induction ts generalizing depth with
  | nil => simp [splitTooDeep?, shallow_nil, hd]
  | cons t ts ih =>
    rw [List.forall_mem_cons] at h
    cases t with
    | number n =>
      rw [splitTooDeep?, Option.map_eq_none_iff, ih h.2 (covered_number.mp hc) hd, shallow_number]
    | symbol name =>
      rw [splitTooDeep?, Option.map_eq_none_iff, ih h.2 (covered_symbol.mp hc) hd, shallow_symbol]
    | opening l =>
      rw [splitTooDeep?, shallow_opening]
      split
      · next heq =>
        subst heq
        constructor
        · intro hnone
          cases hnone
        · intro hs
          exact absurd hs.le (Nat.not_succ_le_self _)
      · next hne =>
        rw [Option.map_eq_none_iff, ih h.2 (covered_opening.mp hc) (by omega)]
    | closing l =>
      cases depth with
      | zero => exact absurd hc not_covered_closing
      | succ depth =>
        rw [splitTooDeep?, Option.map_eq_none_iff, ih h.2 (covered_closing.mp hc) (by omega),
          shallow_closing, and_iff_right hd]
    | other kind lexeme => simp [isKnown] at h

theorem lexed_of_mem_ofSource {source : String} (ht : t ∈ ofSource source) : Lexed t :=
  lexed_of_mem_lex ht

theorem isKnown_ofSource (source : String) : ∀ t ∈ ofSource source, t.isKnown := by
  intro t ht
  cases lexed_of_mem_ofSource ht <;> rfl

theorem expressions_eq {source : String}
    (hd : splitTooDeep? nestingLimit 0 (ofSource source) = none) {front : List Token}
    (heq : ofSource source = front ++ rest) (hs : Spells front es) {fault : Option ReadFault}
    (hstop : Stops rest fault) : expressions source = (es, fault) := by
  have hknown := isKnown_ofSource source
  rw [heq] at hknown
  obtain ⟨hexprs, hfault⟩ := readAll_spells_stops hknown hs hstop
  rw [expressions, hd, heq, hexprs, hfault]

theorem expressions_deep {source : String} {deep : List Token × List Token}
    (hd : splitTooDeep? nestingLimit 0 (ofSource source) = some deep) :
    (expressions source).2 = some .tooDeep := by
  simp only [expressions, hd]

theorem expressions_eq_iff {source : String} :
    expressions source = (es, none) ↔
      Spells (ofSource source) es ∧ Shallow nestingLimit 0 (ofSource source) := by
  have hknown := isKnown_ofSource source
  have hshallow : ∀ es, Spells (ofSource source) es →
      (splitTooDeep? nestingLimit 0 (ofSource source) = none ↔
        Shallow nestingLimit 0 (ofSource source)) := by
    intro es hs
    exact splitTooDeep?_eq_none_iff hknown hs.balanced.covered (Nat.zero_le _)
  constructor
  · intro h
    cases hd : splitTooDeep? nestingLimit 0 (ofSource source) with
    | some deep =>
      have hdeep := expressions_deep hd
      rw [h] at hdeep
      cases hdeep
    | none =>
      obtain ⟨front, es', rest, fault, heq, hs, hstop⟩ := exists_spells _ hknown
      rw [expressions_eq hd heq hs hstop] at h
      obtain ⟨rfl, rfl⟩ := Prod.mk.inj h
      cases hstop with
      | nil =>
        rw [List.append_nil] at heq
        rw [← heq] at hs
        exact ⟨hs, (hshallow _ hs).mp hd⟩
  · rintro ⟨hs, hsh⟩
    exact expressions_eq ((hshallow es hs).mpr hsh) (List.append_nil _).symm hs .nil

theorem read_eq_ok_iff_expressions {source : String} {v : Value} :
    read source = .ok v ↔ ∃ es, expressions source = (es, none) ∧ program es = v := by
  unfold read
  split
  · next exprs heq => simp [heq]
  · next fault heq => simp [heq]

theorem expressions_of_spells {source : String} {ts : List Token} (h : ofSource source = ts)
    (hs : Spells ts es) (hn : Value.nestingEach es ≤ nestingLimit) :
    expressions source = (es, none) := by
  subst h
  exact expressions_eq_iff.mpr ⟨hs, hs.shallow_iff.mpr hn⟩

theorem read_of_spells {source : String} {ts : List Token} {v : Value} (h : ofSource source = ts)
    (hs : Spells ts es) (hn : Value.nestingEach es ≤ nestingLimit) (hv : program es = v) :
    read source = .ok v :=
  read_eq_ok_iff_expressions.mpr ⟨es, expressions_of_spells h hs hn, hv⟩

theorem read_eq_ok_iff {source : String} {v : Value} :
    read source = .ok v ↔
      ∃ es, Spells (ofSource source) es ∧ Shallow nestingLimit 0 (ofSource source) ∧
        program es = v := by
  simp only [read_eq_ok_iff_expressions, expressions_eq_iff, and_assoc]

theorem expression_program {P : Token → Prop} (h : ∀ e ∈ es, e.Expression P) :
    (program es).Expression P := by
  fun_cases program es with
  | case1 e => exact h e (by simp)
  | case2 => exact .list h

theorem expression_read {source : String} {v : Value} (h : read source = .ok v) :
    v.Expression (· ∈ ofSource source) := by
  obtain ⟨es, hs, -, rfl⟩ := read_eq_ok_iff.mp h
  exact expression_program (hs.expression fun _ ht => ht)

theorem exists_read_iff {source : String} :
    (∃ v, read source = .ok v) ↔
      Balanced (ofSource source) ∧ Shallow nestingLimit 0 (ofSource source) := by
  simp only [read_eq_ok_iff, balanced_iff_spells (isKnown_ofSource source)]
  constructor
  · rintro ⟨v, es, hs, hsh, -⟩
    exact ⟨⟨es, hs⟩, hsh⟩
  · rintro ⟨⟨es, hs⟩, hsh⟩
    exact ⟨_, es, hs, hsh, rfl⟩

theorem read_fault {source : String} {fault : ReadFault}
    (h : (expressions source).2 = some fault ∨ read source = .error fault) :
    fault = .unexpectedClose ∨ fault = .unbalanced ∨ fault = .tooDeep := by
  have hfault : (expressions source).2 = some fault := by
    rcases h with h | h
    · exact h
    · unfold read at h
      split at h
      · cases h
      · next heq => rw [heq, Except.error.inj h]
  cases hd : splitTooDeep? nestingLimit 0 (ofSource source) with
  | some deep =>
    rw [expressions_deep hd, Option.some.injEq] at hfault
    exact .inr (.inr hfault.symm)
  | none =>
    obtain ⟨front, es, rest, found, heq, hs, hstop⟩ := exists_spells _ (isKnown_ofSource source)
    rw [expressions_eq hd heq hs hstop] at hfault
    subst hfault
    cases hstop with
    | closing => exact .inl rfl
    | opening => exact .inr (.inl rfl)

end Reader

namespace TokenStream

variable {ts front rest : List Token} {es : List Value}

theorem readAll_ofTokens (ts : List Token) :
    (ofTokens ts).readAll.1 = ((Reader.readAll ts).exprs, (Reader.readAll ts).fault) :=
  (readAll_eq (ofTokens ts)).1

theorem not_covered_inside (hs : Spells front es) {before after : List Token} {l : String}
    (h : front ++ rest = before ++ .opening l :: after) (hlt : before.length < front.length) :
    ¬ Covered 0 after := by
  obtain ⟨inside, rfl, rfl⟩ : ∃ inside, front = before ++ .opening l :: inside ∧
      after = inside ++ rest := by
    obtain ⟨k, rfl, hk⟩ | ⟨k, rfl, hk⟩ := List.append_eq_append_iff.mp h
    · rw [List.length_append] at hlt
      omega
    · cases k with
      | nil => simp at hlt
      | cons t k =>
        obtain ⟨rfl, rfl⟩ := List.cons.inj hk
        exact ⟨k, rfl, rfl⟩
  intro hc
  have heven := hs.even
  have hbefore := hs.balanced.covered before (List.prefix_append _ _)
  have hinside := hc inside (List.prefix_append _ _)
  rw [opens_append, closes_append, opens_opening, closes_opening] at heven
  omega

/-- Of tokens of the known kinds, reading takes expressions as far as they go. Balanced tokens are
read to their end. Otherwise it is either the first parenthesis with nothing to close that stops it,
or the first one that is never closed. -/
theorem readAll_reports {ts : List Token} (h : ∀ t ∈ ts, t.isKnown) :
    let read := (ofTokens ts).readAll.1
    let taken := Value.tokensEach read.1
    taken <+: ts.map plain ∧
    (Balanced ts → read.2 = none ∧ taken = ts.map plain) ∧
    ((∃ p, p <+: ts ∧ opens p < closes p) → read.2 = some .unexpectedClose ∧
      ∃ before l after, ts = before ++ .closing l :: after ∧ Covered 0 before ∧
        ¬ Covered 0 (before ++ [.closing l]) ∧ taken = before.map plain) ∧
    (Covered 0 ts → opens ts ≠ closes ts → read.2 = some .unbalanced ∧
      ∃ before l after, ts = before ++ .opening l :: after ∧ Covered 0 after ∧
        (∀ before' l' after', ts = before' ++ .opening l' :: after' →
          before'.length < before.length → ¬ Covered 0 after') ∧ taken = before.map plain) ∧
    (∀ source fault, (Reader.expressions source).2 = some fault ∨
        Reader.read source = .error fault →
      fault = .unexpectedClose ∨ fault = .unbalanced ∨ fault = .tooDeep) ∧
    (∀ es : List Value, (∀ e ∈ es, e.Expression fun _ => True) →
      (ofTokens (Value.tokensEach es)).readAll.1 = (es, none)) ∧
    ReadFault.unexpectedClose.description = "Unexpected closing parenthesis" ∧
    ReadFault.unbalanced.description = "Unbalanced parentheses" := by
  intro read taken
  obtain ⟨front, es, rest, fault, rfl, hs, hstop⟩ := exists_spells ts h
  have hread : read = (es, fault) := by
    obtain ⟨hexprs, hfault⟩ := Reader.readAll_spells_stops h hs hstop
    rw [← hexprs, ← hfault]
    exact readAll_ofTokens _
  have htaken : taken = front.map plain := by
    rw [← hs.tokensEach_eq]
    exact congrArg (fun r => Value.tokensEach r.1) hread
  rw [htaken, hread]
  refine ⟨?_, ?_, ?_, ?_, fun _ _ => Reader.read_fault, ?_, rfl, rfl⟩
  · rw [List.map_append]
    exact List.prefix_append _ _
  · intro hb
    obtain ⟨rfl, rfl⟩ := hstop.of_balanced hs hb
    exact ⟨rfl, by rw [List.append_nil]⟩
  · rintro ⟨p, hp, hlt⟩
    obtain ⟨l, after, rfl, rfl⟩ := hstop.of_not_covered hs fun hc => Nat.not_le_of_lt hlt (hc p hp)
    refine ⟨rfl, front, l, after, rfl, hs.balanced.covered, ?_, rfl⟩
    rw [hs.covered_iff]
    exact not_covered_closing
  · intro hc hne
    obtain ⟨l, after, rfl, hafter, rfl⟩ := hstop.of_odd hs hc hne
    refine ⟨rfl, front, l, after, rfl, hafter, ?_, rfl⟩
    intro before' l' after' heq hlt
    exact not_covered_inside hs heq hlt
  · intro es hes
    rw [readAll_ofTokens, Reader.readAll_of_spells (Spells.of_expressions hes)]

theorem readAll_reports_unbalanced :
    let ts : List Token := [.opening "(", .symbol "a", .closing ")", .opening "(", .opening "(",
      .closing ")", .symbol "b"]
    (∀ t ∈ ts, t.isKnown) ∧ Covered 0 ts ∧ opens ts ≠ closes ts ∧
      (ofTokens ts).readAll.1.2 = some .unbalanced := by
  intro ts
  have hknown : ∀ t ∈ ts, t.isKnown := by decide
  have hcovered : Covered 0 ts := by
    simp only [ts, covered_opening, covered_symbol, covered_closing]
    exact covered_nil 1
  have hne : opens ts ≠ closes ts := by decide
  obtain ⟨-, -, -, hunbalanced, -⟩ := readAll_reports hknown
  exact ⟨hknown, hcovered, hne, (hunbalanced hcovered hne).1⟩

end TokenStream

end ScopedLisp

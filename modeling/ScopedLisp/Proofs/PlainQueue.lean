import ScopedLisp.Proofs.Parsing

namespace ScopedLisp

open Token

namespace TokenStream

inductive Call where
  | peek
  | advance
  | atEnd
  | readExpr (limit : Option Nat)
  | readAll (limit : Option Nat)

inductive Answer where
  | token (t : Option Token)
  | atEnd (ended : Bool)
  | expr (result : Except ReadFault Value)
  | exprs (result : List Value × Option ReadFault)

def call (s : TokenStream) : Call → Answer × TokenStream
  | .peek => (.token s.peek.1, s.peek.2)
  | .advance => (.token s.advance.1, s.advance.2)
  | .atEnd => (.atEnd s.atEnd.1, s.atEnd.2)
  | .readExpr limit =>
    let r := match limit with
      | none => s.readExpr
      | some n => s.readExprWithin n
    (.expr r.1, r.2)
  | .readAll limit =>
    let r := match limit with
      | none => s.readAll
      | some n => s.readAllWithin n
    (.exprs r.1, r.2)

def answers (s : TokenStream) : List Call → List Answer
  | [] => []
  | c :: cs => (s.call c).1 :: answers (s.call c).2 cs

def after (s : TokenStream) (calls : List Call) : TokenStream :=
  calls.foldl (fun s c => (s.call c).2) s

end TokenStream

abbrev PlainQueue := List Token

namespace PlainQueue

open TokenStream (Call Answer)

/-- What is left when the tokens up to the one that opens a list too many have been taken, if there
is such a token before the end of the reading. -/
def tooDeep? (limit : Nat) (q left : PlainQueue) : Option PlainQueue :=
  (Reader.splitTooDeep? limit 0 (q.take (q.length - left.length))).map fun (_, deep) => deep ++ left

def readExpr (q : PlainQueue) : Option Nat → Except ReadFault Value × PlainQueue
  | none => Reader.readExpr q
  | some n =>
    match tooDeep? n q (Reader.readExpr q).2 with
    | some deep => (.error .tooDeep, deep)
    | none => Reader.readExpr q

def readAll (q : PlainQueue) : Option Nat → Reader.Reading
  | none => Reader.readAll q
  | some n =>
    match tooDeep? n q (Reader.readAll q).left with
    | some deep => ⟨(Reader.readAll (q.take (q.length - deep.length))).exprs, some .tooDeep, deep⟩
    | none => Reader.readAll q

def call (q : PlainQueue) : Call → Answer × PlainQueue
  | .peek => (.token q.head?, q)
  | .advance => (.token q.head?, q.tail)
  | .atEnd => (.atEnd q.isEmpty, q)
  | .readExpr limit => (.expr (q.readExpr limit).1, (q.readExpr limit).2)
  | .readAll limit =>
    let r := q.readAll limit
    (.exprs (r.exprs, r.fault), r.left)

def answers (q : PlainQueue) : List Call → List Answer
  | [] => []
  | c :: cs => (q.call c).1 :: answers (q.call c).2 cs

def after (q : PlainQueue) (calls : List Call) : PlainQueue :=
  calls.foldl (fun q c => (q.call c).2) q

end PlainQueue

namespace TokenStream

variable (s : TokenStream)

theorem atEnd_eq : s.atEnd.1 = s.toList.isEmpty ∧ s.atEnd.2.toList = s.toList := by
  obtain ⟨hfront, hrest⟩ := s.peek_eq
  refine ⟨?_, hrest⟩
  rw [atEnd, hfront]
  cases s.toList <;> rfl

theorem tooDeep?_eq (limit : Nat) (rest : TokenStream) :
    s.tooDeep? limit rest = (PlainQueue.tooDeep? limit s.toList rest.toList).map ofTokens := by
  rw [tooDeep?, PlainQueue.tooDeep?, Option.map_map]
  rfl

theorem readExprWithin_eq (limit : Nat) :
    (s.readExprWithin limit).1 = (PlainQueue.readExpr s.toList (some limit)).1 ∧
      (s.readExprWithin limit).2.toList = (PlainQueue.readExpr s.toList (some limit)).2 := by
  obtain ⟨hresult, hrest⟩ := s.readExpr_eq
  rw [readExprWithin, PlainQueue.readExpr, tooDeep?_eq, hrest]
  cases PlainQueue.tooDeep? limit s.toList (Reader.readExpr s.toList).2 with
  | none => exact ⟨hresult, hrest⟩
  | some deep => exact ⟨rfl, rfl⟩

theorem readAllWithin_eq (limit : Nat) :
    let r := PlainQueue.readAll s.toList (some limit)
    (s.readAllWithin limit).1 = (r.exprs, r.fault) ∧
      (s.readAllWithin limit).2.toList = r.left := by
  obtain ⟨hresult, hrest⟩ := s.readAll_eq
  rw [readAllWithin, PlainQueue.readAll, tooDeep?_eq, hrest]
  cases PlainQueue.tooDeep? limit s.toList (Reader.readAll s.toList).left with
  | none => exact ⟨hresult, hrest⟩
  | some deep =>
    refine ⟨?_, rfl⟩
    simp only [Option.map_some, readAll_ofTokens]
    rfl

theorem call_eq (c : Call) :
    (s.call c).1 = (PlainQueue.call s.toList c).1 ∧
      (s.call c).2.toList = (PlainQueue.call s.toList c).2 := by
  cases c with
  | peek => exact ⟨congrArg Answer.token s.peek_eq.1, s.peek_eq.2⟩
  | advance => exact ⟨congrArg Answer.token s.advance_eq.1, s.advance_eq.2⟩
  | atEnd => exact ⟨congrArg Answer.atEnd s.atEnd_eq.1, s.atEnd_eq.2⟩
  | readExpr limit =>
    cases limit with
    | none => exact ⟨congrArg Answer.expr s.readExpr_eq.1, s.readExpr_eq.2⟩
    | some n => exact ⟨congrArg Answer.expr (s.readExprWithin_eq n).1, (s.readExprWithin_eq n).2⟩
  | readAll limit =>
    cases limit with
    | none => exact ⟨congrArg Answer.exprs s.readAll_eq.1, s.readAll_eq.2⟩
    | some n => exact ⟨congrArg Answer.exprs (s.readAllWithin_eq n).1, (s.readAllWithin_eq n).2⟩

theorem answers_eq (calls : List Call) : s.answers calls = PlainQueue.answers s.toList calls := by
  induction calls generalizing s with
  | nil => rfl
  | cons c cs ih =>
    obtain ⟨hanswer, hrest⟩ := s.call_eq c
    rw [answers, PlainQueue.answers, hanswer, ih, hrest]

theorem toList_after (calls : List Call) :
    (s.after calls).toList = PlainQueue.after s.toList calls := by
  induction calls generalizing s with
  | nil => rfl
  | cons c cs ih =>
    rw [after, List.foldl_cons, ← after, ih, (s.call_eq c).2]
    rfl

end TokenStream

namespace TokenStream

structure Trails (ts : List Token) (s : TokenStream) : Prop where
  ahead : s.ahead.length ≤ 1
  suffix : s.toList <:+ ts

namespace Trails

variable {ts : List Token} {s : TokenStream}

theorem ofTokens {left : List Token} (h : left <:+ ts) : Trails ts (.ofTokens left) :=
  ⟨Nat.zero_le 1, h⟩

theorem peek (h : Trails ts s) : Trails ts s.peek.2 where
  ahead := by
    obtain ⟨_ | ⟨t, before⟩, _ | ⟨u, us⟩⟩ := s
    · exact h.ahead
    · exact Nat.le_refl 1
    · exact h.ahead
    · exact h.ahead
  suffix := by
    rw [s.peek_eq.2]
    exact h.suffix

theorem advance (h : Trails ts s) : Trails ts s.advance.2 where
  ahead := by
    obtain ⟨_ | ⟨t, before⟩, _ | ⟨u, us⟩⟩ := s
    · exact h.ahead
    · exact Nat.zero_le 1
    · exact Nat.le_of_succ_le h.ahead
    · exact Nat.le_of_succ_le h.ahead
  suffix := by
    rw [s.advance_eq.2]
    exact (List.tail_suffix _).trans h.suffix

theorem of_peek (h : Trails ts s) {t : Option Token} {p : TokenStream} (hp : s.peek = (t, p)) :
    Trails ts p := by
  have hpeek := h.peek
  rwa [hp] at hpeek

theorem readItems (h : Trails ts s) (items : List Value) (around : List (List Value)) :
    Trails ts (s.readItems items around).2 := by
  fun_induction TokenStream.readItems items around s with
  | case1 _ _ s p hp => exact h.of_peek hp
  | case2 items s l p hp => exact (h.of_peek hp).advance
  | case3 items s l p hp outer around ih => exact ih (h.of_peek hp).advance
  | case4 items around s n p hp ih => exact ih (h.of_peek hp).advance
  | case5 items around s name p hp ih => exact ih (h.of_peek hp).advance
  | case6 items around s l p hp ih => exact ih (h.of_peek hp).advance
  | case7 items around s kind lexeme p hp => exact (h.of_peek hp).advance

theorem readExpr (h : Trails ts s) : Trails ts s.readExpr.2 := by
  have hadvance := h.advance
  rcases hs : s.advance with ⟨_ | t, rest⟩ <;> rw [hs] at hadvance
  · simp only [TokenStream.readExpr, hs]
    exact hadvance
  · cases t <;> simp only [TokenStream.readExpr, hs]
    case opening => exact hadvance.readItems [] []
    all_goals exact hadvance

theorem readAll (h : Trails ts s) : Trails ts s.readAll.2 := by
  fun_induction TokenStream.readAll s with
  | case1 s p hp => exact h.of_peek hp
  | case2 s t p hp fault rest he =>
    have hread := (h.of_peek hp).readExpr
    rwa [he] at hread
  | case3 s t p hp e rest he more ih =>
    have hread := (h.of_peek hp).readExpr
    rw [he] at hread
    exact ih hread

end Trails

end TokenStream

namespace Reader

variable {ts rest : List Token} {e : Value} {fault : ReadFault}

theorem splitTooDeep?_eq_some {limit depth : Nat} {front deep : List Token}
    (h : splitTooDeep? limit depth ts = some (front, deep)) :
    ts = front ++ deep ∧ Covered depth front ∧ opens front + depth = closes front + limit ∧
      ∃ l after, deep = .opening l :: after := by
  induction ts generalizing depth front with
  | nil => cases h
  | cons t ts ih =>
    have hafter {d : Nat} (h : (splitTooDeep? limit d ts).map (fun (front, deep) => (t :: front, deep)) =
        some (front, deep)) : ∃ f, front = t :: f ∧ ts = f ++ deep ∧ Covered d f ∧
          opens f + d = closes f + limit ∧ ∃ l after, deep = .opening l :: after := by
      obtain ⟨⟨f, d⟩, hf, heq⟩ := Option.map_eq_some_iff.mp h
      obtain ⟨rfl, rfl⟩ := Prod.mk.inj heq
      exact ⟨f, rfl, ih hf⟩
    cases t with
    | number n =>
      obtain ⟨f, rfl, rfl, hc, hcount, hdeep⟩ := hafter h
      exact ⟨rfl, covered_number.mpr hc, hcount, hdeep⟩
    | symbol name =>
      obtain ⟨f, rfl, rfl, hc, hcount, hdeep⟩ := hafter h
      exact ⟨rfl, covered_symbol.mpr hc, hcount, hdeep⟩
    | opening l =>
      rw [splitTooDeep?] at h
      split at h
      · next heq =>
        obtain ⟨rfl, rfl⟩ := Prod.mk.inj (Option.some.inj h)
        exact ⟨rfl, covered_nil depth, by rw [heq]; rfl, l, ts, rfl⟩
      · obtain ⟨f, rfl, rfl, hc, hcount, hdeep⟩ := hafter h
        refine ⟨rfl, covered_opening.mpr hc, ?_, hdeep⟩
        rw [opens_opening, closes_opening]
        omega
    | closing l =>
      cases depth with
      | zero => cases h
      | succ depth =>
        obtain ⟨f, rfl, rfl, hc, hcount, hdeep⟩ := hafter h
        refine ⟨rfl, covered_closing.mpr hc, ?_, hdeep⟩
        rw [opens_closing, closes_closing]
        omega
    | other kind lexeme => cases h

theorem spells_of_readItems {items : List Value} {around : List (List Value)}
    (h : readItems items around ts = (.ok e, rest)) :
    ∃ inner es l after, ts = inner ++ .closing l :: after ∧ Spells inner es := by
  -- what stands behind a nested list is no tail of what is read, so the induction is on the length
  induction hn : ts.length using Nat.strongRecOn generalizing ts items around with
  | _ n ih =>
    subst hn
    cases ts with
    | nil => cases h
    | cons t ts =>
      have hlt : ts.length < (t :: ts).length := Nat.lt_succ_self _
      cases t with
      | number n =>
        rw [readItems] at h
        obtain ⟨inner, es, l, after, rfl, hs⟩ := ih _ hlt h rfl
        exact ⟨_, _, l, after, rfl, hs.number n⟩
      | symbol name =>
        rw [readItems] at h
        obtain ⟨inner, es, l, after, rfl, hs⟩ := ih _ hlt h rfl
        exact ⟨_, _, l, after, rfl, hs.symbol name⟩
      | closing l => exact ⟨[], [], l, ts, rfl, .nil⟩
      | other kind lexeme => cases h
      | opening l =>
        rw [readItems] at h
        obtain ⟨inner, es, r, after, rfl, hs⟩ := ih _ hlt h rfl
        rw [readItems_spells hs, readItems] at h
        have hshort : after.length < (Token.opening l :: (inner ++ .closing r :: after)).length := by
          simp only [List.length_cons, List.length_append]
          omega
        obtain ⟨inner', es', r', after', rfl, hs'⟩ := ih _ hshort h rfl
        refine ⟨_, _, r', after', ?_, hs.list l r hs'⟩
        simp

theorem spells_of_readExpr (h : readExpr ts = (.ok e, rest)) :
    ∃ taken, ts = taken ++ rest ∧ Spells taken [e] := by
  cases ts with
  | nil => cases h
  | cons t ts =>
    cases t with
    | number n =>
      obtain ⟨he, rfl⟩ := Prod.mk.inj h
      obtain rfl := Except.ok.inj he
      exact ⟨[_], rfl, .number n .nil⟩
    | symbol name =>
      obtain ⟨he, rfl⟩ := Prod.mk.inj h
      obtain rfl := Except.ok.inj he
      exact ⟨[_], rfl, .symbol name .nil⟩
    | closing l => cases h
    | other kind lexeme => cases h
    | opening l =>
      rw [readExpr] at h
      obtain ⟨inner, es, r, after, rfl, hs⟩ := spells_of_readItems h
      rw [readItems_spells hs, readItems, closed, List.append_nil, List.reverse_reverse] at h
      obtain ⟨he, rfl⟩ := Prod.mk.inj h
      obtain rfl := Except.ok.inj he
      exact ⟨_, by simp, hs.list l r .nil⟩

theorem stops_of_readExpr (hne : ts ≠ []) (hknown : ∀ t ∈ ts, t.isKnown)
    (h : readExpr ts = (.error fault, rest)) :
    (fault = .unexpectedClose ∧ ∃ l, ts = .closing l :: rest) ∨
      (fault = .unbalanced ∧ rest = [] ∧ ∃ l after, ts = .opening l :: after ∧ Covered 0 after) := by
  cases ts with
  | nil => exact absurd rfl hne
  | cons t ts =>
    rw [List.forall_mem_cons] at hknown
    cases t with
    | number n => cases h
    | symbol name => cases h
    | closing l =>
      obtain ⟨hfault, rfl⟩ := Prod.mk.inj h
      exact .inl ⟨(Except.error.inj hfault).symm, l, rfl⟩
    | other kind lexeme => simp [isKnown] at hknown
    | opening l =>
      rw [readExpr] at h
      by_cases hc : Covered 0 ts
      · rw [readItems_covered hknown.2 [] [] hc] at h
        obtain ⟨hfault, rfl⟩ := Prod.mk.inj h
        exact .inr ⟨(Except.error.inj hfault).symm, rfl, l, ts, rfl, hc⟩
      · obtain ⟨front, es, left, _, rfl, hs, hstop⟩ := exists_spells ts hknown.2
        obtain ⟨r, after, rfl, -⟩ := hstop.of_not_covered hs hc
        rw [readItems_spells hs, readItems] at h
        cases h

end Reader

namespace PlainQueue

variable {q left rest : PlainQueue} {n : Nat} {limit : Option Nat} {e : Value} {fault : ReadFault}

theorem tooDeep?_eq_some {deep : PlainQueue} (hleft : left <:+ q)
    (h : tooDeep? n q left = some deep) :
    ∃ front l after, q = front ++ .opening l :: after ∧ deep = .opening l :: after ∧
      Covered 0 front ∧ opens front = closes front + n := by
  obtain ⟨⟨front, split⟩, hsplit, rfl⟩ := Option.map_eq_some_iff.mp h
  obtain ⟨htake, hc, hcount, l, after, rfl⟩ := Reader.splitTooDeep?_eq_some hsplit
  refine ⟨front, l, after ++ left, ?_, rfl, hc, hcount⟩
  have hq := List.suffix_iff_eq_append.mp hleft
  rw [htake] at hq
  rw [← hq]
  simp

theorem spells_of_readExpr (h : q.readExpr limit = (.ok e, rest)) :
    ∃ taken, q = taken ++ rest ∧ Spells taken [e] := by
  cases limit with
  | none => exact Reader.spells_of_readExpr h
  | some n =>
    rw [readExpr] at h
    split at h
    · cases h
    · exact Reader.spells_of_readExpr h

end PlainQueue

namespace TokenStream

variable {ts : List Token} {s : TokenStream}

theorem Trails.of_tooDeep? (h : Trails ts s) {rest deep : TokenStream} {n : Nat}
    (hrest : rest.toList <:+ s.toList) (hdeep : s.tooDeep? n rest = some deep) : Trails ts deep := by
  rw [tooDeep?_eq] at hdeep
  obtain ⟨left, hleft, rfl⟩ := Option.map_eq_some_iff.mp hdeep
  obtain ⟨front, l, after, hq, rfl, -⟩ := PlainQueue.tooDeep?_eq_some hrest hleft
  apply Trails.ofTokens
  apply List.IsSuffix.trans _ h.suffix
  rw [hq]
  exact List.suffix_append _ _

theorem Trails.call (h : Trails ts s) (c : Call) : Trails ts (s.call c).2 := by
  have hself : Trails s.toList s := ⟨h.ahead, List.suffix_rfl⟩
  cases c with
  | peek => exact h.peek
  | advance => exact h.advance
  | atEnd => exact h.peek
  | readExpr limit =>
    cases limit with
    | none => exact h.readExpr
    | some n =>
      change Trails ts (s.readExprWithin n).2
      unfold readExprWithin
      split
      · next hdeep => exact h.of_tooDeep? hself.readExpr.suffix hdeep
      · exact h.readExpr
  | readAll limit =>
    cases limit with
    | none => exact h.readAll
    | some n =>
      change Trails ts (s.readAllWithin n).2
      unfold readAllWithin
      split
      · next hdeep => exact h.of_tooDeep? hself.readAll.suffix hdeep
      · exact h.readAll

theorem Trails.after (h : Trails ts s) (calls : List Call) : Trails ts (s.after calls) := by
  induction calls generalizing s with
  | nil => exact h
  | cons c cs ih => exact ih (h.call c)

theorem suffix_readExpr (q : List Token) : (Reader.readExpr q).2 <:+ q := by
  have h : Trails q (ofTokens q).readExpr.2 := (Trails.ofTokens List.suffix_rfl).readExpr
  have hrest : (ofTokens q).readExpr.2.toList = (Reader.readExpr q).2 := (ofTokens q).readExpr_eq.2
  rw [← hrest]
  exact h.suffix

theorem queue_of_call {limit : Option Nat} {result : Except ReadFault Value} {rest : TokenStream}
    (h : s.call (.readExpr limit) = (.expr result, rest)) :
    PlainQueue.readExpr s.toList limit = (result, rest.toList) := by
  obtain ⟨hanswer, hrest⟩ := s.call_eq (.readExpr limit)
  rw [h] at hanswer hrest
  exact Prod.ext (Answer.expr.inj hanswer).symm hrest.symm

end TokenStream

theorem PlainQueue.stops_of_readExpr {q rest : PlainQueue} {limit : Option Nat} {fault : ReadFault}
    (hne : q ≠ []) (hknown : ∀ t ∈ q, t.isKnown) (h : q.readExpr limit = (.error fault, rest)) :
    (fault = .unexpectedClose ∧ ∃ l, q = .closing l :: rest) ∨
      (fault = .unbalanced ∧ rest = [] ∧ ∃ l after, q = .opening l :: after ∧ Covered 0 after) ∨
      (fault = .tooDeep ∧ ∃ n front l after, limit = some n ∧ q = front ++ rest ∧
        rest = .opening l :: after ∧ Covered 0 front ∧ opens front = closes front + n) := by
  cases limit with
  | none => exact (Reader.stops_of_readExpr hne hknown h).imp_right .inl
  | some n =>
    rw [readExpr] at h
    split at h
    · next deep hdeep =>
      obtain ⟨hfault, rfl⟩ := Prod.mk.inj h
      obtain ⟨front, l, after, hq, rfl, hc, hcount⟩ :=
        tooDeep?_eq_some (TokenStream.suffix_readExpr q) hdeep
      exact .inr (.inr ⟨(Except.error.inj hfault).symm, n, front, l, after, rfl, hq, rfl, hc, hcount⟩)
    · exact (Reader.stops_of_readExpr hne hknown h).imp_right .inl

namespace TokenStream

/-- A stream that has been asked anything in any order answers as a plain list of the tokens that
are left. It has at most one token ahead, what is ahead and what is unread are the end of its
tokens, and a look at the next token or for the end takes nothing. An expression that is read takes
its tokens. If there are tokens and none is read, a parenthesis that closes nothing is taken, or
all tokens of a list that is never closed; where nesting has a bound, there may also be a token
that opens one list too many, and it is left. -/
theorem answers_as_plain_queue (ts : List Token) (calls : List Call) :
    let s := (ofTokens ts).after calls
    (ofTokens ts).answers calls = PlainQueue.answers ts calls ∧
    s.toList = PlainQueue.after ts calls ∧
    s.ahead.length ≤ 1 ∧ s.toList <:+ ts ∧
    (s.call .peek).2.toList = s.toList ∧ (s.call .atEnd).2.toList = s.toList ∧
    (∀ limit e rest, s.call (.readExpr limit) = (.expr (.ok e), rest) →
      ∃ taken, s.toList = taken ++ rest.toList ∧ Spells taken [e] ∧ taken.map plain = e.tokens) ∧
    ∀ limit fault rest, s.toList ≠ [] → (∀ t ∈ s.toList, t.isKnown) →
      s.call (.readExpr limit) = (.expr (.error fault), rest) →
      (fault = .unexpectedClose ∧ ∃ l, s.toList = .closing l :: rest.toList) ∨
      (fault = .unbalanced ∧ rest.toList = [] ∧
        ∃ l after, s.toList = .opening l :: after ∧ Covered 0 after) ∨
      (fault = .tooDeep ∧ ∃ n front l after, limit = some n ∧ s.toList = front ++ rest.toList ∧
        rest.toList = .opening l :: after ∧ Covered 0 front ∧ opens front = closes front + n) := by
  intro s
  have htrails : Trails ts s := (Trails.ofTokens List.suffix_rfl).after calls
  refine ⟨(ofTokens ts).answers_eq calls, (ofTokens ts).toList_after calls, htrails.ahead,
    htrails.suffix, s.peek_eq.2, s.atEnd_eq.2, ?_, ?_⟩
  · intro limit e rest h
    obtain ⟨taken, hq, hs⟩ := PlainQueue.spells_of_readExpr (queue_of_call h)
    refine ⟨taken, hq, hs, ?_⟩
    rw [← hs.tokensEach_eq, Value.tokensEach, Value.tokensEach, List.append_nil]
  · intro limit fault rest hne hknown h
    exact PlainQueue.stops_of_readExpr hne hknown (queue_of_call h)

theorem answers_as_plain_queue_unclosed :
    let ts : List Token := [.closing ")", .opening "(", .symbol "a", .opening "(", .closing ")"]
    let s := (ofTokens ts).after [.readExpr none, .peek]
    let rest := (s.call (.readExpr none)).2
    s.ahead = [.opening "("] ∧ s.toList ≠ [] ∧ (∀ t ∈ s.toList, t.isKnown) ∧
      s.call (.readExpr none) = (.expr (.error .unbalanced), rest) ∧ rest.toList = [] := by
  intro ts s rest
  have hlist : s.toList = [.opening "(", .symbol "a", .opening "(", .closing ")"] := rfl
  have hne : s.toList ≠ [] := by rw [hlist]; simp
  have hknown : ∀ t ∈ s.toList, t.isKnown := by rw [hlist]; decide
  have hcall : s.call (.readExpr none) = (.expr (.error .unbalanced), rest) := by
    refine Prod.ext ?_ rfl
    rw [(s.call_eq _).1, hlist]
    rfl
  obtain ⟨-, -, -, -, -, -, -, hstops⟩ := answers_as_plain_queue ts [.readExpr none, .peek]
  have hend : rest.toList = [] := by
    rcases hstops none .unbalanced rest hne hknown hcall with ⟨h, -⟩ | ⟨-, hend, -⟩ | ⟨h, -⟩
    · cases h
    · exact hend
    · cases h
  exact ⟨rfl, hne, hknown, hcall, hend⟩

end TokenStream

end ScopedLisp

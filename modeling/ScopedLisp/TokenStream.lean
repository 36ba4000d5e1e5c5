import ScopedLisp.Reader

namespace ScopedLisp

structure TokenStream where
  ahead : List Token
  unread : List Token

namespace TokenStream

def ofTokens (ts : List Token) : TokenStream := ⟨[], ts⟩

def toList (s : TokenStream) : List Token := s.ahead ++ s.unread

def peek (s : TokenStream) : Option Token × TokenStream :=
  match s.ahead, s.unread with
  | t :: _, _ => (some t, s)
  | [], t :: ts => (some t, ⟨[t], ts⟩)
  | [], [] => (none, s)

def advance (s : TokenStream) : Option Token × TokenStream :=
  match s.ahead, s.unread with
  | t :: ts, unread => (some t, ⟨ts, unread⟩)
  | [], t :: ts => (some t, ⟨[], ts⟩)
  | [], [] => (none, s)

def atEnd (s : TokenStream) : Bool × TokenStream := (s.peek.1.isNone, s.peek.2)

theorem peek_eq (s : TokenStream) : s.peek.1 = s.toList.head? ∧ s.peek.2.toList = s.toList := by
  obtain ⟨_ | ⟨t, ts⟩, _ | ⟨u, us⟩⟩ := s <;> exact ⟨rfl, rfl⟩

theorem advance_eq (s : TokenStream) :
    s.advance.1 = s.toList.head? ∧ s.advance.2.toList = s.toList.tail := by
  obtain ⟨_ | ⟨t, ts⟩, _ | ⟨u, us⟩⟩ := s <;> exact ⟨rfl, rfl⟩

def size (s : TokenStream) : Nat := s.toList.length

theorem size_peek (s : TokenStream) : s.peek.2.size = s.size := by
  rw [size, s.peek_eq.2]; rfl

theorem size_advance {s p : TokenStream} {t : Token} (h : s.peek = (some t, p)) :
    p.advance.2.size < s.size := by
  have hs := s.peek_eq
  rw [h] at hs
  rw [size, p.advance_eq.2, hs.2, size]
  cases hl : s.toList with
  | nil => simp [hl] at hs
  | cons t ts => exact Nat.lt_succ_self _

def readItems (items : List Value) (around : List (List Value)) (s : TokenStream) :
    Except ReadFault Value × TokenStream :=
  match _h : s.peek with
  | (none, p) => (.error .unbalanced, p)
  | (some (.closing _), p) =>
    match around with
    | [] => (.ok (Reader.closed items), p.advance.2)
    | outer :: around => readItems (Reader.closed items :: outer) around p.advance.2
  | (some (.number n), p) => readItems (.number n :: items) around p.advance.2
  | (some (.symbol name), p) => readItems (.symbol name :: items) around p.advance.2
  | (some (.opening _), p) => readItems [] (items :: around) p.advance.2
  | (some (.other kind lexeme), p) => (.error (.unknownToken kind lexeme), p.advance.2)
termination_by s.size
decreasing_by all_goals exact size_advance _h

def readExpr (s : TokenStream) : Except ReadFault Value × TokenStream :=
  match s.advance with
  | (none, s) => (.error .endOfInput, s)
  | (some (.number n), s) => (.ok (.number n), s)
  | (some (.symbol name), s) => (.ok (.symbol name), s)
  | (some (.opening _), s) => s.readItems [] []
  | (some (.closing _), s) => (.error .unexpectedClose, s)
  | (some (.other kind lexeme), s) => (.error (.unknownToken kind lexeme), s)

theorem size_readItems (items : List Value) (around : List (List Value)) (s : TokenStream) :
    (s.readItems items around).2.size ≤ s.size := by
  fun_induction readItems items around s with
  | case1 _ _ s p h =>
    have hp := s.size_peek
    rw [h] at hp
    exact Nat.le_of_eq hp
  | case2 items s _ p h => exact Nat.le_of_lt (size_advance h)
  | case3 items s _ p h _ _ ih =>
    exact Nat.le_trans ih (Nat.le_of_lt (size_advance h))
  | case4 _ _ s _ p h ih => exact Nat.le_trans ih (Nat.le_of_lt (size_advance h))
  | case5 _ _ s _ p h ih => exact Nat.le_trans ih (Nat.le_of_lt (size_advance h))
  | case6 _ _ s _ p h ih => exact Nat.le_trans ih (Nat.le_of_lt (size_advance h))
  | case7 _ _ s _ _ p h => exact Nat.le_of_lt (size_advance h)

theorem size_readExpr {s p : TokenStream} {t : Token} (h : s.peek = (some t, p)) :
    p.readExpr.2.size < s.size := by
  have ha := size_advance h
  unfold readExpr
  split <;> simp_all
  exact Nat.lt_of_le_of_lt (size_readItems _ _ _) ha

def readAll (s : TokenStream) : (List Value × Option ReadFault) × TokenStream :=
  match _h : s.peek with
  | (none, p) => (([], none), p)
  | (some _, p) =>
    match _he : p.readExpr with
    | (.error fault, rest) => (([], some fault), rest)
    | (.ok expr, rest) =>
      let more := readAll rest
      ((expr :: more.1.1, more.1.2), more.2)
termination_by s.size
decreasing_by
  have hr := size_readExpr _h
  rw [_he] at hr
  exact hr

/-- Of the tokens that were taken on the way from one stream to another, those from the one on that
opens a list too many, and all after them. -/
def tooDeep? (limit : Nat) (s rest : TokenStream) : Option TokenStream :=
  (Reader.splitTooDeep? limit 0 (s.toList.take (s.size - rest.size))).map fun (_, deep) =>
    .ofTokens (deep ++ rest.toList)

def readExprWithin (limit : Nat) (s : TokenStream) : Except ReadFault Value × TokenStream :=
  match s.tooDeep? limit s.readExpr.2 with
  | some deep => (.error .tooDeep, deep)
  | none => s.readExpr

def readAllWithin (limit : Nat) (s : TokenStream) :
    (List Value × Option ReadFault) × TokenStream :=
  match s.tooDeep? limit s.readAll.2 with
  | some deep =>
    let front := ofTokens (s.toList.take (s.size - deep.size))
    ((front.readAll.1.1, some .tooDeep), deep)
  | none => s.readAll

end TokenStream

end ScopedLisp

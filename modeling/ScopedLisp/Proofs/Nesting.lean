import ScopedLisp.Reader
import ScopedLisp.Value.Written

namespace ScopedLisp

/-- Numbers and symbols with the property, as tokens, and lists of such expressions. -/
inductive Value.Expression (P : Token → Prop) : Value → Prop where
  | number {n : Number} (h : P (.number n)) : Expression P (.number n)
  | symbol {name : String} (h : P (.symbol name)) : Expression P (.symbol name)
  | list {items : List Value} (h : ∀ e ∈ items, Expression P e) : Expression P (.list items)

namespace Value

mutual

def tokens : Value → List Token
  | .number n => [.number n]
  | .symbol name => [.symbol name]
  | .list items => .opening "(" :: (tokensEach items ++ [.closing ")"])
  | _ => []

def tokensEach : List Value → List Token
  | [] => []
  | v :: vs => tokens v ++ tokensEach vs

end

section expression

variable {P : Token → Prop} {n : Number} {name : String} {items : List Value}

@[simp] theorem expression_number : (Value.number n).Expression P ↔ P (.number n) := by
  refine ⟨?_, .number⟩
  rintro (h | _ | _)
  exact h

@[simp] theorem expression_symbol : (Value.symbol name).Expression P ↔ P (.symbol name) := by
  refine ⟨?_, .symbol⟩
  rintro (_ | h | _)
  exact h

@[simp] theorem expression_list :
    (Value.list items).Expression P ↔ ∀ e ∈ items, e.Expression P := by
  refine ⟨?_, .list⟩
  rintro (_ | _ | h)
  exact h

end expression

theorem Expression.mono {P Q : Token → Prop} {e : Value} (h : e.Expression P)
    (hPQ : ∀ t, P t → Q t) : e.Expression Q := by
  induction h with
  | number h => exact .number (hPQ _ h)
  | symbol h => exact .symbol (hPQ _ h)
  | list _ ih => exact .list ih

mutual

def nesting : Value → Nat
  | .list items => nestingEach items + 1
  | _ => 0

def nestingEach : List Value → Nat
  | [] => 0
  | v :: vs => max (nesting v) (nestingEach vs)

end

theorem nestingEach_le_iff {n : Nat} {vs : List Value} :
    nestingEach vs ≤ n ↔ ∀ v ∈ vs, v.nesting ≤ n := by
  induction vs with
  | nil => simp [nestingEach]
  | cons v vs ih => rw [nestingEach, Nat.max_le, ih, List.forall_mem_cons]

theorem Expression.fault?_eq_none_iff {P : Token → Prop} {e : Value} (h : e.Expression P)
    {style : Style} {room : Nat} :
    e.fault? style room = none ↔ style.listRoom * e.nesting ≤ room := by
  have hpos : ∀ style : Style, 0 < style.listRoom := by
    intro style
    cases style <;> decide
  have hitems : ∀ style : Style, style.ofItems.listRoom = style.listRoom := by
    intro style
    cases style <;> rfl
  induction h generalizing style room with
  | number | symbol => cases style <;> simp [fault?, nesting]
  | @list items _ ih =>
    have heach : (∀ e ∈ items, e.fault? style.ofItems (room - style.listRoom) = none) ↔
        style.listRoom * nestingEach items ≤ room - style.listRoom := by
      rw [Nat.mul_comm, ← Nat.le_div_iff_mul_le (hpos style), nestingEach_le_iff]
      apply forall₂_congr
      intro e he
      refine (ih e he).trans ?_
      rw [hitems, Nat.mul_comm, Nat.le_div_iff_mul_le (hpos style)]
    rw [fault?_list_eq_none_iff, heach, nesting, Nat.mul_succ]
    omega

theorem Expression.fault?_item {P : Token → Prop} {items : List Value}
    (h : (Value.list items).Expression P) {style : Style} {room : Nat}
    (hf : (Value.list items).fault? style room = none) {e : Value} (he : e ∈ items) :
    e.fault? style room = none := by
  have hle : e.nesting ≤ (Value.list items).nesting :=
    Nat.le_succ_of_le (nestingEach_le_iff.mp (Nat.le_refl _) e he)
  rw [h.fault?_eq_none_iff] at hf
  rw [(expression_list.mp h e he).fault?_eq_none_iff]
  exact Nat.le_trans (Nat.mul_le_mul_left _ hle) hf

end Value

namespace Token

def isKnown : Token → Bool
  | .other .. => false
  | _ => true

def isOpening : Token → Bool
  | .opening _ => true
  | _ => false

def isClosing : Token → Bool
  | .closing _ => true
  | _ => false

def opens (ts : List Token) : Nat := ts.countP isOpening

def closes (ts : List Token) : Nat := ts.countP isClosing

def Covered (depth : Nat) (ts : List Token) : Prop := ∀ p, p <+: ts → closes p ≤ opens p + depth

def Shallow (limit depth : Nat) (ts : List Token) : Prop :=
  ∀ p, p <+: ts → opens p + depth ≤ closes p + limit

structure Balanced (ts : List Token) : Prop where
  covered : Covered 0 ts
  even : opens ts = closes ts

def plain : Token → Token
  | .opening _ => .opening "("
  | .closing _ => .closing ")"
  | t => t

section counts

variable (n : Number) (name l : String) (ts us : List Token)

@[simp] theorem opens_number : opens (.number n :: ts) = opens ts := rfl
@[simp] theorem closes_number : closes (.number n :: ts) = closes ts := rfl
@[simp] theorem opens_symbol : opens (.symbol name :: ts) = opens ts := rfl
@[simp] theorem closes_symbol : closes (.symbol name :: ts) = closes ts := rfl
@[simp] theorem opens_opening : opens (.opening l :: ts) = opens ts + 1 :=
  List.countP_cons_of_pos rfl
@[simp] theorem closes_opening : closes (.opening l :: ts) = closes ts := rfl
@[simp] theorem opens_closing : opens (.closing l :: ts) = opens ts := rfl
@[simp] theorem closes_closing : closes (.closing l :: ts) = closes ts + 1 :=
  List.countP_cons_of_pos rfl

@[simp] theorem opens_append : opens (ts ++ us) = opens ts + opens us := List.countP_append
@[simp] theorem closes_append : closes (ts ++ us) = closes ts + closes us := List.countP_append

end counts

section prefixes

variable {depth limit : Nat} {ts : List Token} {t : Token} {l : String}

theorem forall_prefix_cons {Q : List Token → Prop} :
    (∀ p, p <+: t :: ts → Q p) ↔ Q [] ∧ ∀ p, p <+: ts → Q (t :: p) := by
  constructor
  · intro h
    exact ⟨h [] List.nil_prefix, fun p hp => h (t :: p) (List.cons_prefix_cons.mpr ⟨rfl, hp⟩)⟩
  · rintro ⟨hnil, h⟩ p hp
    rcases List.prefix_cons_iff.mp hp with rfl | ⟨q, rfl, hq⟩
    · exact hnil
    · exact h q hq

theorem covered_nil (depth : Nat) : Covered depth [] := by
  intro p hp
  rw [List.prefix_nil.mp hp]
  exact Nat.zero_le _

theorem covered_cons :
    Covered depth (t :: ts) ↔ ∀ p, p <+: ts → closes (t :: p) ≤ opens (t :: p) + depth := by
  rw [Covered, forall_prefix_cons]
  exact and_iff_right (Nat.zero_le _)

theorem covered_number {n : Number} : Covered depth (.number n :: ts) ↔ Covered depth ts :=
  covered_cons

theorem covered_symbol {name : String} : Covered depth (.symbol name :: ts) ↔ Covered depth ts :=
  covered_cons

theorem covered_opening : Covered depth (.opening l :: ts) ↔ Covered (depth + 1) ts := by
  rw [covered_cons]
  apply forall₂_congr
  intro p _
  rw [closes_opening, opens_opening]
  omega

theorem covered_closing : Covered (depth + 1) (.closing l :: ts) ↔ Covered depth ts := by
  rw [covered_cons]
  apply forall₂_congr
  intro p _
  rw [closes_closing, opens_closing]
  omega

theorem not_covered_closing : ¬ Covered 0 (.closing l :: ts) := by
  intro h
  have hone := covered_cons.mp h [] List.nil_prefix
  rw [closes_closing, opens_closing] at hone
  exact absurd hone (by decide)

theorem Covered.mono {d : Nat} (h : Covered depth ts) (hd : depth ≤ d) : Covered d ts := by
  intro p hp
  have hc := h p hp
  omega

theorem shallow_nil : Shallow limit depth [] ↔ depth ≤ limit := by
  constructor
  · intro h
    simpa [opens, closes] using h [] List.nil_prefix
  · intro h p hp
    rw [List.prefix_nil.mp hp]
    simpa [opens, closes] using h

theorem Shallow.le (h : Shallow limit depth ts) : depth ≤ limit := by
  simpa [opens, closes] using h [] List.nil_prefix

theorem shallow_cons : Shallow limit depth (t :: ts) ↔
    depth ≤ limit ∧ ∀ p, p <+: ts → opens (t :: p) + depth ≤ closes (t :: p) + limit := by
  rw [Shallow, forall_prefix_cons]
  simp [opens, closes]

theorem shallow_number {n : Number} :
    Shallow limit depth (.number n :: ts) ↔ Shallow limit depth ts :=
  shallow_cons.trans (and_iff_right_of_imp Shallow.le)

theorem shallow_symbol {name : String} :
    Shallow limit depth (.symbol name :: ts) ↔ Shallow limit depth ts :=
  shallow_cons.trans (and_iff_right_of_imp Shallow.le)

theorem shallow_opening :
    Shallow limit depth (.opening l :: ts) ↔ Shallow limit (depth + 1) ts := by
  have hstep : (∀ p, p <+: ts → opens (.opening l :: p) + depth ≤ closes (.opening l :: p) + limit) ↔
      Shallow limit (depth + 1) ts := by
    apply forall₂_congr
    intro p _
    rw [closes_opening, opens_opening]
    omega
  rw [shallow_cons, hstep]
  exact and_iff_right_of_imp fun h => Nat.le_of_succ_le h.le

theorem shallow_closing : Shallow limit (depth + 1) (.closing l :: ts) ↔
    depth + 1 ≤ limit ∧ Shallow limit depth ts := by
  rw [shallow_cons]
  apply and_congr_right'
  apply forall₂_congr
  intro p _
  rw [closes_closing, opens_closing]
  omega

end prefixes

/-- The tokens are those of the expressions, one after the other, whatever is written for the
parentheses. -/
inductive Spells : List Token → List Value → Prop where
  | nil : Spells [] []
  | number (n : Number) {ts : List Token} {es : List Value} (h : Spells ts es) :
      Spells (.number n :: ts) (.number n :: es)
  | symbol (name : String) {ts : List Token} {es : List Value} (h : Spells ts es) :
      Spells (.symbol name :: ts) (.symbol name :: es)
  | list (l r : String) {inner ts : List Token} {items es : List Value} (hi : Spells inner items)
      (h : Spells ts es) : Spells (.opening l :: (inner ++ .closing r :: ts)) (.list items :: es)

namespace Spells

variable {P : Token → Prop} {ts : List Token} {es : List Value}

theorem tokensEach_eq (h : Spells ts es) : Value.tokensEach es = ts.map plain := by
  induction h with
  | nil => rfl
  | number n _ ih => simp [Value.tokensEach, Value.tokens, plain, ih]
  | symbol name _ ih => simp [Value.tokensEach, Value.tokens, plain, ih]
  | list l r _ _ ihi ih => simp [Value.tokensEach, Value.tokens, plain, ihi, ih]

theorem expression (h : Spells ts es) (ht : ∀ t ∈ ts, P t) : ∀ e ∈ es, e.Expression P := by
  induction h with
  | nil => simp
  | number n _ ih =>
    rw [List.forall_mem_cons] at ht ⊢
    exact ⟨.number ht.1, ih ht.2⟩
  | symbol name _ ih =>
    rw [List.forall_mem_cons] at ht ⊢
    exact ⟨.symbol ht.1, ih ht.2⟩
  | list l r _ _ ihi ih =>
    simp only [List.forall_mem_cons, List.forall_mem_append] at ht ⊢
    obtain ⟨-, hinner, -, hrest⟩ := ht
    exact ⟨.list (ihi hinner), ih hrest⟩

theorem cons {e : Value} (he : e.Expression P) (h : Spells ts es) :
    Spells (e.tokens ++ ts) (e :: es) := by
  induction he generalizing ts es with
  | number => exact .number _ h
  | symbol => exact .symbol _ h
  | @list items _ ih =>
    have hitems : Spells (Value.tokensEach items) items := by
      induction items with
      | nil => exact .nil
      | cons a as iha =>
        have has := iha (fun e he => by simp_all) fun e he => ih e (List.mem_cons_of_mem a he)
        exact ih a (List.mem_cons_self ..) has
    simpa [Value.tokens] using Spells.list "(" ")" hitems h

theorem of_expressions (h : ∀ e ∈ es, e.Expression P) : Spells (Value.tokensEach es) es := by
  induction es with
  | nil => exact .nil
  | cons e es ih =>
    rw [List.forall_mem_cons] at h
    exact (ih h.2).cons h.1

theorem covered_iff (h : Spells ts es) {depth : Nat} {rest : List Token} :
    Covered depth (ts ++ rest) ↔ Covered depth rest := by
  induction h generalizing depth rest with
  | nil => rfl
  | number n _ ih => exact covered_number.trans ih
  | symbol name _ ih => exact covered_symbol.trans ih
  | list l r _ _ ihi ih =>
    simp only [List.cons_append, List.append_assoc, covered_opening, ihi, covered_closing, ih]

theorem append {us : List Token} {fs : List Value} (h : Spells ts es) (h' : Spells us fs) :
    Spells (ts ++ us) (es ++ fs) := by
  induction h with
  | nil => exact h'
  | number n _ ih => exact ih.number n
  | symbol name _ ih => exact ih.symbol name
  | list l r hi _ _ ih =>
    rw [List.cons_append, List.append_assoc, List.cons_append]
    exact .list l r hi ih

theorem shallow_append (h : Spells ts es) {limit depth : Nat} {rest : List Token} :
    Shallow limit depth (ts ++ rest) ↔ Shallow limit depth ts ∧ Shallow limit depth rest := by
  induction h generalizing depth rest with
  | nil =>
    rw [List.nil_append, shallow_nil]
    exact (and_iff_right_of_imp Shallow.le).symm
  | number n _ ih => rw [List.cons_append, shallow_number, shallow_number, ih]
  | symbol name _ ih => rw [List.cons_append, shallow_symbol, shallow_symbol, ih]
  | list l r _ _ ihi ih =>
    simp only [List.cons_append, List.append_assoc, shallow_opening, ihi, shallow_closing, ih,
      and_assoc]

theorem shallow_iff (h : Spells ts es) {limit depth : Nat} :
    Shallow limit depth ts ↔ Value.nestingEach es + depth ≤ limit := by
  induction h generalizing depth with
  | nil => rw [shallow_nil, Value.nestingEach, Nat.zero_add]
  | number n _ ih => simp [shallow_number, ih, Value.nestingEach, Value.nesting]
  | symbol name _ ih => simp [shallow_symbol, ih, Value.nestingEach, Value.nesting]
  | list l r hi _ ihi ih =>
    rw [shallow_opening, hi.shallow_append, ihi, shallow_closing, ih, Value.nestingEach,
      Value.nesting]
    omega

theorem even (h : Spells ts es) : opens ts = closes ts := by
  induction h with
  | nil => rfl
  | number n _ ih => rw [opens_number, closes_number, ih]
  | symbol name _ ih => rw [opens_symbol, closes_symbol, ih]
  | list l r _ _ ihi ih => simp [ihi, ih, Nat.add_assoc]

theorem balanced (h : Spells ts es) : Balanced ts where
  covered := by
    have hc : Covered 0 (ts ++ []) := h.covered_iff.mpr (covered_nil 0)
    rwa [List.append_nil] at hc
  even := h.even

end Spells

/-- Tokens that begin no expression to the end of it, and what is wrong with them. -/
inductive Stops : List Token → Option ReadFault → Prop where
  | nil : Stops [] none
  | closing (l : String) (ts : List Token) : Stops (.closing l :: ts) (some .unexpectedClose)
  | opening (l : String) {ts : List Token} (h : Covered 0 ts) :
      Stops (.opening l :: ts) (some .unbalanced)

namespace Stops

variable {front rest : List Token} {es : List Value} {fault : Option ReadFault}

theorem covered_of_opening {l : String} {after : List Token} (h : Covered 0 after) :
    Covered 0 (.opening l :: after) :=
  covered_opening.mpr (h.mono (Nat.zero_le 1))

theorem of_balanced (h : Stops rest fault) (hs : Spells front es) (hb : Balanced (front ++ rest)) :
    rest = [] ∧ fault = none := by
  have heven := hb.even
  rw [opens_append, closes_append, hs.even] at heven
  cases h with
  | nil => exact ⟨rfl, rfl⟩
  | closing l after => exact absurd (hs.covered_iff.mp hb.covered) not_covered_closing
  | opening l hafter =>
    have hle := hafter _ List.prefix_rfl
    rw [opens_opening, closes_opening] at heven
    omega

theorem of_not_covered (h : Stops rest fault) (hs : Spells front es)
    (hc : ¬ Covered 0 (front ++ rest)) :
    ∃ l after, rest = .closing l :: after ∧ fault = some .unexpectedClose := by
  rw [hs.covered_iff] at hc
  cases h with
  | nil => exact absurd (covered_nil 0) hc
  | closing l after => exact ⟨l, after, rfl, rfl⟩
  | opening l hafter => exact absurd (covered_of_opening hafter) hc

theorem of_odd (h : Stops rest fault) (hs : Spells front es) (hc : Covered 0 (front ++ rest))
    (hne : opens (front ++ rest) ≠ closes (front ++ rest)) :
    ∃ l after, rest = .opening l :: after ∧ Covered 0 after ∧ fault = some .unbalanced := by
  cases h with
  | nil =>
    rw [List.append_nil] at hne
    exact absurd hs.even hne
  | closing l after => exact absurd (hs.covered_iff.mp hc) not_covered_closing
  | opening l hafter => exact ⟨l, _, rfl, hafter, rfl⟩

end Stops

theorem exists_spells (ts : List Token) (h : ∀ t ∈ ts, t.isKnown) :
    ∃ front es rest fault, ts = front ++ rest ∧ Spells front es ∧ Stops rest fault := by
  -- the tokens left after a closed list are no tail of the row, so the induction is on length
  induction hn : ts.length using Nat.strongRecOn generalizing ts with
  | ind n ih =>
    subst hn
    cases ts with
    | nil => exact ⟨[], [], [], none, rfl, .nil, .nil⟩
    | cons t ts =>
      rw [List.forall_mem_cons] at h
      obtain ⟨front, es, rest, fault, rfl, hs, hstop⟩ := ih ts.length (Nat.lt_succ_self _) ts h.2 rfl
      cases t with
      | number n => exact ⟨_, _, rest, fault, rfl, hs.number n, hstop⟩
      | symbol name => exact ⟨_, _, rest, fault, rfl, hs.symbol name, hstop⟩
      | closing l => exact ⟨[], [], _, _, rfl, .nil, .closing l _⟩
      | other kind lexeme => simp [isKnown] at h
      | opening l =>
        cases hstop with
        | nil =>
          have hcovered : Covered 0 (front ++ []) := hs.covered_iff.mpr (covered_nil 0)
          exact ⟨[], [], _, _, rfl, .nil, .opening l hcovered⟩
        | opening r hr =>
          have hcovered : Covered 0 (front ++ .opening r :: _) :=
            hs.covered_iff.mpr (Stops.covered_of_opening hr)
          exact ⟨[], [], _, _, rfl, .nil, .opening l hcovered⟩
        | closing r us =>
          have hknown : ∀ t ∈ us, t.isKnown := by
            intro t ht
            exact h.2 t (by simp [ht])
          have hlt : us.length < (Token.opening l :: (front ++ .closing r :: us)).length := by
            simp only [List.length_cons, List.length_append]
            omega
          obtain ⟨front', es', rest, fault, rfl, hs', hstop⟩ := ih us.length hlt us hknown rfl
          exact ⟨_, _, rest, fault, by simp, hs.list l r hs', hstop⟩

theorem balanced_iff_spells {ts : List Token} (h : ∀ t ∈ ts, t.isKnown) :
    Balanced ts ↔ ∃ es, Spells ts es := by
  constructor
  · intro hb
    obtain ⟨front, es, rest, fault, rfl, hs, hstop⟩ := exists_spells ts h
    obtain ⟨rfl, -⟩ := hstop.of_balanced hs hb
    exact ⟨es, by rwa [List.append_nil]⟩
  · rintro ⟨es, hs⟩
    exact hs.balanced

end Token

end ScopedLisp

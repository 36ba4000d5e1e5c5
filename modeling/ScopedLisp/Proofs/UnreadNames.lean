import ScopedLisp.Proofs.Visibility

namespace ScopedLisp

namespace Value

theorem reads_iff {a : String} {e : Value} :
    e.Reads a ↔ e = .symbol a ∨ ∃ p ∈ e.searched, p.Reads a := by
  constructor
  · rintro (_ | ⟨hp, h⟩)
    · exact .inl rfl
    · exact .inr ⟨_, hp, h⟩
  · rintro (rfl | ⟨p, hp, h⟩)
    · exact .symbol
    · exact .part hp h

section reads

variable {a name head : String} {n : Number} {es : List Value}

@[simp] theorem reads_symbol : (Value.symbol name).Reads a ↔ name = a := by
  rw [reads_iff]
  simp [searched]

@[simp] theorem not_reads_number : ¬ (Value.number n).Reads a := by
  rw [reads_iff]
  simp [searched]

theorem reads_form {f : Form} (h : Form.ofName? head = some f) :
    (Value.list (.symbol head :: es)).Reads a ↔ ∃ p ∈ f.searched es, p.Reads a := by
  rw [reads_iff, searched_form h]
  simp

end reads

end Value

namespace Store

structure DifferOn (S : String → Prop) (s t : Store) : Prop where
  events : t.events = s.events
  shape : ∀ i, SameOuter s t i
  bound : ∀ i a, ¬ S a → t.get? i a = s.get? i a

/-- No function that is bound to another name reads one of the names in its body. -/
def Ignores (s : Store) (S : String → Prop) : Prop :=
  ∀ i a v, ¬ S a → s.get? i a = some v →
    ∀ params body home, (Value.closure params body home).Within v →
      ∀ b, S b → ¬ (Value.list body).Reads b

theorem differOn_set {S : String → Prop} (s : Store) (i : FrameId) {a : String} (ha : S a)
    (v : Value) : s.DifferOn S (s.set i a v) where
  events := rfl
  shape := sameOuter_set s i a v
  bound j b hb := by
    rw [get?_set_eq, if_neg]
    rintro ⟨-, rfl, -⟩
    exact hb ha

end Store

def View.without (S : String → Prop) (size : Nat) : View where
  frames _ := True
  names a := ¬ S a
  whole i := size ≤ i

section without

variable {S : String → Prop} {s t : Store}

theorem View.covers_without {size : Nat} {e : Value} :
    (without S size).Covers e ↔ ∀ a, S a → ¬ e.Reads a :=
  ⟨fun h a ha hread => h a hread ha, fun h a hread ha => h a ha hread⟩

theorem Store.DifferOn.agree (h : s.DifferOn S t) (hs : s.Ignores S) :
    (View.without S s.frames.size).Agree s t where
  events := h.events
  shape := h.shape
  outward _ _ _ _ := trivial
  bound i a _ ha := h.bound i a ha
  -- what is bound to one of the names is never looked up, so only other functions matter
  admits i a v _ ha hv params body home hw :=
    ⟨fun _ _ => trivial, View.covers_without.mpr (hs i a v ha hv params body home hw)⟩
  whole i hi := by
    have hn := Nat.not_lt.mpr hi
    rw [Array.getElem?_eq_none hi, Array.getElem?_eq_none]
    exact Nat.not_lt.mp fun ht => hn ((h.shape i).lt_size_iff.mp ht)
  fresh i hi := ⟨trivial, hi⟩

theorem View.Agree.differOn {size : Nat} (h : (without S size).Agree s t) : s.DifferOn S t where
  events := h.events
  shape := h.shape
  bound i a ha := h.bound i a trivial ha

end without

/-- In stores that differ on unread names only, an expression has the same outcome, and the stores
still differ on these names only. So binding one of the names changes nothing, be it the name of a
form that the expression uses. -/
theorem evaluate_ignores_unread (rule : Except UnknownScoping Scoping) (room : Nat)
    (S : String → Prop) (i : FrameId) (e : Value) (s : Store) (he : ∀ a, S a → ¬ e.Reads a)
    (hs : s.Ignores S) :
    let r := evaluate rule room i e s
    (∀ t, s.DifferOn S t →
      let r' := evaluate rule room i e t
      r'.1 = r.1 ∧ r.2.DifferOn S r'.2) ∧
    ∀ j a v, S a →
      let r' := evaluate rule room i e (s.set j a v)
      r'.1 = r.1 ∧ r.2.DifferOn S r'.2 := by
  intro r
  have hrun : ∀ t, s.DifferOn S t →
      (evaluate rule room i e t).1 = r.1 ∧ r.2.DifferOn S (evaluate rule room i e t).2 := by
    intro t h
    have hends := evaluate_respects (View.without S s.frames.size) rule room i e trivial
      (View.covers_without.mpr he) s t (h.agree hs)
    unfold r
    generalize evaluate rule room i e s = p, evaluate rule room i e t = q at hends
    cases hends with
    | value h _ => exact ⟨rfl, h.differOn⟩
    | fault fault h => exact ⟨rfl, h.differOn⟩
  refine ⟨hrun, ?_⟩
  intro j a v ha
  exact hrun _ (s.differOn_set j ha v)

theorem evaluate_ignores_unread_forms :
    let S : String → Prop := (· ∈ ["+", "let"])
    let one : Value := .number ⟨0x3ff0000000000000⟩
    let e : Value := .list [.symbol "let", .symbol "let", .list [.symbol "+", one, .symbol "x"]]
    let s : Store := ⟨#[⟨none, [("x", one)]⟩], none⟩
    (∀ a, S a → ¬ e.Reads a) ∧ s.Ignores S ∧
      (evaluate (.ok .dynamic) evaluationRoom 0 e (s.set 0 "+" one)).1 =
        (evaluate (.ok .dynamic) evaluationRoom 0 e s).1 := by
  intro S one e s
  have hlet : Form.ofName? "let" = some .definition := by decide +kernel
  have hadd : Form.ofName? "+" = some (.operator .add) := by decide +kernel
  have he : ∀ a, S a → ¬ e.Reads a := by
    intro a ha
    simp only [e, Value.reads_form hlet, Form.searched, List.mem_singleton, exists_eq_left,
      Value.reads_form hadd]
    rintro ⟨p, hp, hread⟩
    rcases List.mem_pair.mp hp with rfl | rfl
    · exact Value.not_reads_number hread
    · rw [Value.reads_symbol] at hread
      subst hread
      exact absurd ha (by decide)
  have hs : s.Ignores S := by
    intro i a v _ hv params body home hw
    obtain ⟨f, hf, hb⟩ := Option.bind_eq_some_iff.mp hv
    obtain rfl : f = ⟨none, [("x", one)]⟩ := by simpa [s] using Array.mem_of_getElem? hf
    obtain rfl : v = one := by
      rw [Frame.get?, Named.lookup_cons] at hb
      split at hb
      · exact (Option.some.inj hb).symm
      · cases hb
    unfold one at hw
    cases hw
  exact ⟨he, hs, ((evaluate_ignores_unread (.ok .dynamic) evaluationRoom S 0 e s he hs).2 0 "+" one
    (by decide)).1⟩

example : (Value.list [.symbol "cond", .list [.symbol "+", .nil], .nil]).Reads "+" := by
  rw [Value.reads_form (f := .choice) (by decide +kernel)]
  exact ⟨.symbol "+", by simp [Form.searched, Form.branches], .symbol⟩

end ScopedLisp

import ScopedLisp.Proofs.Lexemes
import ScopedLisp.Proofs.ReadingBack
import ScopedLisp.Proofs.Sessions

namespace ScopedLisp

namespace Text

def OneLine (s : String) : Prop := '\n' ∉ s.toList

instance (s : String) : Decidable (OneLine s) := inferInstanceAs (Decidable ('\n' ∉ s.toList))

@[simp] theorem oneLine_append {s t : String} : OneLine (s ++ t) ↔ OneLine s ∧ OneLine t := by
  simp [OneLine, not_or]

theorem oneLine_ofList {cs : List Char} : OneLine (String.ofList cs) ↔ '\n' ∉ cs := by
  simp [OneLine]

theorem oneLine_joinWith {separator : String} (hs : OneLine separator) {ss : List String}
    (h : ∀ s ∈ ss, OneLine s) : OneLine (joinWith separator ss) := by
  fun_induction joinWith separator ss with
  | case1 => decide
  | case2 s => exact h s (by simp)
  | case3 s t rest ih =>
    rw [List.forall_mem_cons] at h
    rw [oneLine_append, oneLine_append]
    exact ⟨⟨h.1, hs⟩, ih h.2⟩

theorem digitChar_ne {d : Nat} (h : d < 16) : d.digitChar ≠ '\n' := by
  revert d
  decide

theorem not_mem_toDigits {base : Nat} (hb : 1 < base) (hle : base ≤ 16) (n : Nat) :
    '\n' ∉ Nat.toDigits base n := by
  induction n using Nat.strongRecOn with
  | ind n ih =>
    by_cases h : n < base
    · rw [Nat.toDigits_of_lt_base h, List.mem_singleton]
      exact (digitChar_ne (by omega)).symm
    · have hmod := Nat.mod_lt n (Nat.zero_lt_of_lt hb)
      rw [Nat.toDigits_of_base_le hb (Nat.le_of_not_lt h), List.mem_append, List.mem_singleton]
      rintro (hm | hm)
      · exact ih _ (Nat.div_lt_self (by omega) hb) hm
      · exact digitChar_ne (by omega) hm.symm

theorem not_mem_hex (width n : Nat) : '\n' ∉ hex width n := by
  unfold hex
  rw [List.mem_append]
  rintro (h | h)
  · exact absurd (List.eq_of_mem_replicate h) (by decide)
  · exact not_mem_toDigits (by decide) (by decide) n h

theorem not_mem_escape {quote : Char} (hq : quote ≠ '\n') (c : Char) : '\n' ∉ escape quote c := by
  have hhex : ∀ mark width, mark ≠ '\n' → '\n' ∉ '\\' :: mark :: hex width c.toNat := by
    intro mark width hmark h
    rw [List.mem_cons, List.mem_cons] at h
    rcases h with h | h | h
    · exact absurd h (by decide)
    · exact hmark h.symm
    · exact not_mem_hex _ _ h
  unfold escape
  split
  · next h =>
    rw [List.mem_pair]
    rintro (hm | rfl)
    · exact absurd hm (by decide)
    · rw [Bool.or_eq_true, decide_eq_true_eq, decide_eq_true_eq] at h
      rcases h with h | h
      · exact hq h.symm
      · exact absurd h (by decide)
  · next h =>
    split
    · decide
    · next hn =>
      repeat' split
      · decide
      · decide
      · rw [List.mem_singleton]
        exact Ne.symm hn
      · exact hhex 'x' 2 (by decide)
      · exact hhex 'u' 4 (by decide)
      · exact hhex 'U' 8 (by decide)

theorem oneLine_quoted (s : String) : OneLine (quoted s) := by
  have hquote : quoteFor s.toList ≠ '\n' := by
    unfold quoteFor
    split <;> decide
  rw [quoted, oneLine_ofList]
  intro h
  rw [List.mem_append, List.mem_cons, List.mem_singleton, List.mem_flatMap] at h
  rcases h with (h | ⟨c, -, h⟩) | h
  · exact hquote h.symm
  · exact not_mem_escape hquote c h
  · exact hquote h.symm

theorem oneLine_natText (n : Nat) : OneLine (Fault.natText n) :=
  oneLine_ofList.mpr (not_mem_toDigits (by decide) (by decide) n)

end Text

open Text

namespace Number

theorem not_mem_text {n : Numeral} (hn : n.Proper) : '\n' ∉ n.text := by
  intro h
  exact absurd (hn.isSymbolChar_text _ h) (by decide +kernel)

theorem oneLine_display (n : Number) : OneLine n.display := by
  rw [display, oneLine_ofList]
  unfold displayChars
  repeat' split
  · decide
  · decide
  · decide
  · exact not_mem_text n.proper_numeral

theorem not_mem_scientific {digits : List Char} (hd : '\n' ∉ digits) (exponent : Int) :
    '\n' ∉ scientific digits exponent := by
  unfold scientific
  simp only [List.mem_append, not_or]
  refine ⟨⟨⟨?_, ?_⟩, ?_⟩, not_mem_toDigits (by decide) (by decide) _⟩
  · split
    · simp only [List.mem_cons, not_or] at hd ⊢
      exact ⟨hd.1, by decide, hd.2⟩
    · exact hd
  · split <;> decide
  · intro h
    exact absurd (List.eq_of_mem_replicate h) (by decide)

theorem oneLine_detailed (n : Number) : OneLine n.detailed := by
  rw [detailed, oneLine_ofList]
  unfold detailedChars
  split
  · decide
  · split
    · exact oneLine_ofList.mp n.oneLine_display
    · dsimp only
      split
      · apply not_mem_text
        refine ⟨n.proper_numeral.ne_nil, n.proper_numeral.whole, ?_⟩
        dsimp only
        split
        · exact List.all_eq_true.mp (by decide +kernel)
        · exact n.proper_numeral.places
      · rw [List.mem_append]
        rintro (h | h)
        · revert h
          split <;> decide
        · exact not_mem_scientific (not_mem_toDigits (by decide) (by decide) _) _ h

end Number

theorem Operator.oneLine_name (op : Operator) : OneLine op.name := by
  cases op <;> decide +kernel

namespace Value

inductive Tidy : Value → Prop where
  | number (n : Number) : Tidy (.number n)
  | nil : Tidy .nil
  | symbol {name : String} (h : OneLine name) : Tidy (.symbol name)
  | list {items : List Value} (h : ∀ v ∈ items, Tidy v) : Tidy (.list items)
  | closure {params body : List Value} {home : Option FrameId} (hp : ∀ p ∈ params, Tidy p)
      (hb : ∀ e ∈ body, Tidy e) : Tidy (.closure params body home)

structure Shown (v : Value) : Prop where
  display : OneLine v.display
  plain : OneLine v.plain
  detailed : OneLine v.detailed

theorem oneLine_each {vs : List Value} (h : ∀ v ∈ vs, v.Shown) {separator : String}
    (hs : OneLine separator) : OneLine (joinWith separator (displayEach vs)) ∧
      OneLine (joinWith separator (plainEach vs)) ∧
      OneLine (joinWith separator (detailedEach vs)) := by
  rw [displayEach_eq_map, plainEach_eq_map, detailedEach_eq_map]
  refine ⟨oneLine_joinWith hs ?_, oneLine_joinWith hs ?_, oneLine_joinWith hs ?_⟩
  · exact List.forall_mem_map.mpr fun v hv => (h v hv).display
  · exact List.forall_mem_map.mpr fun v hv => (h v hv).plain
  · exact List.forall_mem_map.mpr fun v hv => (h v hv).detailed

theorem Tidy.shown {v : Value} (h : v.Tidy) : v.Shown := by
  have hcomma : OneLine ", " := by decide
  have hspace : OneLine " " := by decide
  induction h with
  | number n => exact ⟨n.oneLine_display, n.oneLine_detailed, n.oneLine_detailed⟩
  | nil => exact ⟨by decide, by decide, by decide⟩
  | @symbol name h =>
    refine ⟨h, h, ?_⟩
    simp only [detailed, oneLine_append]
    exact ⟨⟨by decide, oneLine_quoted name⟩, by decide⟩
  | list _ ih =>
    have hdetailed := (oneLine_each ih hcomma).2.2
    constructor
    · simp only [display, oneLine_append]
      exact ⟨⟨by decide, (oneLine_each ih hspace).1⟩, by decide⟩
    · simp only [plain, oneLine_append]
      exact ⟨⟨by decide, hdetailed⟩, by decide⟩
    · simp only [detailed, oneLine_append]
      exact ⟨⟨by decide, hdetailed⟩, by decide⟩
  | @closure params body home _ _ ihp ihb =>
    have hdisplay : OneLine (display (.closure params body home)) := by
      simp only [display, oneLine_append]
      exact ⟨⟨⟨⟨by decide, (oneLine_each ihp hspace).2.1⟩, by decide⟩,
        (oneLine_each ihb hspace).1⟩, by decide⟩
    refine ⟨hdisplay, plain_closure params body home ▸ hdisplay, ?_⟩
    simp only [detailed, oneLine_append]
    exact ⟨⟨⟨⟨by decide, (oneLine_each ihp hcomma).2.2⟩, by decide⟩,
      (oneLine_each ihb hcomma).2.2⟩, by decide⟩

theorem Expression.tidy {e : Value} (h : e.Expression Token.Lexed) : e.Tidy := by
  induction h with
  | number => exact .number _
  | symbol h =>
    cases h with
    | symbol hname =>
      apply Tidy.symbol
      rw [oneLine_ofList]
      intro hm
      exact absurd (hname.symbol _ hm) (by decide +kernel)
  | list _ ih => exact .list ih

end Value

theorem Value.Tidy.oneLine_after {v : Value} (h : v.Tidy) {before : String}
    (hb : OneLine before) : OneLine (before ++ v.plain) :=
  oneLine_append.mpr ⟨hb, h.shown.plain⟩

namespace Invariant

def tidy : Invariant where
  Code := Value.Tidy
  Good := Value.Tidy
  Fit fault := OneLine fault.message

theorem tidy_bare {fault : Fault} (h : fault.isBare) : tidy.Fit fault := by
  cases fault with
  | tooFewOperands op count =>
    show OneLine (op.name ++ _ ++ Fault.natText count)
    simp only [oneLine_append]
    exact ⟨⟨op.oneLine_name, by decide +kernel⟩, oneLine_natText count⟩
  | negationArity count =>
    show OneLine (_ ++ Fault.natText count)
    exact oneLine_append.mpr ⟨by decide +kernel, oneLine_natText count⟩
  | definitionArity | functionArity | noDefault | depthExceeded =>
    show OneLine _
    decide +kernel
  | _ => exact absurd h Bool.false_ne_true

theorem tidy_lawful (rule : Except UnknownScoping Scoping) : tidy.Lawful rule where
  items he := by
    cases he with
    | list h => exact h
  number := .number
  nil := .nil
  list h _ := .list h
  closure hp hb := by
    cases hb with
    | list hb => exact .closure (fun p hmem => (hp p hmem).2) hb
  body h := by
    cases h with
    | closure _ hb => exact .list hb
  parameter h hmem := by
    cases h with
    | closure hp _ =>
      constructor
      · right
        show OneLine (_ ++ Value.plain _ ++ _)
        simp only [oneLine_append]
        exact ⟨⟨by decide +kernel, (hp _ hmem).shown.plain⟩, by decide +kernel⟩
      · intro name expected count hname
        cases hname with
        | symbol hname =>
          show OneLine (name ++ _ ++ Fault.natText expected ++ _ ++ Fault.natText count ++ _ ++
            Value.plain _)
          simp only [oneLine_append]
          exact ⟨⟨⟨⟨⟨⟨hname, by decide +kernel⟩, oneLine_natText expected⟩, by decide +kernel⟩,
            oneLine_natText count⟩, by decide +kernel⟩, (hp _ hmem).shown.plain⟩
  bare := tidy_bare
  unknownScoping {fault} _ := by
    show OneLine (_ ++ quoted fault.mode ++ _)
    simp only [oneLine_append]
    exact ⟨⟨by decide +kernel, oneLine_quoted fault.mode⟩, by decide +kernel⟩
  unbound h := h.oneLine_after (by decide +kernel)
  notClosure h := h.oneLine_after (by decide +kernel)
  operand op h := by
    show OneLine (_ ++ op.name ++ _ ++ Value.plain _)
    simp only [oneLine_append]
    exact ⟨⟨⟨by decide +kernel, op.oneLine_name⟩, by decide +kernel⟩, h.shown.plain⟩
  negand h := h.oneLine_after (by decide +kernel)
  target h := h.oneLine_after (by decide +kernel)
  parameters h := h.oneLine_after (by decide +kernel)
  notParameter h := h.oneLine_after (by decide +kernel)
  notBody h := h.oneLine_after (by decide +kernel)
  clause h := h.oneLine_after (by decide +kernel)

end Invariant

theorem Fault.oneLine_reported {fault : Fault} (h : OneLine fault.message) :
    OneLine fault.reported.message := by
  unfold Fault.reported
  split
  · exact h
  · decide +kernel
  · decide +kernel

theorem Reader.oneLine_fault {source : String} {fault : ReadFault}
    (h : read source = .error fault) : OneLine fault.message := by
  rcases read_fault (.inr h) with rfl | rfl | rfl <;> decide +kernel

theorem evaluateSource_tidy (rule : Except UnknownScoping Scoping) (source : String) (i : FrameId)
    {s : Store} (hs : s.All Value.Tidy) :
    let r := evaluateSource rule source i s
    r.2.All Value.Tidy ∧ (∀ v, r.1 = .ok v → v.Tidy) ∧
      ∀ failure, r.1 = .error failure → OneLine failure.message := by
  obtain ⟨ht, hvalue, hread, hfault⟩ :=
    evaluateSource_ends (Invariant.tidy_lawful rule) (fun _ => Value.Expression.tidy) source i hs
  refine ⟨ht, hvalue, ?_⟩
  intro failure h
  cases failure with
  | read fault => exact Reader.oneLine_fault (hread fault h)
  | evaluation fault =>
    obtain ⟨origin, horigin, rfl⟩ := hfault fault h
    exact Fault.oneLine_reported horigin
  | unrecorded => decide +kernel

theorem Session.after_tidy {s : Session} (hs : s.store.All Value.Tidy) (commands : List Command) :
    (s.after commands).store.All Value.Tidy := by
  refine Session.after_keeps ?_ ?_ hs commands
  · exact fun _ h => h.allocate none
  · exact fun rule source i _ h => (evaluateSource_tidy rule source i h).1

theorem Session.starting_tidy (events : Option (List Event)) :
    (starting events).store.All Value.Tidy := by
  intro f hf
  simp [starting, Store.empty] at hf

end ScopedLisp

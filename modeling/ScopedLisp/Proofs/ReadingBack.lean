import ScopedLisp.Proofs.Likeness
import ScopedLisp.Proofs.Parsing

namespace ScopedLisp

open Text Token

namespace Numeral

theorem isDigit_of_latin {c : Char} (h : c.isDigit = true) : isDigit c = true := by
  have hrange : 48 ≤ c.toNat ∧ c.toNat < 58 := by
    simp only [Char.isDigit, Bool.and_eq_true, decide_eq_true_eq, UInt32.le_iff_toNat_le] at h
    exact ⟨h.1, Nat.lt_succ_of_le h.2⟩
  rw [isDigit, digitValue?, Option.isSome_map, List.find?_isSome]
  exact ⟨48, by decide, by simpa using hrange⟩

theorem latin_lastDigits (count n : Nat) : ∀ c ∈ lastDigits count n, c.isDigit = true := by
  induction count generalizing n with
  | zero => simp [lastDigits]
  | succ count ih =>
    rw [lastDigits, List.forall_mem_append, List.forall_mem_singleton, Nat.isDigit_digitChar]
    exact ⟨ih _, decide_eq_true (Nat.mod_lt _ (by decide))⟩

theorem latin_toDigits (n : Nat) : ∀ c ∈ Nat.toDigits 10 n, c.isDigit = true :=
  fun _ => Nat.isDigit_of_mem_toDigits (by decide) (by decide)

theorem proper_ofDecimal (s : Bool) (d : Decimal) : (ofDecimal s d).Proper where
  ne_nil := Nat.toDigits_ne_nil
  whole c hc := isDigit_of_latin (latin_toDigits _ c hc)
  places c hc := isDigit_of_latin (latin_lastDigits _ _ c hc)

theorem rank_value (n : Numeral) : n.value.rank ≤ Number.topRank := by
  have hlt : Number.topRank < Number.signWeight := by decide +kernel
  rw [value, Number.rank_ofRank _ (Nat.lt_of_le_of_lt (Number.nearestRank_le ..) hlt)]
  exact Number.nearestRank_le ..

end Numeral

namespace Number

theorem proper_numeral (n : Number) : n.numeral.Proper := Numeral.proper_ofDecimal _ _

theorem ordinary_of_finite {n : Number} (h : n.isFinite = true) :
    n.isNaN = false ∧ n.isInfinite = false := by
  simp only [isFinite, decide_eq_true_eq] at h
  rw [isNaN, isInfinite, decide_eq_false_iff_not, decide_eq_false_iff_not]
  omega

theorem display_finite {n : Number} (h : n.isFinite = true) :
    n.display = String.ofList n.numeral.text := by
  obtain ⟨hnan, hinf⟩ := ordinary_of_finite h
  simp [display, displayChars, hnan, hinf]

theorem isName_display {n : Number} (h : n.isInfinite = true) : IsName n.display.toList := by
  have hnan : n.isNaN = false := by
    simp only [isInfinite, isNaN, decide_eq_true_eq, decide_eq_false_iff_not] at h ⊢
    omega
  have hname : IsName ['i', 'n', 'f'] ∧ IsName ['-', 'i', 'n', 'f'] := by
    constructor <;>
      exact ⟨by decide, List.all_eq_true.mp (by decide +kernel), by decide +kernel⟩
  simp only [display, displayChars, hnan, h, Bool.false_eq_true, if_false, if_true,
    String.toList_ofList]
  split
  · exact hname.2
  · exact hname.1

end Number

namespace Value

mutual

def reread : Value → Value
  | .number n => if n.isInfinite then .symbol n.display else .number n
  | .list items => .list (rereadEach items)
  | v => v

def rereadEach : List Value → List Value
  | [] => []
  | v :: vs => reread v :: rereadEach vs

end

theorem rereadEach_eq_map (vs : List Value) : rereadEach vs = vs.map reread := by
  induction vs with
  | nil => rfl
  | cons v vs ih => simp [rereadEach, ih]

theorem display_reread (v : Value) : v.reread.display = v.display := by
  induction v using Value.induct with
  | number n =>
    rw [reread]
    split
    · rw [display, display]
    · rfl
  | list items ih =>
    have hmap : items.map (display ∘ reread) = items.map display := List.map_congr_left ih
    simp only [reread, display, rereadEach_eq_map, displayEach_eq_map, List.map_map, hmap]
  | symbol | nil | closure | integer | text => rfl

theorem writtenAlike_reread (v : Value) : WrittenAlike v.reread v := by
  induction v using Value.induct with
  | number n =>
    intro style room
    rw [reread]
    split <;> cases style <;> rfl
  | list items ih =>
    rw [reread, rereadEach_eq_map]
    exact writtenAlike_list (List.forall₂_map_left_iff.mpr (List.forall₂_same.mpr ih))
  | symbol | nil | closure | integer | text => exact fun _ _ => rfl

theorem display?_eq_ok_iff {v : Value} {text : String} :
    v.display? = .ok text ↔ v.fault? .display writingRoom = none ∧ v.display = text := by
  unfold display?
  cases v.fault? .display writingRoom <;> simp

theorem display?_reread (v : Value) : v.reread.display? = v.display? := by
  rw [display?, display?, writtenAlike_reread, display_reread]

namespace Expression

variable {P : Token → Prop} {e : Value}

theorem expression_reread (h : e.Expression P) : e.reread.Expression fun _ => True := by
  induction h with
  | @number n _ =>
    rw [Value.reread]
    split
    · exact .symbol trivial
    · exact .number trivial
  | symbol => exact .symbol trivial
  | list _ ih =>
    rw [Value.reread, rereadEach_eq_map]
    apply Expression.list
    rwa [List.forall_mem_map]

theorem reread_eq (h : e.Expression P) (hP : ∀ n, P (.number n) → n.isInfinite = false) :
    e.reread = e := by
  induction h with
  | number hn => simp [Value.reread, hP _ hn]
  | symbol => rfl
  | @list items _ ih =>
    rw [Value.reread, rereadEach_eq_map, List.map_congr_left ih, List.map_id']

end Expression

theorem lex_number {n : Number} (h : Lexed (.number n)) {rest : List Char} (hr : Ends rest) :
    lex (n.display.toList ++ rest) = (Value.number n).reread.tokens ++ lex rest := by
  have hle : n.rank ≤ Number.topRank := by
    cases h
    exact Numeral.rank_value _
  rw [reread]
  split
  · next hinf =>
    rw [(Number.isName_display hinf).lex_append hr, String.ofList_toList]
    rfl
  · next hinf =>
    have hfinite : n.isFinite = true := by
      simp only [Number.isInfinite, Number.isFinite, decide_eq_true_eq] at hinf ⊢
      omega
    rw [Number.display_finite hfinite, String.toList_ofList,
      lex_numeral_append (Number.proper_numeral n) hr, Number.value_numeral hfinite]
    rfl

theorem lex_items {items : List Value}
    (h : ∀ e ∈ items, ∀ rest, Ends rest →
      lex (e.display.toList ++ rest) = e.reread.tokens ++ lex rest) {rest : List Char}
    (hr : Ends rest) :
    lex ((joinWith " " (displayEach items)).toList ++ rest) =
      tokensEach (rereadEach items) ++ lex rest := by
  induction items with
  | nil => rfl
  | cons e es ih =>
    rw [List.forall_mem_cons] at h
    have hes := ih h.2
    cases es with
    | nil => simpa [displayEach, joinWith, rereadEach, tokensEach] using h.1 rest hr
    | cons f fs =>
      have hspace : isSpace ' ' = true := by decide +kernel
      have hjoin : (joinWith " " (displayEach (e :: f :: fs))).toList ++ rest =
          e.display.toList ++ ' ' :: ((joinWith " " (displayEach (f :: fs))).toList ++ rest) := by
        simp [displayEach, joinWith]
      rw [hjoin, h.1 _ (ends_of_space hspace _), lex_space hspace, hes]
      simp [rereadEach, tokensEach]

theorem Expression.lex_display {e : Value} (h : e.Expression Lexed) :
    ∀ rest, Ends rest → lex (e.display.toList ++ rest) = e.reread.tokens ++ lex rest := by
  induction h with
  | number hn => exact fun rest hr => lex_number hn hr
  | symbol hs =>
    intro rest hr
    cases hs with
    | symbol hname =>
      rw [display, String.toList_ofList, hname.lex_append hr]
      rfl
  | @list items _ ih =>
    intro rest _
    have hend : Ends (')' :: rest) := ends_cons (by decide +kernel) _
    have hlist : (Value.list items).display.toList ++ rest =
        '(' :: ((joinWith " " (displayEach items)).toList ++ ')' :: rest) := by
      simp [display]
    rw [hlist, lex_opening, lex_items ih hend, lex_closing]
    simp [reread, tokens]

theorem Expression.ofSource_display {e : Value} (h : e.Expression Lexed) :
    ofSource e.display = tokensEach [e.reread] := by
  have hlex := h.lex_display [] ends_nil
  rw [lex_nil, List.append_nil] at hlex
  exact hlex

theorem Expression.spells_display {e : Value} (h : e.Expression Lexed) :
    Spells (ofSource e.display) [e.reread] := by
  rw [h.ofSource_display]
  exact .of_expressions (List.forall_mem_singleton.mpr h.expression_reread)

end Value

namespace Reader

variable {source : String} {v : Value}

theorem read_of_tokens {P : Token → Prop} {es : List Value}
    (h : ofSource source = Value.tokensEach es) (hes : ∀ e ∈ es, e.Expression P) {room : Nat}
    (hf : ∀ e ∈ es, e.fault? .display room = none) (hroom : room ≤ 3 * nestingLimit) :
    read source = .ok (program es) := by
  refine read_of_spells h (.of_expressions hes) (Value.nestingEach_le_iff.mpr ?_) rfl
  intro e he
  have hle : 3 * e.nesting ≤ room := (hes e he).fault?_eq_none_iff.mp (hf e he)
  omega

theorem read_display?_text {text : String} (h : v.Expression Lexed) (ht : v.display? = .ok text) :
    read text = .ok v.reread := by
  obtain ⟨hfault, rfl⟩ := Value.display?_eq_ok_iff.mp ht
  rw [← Value.writtenAlike_reread] at hfault
  apply read_of_tokens h.ofSource_display
  · exact List.forall_mem_singleton.mpr h.expression_reread
  · exact List.forall_mem_singleton.mpr hfault
  · decide

/-- What is shown of a source text reads as one expression, which is shown in the same way. It is
the expression that was shown, unless the source text has a literal that is too large for a number.
A value that is nested too deeply to be shown has no text. -/
theorem read_display (h : read source = .ok v) :
    ∃ w, readAll (ofSource v.display) = ⟨[w], none, []⟩ ∧ w.display = v.display ∧
      (∀ text, v.display? = .ok text → read text = .ok w ∧ w.display? = .ok text) ∧
      ((∀ n, Token.number n ∈ ofSource source → n.isInfinite = false) → w = v) := by
  have hsource := expression_read h
  have hlexed : v.Expression Lexed := hsource.mono fun _ => lexed_of_mem_ofSource
  refine ⟨v.reread, readAll_of_spells hlexed.spells_display, v.display_reread, ?_, ?_⟩
  · intro text ht
    constructor
    · exact read_display?_text hlexed ht
    · rw [v.display?_reread, ht]
  · exact hsource.reread_eq

theorem read_display_several :
    let v : Value := .list [.list [.symbol "a", .number ⟨0xbfe0000000000000⟩], .symbol ".5x"]
    read "(a -0.50) .5x" = .ok v ∧ readAll (ofSource v.display) = ⟨[v], none, []⟩ := by
  intro v
  have htokens : ofSource "(a -0.50) .5x" = [.opening "(", .symbol "a",
      .number ⟨0xbfe0000000000000⟩, .closing ")", .symbol ".5x"] := by decide +kernel
  have hread : read "(a -0.50) .5x" = .ok v :=
    read_of_spells htokens (.list "(" ")" (.symbol "a" (.number _ .nil)) (.symbol ".5x" .nil))
      (by decide) rfl
  obtain ⟨w, hw, -, -, hsame⟩ := read_display hread
  have hwv : w = v := by
    apply hsame
    intro n hn
    obtain rfl : n = ⟨0xbfe0000000000000⟩ := by simpa [htokens] using hn
    decide +kernel
  rw [hwv] at hw
  exact ⟨hread, hw⟩

end Reader

end ScopedLisp

import ScopedLisp.Proofs.ReadingBack

namespace ScopedLisp

open Text Token

-- Powers of naturals are core's, whatever else is imported.
attribute [local instance (high)] instPowNat

namespace Text

variable {p : Char → Bool} {c : Char}

theorem dropEnd_concat_pos (h : p c = true) (cs : List Char) :
    dropEnd p (cs ++ [c]) = dropEnd p cs := by
  simp [dropEnd, h]

theorem dropEnd_concat_neg (h : p c = false) (cs : List Char) :
    dropEnd p (cs ++ [c]) = cs ++ [c] := by
  simp [dropEnd, h]

theorem dropEnd_append_cons (h : p c = false) (cs ds : List Char) :
    dropEnd p (cs ++ c :: ds) = cs ++ c :: dropEnd p ds := by
  simp only [dropEnd, List.reverse_append, List.reverse_cons, List.append_assoc,
    List.dropWhile_append]
  split
  · next hnil => simp [h, List.isEmpty_iff.mp hnil]
  · simp

theorem dropEnd_eq_self {cs : List Char} (h : ∀ c, cs.getLast? = some c → p c = false) :
    dropEnd p cs = cs := by
  rcases List.eq_nil_or_concat cs with rfl | ⟨ds, c, rfl⟩
  · rfl
  · rw [List.concat_eq_append] at h ⊢
    exact dropEnd_concat_neg (h c (by simp)) ds

theorem getLast?_dropEnd {cs : List Char} (h : (dropEnd p cs).getLast? = some c) : p c = false := by
  rw [dropEnd, List.getLast?_reverse] at h
  have hne : cs.reverse.dropWhile p ≠ [] := by
    intro hnil
    simp [hnil] at h
  have hfirst := List.head_dropWhile_not p hne
  rw [List.head?_eq_some_head hne, Option.some.injEq] at h
  rwa [h] at hfirst

theorem mem_of_mem_dropEnd {cs : List Char} (h : c ∈ dropEnd p cs) : c ∈ cs := by
  rw [dropEnd, List.mem_reverse] at h
  exact List.mem_reverse.mp ((List.dropWhile_suffix p).mem h)

def withoutTail (cs : List Char) : List Char :=
  if '.' ∈ cs then dropEnd (· == '.') (dropEnd (· == '0') cs) else cs

end Text

namespace Numeral

/-- A numeral that says nothing twice: no zero in front of other digits, none at the end of the
fraction. -/
structure Canonical (n : Numeral) : Prop where
  whole : ∀ c ∈ n.whole, c.isDigit = true
  leading : n.whole = ['0'] ∨ ∃ c cs, n.whole = c :: cs ∧ c ≠ '0'
  places : ∀ c ∈ n.places, c.isDigit = true
  last : n.places.getLast? ≠ some '0'

def stripped (n : Numeral) : Numeral := { n with places := dropEnd (· == '0') n.places }

theorem point_not_mem_sign (n : Numeral) : '.' ∉ n.sign := by
  unfold sign
  split <;> decide

theorem Proper.withoutTail_text {n : Numeral} (hn : n.Proper) :
    withoutTail n.text = n.stripped.text := by
  have hpoint : ∀ c, isDigit c = true → (c == '.') = false := by
    intro c hc
    rw [beq_eq_false_iff_ne]
    rintro rfl
    rw [isDigit_point] at hc
    cases hc
  have hwhole : '.' ∉ n.sign ++ n.whole := by
    rw [List.mem_append]
    rintro (h | h)
    · exact n.point_not_mem_sign h
    · have hfalse := hpoint _ (hn.whole _ h)
      simp at hfalse
  have hlast : ∀ c, (n.sign ++ n.whole).getLast? = some c → (c == '.') = false := by
    intro c hc
    rw [List.getLast?_append_of_ne_nil _ hn.ne_nil] at hc
    exact hpoint c (hn.whole c (List.mem_of_getLast? hc))
  cases hpl : n.places with
  | nil =>
    have hsame : n.stripped = n := by
      obtain ⟨s, whole, places⟩ := n
      obtain rfl : places = [] := hpl
      rfl
    rw [hsame, withoutTail, if_neg]
    simpa [text, fraction, hpl] using hwhole
  | cons d ds =>
    have htext : n.text = (n.sign ++ n.whole) ++ '.' :: n.places := by simp [text, fraction, hpl]
    rw [htext, withoutTail, if_pos (by simp), dropEnd_append_cons (by decide)]
    cases hdrop : dropEnd (· == '0') n.places with
    | nil =>
      have hend : n.stripped.text = n.sign ++ n.whole := by
        simp [text, sign, fraction, stripped, hdrop]
      rw [hend, dropEnd_concat_pos (by decide), dropEnd_eq_self hlast]
    | cons e es =>
      have hend : n.stripped.text = (n.sign ++ n.whole) ++ '.' :: e :: es := by
        simp [text, sign, fraction, stripped, hdrop]
      rw [hend, dropEnd_eq_self]
      intro c hc
      rw [List.getLast?_append_of_ne_nil _ (by simp), List.getLast?_cons_cons, ← hdrop] at hc
      exact hpoint c (hn.places c (mem_of_mem_dropEnd (List.mem_of_getLast? hc)))

theorem digitChar_ne_zero {d : Nat} (h : d < 10) (hd : d ≠ 0) : d.digitChar ≠ '0' := by
  revert d
  decide

theorem leading_toDigits (n : Nat) :
    Nat.toDigits 10 n = ['0'] ∨ ∃ c cs, Nat.toDigits 10 n = c :: cs ∧ c ≠ '0' := by
  induction n using Nat.strongRecOn with
  | ind n ih =>
    by_cases hzero : n = 0
    · subst hzero
      exact .inl rfl
    right
    by_cases h : n < 10
    · exact ⟨n.digitChar, [], Nat.toDigits_of_lt_base h, digitChar_ne_zero h hzero⟩
    · rw [Nat.toDigits_of_base_le (by decide) (by omega)]
      rcases ih (n / 10) (Nat.div_lt_self (by omega) (by decide)) with hone | ⟨c, cs, hc, hne⟩
      · have hvalue := digitsValue_toDigits (n / 10)
        rw [hone, show digitsValue ['0'] = 0 by decide +kernel] at hvalue
        omega
      · exact ⟨c, cs ++ [(n % 10).digitChar], by rw [hc, List.cons_append], hne⟩

theorem canonical_stripped (s : Bool) (d : Decimal) : (ofDecimal s d).stripped.Canonical where
  whole := latin_toDigits _
  leading := leading_toDigits _
  places c hc := latin_lastDigits _ _ c (mem_of_mem_dropEnd hc)
  last h := by
    have hzero := getLast?_dropEnd h
    simp at hzero

theorem dropEnd_lastDigits_zero (count : Nat) : dropEnd (· == '0') (lastDigits count 0) = [] := by
  induction count with
  | zero => rfl
  | succ count ih =>
    rw [lastDigits, dropEnd_concat_pos (by decide)]
    exact ih

theorem stripped_shift (s : Bool) (m : Nat) (e : Int) :
    (ofDecimal s ⟨10 * m, e⟩).stripped = (ofDecimal s ⟨m, e + 1⟩).stripped := by
  by_cases h : 0 ≤ e
  · have hup : (e + 1).toNat = e.toNat + 1 := by omega
    have hdown : (-e).toNat = 0 ∧ (-(e + 1)).toNat = 0 := by omega
    have hnum : 10 * m * 10 ^ e.toNat = m * 10 ^ (e.toNat + 1) := by
      rw [Nat.pow_succ, Nat.mul_comm 10 m, Nat.mul_assoc, Nat.mul_comm 10]
    simp only [ofDecimal, Decimal.num, Decimal.den, hup, hdown, hnum]
  · obtain ⟨k, hk⟩ : ∃ k : Nat, e = -(k + 1 : Nat) := ⟨(-e).toNat - 1, by omega⟩
    have hup : e.toNat = 0 ∧ (e + 1).toNat = 0 := by omega
    have hdown : (-e).toNat = k + 1 ∧ (-(e + 1)).toNat = k := by omega
    have hden : 10 ^ (k + 1) = 10 * 10 ^ k := by rw [Nat.pow_succ, Nat.mul_comm]
    have hlast : lastDigits (k + 1) (10 * (m % 10 ^ k)) = lastDigits k (m % 10 ^ k) ++ ['0'] := by
      rw [lastDigits, Nat.mul_div_cancel_left _ (by decide), Nat.mul_mod_right]
      rfl
    simp only [ofDecimal, stripped, Decimal.num, Decimal.den, hup, hdown, Nat.pow_zero, Nat.mul_one,
      hden, Nat.mul_div_mul_left _ _ (show 0 < 10 by decide), Nat.mul_mod_mul_left, hlast]
    rw [dropEnd_concat_pos (by decide)]

theorem stripped_ofDecimal (s : Bool) (d : Decimal) :
    (ofDecimal s d).stripped = ofDecimal s d.trim := by
  fun_induction Decimal.trim d with
  | case1 d h =>
    obtain ⟨m, e⟩ := d
    obtain rfl : m = 0 := h
    simp [ofDecimal, stripped, Decimal.num, Decimal.den, dropEnd_lastDigits_zero, lastDigits]
  | case2 d h hz ih =>
    rw [← ih, ← stripped_shift, Nat.mul_div_cancel' (Nat.dvd_of_mod_eq_zero hz)]
  | case3 d h hz =>
    have hsame : dropEnd (· == '0') (ofDecimal s d).places = (ofDecimal s d).places := by
      obtain ⟨m, e⟩ := d
      by_cases he : 0 ≤ e
      · have hdown : (-e).toNat = 0 := by omega
        simp only [ofDecimal, hdown, lastDigits]
        rfl
      · obtain ⟨k, hk⟩ : ∃ k, (-e).toNat = k + 1 := ⟨(-e).toNat - 1, by omega⟩
        have hup : e.toNat = 0 := by omega
        have hmod : m % 10 ^ (k + 1) % 10 = m % 10 := by
          rw [Nat.pow_succ, Nat.mul_comm, Nat.mod_mul_right_mod]
        have hne : ((m % 10).digitChar == '0') = false := by
          rw [beq_eq_false_iff_ne]
          exact digitChar_ne_zero (Nat.mod_lt _ (by decide)) hz
        simp only [ofDecimal, Decimal.num, Decimal.den, hup, hk, Nat.pow_zero, Nat.mul_one,
          lastDigits, hmod]
        apply dropEnd_concat_neg
        exact hne
    rw [stripped, hsame]

end Numeral

namespace Decimal

theorem trim_zero (e : Int) : trim ⟨0, e⟩ = ⟨0, 0⟩ := by
  rw [trim]
  rfl

theorem trim_shift (m : Nat) (e : Int) : trim ⟨10 * m, e⟩ = trim ⟨m, e + 1⟩ := by
  by_cases h : m = 0
  · subst h
    rw [Nat.mul_zero, trim_zero, trim_zero]
  · have hm : 10 * m ≠ 0 := by omega
    rw [trim, dif_neg hm, if_pos (Nat.mul_mod_right 10 m)]
    simp

theorem trim_scale (m k : Nat) (e : Int) : trim ⟨m * 10 ^ k, e⟩ = trim ⟨m, e + k⟩ := by
  induction k generalizing e with
  | zero => simp
  | succ k ih =>
    have hexponent : e + 1 + (k : Int) = e + (k + 1 : Nat) := by omega
    rw [Nat.pow_succ, ← Nat.mul_assoc, Nat.mul_comm _ 10, trim_shift, ih, hexponent]

theorem trim_trim (d : Decimal) : d.trim.trim = d.trim := by
  rcases d.trim_digits with h | h
  · rw [h, trim_zero]
  · rw [trim, dif_neg (by omega), if_neg h]

end Decimal

structure Literal extends Numeral where
  exponent : Option (Bool × List Char)

namespace Literal

def exponentText : Option (Bool × List Char) → List Char
  | none => []
  | some (negative, digits) => 'e' :: (if negative then '-' else '+') :: digits

def text (l : Literal) : List Char := l.toNumeral.text ++ exponentText l.exponent

structure Proper (l : Literal) : Prop where
  numeral : l.toNumeral.Proper
  exponent : ∀ e, l.exponent = some e → e.2 ≠ [] ∧ ∀ c ∈ e.2, isDigit c = true

def exponentValue : Option (Bool × List Char) → Int
  | none => 0
  | some (negative, digits) => if negative then -digitsValue digits else digitsValue digits

def decimal (l : Literal) : Decimal :=
  ⟨digitsValue (l.whole ++ l.places), exponentValue l.exponent - l.places.length⟩

def value (l : Literal) : Number := .ofRank l.negative l.decimal.rank

def plain (l : Literal) : List Char := withoutTail (Numeral.ofDecimal l.negative l.decimal).text

variable (l : Literal)

theorem plain_eq_stripped : l.plain = (Numeral.ofDecimal l.negative l.decimal).stripped.text :=
  (Numeral.proper_ofDecimal l.negative l.decimal).withoutTail_text

theorem plain_eq_trim : l.plain = (Numeral.ofDecimal l.negative l.decimal.trim).text := by
  rw [plain_eq_stripped, Numeral.stripped_ofDecimal]

theorem ofSource_plain : ofSource (String.ofList l.plain) = [.number l.value] := by
  have hlex := lex_numeral_append (Numeral.proper_ofDecimal l.negative l.decimal.trim) ends_nil
  rw [List.append_nil, lex_nil, Numeral.value_ofDecimal, Decimal.rank_trim] at hlex
  rw [ofSource, String.toList_ofList, plain_eq_trim]
  exact hlex

end Literal

namespace Numeral

theorem digitsValue_ofDecimal (s : Bool) (d : Decimal) :
    digitsValue ((ofDecimal s d).whole ++ (ofDecimal s d).places) = d.num := by
  have hden : d.den = 10 ^ (-d.exponent).toNat := rfl
  rw [ofDecimal, digitsValue_append, length_lastDigits, digitsValue_toDigits,
    digitsValue_lastDigits, ← hden, Nat.mod_mod, Nat.div_add_mod']

theorem digitsValue_zeros (count : Nat) (cs : List Char) :
    digitsValue (List.replicate count '0' ++ cs) = digitsValue cs := by
  have hzeros : digitsValue (List.replicate count '0') = 0 := by
    induction count with
    | zero => rfl
    | succ count ih =>
      rw [List.replicate_succ', digitsValue_concat, ih]
      decide +kernel
  rw [digitsValue_append, hzeros, Nat.zero_mul, Nat.zero_add]

end Numeral

namespace Number

def scientificLiteral (negative : Bool) (digits : List Char) (exponent : Int) : Literal :=
  let power := Nat.toDigits 10 exponent.natAbs
  ⟨⟨negative, digits.take 1, digits.drop 1⟩,
    some (exponent < 0, List.replicate (2 - power.length) '0' ++ power)⟩

def literal (n : Number) : Literal :=
  let digits := Nat.toDigits 10 n.decimal.digits
  let exponent := digits.length - 1 + n.decimal.exponent
  if -4 ≤ exponent ∧ exponent < 16 then
    let numeral := n.numeral
    ⟨{ numeral with places := if numeral.places.isEmpty then ['0'] else numeral.places }, none⟩
  else scientificLiteral n.negative digits exponent

variable {n : Number}

theorem text_scientificLiteral (negative : Bool) (digits : List Char) (exponent : Int) :
    (scientificLiteral negative digits exponent).text =
      (if negative then ['-'] else []) ++ scientific digits exponent := by
  rcases digits with _ | ⟨c, _ | ⟨d, ds⟩⟩ <;>
    simp [scientificLiteral, Literal.text, Literal.exponentText, Numeral.text, Numeral.sign,
      Numeral.fraction, scientific]

theorem text_literal (h : n.isFinite = true) : n.literal.text = n.detailedChars := by
  obtain ⟨hnan, hinf⟩ := ordinary_of_finite h
  rw [detailedChars, literal, hnan, hinf, if_neg Bool.false_ne_true, if_neg Bool.false_ne_true]
  generalize Nat.toDigits 10 n.decimal.digits = digits
  dsimp only
  split
  · rw [Literal.text, Literal.exponentText, List.append_nil]
  · exact text_scientificLiteral ..

theorem proper_scientificLiteral (negative : Bool) {digits : List Char} (exponent : Int)
    (hne : digits ≠ []) (hdigits : ∀ c ∈ digits, isDigit c = true) :
    (scientificLiteral negative digits exponent).Proper where
  numeral := by
    refine ⟨?_, ?_, ?_⟩
    · simpa [scientificLiteral] using hne
    · exact fun c hc => hdigits c (List.mem_of_mem_take hc)
    · exact fun c hc => hdigits c (List.mem_of_mem_drop hc)
  exponent := by
    intro e he
    obtain rfl := Option.some.inj he
    constructor
    · simp [Nat.toDigits_ne_nil]
    · intro c hc
      rcases List.mem_append.mp hc with hc | hc
      · obtain rfl := List.eq_of_mem_replicate hc
        decide +kernel
      · exact Numeral.isDigit_of_latin (Numeral.latin_toDigits _ c hc)

theorem proper_literal (n : Number) : n.literal.Proper := by
  have hdigits := Numeral.latin_toDigits n.decimal.digits
  have hne : Nat.toDigits 10 n.decimal.digits ≠ [] := Nat.toDigits_ne_nil
  have hnumeral := n.proper_numeral
  rw [literal]
  generalize Nat.toDigits 10 n.decimal.digits = digits at hdigits hne
  generalize n.numeral = numeral at hnumeral
  dsimp only
  split
  · refine ⟨⟨hnumeral.ne_nil, hnumeral.whole, ?_⟩, by simp⟩
    dsimp only
    split
    · exact List.forall_mem_singleton.mpr (by decide +kernel)
    · exact hnumeral.places
  · exact proper_scientificLiteral _ _ hne fun c hc => Numeral.isDigit_of_latin (hdigits c hc)

theorem decimal_scientificLiteral (negative : Bool) {digits : List Char} (exponent : Int)
    (hne : digits ≠ []) : (scientificLiteral negative digits exponent).decimal =
      ⟨digitsValue digits, exponent - (digits.length - 1)⟩ := by
  have hlength : ((digits.drop 1).length : Int) = digits.length - 1 := by
    have hpos := List.length_pos_iff.mpr hne
    rw [List.length_drop]
    omega
  have hexponent : Literal.exponentValue (scientificLiteral negative digits exponent).exponent =
      exponent := by
    rw [scientificLiteral, Literal.exponentValue, Numeral.digitsValue_zeros,
      Numeral.digitsValue_toDigits]
    by_cases h : exponent < 0
    · rw [if_pos (by simpa using h)]
      omega
    · rw [if_neg (by simpa using h)]
      omega
  rw [Literal.decimal, hexponent, scientificLiteral, hlength, List.take_append_drop]

theorem trim_decimal_literal (n : Number) : n.literal.decimal.trim = n.decimal := by
  have htrim : n.decimal.trim = n.decimal := Decimal.trim_trim _
  rw [literal, numeral]
  generalize n.decimal = d at htrim
  obtain ⟨m, e⟩ := d
  dsimp only
  split
  · -- the numeral has the digits of the decimal, and one more zero if it would have no fraction
    have hvalue := Numeral.digitsValue_ofDecimal n.negative ⟨m, e⟩
    have hlength : (Numeral.ofDecimal n.negative ⟨m, e⟩).places.length = (-e).toNat :=
      Numeral.length_lastDigits _ _
    generalize Numeral.ofDecimal n.negative ⟨m, e⟩ = k at hvalue hlength
    obtain ⟨s, whole, places⟩ := k
    simp only [Literal.decimal, Literal.exponentValue] at hvalue hlength ⊢
    cases places with
    | nil =>
      have he : (0 : Int) - ['0'].length + 1 + e.toNat = e := by
        simp only [List.length_nil, List.length_singleton] at hlength ⊢
        omega
      rw [List.append_nil] at hvalue
      have hzero : digitValue '0' = 0 := by decide +kernel
      rw [List.isEmpty_nil, if_pos rfl, digitsValue_concat, hvalue, hzero, Nat.add_zero,
        Decimal.num, Decimal.trim_shift, Decimal.trim_scale, he, htrim]
    | cons c cs =>
      have he : e.toNat = 0 ∧ (0 : Int) - (c :: cs).length = e := by
        simp only [List.length_cons] at hlength ⊢
        omega
      rw [List.isEmpty_cons, if_neg Bool.false_ne_true, hvalue, Decimal.num, he.1, he.2, Nat.pow_zero,
        Nat.mul_one, htrim]
  · have hexponent : ((Nat.toDigits 10 m).length : Int) - 1 + e - ((Nat.toDigits 10 m).length - 1) =
        e := by omega
    rw [decimal_scientificLiteral _ _ Nat.toDigits_ne_nil, Numeral.digitsValue_toDigits, hexponent,
      htrim]

theorem negative_literal (n : Number) : n.literal.negative = n.negative := by
  rw [literal, numeral]
  generalize Nat.toDigits 10 n.decimal.digits = digits
  dsimp only
  split <;> rfl

theorem value_literal (h : n.isFinite = true) : n.literal.value = n := by
  have hrank : n.literal.decimal.rank = n.rank := by
    rw [← Decimal.rank_trim, trim_decimal_literal, decimal,
      rank_shortest (by simpa [isFinite] using h)]
  rw [Literal.value, negative_literal, hrank, ofRank_rank]

theorem toList_display (h : n.isFinite = true) : n.display.toList = n.literal.plain := by
  rw [display_finite h, String.toList_ofList, Literal.plain_eq_trim, negative_literal,
    trim_decimal_literal, numeral]

/-- What is shown of a finite number has one form only, without an exponent, and reads as that
number, so different numbers are shown differently. It is the literal that messages show, written
without its exponent and without the zeros at the end of a fraction; any other literal of the
number, written so, would have that form and read as the number too. -/
theorem display_canonical (h : n.isFinite = true) :
    (∃ k : Numeral, k.Canonical ∧ n.display.toList = k.text) ∧
    ofSource n.display = [.number n] ∧
    (∀ m : Number, m.isFinite = true → m.display = n.display → m = n) ∧
    (∃ l : Literal, l.Proper ∧ l.text = n.detailed.toList ∧ l.value = n ∧
      n.display.toList = l.plain) ∧
    ∀ l : Literal, l.value = n → (∃ k : Numeral, k.Canonical ∧ l.plain = k.text) ∧
      ofSource (String.ofList l.plain) = [.number n] := by
  have hcanonical : ∀ l : Literal, ∃ k : Numeral, k.Canonical ∧ l.plain = k.text :=
    fun l => ⟨_, Numeral.canonical_stripped _ _, l.plain_eq_stripped⟩
  have hread : ∀ m : Number, m.isFinite = true → ofSource m.display = [.number m] := by
    intro m hm
    rw [← String.ofList_toList (s := m.display), toList_display hm, Literal.ofSource_plain,
      value_literal hm]
  refine ⟨?_, hread n h, ?_, ?_, ?_⟩
  · rw [toList_display h]
    exact hcanonical n.literal
  · intro m hm hsame
    have htokens := hread m hm
    rw [hsame, hread n h, List.singleton_inj, Token.number.injEq] at htokens
    exact htokens.symm
  · refine ⟨n.literal, n.proper_literal, ?_, value_literal h, toList_display h⟩
    rw [text_literal h, detailed, String.toList_ofList]
  · intro l hl
    rw [l.ofSource_plain, hl]
    exact ⟨hcanonical l, rfl⟩

theorem display_canonical_small :
    let n : Number := ⟨0x3e7ad7f29abcaf48⟩
    let l : Literal := ⟨⟨false, ['1'], []⟩, some (true, ['0', '7'])⟩
    n.isFinite = true ∧ l.value = n ∧ String.ofList l.plain = "0.0000001" ∧
      ofSource "0.0000001" = [.number n] := by
  intro n l
  have hfinite : n.isFinite = true := by decide +kernel
  have hvalue : l.value = n := by decide +kernel
  have hplain : String.ofList l.plain = "0.0000001" := by decide +kernel
  obtain ⟨-, -, -, -, hliteral⟩ := display_canonical hfinite
  exact ⟨hfinite, hvalue, hplain, hplain ▸ (hliteral l hvalue).2⟩

end Number

end ScopedLisp

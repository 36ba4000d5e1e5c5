import ScopedLisp.Number.Shortest
import ScopedLisp.Text.Digit

namespace ScopedLisp

open Text

-- Powers of naturals are core's, whatever else is imported.
attribute [local instance (high)] instPowNat

structure Numeral where
  negative : Bool
  whole : List Char
  places : List Char
deriving DecidableEq

namespace Numeral

def sign (n : Numeral) : List Char := if n.negative then ['-'] else []

def fraction (n : Numeral) : List Char := if n.places.isEmpty then [] else '.' :: n.places

def text (n : Numeral) : List Char := n.sign ++ n.whole ++ n.fraction

def value (n : Numeral) : Number :=
  .ofRank n.negative (Number.nearestRank (digitsValue (n.whole ++ n.places)) (10 ^ n.places.length))

def fractionOf : List Char → List Char × List Char
  | '.' :: cs => if (cs.takeWhile isDigit).isEmpty then ([], '.' :: cs)
    else (cs.takeWhile isDigit, cs.dropWhile isDigit)
  | cs => ([], cs)

def ofDigits? (negative : Bool) (cs : List Char) : Option (Numeral × List Char) :=
  if (cs.takeWhile isDigit).isEmpty then none
  else
    let (places, rest) := fractionOf (cs.dropWhile isDigit)
    some (⟨negative, cs.takeWhile isDigit, places⟩, rest)

def ofPrefix? : List Char → Option (Numeral × List Char)
  | '-' :: cs => ofDigits? true cs
  | cs => ofDigits? false cs

theorem fractionOf_append (n : Numeral) (cs : List Char) (h : n.places = (fractionOf cs).1) :
    cs = n.fraction ++ (fractionOf cs).2 := by
  unfold fraction
  rw [h]
  unfold fractionOf
  split
  · split
    · simp
    · simp [List.takeWhile_append_dropWhile]
  · simp

theorem text_of_ofDigits? {s : Bool} {cs rest : List Char} {n : Numeral}
    (h : ofDigits? s cs = some (n, rest)) : n.negative = s ∧ cs = n.whole ++ n.fraction ++ rest := by
  unfold ofDigits? at h
  split at h
  · simp at h
  · simp only [Option.some.injEq, Prod.mk.injEq] at h
    obtain ⟨rfl, rfl⟩ := h
    refine ⟨rfl, ?_⟩
    rw [List.append_assoc, ← fractionOf_append _ _ rfl]
    exact (List.takeWhile_append_dropWhile ..).symm

theorem whole_of_ofDigits? {s : Bool} {cs rest : List Char} {n : Numeral}
    (h : ofDigits? s cs = some (n, rest)) : n.whole ≠ [] := by
  unfold ofDigits? at h
  split at h
  · cases h
  · next hw =>
    obtain ⟨rfl, _⟩ := Prod.mk.inj (Option.some.inj h)
    exact fun he => hw (List.isEmpty_iff.mpr he)

theorem whole_of_ofPrefix? {cs rest : List Char} {n : Numeral}
    (h : ofPrefix? cs = some (n, rest)) : n.whole ≠ [] := by
  unfold ofPrefix? at h
  split at h <;> exact whole_of_ofDigits? h

theorem text_of_ofPrefix? {cs rest : List Char} {n : Numeral}
    (h : ofPrefix? cs = some (n, rest)) : cs = n.text ++ rest := by
  unfold ofPrefix? at h
  split at h
  · obtain ⟨hs, hc⟩ := text_of_ofDigits? h
    simp [text, sign, hs, hc]
  · obtain ⟨hs, hc⟩ := text_of_ofDigits? h
    simp [text, sign, hs, hc]

def lastDigits : Nat → Nat → List Char
  | 0, _ => []
  | count + 1, n => lastDigits count (n / 10) ++ [(n % 10).digitChar]

def ofDecimal (negative : Bool) (d : Decimal) : Numeral :=
  ⟨negative, Nat.toDigits 10 (d.num / d.den), lastDigits (-d.exponent).toNat (d.num % d.den)⟩

theorem digitValue_digitChar {d : Nat} (h : d < 10) : digitValue d.digitChar = d := by
  rw [digitValue, digitValue?_digitChar h]; rfl

theorem digitsValue_toDigits (n : Nat) : digitsValue (Nat.toDigits 10 n) = n := by
  induction n using Nat.strongRecOn with
  | ind n ih =>
    by_cases h : n < 10
    · rw [Nat.toDigits_of_lt_base h, ← List.nil_append [_], digitsValue_concat,
        digitValue_digitChar h, digitsValue_nil, Nat.mul_zero, Nat.zero_add]
    · rw [Nat.toDigits_of_base_le (by decide) (by omega), digitsValue_concat,
        ih _ (Nat.div_lt_self (by omega) (by decide)),
        digitValue_digitChar (Nat.mod_lt _ (by decide))]
      omega

@[simp] theorem length_lastDigits (count n : Nat) : (lastDigits count n).length = count := by
  induction count generalizing n with
  | zero => rfl
  | succ count ih => simp [lastDigits, ih]

theorem digitsValue_lastDigits (count n : Nat) :
    digitsValue (lastDigits count n) = n % 10 ^ count := by
  induction count generalizing n with
  | zero => simp [lastDigits, Nat.mod_one]
  | succ count ih =>
    rw [lastDigits, digitsValue_concat, ih, digitValue_digitChar (Nat.mod_lt _ (by decide)),
      Nat.pow_succ, Nat.mul_comm _ 10, Nat.mod_mul]
    omega

theorem value_ofDecimal (s : Bool) (d : Decimal) : (ofDecimal s d).value = .ofRank s d.rank := by
  have hd : d.den = 10 ^ (-d.exponent).toNat := rfl
  rw [value, ofDecimal, digitsValue_append, length_lastDigits, digitsValue_toDigits,
    digitsValue_lastDigits, ← hd, Nat.mod_mod, Nat.div_add_mod', Decimal.rank]

end Numeral

end ScopedLisp

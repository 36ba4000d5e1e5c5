import ScopedLisp.Number.Basic

namespace ScopedLisp

-- Powers of naturals are core's, whatever else is imported.
attribute [local instance (high)] instPowNat

def roundDiv (num den : Nat) : Nat :=
  let low := num / den
  let rest := num % den
  if 2 * rest < den then low else if den < 2 * rest then low + 1 else low + low % 2

theorem roundDiv_exact (q : Nat) {den : Nat} (h : 0 < den) : roundDiv (q * den) den = q := by
  simp [roundDiv, h, Nat.mul_div_cancel q h]

theorem roundDiv_scale (num den : Nat) {c : Nat} (h : 0 < c) :
    roundDiv (num * c) (den * c) = roundDiv num den := by
  have lt (a b : Nat) : 2 * (a * c) < b * c ↔ 2 * a < b := by
    rw [← Nat.mul_assoc]; exact Nat.mul_lt_mul_right h
  have lt' (a b : Nat) : b * c < 2 * (a * c) ↔ b < 2 * a := by
    rw [← Nat.mul_assoc]; exact Nat.mul_lt_mul_right h
  simp only [roundDiv, Nat.mul_div_mul_right _ _ h, Nat.mul_mod_mul_right, lt, lt']

namespace Number

/-- The rank nearest to `num / den`. Within one binade ranks and magnitudes are both evenly spaced,
so rounding the magnitude at the binade's spacing rounds the rank; a carry into the next binade
comes out right because ranks go on by one there too. -/
def nearestRank (num den : Nat) : Nat :=
  let scaled := num * unitsInOne
  let shift := Nat.log2 (scaled / den) - 52
  min topRank (shift * binade + roundDiv scaled (den * 2 ^ shift))

theorem nearestRank_scale (num den : Nat) {c : Nat} (h : 0 < c) :
    nearestRank (num * c) (den * c) = nearestRank num den := by
  have hn : num * c * unitsInOne = num * unitsInOne * c := Nat.mul_right_comm ..
  have hd (s : Nat) : den * c * 2 ^ s = den * 2 ^ s * c := Nat.mul_right_comm ..
  simp only [nearestRank, hn, hd, Nat.mul_div_mul_right _ _ h, roundDiv_scale _ _ h]

theorem log2_mul_two_pow {m : Nat} (h : m ≠ 0) (e : Nat) :
    Nat.log2 (m * 2 ^ e) = Nat.log2 m + e := by
  have hp : 0 < 2 ^ e := Nat.two_pow_pos e
  rw [Nat.log2_eq_iff (Nat.mul_ne_zero h (by omega))]
  have ⟨low, high⟩ := (Nat.log2_eq_iff h).mp rfl
  rw [Nat.add_right_comm, Nat.pow_add, Nat.pow_add]
  exact ⟨Nat.mul_le_mul_right _ low, (Nat.mul_lt_mul_right hp).mpr high⟩

theorem units_of_normal {k : Nat} (h : binade ≤ k) :
    units k = (binade + k % binade) * 2 ^ (k / binade - 1) := by
  rw [units, if_neg (by omega)]

theorem nearestRank_units {k : Nat} (h : k < topRank) : nearestRank (units k) (unitsInOne) = k := by
  have pos := unitsInOne_pos
  by_cases hk : k < binade
  · have hu : units k = k := by rw [units, if_pos hk]
    have hs : Nat.log2 k - 52 = 0 := by
      by_cases h0 : k = 0
      · subst h0; rfl
      · have := (Nat.log2_lt h0).mpr hk; omega
    rw [nearestRank, hu, Nat.mul_div_cancel k pos]
    simp only [hs, Nat.zero_mul, Nat.zero_add, Nat.pow_zero, Nat.mul_one]
    rw [roundDiv_exact k pos]
    exact Nat.min_eq_right (Nat.le_of_lt h)
  · have hk' : binade ≤ k := by omega
    have hm : binade + k % binade ≠ 0 := by unfold binade; omega
    have hl : Nat.log2 (binade + k % binade) = 52 := by
      rw [Nat.log2_eq_iff hm]; unfold binade; omega
    have hs : Nat.log2 (units k) - 52 = k / binade - 1 := by
      rw [units_of_normal hk', log2_mul_two_pow hm, hl]; omega
    rw [nearestRank, Nat.mul_div_cancel _ pos]
    simp only [hs]
    rw [units_of_normal hk', Nat.mul_assoc, Nat.mul_comm (2 ^ (k / binade - 1)),
      roundDiv_exact _ (Nat.mul_pos pos (Nat.two_pow_pos _))]
    rw [Nat.min_eq_right] <;> unfold topRank binade at * <;> omega

theorem nearestRank_le (num den : Nat) : nearestRank num den ≤ topRank := Nat.min_le_left ..

def ofInt (i : Int) : Number := ofRank (i < 0) (nearestRank i.natAbs 1)

def equalInt (n : Number) (i : Int) : Bool :=
  n.isFinite && units n.rank == i.natAbs * unitsInOne && (n.isZero || n.negative == decide (i < 0))

end Number

end ScopedLisp

import ScopedLisp.Number.Rounding

/-!
The shortest decimal that reads back as a given number. For one digit, two digits, and so on the
two neighbours on that decimal grid are read back; the first grid with a hit wins, and of its two
points the nearer one is tried first, a tie going to the even point.
-/

namespace ScopedLisp

-- Powers of naturals are core's, whatever else is imported.
attribute [local instance (high)] instPowNat

structure Decimal where
  digits : Nat
  exponent : Int
deriving DecidableEq

namespace Decimal

def num (d : Decimal) : Nat := d.digits * 10 ^ d.exponent.toNat

def den (d : Decimal) : Nat := 10 ^ (-d.exponent).toNat

def rank (d : Decimal) : Nat := Number.nearestRank d.num d.den

def trim (d : Decimal) : Decimal :=
  if h : d.digits = 0 then ⟨0, 0⟩
  else if d.digits % 10 = 0 then trim ⟨d.digits / 10, d.exponent + 1⟩ else d
termination_by d.digits
decreasing_by exact Nat.div_lt_self (Nat.pos_of_ne_zero h) (by decide)

theorem rank_shift (m : Nat) (e : Int) : rank ⟨10 * m, e⟩ = rank ⟨m, e + 1⟩ := by
  unfold rank num den
  by_cases h : 0 ≤ e
  · have he : (e + 1).toNat = e.toNat + 1 := by omega
    have hn : (-(e + 1)).toNat = (-e).toNat := by omega
    simp only [he, hn, Nat.pow_succ]
    rw [Nat.mul_comm 10 m, Nat.mul_assoc, Nat.mul_comm 10]
  · have he : (e + 1).toNat = e.toNat := by omega
    have hn : (-e).toNat = (-(e + 1)).toNat + 1 := by omega
    simp only [he, hn, Nat.pow_succ]
    rw [Nat.mul_comm 10 m, Nat.mul_right_comm, Number.nearestRank_scale _ _ (by decide)]

theorem rank_zero (e : Int) : rank ⟨0, e⟩ = 0 := by
  simp [rank, num, den, Number.nearestRank, roundDiv]

@[simp] theorem rank_trim (d : Decimal) : d.trim.rank = d.rank := by
  fun_induction trim d with
  | case1 d h => obtain ⟨m, e⟩ := d; simp only at h; subst h; rw [rank_zero, rank_zero]
  | case2 d h hz ih =>
    rw [ih, ← rank_shift]
    congr 2
    omega
  | case3 => rfl

theorem trim_digits (d : Decimal) : d.trim = ⟨0, 0⟩ ∨ d.trim.digits % 10 ≠ 0 := by
  fun_induction trim d with
  | case1 => exact .inl rfl
  | case2 d h hz ih => exact ih
  | case3 d h hz => exact .inr hz

end Decimal

namespace Number

def exactDigits (rank : Nat) : Nat := units rank * 5 ^ finest

/-- The neighbour that reads back as the rank when the last `cut` of the exact digits are rounded
away, the nearer one if both do. -/
def onGrid? (rank exact cut : Nat) : Option Decimal :=
  let low := exact / 10 ^ cut
  let near := roundDiv exact (10 ^ cut)
  let far := if near = low then low + 1 else low
  [near, far].map (⟨·, (cut : Int) - finest⟩) |>.find? (·.rank == rank)

/-- How many decimal digits a number has, counted from its binary ones. The logarithm of 2 is just
over `1233 / 4096`, which is near enough for exact digits. -/
def digitCount (n : Nat) : Nat :=
  let low := n.log2 * 1233 / 4096
  if 10 ^ (low + 1) ≤ n then low + 2 else low + 1

/-- The shortest decimal for a finite rank. Seventeen digits always do; the exact decimal after
them keeps the reading back free of that fact. -/
def shortest (rank : Nat) : Decimal :=
  let exact := exactDigits rank
  let width := digitCount exact
  let found := (List.range 17).findSome? fun n => onGrid? rank exact (width - (n + 1))
  (found.getD ⟨exact, -finest⟩).trim

theorem ten_pow (e : Nat) : 10 ^ e = 2 ^ e * 5 ^ e := Nat.mul_pow 2 5 e

theorem rank_exactDigits {k : Nat} (h : k < topRank) :
    Decimal.rank ⟨exactDigits k, -finest⟩ = k := by
  have hd : 10 ^ finest = unitsInOne * 5 ^ finest := by rw [unitsInOne, ten_pow]
  have hn : (- -(finest : Int)).toNat = finest := by omega
  have hp : (-(finest : Int)).toNat = 0 := by omega
  rw [Decimal.rank, Decimal.num, Decimal.den, hn, hp, hd, Nat.pow_zero, Nat.mul_one, exactDigits,
    nearestRank_scale _ _ (Nat.pow_pos (by decide)), nearestRank_units h]

theorem rank_of_onGrid? {k exact cut : Nat} {d : Decimal} (h : onGrid? k exact cut = some d) :
    d.rank = k := by
  simpa using List.find?_some h

theorem rank_shortest {k : Nat} (h : k < topRank) : (shortest k).rank = k := by
  rw [shortest, Decimal.rank_trim]
  generalize hf : List.findSome? _ _ = found
  cases found with
  | none => exact rank_exactDigits h
  | some d =>
    obtain ⟨n, _, hn⟩ := List.exists_of_findSome?_eq_some hf
    exact rank_of_onGrid? hn

end Number

end ScopedLisp

/-!
Binary64 numbers, held as bits. The low 63 bits are the number's rank: the nonnegative numbers
in order, then infinity, then the NaNs. A finite magnitude is a whole count of `2 ^ -1074`.
-/

namespace ScopedLisp

-- Powers of naturals are core's, whatever else is imported.
attribute [local instance (high)] instPowNat

structure Number where
  bits : UInt64
deriving DecidableEq

namespace Number

def signWeight : Nat := 2 ^ (63 : Nat)

def binade : Nat := 2 ^ (52 : Nat)

def topRank : Nat := 2047 * binade

def rank (n : Number) : Nat := n.bits.toNat % signWeight

def negative (n : Number) : Bool := decide (signWeight ≤ n.bits.toNat)

def ofRank (negative : Bool) (rank : Nat) : Number :=
  ⟨UInt64.ofNat (rank + if negative then signWeight else 0)⟩

@[simp] theorem rank_ofRank (s : Bool) {k : Nat} (h : k < signWeight) : (ofRank s k).rank = k := by
  unfold signWeight at h
  cases s <;> simp [ofRank, rank, signWeight] <;> omega

@[simp] theorem negative_ofRank (s : Bool) {k : Nat} (h : k < signWeight) :
    (ofRank s k).negative = s := by
  unfold signWeight at h
  cases s <;> simp [ofRank, negative, signWeight] <;> omega

@[simp] theorem ofRank_rank (n : Number) : ofRank n.negative n.rank = n := by
  obtain ⟨b⟩ := n
  have h : b.toNat < 2 ^ 64 := b.toNat_lt
  unfold ofRank rank
  rw [mk.injEq, ← UInt64.toNat_inj, UInt64.toNat_ofNat']
  change (b.toNat % signWeight + _) % _ = b.toNat
  cases hs : negative ⟨b⟩ with
  | true =>
    have hs : signWeight ≤ b.toNat := of_decide_eq_true hs
    rw [if_pos rfl]
    unfold signWeight at *
    omega
  | false =>
    have hs : ¬signWeight ≤ b.toNat := of_decide_eq_false hs
    rw [if_neg Bool.false_ne_true]
    unfold signWeight at *
    omega

def isNaN (n : Number) : Bool := decide (topRank < n.rank)
def isInfinite (n : Number) : Bool := decide (n.rank = topRank)
def isFinite (n : Number) : Bool := decide (n.rank < topRank)

def isZero (n : Number) : Bool := decide (n.rank = 0)

def finest : Nat := 1074

def unitsInOne : Nat := 2 ^ finest

theorem unitsInOne_pos : 0 < unitsInOne := Nat.two_pow_pos finest

def units (rank : Nat) : Nat :=
  if rank < binade then rank else (binade + rank % binade) * 2 ^ (rank / binade - 1)

def zero : Number := ⟨0⟩
def one : Number := ofRank false (1023 * binade)
def nan : Number := ofRank false (topRank + binade / 2)

def ofBool (b : Bool) : Number := if b then one else zero

def toFloat (n : Number) : Float := Float.ofBits n.bits
def ofFloat (x : Float) : Number := ⟨x.toBits⟩

def add (a b : Number) : Number := ofFloat (a.toFloat + b.toFloat)
def sub (a b : Number) : Number := ofFloat (a.toFloat - b.toFloat)
def mul (a b : Number) : Number := ofFloat (a.toFloat * b.toFloat)

def div (a b : Number) : Number := ofFloat (a.toFloat / b.toFloat)

def place (n : Number) : Int := if n.negative then -n.rank else n.rank

def equal (a b : Number) : Bool := !a.isNaN && !b.isNaN && a.place == b.place
def less (a b : Number) : Bool := !a.isNaN && !b.isNaN && decide (a.place < b.place)
def atMost (a b : Number) : Bool := !a.isNaN && !b.isNaN && decide (a.place ≤ b.place)

end Number

end ScopedLisp

import ScopedLisp.Number.Numeral

/-!
The two written forms of a number. Results show the digits without an exponent. Messages keep a
digit after the point, and have an exponent below `10 ^ -4` and from `10 ^ 16` on.
-/

namespace ScopedLisp.Number

def decimal (n : Number) : Decimal := shortest n.rank

def numeral (n : Number) : Numeral := .ofDecimal n.negative n.decimal

def displayChars (n : Number) : List Char :=
  if n.isNaN then ['N', 'a', 'N']
  else if n.isInfinite then (if n.negative then ['-', 'i', 'n', 'f'] else ['i', 'n', 'f'])
  else n.numeral.text

def display (n : Number) : String := String.ofList n.displayChars

def scientific (digits : List Char) (exponent : Int) : List Char :=
  let mantissa := match digits with
    | first :: second :: more => first :: '.' :: second :: more
    | short => short
  let power := Nat.toDigits 10 exponent.natAbs
  mantissa ++ ['e', if exponent < 0 then '-' else '+']
    ++ List.replicate (2 - power.length) '0' ++ power

def detailedChars (n : Number) : List Char :=
  if n.isNaN then ['n', 'a', 'n']
  else if n.isInfinite then n.displayChars
  else
    let digits := Nat.toDigits 10 n.decimal.digits
    let exponent := digits.length - 1 + n.decimal.exponent
    if -4 ≤ exponent ∧ exponent < 16 then
      let numeral := n.numeral
      { numeral with places := if numeral.places.isEmpty then ['0'] else numeral.places }.text
    else (if n.negative then ['-'] else []) ++ scientific digits exponent

def detailed (n : Number) : String := String.ofList n.detailedChars

theorem value_numeral {n : Number} (h : n.isFinite = true) : n.numeral.value = n := by
  rw [numeral, Numeral.value_ofDecimal, decimal, rank_shortest (by simpa [isFinite] using h),
    ofRank_rank]

end ScopedLisp.Number

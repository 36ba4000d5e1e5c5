import ScopedLisp.Text.Range

namespace ScopedLisp.Text

def spaceRuns : Array (Nat × Nat) := #[
  (0x9, 0xd), (0x1c, 0x20), (0x85, 0x85), (0xa0, 0xa0), (0x1680, 0x1680), (0x2000, 0x200a),
  (0x2028, 0x2029), (0x202f, 0x202f), (0x205f, 0x205f), (0x3000, 0x3000)]

def isSpace (c : Char) : Bool := inRanges spaceRuns c

def trim (s : String) : String := strip isSpace s

theorem isSpace_ascii : ∀ n < 128, isSpace (Char.ofNat n) =
    (n == 32 || 9 ≤ n && n ≤ 13 || 28 ≤ n && n ≤ 31) := by decide +kernel

end ScopedLisp.Text

import ScopedLisp.Number.Numeral
import ScopedLisp.Text.Space

namespace ScopedLisp

open Text

inductive Token where
  | number (n : Number)
  | symbol (name : String)
  | opening (lexeme : String)
  | closing (lexeme : String)
  | other (kind lexeme : String)
deriving DecidableEq

namespace Numeral

theorem length_of_ofPrefix? {cs rest : List Char} {n : Numeral}
    (h : ofPrefix? cs = some (n, rest)) : rest.length < cs.length := by
  have hl : 0 < n.whole.length := List.length_pos_iff.mpr (whole_of_ofPrefix? h)
  have ht := congrArg List.length (text_of_ofPrefix? h)
  simp only [text, List.length_append] at ht
  omega

end Numeral

namespace Token

def isSymbolChar (c : Char) : Bool := !isSpace c && c != '(' && c != ')'

def scan (c : Char) (cs : List Char) : Token × List Char :=
  if c = '(' then (.opening "(", cs)
  else if c = ')' then (.closing ")", cs)
  else match Numeral.ofPrefix? (c :: cs) with
    | some (n, rest) => (.number n.value, rest)
    | none =>
      (.symbol (String.ofList (c :: cs.takeWhile isSymbolChar)), cs.dropWhile isSymbolChar)

theorem length_scan (c : Char) (cs : List Char) : (scan c cs).2.length ≤ cs.length := by
  unfold scan
  split
  · exact Nat.le_refl _
  · split
    · exact Nat.le_refl _
    · split
      · next h => exact Nat.le_of_lt_succ (Numeral.length_of_ofPrefix? h)
      · exact (List.dropWhile_suffix _).length_le

def lex (cs : List Char) : List Token :=
  match _h : cs.dropWhile isSpace with
  | [] => []
  | c :: rest =>
    let step := scan c rest
    step.1 :: lex step.2
termination_by cs.length
decreasing_by
  have hs := length_scan c rest
  have hd := (List.dropWhile_suffix (l := cs) isSpace).length_le
  rw [_h, List.length_cons] at hd
  omega

def ofSource (source : String) : List Token := lex source.toList

end Token

end ScopedLisp

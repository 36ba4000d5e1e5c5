import ScopedLisp.Text.CaseTable
import ScopedLisp.Text.Range

/-!
Upper and lower case of a whole text. A capital sigma ends a word as `ς`: there is a letter before
it and none after it, marks left aside.
-/

namespace ScopedLisp.Text

def mapByRow (rows : Array (Nat × Nat × Nat × Nat)) (c : Char) : Char :=
  match rows.find? fun (first, last, step, _) =>
      first ≤ c.toNat && c.toNat ≤ last && (c.toNat - first) % step == 0 with
  | some (first, _, _, image) => Char.ofNat (image + (c.toNat - first))
  | none => c

theorem mapByRow_eq_self {rows : Array (Nat × Nat × Nat × Nat)} {c : Char}
    (h : ∀ row ∈ rows.toList, row.2.1 < c.toNat ∨ c.toNat < row.1) : mapByRow rows c = c := by
  have hnone : (rows.find? fun (first, last, step, _) =>
      first ≤ c.toNat && c.toNat ≤ last && (c.toNat - first) % step == 0) = none := by
    rw [← Array.find?_toList, List.find?_eq_none]
    rintro ⟨first, last, step, image⟩ hrow
    have hout := h _ hrow
    simp only [Bool.and_eq_true, decide_eq_true_eq]
    simp only at hout
    omega
  rw [mapByRow, hnone]

def upperChar (c : Char) : List Char :=
  match upperLong.find? (·.1 == c.toNat) with
  | some (_, image) => image.map Char.ofNat
  | none => [mapByRow upperRows c]

def upper (s : String) : String := String.ofList (s.toList.flatMap upperChar)

def meetsLetter (cs : List Char) : Bool :=
  match cs.dropWhile (inRanges uncountedRuns) with
  | [] => false
  | c :: _ => inRanges casedRuns c

def lowerChar (before : List Char) (c : Char) (after : List Char) : List Char :=
  if c = 'Σ' then [if meetsLetter before && !meetsLetter after then 'ς' else 'σ']
  else if c = 'İ' then ['i', '\u0307']
  else [mapByRow lowerRows c]

def lowerFrom (before : List Char) : List Char → List Char
  | [] => []
  | c :: after => lowerChar before c after ++ lowerFrom (c :: before) after

def lower (s : String) : String := String.ofList (lowerFrom [] s.toList)

theorem lowerRows_latin : ∀ row ∈ lowerRows.toList, row.2.1 < 0x61 ∨ 0x7a < row.1 := by
  have hall : lowerRows.toList.all (fun row => row.2.1 < 0x61 || 0x7a < row.1) = true := by
    decide +kernel
  intro row hrow
  have hout := List.all_eq_true.mp hall row hrow
  simpa using hout

theorem lower_latin {s : String} (h : ∀ c ∈ s.toList, 0x61 ≤ c.toNat ∧ c.toNat ≤ 0x7a) :
    lower s = s := by
  have hfrom : ∀ cs before : List Char, (∀ c ∈ cs, 0x61 ≤ c.toNat ∧ c.toNat ≤ 0x7a) →
      lowerFrom before cs = cs := by
    intro cs
    induction cs with
    | nil => exact fun _ _ => rfl
    | cons c cs ih =>
      intro before h
      obtain ⟨hc, hc'⟩ := h c (List.mem_cons_self ..)
      have hrow : mapByRow lowerRows c = c := by
        apply mapByRow_eq_self
        intro row hrow
        have hout := lowerRows_latin row hrow
        omega
      have hsigma : c ≠ 'Σ' := by
        rintro rfl
        revert hc'
        decide
      have hdot : c ≠ 'İ' := by
        rintro rfl
        revert hc'
        decide
      rw [lowerFrom, lowerChar, if_neg hsigma, if_neg hdot, hrow,
        ih _ fun c hc => h c (List.mem_cons_of_mem _ hc)]
      rfl
  rw [lower, hfrom _ _ h, String.ofList_toList]

end ScopedLisp.Text

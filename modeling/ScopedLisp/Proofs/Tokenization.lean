import ScopedLisp.Token

namespace ScopedLisp

open Text

theorem Token.isSymbolChar_of_isDigit {c : Char} (h : isDigit c = true) :
    Token.isSymbolChar c = true := by
  obtain ⟨d, hd⟩ := Option.isSome_iff_exists.mp h
  obtain ⟨z, hz, -⟩ := Option.map_eq_some_iff.mp hd
  have hmem := List.mem_of_find?_eq_some hz
  have hrange := List.find?_some hz
  simp only [Bool.and_eq_true, decide_eq_true_eq] at hrange
  have happart : ∀ z ∈ zeros, ∀ run ∈ spaceRuns, run.2 < z ∨ z + 10 ≤ run.1 := by decide +kernel
  have hparen : ∀ z ∈ zeros, 41 < z ∨ z + 10 ≤ 40 := by decide +kernel
  have hspace : isSpace c = false := by
    rw [isSpace, inRanges, Array.any_eq_false']
    intro run hrun
    have hz := happart z hmem run hrun
    simp only [Bool.and_eq_true, decide_eq_true_eq]
    omega
  have hc := hparen z hmem
  have hopen : c ≠ '(' := by
    rintro rfl
    exact absurd hrange (by simp only [show '('.toNat = 40 from rfl]; omega)
  have hclose : c ≠ ')' := by
    rintro rfl
    exact absurd hrange (by simp only [show ')'.toNat = 41 from rfl]; omega)
  simp [isSymbolChar, hspace, hopen, hclose]

namespace Token

def Ends (rest : List Char) : Prop := ∀ c, rest.head? = some c → isSymbolChar c = false

theorem ends_nil : Ends [] := by simp [Ends]

theorem ends_cons {c : Char} (h : isSymbolChar c = false) (cs : List Char) : Ends (c :: cs) := by
  simp [Ends, h]

theorem ends_of_space {c : Char} (h : isSpace c = true) (cs : List Char) : Ends (c :: cs) :=
  ends_cons (by simp [isSymbolChar, h]) cs

theorem Ends.head_ne {rest cs : List Char} {c : Char} (h : Ends rest)
    (hc : isSymbolChar c = true) : rest ≠ c :: cs := by
  rintro rfl
  have hfalse := h c rfl
  rw [hc] at hfalse
  cases hfalse

theorem Ends.eq_false {rest cs : List Char} {c : Char} {p : Char → Bool} (h : Ends rest)
    (hp : p c = true → isSymbolChar c = true) (hc : rest = c :: cs) : p c = false := by
  cases hpc : p c with
  | false => rfl
  | true => exact absurd hc (h.head_ne (hp hpc))

theorem Ends.span {p : Char → Bool} {cs rest : List Char} (h : Ends rest)
    (hp : ∀ c, p c = true → isSymbolChar c = true) (hcs : ∀ c ∈ cs, p c = true) :
    (cs ++ rest).takeWhile p = cs ∧ (cs ++ rest).dropWhile p = rest := by
  rw [List.takeWhile_append_of_pos hcs, List.dropWhile_append_of_pos hcs]
  cases rest with
  | nil => simp
  | cons c rest => simp [h.eq_false (hp c) rfl]

theorem ends_dropWhile (cs : List Char) : Ends (cs.dropWhile isSymbolChar) := by
  intro c hc
  have hne : cs.dropWhile isSymbolChar ≠ [] := by
    intro h
    simp [h] at hc
  have hfirst := List.head_dropWhile_not isSymbolChar hne
  rw [List.head?_eq_some_head hne, Option.some.injEq] at hc
  rwa [hc] at hfirst

end Token

namespace Numeral

structure Proper (n : Numeral) : Prop where
  ne_nil : n.whole ≠ []
  whole : ∀ c ∈ n.whole, isDigit c = true
  places : ∀ c ∈ n.places, isDigit c = true

theorem digits_fractionOf (cs : List Char) : ∀ c ∈ (fractionOf cs).1, isDigit c = true := by
  fun_cases fractionOf cs with
  | case1 => simp
  | case2 cs => exact List.all_eq_true.mp List.all_takeWhile
  | case3 => simp

theorem proper_of_ofPrefix? {cs rest : List Char} {n : Numeral}
    (h : ofPrefix? cs = some (n, rest)) : n.Proper := by
  have hdigits : ∀ s ds, ofDigits? s ds = some (n, rest) → n.Proper := by
    intro s ds h
    have hne := whole_of_ofDigits? h
    unfold ofDigits? at h
    split at h
    · cases h
    · obtain ⟨rfl, -⟩ := Prod.mk.inj (Option.some.inj h)
      exact ⟨hne, List.all_eq_true.mp List.all_takeWhile, digits_fractionOf _⟩
  unfold ofPrefix? at h
  split at h <;> exact hdigits _ _ h

def begins : List Char → Bool
  | '-' :: c :: _ => isDigit c
  | c :: _ => isDigit c
  | [] => false

theorem ofDigits?_eq_none_iff {s : Bool} {cs : List Char} :
    ofDigits? s cs = none ↔ ∀ c, cs.head? = some c → isDigit c = false := by
  cases cs with
  | nil => simp [ofDigits?]
  | cons c cs => cases hc : isDigit c <;> simp [ofDigits?, hc]

theorem isDigit_minus : isDigit '-' = false := by decide +kernel

theorem isDigit_point : isDigit '.' = false := by decide +kernel

theorem ofPrefix?_eq_none_iff {cs : List Char} : ofPrefix? cs = none ↔ begins cs = false := by
  unfold ofPrefix?
  split
  · next cs =>
    rw [ofDigits?_eq_none_iff]
    cases cs with
    | nil => simp [begins, isDigit_minus]
    | cons c cs => simp [begins]
  · next hminus =>
    rw [ofDigits?_eq_none_iff]
    cases cs with
    | nil => simp [begins]
    | cons c cs =>
      rw [begins]
      · simp
      · rintro d ds rfl
        exact fun _ => hminus _ rfl

theorem begins_append {cs rest : List Char} (hne : cs ≠ []) (h : Token.Ends rest) :
    begins (cs ++ rest) = begins cs := by
  match cs with
  | c :: d :: ds =>
    by_cases hc : c = '-'
    · subst hc
      rfl
    · rw [List.cons_append, begins, begins] <;> simp [hc]
  | [c] =>
    cases rest with
    | nil => rfl
    | cons d ds =>
      by_cases hc : c = '-'
      · subst hc
        have hd := h.eq_false Token.isSymbolChar_of_isDigit rfl
        simp [begins, isDigit_minus, hd]
      · rw [List.cons_append, begins, begins] <;> simp [hc]

theorem Proper.fractionOf_append {n : Numeral} {rest : List Char} (hn : n.Proper)
    (h : Token.Ends rest) : fractionOf (n.fraction ++ rest) = (n.places, rest) := by
  obtain ⟨s, whole, places⟩ := n
  have hp := hn.places
  cases places with
  | nil =>
    simp only [fraction, List.isEmpty_nil, if_true, List.nil_append]
    unfold fractionOf
    split
    · exact absurd rfl (h.head_ne (by decide +kernel))
    · rfl
  | cons c cs =>
    obtain ⟨htake, hdrop⟩ := h.span (fun c => Token.isSymbolChar_of_isDigit) hp
    simp only [List.cons_append] at htake hdrop
    simp [fraction, fractionOf, htake, hdrop]

theorem Proper.ofDigits?_append {n : Numeral} {rest : List Char} (hn : n.Proper)
    (h : Token.Ends rest) :
    ofDigits? n.negative (n.whole ++ n.fraction ++ rest) = some (n, rest) := by
  -- the point ends the row of digits just as the end of the numeral does
  have hspan : (n.whole ++ (n.fraction ++ rest)).takeWhile isDigit = n.whole ∧
      (n.whole ++ (n.fraction ++ rest)).dropWhile isDigit = n.fraction ++ rest := by
    cases hpl : n.places with
    | nil =>
      simp only [fraction, hpl, List.isEmpty_nil, if_true, List.nil_append]
      exact h.span (fun c => Token.isSymbolChar_of_isDigit) hn.whole
    | cons c cs =>
      rw [List.takeWhile_append_of_pos hn.whole, List.dropWhile_append_of_pos hn.whole]
      simp [fraction, hpl, isDigit_point]
  rw [List.append_assoc, ofDigits?, hspan.1, hspan.2, if_neg (by simpa using hn.ne_nil),
    hn.fractionOf_append h]

theorem Proper.ofPrefix?_append {n : Numeral} {rest : List Char} (hn : n.Proper)
    (h : Token.Ends rest) : ofPrefix? (n.text ++ rest) = some (n, rest) := by
  have hdigits := hn.ofDigits?_append h
  cases hs : n.negative with
  | true =>
    rw [hs] at hdigits
    simp only [text, sign, hs, if_true, List.cons_append, List.nil_append]
    exact hdigits
  | false =>
    rw [hs] at hdigits
    simp only [text, sign, hs, Bool.false_eq_true, if_false, List.nil_append]
    obtain ⟨c, cs, hc⟩ := List.exists_cons_of_ne_nil hn.ne_nil
    have hdigit := hn.whole c (by simp [hc])
    unfold ofPrefix?
    split
    · next heq =>
      simp only [hc, List.cons_append, List.cons.injEq] at heq
      rw [heq.1, isDigit_minus] at hdigit
      cases hdigit
    · exact hdigits

end Numeral

namespace Token

structure IsName (cs : List Char) : Prop where
  ne_nil : cs ≠ []
  symbol : ∀ c ∈ cs, isSymbolChar c = true
  unnumbered : Numeral.begins cs = false

section lex

variable {c : Char} {cs rest : List Char}

theorem lex_nil : lex [] = [] := by
  rw [lex]
  rfl

theorem lex_cons (h : isSpace c = false) : lex (c :: cs) = (scan c cs).1 :: lex (scan c cs).2 := by
  have hd : (c :: cs).dropWhile isSpace = c :: cs := by simp [h]
  rw [lex]
  split
  · next heq => simp [hd] at heq
  · next heq =>
    rw [hd] at heq
    obtain ⟨rfl, rfl⟩ := List.cons.inj heq
    rfl

theorem lex_space (h : isSpace c = true) : lex (c :: cs) = lex cs := by
  have hd : (c :: cs).dropWhile isSpace = cs.dropWhile isSpace := by simp [h]
  unfold lex
  rw [hd]

theorem lex_opening : lex ('(' :: cs) = .opening "(" :: lex cs := lex_cons (by decide +kernel)

theorem lex_closing : lex (')' :: cs) = .closing ")" :: lex cs := lex_cons (by decide +kernel)

theorem not_space_of_symbol (h : isSymbolChar c = true) : isSpace c = false ∧ c ≠ '(' ∧ c ≠ ')' := by
  simpa [isSymbolChar, and_assoc] using h

theorem IsName.lex_append (h : IsName cs) (hr : Ends rest) :
    lex (cs ++ rest) = .symbol (String.ofList cs) :: lex rest := by
  have hnone : Numeral.ofPrefix? (cs ++ rest) = none := by
    rw [Numeral.ofPrefix?_eq_none_iff, Numeral.begins_append h.ne_nil hr]
    exact h.unnumbered
  obtain ⟨c, cs, rfl⟩ := List.exists_cons_of_ne_nil h.ne_nil
  have hsymbol := h.symbol
  rw [List.forall_mem_cons] at hsymbol
  obtain ⟨hspace, hopen, hclose⟩ := not_space_of_symbol hsymbol.1
  obtain ⟨htake, hdrop⟩ := hr.span (fun _ hc => hc) hsymbol.2
  rw [List.cons_append] at hnone ⊢
  have hscan : scan c (cs ++ rest) = (.symbol (String.ofList (c :: cs)), rest) := by
    rw [scan, if_neg hopen, if_neg hclose, hnone, htake, hdrop]
  rw [lex_cons hspace, hscan]

theorem lex_numeral_append {n : Numeral} (hn : n.Proper) (hr : Ends rest) :
    lex (n.text ++ rest) = .number n.value :: lex rest := by
  have hsome := hn.ofPrefix?_append hr
  obtain ⟨d, ds, hd⟩ := List.exists_cons_of_ne_nil hn.ne_nil
  obtain ⟨c, cs, hc, hsymbol⟩ : ∃ c cs, n.text = c :: cs ∧ isSymbolChar c = true := by
    cases hs : n.negative with
    | true =>
      refine ⟨'-', n.whole ++ n.fraction, ?_, by decide +kernel⟩
      simp [Numeral.text, Numeral.sign, hs]
    | false =>
      refine ⟨d, ds ++ n.fraction, ?_, isSymbolChar_of_isDigit (hn.whole d (by simp [hd]))⟩
      simp [Numeral.text, Numeral.sign, hs, hd]
  obtain ⟨hspace, hopen, hclose⟩ := not_space_of_symbol hsymbol
  rw [hc, List.cons_append] at hsome ⊢
  have hscan : scan c (cs ++ rest) = (.number n.value, rest) := by
    rw [scan, if_neg hopen, if_neg hclose, hsome]
  rw [lex_cons hspace, hscan]

inductive Lexed : Token → Prop where
  | opening : Lexed (.opening "(")
  | closing : Lexed (.closing ")")
  | number {n : Numeral} (h : n.Proper) : Lexed (.number n.value)
  | symbol {cs : List Char} (h : IsName cs) : Lexed (.symbol (String.ofList cs))

theorem lexed_scan (h : isSpace c = false) (cs : List Char) : Lexed (scan c cs).1 := by
  unfold scan
  split
  · exact .opening
  · next hopen =>
    split
    · exact .closing
    · next hclose =>
      split
      · next hsome => exact .number (Numeral.proper_of_ofPrefix? hsome)
      · next hnone =>
        have hsymbol : isSymbolChar c = true := by simp [isSymbolChar, h, hopen, hclose]
        apply Lexed.symbol
        refine ⟨by simp, ?_, ?_⟩
        · rw [List.forall_mem_cons]
          exact ⟨hsymbol, List.all_eq_true.mp List.all_takeWhile⟩
        · -- the part of the text that is cut off does not decide whether a numeral is at its start
          rw [Numeral.ofPrefix?_eq_none_iff] at hnone
          rw [← Numeral.begins_append (by simp) (ends_dropWhile cs), List.cons_append,
            List.takeWhile_append_dropWhile, hnone]

theorem lexed_of_mem_lex {t : Token} (ht : t ∈ lex cs) : Lexed t := by
  induction hn : cs.length using Nat.strongRecOn generalizing cs with
  | ind n ih =>
    subst hn
    cases cs with
    | nil => simp [lex_nil] at ht
    | cons c cs =>
      cases hc : isSpace c with
      | true =>
        rw [lex_space hc] at ht
        exact ih cs.length (Nat.lt_succ_self _) ht rfl
      | false =>
        rw [lex_cons hc, List.mem_cons] at ht
        rcases ht with rfl | ht
        · exact lexed_scan hc cs
        · exact ih _ (Nat.lt_succ_of_le (length_scan c cs)) ht rfl

end lex

end Token

end ScopedLisp

import Mathlib.Logic.ExistsUnique
import ScopedLisp.Proofs.Tokenization

namespace ScopedLisp

open Text

theorem Token.Ends.split {rest : List Char} {p : Char → Bool} (h : Token.Ends rest)
    (hp : ∀ c, p c = true → Token.isSymbolChar c = true) (cs : List Char) :
    (cs ++ rest).takeWhile p = cs.takeWhile p ∧
      (cs ++ rest).dropWhile p = cs.dropWhile p ++ rest := by
  induction cs with
  | nil => exact h.span hp (by simp)
  | cons c cs ih =>
    cases hc : p c with
    | true => simp [hc, ih]
    | false => simp [hc]

namespace Numeral

variable {cs rest : List Char} {n m : Numeral} {s : Bool}

theorem fractionOf_append_ends (h : Token.Ends rest) (cs : List Char) :
    fractionOf (cs ++ rest) =
      ((fractionOf cs).1, (fractionOf cs).2 ++ rest) := by
  fun_cases fractionOf cs with
  | case1 cs hnone =>
    obtain ⟨htake, hdrop⟩ := h.split (fun c => Token.isSymbolChar_of_isDigit) cs
    rw [List.cons_append, fractionOf, htake, if_pos hnone]
  | case2 cs hsome =>
    obtain ⟨htake, hdrop⟩ := h.split (fun c => Token.isSymbolChar_of_isDigit) cs
    rw [List.cons_append, fractionOf, htake, hdrop, if_neg hsome]
  | case3 cs hpoint =>
    rw [fractionOf]
    intro ds hds
    cases cs with
    | nil => exact h.head_ne (by decide +kernel) hds
    | cons c cs =>
      obtain ⟨rfl, -⟩ := List.cons.inj hds
      exact hpoint cs rfl

theorem ofDigits?_append (h : Token.Ends rest) (s : Bool) (cs : List Char) :
    ofDigits? s (cs ++ rest) =
      (ofDigits? s cs).map fun r => (r.1, r.2 ++ rest) := by
  obtain ⟨htake, hdrop⟩ := h.split (fun c => Token.isSymbolChar_of_isDigit) cs
  rw [ofDigits?, ofDigits?, htake, hdrop, fractionOf_append_ends h]
  split <;> rfl

theorem ofPrefix?_append (h : Token.Ends rest) {cs : List Char} (hne : cs ≠ []) :
    ofPrefix? (cs ++ rest) =
      (ofPrefix? cs).map fun r => (r.1, r.2 ++ rest) := by
  fun_cases ofPrefix? cs with
  | case1 cs =>
    rw [List.cons_append, ofPrefix?]
    exact ofDigits?_append h true cs
  | case2 cs hminus =>
    rw [ofPrefix?, ofDigits?_append h]
    intro ds hds
    obtain ⟨c, cs, rfl⟩ := List.exists_cons_of_ne_nil hne
    obtain ⟨rfl, -⟩ := List.cons.inj hds
    exact hminus cs rfl

theorem Proper.exists_whole (hm : m.Proper) : ∃ d ds, m.whole = d :: ds ∧ isDigit d = true := by
  obtain ⟨d, ds, hd⟩ := List.exists_cons_of_ne_nil hm.ne_nil
  exact ⟨d, ds, hd, hm.whole d (by simp [hd])⟩

theorem parts_of_ofDigits? (h : ofDigits? s cs = some (n, rest)) :
    n.whole = cs.takeWhile isDigit ∧ n.places = (fractionOf (cs.dropWhile isDigit)).1 := by
  unfold ofDigits? at h
  split at h
  · cases h
  · obtain ⟨rfl, -⟩ := Prod.mk.inj (Option.some.inj h)
    exact ⟨rfl, rfl⟩

theorem Proper.ofDigits?_longest (hm : m.Proper) (h : ofDigits? s cs = some (n, rest))
    (hp : m.whole ++ m.fraction <+: cs) :
    (m.whole ++ m.fraction).length ≤ (n.whole ++ n.fraction).length := by
  obtain ⟨us, rfl⟩ := hp
  obtain ⟨hwhole, hplaces⟩ := parts_of_ofDigits? h
  rw [List.append_assoc, List.takeWhile_append_of_pos hm.whole] at hwhole
  rw [List.append_assoc, List.dropWhile_append_of_pos hm.whole] at hplaces
  cases hpl : m.places with
  | nil =>
    have hnone : m.fraction = [] := by simp [fraction, hpl]
    simp only [hnone, hwhole, List.append_nil, List.length_append]
    omega
  | cons d ds =>
    -- the point ends the digits in front of it, so both numerals have it
    have hfraction : m.fraction = '.' :: d :: ds := by simp [fraction, hpl]
    have hdigits : ∀ c ∈ d :: ds, isDigit c = true := fun c hc => hm.places c (hpl ▸ hc)
    have hspan : (d :: (ds ++ us)).takeWhile isDigit = d :: (ds ++ us.takeWhile isDigit) := by
      rw [← List.cons_append, List.takeWhile_append_of_pos hdigits, List.cons_append]
    have hlong : n.places = d :: (ds ++ us.takeWhile isDigit) := by
      simp [hplaces, hfraction, isDigit_point, fractionOf, hspan]
    have hlonger : n.fraction = '.' :: n.places := by simp [fraction, hlong]
    simp only [hfraction, hwhole, hlonger, hlong, List.length_append, List.length_cons]
    omega

theorem Proper.text_ne_nil (hn : n.Proper) : n.text ≠ [] := by
  simp [text, hn.ne_nil]

theorem Proper.isSymbolChar_text (hn : n.Proper) : ∀ c ∈ n.text, Token.isSymbolChar c = true := by
  have hsign : ∀ c ∈ n.sign, Token.isSymbolChar c = true := by
    unfold sign
    split
    · exact List.all_eq_true.mp (by decide +kernel)
    · simp
  have hfraction : ∀ c ∈ n.fraction, Token.isSymbolChar c = true := by
    unfold fraction
    split
    · simp
    · rw [List.forall_mem_cons]
      exact ⟨by decide +kernel, fun c hc => Token.isSymbolChar_of_isDigit (hn.places c hc)⟩
  simp only [text, List.forall_mem_append]
  exact ⟨⟨hsign, fun c hc => Token.isSymbolChar_of_isDigit (hn.whole c hc)⟩, hfraction⟩

theorem Proper.text_inj (hn : n.Proper) (hm : m.Proper) (h : n.text = m.text) : n = m := by
  have hread := hn.ofPrefix?_append Token.ends_nil
  rw [h, hm.ofPrefix?_append Token.ends_nil] at hread
  exact (Prod.mk.inj (Option.some.inj hread)).1.symm

theorem Proper.ofPrefix?_longest (hm : m.Proper) (h : ofPrefix? cs = some (n, rest))
    (hp : m.text <+: cs) : m.text.length ≤ n.text.length := by
  obtain ⟨d, ds, hd, hdigit⟩ := hm.exists_whole
  unfold ofPrefix? at h
  split at h
  · next cs =>
    have hn := (text_of_ofDigits? h).1
    cases hs : m.negative with
    | false =>
      simp only [text, sign, hs, hd, Bool.false_eq_true, if_false, List.nil_append,
        List.cons_append, List.cons_prefix_cons] at hp
      rw [hp.1, isDigit_minus] at hdigit
      cases hdigit
    | true =>
      simp only [text, sign, hs, if_true, List.cons_append, List.nil_append,
        List.cons_prefix_cons, true_and] at hp
      have hle := hm.ofDigits?_longest h hp
      simp only [text, sign, hs, hn, List.length_append] at hle ⊢
      omega
  · next hminus =>
    have hn := (text_of_ofDigits? h).1
    cases hs : m.negative with
    | true =>
      simp only [text, sign, hs, if_true, List.cons_append, List.nil_append] at hp
      obtain ⟨us, rfl⟩ := hp
      exact absurd rfl (hminus _)
    | false =>
      simp only [text, sign, hs, Bool.false_eq_true, if_false, List.nil_append] at hp
      have hle := hm.ofDigits?_longest h hp
      simp only [text, sign, hs, hn, List.length_append] at hle ⊢
      omega

end Numeral

namespace Token

variable {c : Char} {cs ds text rest : List Char}

theorem scan_append (h : Ends rest) (c : Char) (cs : List Char) :
    scan c (cs ++ rest) = ((scan c cs).1, (scan c cs).2 ++ rest) := by
  have hnumeral := Numeral.ofPrefix?_append h (List.cons_ne_nil c cs)
  obtain ⟨htake, hdrop⟩ := h.split (fun _ hc => hc) cs
  rw [List.cons_append] at hnumeral
  rw [scan, scan, hnumeral, htake, hdrop]
  split
  · rfl
  · split
    · rfl
    · cases Numeral.ofPrefix? (c :: cs) <;> rfl

theorem lex_append (h : Ends rest) (cs : List Char) : lex (cs ++ rest) = lex cs ++ lex rest := by
  induction hn : cs.length using Nat.strongRecOn generalizing cs with
  | ind n ih =>
    subst hn
    cases cs with
    | nil => rw [lex_nil, List.nil_append, List.nil_append]
    | cons c cs =>
      cases hc : isSpace c with
      | true =>
        rw [List.cons_append, lex_space hc, lex_space hc]
        exact ih cs.length (Nat.lt_succ_self _) cs rfl
      | false =>
        have hrest := ih _ (Nat.lt_succ_of_le (length_scan c cs)) (scan c cs).2 rfl
        rw [List.cons_append, lex_cons hc, lex_cons hc, scan_append h, hrest, List.cons_append]

theorem lex_spaces {w : List Char} (hw : ∀ c ∈ w, isSpace c = true) (cs : List Char) :
    lex (w ++ cs) = lex cs := by
  induction w with
  | nil => rfl
  | cons c w ih =>
    rw [List.forall_mem_cons] at hw
    rw [List.cons_append, lex_space hw.1, ih hw.2]

theorem ends_space {w : List Char} (hw : ∀ c ∈ w, isSpace c = true) (hne : w ≠ [])
    (cs : List Char) : Ends (w ++ cs) := by
  obtain ⟨c, w, rfl⟩ := List.exists_cons_of_ne_nil hne
  exact ends_of_space (hw c (by simp)) _

inductive Starts : List Char → List Char → Token → Prop where
  | opening (cs : List Char) : Starts ('(' :: cs) ['('] (.opening "(")
  | closing (cs : List Char) : Starts (')' :: cs) [')'] (.closing ")")
  | number {text : List Char} {n : Numeral} (hb : Numeral.begins text = true) (hn : n.Proper)
      (h : n.text <+: text)
      (longest : ∀ m : Numeral, m.Proper → m.text <+: text → m.text.length ≤ n.text.length) :
      Starts text n.text (.number n.value)
  | symbol {lexeme rest : List Char} (hb : Numeral.begins (lexeme ++ rest) = false)
      (hne : lexeme ≠ []) (h : ∀ c ∈ lexeme, isSymbolChar c = true) (hr : Ends rest) :
      Starts (lexeme ++ rest) lexeme (.symbol (String.ofList lexeme))

theorem Starts.pieces {lexeme : List Char} {t : Token} (h : Starts text lexeme t) :
    lexeme <+: text ∧ lexeme ≠ [] ∧ ∀ c ∈ lexeme, isSpace c = false := by
  cases h with
  | opening cs => exact ⟨⟨cs, rfl⟩, by simp, List.forall_mem_singleton.mpr (by decide +kernel)⟩
  | closing cs => exact ⟨⟨cs, rfl⟩, by simp, List.forall_mem_singleton.mpr (by decide +kernel)⟩
  | number hb hn h longest =>
    refine ⟨h, hn.text_ne_nil, ?_⟩
    intro c hc
    exact (not_space_of_symbol (hn.isSymbolChar_text c hc)).1
  | @symbol lexeme rest hb hne h hr =>
    refine ⟨⟨rest, rfl⟩, hne, ?_⟩
    intro c hc
    exact (not_space_of_symbol (h c hc)).1

theorem starts_scan (hc : isSpace c = false) (cs : List Char) :
    ∃ lexeme, Starts (c :: cs) lexeme (scan c cs).1 ∧ c :: cs = lexeme ++ (scan c cs).2 := by
  unfold scan
  split
  · next h =>
    subst h
    exact ⟨_, .opening cs, rfl⟩
  · next hopen =>
    split
    · next h =>
      subst h
      exact ⟨_, .closing cs, rfl⟩
    · next hclose =>
      split
      · next n rest hsome =>
        have htext := Numeral.text_of_ofPrefix? hsome
        have hbegins : Numeral.begins (c :: cs) = true := by
          cases hb : Numeral.begins (c :: cs) with
          | true => rfl
          | false =>
            rw [Numeral.ofPrefix?_eq_none_iff.mpr hb] at hsome
            cases hsome
        have hn := Numeral.proper_of_ofPrefix? hsome
        refine ⟨n.text, .number hbegins hn ⟨rest, htext.symm⟩ ?_, htext⟩
        exact fun m hm hp => hm.ofPrefix?_longest hsome hp
      · next hnone =>
        have hsplit : c :: cs = (c :: cs.takeWhile isSymbolChar) ++ cs.dropWhile isSymbolChar := by
          rw [List.cons_append, List.takeWhile_append_dropWhile]
        rw [Numeral.ofPrefix?_eq_none_iff, hsplit] at hnone
        have hsymbol : isSymbolChar c = true := by simp [isSymbolChar, hc, hopen, hclose]
        refine ⟨_, hsplit ▸ .symbol hnone (by simp) ?_ (ends_dropWhile cs), hsplit⟩
        rw [List.forall_mem_cons]
        exact ⟨hsymbol, List.all_eq_true.mp List.all_takeWhile⟩

theorem begins_symbol (h : Numeral.begins (c :: cs) = true) : isSymbolChar c = true := by
  by_cases hc : c = '-'
  · subst hc
    decide +kernel
  · rw [Numeral.begins] at h
    · exact isSymbolChar_of_isDigit h
    · rintro d ds rfl
      exact fun _ => hc rfl

theorem Starts.scan_eq {lexeme : List Char} {t : Token} (h : Starts (c :: cs) lexeme t) :
    ∃ rest, scan c cs = (t, rest) ∧ c :: cs = lexeme ++ rest := by
  generalize htext : c :: cs = text at h
  cases h with
  | opening ds =>
    obtain ⟨rfl, rfl⟩ := List.cons.inj htext
    exact ⟨cs, rfl, rfl⟩
  | closing ds =>
    obtain ⟨rfl, rfl⟩ := List.cons.inj htext
    exact ⟨cs, rfl, rfl⟩
  | @number _ n hb hn hp longest =>
    subst htext
    obtain ⟨-, hopen, hclose⟩ := not_space_of_symbol (begins_symbol hb)
    cases hread : Numeral.ofPrefix? (c :: cs) with
    | none =>
      rw [Numeral.ofPrefix?_eq_none_iff, hb] at hread
      cases hread
    | some r =>
      obtain ⟨m, rest⟩ := r
      have hm := Numeral.proper_of_ofPrefix? hread
      have htext := Numeral.text_of_ofPrefix? hread
      have hpm : m.text <+: c :: cs := ⟨rest, htext.symm⟩
      -- two longest numerals at one place have the same text
      have hlength := Nat.le_antisymm (hn.ofPrefix?_longest hread hp) (longest m hm hpm)
      have hsame := (List.prefix_of_prefix_length_le hp hpm (Nat.le_of_eq hlength)).eq_of_length hlength
      obtain rfl := hn.text_inj hm hsame
      refine ⟨rest, ?_, htext⟩
      rw [scan, if_neg hopen, if_neg hclose, hread]
  | @symbol lexeme rest hb hne hsymbol hr =>
    obtain ⟨d, ds, rfl⟩ := List.exists_cons_of_ne_nil hne
    rw [List.cons_append] at htext hb
    obtain ⟨rfl, rfl⟩ := List.cons.inj htext
    rw [List.forall_mem_cons] at hsymbol
    obtain ⟨-, hopen, hclose⟩ := not_space_of_symbol hsymbol.1
    obtain ⟨htake, hdrop⟩ := hr.span (fun _ hc => hc) hsymbol.2
    refine ⟨rest, ?_, rfl⟩
    rw [scan, if_neg hopen, if_neg hclose, Numeral.ofPrefix?_eq_none_iff.mpr hb, htake, hdrop]

theorem Starts.unique {l l' : List Char} {t t' : Token} (h : Starts text l t)
    (h' : Starts text l' t') : l = l' ∧ t = t' := by
  obtain ⟨hp, hne, -⟩ := h.pieces
  cases text with
  | nil => exact absurd (List.prefix_nil.mp hp) hne
  | cons c cs =>
    obtain ⟨rest, hscan, htext⟩ := h.scan_eq
    obtain ⟨rest', hscan', htext'⟩ := h'.scan_eq
    rw [hscan] at hscan'
    obtain ⟨rfl, rfl⟩ := Prod.mk.inj hscan'
    rw [htext] at htext'
    exact ⟨List.append_cancel_right htext', rfl⟩

structure Piece where
  lexeme : List Char
  token : Token
  space : List Char

def Piece.join : List Piece → List Char
  | [] => []
  | p :: ps => p.lexeme ++ (p.space ++ join ps)

def Piece.Lexemes : List Piece → Prop
  | [] => True
  | p :: ps => Starts (join (p :: ps)) p.lexeme p.token ∧ (∀ c ∈ p.space, isSpace c = true) ∧
    Lexemes ps

structure Cutting where
  space : List Char
  pieces : List Piece

structure Cutting.Of (text : List Char) (k : Cutting) : Prop where
  space : ∀ c ∈ k.space, isSpace c = true
  join : k.space ++ Piece.join k.pieces = text
  lexemes : Piece.Lexemes k.pieces

theorem Piece.lexemes_pieces {ps : List Piece} (h : Lexemes ps) :
    ∀ p ∈ ps, p.lexeme ≠ [] ∧ ∀ c ∈ p.lexeme, isSpace c = false := by
  induction ps with
  | nil => simp
  | cons p ps ih =>
    rw [List.forall_mem_cons]
    exact ⟨h.1.pieces.2, ih h.2.2⟩

theorem Piece.head_join {p : Piece} {ps : List Piece} (h : Lexemes (p :: ps)) :
    ∃ c cs, join (p :: ps) = c :: cs ∧ isSpace c = false := by
  obtain ⟨-, hne, hspace⟩ := h.1.pieces
  obtain ⟨c, cs, hc⟩ := List.exists_cons_of_ne_nil hne
  refine ⟨c, cs ++ (p.space ++ join ps), ?_, hspace c (by simp [hc])⟩
  rw [join, hc, List.cons_append]

theorem Piece.span {w : List Char} {ps : List Piece} (hw : ∀ c ∈ w, isSpace c = true)
    (h : Lexemes ps) : (w ++ join ps).takeWhile isSpace = w ∧
      (w ++ join ps).dropWhile isSpace = join ps := by
  rw [List.takeWhile_append_of_pos hw, List.dropWhile_append_of_pos hw]
  cases ps with
  | nil => simp [join]
  | cons p ps =>
    obtain ⟨c, cs, hjoin, hc⟩ := head_join h
    simp [hjoin, hc]

theorem Piece.join_eq {w w' : List Char} {ps ps' : List Piece}
    (hw : ∀ c ∈ w, isSpace c = true) (hw' : ∀ c ∈ w', isSpace c = true) (h : Lexemes ps)
    (h' : Lexemes ps') (heq : w ++ join ps = w' ++ join ps') : w = w' ∧ join ps = join ps' := by
  obtain ⟨htake, hdrop⟩ := span hw h
  obtain ⟨htake', hdrop'⟩ := span hw' h'
  rw [heq, htake'] at htake
  rw [heq, hdrop'] at hdrop
  exact ⟨htake.symm, hdrop.symm⟩

theorem exists_cutting (cs : List Char) :
    ∃ k : Cutting, k.Of cs ∧ k.pieces.map Piece.token = lex cs := by
  induction hn : cs.length using Nat.strongRecOn generalizing cs with
  | ind n ih =>
    subst hn
    cases cs with
    | nil => exact ⟨⟨[], []⟩, ⟨by simp, rfl, trivial⟩, lex_nil.symm⟩
    | cons c cs =>
      cases hc : isSpace c with
      | true =>
        obtain ⟨k, hk, htokens⟩ := ih cs.length (Nat.lt_succ_self _) cs rfl
        refine ⟨⟨c :: k.space, k.pieces⟩, ⟨?_, ?_, hk.lexemes⟩, ?_⟩
        · rw [List.forall_mem_cons]
          exact ⟨hc, hk.space⟩
        · rw [List.cons_append, hk.join]
        · rw [lex_space hc, htokens]
      | false =>
        obtain ⟨lexeme, hstarts, htext⟩ := starts_scan hc cs
        obtain ⟨k, hk, htokens⟩ := ih _ (Nat.lt_succ_of_le (length_scan c cs)) (scan c cs).2 rfl
        have hjoin : lexeme ++ (k.space ++ Piece.join k.pieces) = c :: cs := by
          rw [hk.join, ← htext]
        refine ⟨⟨[], ⟨lexeme, (scan c cs).1, k.space⟩ :: k.pieces⟩, ⟨by simp, hjoin, ?_⟩, ?_⟩
        · refine ⟨?_, hk.space, hk.lexemes⟩
          rw [Piece.join, hjoin]
          exact hstarts
        · rw [lex_cons hc, List.map_cons, htokens]

theorem Piece.unique {w w' : List Char} {ps ps' : List Piece}
    (hw : ∀ c ∈ w, isSpace c = true) (hw' : ∀ c ∈ w', isSpace c = true) (h : Lexemes ps)
    (h' : Lexemes ps') (heq : w ++ join ps = w' ++ join ps') : w = w' ∧ ps = ps' := by
  induction ps generalizing w w' ps' with
  | nil =>
    obtain ⟨hspace, hjoin⟩ := join_eq hw hw' h h' heq
    cases ps' with
    | nil => exact ⟨hspace, rfl⟩
    | cons p' ps' =>
      obtain ⟨c, cs, hcons, -⟩ := head_join h'
      rw [← hjoin] at hcons
      cases hcons
  | cons p ps ih =>
    obtain ⟨hspace, hjoin⟩ := join_eq hw hw' h h' heq
    cases ps' with
    | nil =>
      obtain ⟨c, cs, hcons, -⟩ := head_join h
      rw [hjoin] at hcons
      cases hcons
    | cons p' ps' =>
      obtain ⟨hstarts, hafter, hrest⟩ := h
      obtain ⟨hstarts', hafter', hrest'⟩ := h'
      rw [← hjoin] at hstarts'
      obtain ⟨hlexeme, htoken⟩ := hstarts.unique hstarts'
      rw [join, join, hlexeme] at hjoin
      obtain ⟨hsame, rfl⟩ := ih hafter hafter' hrest hrest' (List.append_cancel_left hjoin)
      obtain ⟨lexeme, token, space⟩ := p
      obtain ⟨lexeme', token', space'⟩ := p'
      simp only at hlexeme htoken hsame
      subst hlexeme htoken hsame
      exact ⟨hspace, rfl⟩

theorem Cutting.Of.unique {k k' : Cutting} (h : k.Of cs) (h' : k'.Of cs) : k = k' := by
  obtain ⟨w, ps⟩ := k
  obtain ⟨w', ps'⟩ := k'
  have hjoin := h.join.trans h'.join.symm
  obtain ⟨rfl, rfl⟩ := Piece.unique h.space h'.space h.lexemes h'.lexemes hjoin
  rfl

structure LexFault where
  char : Char
  position : Nat

def number? (cs : List Char) : Option (Token × List Char) :=
  (Numeral.ofPrefix? cs).map fun (n, rest) => (.number n.value, rest)

def symbol? (cs : List Char) : Option (Token × List Char) :=
  if (cs.takeWhile isSymbolChar).isEmpty then none
  else some (.symbol (String.ofList (cs.takeWhile isSymbolChar)), cs.dropWhile isSymbolChar)

def opening? : List Char → Option (Token × List Char)
  | '(' :: cs => some (.opening "(", cs)
  | _ => none

def closing? : List Char → Option (Token × List Char)
  | ')' :: cs => some (.closing ")", cs)
  | _ => none

def first? (cs : List Char) : Option (Token × List Char) :=
  number? cs <|> symbol? cs <|> opening? cs <|> closing? cs

theorem first?_of_not_symbol (h : isSymbolChar c = false) (cs : List Char) :
    first? (c :: cs) = (opening? (c :: cs) <|> closing? (c :: cs)) := by
  have hbegins : Numeral.begins (c :: cs) = false := by
    cases hb : Numeral.begins (c :: cs) with
    | false => rfl
    | true =>
      rw [begins_symbol hb] at h
      cases h
  have hnumber : number? (c :: cs) = none := by
    rw [number?, Numeral.ofPrefix?_eq_none_iff.mpr hbegins, Option.map_none]
  have hsymbol : symbol? (c :: cs) = none := by simp [symbol?, h]
  rw [first?, hnumber, hsymbol]
  rfl

theorem first?_eq_scan (hc : isSpace c = false) (cs : List Char) :
    first? (c :: cs) = some (scan c cs) := by
  by_cases hopen : c = '('
  · subst hopen
    exact first?_of_not_symbol (by decide +kernel) cs
  by_cases hclose : c = ')'
  · subst hclose
    exact first?_of_not_symbol (by decide +kernel) cs
  have hsymbol : isSymbolChar c = true := by simp [isSymbolChar, hc, hopen, hclose]
  rw [first?, number?, scan, if_neg hopen, if_neg hclose]
  cases Numeral.ofPrefix? (c :: cs) with
  | some r => rfl
  | none => simp [symbol?, hsymbol]

theorem not_space_of_dropWhile (h : cs.dropWhile isSpace = c :: rest) : isSpace c = false := by
  have hne : cs.dropWhile isSpace ≠ [] := by simp [h]
  have hfirst := List.head_dropWhile_not isSpace hne
  simpa only [h, List.head_cons] using hfirst

def attempt (position : Nat) (cs : List Char) : Except LexFault (List Token) :=
  match _h : cs.dropWhile isSpace with
  | [] => .ok []
  | c :: rest =>
    match _hf : first? (c :: rest) with
    | none => .error ⟨c, position + (cs.length - (c :: rest).length)⟩
    | some (t, left) => (attempt (position + (cs.length - left.length)) left).map (t :: ·)
termination_by cs.length
decreasing_by
  rw [first?_eq_scan (not_space_of_dropWhile _h), Option.some.injEq] at _hf
  have hs := length_scan c rest
  have hd := (List.dropWhile_suffix (l := cs) isSpace).length_le
  rw [_h, List.length_cons] at hd
  rw [_hf] at hs
  exact Nat.lt_of_lt_of_le (Nat.lt_succ_of_le hs) hd

theorem lex_of_dropWhile_nil (h : cs.dropWhile isSpace = []) : lex cs = [] := by
  rw [lex]
  split
  · rfl
  · next heq => simp [h] at heq

theorem lex_of_dropWhile_cons (h : cs.dropWhile isSpace = c :: rest) :
    lex cs = (scan c rest).1 :: lex (scan c rest).2 := by
  rw [lex]
  split
  · next heq => simp [h] at heq
  · next heq =>
    rw [h] at heq
    obtain ⟨rfl, rfl⟩ := List.cons.inj heq
    rfl

theorem attempt_eq (position : Nat) (cs : List Char) : attempt position cs = .ok (lex cs) := by
  fun_induction attempt position cs with
  | case1 position cs h => rw [lex_of_dropWhile_nil h]
  | case2 position cs c rest h hfirst =>
    rw [first?_eq_scan (not_space_of_dropWhile h)] at hfirst
    cases hfirst
  | case3 position cs c rest h t left hfirst ih =>
    rw [first?_eq_scan (not_space_of_dropWhile h), Option.some.injEq] at hfirst
    rw [ih, lex_of_dropWhile_cons h, hfirst]
    rfl

/-- Lexing finds a token at every place where one has to start, and the text is whitespace and the
lexemes of these tokens in turn. There is no other way to cut it. -/
theorem ofSource_cuts (source : String) :
    attempt 0 source.toList = .ok (ofSource source) ∧
    (∃! k : Cutting, k.Of source.toList) ∧
    ∀ k : Cutting, k.Of source.toList → k.pieces.map Piece.token = ofSource source ∧
      ∀ p ∈ k.pieces, p.lexeme ≠ [] ∧ ∀ c ∈ p.lexeme, isSpace c = false := by
  obtain ⟨k, hk, htokens⟩ := exists_cutting source.toList
  refine ⟨attempt_eq 0 _, ⟨k, hk, fun k' hk' => hk'.unique hk⟩, ?_⟩
  intro k' hk'
  obtain rfl := hk'.unique hk
  exact ⟨htokens, Piece.lexemes_pieces hk.lexemes⟩

example : (ofSource "5-3 1.2.3 1. --5").length = 7 := by decide +kernel

end Token

end ScopedLisp

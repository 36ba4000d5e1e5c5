import Mathlib.Logic.Relation
import ScopedLisp.Proofs.Lexemes

namespace ScopedLisp.Token

open Text

def isParenthesis (c : Char) : Bool := c == '(' || c == ')'

def isSeparator (c : Char) : Bool := isSpace c || isParenthesis c

theorem isSymbolChar_eq (c : Char) : isSymbolChar c = !isSeparator c := by
  simp [isSymbolChar, isSeparator, isParenthesis, Bool.and_assoc, bne]

def MeetApart (a b : List Char) : Prop :=
  (∀ c, a.getLast? = some c → isSeparator c = true) ∨
    ∀ c, b.head? = some c → isSeparator c = true

variable {a b w : List Char} {c : Char}

theorem ends_iff : Ends b ↔ ∀ c, b.head? = some c → isSeparator c = true := by
  simp [Ends, isSymbolChar_eq]

theorem lex_separator (h : isSeparator c = true) (b : List Char) :
    lex (c :: b) = lex [c] ++ lex b := by
  simp only [isSeparator, isParenthesis, Bool.or_eq_true, beq_iff_eq] at h
  rcases h with h | rfl | rfl
  · rw [lex_space h, lex_space h, lex_nil, List.nil_append]
  · rw [lex_opening, lex_opening, lex_nil, List.singleton_append]
  · rw [lex_closing, lex_closing, lex_nil, List.singleton_append]

theorem lex_after_separator (h : isSeparator c = true) (a b : List Char) :
    lex (a ++ [c] ++ b) = lex (a ++ [c]) ++ lex b := by
  have hends : ∀ ds, Ends (c :: ds) := fun ds => ends_cons (by simp [isSymbolChar_eq, h]) ds
  rw [List.append_assoc, List.singleton_append, lex_append (hends b), lex_separator h,
    lex_append (hends []), List.append_assoc]

theorem MeetApart.lex_append (h : MeetApart a b) : lex (a ++ b) = lex a ++ lex b := by
  rcases h with ha | hb
  · rcases List.eq_nil_or_concat a with rfl | ⟨ds, c, rfl⟩
    · rw [lex_nil, List.nil_append, List.nil_append]
    · rw [List.concat_eq_append] at ha ⊢
      apply lex_after_separator
      apply ha
      simp
  · exact Token.lex_append (ends_iff.mpr hb) a

theorem lex_between (hw : ∀ c ∈ w, isSpace c = true) (h : w ≠ [] ∨ MeetApart a b) :
    lex (a ++ w ++ b) = lex a ++ lex b := by
  by_cases hne : w = []
  · subst hne
    rw [List.append_nil]
    exact (h.resolve_left fun hne => hne rfl).lex_append
  · rw [List.append_assoc, Token.lex_append (ends_space hw hne b), lex_spaces hw]

/-- One change of a program's whitespace. There is some before and after it, or it is beside a
parenthesis. -/
inductive Respaced : String → String → Prop where
  | run (p q : String) {w w' : String} (hw : ∀ c ∈ w.toList, isSpace c = true)
      (hw' : ∀ c ∈ w'.toList, isSpace c = true) (hne : w ≠ "") (hne' : w' ≠ "") :
      Respaced (p ++ w ++ q) (p ++ w' ++ q)
  | beside (p q : String) {w w' : String} (hw : ∀ c ∈ w.toList, isSpace c = true)
      (hw' : ∀ c ∈ w'.toList, isSpace c = true)
      (h : (∃ c ∈ p.toList.getLast?, isParenthesis c = true) ∨
        ∃ c ∈ q.toList.head?, isParenthesis c = true) :
      Respaced (p ++ w ++ q) (p ++ w' ++ q)

theorem meetApart_of_parenthesis (h : (∃ c ∈ a.getLast?, isParenthesis c = true) ∨
    ∃ c ∈ b.head?, isParenthesis c = true) : MeetApart a b := by
  have hone : ∀ c? : Option Char, (∃ c ∈ c?, isParenthesis c = true) →
      ∀ c, c? = some c → isSeparator c = true := by
    rintro _ ⟨c, rfl, hc⟩ d hd
    obtain rfl := Option.some.inj hd
    simp [isSeparator, hc]
  exact h.imp (hone _) (hone _)

theorem ofSource_between {p w q : String} (hw : ∀ c ∈ w.toList, isSpace c = true)
    (h : w ≠ "" ∨ MeetApart p.toList q.toList) :
    ofSource (p ++ w ++ q) = ofSource p ++ ofSource q := by
  rw [ofSource, String.toList_append, String.toList_append]
  apply lex_between hw
  apply h.imp_left
  intro hne hnil
  exact hne (String.toList_eq_nil_iff.mp hnil)

theorem Respaced.ofSource_eq {p q : String} (h : Respaced p q) : ofSource p = ofSource q := by
  cases h with
  | run p q hw hw' hne hne' =>
    rw [ofSource_between hw (.inl hne), ofSource_between hw' (.inl hne')]
  | beside p q hw hw' hparen =>
    have hmeet := meetApart_of_parenthesis hparen
    rw [ofSource_between hw (.inr hmeet), ofSource_between hw' (.inr hmeet)]

theorem ofSource_eq_of_respacings {p q : String} (h : Relation.ReflTransGen Respaced p q) :
    ofSource p = ofSource q := by
  induction h with
  | refl => rfl
  | tail _ hstep ih => rw [ih, hstep.ofSource_eq]

/-- Two texts with whitespace between them, or that meet at a separator, have the tokens of both; so
no change of whitespace that leaves some, or is beside a parenthesis, makes a difference, and no
number of such changes does. -/
theorem ofSource_separators :
    (∀ p w q : String, (∀ c ∈ w.toList, isSpace c = true) →
      w ≠ "" ∨ MeetApart p.toList q.toList → ofSource (p ++ w ++ q) = ofSource p ++ ofSource q) ∧
    ∀ p q : String, Relation.ReflTransGen Respaced p q → ofSource p = ofSource q := by
  constructor
  · intro p w q hw h
    exact ofSource_between hw h
  · intro p q h
    exact ofSource_eq_of_respacings h

theorem ofSource_separators_point :
    ofSource ("1." ++ " " ++ "5") = ofSource "1." ++ ofSource "5" ∧
    ofSource "(a b)c" = ofSource "( a\n b) c" := by
  have hspaces : ∀ w ∈ ["", " ", "\n "], ∀ c ∈ w.toList, isSpace c = true := by
    simp [isSpace_ascii]
  obtain ⟨hjoin, hchange⟩ := ofSource_separators
  constructor
  · exact hjoin "1." " " "5" (hspaces " " (by simp)) (.inl (by decide))
  · apply hchange
    -- the parts are joined so that each change is seen in its place
    have hopen : Respaced ("(" ++ "" ++ "a b)c") ("(" ++ " " ++ "a b)c") :=
      .beside "(" "a b)c" (hspaces "" (by simp)) (hspaces " " (by simp)) (.inl ⟨'(', rfl, rfl⟩)
    have hrun : Respaced ("( a" ++ " " ++ "b)c") ("( a" ++ "\n " ++ "b)c") :=
      .run "( a" "b)c" (hspaces " " (by simp)) (hspaces "\n " (by simp)) (by decide) (by decide)
    have hclose : Respaced ("( a\n b)" ++ "" ++ "c") ("( a\n b)" ++ " " ++ "c") :=
      .beside "( a\n b)" "c" (hspaces "" (by simp)) (hspaces " " (by simp)) (.inl ⟨')', rfl, rfl⟩)
    exact ((Relation.ReflTransGen.single hopen).tail hrun).tail hclose

end ScopedLisp.Token

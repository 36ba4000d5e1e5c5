import ScopedLisp.Proofs.Isolation
import ScopedLisp.Proofs.Lexemes
import ScopedLisp.Proofs.WellFormed

namespace ScopedLisp

open Token (Lexed Balanced Shallow ofSource)

namespace Value

inductive Within (v : Value) : Value → Prop where
  | self : Within v v
  | item {items : List Value} {w : Value} (hw : w ∈ items) (h : Within v w) :
      Within v (.list items)

theorem WellFormed.not_within {v : Value} (h : v.WellFormed) (name : String) :
    ¬ (Value.symbol name).Within v := by
  induction h with
  | number | nil | closure => exact fun h => nomatch h
  | list _ _ ih =>
    intro h
    cases h with
    | item hw h => exact ih _ hw h

def Small (v : Value) : Prop := ∀ style room, v.fault? style room ≠ some .hugeInteger

theorem orElse_ne {a b : Option WritingFault} {fault : WritingFault} (ha : a ≠ some fault)
    (hb : b ≠ some fault) : (a <|> b) ≠ some fault := by
  cases a with
  | none => exact hb
  | some f => exact ha

theorem lacking_ne (room cost : Nat) : lacking room cost ≠ some .hugeInteger := by
  unfold lacking
  split <;> simp

theorem faultEach?_ne {vs : List Value} (h : ∀ v ∈ vs, v.Small) (style : Style) (room : Nat) :
    faultEach? style room vs ≠ some .hugeInteger := by
  induction vs with
  | nil => simp [faultEach?]
  | cons v vs ih =>
    rw [List.forall_mem_cons] at h
    exact orElse_ne (h.1 style room) (ih h.2)

theorem small_number (n : Number) : (Value.number n).Small := by
  intro style room
  cases style <;> simp [fault?]

theorem small_symbol (name : String) : (Value.symbol name).Small := by
  intro style room
  cases style <;> simp [fault?]

theorem small_list {items : List Value} (h : ∀ v ∈ items, v.Small) : (Value.list items).Small := by
  intro style room
  rw [fault?_list]
  exact orElse_ne (lacking_ne _ _) (faultEach?_ne h _ _)

theorem small_closure {params body : List Value} (home : Option FrameId)
    (hp : ∀ p ∈ params, p.Small) (hb : ∀ e ∈ body, e.Small) :
    (Value.closure params body home).Small := by
  intro style room
  have hclosure : (Value.closure params body home).fault? style room =
      (lacking room style.params.1 <|> faultEach? style.params.2 (room - style.params.1) params
        <|> lacking room style.body.1 <|> faultEach? style.body.2 (room - style.body.1) body) := by
    cases style <;> rfl
  rw [hclosure]
  exact orElse_ne (lacking_ne _ _) (orElse_ne (faultEach?_ne hp _ _)
    (orElse_ne (lacking_ne _ _) (faultEach?_ne hb _ _)))

theorem small_of_isSymbol {v : Value} (h : v.isSymbol) : v.Small := by
  cases v with
  | symbol name => exact small_symbol name
  | _ => exact absurd h Bool.false_ne_true

theorem Expression.small {P : Token → Prop} {e : Value} (h : e.Expression P) : e.Small := by
  induction h with
  | number => exact small_number _
  | symbol => exact small_symbol _
  | list _ ih => exact small_list ih

theorem WellFormed.small {v : Value} (h : v.WellFormed) : v.Small := by
  induction h with
  | number => exact small_number _
  | nil =>
    intro style room
    cases style <;> simp [fault?]
  | closure hp hb =>
    exact small_closure _ (fun p hmem => small_of_isSymbol (hp p hmem)) fun e he => (hb e he).small
  | list _ _ ih => exact small_list ih

end Value

namespace Fault.Regular

variable {rule : Except UnknownScoping Scoping} {fault : Fault}

theorem small {v : Value} (h : fault.Regular rule) (hv : fault.shown? = some v) : v.Small := by
  cases fault <;> simp only [shown?, Option.some.injEq, reduceCtorEq] at hv
  all_goals subst hv
  case unbound | missingArgument => exact Value.small_of_isSymbol h
  case operandNotNumber | negandNotNumber => exact Value.WellFormed.small h
  case targetNotSymbol | parametersNotList | parameterNotSymbol | bodyNotList | clauseNotPair =>
    exact Value.Expression.small h
  case unbindable => exact h.elim

theorem reported (h : fault.Regular rule) : fault.reported.Regular rule := by
  unfold Fault.reported
  split
  · exact h
  · next hhuge =>
    obtain ⟨v, hv, hfault⟩ := Option.bind_eq_some_iff.mp hhuge
    exact absurd hfault (h.small hv _ _)
  · exact trivial

theorem kind {mode : Scoping} (h : fault.Regular (.ok mode)) :
    fault = .depthExceeded ∨ ∃ kind, fault.kind? = some kind ∧
      kind ∈ [.unbound, .arity, .type, .invalidSymbol, .malformed] := by
  cases fault with
  | depthExceeded => exact .inl rfl
  | unbindable | hugeInteger => exact h.elim
  | unknownScoping => cases h
  | _ => exact .inr ⟨_, rfl, by simp⟩

end Fault.Regular

theorem Fault.kind?_ne_parse (fault : Fault) : fault.kind? ≠ some .parse := by
  cases fault <;> simp [kind?]

theorem evaluate_read_sound {source : String} {program : Value}
    (h : Reader.read source = .ok program) (rule : Except UnknownScoping Scoping) (i : FrameId)
    {s : Store} (hs : s.WellFormed) :
    Sound rule Value.WellFormed
      (evaluate rule evaluationRoom i program (Effect.note (.parsed program) s).2) := by
  have hprogram : program.Expression Lexed :=
    (Reader.expression_read h).mono fun _ => Reader.lexed_of_mem_ofSource
  exact evaluate_sound rule evaluationRoom i program _ hprogram hs

theorem evaluateSource_eq_unrecorded {rule : Except UnknownScoping Scoping} {source : String}
    {i : FrameId} {s : Store} :
    (evaluateSource rule source i s).1 = .error .unrecorded ↔
      ∃ program, Reader.read source = .ok program ∧ s.cannotRecord program = true := by
  cases s.takes source with
  | unread hread => simp [evaluateSource_unread hread, hread]
  | unrecorded hread hs => simp [evaluateSource_unrecorded hread hs, hread, hs]
  | read hread hs =>
    rw [evaluateSource_read hread hs, hread]
    generalize (evaluate _ _ _ _ _).1 = r
    cases r <;> simp [Except.mapError, hs]

theorem evaluateSource_ends {I : Invariant} {rule : Except UnknownScoping Scoping}
    (hI : I.Lawful rule) (hcode : ∀ e : Value, e.Expression Lexed → I.Code e) (source : String)
    (i : FrameId) {s : Store} (hs : s.All I.Good) :
    let r := evaluateSource rule source i s
    r.2.All I.Good ∧ (∀ v, r.1 = .ok v → I.Good v) ∧
      (∀ fault, r.1 = .error (.read fault) → Reader.read source = .error fault) ∧
      ∀ fault, r.1 = .error (.evaluation fault) → ∃ origin, I.Fit origin ∧ origin.reported = fault := by
  cases s.takes source with
  | unread hread =>
    rw [evaluateSource_unread hread]
    refine ⟨hs, ?_, ?_, ?_⟩
    · rintro _ ⟨⟩
    · rintro _ ⟨⟩
      exact hread
    · rintro _ ⟨⟩
  | unrecorded hread hrecord =>
    rw [evaluateSource_unrecorded hread hrecord]
    exact ⟨hs, by rintro _ ⟨⟩, by rintro _ ⟨⟩, by rintro _ ⟨⟩⟩
  | @read program hread hrecord =>
    rw [evaluateSource_read hread hrecord]
    have hprogram : program.Expression Lexed :=
      (Reader.expression_read hread).mono fun _ => Reader.lexed_of_mem_ofSource
    have hends := hI.evaluate evaluationRoom i program (Effect.note (.parsed program) s).2
      (hcode program hprogram) hs
    generalize evaluate rule evaluationRoom i program (Effect.note (.parsed program) s).2 = r at hends
    cases hends with
    | value ht hv =>
      refine ⟨ht, ?_, ?_, ?_⟩
      · rintro _ ⟨⟩
        exact hv
      · rintro _ ⟨⟩
      · rintro _ ⟨⟩
    | fault ht hf =>
      refine ⟨ht, ?_, ?_, ?_⟩
      · rintro _ ⟨⟩
      · rintro _ ⟨⟩
      · rintro _ ⟨⟩
        exact ⟨_, hf, rfl⟩

theorem evaluateSource_sound (rule : Except UnknownScoping Scoping) (source : String)
    (i : FrameId) {s : Store} (hs : s.WellFormed) :
    let r := evaluateSource rule source i s
    r.2.WellFormed ∧ (∀ v, r.1 = .ok v → v.WellFormed) ∧
      ∀ fault, r.1 = .error (.evaluation fault) → fault.Regular rule := by
  obtain ⟨ht, hvalue, -, hfault⟩ :=
    evaluateSource_ends (Invariant.wellFormed_lawful rule) (fun _ he => he) source i hs
  refine ⟨ht, hvalue, ?_⟩
  intro fault h
  obtain ⟨origin, horigin, rfl⟩ := hfault fault h
  exact Fault.Regular.reported horigin

namespace Session

theorem eq_ok_of_valueReply {r : Except Failure Value} {v : Value} (h : valueReply r = .value v) :
    r = .ok v := by
  cases r with
  | ok w => rw [Reply.value.inj h]
  | error failure => cases h

theorem modeReply_ne_value (r : Except UnknownScoping Scoping) (v : Value) :
    modeReply r ≠ .value v := by
  intro h
  cases r <;> cases h

theorem change_ne_value (s : Session) (ambient : Except UnknownScoping Ambient) (v : Value) :
    (s.change ambient).1 ≠ .value v := by
  cases ambient with
  | ok ambient => exact modeReply_ne_value ambient.current v
  | error fault => exact modeReply_ne_value (.error fault) v

theorem evaluates_of_value {s : Session} {c : Command} {v : Value} (h : (s.run c).1 = .value v) :
    ∃ rule source i, (evaluateSource rule source i s.store).1 = .ok v := by
  cases c with
  | eval id source =>
    cases hi : s.interpreter? id with
    | none => simp [run, hi] at h
    | some i =>
      rw [run_eval hi] at h
      exact ⟨_, _, _, eq_ok_of_valueReply h⟩
  | evaluate id source =>
    cases hi : s.interpreter? id with
    | none => simp [run, hi] at h
    | some i =>
      simp only [run, hi] at h
      exact ⟨_, _, _, eq_ok_of_valueReply h⟩
  | create id scoping =>
    rw [run, Session.create] at h
    split at h
    · next fault _ => exact absurd h (modeReply_ne_value (.error fault) v)
    · cases h
  | inspect id =>
    rw [run] at h
    split at h <;> cases h
  | current => exact absurd h (modeReply_ne_value _ v)
  | choose | enter | leave | configure =>
    rw [run] at h
    exact absurd h (change_ne_value s _ v)

section keeps

variable {P : Store → Prop} (hadd : ∀ s, P s → P (s.allocate none).2)
  (heval : ∀ rule source i s, P s → P (evaluateSource rule source i s).2)

include hadd heval

theorem run_keeps {s : Session} (hs : P s.store) (c : Command) : P (s.run c).2.store := by
  have hstep := run_step s c
  generalize (s.run c).2 = t at hstep ⊢
  cases hstep with
  | added id scoping mode => exact hadd s.store hs
  | evaluated rule source _ _ => exact heval rule source _ s.store hs
  | changed c ambient => exact hs

theorem after_keeps {s : Session} (hs : P s.store) (commands : List Command) :
    P (s.after commands).store := by
  induction commands generalizing s with
  | nil => exact hs
  | cons c cs ih => exact ih (run_keeps hadd heval hs c)

end keeps

theorem after_wellFormed {s : Session} (hs : s.store.WellFormed) (commands : List Command) :
    (s.after commands).store.WellFormed := by
  refine after_keeps ?_ ?_ hs commands
  · exact fun _ h => h.allocate none
  · exact fun rule source i _ h => (evaluateSource_sound rule source i h).1

def starting (events : Option (List Event)) : Session :=
  { initial with store := { Store.empty with events } }

theorem starting_wellFormed (events : Option (List Event)) : (starting events).store.WellFormed := by
  intro f hf
  simp [starting, Store.empty] at hf

/-- Every value that a session gives, and every value bound in any of its frames, is well formed; so
none of them is a symbol, or has one in it other than in a function. -/
theorem values_wellFormed (events : Option (List Event)) (commands : List Command) :
    let s := (starting events).after commands
    (∀ c v, (s.run c).1 = .value v → v.WellFormed ∧ ∀ name, ¬ (Value.symbol name).Within v) ∧
      ∀ f ∈ s.store.frames, ∀ b ∈ f.bindings,
        b.2.WellFormed ∧ ∀ name, ¬ (Value.symbol name).Within b.2 := by
  intro s
  have hs : s.store.WellFormed := after_wellFormed (starting_wellFormed events) commands
  constructor
  · intro c v h
    obtain ⟨rule, source, i, hv⟩ := evaluates_of_value h
    obtain ⟨-, hvalue, -⟩ := evaluateSource_sound rule source i hs
    have hwf := hvalue v hv
    exact ⟨hwf, hwf.not_within⟩
  · intro f hf b hb
    have hwf := hs f hf b hb
    exact ⟨hwf, hwf.not_within⟩

theorem values_wellFormed_definition :
    let s := (starting none).after [.create "a" none]
    let v : Value := .list [.number ⟨0x4000000000000000⟩]
    (s.run (.eval "a" "((let x 1) 2)")).1 = .value v ∧ v.WellFormed := by
  intro s v
  have htokens : ofSource "((let x 1) 2)" = [.opening "(", .opening "(", .symbol "let", .symbol "x",
      .number ⟨0x3ff0000000000000⟩, .closing ")", .number ⟨0x4000000000000000⟩, .closing ")"] := by
    decide +kernel
  have hread := Reader.read_of_spells htokens (.list "(" ")" (.list "(" ")"
    (.symbol "let" (.symbol "x" (.number _ .nil))) (.number _ .nil)) .nil) (by decide) rfl
  have hi : s.interpreter? "a" = some ⟨.dynamic, 0⟩ := rfl
  have hv : (s.run (.eval "a" "((let x 1) 2)")).1 = .value v := by
    rw [run_eval hi, evaluateSource_read hread rfl]
    rfl
  exact ⟨hv, ((values_wellFormed none _).1 _ v hv).1⟩

theorem run_eval_unread {s : Session} {id source : String} {i : Interpreter} {fault : ReadFault}
    (hi : s.interpreter? id = some i) (h : Reader.read source = .error fault) :
    s.run (.eval id source) = (.failure (.read fault), s) := by
  rw [run_eval hi, evaluateSource_unread h]
  rfl

theorem read_of_run_eval {s : Session} {id source : String} {i : Interpreter} {failure : Failure}
    (hi : s.interpreter? id = some i) (h : (s.run (.eval id source)).1 = .failure failure)
    (hkind : failure.kind? = some .parse) : ∃ fault, Reader.read source = .error fault := by
  rw [run_eval hi] at h
  cases s.store.takes source with
  | unread hread => exact ⟨_, hread⟩
  | unrecorded hread hs =>
    rw [evaluateSource_unrecorded hread hs] at h
    rw [← Reply.failure.inj h] at hkind
    cases hkind
  | read hread hs =>
    rw [evaluateSource_read hread hs] at h
    generalize (evaluate _ _ _ _ _).1 = r at h
    cases r with
    | ok v => cases h
    | error fault =>
      rw [← Reply.failure.inj h] at hkind
      exact absurd hkind fault.reported.kind?_ne_parse

theorem run_eval_unrecorded {s : Session} {id source : String} {i : Interpreter} {program : Value}
    (hi : s.interpreter? id = some i) (h : Reader.read source = .ok program)
    (hs : s.store.cannotRecord program = true) :
    s.run (.eval id source) = (.failure .unrecorded, s) := by
  rw [run_eval hi, evaluateSource_unrecorded h hs]
  rfl

theorem cannotRecord_iff {source : String} {program : Value}
    (h : Reader.read source = .ok program) (s : Store) :
    s.cannotRecord program = true ↔ s.events.isSome ∧ Value.writingRoom < program.nesting := by
  have hwritten : program.fault? .detailed Value.writingRoom = none ↔
      1 * program.nesting ≤ Value.writingRoom := (Reader.expression_read h).fault?_eq_none_iff
  have hdeep : (program.fault? .detailed Value.writingRoom).isSome = true ↔
      Value.writingRoom < program.nesting := by
    rw [Option.isSome_iff_ne_none, Ne, hwritten, Nat.one_mul, Nat.not_le]
  rw [Store.cannotRecord, Bool.and_eq_true, hdeep]

def Reply.Lawful (reply : Reply) : Prop :=
  (∃ v, reply = .value v) ∨ reply = .failure (.evaluation .depthExceeded) ∨
    ∃ failure kind, reply = .failure failure ∧ failure.kind? = some kind ∧
      kind ∈ [.parse, .unbound, .arity, .type, .invalidSymbol, .malformed]

theorem Reply.not_lawful_unrecorded : ¬ (Reply.failure .unrecorded).Lawful := by
  rintro (⟨v, ⟨⟩⟩ | ⟨⟨⟩⟩ | ⟨_, kind, ⟨⟩, ⟨⟩, -⟩)

theorem run_eval_lawful {s : Session} {id source : String} {i : Interpreter}
    (hs : s.store.WellFormed) (hi : s.interpreter? id = some i)
    (h : ∀ program, Reader.read source = .ok program → s.store.cannotRecord program = false) :
    (s.run (.eval id source)).1.Lawful := by
  obtain ⟨-, -, hregular⟩ := evaluateSource_sound (.ok i.scoping) source i.root hs
  rw [run_eval hi]
  cases hend : (evaluateSource (.ok i.scoping) source i.root s.store).1 with
  | ok v => exact .inl ⟨v, rfl⟩
  | error failure =>
    cases failure with
    | read fault => exact .inr (.inr ⟨_, .parse, rfl, rfl, by simp⟩)
    | evaluation fault =>
      rcases (hregular fault hend).kind with rfl | ⟨kind, hkind, hmem⟩
      · exact .inr (.inl rfl)
      · exact .inr (.inr ⟨_, kind, rfl, hkind, List.mem_cons_of_mem _ hmem⟩)
    | unrecorded =>
      obtain ⟨program, hread, hrecord⟩ := evaluateSource_eq_unrecorded.mp hend
      rw [h program hread] at hrecord
      cases hrecord

/-- An evaluation in an interpreter gives a value or fails with an error of the language, unless it
has those who listen told of a program that is nested too deeply to be written down. No binding of
anything but a symbol is ever tried. A source text cannot be read just when its parentheses do not
match or are nested too deeply; then, and when the program could not be told, the session is as
before. -/
theorem eval_failures (events : Option (List Event)) (commands : List Command)
    (id source : String) (i : Interpreter) :
    let s := (starting events).after commands
    let r := s.run (.eval id source)
    let readable := Balanced (ofSource source) ∧ Shallow Reader.nestingLimit 0 (ofSource source)
    let untold := events.isSome = true ∧
      ∃ program, Reader.read source = .ok program ∧ Value.writingRoom < program.nesting
    s.interpreter? id = some i →
      (r.1.Lawful ↔ ¬ untold) ∧ (untold → r = (.failure .unrecorded, s)) ∧
      (∀ rule program name, Reader.read source = .ok program →
        (evaluate rule evaluationRoom i.root program (Effect.note (.parsed program) s.store).2).1 ≠
          .error (.unbindable name)) ∧
      ((∃ failure, r.1 = .failure failure ∧ failure.kind? = some .parse) ↔ ¬ readable) ∧
      (¬ readable → r.2 = s) := by
  intro s r readable untold hi
  have hs : s.store.WellFormed := after_wellFormed (starting_wellFormed events) commands
  have hlistens : s.store.events.isSome = events.isSome := by
    have hstart : (starting events).Rooted events.isSome := ⟨rfl, fun _ _ hi => nomatch hi⟩
    exact (hstart.after commands).listens
  have huntold : untold → r = (.failure .unrecorded, s) := by
    rintro ⟨hevents, program, hread, hdeep⟩
    exact run_eval_unrecorded hi hread
      ((cannotRecord_iff hread s.store).mpr ⟨hlistens.trans hevents, hdeep⟩)
  have hunread : ¬ readable ↔ ∃ fault, Reader.read source = .error fault := by
    rw [← Reader.exists_read_iff.not]
    cases Reader.read source <;> simp
  refine ⟨⟨?_, ?_⟩, huntold, ?_, ?_, ?_⟩
  · intro hlawful h
    rw [huntold h] at hlawful
    exact Reply.not_lawful_unrecorded hlawful
  · intro h
    apply run_eval_lawful hs hi
    intro program hread
    rw [← Bool.not_eq_true, cannotRecord_iff hread, hlistens]
    exact fun hdeep => h ⟨hdeep.1, program, hread, hdeep.2⟩
  · intro rule program name hread
    exact (evaluate_read_sound hread rule i.root hs).ne_unbindable name
  · rw [hunread]
    constructor
    · rintro ⟨failure, hfail, hkind⟩
      exact read_of_run_eval hi hfail hkind
    · rintro ⟨fault, hfault⟩
      exact ⟨.read fault, congrArg Prod.fst (run_eval_unread hi hfault), rfl⟩
  · rw [hunread]
    rintro ⟨fault, hfault⟩
    exact congrArg Prod.snd (run_eval_unread hi hfault)

theorem eval_failures_surplus :
    let s := (starting none).after [.create "a" none]
    let r := s.run (.eval "a" "(let x 1))")
    s.interpreter? "a" = some ⟨.dynamic, 0⟩ ∧
      (∃ failure, r.1 = .failure failure ∧ failure.kind? = some .parse) ∧ r.2 = s := by
  intro s r
  have htokens : ofSource "(let x 1))" = [.opening "(", .symbol "let", .symbol "x",
      .number ⟨0x3ff0000000000000⟩, .closing ")", .closing ")"] := by
    decide +kernel
  have hunreadable : ¬ (Balanced (ofSource "(let x 1))") ∧
      Shallow Reader.nestingLimit 0 (ofSource "(let x 1))")) := by
    rintro ⟨hb, -⟩
    have heven := hb.even
    rw [htokens] at heven
    exact absurd heven (by decide)
  have hi : s.interpreter? "a" = some ⟨.dynamic, 0⟩ := rfl
  obtain ⟨-, -, -, hparse, hsame⟩ := eval_failures none [.create "a" none] "a" "(let x 1))" _ hi
  exact ⟨hi, hparse.mpr hunreadable, hsame hunreadable⟩

def parenthesized (n : Nat) : String :=
  String.ofList (List.replicate n '(' ++ '1' :: List.replicate n ')')

def nested : Nat → Value
  | 0 => .number ⟨0x3ff0000000000000⟩
  | n + 1 => .list [nested n]

theorem nesting_nested (n : Nat) : (nested n).nesting = n := by
  induction n with
  | zero => rfl
  | succ n ih => simp [nested, Value.nesting, Value.nestingEach, ih]

theorem expression_nested (n : Nat) : (nested n).Expression fun _ => True := by
  induction n with
  | zero => exact .number trivial
  | succ n ih => exact .list (List.forall_mem_singleton.mpr ih)

theorem lex_parenthesized (n : Nat) {rest : List Char} (hr : Token.Ends rest) :
    Token.lex (List.replicate n '(' ++ '1' :: (List.replicate n ')' ++ rest)) =
      (nested n).tokens ++ Token.lex rest := by
  induction n generalizing rest with
  | zero =>
    have hone : Token.lex ['1'] = (nested 0).tokens := by decide +kernel
    rw [← hone]
    exact Token.lex_append hr ['1']
  | succ n ih =>
    have hend : Token.Ends (')' :: rest) := Token.ends_cons (by decide +kernel) rest
    rw [List.replicate_succ, List.cons_append, Token.lex_opening, List.replicate_succ',
      List.append_assoc, List.singleton_append, ih hend, Token.lex_closing]
    simp [nested, Value.tokens, Value.tokensEach]

theorem read_parenthesized {n : Nat} (hn : n ≤ Reader.nestingLimit) :
    Reader.read (parenthesized n) = .ok (nested n) := by
  have htokens : ofSource (parenthesized n) = Value.tokensEach [nested n] := by
    have hlex := lex_parenthesized n Token.ends_nil
    rw [List.append_nil] at hlex
    rw [ofSource, parenthesized, String.toList_ofList, hlex, Token.lex_nil]
    rfl
  have hs := Token.Spells.of_expressions (List.forall_mem_singleton.mpr (expression_nested n))
  refine Reader.read_of_spells htokens hs ?_ rfl
  simpa [Value.nestingEach, nesting_nested] using hn

theorem eval_failures_unrecorded :
    let source := parenthesized 990
    let s := (starting (some [])).after [.create "a" none]
    let r := s.run (.eval "a" source)
    s.interpreter? "a" = some ⟨.dynamic, 0⟩ ∧ Reader.read source = .ok (nested 990) ∧
      r = (.failure .unrecorded, s) ∧ Failure.unrecorded.kind? = none ∧ ¬ r.1.Lawful := by
  intro source s r
  have hi : s.interpreter? "a" = some ⟨.dynamic, 0⟩ := rfl
  have hread : Reader.read source = .ok (nested 990) := read_parenthesized (by decide)
  have hrecord : s.store.cannotRecord (nested 990) = true := by
    rw [cannotRecord_iff hread, nesting_nested]
    decide
  have hr : r = (.failure .unrecorded, s) := run_eval_unrecorded hi hread hrecord
  refine ⟨hi, hread, hr, rfl, ?_⟩
  rw [hr]
  exact Reply.not_lawful_unrecorded

end Session

end ScopedLisp

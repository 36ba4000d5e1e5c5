import ScopedLisp.Proofs.OneLine
import ScopedLisp.Shell.Launch

namespace ScopedLisp

open Text

theorem Text.exists_strip (p : Char → Bool) (cs : List Char) :
    ∃ before after, before ++ dropEnd p (cs.dropWhile p) ++ after = cs ∧
      (∀ c ∈ before, p c = true) ∧ ∀ c ∈ after, p c = true := by
  have hend : ∀ ds, dropEnd p ds ++ (ds.reverse.takeWhile p).reverse = ds := by
    intro ds
    rw [dropEnd, ← List.reverse_append, List.takeWhile_append_dropWhile, List.reverse_reverse]
  refine ⟨cs.takeWhile p, ((cs.dropWhile p).reverse.takeWhile p).reverse, ?_, ?_, ?_⟩
  · rw [List.append_assoc, hend, List.takeWhile_append_dropWhile]
  · exact List.all_eq_true.mp List.all_takeWhile
  · intro c hc
    exact List.all_eq_true.mp List.all_takeWhile c (List.mem_reverse.mp hc)

theorem Token.ofSource_trim (source : String) : ofSource (trim source) = ofSource source := by
  obtain ⟨before, after, heq, hbefore, hafter⟩ := exists_strip isSpace source.toList
  have hends : Ends after := by
    intro c hc
    simp [isSymbolChar, hafter c (List.mem_of_mem_head? hc)]
  have hnone : lex after = [] := by
    rw [← List.append_nil after, lex_spaces hafter, lex_nil]
  rw [ofSource, ofSource, ← heq, List.append_assoc, lex_spaces hbefore, lex_append hends, hnone,
    List.append_nil, trim, strip, String.toList_ofList]

theorem Reader.read_trim (source : String) : read (trim source) = read source := by
  simp only [read, expressions, Token.ofSource_trim]

theorem Reader.read_quit {source : String} (h : trim source = "quit") :
    read source = .ok (.symbol "quit") := by
  have htokens : Token.ofSource "quit" = [.symbol "quit"] := by decide +kernel
  rw [← read_trim, h]
  exact read_of_spells htokens (.symbol "quit" .nil) (by decide) rfl

namespace Input

def source? : Input → Option String
  | .line text => if trim text = "" then none else some text
  | .interrupt => none

def commands (id : String) (input : Input) : List Session.Command :=
  input.source?.toList.map (Session.Command.eval id)

/-- The input is an interrupt, a blank line, or one whose evaluation fails because it cannot be
read. -/
def Idle (s : Session) (id : String) : Input → Prop
  | .interrupt => True
  | .line text => trim text = "" ∨ ∃ failure,
      (s.run (.eval id text)).1 = .failure failure ∧ failure.kind? = some .parse

end Input

namespace Dialogue

inductive Answers : Session.Reply → Output → Prop where
  | displayed {v : Value} (h : v.display? = .ok v.display) (hline : OneLine v.display) :
      Answers (.value v) (.result v.display)
  | tooDeep {v : Value} (h : v.display? = .error .tooDeep) :
      Answers (.value v) (.complaint "result nested too deeply to display")
  | failed {failure : Failure} (h : failure.kind?.isSome) (hline : OneLine failure.message) :
      Answers (.failure failure) (.complaint failure.message)

theorem answers_value {v : Value} (hv : v.WellFormed) (ht : v.Tidy) :
    ∃ answer, reply (.ok v) = .ok answer ∧ Answers (.value v) answer := by
  cases hf : v.fault? .display Value.writingRoom with
  | none =>
    have hd : v.display? = .ok v.display := by rw [Value.display?, hf]
    exact ⟨_, by rw [reply, hd], .displayed hd ht.shown.display⟩
  | some fault =>
    cases fault with
    | tooDeep =>
      have hd : v.display? = .error .tooDeep := by rw [Value.display?, hf]
      exact ⟨_, by rw [reply, hd]; rfl, .tooDeep hd⟩
    | hugeInteger => exact absurd hf (hv.small _ _)

theorem answers_failure {failure : Failure} (hkind : failure.kind?.isSome)
    (hline : OneLine failure.message) :
    ∃ answer, reply (.error failure) = .ok answer ∧ Answers (.failure failure) answer :=
  ⟨_, if_pos hkind, .failed hkind hline⟩

structure Turn where
  input : Input
  outputs : List Output

namespace Turn

def shown (t : Turn) : List Output := .prompt :: t.outputs

def printed (prompt : String) (red : String → String) (threshold : Level) (t : Turn) :
    String × String :=
  (String.join (t.outputs.map (Output.onOutput prompt)),
    String.join (t.outputs.map (Output.onError red threshold)))

inductive Settled (s : Session) (id : String) : Turn → Prop where
  | interrupt : Settled s id ⟨.interrupt, [.newline]⟩
  | blank {text : String} (h : trim text = "") : Settled s id ⟨.line text, []⟩
  | answered {text : String} {answer : Output} (h : trim text ≠ "")
      (ha : Answers (s.run (.eval id text)).1 answer) : Settled s id ⟨.line text, [answer]⟩

end Turn

/-- What is printed for a reply: a value on the output as it is displayed, and on the errors, in
red, that it is nested too deeply for that, or the message of a failure. It is one line. -/
inductive Prints (red : String → String) : Session.Reply → String × String → Prop where
  | value {v : Value} (h : v.display? = .ok v.display) (hline : OneLine v.display) :
      Prints red (.value v) (v.display ++ "\n", "")
  | tooDeep {v : Value} (h : v.display? = .error .tooDeep)
      (hline : OneLine (red "error: result nested too deeply to display")) :
      Prints red (.value v) ("", red "error: result nested too deeply to display" ++ "\n")
  | failure {failure : Failure} (h : failure.kind?.isSome)
      (hline : OneLine (red ("error: " ++ failure.message))) :
      Prints red (.failure failure) ("", red ("error: " ++ failure.message) ++ "\n")

namespace Prints

variable {red : String → String} {printed : String × String}

theorem eq_of_value {v : Value} (h : Prints red (.value v) printed)
    (hv : v.display? = .ok v.display) : printed = (v.display ++ "\n", "") := by
  cases h with
  | value => rfl
  | tooDeep ht =>
    rw [hv] at ht
    cases ht

theorem eq_of_failure {failure : Failure} (h : Prints red (.failure failure) printed) :
    printed = ("", red ("error: " ++ failure.message) ++ "\n") := by
  cases h
  rfl

end Prints

theorem Answers.prints {reply : Session.Reply} {answer : Output} (h : Answers reply answer)
    {red : String → String} (hred : ∀ text, OneLine text → OneLine (red text)) (prompt : String)
    (threshold : Level) :
    Prints red reply (answer.onOutput prompt, answer.onError red threshold) := by
  cases h with
  | displayed h hline => exact .value h hline
  | tooDeep h => exact .tooDeep h (hred _ (by decide +kernel))
  | failed h hline => exact .failure h (hred _ (oneLine_append.mpr ⟨by decide +kernel, hline⟩))

theorem Turn.Settled.prints {s : Session} {id text : String} {t : Turn} (h : t.Settled s id)
    (ht : t.input.source? = some text) {red : String → String}
    (hred : ∀ text, OneLine text → OneLine (red text)) (prompt : String) (threshold : Level) :
    Prints red (s.run (.eval id text)).1 (t.printed prompt red threshold) := by
  cases h with
  | interrupt => cases ht
  | blank h => simp [Input.source?, h] at ht
  | answered h ha =>
    obtain rfl : _ = text := by simpa [Input.source?, h] using ht
    simpa [Turn.printed] using ha.prints hred prompt threshold

theorem evaluateLine_quiet {i : Interpreter} {source : String} {s : Store} {answer : Output}
    (hs : s.events = none) (ht : (evaluateSource (.ok i.scoping) source i.root s).2.events = none)
    (h : reply (evaluateSource (.ok i.scoping) source i.root s).1 = .ok answer) :
    evaluateLine false i source s =
      ⟨[answer], (evaluateSource (.ok i.scoping) source i.root s).2, none⟩ := by
  have hsame : { s with events := none } = s := by rw [← hs]
  simp only [evaluateLine, Bool.false_eq_true, if_false, hsame, h, ht]
  rfl

def turns (i : Interpreter) (s : Store) : List Input → List Turn
  | [] => []
  | input :: inputs =>
    if quits input then []
    else
      let r := respond false i s input
      ⟨input, r.outputs⟩ :: turns i r.store inputs

end Dialogue

namespace Session

open Dialogue

structure Ready (id : String) (i : Interpreter) (s : Session) : Prop where
  interpreter : s.interpreter? id = some i
  rooted : s.Rooted false
  wellFormed : s.store.WellFormed
  tidy : s.store.All Value.Tidy

theorem ready_after {commands : List Command} {id : String} {i : Interpreter}
    (hi : ((starting none).after commands).interpreter? id = some i) :
    Ready id i ((starting none).after commands) where
  interpreter := hi
  rooted := by
    have hstart : (starting none).Rooted false := ⟨rfl, fun _ _ hi => nomatch hi⟩
    exact hstart.after commands
  wellFormed := after_wellFormed (starting_wellFormed none) commands
  tidy := after_tidy (starting_tidy none) commands

namespace Ready

variable {id : String} {i : Interpreter} {s : Session}

theorem events (h : Ready id i s) : s.store.events = none := by
  simpa using h.rooted.listens

theorem run_eval (h : Ready id i s) (source : String) : Ready id i (s.run (.eval id source)).2 where
  interpreter := by
    rw [Session.run_eval h.interpreter]
    exact h.interpreter
  rooted := h.rooted.run _
  wellFormed := after_wellFormed h.wellFormed [_]
  tidy := after_tidy h.tidy [_]

theorem answers (h : Ready id i s) (source : String) :
    let r := evaluateSource (.ok i.scoping) source i.root s.store
    ∃ answer, reply r.1 = .ok answer ∧ Answers (valueReply r.1) answer := by
  intro r
  obtain ⟨-, hvalue, hregular⟩ := evaluateSource_sound (.ok i.scoping) source i.root h.wellFormed
  obtain ⟨-, htidy, hline⟩ := evaluateSource_tidy (.ok i.scoping) source i.root h.tidy
  cases hr : r.1 with
  | ok v => exact answers_value (hvalue v hr) (htidy v hr)
  | error failure =>
    refine answers_failure ?_ (hline failure hr)
    cases failure with
    | read fault => rfl
    | evaluation fault =>
      rcases (hregular fault hr).kind with rfl | ⟨kind, hkind, -⟩
      · rfl
      · simp [Failure.kind?, hkind]
    | unrecorded =>
      obtain ⟨program, -, hrecord⟩ := evaluateSource_eq_unrecorded.mp hr
      rw [Store.cannotRecord_quiet h.events] at hrecord
      cases hrecord

theorem respond (h : Ready id i s) (input : Input) :
    let r := Dialogue.respond false i s.store input
    Turn.Settled s id ⟨input, r.outputs⟩ ∧ r.broken = none ∧
      r.store = (s.after (input.commands id)).store ∧ Ready id i (s.after (input.commands id)) := by
  intro r
  cases input with
  | interrupt => exact ⟨.interrupt, rfl, rfl, h⟩
  | line text =>
    by_cases hblank : trim text = ""
    · have hr : r = ⟨[], s.store, none⟩ := if_pos hblank
      have hnone : (Input.line text).commands id = [] := by
        simp [Input.commands, Input.source?, hblank]
      rw [hr, hnone]
      exact ⟨.blank hblank, rfl, rfl, h⟩
    · have hone : (Input.line text).commands id = [.eval id text] := by
        simp [Input.commands, Input.source?, hblank]
      have hnext := h.run_eval text
      obtain ⟨answer, hreply, ha⟩ := h.answers text
      have hrun := Session.run_eval h.interpreter text
      -- nobody listens, so the answer is all that is put out
      have hr : r = ⟨[answer], (s.run (.eval id text)).2.store, none⟩ := by
        have hquiet := hnext.events
        simp only [hrun] at hquiet ⊢
        simp only [r, Dialogue.respond, if_neg hblank]
        exact evaluateLine_quiet h.events hquiet hreply
      rw [hr, hone]
      refine ⟨.answered hblank ?_, rfl, rfl, hnext⟩
      rw [hrun]
      exact ha

theorem run (h : Ready id i s) (inputs : List Input) :
    let taken := inputs.takeWhile (!quits ·)
    Dialogue.run false i s.store inputs =
      { outputs := (turns i s.store inputs).flatMap Turn.shown ++
          .prompt :: if taken.length = inputs.length then [.newline] else []
        unread := inputs.drop (taken.length + 1)
        store := (s.after (taken.flatMap (Input.commands id))).store
        broken := none } := by
  induction inputs generalizing s with
  | nil => rfl
  | cons input inputs ih =>
    cases hq : quits input with
    | true => simp [Dialogue.run, turns, hq, Session.after]
    | false =>
      obtain ⟨-, hbroken, hstore, hnext⟩ := h.respond input
      simp [Dialogue.run, turns, hq, hbroken, hstore, ih hnext, Turn.shown, after_append]

theorem settled (h : Ready id i s) {inputs : List Input} {k : Nat} {t : Turn}
    (ht : (turns i s.store inputs)[k]? = some t) :
    t.Settled (s.after ((inputs.take k).flatMap (Input.commands id))) id := by
  induction inputs generalizing s k with
  | nil => simp [turns] at ht
  | cons input inputs ih =>
    obtain ⟨hsettled, -, hstore, hnext⟩ := h.respond input
    rw [turns] at ht
    split at ht
    · simp at ht
    · cases k with
      | zero =>
        obtain rfl := Option.some.inj ht
        exact hsettled
      | succ k =>
        simp only [hstore, List.getElem?_cons_succ] at ht
        rw [List.take_succ_cons, List.flatMap_cons, after_append]
        exact ih hnext ht

theorem eraseIdx (h : Ready id i s) {inputs : List Input} {k : Nat} {input : Input}
    (hk : inputs[k]? = some input) (hq : quits input = false)
    (hnone : ∀ s, Ready id i s → s.after (input.commands id) = s) :
    turns i s.store (inputs.eraseIdx k) = (turns i s.store inputs).eraseIdx k ∧
      (Dialogue.run false i s.store (inputs.eraseIdx k)).store =
        (Dialogue.run false i s.store inputs).store := by
  induction inputs generalizing s k with
  | nil => simp at hk
  | cons first inputs ih =>
    obtain ⟨-, hbroken, hstore, hnext⟩ := h.respond first
    cases k with
    | zero =>
      -- the turn that is left out hands the store on as it was
      obtain rfl := Option.some.inj hk
      rw [hnone s h] at hstore
      simp [turns, Dialogue.run, hq, hbroken, hstore]
    | succ k =>
      rw [List.getElem?_cons_succ] at hk
      cases hfirst : quits first with
      | true => simp [turns, Dialogue.run, hfirst]
      | false =>
        obtain ⟨hturns, hend⟩ := ih hnext hk
        simp [turns, Dialogue.run, hfirst, hbroken, hstore, hturns, hend]

theorem idle (h : Ready id i s) {input : Input} (hidle : input.Idle s id) :
    quits input = false ∧ ∀ t, Ready id i t → t.after (input.commands id) = t := by
  cases input with
  | interrupt => exact ⟨rfl, fun _ _ => rfl⟩
  | line text =>
    by_cases hblank : trim text = ""
    · simp [quits, hblank, Input.commands, Input.source?, after]
    · obtain ⟨failure, hfail, hkind⟩ := hidle.resolve_left hblank
      obtain ⟨fault, hread⟩ := read_of_run_eval h.interpreter hfail hkind
      constructor
      · -- a line that says to quit is a symbol, which could be read
        rw [quits, beq_eq_false_iff_ne]
        intro hquit
        rw [Reader.read_quit hquit] at hread
        cases hread
      · intro t ht
        have hsame := run_eval_unread ht.interpreter hread
        simp [Input.commands, Input.source?, hblank, after, hsame]

theorem after (h : Ready id i s) (inputs : List Input) :
    Ready id i (s.after (inputs.flatMap (Input.commands id))) := by
  induction inputs generalizing s with
  | nil => exact h
  | cons input inputs ih =>
    rw [List.flatMap_cons, after_append]
    exact ih (h.respond input).2.2.2

end Ready

end Session

namespace Dialogue

open Session

theorem input_turns (i : Interpreter) (s : Store) (inputs : List Input) :
    (turns i s inputs).map Turn.input = inputs.takeWhile (!quits ·) := by
  fun_induction turns i s inputs with
  | case1 => rfl
  | case2 s input inputs hq => simp [hq]
  | case3 s input inputs hq r ih => simp [hq, ih]

/-- A dialogue with an interpreter of a session, on any inputs. It ends at the first line that
quits or with the inputs; the lines before that are evaluated in turn, and for each that is not
blank the value or the error that its evaluation gives is printed, in one line. Without an input
that is idle in its turn the others have the turns that they had, and all is bound as it was. -/
theorem answers_every_line (commands : List Command) (id : String) (i : Interpreter)
    (inputs : List Input) {red : String → String}
    (hred : ∀ text, OneLine text → OneLine (red text)) :
    let s := (starting none).after commands
    let taken := inputs.takeWhile (!quits ·)
    let before (k : Nat) := s.after ((inputs.take k).flatMap (Input.commands id))
    let ts := turns i s.store inputs
    let d := run false i s.store inputs
    s.interpreter? id = some i →
      d.broken = none ∧ d.unread = inputs.drop (taken.length + 1) ∧
      d.store = (s.after (taken.flatMap (Input.commands id))).store ∧
      d.outputs = ts.flatMap Turn.shown ++
        .prompt :: (if taken.length = inputs.length then [.newline] else []) ∧
      ts.map Turn.input = taken ∧
      (∀ (k : Nat) (t : Turn), ts[k]? = some t → t.Settled (before k) id ∧
        ∀ text, t.input.source? = some text → ∀ prompt threshold,
          Prints red ((before k).run (.eval id text)).1 (t.printed prompt red threshold)) ∧
      ∀ (k : Nat) (input : Input), inputs[k]? = some input → input.Idle (before k) id →
        turns i s.store (inputs.eraseIdx k) = ts.eraseIdx k ∧
          (run false i s.store (inputs.eraseIdx k)).store = d.store := by
  intro s taken before ts d hi
  have hready : Ready id i s := ready_after hi
  have hrun := hready.run inputs
  refine ⟨congrArg broken hrun, congrArg unread hrun, congrArg Dialogue.store hrun,
    congrArg Dialogue.outputs hrun, input_turns i s.store inputs, ?_, ?_⟩
  · intro k t ht
    have hsettled := hready.settled ht
    exact ⟨hsettled, fun text htext => hsettled.prints htext hred⟩
  · intro k input hk hidle
    obtain ⟨hq, hnone⟩ := (hready.after (inputs.take k)).idle hidle
    exact hready.eraseIdx hk hq hnone

theorem red_oneLine {text : String} (h : OneLine text) : OneLine (Launch.red text) := by
  simp only [Launch.red, oneLine_append]
  exact ⟨⟨by decide +kernel, h⟩, by decide +kernel⟩

theorem answers_every_line_unbalanced :
    let s := (starting none).after [.create "a" none]
    let i : Interpreter := ⟨.dynamic, 0⟩
    let inputs : List Input := [.line "(let x 1)", .line "(", .interrupt, .line " quit", .line "x"]
    let d := run false i s.store inputs
    s.interpreter? "a" = some i ∧ d.broken = none ∧ d.unread = [.line "x"] ∧
      (turns i s.store inputs).map (Turn.printed "> " Launch.red .warning) =
        [("nil\n", ""), ("", "\x1b[31merror: Parse error: Unbalanced parentheses\x1b[0m\n"),
          ("\n", "")] ∧
      turns i s.store (inputs.eraseIdx 1) = (turns i s.store inputs).eraseIdx 1 := by
  intro s i inputs d
  have hi : s.interpreter? "a" = some i := rfl
  obtain ⟨hbroken, hunread, -, -, hinputs, hanswers, hidle⟩ :=
    answers_every_line [.create "a" none] "a" i inputs (fun _ => red_oneLine) hi
  have htaken : inputs.takeWhile (!quits ·) = [.line "(let x 1)", .line "(", .interrupt] := by
    decide +kernel
  rw [htaken] at hunread hinputs
  have hready : Ready "a" i _ := (ready_after hi).after (inputs.take 1)
  have hunreadable : Reader.read "(" = .error .unbalanced := by
    have htokens : Token.ofSource "(" = [.opening "("] := by decide +kernel
    simp [Reader.read, Reader.expressions, htokens, Reader.splitTooDeep?, Reader.nestingLimit,
      Reader.readAll, Reader.readExpr, Reader.readItems]
  have hsecond := congrArg Prod.fst (run_eval_unread hready.interpreter hunreadable)
  have hfirst : (s.run (.eval "a" "(let x 1)")).1 = .value .nil := by
    have htokens : Token.ofSource "(let x 1)" = [.opening "(", .symbol "let", .symbol "x",
        .number ⟨0x3ff0000000000000⟩, .closing ")"] := by decide +kernel
    have hread := Reader.read_of_spells htokens
      (.list "(" ")" (.symbol "let" (.symbol "x" (.number _ .nil))) .nil) (by decide) rfl
    rw [Session.run_eval hi, evaluateSource_read hread rfl]
    rfl
  refine ⟨hi, hbroken, hunread, ?_, (hidle 1 _ rfl (.inr ⟨_, hsecond, rfl⟩)).1⟩
  obtain ⟨t, rest, hts, hinput, hrest⟩ := List.map_eq_cons_iff.mp hinputs
  obtain ⟨t', rest', rfl, hinput', hrest⟩ := List.map_eq_cons_iff.mp hrest
  obtain ⟨t'', rest'', rfl, hinput'', hrest⟩ := List.map_eq_cons_iff.mp hrest
  obtain rfl := List.map_eq_nil_iff.mp hrest
  have hnil : t.printed "> " Launch.red .warning = ("nil\n", "") := by
    obtain ⟨-, hprints⟩ := hanswers 0 t (by rw [hts, List.getElem?_cons_zero])
    have hp := hprints "(let x 1)" (by rw [hinput]; decide +kernel) "> " .warning
    change Prints _ (s.run (.eval "a" "(let x 1)")).1 _ at hp
    rw [hfirst] at hp
    exact hp.eq_of_value rfl
  have hred : t'.printed "> " Launch.red .warning =
      ("", "\x1b[31merror: Parse error: Unbalanced parentheses\x1b[0m\n") := by
    obtain ⟨-, hprints⟩ := hanswers 1 t' (by rw [hts]; rfl)
    have hp := hprints "(" (by rw [hinput']; decide +kernel) "> " .warning
    rw [hsecond] at hp
    rw [hp.eq_of_failure]
    decide +kernel
  have hbreak : t''.printed "> " Launch.red .warning = ("\n", "") := by
    obtain ⟨hsettled, -⟩ := hanswers 2 t'' (by rw [hts]; rfl)
    cases hsettled with
    | interrupt => decide +kernel
    | blank | answered => cases hinput''
  rw [hts, List.map_cons, List.map_cons, List.map_singleton, hnil, hred, hbreak]

end Dialogue

end ScopedLisp

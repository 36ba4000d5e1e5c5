import Mathlib.Tactic.Choose
import ScopedLisp.Interpreter
import ScopedLisp.Proofs.Lexemes
import ScopedLisp.Proofs.Parsing
import ScopedLisp.Proofs.Rooms

namespace ScopedLisp

open Text Token

def spaced (first : String) : List (String × String) → String
  | [] => first
  | (space, next) :: rest => first ++ (space ++ spaced next rest)

def Value.isNil : Value → Bool
  | .nil => true
  | _ => false

def evaluateInTurn (rule : Except UnknownScoping Scoping) (frame : FrameId) :
    List String → Store → Except Failure (List Value) × Store
  | [], s => (.ok [], s)
  | source :: rest, s =>
    match evaluateSource rule source frame s with
    | (.error failure, s) => (.error failure, s)
    | (.ok v, s) =>
      let (vs, s) := evaluateInTurn rule frame rest s
      (vs.map (v :: ·), s)

namespace Reader

variable {first second : String} {es fs : List Value}

theorem expressions_append (h : expressions first = (es, none))
    (h' : expressions second = (fs, none)) {space : String} (hne : space.toList ≠ [])
    (hspace : ∀ c ∈ space.toList, isSpace c = true) :
    expressions (first ++ (space ++ second)) = (es ++ fs, none) := by
  have htokens : ofSource (first ++ (space ++ second)) = ofSource first ++ ofSource second := by
    rw [ofSource, String.toList_append, String.toList_append,
      lex_append (ends_space hspace hne _), lex_spaces hspace]
    rfl
  rw [expressions_eq_iff] at h h' ⊢
  rw [htokens, h.1.shallow_append]
  exact ⟨h.1.append h'.1, h.2, h'.2⟩

theorem expressions_spaced {rest : List (String × String)} {e : String → Value}
    (hspace : ∀ p ∈ rest, p.1.toList ≠ [] ∧ ∀ c ∈ p.1.toList, isSpace c = true)
    (h : ∀ source ∈ first :: rest.map (·.2), expressions source = ([e source], none)) :
    expressions (spaced first rest) = ((first :: rest.map (·.2)).map e, none) := by
  induction rest generalizing first with
  | nil => exact h first (by simp)
  | cons p rest ih =>
    obtain ⟨space, next⟩ := p
    rw [List.forall_mem_cons] at hspace h
    have hnext := ih hspace.2 h.2
    exact expressions_append h.1 hnext hspace.1.1 hspace.1.2

end Reader

theorem Store.cannotRecord_item {P : Token → Prop} {es : List Value} {e : Value} {s : Store}
    (h : (Value.list es).Expression P) (hs : s.cannotRecord (.list es) = false) (he : e ∈ es) :
    s.cannotRecord e = false := by
  rw [cannotRecord, Bool.and_eq_false_iff, Option.isSome_eq_false_iff, Option.isNone_iff_eq_none,
    Option.isSome_eq_false_iff, Option.isNone_iff_eq_none] at hs ⊢
  exact hs.imp_right fun hf => h.fault?_item hf he

theorem evaluateSource_list {source : String} {es : List Value}
    (h : Reader.read source = .ok (.list es)) (hplain : ∀ name tail, es ≠ .symbol name :: tail)
    {rule : Except UnknownScoping Scoping} {i : FrameId} {s : Store}
    (hs : s.cannotRecord (.list es) = false) {r : Except Fault (List Value) × Store}
    (hr : (evaluate rule (evaluationRoom - 1)).items i es (Effect.note (.parsed (.list es)) s).2 = r) :
    evaluateSource rule source i s =
      ((r.1.map .list).mapError fun fault => .evaluation fault.reported, r.2) := by
  have hlist := evaluate_list rule (evaluationRoom - 1) i hplain
  rw [Nat.sub_add_cancel (by decide)] at hlist
  rw [evaluateSource_read h hs, hlist]
  rcases r with ⟨fault | vs, t⟩
  · rw [Effect.bind_error hr]
    rfl
  · rw [Effect.bind_ok hr]
    rfl

inductive Collects : Except Fault (List Value) × Store → Except Failure (List Value) × Store → Prop
    where
  | exhausted (s : Store) (end' : Except Failure (List Value) × Store) :
      Collects (.error .depthExceeded, s) end'
  | values (vs : List Value) {l : Bool} {s t : Store} (h : s.Matches l t) :
      Collects (.ok (vs.filter (!·.isNil)), s) (.ok vs, t)
  | fault (fault : Fault) {l : Bool} {s t : Store} (h : s.Matches l t) :
      Collects (.error fault, s) (.error (.evaluation fault.reported), t)

section turns

variable (rule : Except UnknownScoping Scoping) (i : FrameId)

theorem items_collect {e : String → Value} {sources : List String} {room : Nat}
    (hroom : room ≤ evaluationRoom) {l : Bool}
    (h : ∀ source ∈ sources, Reader.read source = .ok (e source))
    (hrecord : ∀ source ∈ sources, ∀ u : Store, u.events.isSome = l →
      u.cannotRecord (e source) = false) {s t : Store} (hst : s.Matches l t) :
    Collects ((evaluate rule room).items i (sources.map e) s) (evaluateInTurn rule i sources t) := by
  induction sources generalizing s t with
  | nil => exact .values [] hst
  | cons source rest ih =>
    rw [List.forall_mem_cons] at h hrecord
    have htold : s.Matches l (Effect.note (.parsed (e source)) t).2 :=
      ⟨hst.frames, hst.left, by simpa [Effect.note] using hst.right⟩
    have hfirst := evaluate_extends rule hroom i (e source) l _ _ htold
    rw [List.map_cons, Evaluator.items, Effect.bind_apply, evaluateInTurn,
      evaluateSource_read h.1 (hrecord.1 t hst.right)]
    generalize evaluate rule room i (e source) s = r,
      evaluate rule evaluationRoom i (e source) _ = r' at hfirst
    cases hfirst with
    | exhausted s r' => exact .exhausted _ _
    | same r hrest =>
      cases r with
      | error fault => exact .fault fault hrest
      | ok v =>
        have hmore := ih h.2 hrecord.2 hrest
        dsimp only [Except.mapError]
        rw [Effect.bind_apply]
        generalize (evaluate rule room).items i (rest.map e) _ = q,
          evaluateInTurn rule i rest _ = q' at hmore
        cases hmore with
        | exhausted => exact .exhausted _ _
        | fault fault hend => exact .fault fault hend
        | values vs hend =>
          have hvalue := Collects.values (v :: vs) hend
          cases v <;> exact hvalue

/-- The bounds on nesting apart, of what is evaluated and of what listeners are told, a source text
of several expressions gives the list of their values other than nil, or fails as the first of them
to fail does, and leaves the same frames. An expression that is a symbol is not the first of them:
with it the text would be a form or a call. -/
theorem evaluateSource_spaced (s : Store)
    {first : String} {rest : List (String × String)} (hrest : rest ≠ [])
    (hspace : ∀ p ∈ rest, p.1.toList ≠ [] ∧ ∀ c ∈ p.1.toList, isSpace c = true)
    (hone : ∀ source ∈ first :: rest.map (·.2), ∃ e, Reader.expressions source = ([e], none))
    (hfirst : ∀ name, Reader.expressions first ≠ ([.symbol name], none))
    (hroom : (evaluateSource rule (spaced first rest) i s).1 ≠ .error (.evaluation .depthExceeded))
    (hrecord : (evaluateSource rule (spaced first rest) i s).1 ≠ .error .unrecorded) :
    let whole := evaluateSource rule (spaced first rest) i s
    let turns := evaluateInTurn rule i (first :: rest.map (·.2)) s
    whole.1 = turns.1.map (fun vs => .list (vs.filter (!·.isNil))) ∧
      whole.2.frames = turns.2.frames := by
  choose! e he using hone
  have hread : ∀ source ∈ first :: rest.map (·.2), Reader.read source = .ok (e source) := by
    intro source hsource
    exact Reader.read_eq_ok_iff_expressions.mpr ⟨_, he source hsource, rfl⟩
  have hwhole : Reader.read (spaced first rest) = .ok (.list ((first :: rest.map (·.2)).map e)) := by
    refine Reader.read_eq_ok_iff_expressions.mpr ⟨_, Reader.expressions_spaced hspace he, ?_⟩
    obtain ⟨p, rest, rfl⟩ := List.exists_cons_of_ne_nil hrest
    rfl
  have hplain : ∀ name tail, (first :: rest.map (·.2)).map e ≠ .symbol name :: tail := by
    intro name tail heq
    rw [List.map_cons] at heq
    apply hfirst name
    rw [he first (by simp), (List.cons.inj heq).1]
  have hs : s.cannotRecord (.list ((first :: rest.map (·.2)).map e)) = false := by
    rw [← Bool.not_eq_true]
    intro hs
    exact hrecord (congrArg Prod.fst (evaluateSource_unrecorded hwhole hs rule i))
  have hturns : ∀ source ∈ first :: rest.map (·.2), ∀ u : Store,
      u.events.isSome = s.events.isSome → u.cannotRecord (e source) = false := by
    intro source hsource u hu
    rw [Store.cannotRecord_congr hu]
    exact Store.cannotRecord_item (Reader.expression_read hwhole) hs
      (List.mem_map_of_mem hsource)
  have htold : (Effect.note (.parsed (.list ((first :: rest.map (·.2)).map e))) s).2.Matches
      s.events.isSome s := ⟨rfl, by simp [Effect.note], rfl⟩
  have hitems := items_collect rule i (Nat.pred_le evaluationRoom) hread hturns htold
  generalize hr : Evaluator.items _ _ _ _ = r, evaluateInTurn _ _ _ _ = turns at hitems ⊢
  rw [evaluateSource_list hwhole hplain hs hr] at hroom ⊢
  cases hitems with
  | exhausted => exact absurd rfl hroom
  | values vs h => exact ⟨rfl, h.frames⟩
  | fault fault h => exact ⟨rfl, h.frames⟩

theorem evaluateSource_spaced_definition :
    let s : Store := ⟨#[⟨none, []⟩], none⟩
    let whole := evaluateSource (.ok .lexical) (spaced "(let x 1)" [(" ", "x")]) 0 s
    let turns := evaluateInTurn (.ok .lexical) 0 ["(let x 1)", "x"] s
    whole.1 = .ok (.list [.number ⟨0x3ff0000000000000⟩]) ∧
      whole.1 = turns.1.map (fun vs => .list (vs.filter (!·.isNil))) ∧
      whole.2.frames = turns.2.frames := by
  intro s whole turns
  have htokens : ofSource "(let x 1)" = [.opening "(", .symbol "let", .symbol "x",
      .number ⟨0x3ff0000000000000⟩, .closing ")"] ∧ ofSource "x" = [.symbol "x"] := by
    decide +kernel
  have hlet : Reader.expressions "(let x 1)" = ([.list [.symbol "let", .symbol "x",
      .number ⟨0x3ff0000000000000⟩]], none) :=
    Reader.expressions_of_spells htokens.1
      (.list "(" ")" (.symbol "let" (.symbol "x" (.number _ .nil))) .nil) (by decide)
  have hname : Reader.expressions "x" = ([.symbol "x"], none) :=
    Reader.expressions_of_spells htokens.2 (.symbol "x" .nil) (by decide)
  have hspace : ∀ c ∈ " ".toList, isSpace c = true := List.all_eq_true.mp (by decide +kernel)
  have hread : Reader.read (spaced "(let x 1)" [(" ", "x")]) = .ok (.list [.list [.symbol "let",
      .symbol "x", .number ⟨0x3ff0000000000000⟩], .symbol "x"]) :=
    Reader.read_eq_ok_iff_expressions.mpr
      ⟨_, Reader.expressions_append hlet hname (by decide) hspace, rfl⟩
  have hwhole : whole.1 = .ok (.list [.number ⟨0x3ff0000000000000⟩]) := by
    change (evaluateSource _ _ _ _).1 = _
    rw [evaluateSource_read hread rfl]
    with_unfolding_all rfl
  refine ⟨hwhole, evaluateSource_spaced _ _ _ (by simp) ?_ ?_ ?_ ?_ ?_⟩
  · rw [List.forall_mem_singleton]
    exact ⟨by decide, hspace⟩
  · simp [hlet, hname]
  · simp [hlet]
  all_goals
    change whole.1 ≠ _
    rw [hwhole]
    exact fun h => nomatch h

end turns

end ScopedLisp

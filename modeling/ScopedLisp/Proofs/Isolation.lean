import ScopedLisp.Interpreter
import ScopedLisp.Proofs.Relocation

namespace ScopedLisp

open Store Correspondence

section source

variable {s s' : Store} {i i' : FrameId}

theorem evaluateSource_confined (rule : Except UnknownScoping Scoping) (source : String)
    (hi : i < s.frames.size) :
    Confined i (fun _ => True) s (evaluateSource rule source i s).2 := by
  cases s.takes source with
  | unread hread =>
    rw [evaluateSource_unread hread]
    exact .refl i _ s
  | unrecorded hread hs =>
    rw [evaluateSource_unrecorded hread hs]
    exact .refl i _ s
  | @read program hread hs =>
    have hnote : Confined i (fun _ => True) s (Effect.note (.parsed program) s).2 :=
      .of_frames_eq rfl (by simp [Effect.note])
    have hrun := (evaluate_confined rule evaluationRoom i program
      (Effect.note (.parsed program) s).2 hi).mono (Q := fun _ => True) fun _ _ => trivial
    rw [evaluateSource_read hread hs]
    exact hnote.trans hrun

theorem evaluateSource_paired {w : sameCode.World} (mode : Scoping) (source : String)
    (h : sameCode.Paired w s s') (hi : w i i' ()) :
    let r := evaluateSource (.ok mode) source i s
    let r' := evaluateSource (.ok mode) source i' s'
    (Session.valueReply r.1).detached = (Session.valueReply r'.1).detached ∧
      ∃ u, Grows w s s' u r.2 r'.2 ∧ sameCode.Paired u r.2 r'.2 :=
  SameCode.diagonal.evaluateSource (SameCode.heaps mode) h hi fun _ _ => rfl

end source

namespace Session

def add (s : Session) (id : String) (mode : Scoping) : Session :=
  { s with
    store := (s.store.allocate none).2
    interpreters := (id, ⟨mode, s.store.frames.size⟩) :: s.interpreters }

theorem interpreter?_add (s : Session) (id j : String) (mode : Scoping) :
    (s.add id mode).interpreter? j =
      if j = id then some ⟨mode, s.store.frames.size⟩ else s.interpreter? j :=
  Named.lookup_cons ..

theorem size_add (s : Session) (id : String) (mode : Scoping) :
    (s.add id mode).store.frames.size = s.store.frames.size + 1 :=
  size_allocate s.store none

theorem create_eq {s : Session} {id : String} {scoping : Option String} {mode : Scoping}
    (h : (s.create id scoping).1 = .mode mode) : (s.create id scoping).2 = s.add id mode := by
  unfold Session.create at h ⊢
  cases hm : (scoping.map Scoping.parse).getD s.ambient.current with
  | error fault => simp [hm, modeReply] at h
  | ok m =>
    simp only [hm, Reply.mode.injEq] at h
    rw [h]
    rfl

theorem create_name (s : Session) (id : String) (mode : Scoping) :
    (s.create id (some mode.name)).1 = .mode mode := by
  simp only [Session.create, Option.map_some, Option.getD_some, Scoping.parse_name]

theorem run_eval {s : Session} {id : String} {i : Interpreter} (h : s.interpreter? id = some i)
    (source : String) :
    let r := evaluateSource (.ok i.scoping) source i.root s.store
    s.run (.eval id source) = (valueReply r.1, { s with store := r.2 }) := by
  simp only [run, h, evalIn, Ambient.current_enterMode, Ambient.leave_enterMode]

inductive Step (s : Session) : Command → Session → Prop where
  | added (id : String) (scoping : Option String) (mode : Scoping) :
      Step s (.create id scoping) (s.add id mode)
  | evaluated {c : Command} {id : String} {i : Interpreter} (rule : Except UnknownScoping Scoping)
      (source : String) (hc : c = .eval id source ∨ c = .evaluate id source)
      (hi : s.interpreter? id = some i) :
      Step s c { s with store := (evaluateSource rule source i.root s.store).2 }
  | changed (c : Command) (ambient : Ambient) : Step s c { s with ambient }

theorem run_step (s : Session) (c : Command) : Step s c (s.run c).2 := by
  have hsame : Step s c s := .changed c s.ambient
  have hchange : ∀ ambient, Step s c (s.change ambient).2 := by
    intro ambient
    cases ambient with
    | error fault => exact hsame
    | ok ambient => exact .changed c ambient
  cases c with
  | create id scoping =>
    rw [run]
    cases hm : (s.create id scoping).1 with
    | mode mode =>
      rw [create_eq hm]
      exact .added id scoping mode
    | _ =>
      unfold Session.create at hm ⊢
      cases hp : (scoping.map Scoping.parse).getD s.ambient.current with
      | error fault => exact hsame
      | ok mode => simp [hp] at hm
  | eval id source =>
    cases hi : s.interpreter? id with
    | none =>
      simp only [run, hi]
      exact hsame
    | some i =>
      rw [run_eval hi]
      exact .evaluated _ source (.inl rfl) hi
  | evaluate id source =>
    cases hi : s.interpreter? id with
    | none =>
      simp only [run, hi]
      exact hsame
    | some i =>
      simp only [run, hi]
      exact .evaluated s.ambient.current source (.inr rfl) hi
  | inspect id =>
    simp only [run]
    cases s.interpreter? id <;> exact hsame
  | current => exact hsame
  | choose mode => exact hchange (s.ambient.choose mode)
  | enter mode => exact hchange (s.ambient.enter mode)
  | leave => exact hchange (.ok s.ambient.leave)
  | configure setting => exact hchange (.ok (s.ambient.configure setting))

def after (s : Session) (commands : List Command) : Session :=
  commands.foldl (fun s c => (s.run c).2) s

theorem after_append (s : Session) (before commands : List Command) :
    s.after (before ++ commands) = (s.after before).after commands :=
  List.foldl_append

def Command.source? (id : String) : Command → Option String
  | .eval j source => if j = id then some source else none
  | _ => none

/-- The interpreter stays the one under its name, and nothing is evaluated in its root frame but
what it evaluates itself. -/
def Command.Spares (id : String) : Command → Prop
  | .create j _ => j ≠ id
  | .evaluate j _ => j ≠ id
  | _ => True

def repliesTo (id : String) (s : Session) : List Command → List Reply
  | [] => []
  | c :: cs =>
    match c.source? id with
    | some _ => (s.run c).1 :: repliesTo id (s.run c).2 cs
    | none => repliesTo id (s.run c).2 cs

structure Isolated (id : String) (own i : Interpreter) (w : sameCode.World) (alone s : Session) :
    Prop where
  paired : sameCode.Paired w alone.store s.store
  alone_eq : alone.interpreter? id = some own
  among_eq : s.interpreter? id = some i
  scoping : own.scoping = i.scoping
  roots : w own.root i.root ()
  others : ∀ j i', j ≠ id → s.interpreter? j = some i' →
    i'.root < s.store.frames.size ∧ ∀ k, ¬ w k i'.root ()

namespace Isolated

variable {id : String} {own i : Interpreter} {w : sameCode.World} {alone s : Session}

theorem elsewhere (h : Isolated id own i w alone s) {r : FrameId} (hr : ∀ k, ¬ w k r ())
    {P : String → Prop} {t : Store} (ht : Confined r P s.store t) :
    Isolated id own i w alone { s with store := t } where
  paired := by
    apply h.paired.congr
    · intro j j' k hw
      refine ⟨rfl, ht.frame j' (h.paired.lt hw).2 ?_⟩
      rintro rfl
      exact hr j hw
    · rw [ht.listens]
      exact h.paired.listens
  alone_eq := h.alone_eq
  among_eq := h.among_eq
  scoping := h.scoping
  roots := h.roots
  others j i' hj hi' := by
    obtain ⟨hlt, hw⟩ := h.others j i' hj hi'
    exact ⟨Nat.lt_of_lt_of_le hlt ht.size_le, hw⟩

theorem add (h : Isolated id own i w alone s) {j : String} (hj : j ≠ id) (mode : Scoping) :
    Isolated id own i w alone (s.add j mode) where
  paired := by
    apply h.paired.congr
    · intro k k' l hw
      exact ⟨rfl, frames_allocate_of_lt s.store none (h.paired.lt hw).2⟩
    · exact h.paired.listens
  alone_eq := h.alone_eq
  among_eq := by rw [interpreter?_add, if_neg hj.symm, h.among_eq]
  scoping := h.scoping
  roots := h.roots
  others := by
    intro k i' hk hi'
    rw [interpreter?_add] at hi'
    rw [size_add]
    by_cases hkj : k = j
    · rw [if_pos hkj, Option.some.injEq] at hi'
      obtain rfl := hi'
      refine ⟨Nat.lt_succ_self _, ?_⟩
      intro l hw
      exact absurd (h.paired.lt hw).2 (Nat.lt_irrefl _)
    · rw [if_neg hkj] at hi'
      obtain ⟨hlt, hw⟩ := h.others k i' hk hi'
      exact ⟨Nat.lt_succ_of_lt hlt, hw⟩

theorem other (h : Isolated id own i w alone s) {c : Command} (hc : c.Spares id)
    (hs : c.source? id = none) : Isolated id own i w alone (s.run c).2 := by
  have hstep := run_step s c
  generalize (s.run c).2 = t at hstep ⊢
  cases hstep with
  | added j scoping mode => exact h.add hc mode
  | @evaluated _ j i' rule source hj hi' =>
    have hne : j ≠ id := by
      rcases hj with rfl | rfl
      · simpa [Command.source?] using hs
      · exact hc
    obtain ⟨hlt, hw⟩ := h.others j i' hne hi'
    exact h.elsewhere hw (evaluateSource_confined rule source hlt)
  | changed _ ambient => exact ⟨h.paired, h.alone_eq, h.among_eq, h.scoping, h.roots, h.others⟩

theorem evaluated (h : Isolated id own i w alone s) (source : String) :
    (s.run (.eval id source)).1.detached = (alone.run (.eval id source)).1.detached ∧
      ∃ u, Isolated id own i u (alone.run (.eval id source)).2 (s.run (.eval id source)).2 := by
  obtain ⟨hreply, u, hg, hu⟩ := evaluateSource_paired own.scoping source h.paired h.roots
  rw [run_eval h.alone_eq, run_eval h.among_eq, ← h.scoping]
  refine ⟨hreply.symm, u, ?_⟩
  exact {
    paired := hu
    alone_eq := h.alone_eq
    among_eq := h.among_eq
    scoping := h.scoping
    roots := hg.le _ _ _ h.roots
    others := by
      intro j i' hj hi'
      obtain ⟨hlt, hw⟩ := h.others j i' hj hi'
      refine ⟨Nat.lt_of_lt_of_le hlt hg.size_le', ?_⟩
      intro k hk
      -- what has been added to the world is younger than all of the roots
      rcases hg.fresh k i'.root () hk with hold | ⟨-, hnew⟩
      · exact hw k hold
      · exact absurd hlt (Nat.not_lt_of_le hnew) }

theorem runs (h : Isolated id own i w alone s) {commands : List Command}
    (hc : ∀ c ∈ commands, c.Spares id) :
    let solo := (commands.filterMap (Command.source? id)).map (Command.eval id)
    (s.repliesTo id commands).map Reply.detached = (alone.repliesTo id solo).map Reply.detached ∧
      ∃ u, Isolated id own i u (alone.after solo) (s.after commands) := by
  -- the interpreter alone makes a step only where the command is for it
  induction commands generalizing w alone s with
  | nil => exact ⟨rfl, w, h⟩
  | cons c cs ih =>
    have hrest : ∀ c ∈ cs, c.Spares id := fun c' hc' => hc c' (List.mem_cons_of_mem c hc')
    cases hs : c.source? id with
    | none =>
      have hnext := h.other (hc c (List.mem_cons_self ..)) hs
      simp only [repliesTo, List.filterMap_cons, hs]
      exact ih hnext hrest
    | some source =>
      obtain rfl : c = .eval id source := by
        cases c with
        | eval j text =>
          simp only [Command.source?, Option.ite_none_right_eq_some, Option.some.injEq] at hs
          rw [hs.1, hs.2]
        | _ => simp [Command.source?] at hs
      obtain ⟨hreply, u, hnext⟩ := h.evaluated source
      obtain ⟨hreplies, hend⟩ := ih hnext hrest
      simp only [repliesTo, List.filterMap_cons, List.map_cons, hs, hreply, hreplies]
      exact ⟨trivial, hend⟩

end Isolated

structure Rooted (listening : Bool) (s : Session) : Prop where
  listens : s.store.events.isSome = listening
  lt : ∀ id i, s.interpreter? id = some i → i.root < s.store.frames.size

namespace Rooted

variable {listening : Bool} {s : Session}

theorem run (h : Rooted listening s) (c : Command) : Rooted listening (s.run c).2 := by
  have hstep := run_step s c
  generalize (s.run c).2 = t at hstep ⊢
  cases hstep with
  | added id scoping mode =>
    refine ⟨h.listens, ?_⟩
    intro j i hi
    rw [interpreter?_add] at hi
    rw [size_add]
    by_cases hj : j = id
    · rw [if_pos hj, Option.some.injEq] at hi
      obtain rfl := hi
      exact Nat.lt_succ_self _
    · rw [if_neg hj] at hi
      exact Nat.lt_succ_of_lt (h.lt j i hi)
  | @evaluated _ j i rule source _ hi =>
    have hkept := evaluateSource_confined rule source (h.lt j i hi)
    constructor
    · exact hkept.listens.trans h.listens
    · intro k i' hi'
      exact Nat.lt_of_lt_of_le (h.lt k i' hi') hkept.size_le
  | changed _ ambient => exact ⟨h.listens, h.lt⟩

theorem after (h : Rooted listening s) (commands : List Command) :
    Rooted listening (s.after commands) := by
  induction commands generalizing s with
  | nil => exact h
  | cons c cs ih => exact ih (h.run c)

end Rooted

theorem isolated_create {s alone : Session} {listening : Bool} (hs : Rooted listening s)
    (ha : Rooted listening alone) {id : String} {scoping scoping' : Option String} {mode : Scoping}
    (hm : (s.create id scoping).1 = .mode mode) (hm' : (alone.create id scoping').1 = .mode mode) :
    Isolated id ⟨mode, alone.store.frames.size⟩ ⟨mode, s.store.frames.size⟩
      (World.single alone.store.frames.size s.store.frames.size ()) (alone.create id scoping').2
      (s.create id scoping).2 := by
  rw [create_eq hm, create_eq hm']
  exact {
    paired := by
      apply Paired.root
      · exact frames_allocate_self alone.store none
      · exact frames_allocate_self s.store none
      · exact ha.listens.trans hs.listens.symm
    alone_eq := by rw [interpreter?_add, if_pos rfl]
    among_eq := by rw [interpreter?_add, if_pos rfl]
    scoping := rfl
    roots := ⟨rfl, rfl, rfl⟩
    others := by
      intro j i' hj hi'
      rw [interpreter?_add, if_neg hj] at hi'
      have hlt := hs.lt j i' hi'
      constructor
      · rw [size_add]
        exact Nat.lt_succ_of_lt hlt
      · rintro k ⟨-, hk, -⟩
        exact absurd hk (Nat.ne_of_lt hlt) }

/-- An interpreter in the middle of a session gives the replies that it gives alone, to the same
sources under the same mode, and it ends with the same frames, which stand at other places. -/
theorem interpreter_runs_as_alone (events : Option (List Event)) (before commands : List Command)
    (id : String) (scoping : Option String) (mode : Scoping) :
    let start : Session := { initial with store := { Store.empty with events } }
    let created := (start.after before).create id scoping
    let alone := (start.create id (some mode.name)).2
    let solo := (commands.filterMap (Command.source? id)).map (Command.eval id)
    created.1 = .mode mode → (∀ c ∈ commands, c.Spares id) →
      (created.2.repliesTo id commands).map Reply.detached =
          (alone.repliesTo id solo).map Reply.detached ∧
        ∃ own i ρ, (alone.after solo).interpreter? id = some own ∧ own.scoping = mode ∧
          (created.2.after commands).interpreter? id = some i ∧ i.scoping = mode ∧
          ρ own.root = i.root ∧
          (alone.after solo).store.Relocates ρ own.root (created.2.after commands).store := by
  intro start created alone solo hm hc
  have hstart : Rooted events.isSome start := ⟨rfl, fun _ _ hi => nomatch hi⟩
  have hnew := isolated_create (hstart.after before) hstart hm (create_name start id mode)
  obtain ⟨hreplies, u, hend⟩ := hnew.runs hc
  obtain ⟨ρ, hρ, hrelocates⟩ := hend.paired.relocates hend.roots
  exact ⟨hreplies, _, _, ρ, hend.alone_eq, rfl, hend.among_eq, rfl, hρ, hrelocates⟩

theorem interpreter_runs_as_alone_between :
    let before : List Command := [.create "b" none, .leave]
    let commands : List Command := [.eval "b" "(let x 1)", .configure (some "static"),
      .eval "a" "x", .create "c" none, .enter "lexical", .eval "a" "(x)"]
    let start : Session := { initial with store := { Store.empty with events := none } }
    let created := (start.after before).create "a" none
    let alone := (start.create "a" (some Scoping.dynamic.name)).2
    let solo := (commands.filterMap (Command.source? "a")).map (Command.eval "a")
    created.1 = .mode .dynamic ∧ (∀ c ∈ commands, c.Spares "a") ∧
      (created.2.repliesTo "a" commands).map Reply.detached =
        (alone.repliesTo "a" solo).map Reply.detached := by
  intro before commands start created alone solo
  have hm : created.1 = .mode .dynamic := rfl
  have hc : ∀ c ∈ commands, c.Spares "a" := by simp [commands, Command.Spares]
  exact ⟨hm, hc, (interpreter_runs_as_alone none before commands "a" none .dynamic hm hc).1⟩

end Session

end ScopedLisp

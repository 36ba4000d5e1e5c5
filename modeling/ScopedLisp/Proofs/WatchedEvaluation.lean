import ScopedLisp.Proofs.FrameHeaps

/-!
Evaluation under watch. Wherever an evaluation begins or ends inside another one, the whole store is
looked at and so is the value; as soon as something is amiss, anything may happen from there on. A
frame is made, and a name bound, only between two such moments, so no state of the store goes
unseen. The watch makes no difference: in every one of these moments all is well.
-/

namespace ScopedLisp

structure Moment (base : Store) (r : FrameId) (s : Store) : Prop where
  grounded : s.Grounded
  grows : base.GrowsUnder r s

def Moment.Begins (base : Store) (r i : FrameId) (s : Store) : Prop :=
  Moment base r s ∧ s.Under i r

/-- The evaluation that began in the second store may end so: its value is anchored, and so are
still all values that were held meanwhile. -/
def Moment.Ends (base : Store) (r : FrameId) (s : Store) (x : Except Fault Value × Store) : Prop :=
  Moment base r x.2 ∧ (∀ v : Value, x.1 = .ok v → v.Anchored x.2 r) ∧
    ∀ v : Value, v.Anchored s r → v.Anchored x.2 r

namespace Evaluator

section watched

variable (base : Store) (r : FrameId) (instead : Evaluator)

open Classical in
noncomputable def watched (ev : Evaluator) : Evaluator := fun i e s =>
  if Moment.Begins base r i s ∧ Moment.Ends base r s (ev i e s) then ev i e s else instead i e s

noncomputable def watchedParts (rule : Except UnknownScoping Scoping) : Nat → Parts
  | 0 =>
    let none := watched base r instead parts.exhausted
    ⟨none, none, none⟩
  | room + 1 =>
    let parts := watchedParts rule room
    ⟨watched base r instead (step rule parts), parts.item, parts.inner⟩

end watched

end Evaluator

noncomputable def evaluateWatched (r : FrameId) (instead : Evaluator)
    (rule : Except UnknownScoping Scoping) (source : String) (i : FrameId) (s : Store) :
    Except Failure Value × Store :=
  runSource ((Evaluator.watchedParts s r instead rule evaluationRoom).item i) source s

namespace Moment

variable {base s t : Store} {i r : FrameId}

theorem of_frames_eq (hs : Moment base r s) (h : t.frames = s.frames) : Moment base r t where
  grounded := hs.grounded.of_frames_eq h
  grows := hs.grows.trans (.of_growsTo (Store.growsTo_of_frames_eq h) (by rw [h]))

theorem set (hs : Moment base r s) (hi : s.Under i r) (name : String) {v : Value}
    (hv : v.Anchored s r) : Moment base r (s.set i name v) where
  grounded := hs.grounded.set hi name hv
  grows := hs.grows.trans (.of_growsTo (Store.growsTo_set s i name v) (by simp))

theorem extend (hs : Moment base r s) (hi : s.Under i r) : Moment base r (s.extend i).2 where
  grounded := hs.grounded.extend hi.lt
  grows := hs.grows.trans (.extend hi)

end Moment

inductive Watched (base : Store) (r : FrameId) (s : Store) {α : Type} (Q : Store → α → Prop) :
    Except Fault α × Store → Except Fault α × Store → Prop where
  | value {a : α} {t : Store} (hg : s.GrowsTo t) (ht : Moment base r t) (h : Q t a) :
      Watched base r s Q (.ok a, t) (.ok a, t)
  | fault {t : Store} (hg : s.GrowsTo t) (ht : Moment base r t) (fault : Fault) :
      Watched base r s Q (.error fault, t) (.error fault, t)

section watched

variable {base s t : Store} {r : FrameId} {α β : Type} {Q : Store → α → Prop}
  {R : Store → β → Prop}

theorem Watched.since {x y : Except Fault α × Store} (hg : s.GrowsTo t)
    (h : Watched base r t Q x y) : Watched base r s Q x y := by
  cases h with
  | value hg' ht h => exact .value (hg.trans hg') ht h
  | fault hg' ht f => exact .fault (hg.trans hg') ht f

theorem Watched.seq {m m' : Effect α} {f f' : α → Effect β} (hm : Watched base r s Q (m s) (m' s))
    (hf : ∀ t a, s.GrowsTo t → Moment base r t → Q t a → Watched base r t R (f a t) (f' a t)) :
    Watched base r s R ((m >>= f) s) ((m' >>= f') s) := by
  rw [Effect.bind_apply, Effect.bind_apply]
  generalize m s = x, m' s = y at hm
  cases hm with
  | value hg ht h => exact (hf _ _ hg ht h).since hg
  | fault hg ht f => exact .fault hg ht f

theorem Watched.one {a : α} (hs : Moment base r s) (h : Q s a) :
    Watched base r s Q ((pure a : Effect α) s) ((pure a : Effect α) s) :=
  .value (.refl s) hs h

theorem Watched.none (hs : Moment base r s) (fault : Fault) :
    Watched base r s Q ((Effect.fail fault : Effect α) s) ((Effect.fail fault : Effect α) s) :=
  .fault (.refl s) hs fault

theorem assign_watched (hs : Moment base r s) {i : FrameId} (hi : s.Under i r) (name : Value)
    {v : Value} (hv : v.Anchored s r) :
    Watched base r s (fun _ _ => True) (Effect.assign i name v s) (Effect.assign i name v s) := by
  cases name with
  | symbol a => exact .value (Store.growsTo_set s i a v) (hs.set hi a hv) trivial
  | _ => exact .fault (.refl s) hs _

theorem noteCall_watched (hs : Moment base r s) (name : String) (i : FrameId) :
    Watched base r s (fun _ _ => True) (Effect.noteCall name i s) (Effect.noteCall name i s) := by
  unfold Effect.noteCall
  split
  · split
    · exact .fault (.refl s) hs .depthExceeded
    · exact .value (Store.growsTo_of_frames_eq rfl) (hs.of_frames_eq rfl) trivial
  · exact .value (.refl s) hs trivial

end watched

namespace Evaluator

def Agrees (base : Store) (r : FrameId) (wev ev : Evaluator) : Prop :=
  ∀ i e s, Moment base r s → s.Under i r →
    Watched base r s (Value.Anchored · r) (wev i e s) (ev i e s)

variable {base s : Store} {i r : FrameId}

section forms

variable {wev ev : Evaluator}

theorem each_watched (h : Agrees base r wev ev) (es : List Value) (hs : Moment base r s)
    (hi : s.Under i r) :
    Watched base r s (fun _ _ => True) (wev.each i es s) (ev.each i es s) := by
  induction es generalizing s with
  | nil => exact .one hs trivial
  | cons e es ih =>
    apply (h i e s hs hi).seq
    intro t v hg ht _
    apply (ih ht (hi.mono hg)).seq
    intro u vs _ hu _
    exact .one hu trivial

theorem items_watched (h : Agrees base r wev ev) (es : List Value) (hs : Moment base r s)
    (hi : s.Under i r) :
    Watched base r s (fun t vs => ∀ v ∈ vs, v.Anchored t r) (wev.items i es s)
      (ev.items i es s) := by
  induction es generalizing s with
  | nil => exact .one hs (by simp)
  | cons e es ih =>
    apply (h i e s hs hi).seq
    intro t v hg ht hv
    apply (ih ht (hi.mono hg)).seq
    intro u vs hg' hu hvs
    apply Watched.one hu
    cases v with
    | nil => exact hvs
    | _ => exact List.forall_mem_cons.mpr ⟨hv.mono hg', hvs⟩

theorem operator_watched (h : Agrees base r wev ev) (op : Operator) (es : List Value)
    (hs : Moment base r s) (hi : s.Under i r) :
    Watched base r s (Value.Anchored · r) (wev.operator i op es s)
      (ev.operator i op es s) := by
  rcases es with _ | ⟨a, _ | ⟨b, rest⟩⟩
  · exact .none hs _
  · exact .none hs _
  · apply (each_watched h _ hs hi).seq
    intro t vs _ ht _
    cases numbers op vs with
    | ok ns => exact .one ht (Value.anchored_number _)
    | error fault => exact .none ht fault

theorem negation_watched (h : Agrees base r wev ev) (es : List Value) (hs : Moment base r s)
    (hi : s.Under i r) :
    Watched base r s (Value.Anchored · r) (wev.negation i es s) (ev.negation i es s) := by
  rcases es with _ | ⟨e, _ | ⟨b, rest⟩⟩
  · exact .none hs _
  · apply (h i e s hs hi).seq
    intro t v _ ht _
    cases v with
    | number n => exact .one ht (Value.anchored_number _)
    | _ => exact .none ht (.negandNotNumber _)
  · exact .none hs _

theorem definition_watched (h : Agrees base r wev ev) (es : List Value) (hs : Moment base r s)
    (hi : s.Under i r) :
    Watched base r s (Value.Anchored · r) (wev.definition i es s)
      (ev.definition i es s) := by
  rcases es with _ | ⟨target, _ | ⟨e, _ | ⟨extra, rest⟩⟩⟩
  · exact .none hs _
  · cases target <;> exact .none hs _
  · cases target with
    | symbol name =>
      apply (h i e s hs hi).seq
      intro t v hg ht hv
      apply (assign_watched ht (hi.mono hg) (.symbol name) hv).seq
      intro u _ _ hu _
      exact .one hu Value.anchored_nil
    | _ => exact .none hs (.targetNotSymbol _)
  · cases target <;> exact .none hs _

theorem function_watched (es : List Value) (hs : Moment base r s) (hi : s.Under i r) :
    Watched base r s (Value.Anchored · r) (function i es s) (function i es s) := by
  rw [function_eq]
  cases functionParts es with
  | error fault => exact .none hs fault
  | ok f => exact .one hs (Value.anchored_closure hi f.1 f.2)

theorem choice_watched (h : Agrees base r wev ev) (es : List Value) (hs : Moment base r s)
    (hi : s.Under i r) :
    Watched base r s (Value.Anchored · r) (wev.choice i es s) (ev.choice i es s) := by
  fun_induction choice ev i es generalizing s with
  | case1 => exact .none hs _
  | case2 default => exact h i default s hs hi
  | case3 test result rest hne ih =>
    rw [choice]
    · apply (h i test s hs hi).seq
      intro t v hg ht _
      split
      · exact h i result t ht (hi.mono hg)
      · exact ih ht (hi.mono hg)
    · exact hne
  | case4 clause rest hne hpair =>
    rw [choice]
    · exact .none hs (.clauseNotPair clause)
    all_goals assumption

theorem bindArguments_watched (h : Agrees base r wev ev) (name : String) {n : FrameId}
    (expected count : Nat) (ps args : List Value) (hs : Moment base r s) (hi : s.Under i r)
    (hn : s.Under n r) :
    Watched base r s (fun _ _ => True) (wev.bindArguments i name n expected count ps args s)
      (ev.bindArguments i name n expected count ps args s) := by
  induction ps generalizing args s with
  | nil => exact .one hs trivial
  | cons p ps ih =>
    cases args with
    | nil => exact .none hs (.missingArgument ..)
    | cons a as =>
      apply (h i a s hs hi).seq
      intro t v hg ht hv
      apply (assign_watched ht (hn.mono hg) p hv).seq
      intro u _ hg' hu _
      exact ih as hu ((hi.mono hg).mono hg') ((hn.mono hg).mono hg')

end forms

variable {rule : Except UnknownScoping Scoping} {ps qs : Parts}

theorem under_parent (scoping : Scoping) {home : Option FrameId} {params body : List Value}
    (hi : s.Under i r) (hv : (Value.closure params body home).Anchored s r) :
    s.Under (parent scoping home i) r := by
  obtain ⟨j, hj, rfl, hroot⟩ := hv params body home .self
  cases scoping with
  | lexical => exact ⟨hj, hroot⟩
  | dynamic => exact hi

theorem call_watched (hb : Agrees base r ps.inner qs.inner)
    (ho : Agrees base r ps.operand qs.operand) (name : String) (args : List Value)
    (hs : Moment base r s) (hi : s.Under i r) :
    Watched base r s (Value.Anchored · r) (call i ps rule name args s)
      (call i qs rule name args s) := by
  cases hl : s.lookup? i name with
  | none =>
    rw [call, call, Effect.lookup_bind, Effect.lookup_bind, hl]
    exact .none hs (.unbound (.symbol name))
  | some v =>
    have hv := hs.grounded.lookup? hi hl
    cases v with
    | closure params body home =>
      cases rule with
      | error fault =>
        rw [call, call, Effect.lookup_bind, Effect.lookup_bind, hl]
        exact .none hs (.unknownScoping fault)
      | ok scoping =>
        -- both the caller's frame and the one that the function was made in are under the root
        have hp := under_parent scoping hi hv
        have hg := Store.growsTo_extend s (parent scoping home i)
        rw [call_closure i hl, call_closure i hl]
        apply Watched.since hg
        apply (bindArguments_watched ho name _ _ params args (hs.extend hp) (hi.mono hg)
          hp.extend).seq
        intro t _ hg ht _
        apply (noteCall_watched ht name _).seq
        intro u _ hg' hu _
        exact hb _ _ u hu ((hp.extend.mono hg).mono hg')
    | _ =>
      rw [call, call, Effect.lookup_bind, Effect.lookup_bind, hl]
      exact .none hs (.notClosure name)

theorem form_watched (hb : Agrees base r ps.inner qs.inner)
    (ho : Agrees base r ps.operand qs.operand) (f : Form) (es : List Value)
    (hs : Moment base r s) (hi : s.Under i r) :
    Watched base r s (Value.Anchored · r) (form i ps f es s) (form i qs f es s) := by
  cases f with
  | operator op => exact operator_watched ho op es hs hi
  | negation => exact negation_watched hb es hs hi
  | definition => exact definition_watched hb es hs hi
  | function => exact function_watched es hs hi
  | choice => exact choice_watched hb es hs hi

theorem step_agrees (hit : Agrees base r ps.item qs.item) (hb : Agrees base r ps.inner qs.inner)
    (ho : Agrees base r ps.operand qs.operand) : Agrees base r (step rule ps) (step rule qs) := by
  intro i e s hs hi
  unfold step
  split
  · next name =>
    rw [Effect.lookup, Store.lookupValue]
    cases hl : s.lookup? i name with
    | none => exact .none hs (.unbound (.symbol name))
    | some v => exact .one hs (hs.grounded.lookup? hi hl)
  · exact .one hs (Value.anchored_number _)
  · next head tail =>
    cases Form.ofName? head with
    | some f => exact form_watched hb ho f tail hs hi
    | none => exact call_watched hb ho head tail hs hi
  · apply (items_watched hit _ hs hi).seq
    intro t vs _ ht hvs
    exact .one ht (Value.anchored_list hvs)
  all_goals exact .one hs Value.anchored_nil

theorem watched_agrees (instead : Evaluator) {wev ev : Evaluator} (h : Agrees base r wev ev) :
    Agrees base r (watched base r instead wev) ev := by
  intro i e s hs hi
  have hrun := h i e s hs hi
  rw [watched, if_pos]
  · exact hrun
  · refine ⟨⟨hs, hi⟩, ?_⟩
    generalize wev i e s = x, ev i e s = y at hrun
    cases hrun with
    | value hg ht hv =>
      refine ⟨ht, ?_, fun w hw => hw.mono hg⟩
      rintro _ ⟨⟩
      exact hv
    | fault hg ht fault =>
      refine ⟨ht, ?_, fun w hw => hw.mono hg⟩
      rintro _ ⟨⟩

theorem watchedParts_agree (base : Store) (r : FrameId) (instead : Evaluator)
    (rule : Except UnknownScoping Scoping) (room : Nat) :
    let ps := watchedParts base r instead rule room
    let qs := parts rule room
    Agrees base r ps.item qs.item ∧ Agrees base r ps.inner qs.inner ∧
      Agrees base r ps.operand qs.operand := by
  induction room with
  | zero =>
    have hnone : Agrees base r (watched base r instead parts.exhausted) parts.exhausted :=
      watched_agrees instead fun i e s hs _ => .none hs .depthExceeded
    exact ⟨hnone, hnone, hnone⟩
  | succ room ih =>
    obtain ⟨hit, hb, ho⟩ := ih
    exact ⟨watched_agrees instead (step_agrees hit hb ho), hit, hb⟩

end Evaluator

theorem evaluateSource_watched {s : Store} {i r : FrameId} (instead : Evaluator)
    (rule : Except UnknownScoping Scoping) (source : String) (hs : s.Grounded)
    (hi : s.Under i r) :
    let x := evaluateSource rule source i s
    evaluateWatched r instead rule source i s = x ∧ Moment s r x.2 ∧
      ∀ v, x.1 = .ok v → v.Anchored x.2 r := by
  have hbegin : Moment s r s := ⟨hs, .refl s⟩
  cases s.takes source with
  | unread hread =>
    rw [evaluateSource_unread hread, evaluateWatched, runSource_unread hread]
    refine ⟨rfl, hbegin, ?_⟩
    rintro _ ⟨⟩
  | unrecorded hread hs' =>
    rw [evaluateSource_unrecorded hread hs', evaluateWatched, runSource_unrecorded hread hs']
    refine ⟨rfl, hbegin, ?_⟩
    rintro _ ⟨⟩
  | @read program hread hs' =>
    have htold : Moment s r (Effect.note (.parsed program) s).2 := hbegin.of_frames_eq rfl
    obtain ⟨hit, -, -⟩ := Evaluator.watchedParts_agree s r instead rule evaluationRoom
    have hrun := hit i program _ htold (hi.mono (Store.growsTo_of_frames_eq rfl))
    rw [evaluateSource_read hread hs', evaluateWatched, runSource_read hread hs', evaluate]
    dsimp only
    generalize (Evaluator.watchedParts s r instead rule evaluationRoom).item i program _ = x,
      (Evaluator.parts rule evaluationRoom).item i program _ = y at hrun
    cases hrun with
    | value hg ht hv =>
      refine ⟨rfl, ht, ?_⟩
      rintro _ ⟨⟩
      exact hv
    | fault hg ht fault =>
      refine ⟨rfl, ht, ?_⟩
      rintro _ ⟨⟩

namespace Session

structure Grounded (s : Session) : Prop where
  store : s.store.Grounded
  roots : ∀ p ∈ s.interpreters, s.store.frames[p.2.root]?.map (·.outer) = some none

variable {s : Session}

theorem starting_grounded (events : Option (List Event)) : (starting events).Grounded where
  store := ⟨fun i f o hf => by simp [starting, Store.empty] at hf,
    fun i f hf => by simp [starting, Store.empty] at hf⟩
  roots p hp := by simp [starting, initial] at hp

theorem Grounded.under (h : s.Grounded) {id : String} {i : Interpreter}
    (hi : s.interpreter? id = some i) : s.store.Under i.root i.root := by
  obtain ⟨before, later, hinterpreters, -⟩ := List.lookup_eq_some_iff.mp hi
  exact Store.under_self (h.roots (id, i) (by simp [hinterpreters]))

theorem Grounded.run (h : s.Grounded) (c : Command) :
    (s.run c).2.Grounded ∧ s.store.GrowsTo (s.run c).2.store := by
  have hstep := run_step s c
  generalize (s.run c).2 = t at hstep
  -- a root frame continues in none for good
  have hroots : s.store.GrowsTo t.store → ∀ p ∈ s.interpreters,
      t.store.frames[p.2.root]?.map (·.outer) = some none := by
    intro hg p hp
    have hp := h.roots p hp
    have hlt := (Store.under_self hp).lt
    rw [hg.outer _ hlt, hp]
  cases hstep with
  | added id scoping mode =>
    have hg := Store.growsTo_allocate s.store none
    refine ⟨⟨h.store.allocate (by simp), ?_⟩, hg⟩
    rw [add, List.forall_mem_cons]
    exact ⟨congrArg _ (Store.frames_allocate_self s.store none), hroots hg⟩
  | evaluated rule source hc hi =>
    obtain ⟨-, ht, -⟩ := evaluateSource_watched (fun _ _ => Effect.fail .depthExceeded) rule source
      h.store (h.under hi)
    exact ⟨⟨ht.grounded, hroots ht.grows.toGrowsTo⟩, ht.grows.toGrowsTo⟩
  | changed c ambient => exact ⟨⟨h.store, h.roots⟩, .refl s.store⟩

theorem Grounded.after (h : s.Grounded) (commands : List Command) :
    (s.after commands).Grounded ∧ s.store.GrowsTo (s.after commands).store := by
  induction commands generalizing s with
  | nil => exact ⟨h, .refl s.store⟩
  | cons c cs ih =>
    obtain ⟨ht, hg⟩ := h.run c
    obtain ⟨hu, hg'⟩ := ih ht
    exact ⟨hu, hg.trans hg'⟩

theorem Grounded.evaluated (h : s.Grounded) {id source : String} {i : Interpreter} {c : Command}
    (hi : s.interpreter? id = some i) (hc : c = .eval id source ∨ c = .evaluate id source) :
    Moment s.store i.root (s.run c).2.store ∧
      ∀ v, (s.run c).1 = .value v → v.Anchored (s.run c).2.store i.root := by
  have hends := fun rule => evaluateSource_watched (fun _ _ => Effect.fail .depthExceeded) rule
    source h.store (h.under hi)
  rcases hc with rfl | rfl
  · obtain ⟨-, ht, hv⟩ := hends (.ok i.scoping)
    rw [run_eval hi]
    exact ⟨ht, fun v hreply => hv v (eq_ok_of_valueReply hreply)⟩
  · obtain ⟨-, ht, hv⟩ := hends s.ambient.current
    simp only [Session.run, hi]
    exact ⟨ht, fun v hreply => hv v (eq_ok_of_valueReply hreply)⟩

/-- In all states of a session, in both modes, after failures and in every moment of an evaluation,
frames continue in older frames only and functions were made in frames that are there. So from each
frame of such a store there is a walk to the end, on which it answers as it does. A frame that an
interpreter's evaluation has made has the interpreter's root as its own from then on. -/
theorem frames_grounded (events : Option (List Event)) (commands : List Command) :
    let s := (starting events).after commands
    s.store.Grounded ∧
      (∀ u : Store, u.Grounded → ∀ j < u.frames.size,
        ∃ js, u.Walk j js ∧ (∀ ks, u.Walk j ks → ks = js) ∧ u.AnswersAlong j js) ∧
      ∀ id i, s.interpreter? id = some i → s.store.Under i.root i.root ∧
        (∀ instead rule source, evaluateWatched i.root instead rule source i.root s.store =
          evaluateSource rule source i.root s.store) ∧
        ∀ c source, c = .eval id source ∨ c = .evaluate id source → ∀ more,
          let t := (s.run c).2
          let u := (t.after more).store
          u.Grounded ∧ (∀ v, (s.run c).1 = .value v → v.Anchored u i.root) ∧
            ∀ j, s.store.frames.size ≤ j → j < t.store.frames.size → u.Under j i.root := by
  intro s
  obtain ⟨hs, -⟩ := (starting_grounded events).after commands
  refine ⟨hs.store, ?_, ?_⟩
  · intro u hu j hj
    have hwalk := hu.walk_chain hj
    exact ⟨u.chain j, hwalk, fun ks hk => hwalk.unique hk, Store.answersAlong_chain hj⟩
  · intro id i hi
    have hroot := hs.under hi
    refine ⟨hroot, ?_, ?_⟩
    · intro instead rule source
      exact (evaluateSource_watched instead rule source hs.store hroot).1
    · intro c source hc more t u
      obtain ⟨ht, hv⟩ := hs.evaluated hi hc
      obtain ⟨htg, -⟩ := hs.run c
      obtain ⟨hu, hg⟩ := htg.after more
      refine ⟨hu.store, fun v hreply => (hv v hreply).mono hg, ?_⟩
      intro j hj hlt
      exact Store.Under.mono ⟨hlt, ht.grows.new_root j hj hlt⟩ hg

end Session

end ScopedLisp

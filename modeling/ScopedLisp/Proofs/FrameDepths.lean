import ScopedLisp.Proofs.LevelledEvaluation

namespace ScopedLisp

/-- Every function in the value was made in a frame whose depth is the level that the function
keeps, and its body stands one level further in. -/
def Value.Settled (sources : List String) (s : Store) (v : Value) : Prop :=
  ∀ params body home, (Value.closure params body home).Within v →
    ∃ i < s.frames.size, home = some (Levelled.home i (s.depth i)) ∧
      StandsOn sources (s.depth i + 1) (.list body)

namespace Store

structure Settled (sources : List String) (s : Store) : Prop where
  bound : ∀ i a v, s.get? i a = some v → v.Settled sources s
  frame : ∀ i < s.frames.size, s.depth i = 0 ∨ ∃ body, StandsOn sources (s.depth i) body

structure OnLevel (s : Store) (i : FrameId) (k : Nat) : Prop where
  lt : i < s.frames.size
  depth : s.depth i = k

variable {sources : List String} {s t : Store} {i : FrameId} {k : Nat}

theorem OnLevel.mono (h : s.OnLevel i k) (hg : s.GrowsTo t) : t.OnLevel i k where
  lt := Nat.lt_of_lt_of_le h.lt hg.size_le
  depth := by rw [hg.depth_eq h.lt, h.depth]

theorem OnLevel.extend (h : s.OnLevel i k) : (s.extend i).2.OnLevel s.frames.size (k + 1) where
  lt := by simp
  depth := by rw [depth_extend h.lt, h.depth]

end Store

open Store

section settled

variable {sources : List String} {s t : Store} {i : FrameId} {k : Nat}

theorem Value.Settled.mono {v : Value} (h : v.Settled sources s) (hg : s.GrowsTo t) :
    v.Settled sources t := by
  intro params body home hw
  obtain ⟨i, hi, hhome, hbody⟩ := h params body home hw
  rw [← hg.depth_eq hi] at hhome hbody
  exact ⟨i, Nat.lt_of_lt_of_le hi hg.size_le, hhome, hbody⟩

theorem Value.settled_list {vs : List Value} :
    (Value.list vs).Settled sources s ↔ ∀ v ∈ vs, v.Settled sources s := by
  constructor
  · intro h v hv params body home hw
    exact h params body home (.item hv hw)
  · rintro h params body home (_ | ⟨hv, hw⟩)
    exact h _ hv params body home hw

theorem Value.settled_number (n : Number) : (Value.number n).Settled sources s := by
  rintro params body home ⟨⟩

theorem Value.settled_nil : Value.nil.Settled sources s := by
  rintro params body home ⟨⟩

namespace Store.Settled

theorem lookup? (hs : s.Settled sources) {a : String} {v : Value} (h : s.lookup? i a = some v) :
    v.Settled sources s := by
  obtain ⟨j, -, hj⟩ := Option.bind_eq_some_iff.mp h
  exact hs.bound j a v hj

theorem of_frames_eq (hs : s.Settled sources) (h : t.frames = s.frames) : t.Settled sources where
  bound i a v hv := by
    rw [get?, h] at hv
    exact (hs.bound i a v hv).mono (growsTo_of_frames_eq h)
  frame i hi := by
    rw [h] at hi
    rw [(growsTo_of_frames_eq h).depth_eq hi]
    exact hs.frame i hi

theorem set (hs : s.Settled sources) (i : FrameId) (a : String) {v : Value}
    (hv : v.Settled sources s) : (s.set i a v).Settled sources where
  bound j b w hw := by
    have hg := growsTo_set s i a v
    rw [get?_set_eq] at hw
    split at hw
    · exact Option.some.inj hw ▸ hv.mono hg
    · exact (hs.bound j b w hw).mono hg
  frame j hj := by
    rw [size_set] at hj
    rw [(growsTo_set s i a v).depth_eq hj]
    exact hs.frame j hj

theorem extend (hs : s.Settled sources) (hi : s.OnLevel i k) {body : Value}
    (hbody : StandsOn sources (k + 1) body) : (s.extend i).2.Settled sources where
  bound j b w hw := by
    rcases Nat.lt_trichotomy j s.frames.size with hj | rfl | hj
    · rw [get?, frames_extend_of_lt s i hj] at hw
      exact (hs.bound j b w hw).mono (growsTo_extend s i)
    · rw [get?, frames_extend_self] at hw
      cases hw
    · rw [get?_of_size_le (by simp; lia)] at hw
      cases hw
  frame j hj := by
    rw [size_extend] at hj
    rcases Nat.lt_succ_iff_lt_or_eq.mp hj with hj | rfl
    · rw [(growsTo_extend s i).depth_eq hj]
      exact hs.frame j hj
    · rw [hi.extend.depth]
      exact .inr ⟨body, hbody⟩

end Store.Settled

end settled

inductive Tracks (sources : List String) (s : Store) {α β : Type} (R : Store → α → β → Prop) :
    Except Fault α × Store → Except Fault β × Store → Prop where
  | value {a : α} {b : β} {t : Store} (hg : s.GrowsTo t) (ht : t.Settled sources) (h : R t a b) :
      Tracks sources s R (.ok a, t) (.ok b, t.unmarked)
  | fault {t : Store} (hg : s.GrowsTo t) (ht : t.Settled sources) (fault : Fault) :
      Tracks sources s R (.error fault, t) (.error fault.unmarked, t.unmarked)

section tracks

variable {sources : List String} {s t : Store} {α β γ δ : Type} {R : Store → α → β → Prop}
  {R' : Store → γ → δ → Prop}

theorem Tracks.since {r : Except Fault α × Store} {r' : Except Fault β × Store}
    (hg : s.GrowsTo t) (h : Tracks sources t R r r') : Tracks sources s R r r' := by
  cases h with
  | value hg' ht h => exact .value (hg.trans hg') ht h
  | fault hg' ht f => exact .fault (hg.trans hg') ht f

theorem Tracks.seq {m : Effect α} {m' : Effect β} {f : α → Effect γ} {f' : β → Effect δ}
    (hm : Tracks sources s R (m s) (m' s.unmarked))
    (hf : ∀ t a b, s.GrowsTo t → t.Settled sources → R t a b →
      Tracks sources t R' (f a t) (f' b t.unmarked)) :
    Tracks sources s R' ((m >>= f) s) ((m' >>= f') s.unmarked) := by
  rw [Effect.bind_apply, Effect.bind_apply]
  generalize m s = r, m' s.unmarked = r' at hm
  cases hm with
  | value hg ht h => exact (hf _ _ _ hg ht h).since hg
  | fault hg ht f => exact .fault hg ht f

theorem Tracks.one {a : α} {b : β} (hs : s.Settled sources) (h : R s a b) :
    Tracks sources s R ((pure a : Effect α) s) ((pure b : Effect β) s.unmarked) :=
  .value (.refl s) hs h

theorem Tracks.none (hs : s.Settled sources) (fault : Fault) :
    Tracks sources s R ((Effect.fail fault : Effect α) s)
      ((Effect.fail fault.unmarked : Effect β) s.unmarked) :=
  .fault (.refl s) hs fault

theorem assign_tracks (hs : s.Settled sources) (i : FrameId) (name : Value) {v : Value}
    (hv : v.Settled sources s) :
    Tracks sources s (fun _ _ _ => True) (Effect.assign i name v s)
      (Effect.assign i name v.unmarked s.unmarked) := by
  cases name with
  | symbol a =>
    have hset := s.unmarked_set i a v
    have hend : Effect.assign i (.symbol a) v.unmarked s.unmarked =
        (.ok (), (s.set i a v).unmarked) := by
      rw [hset]
      rfl
    rw [hend]
    exact .value (growsTo_set s i a v) (hs.set i a hv) trivial
  | _ => exact .fault (.refl s) hs _

theorem noteCall_tracks (hs : s.Settled sources) (name : String) {i : FrameId} {k : Nat}
    (hi : s.OnLevel i k) :
    Tracks sources s (fun _ _ _ => True) (Levelled.noteCall name i k s)
      (Effect.noteCall name i s.unmarked) := by
  have hdepth : s.unmarked.depth i = k := by
    rw [depth_congr fun j _ => s.sameOuter_unmarked j, hi.depth]
  rw [Levelled.noteCall, Effect.noteCall, frames_unmarked, hdepth]
  cases he : s.events with
  | none =>
    have he' : s.unmarked.events = none := by simp [Store.unmarked, he]
    rw [he']
    exact .value (.refl s) hs trivial
  | some events =>
    have he' : s.unmarked.events = some (events.map Event.unmarked) := by simp [Store.unmarked, he]
    rw [he']
    cases s.frames[i]? with
    | none => exact .value (.refl s) hs trivial
    | some f =>
      dsimp only [Option.map_some]
      rw [f.fault?_unmarked]
      split
      · exact .fault (.refl s) hs .depthExceeded
      · have hnote := s.unmarked_note (.called name f k)
        have hend : Effect.note (.called name f.unmarked k) s.unmarked =
            (.ok (), (Effect.note (.called name f k) s).2.unmarked) := by
          rw [hnote]
          rfl
        rw [hend]
        exact .value (growsTo_of_frames_eq rfl) (hs.of_frames_eq rfl) trivial

end tracks

namespace Levelled

def Gives (sources : List String) (t : Store) (v w : Value) : Prop :=
  w = v.unmarked ∧ v.Settled sources t

def GivesEach (sources : List String) (t : Store) (vs ws : List Value) : Prop :=
  ws = vs.map Value.unmarked ∧ ∀ v ∈ vs, v.Settled sources t

def Follows (sources : List String) (lev : Nat → Evaluator) (ev : Evaluator) : Prop :=
  ∀ k i e s, s.Settled sources → s.OnLevel i k → StandsOn sources k e →
    Tracks sources s (Gives sources) (lev k i e s) (ev i e s.unmarked)

variable {sources : List String} {s : Store} {i : FrameId} {k : Nat} {es : List Value}

theorem gives_number (t : Store) (n : Number) : Gives sources t (.number n) (.number n) :=
  ⟨rfl, Value.settled_number n⟩

theorem gives_nil (t : Store) : Gives sources t .nil .nil := ⟨rfl, Value.settled_nil⟩

section forms

variable {lev : Nat → Evaluator} {ev : Evaluator}

theorem each_tracks (h : Follows sources lev ev) (hs : s.Settled sources) (hi : s.OnLevel i k)
    (hes : ∀ e ∈ es, StandsOn sources k e) :
    Tracks sources s (GivesEach sources) ((lev k).each i es s) (ev.each i es s.unmarked) := by
  induction es generalizing s with
  | nil => exact .one hs ⟨rfl, by simp⟩
  | cons e es ih =>
    rw [List.forall_mem_cons] at hes
    apply (h k i e s hs hi hes.1).seq
    rintro t v _ hg ht ⟨rfl, hv⟩
    apply (ih ht (hi.mono hg) hes.2).seq
    rintro u vs _ hg' hu ⟨rfl, hvs⟩
    exact .one hu ⟨rfl, List.forall_mem_cons.mpr ⟨hv.mono hg', hvs⟩⟩

theorem items_tracks (h : Follows sources lev ev) (hs : s.Settled sources) (hi : s.OnLevel i k)
    (hes : ∀ e ∈ es, StandsOn sources k e) :
    Tracks sources s (GivesEach sources) ((lev k).items i es s) (ev.items i es s.unmarked) := by
  induction es generalizing s with
  | nil => exact .one hs ⟨rfl, by simp⟩
  | cons e es ih =>
    rw [List.forall_mem_cons] at hes
    apply (h k i e s hs hi hes.1).seq
    rintro t v _ hg ht ⟨rfl, hv⟩
    apply (ih ht (hi.mono hg) hes.2).seq
    rintro u vs _ hg' hu ⟨rfl, hvs⟩
    apply Tracks.one hu
    cases v with
    | nil => exact ⟨rfl, hvs⟩
    | _ => exact ⟨rfl, List.forall_mem_cons.mpr ⟨hv.mono hg', hvs⟩⟩

theorem numbers_unmarked (op : Operator) (vs : List Value) :
    Evaluator.numbers op (vs.map Value.unmarked) =
      (Evaluator.numbers op vs).mapError Fault.unmarked := by
  induction vs with
  | nil => rfl
  | cons v vs ih =>
    cases v with
    | number n =>
      rw [List.map_cons, Value.unmarked_number, Evaluator.numbers, Evaluator.numbers, ih]
      cases Evaluator.numbers op vs <;> rfl
    | _ => rfl

theorem operator_tracks (h : Follows sources lev ev) (hs : s.Settled sources) (hi : s.OnLevel i k)
    (op : Operator) (hes : ∀ e ∈ es, StandsOn sources k e) :
    Tracks sources s (Gives sources) ((lev k).operator i op es s)
      (ev.operator i op es s.unmarked) := by
  rcases es with _ | ⟨a, _ | ⟨b, rest⟩⟩
  · exact .none hs _
  · exact .none hs _
  · apply (each_tracks h hs hi hes).seq
    rintro t vs _ - ht ⟨rfl, -⟩
    rw [numbers_unmarked]
    cases Evaluator.numbers op vs with
    | ok ns => exact .one ht (gives_number t _)
    | error fault => exact .none ht fault

theorem negation_tracks (h : Follows sources lev ev) (hs : s.Settled sources) (hi : s.OnLevel i k)
    (hes : ∀ e ∈ es, StandsOn sources k e) :
    Tracks sources s (Gives sources) ((lev k).negation i es s) (ev.negation i es s.unmarked) := by
  rcases es with _ | ⟨e, _ | ⟨b, rest⟩⟩
  · exact .none hs _
  · apply (h k i e s hs hi (hes e (by simp))).seq
    rintro t v _ - ht ⟨rfl, -⟩
    cases v with
    | number n => exact .one ht (gives_number t _)
    | _ => exact .none ht (.negandNotNumber _)
  · exact .none hs _

theorem definition_tracks (h : Follows sources lev ev) (hs : s.Settled sources)
    (hi : s.OnLevel i k) (hes : ∀ e ∈ Form.definition.searched es, StandsOn sources k e) :
    Tracks sources s (Gives sources) ((lev k).definition i es s)
      (ev.definition i es s.unmarked) := by
  rcases es with _ | ⟨target, _ | ⟨e, _ | ⟨extra, rest⟩⟩⟩
  · exact .none hs _
  · cases target <;> exact .none hs _
  · cases target with
    | symbol name =>
      apply (h k i e s hs hi (hes e (by simp [Form.searched]))).seq
      rintro t v _ - ht ⟨rfl, hv⟩
      apply (assign_tracks ht i (.symbol name) hv).seq
      intro u _ _ _ hu _
      exact .one hu (gives_nil u)
    | _ => exact .none hs (.targetNotSymbol _)
  · cases target <;> exact .none hs _

theorem functionParts_unmarked {fault : Fault} (h : Evaluator.functionParts es = .error fault) :
    fault.unmarked = fault := by
  unfold Evaluator.functionParts at h
  split at h
  · split at h
    · rw [← Except.error.inj h]
      rfl
    · cases h
    · rw [← Except.error.inj h]
      rfl
  all_goals
    rw [← Except.error.inj h]
    rfl

theorem function_tracks (hs : s.Settled sources) (hi : s.OnLevel i k)
    (he : StandsOn sources k (.list (.symbol "fn" :: es))) :
    Tracks sources s (Gives sources) (Evaluator.function (home i k) es s)
      (Evaluator.function i es s.unmarked) := by
  rw [Evaluator.function_eq, Evaluator.function_eq]
  cases hf : Evaluator.functionParts es with
  | error fault =>
    have hfault := functionParts_unmarked hf
    have hend := Tracks.none (R := Gives sources) hs fault
    rw [hfault] at hend
    exact hend
  | ok f =>
    obtain rfl := Evaluator.functionParts_eq_ok hf
    refine .one hs ⟨(Value.unmarked_home f.1 f.2 i k).symm, ?_⟩
    rintro _ _ _ ⟨⟩
    rw [← hi.depth] at he ⊢
    exact ⟨i, hi.lt, rfl, he.body⟩

theorem choice_tracks (h : Follows sources lev ev) (hs : s.Settled sources) (hi : s.OnLevel i k)
    (hes : ∀ e ∈ Form.branches es, StandsOn sources k e) :
    Tracks sources s (Gives sources) ((lev k).choice i es s) (ev.choice i es s.unmarked) := by
  fun_induction Evaluator.choice ev i es generalizing s with
  | case1 => exact .none hs _
  | case2 default => exact h k i default s hs hi (hes default (by simp [Form.branches]))
  | case3 test result rest hne ih =>
    rw [Form.branches, List.forall_mem_cons, List.forall_mem_cons] at hes
    · obtain ⟨htest, hresult, hrest⟩ := hes
      rw [Evaluator.choice]
      · apply (h k i test s hs hi htest).seq
        rintro t v _ hg ht ⟨rfl, -⟩
        rw [Value.holds_unmarked]
        split
        · exact h k i result t ht (hi.mono hg) hresult
        · exact ih ht (hi.mono hg) hrest
      · exact hne
    · exact hne
  | case4 clause rest hne hpair =>
    rw [Evaluator.choice]
    · exact .none hs (.clauseNotPair clause)
    all_goals assumption

theorem bindArguments_tracks (h : Follows sources lev ev) (name : String) (n : FrameId)
    (expected count : Nat) (ps : List Value) {args : List Value} (hs : s.Settled sources)
    (hi : s.OnLevel i k) (hargs : ∀ a ∈ args, StandsOn sources k a) :
    Tracks sources s (fun _ _ _ => True)
      (Evaluator.bindArguments (lev k) i name n expected count ps args s)
      (Evaluator.bindArguments ev i name n expected count ps args s.unmarked) := by
  induction ps generalizing args s with
  | nil => exact .one hs trivial
  | cons p ps ih =>
    cases args with
    | nil => exact .none hs (.missingArgument ..)
    | cons a as =>
      rw [List.forall_mem_cons] at hargs
      apply (h k i a s hs hi hargs.1).seq
      rintro t v _ hg ht ⟨rfl, hv⟩
      apply (assign_tracks ht n p hv).seq
      intro u _ _ hg' hu _
      exact ih hu ((hi.mono hg).mono hg') hargs.2

end forms

variable {instead : Nat → Evaluator} {ps : Parts} {qs : Evaluator.Parts}

theorem guarded_of {α : Type} {P : Store → Prop} {m other : Effect α} (h : P s) :
    Effect.guarded P m other s = m s :=
  if_pos h

theorem call_tracks (hb : Follows sources ps.inner qs.inner)
    (ho : Follows sources ps.operand qs.operand) (hs : s.Settled sources) (hi : s.OnLevel i k)
    (name : String) {args : List Value} (hargs : ∀ a ∈ args, StandsOn sources k a) :
    Tracks sources s (Gives sources) (call instead ps k i name args s)
      (Evaluator.call i qs (.ok .lexical) name args s.unmarked) := by
  have hl := s.lookup?_unmarked i name
  cases hv : s.lookup? i name with
  | none =>
    rw [hv] at hl
    rw [call, Evaluator.call, Effect.lookup_bind, Effect.lookup_bind, hv, hl]
    exact .none hs (.unbound (.symbol name))
  | some v =>
    rw [hv, Option.map_some] at hl
    cases v with
    | closure params body h =>
      obtain ⟨j, hj, rfl, hbody⟩ := hs.lookup? hv params body h .self
      rw [Value.unmarked_home] at hl
      -- the function was made in the frame j, so its body is one level further in than j is deep
      have hjl : s.OnLevel j (s.depth j) := ⟨hj, rfl⟩
      have hframe : frameOf (home j (s.depth j)) = j := by simp [frameOf, home]
      have hlevel : bodyLevel (home j (s.depth j)) = s.depth j + 1 := by simp [bodyLevel, home]
      have hg := growsTo_extend s j
      have hext := hs.extend hjl hbody
      have hn := hjl.extend
      have hsize : s.frames.size = s.unmarked.frames.size := s.size_unmarked.symm
      rw [call, Effect.lookup_bind, hv, Evaluator.call_closure i hl, Evaluator.parent, ← hsize,
        ← unmarked_extend]
      dsimp only
      rw [hframe, hlevel, Effect.extend_bind, guarded_of hn.depth]
      apply Tracks.since hg
      apply (bindArguments_tracks ho name _ _ _ params hext (hi.mono hg) hargs).seq
      intro t _ _ hg ht _
      apply (noteCall_tracks ht name (hn.mono hg)).seq
      intro u _ _ hg' hu _
      exact hb _ _ _ u hu ((hn.mono hg).mono hg') hbody
    | _ =>
      rw [call, Evaluator.call, Effect.lookup_bind, Effect.lookup_bind, hv, hl]
      exact .none hs (.notClosure name)

theorem form_tracks (hb : Follows sources ps.inner qs.inner)
    (ho : Follows sources ps.operand qs.operand) (hs : s.Settled sources) (hi : s.OnLevel i k)
    {head : String} {f : Form} (hf : Form.ofName? head = some f)
    (he : StandsOn sources k (.list (.symbol head :: es))) :
    Tracks sources s (Gives sources) (form ps k i f es s)
      (Evaluator.form i qs f es s.unmarked) := by
  -- all forms but one leave their parts on the level where they stand themselves
  have hparts : f ≠ .function → ∀ p ∈ f.searched es, StandsOn sources k p := by
    intro hne p hp
    rw [← Value.searched_form hf] at hp
    exact he.operand (by simpa [hf] using hne) hp
  cases f with
  | operator op => exact operator_tracks ho hs hi op (hparts (by simp))
  | negation => exact negation_tracks hb hs hi (hparts (by simp))
  | definition => exact definition_tracks hb hs hi (hparts (by simp))
  | function =>
    obtain rfl := Form.eq_name hf
    exact function_tracks hs hi he
  | choice => exact choice_tracks hb hs hi (hparts (by simp))

theorem step_follows (hit : Follows sources ps.item qs.item)
    (hb : Follows sources ps.inner qs.inner) (ho : Follows sources ps.operand qs.operand) :
    Follows sources (step instead ps) (Evaluator.step (.ok .lexical) qs) := by
  intro k i e s hs hi he
  cases e with
  | symbol name =>
    have hl := s.lookup?_unmarked i name
    rw [Evaluator.step, Effect.lookup, Store.lookupValue, hl]
    rw [step, Evaluator.step, Effect.lookup, Store.lookupValue]
    · cases hv : s.lookup? i name with
      | none => exact .none hs (.unbound (.symbol name))
      | some v => exact .one hs ⟨rfl, hs.lookup? hv⟩
    · intro head tail h
      cases h
  | number n => exact .one hs (gives_number s n)
  | list es =>
    by_cases hes : ∃ head tail, es = .symbol head :: tail
    · obtain ⟨head, tail, rfl⟩ := hes
      rw [step, Evaluator.step]
      cases hf : Form.ofName? head with
      | some f => exact form_tracks hb ho hs hi hf he
      | none =>
        apply call_tracks hb ho hs hi
        intro a ha
        have hp : a ∈ (Value.list (.symbol head :: tail)).searched := by
          rw [Value.searched_call hf]
          exact List.mem_cons_of_mem _ ha
        exact he.operand (by simp [hf]) hp
    · simp only [not_exists] at hes
      have hitems : ∀ e ∈ es, StandsOn sources k e := by
        intro p hp
        rw [← Value.searched_items hes] at hp
        exact he.part hp fun tail h => hes _ _ (Value.list.inj h)
      rw [step, Evaluator.step, Evaluator.step]
      · apply (items_tracks hit hs hi hitems).seq
        rintro t vs _ - ht ⟨rfl, hvs⟩
        exact .one ht ⟨(Value.unmarked_list vs).symm, Value.settled_list.mpr hvs⟩
      · exact hes
      · exact hes
      · rintro head tail ⟨⟩
        exact hes head tail rfl
  | nil | closure | integer | text => exact .one hs (gives_nil s)

theorem checked_follows {lev : Nat → Evaluator} {ev : Evaluator} (h : Follows sources lev ev) :
    Follows sources (checked sources instead lev) ev := by
  intro k i e s hs hi he
  rw [checked, guarded_of ⟨he, hi.depth⟩]
  exact h k i e s hs hi he

theorem parts_follows (sources : List String) (instead : Nat → Evaluator) (room : Nat) :
    let ps := parts sources instead room
    let qs := Evaluator.parts (.ok .lexical) room
    Follows sources ps.item qs.item ∧ Follows sources ps.inner qs.inner ∧
      Follows sources ps.operand qs.operand := by
  induction room with
  | zero =>
    have hnone : Follows sources (checked sources instead fun _ => Evaluator.parts.exhausted)
        Evaluator.parts.exhausted :=
      checked_follows fun k i e s hs _ _ => .none hs .depthExceeded
    exact ⟨hnone, hnone, hnone⟩
  | succ room ih =>
    obtain ⟨hit, hb, ho⟩ := ih
    exact ⟨checked_follows (step_follows hit hb ho), hit, hb⟩

end Levelled

def Failure.unmarked : Failure → Failure
  | .read fault => .read fault
  | .evaluation fault => .evaluation fault.unmarked
  | .unrecorded => .unrecorded

def sourceDepth (source : String) : Nat :=
  match Reader.read source with
  | .ok program => program.functionDepth
  | .error _ => 0

theorem StandsOn.le_max {sources : List String} {k : Nat} {e : Value} (h : StandsOn sources k e) :
    k ≤ (sources.map sourceDepth).foldr max 0 := by
  obtain ⟨source, hs, program, hread, h⟩ := h
  have hk : k ≤ sourceDepth source := by
    have hle := h.level_le
    rw [sourceDepth, hread]
    dsimp only
    lia
  induction hs with
  | head => exact Nat.le_trans hk (Nat.le_max_left ..)
  | tail _ _ ih => exact Nat.le_trans ih (Nat.le_max_right ..)

namespace Levelled

def replyOf (result : Except Failure Value) : Session.Reply :=
  Session.valueReply ((result.map Value.unmarked).mapError Failure.unmarked)

variable {sources : List String} {s : Store} {root : FrameId}

theorem evaluateSource_tracks (instead : Nat → Evaluator) {source : String} (hm : source ∈ sources)
    (hs : s.Settled sources) (hroot : s.OnLevel root 0) :
    let r := evaluateSource sources instead source root s
    let r' := ScopedLisp.evaluateSource (.ok .lexical) source root s.unmarked
    Session.valueReply r'.1 = replyOf r.1 ∧ r'.2 = r.2.unmarked ∧ r.2.Settled sources ∧
      r.2.OnLevel root 0 := by
  cases s.takes source with
  | unread hread =>
    rw [evaluateSource_unread hread, evaluateSource, runSource_unread hread]
    exact ⟨rfl, rfl, hs, hroot⟩
  | unrecorded hread hs' =>
    rw [evaluateSource_unrecorded hread ((s.cannotRecord_unmarked _).trans hs'), evaluateSource,
      runSource_unrecorded hread hs']
    exact ⟨rfl, rfl, hs, hroot⟩
  | @read program hread hs' =>
    have hg : s.GrowsTo (Effect.note (.parsed program) s).2 := growsTo_of_frames_eq rfl
    obtain ⟨hit, -, -⟩ := parts_follows sources instead evaluationRoom
    have hrun := hit 0 root program (Effect.note (.parsed program) s).2 (hs.of_frames_eq rfl)
      (hroot.mono hg) (.program hm hread)
    rw [unmarked_note, Event.unmarked] at hrun
    rw [evaluateSource_read hread ((s.cannotRecord_unmarked _).trans hs'), evaluateSource,
      runSource_read hread hs', evaluate]
    dsimp only
    generalize (parts sources instead evaluationRoom).item 0 root program _ = r,
      (Evaluator.parts _ _).item root program _ = r' at hrun
    cases hrun with
    | value hg' ht h =>
      obtain ⟨rfl, -⟩ := h
      exact ⟨rfl, rfl, ht, hroot.mono (hg.trans hg')⟩
    | fault hg' ht fault =>
      refine ⟨?_, rfl, ht, hroot.mono (hg.trans hg')⟩
      simp only [Except.mapError, fault.reported_unmarked]
      rfl

theorem evaluateAll_tracks (instead : Nat → Evaluator) {rest : List String} {session : Session}
    {id : String} (hrest : ∀ source ∈ rest, source ∈ sources) (hs : s.Settled sources)
    (hroot : s.OnLevel root 0) (hid : session.interpreter? id = some ⟨.lexical, root⟩)
    (hsame : session.store = s.unmarked) :
    let r := evaluateAll sources instead root rest s
    let commands := rest.map (Session.Command.eval id)
    session.repliesTo id commands = r.1.map replyOf ∧
      (session.after commands).store = r.2.unmarked ∧ r.2.Settled sources := by
  induction rest generalizing s session with
  | nil => exact ⟨rfl, hsame, hs⟩
  | cons source rest ih =>
    rw [List.forall_mem_cons] at hrest
    obtain ⟨hreply, hstore, ht, hroot'⟩ := evaluateSource_tracks instead hrest.1 hs hroot
    rw [← hsame] at hreply hstore
    have hrun := Session.run_eval hid source
    have hid' : (session.run (.eval id source)).2.interpreter? id = some ⟨.lexical, root⟩ := by
      rw [hrun]
      exact hid
    have hsame' : (session.run (.eval id source)).2.store =
        (evaluateSource sources instead source root s).2.unmarked := by
      rw [hrun]
      exact hstore
    obtain ⟨hreplies, hend, hu⟩ := ih hrest.2 ht hroot' hid' hsame'
    refine ⟨?_, hend, hu⟩
    rw [List.map_cons, Session.repliesTo, Session.Command.source?, if_pos rfl, hreplies, hrun,
      evaluateAll, List.map_cons, ← hreply]

end Levelled

/-- A lexical interpreter replies and ends as evaluation by levels does, whatever that one does
where an expression does not stand on its level or is evaluated in a frame of another depth, or
where the frame of a call has another depth than the body that is called: so there is no such
expression and no such call. Every frame is as deep as some code is nested in functions, and no
chain is longer than functions are nested in the texts. -/
theorem depth_is_level (listening : Bool) (id : String) (sources : List String)
    (instead : Nat → Evaluator) :
    let start := Session.starting (if listening then some [] else none)
    let s := (start.run (.create id (some Scoping.lexical.name))).2
    let r := Levelled.evaluateAll sources instead 0 sources s.store
    let commands := sources.map (Session.Command.eval id)
    let t := (s.after commands).store
    s.repliesTo id commands = r.1.map Levelled.replyOf ∧ t = r.2.unmarked ∧
      (∀ i, t.depth i = 0 ∨ ∃ body, StandsOn sources (t.depth i) body) ∧
      ∀ i, (t.chain i).length ≤ (sources.map sourceDepth).foldr max 0 + 1 := by
  intro start s r commands t
  have hs : s = start.add id .lexical :=
    Session.create_eq (Session.create_name start id .lexical)
  have hstore : s.store = ⟨#[⟨none, []⟩], if listening then some [] else none⟩ := by
    rw [hs]
    cases listening <;> rfl
  have hid : s.interpreter? id = some ⟨.lexical, 0⟩ := by
    rw [hs, Session.interpreter?_add, if_pos rfl]
    cases listening <;> rfl
  have hroot : s.store.OnLevel 0 0 := by
    rw [hstore]
    refine ⟨by simp, ?_⟩
    rw [Store.depth, Store.chain_eq (by simp)]
    rfl
  have hsettled : s.store.Settled sources := by
    constructor
    · intro i a v hv
      rw [hstore] at hv
      cases i <;> cases hv
    · intro i hi
      rw [hstore] at hi
      obtain rfl : i = 0 := by simpa using hi
      exact .inl hroot.depth
  have hsame : s.store = s.store.unmarked := by
    rw [hstore]
    cases listening <;> simp [Store.unmarked, Frame.unmarked]
  obtain ⟨hreplies, hend, ht⟩ := Levelled.evaluateAll_tracks instead (fun _ h => h) hsettled hroot
    hid hsame
  have hdepth : ∀ i, t.depth i = 0 ∨ ∃ body, StandsOn sources (t.depth i) body := by
    intro i
    -- the frames of both runs continue in the same ones
    have hunmarked : t.depth i = r.2.depth i := by
      rw [show t = r.2.unmarked from hend]
      exact Store.depth_congr fun j _ => r.2.sameOuter_unmarked j
    rw [hunmarked]
    by_cases hi : i < r.2.frames.size
    · exact ht.frame i hi
    · rw [Store.depth, Store.chain_of_size_le (Nat.le_of_not_lt hi)]
      exact .inl rfl
  refine ⟨hreplies, hend, hdepth, ?_⟩
  intro i
  have hlength : (t.chain i).length ≤ t.depth i + 1 := by
    rw [Store.depth]
    lia
  apply Nat.le_trans hlength
  rcases hdepth i with h | ⟨body, h⟩
  · rw [h]
    lia
  · exact Nat.succ_le_succ h.le_max

end ScopedLisp

import ScopedLisp.Proofs.Visibility

namespace ScopedLisp

open Store (SameOuter)

namespace Value

theorem remembers_iff_within {i : FrameId} {v : Value} :
    v.Remembers i ↔ ∃ params body, (Value.closure params body (some i)).Within v := by
  constructor
  · intro h
    induction h with
    | closure params body => exact ⟨params, body, .self⟩
    | item hv _ ih =>
      obtain ⟨params, body, h⟩ := ih
      exact ⟨params, body, .item hv h⟩
  · rintro ⟨params, body, h⟩
    induction h with
    | self => exact .closure params body
    | item hw _ ih => exact .item hw ih

end Value

theorem Store.Reaches.least {s : Store} {i j : FrameId} {C : FrameId → Prop} (h : s.Reaches i j)
    (hi : C i) (outer : ∀ j o, C j → s.next? j = some o → C o)
    (home : ∀ j a v k, C j → s.get? j a = some v → v.Remembers k → C k) : C j := by
  induction h with
  | root => exact hi
  | outer _ ho ih => exact outer _ _ ih ho
  | home _ hv hj ih => exact home _ _ _ _ ih hv hj

structure Store.AgreeOn (R : FrameId → Prop) (s t : Store) : Prop where
  events : t.events = s.events
  shape : ∀ i, SameOuter s t i
  frame : ∀ i, R i → t.frames[i]? = s.frames[i]?

def View.reachable (s : Store) (i : FrameId) : View where
  frames j := s.Reaches i j ∨ s.frames.size ≤ j
  names _ := True
  whole j := s.Reaches i j ∨ s.frames.size ≤ j

section reaches

variable {s t : Store} {i : FrameId}

theorem View.admits_reachable {v : Value} :
    (View.reachable s i).Admits v ↔ ∀ j, v.Remembers j → s.Reaches i j ∨ s.frames.size ≤ j := by
  constructor
  · intro h j hj
    obtain ⟨params, body, hw⟩ := Value.remembers_iff_within.mp hj
    exact (h params body (some j) hw).1 j rfl
  · intro h params body home hw
    refine ⟨?_, fun _ _ => trivial⟩
    rintro j rfl
    exact h j (Value.remembers_iff_within.mpr ⟨params, body, hw⟩)

theorem Store.AgreeOn.agree (h : s.AgreeOn (s.Reaches i) t) : (View.reachable s i).Agree s t := by
  have hbeyond : ∀ j, s.frames.size ≤ j → s.frames[j]? = none ∧ t.frames[j]? = none := by
    intro j hj
    have hsize := fun ht => Nat.not_lt.mpr hj ((h.shape j).lt_size_iff.mp ht)
    exact ⟨Array.getElem?_eq_none hj, Array.getElem?_eq_none (Nat.le_of_not_lt hsize)⟩
  have hsame : ∀ j, s.Reaches i j ∨ s.frames.size ≤ j → t.frames[j]? = s.frames[j]? := by
    rintro j (hj | hj)
    · exact h.frame j hj
    · rw [(hbeyond j hj).1, (hbeyond j hj).2]
  refine ⟨h.events, h.shape, ?_, ?_, ?_, hsame, fun j hj => ⟨.inr hj, .inr hj⟩⟩
  · rintro j o (hj | hj) ho
    · exact .inl (hj.outer ho)
    · simp [Store.next?, (hbeyond j hj).1] at ho
  · intro j a hj _
    rw [Store.get?, Store.get?, hsame j hj]
  · rintro j a v (hj | hj) _ hv
    · exact View.admits_reachable.mpr fun k hk => .inl (hj.home hv hk)
    · simp [Store.get?, (hbeyond j hj).1] at hv

theorem View.Agree.agreeOn {u u' : Store} (h : (View.reachable s i).Agree u u') :
    u.AgreeOn (fun j => s.Reaches i j ∨ s.frames.size ≤ j) u' :=
  ⟨h.events, h.shape, h.whole⟩

theorem View.Ends.agreeOn {α : Type} {Q : α → Prop} {r r' : Except Fault α × Store}
    (h : (View.reachable s i).Ends Q r r') :
    r'.1 = r.1 ∧ r.2.AgreeOn (fun j => s.Reaches i j ∨ s.frames.size ≤ j) r'.2 := by
  cases h with
  | value h _ => exact ⟨rfl, h.agreeOn⟩
  | fault fault h => exact ⟨rfl, h.agreeOn⟩

end reaches

section call

open Evaluator

variable {s t : Store} {i n home : FrameId}

theorem Store.next?_extend {o : FrameId} (h : (s.extend home).2.next? s.frames.size = some o) :
    o = home := by
  rw [Store.next?, Store.frames_extend_self, Option.bind_some] at h
  exact (Option.some.inj (Option.filter_eq_some_iff.mp h).1).symm

theorem Evaluator.bindArguments_outer {ev : Evaluator} (hev : Confines ev) (name : String)
    (expected count : Nat) (ps args : List Value) (hi : i < s.frames.size) (j : FrameId)
    (hj : j < s.frames.size) :
    SameOuter s (bindArguments ev i name n expected count ps args s).2 j := by
  induction ps generalizing args s with
  | nil => exact rfl
  | cons p ps ih =>
    cases args with
    | nil => exact rfl
    | cons a as =>
      have ha := hev i a s hi
      have hout : SameOuter s (ev i a s).2 j := ha.outer j hj
      have hle := ha.size_le
      rw [bindArguments, Effect.bind_apply]
      rcases hr : ev i a s with ⟨fault | v, u⟩ <;> rw [hr] at hout hle
      · exact hout
      · cases p with
        | symbol param =>
          have hset : SameOuter s (u.set n param v) j :=
            Eq.trans (Store.sameOuter_set u n param v j) hout
          have hsize := Store.size_set u n param v
          have hrest := ih (s := u.set n param v) as (by lia) (by lia)
          exact Eq.trans hrest hset
        | _ => exact hout

/-- What a call can reach once its arguments are bound in its frame: what can be reached from where
the function was made, and from the arguments. -/
def Store.CallReaches (s : Store) (n home j : FrameId) : Prop :=
  j = n ∨ ∃ k, (k = home ∨ ∃ a v, s.get? n a = some v ∧ v.Remembers k) ∧ s.Reaches k j

theorem Store.Reaches.call {j : FrameId} (h : s.Reaches n j)
    (hn : ∀ o, s.next? n = some o → o = home) : s.CallReaches n home j := by
  apply h.least
  · exact .inl rfl
  · rintro j o (rfl | ⟨k, hk, hj⟩) ho
    · exact .inr ⟨home, .inl rfl, hn o ho ▸ .root⟩
    · exact .inr ⟨k, hk, hj.outer ho⟩
  · rintro j a v m (rfl | ⟨k, hk, hj⟩) hv hm
    · exact .inr ⟨m, .inr ⟨a, v, hv, hm⟩, .root⟩
    · exact .inr ⟨k, hk, hj.home hv hm⟩

end call

/-- An evaluation has the same outcome in stores that agree on what it can reach, and they still
agree there and on all frames that are new. So under lexical scoping the frame of a caller makes no
difference to the call of a function, but for what can be reached of it by way of the function or
of its arguments. -/
theorem unreachable_frames_make_no_difference :
    (∀ (rule : Except UnknownScoping Scoping) (room : Nat) (i : FrameId) (e : Value) (s t : Store),
      let r := evaluate rule room i e s
      let r' := evaluate rule room i e t
      s.AgreeOn (s.Reaches i) t →
        r'.1 = r.1 ∧ r.2.AgreeOn (fun j => s.Reaches i j ∨ s.frames.size ≤ j) r'.2) ∧
    ∀ (room : Nat) (name : String) (params body : List Value) (home i i' : FrameId)
      (args args' : List Value) (s s' t t' : Store),
      let parts := Evaluator.parts (.ok .lexical) room
      let n := s.frames.size
      let bound (i : FrameId) (args : List Value) (s : Store) :=
        Evaluator.bindArguments parts.operand i name n params.length args.length params args
          (s.extend home).2
      let r := Evaluator.call i parts (.ok .lexical) name args s
      let r' := Evaluator.call i' parts (.ok .lexical) name args' s'
      s.lookup? i name = some (.closure params body (some home)) →
      s'.lookup? i' name = some (.closure params body (some home)) →
      s'.frames.size = n →
      bound i args s = (.ok (), t) → bound i' args' s' = (.ok (), t') →
      t.AgreeOn (t.CallReaches n home) t' →
        r'.1 = r.1 ∧ r.2.AgreeOn (fun j => t.Reaches n j ∨ t.frames.size ≤ j) r'.2 := by
  constructor
  · intro rule room i e s t r r' h
    exact (evaluate_respects (View.reachable s i) rule room i e (.inl .root) (fun _ _ => trivial)
      s t h.agree).agreeOn
  · intro room name params body home i i' args args' s s' t t' parts n bound r r' hl hl' hsize ht ht' h
    -- with the arguments bound, the rest of the call is one evaluation in the frame of the call
    have hcall : ∀ (i : FrameId) (args : List Value) (s t : Store), s.frames.size = n →
        s.lookup? i name = some (.closure params body (some home)) →
        bound i args s = (.ok (), t) → Evaluator.call i parts (.ok .lexical) name args s =
          (Effect.noteCall name n >>= fun _ => parts.inner n (.list body)) t := by
      intro i args s t hs hl ht
      rw [Evaluator.call_closure i hl, hs]
      exact Effect.bind_ok ht
    have hbody : (View.reachable t n).Steady (View.reachable t n).Admits
        (Effect.noteCall name n >>= fun _ => parts.inner n (.list body)) := by
      obtain ⟨-, hb, -⟩ := Evaluator.parts_respects (View.reachable t n) (.ok .lexical) room
      have hn : (View.reachable t n).whole n := .inl .root
      apply (View.steady_noteCall name hn).bind
      intro _ _
      exact hb n (.list body) (.inl .root) fun _ _ => trivial
    have hnext : ∀ o, t.next? n = some o → o = home := by
      intro o ho
      obtain ⟨-, -, hop⟩ := Evaluator.parts_confined (.ok .lexical) room
      have hi := Store.lt_size_of_lookup? hl
      have hin : i < (s.extend home).2.frames.size := by simp; lia
      have hout := Evaluator.bindArguments_outer (n := n) hop name params.length args.length params
        args hin n (by simp [n])
      have hnext := hout.next?_eq
      rw [show Evaluator.bindArguments _ _ _ _ _ _ _ _ _ = _ from ht, ho] at hnext
      exact Store.next?_extend hnext.symm
    have hagree : t.AgreeOn (t.Reaches n) t' :=
      ⟨h.events, h.shape, fun j hj => h.frame j (hj.call hnext)⟩
    unfold r r'
    rw [hcall i args s t rfl hl ht, hcall i' args' s' t' hsize hl' ht']
    exact (hbody t t' hagree.agree).agreeOn

theorem unreachable_frames_make_no_difference_caller :
    let one : Value := .number ⟨0x3ff0000000000000⟩
    let f : Value := .closure [.symbol "x"] [.symbol "+", .symbol "x", .symbol "y"] (some 0)
    let s (v : Value) : Store := ⟨#[⟨none, [("f", f)]⟩, ⟨some 0, [("y", v)]⟩], none⟩
    let call (v : Value) :=
      Evaluator.call 1 (Evaluator.parts (.ok .lexical) 3) (.ok .lexical) "f" [one] (s v)
    (s one).AgreeOn ((s one).Reaches 0) (s .nil) ∧
      (evaluate (.ok .lexical) 4 0 (.list [.symbol "f", one]) (s .nil)).1 =
        (evaluate (.ok .lexical) 4 0 (.list [.symbol "f", one]) (s one)).1 ∧
      (call .nil).1 = (call one).1 := by
  intro one f s call
  have hleast : ∀ (frames : Array Frame) (j : FrameId), frames[0]? = some ⟨none, [("f", f)]⟩ →
      (⟨frames, none⟩ : Store).Reaches 0 j → j = 0 := by
    intro frames j h0 hj
    apply hj.least (C := (· = 0)) rfl
    · rintro j o rfl ho
      simp [Store.next?, h0] at ho
    · rintro j a v k rfl hv hk
      rw [Store.get?, h0, Option.bind_some, Frame.get?, Named.lookup_cons] at hv
      split at hv
      · obtain rfl := Option.some.inj hv
        unfold f at hk
        cases hk
        rfl
      · cases hv
  have hagree : (s one).AgreeOn ((s one).Reaches 0) (s .nil) := by
    refine ⟨rfl, ?_, ?_⟩
    · rintro (_ | _ | j) <;> rfl
    · intro j hj
      obtain rfl := hleast _ j rfl hj
      rfl
  have hlookup : ∀ v, (s v).lookup? 1 "f" = some f := by
    intro v
    rw [Store.lookup?_eq, show (s v).get? 1 "f" = none from rfl,
      show (s v).next? 1 = some 0 from rfl, Option.none_or, Option.bind_some, Store.lookup?_eq]
    rfl
  let t (v : Value) : Store :=
    ⟨#[⟨none, [("f", f)]⟩, ⟨some 0, [("y", v)]⟩, ⟨some 0, [("x", one)]⟩], none⟩
  have hbound : (t one).AgreeOn ((t one).CallReaches 2 0) (t .nil) := by
    refine ⟨rfl, ?_, ?_⟩
    · rintro (_ | _ | _ | j) <;> rfl
    · rintro j (rfl | ⟨k, rfl | ⟨a, v, hv, hk⟩, hj⟩)
      · rfl
      · obtain rfl := hleast _ j rfl hj
        rfl
      · have hone : v = one := by
          rw [Store.get?, show (t one).frames[2]? = some ⟨some 0, [("x", one)]⟩ from rfl,
            Option.bind_some, Frame.get?, Named.lookup_cons] at hv
          split at hv
          · exact (Option.some.inj hv).symm
          · cases hv
        rw [hone] at hk
        unfold one at hk
        cases hk
  obtain ⟨hevaluate, hcall⟩ := unreachable_frames_make_no_difference
  refine ⟨hagree, (hevaluate _ 4 0 _ _ _ hagree).1, ?_⟩
  exact (hcall 3 "f" _ _ 0 1 1 [one] [one] (s one) (s .nil) (t one) (t .nil) (hlookup one)
    (hlookup .nil) rfl rfl rfl hbound).1

end ScopedLisp

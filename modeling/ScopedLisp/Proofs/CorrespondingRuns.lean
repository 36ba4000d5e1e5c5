import ScopedLisp.Proofs.Correspondence

namespace ScopedLisp.Correspondence

open Evaluator (Confines)

variable {c : Correspondence} {mode mode' : Scoping} {H : c.Heaps mode mode'}

section forms

variable {ev ev' : Evaluator} {w : c.World} {s s' : Store} {i i' : FrameId} {k : c.Kind}
  {es es' : List Value}

theorem each_corresponds (hev : Imitates H ev ev') (hs : H.Holds w s s') (hi : w i i' k)
    (hes : List.Forall₂ (c.Code k) es es') :
    Corresponds H w s s' (fun u _ _ => List.Forall₂ (c.Alike u)) (ev.each i es s)
      (ev'.each i' es' s') := by
  induction hes generalizing w s s' with
  | nil =>
    apply Corresponds.one_value hs
    exact .nil
  | cons he _ ih =>
    apply (hev w s s' i i' k _ _ hs hi he).seq
    intro u t t' v v' hu ht hv
    apply (ih ht (hu.le _ _ _ hi)).seq
    intro x r r' vs vs' hx hr hvs
    apply Corresponds.one_value hr
    exact .cons (hv.mono hx.le) hvs

theorem items_corresponds (hev : Imitates H ev ev') (hs : H.Holds w s s') (hi : w i i' k)
    (hes : List.Forall₂ (c.Code k) es es') :
    Corresponds H w s s' (fun u _ _ => List.Forall₂ (c.Alike u)) (ev.items i es s)
      (ev'.items i' es' s') := by
  induction hes generalizing w s s' with
  | nil =>
    apply Corresponds.one_value hs
    exact .nil
  | cons he _ ih =>
    apply (hev w s s' i i' k _ _ hs hi he).seq
    intro u t t' v v' hu ht hv
    apply (ih ht (hu.le _ _ _ hi)).seq
    intro x r r' vs vs' hx hr hvs
    have hv' := hv.mono hx.le
    apply Corresponds.one_value hr
    -- nil is left out on both sides, and everything else is kept on both
    cases hv' with
    | nil => exact hvs
    | number n => exact .cons (.number n) hvs
    | list hl h => exact .cons (.list hl h) hvs
    | closure h => exact .cons (.closure h) hvs
    | symbol h => exact .cons (.symbol h) hvs
    | integer h => exact .cons (.integer h) hvs
    | text h => exact .cons (.text h) hvs

theorem operator_corresponds (hc : c.Lawful) (hev : Imitates H ev ev') (op : Operator)
    (hs : H.Holds w s s') (hi : w i i' k) (hes : List.Forall₂ (c.Code k) es es') :
    Corresponds H w s s' (fun u _ _ => c.Alike u) (ev.operator i op es s)
      (ev'.operator i' op es' s') := by
  have hall := each_corresponds hev hs hi hes
  rcases hes with _ | ⟨ha, _ | ⟨hb, hrest⟩⟩
  · exact .same_fault hs _
  · exact .same_fault hs _
  · apply hall.seq
    intro u t t' vs vs' _ ht hvs
    have hns := Evaluator.numbers_like (S := c.Shown) (fun v w hv => hc.shown_alike hv) op hvs
    generalize Evaluator.numbers op vs = r, Evaluator.numbers op vs' = r' at hns ⊢
    cases hns with
    | value hns =>
      rw [hns]
      exact .one_value ht (.number _)
    | fault hf => exact .one_fault ht hf

theorem negation_corresponds (hc : c.Lawful) (hev : Imitates H ev ev') (hs : H.Holds w s s')
    (hi : w i i' k) (hes : List.Forall₂ (c.Code k) es es') :
    Corresponds H w s s' (fun u _ _ => c.Alike u) (ev.negation i es s)
      (ev'.negation i' es' s') := by
  have hlen := hes.length_eq
  rcases hes with _ | ⟨he, _ | ⟨hb, hrest⟩⟩
  · exact .same_fault hs _
  · apply (hev w s s' i i' k _ _ hs hi he).seq
    intro u t t' v v' _ ht hv
    have hshown := hc.shown_alike hv
    cases hv with
    | number n => exact .one_value ht (.number _)
    | _ => exact .one_fault ht (.negandNotNumber hshown)
  · simp only [Evaluator.negation, hlen]
    exact .same_fault hs _

theorem definition_corresponds (hev : Imitates H ev ev') (hs : H.Holds w s s') (hi : w i i' k)
    (hes : c.Operands k .definition es es') :
    Corresponds H w s s' (fun u _ _ => c.Alike u) (ev.definition i es s)
      (ev'.definition i' es' s') := by
  cases hes with
  | definition ha he =>
    apply (hev w s s' i i' k _ _ hs hi he).seq
    intro u t t' v v' hu ht hv
    have hset := H.assign ht (hu.le _ _ _ hi) ha hv
    refine .value (Grows.refl u ?_ ?_) hset .nil
    · simp
    · simp
  | @undefinable t t' e e' ht ht' h =>
    cases t <;> cases t' <;> simp only [Value.isSymbol, reduceCtorEq] at ht ht'
    all_goals exact .one_fault hs (.targetNotSymbol h)
  | incomplete h h' =>
    have hnone : ∀ (ev : Evaluator) (i : FrameId) (es : List Value), es.length ≠ 2 →
        ev.definition i es = Effect.fail .definitionArity := by
      intro ev i es hl
      fun_cases Evaluator.definition ev i es
      · simp at hl
      · simp at hl
      · rfl
    rw [hnone ev i es h, hnone ev' i' es' h']
    exact .same_fault hs _

theorem function_corresponds (hs : H.Holds w s s') (hi : w i i' k)
    (hes : c.Operands k .function es es') :
    Corresponds H w s s' (fun u _ _ => c.Alike u) (Evaluator.function i es s)
      (Evaluator.function i' es' s') := by
  rw [Evaluator.function_eq, Evaluator.function_eq]
  cases hes with
  | function h =>
    generalize Evaluator.functionParts es = r, Evaluator.functionParts es' = r' at h
    cases h with
    | value hf =>
      obtain ⟨l, hf⟩ := hf
      exact .one_value hs (.closure (.mk hf (.some hi)))
    | fault hf => exact .one_fault hs hf

theorem choice_corresponds (hev : Imitates H ev ev') (hs : H.Holds w s s') (hi : w i i' k)
    (hes : c.Branches k es es') :
    Corresponds H w s s' (fun u _ _ => c.Alike u) (ev.choice i es s) (ev'.choice i' es' s') := by
  induction hes generalizing w s s' with
  | none => exact .same_fault hs _
  | default he => exact hev w s s' i i' k _ _ hs hi he
  | pair hne hne' ht hr _ ih =>
    rw [Evaluator.choice, Evaluator.choice]
    · apply (hev w s s' i i' k _ _ hs hi ht).seq
      intro u t t' v v' hu hs' hv
      have hi' := hu.le _ _ _ hi
      rw [hv.holds_eq]
      split
      · exact hev u t t' i i' k _ _ hs' hi' hr
      · exact ih hs' hi'
    · exact hne'
    · exact hne
  | malformed hne hne' hp hp' h =>
    rw [Evaluator.choice, Evaluator.choice]
    · exact .one_fault hs (.clauseNotPair h)
    · exact hne'
    · exact hp'
    · exact hne
    · exact hp

theorem lookup_corresponds (hc : c.Lawful) (hs : H.Holds w s s') (hi : w i i' k) {a a' : String}
    (ha : c.Reads k a a') :
    Corresponds H w s s' (fun u _ _ => c.Alike u) (Effect.lookup i a s)
      (Effect.lookup i' a' s') := by
  have hl := H.lookup hs hi ha
  rw [Effect.lookup, Effect.lookup, Store.lookupValue, Store.lookupValue]
  generalize s.lookup? i a = v?, s'.lookup? i' a' = v?' at hl
  cases hl with
  | some hv => exact .one_value hs hv
  | none => exact .one_fault hs (.unbound (hc.shown_read ha))

end forms

section call

variable {ev ev' : Evaluator} {w : c.World} {s s' : Store} {i i' n n' : FrameId} {k l : c.Kind}

theorem arguments_correspond (hc : c.Lawful) (hev : Imitates H ev ev') (hf : Confines ev)
    (hf' : Confines ev') {name name' : String}
    (hname : c.Shown (.symbol name) (.symbol name')) (expected count : Nat)
    {ps ps' args args' : List Value} (hps : List.Forall₂ (c.Parameter l) ps ps')
    (hargs : List.Forall₂ (c.Code k) args args') {f f' : Frame} (hs : H.Holds w s s')
    (hi : w i i' k) (hn : s.frames[n]? = some f) (hn' : s'.frames[n']? = some f')
    (hfree : ∀ j j' m, w j j' m → j ≠ n ∧ j' ≠ n') :
    Corresponds H w s s' (fun u t t' _ _ => ∃ bs bs' : List (String × Value),
        ps = bs.map (.symbol ·.1) ∧ ps' = bs'.map (.symbol ·.1) ∧
        BindingsAlike (c.Binds l) (c.Alike u) bs bs' ∧ (∀ j j' m, u j j' m → j ≠ n ∧ j' ≠ n') ∧
        t.frames[n]? = some (f.bindAll bs) ∧ t'.frames[n']? = some (f'.bindAll bs'))
      (ev.bindArguments i name n expected count ps args s)
      (ev'.bindArguments i' name' n' expected count ps' args' s') := by
  induction hps generalizing args args' w s s' f f' with
  | nil =>
    apply Corresponds.one_value hs
    exact ⟨[], [], rfl, rfl, .nil, hfree, hn, hn'⟩
  | @cons p p' ps ps' hp _ ih =>
    cases hargs with
    | nil =>
      apply Corresponds.one_fault hs
      apply Fault.Like.missingArgument expected count hname
      cases hp with
      | symbol ha => exact hc.shown_bound ha
      | other _ _ h => exact h
    | @cons a a' as as' ha has =>
      have hlt : n < s.frames.size := (Array.getElem?_eq_some_iff.mp hn).1
      have hlt' : n' < s'.frames.size := (Array.getElem?_eq_some_iff.mp hn').1
      -- the frames that are being filled are not in the world yet, so arguments leave them alone
      obtain ⟨hin, hin'⟩ := hfree i i' k hi
      obtain ⟨his, his'⟩ := H.lt hs hi
      have hkeep : (ev i a s).2.frames[n]? = some f := by
        rw [(hf i a s his).frame n hlt hin.symm, hn]
      have hkeep' : (ev' i' a' s').2.frames[n']? = some f' := by
        rw [(hf' i' a' s' his').frame n' hlt' hin'.symm, hn']
      have harg := hev w s s' i i' k a a' hs hi ha
      rw [Evaluator.bindArguments, Evaluator.bindArguments, Effect.bind_apply, Effect.bind_apply]
      generalize ev i a s = r, ev' i' a' s' = r' at harg hkeep hkeep'
      cases harg with
      | fault hg ht h => exact .fault hg ht h
      | @value u t t' v v' hg ht hv =>
        have hfree' := hg.free hlt hlt' hfree
        cases hp with
        | @symbol x x' hx =>
          have hset : H.Holds u (t.set n x v) (t'.set n' x' v') := by
            apply H.congr ht
            · intro j j' m hu
              obtain ⟨hj, hj'⟩ := hfree' j j' m hu
              exact ⟨Store.frames_set_ne t n x v hj, Store.frames_set_ne t' n' x' v' hj'⟩
            · have hl := H.listens ht
              exact hl
          have hfill : (t.set n x v).frames[n]? = some (f.set x v) := by
            rw [Store.frames_set, if_pos rfl, hkeep, Option.map_some]
          have hfill' : (t'.set n' x' v').frames[n']? = some (f'.set x' v') := by
            rw [Store.frames_set, if_pos rfl, hkeep', Option.map_some]
          have hrest := ih has hset (hg.le _ _ _ hi) hfill hfill' hfree'
          have hsize : t.frames.size ≤ (t.set n x v).frames.size := by simp
          have hsize' : t'.frames.size ≤ (t'.set n' x' v').frames.size := by simp
          apply Corresponds.since (hg.trans (.refl u hsize hsize'))
          apply hrest.imp
          rintro y r r' _ _ hy ⟨bs, bs', rfl, rfl, hbs, hout, hr, hr'⟩
          have hv' := hv.mono hy.le
          exact ⟨(x, v) :: bs, (x', v') :: bs', rfl, rfl, .cons ⟨hx, hv'⟩ hbs, hout, hr, hr'⟩
        | other hx hx' h =>
          cases p <;> cases p' <;> simp only [Value.isSymbol, reduceCtorEq] at hx hx'
          all_goals exact .fault hg ht (.unbindable h)

theorem noteCall_corresponds (hc : c.Lawful) (name name' : String) {bs bs' : List (String × Value)}
    (hbs : BindingsAlike (c.Binds l) (c.Alike w) bs bs') {o o' : Option FrameId}
    (hn : s.frames[n]? = some (Frame.bindAll ⟨o, []⟩ bs))
    (hn' : s'.frames[n']? = some (Frame.bindAll ⟨o', []⟩ bs')) (hs : H.Holds w s s') :
    Corresponds H w s s' (fun u t t' _ _ => u = w ∧ t.frames = s.frames ∧ t'.frames = s'.frames)
      (Effect.noteCall name n s) (Effect.noteCall name' n' s') := by
  have hframes : BindingsAlike (c.Binds l) (c.Alike w) (Frame.bindAll ⟨o, []⟩ bs).bindings
      (Frame.bindAll ⟨o', []⟩ bs').bindings :=
    hbs.bindAll (fun _ _ _ _ ha hb => hc.bound_iff ha hb) .nil
  have hfault : (Frame.bindAll ⟨o, []⟩ bs).fault? = (Frame.bindAll ⟨o', []⟩ bs').fault? := by
    apply BindingsAlike.fault?_eq
    apply hframes.mono
    intro v v' hv
    exact hc.written (hc.shown_alike hv)
  have hl := H.listens hs
  rw [Effect.noteCall, Effect.noteCall, hn, hn']
  cases he : s.events with
  | none =>
    have he' : s'.events = none := by simpa [he] using hl
    rw [he']
    exact .one_value hs ⟨rfl, rfl, rfl⟩
  | some events =>
    obtain ⟨events', he'⟩ : ∃ events', s'.events = some events' := by
      rw [← Option.isSome_iff_exists, ← hl, he, Option.isSome_some]
    rw [he']
    dsimp only
    rw [hfault]
    split
    · exact .same_fault hs _
    · refine .value (.refl w (Nat.le_refl _) (Nat.le_refl _)) ?_ ⟨rfl, rfl, rfl⟩
      apply H.congr hs
      · exact fun _ _ _ _ => ⟨rfl, rfl⟩
      · simp [he, he']

theorem parent_lt {home home' : Option FrameId} {k₁ : c.Kind} (hs : H.Holds w s s')
    (hi : w i i' k) (hh : c.Homes w k₁ home home') :
    Evaluator.parent mode home i < s.frames.size ∧
      Evaluator.parent mode' home' i' < s'.frames.size := by
  obtain ⟨his, his'⟩ := H.lt hs hi
  cases hh with
  | none _ =>
    cases mode <;> cases mode' <;> exact ⟨his, his'⟩
  | some hw =>
    obtain ⟨hws, hws'⟩ := H.lt hs hw
    cases mode <;> cases mode' <;> constructor <;> assumption

theorem call_corresponds (hc : c.Lawful) {parts parts' : Evaluator.Parts}
    (hb : Imitates H parts.inner parts'.inner) (ho : Imitates H parts.operand parts'.operand)
    (hf : Confines parts.operand) (hf' : Confines parts'.operand) {name name' : String}
    (hname : c.Reads k name name') {args args' : List Value}
    (hargs : List.Forall₂ (c.Code k) args args') (hs : H.Holds w s s') (hi : w i i' k) :
    Corresponds H w s s' (fun u _ _ => c.Alike u)
      (Evaluator.call i parts (.ok mode) name args s)
      (Evaluator.call i' parts' (.ok mode') name' args' s') := by
  have hshown := hc.shown_read hname
  have hl := H.lookup hs hi hname
  generalize hv : s.lookup? i name = v?, hv' : s'.lookup? i' name' = v?' at hl
  cases hl with
  | none =>
    rw [Evaluator.call, Evaluator.call, Effect.lookup_bind, Effect.lookup_bind, hv, hv']
    exact .one_fault hs (.unbound hshown)
  | some hval =>
    cases hval with
    | @closure ps b ps' b' home home' hclosure =>
      cases hclosure with
      | @mk k₁ l _ _ _ _ _ _ hfun hh =>
        have hps : List.Forall₂ (c.Parameter l) ps ps' := hc.parameters hfun
        obtain ⟨hout, hout'⟩ := parent_lt hs hi hh
        rw [Evaluator.call_closure i hv, Evaluator.call_closure i' hv', hps.length_eq,
          hargs.length_eq]
        generalize ho₁ : Evaluator.parent mode home i = o at hout
        generalize ho₁' : Evaluator.parent mode' home' i' = o' at hout'
        have hext : H.Holds w (s.extend o).2 (s'.extend o').2 := by
          apply H.congr hs
          · intro j j' m hw
            obtain ⟨hj, hj'⟩ := H.lt hs hw
            exact ⟨Store.frames_extend_of_lt s o hj, Store.frames_extend_of_lt s' o' hj'⟩
          · have hl := H.listens hs
            exact hl
        have hfree : ∀ j j' m, w j j' m → j ≠ s.frames.size ∧ j' ≠ s'.frames.size := by
          intro j j' m hw
          obtain ⟨hj, hj'⟩ := H.lt hs hw
          exact ⟨by lia, by lia⟩
        have hgrow : Grows w s s' w (s.extend o).2 (s'.extend o').2 := by
          apply Grows.refl <;> simp
        have hbound := arguments_correspond hc ho hf hf' hshown ps'.length args'.length hps hargs
          hext hi (Store.frames_extend_self s o) (Store.frames_extend_self s' o') hfree
        apply (hbound.since hgrow).bind
        rintro u t t' _ _ hg ht ⟨bs, bs', hbs, hbs', hall, hout, hn, hn'⟩
        have hnote := noteCall_corresponds hc name name' hall hn hn' ht
        apply (hnote.since hg).bind
        rintro _ r r' _ _ hg' hr ⟨rfl, hrt, hrt'⟩
        -- filled, the two frames join the world, and the bodies run in them
        rw [← hrt] at hn
        rw [← hrt'] at hn'
        have henter := H.enter hr (hg.le _ _ _ hi) hfun (hh.mono hg.le) hall hbs hbs' hout
          (by rwa [ho₁]) (by rwa [ho₁']) (by rwa [ho₁]) (by rwa [ho₁'])
        have hcall : Grows w s s' (World.add _ s.frames.size s'.frames.size l) r r' := {
          le := le_trans hg.le (World.le_add _ _ _ _)
          size_le := hg'.size_le
          size_le' := hg'.size_le'
          fresh := by
            rintro j j' m (hu | ⟨rfl, rfl, -⟩)
            · exact hg.fresh j j' m hu
            · exact .inr ⟨Nat.le_refl _, Nat.le_refl _⟩ }
        apply Corresponds.since hcall
        exact hb _ r r' _ _ l _ _ henter (.inr ⟨rfl, rfl, rfl⟩) (hc.body hfun)
    | _ =>
      rw [Evaluator.call, Evaluator.call, Effect.lookup_bind, Effect.lookup_bind, hv, hv']
      exact .one_fault hs (.notClosure hshown)

end call

section evaluate

variable {parts parts' : Evaluator.Parts} {w : c.World} {s s' : Store} {i i' : FrameId} {k : c.Kind}

theorem form_corresponds (hc : c.Lawful) (hb : Imitates H parts.inner parts'.inner)
    (ho : Imitates H parts.operand parts'.operand) {f : Form} {es es' : List Value}
    (hes : c.Operands k f es es') (hs : H.Holds w s s') (hi : w i i' k) :
    Corresponds H w s s' (fun u _ _ => c.Alike u) (Evaluator.form i parts f es s)
      (Evaluator.form i' parts' f es' s') := by
  cases f with
  | operator op =>
    cases hes with
    | operator _ h => exact operator_corresponds hc ho op hs hi h
  | negation =>
    cases hes with
    | negation h => exact negation_corresponds hc hb hs hi h
  | definition => exact definition_corresponds hb hs hi hes
  | function => exact function_corresponds hs hi hes
  | choice =>
    cases hes with
    | choice h => exact choice_corresponds hb hs hi h

theorem step_corresponds (hc : c.Lawful) (hit : Imitates H parts.item parts'.item)
    (hb : Imitates H parts.inner parts'.inner) (ho : Imitates H parts.operand parts'.operand)
    (hf : Confines parts.operand) (hf' : Confines parts'.operand) :
    Imitates H (Evaluator.step (.ok mode) parts) (Evaluator.step (.ok mode') parts') := by
  intro w s s' i i' k e e' hs hi he
  cases hc.shape he with
  | symbol ha => exact lookup_corresponds hc hs hi ha
  | number n => exact .one_value hs (.number n)
  | form h h' hes =>
    rw [Evaluator.step, Evaluator.step, h, h']
    exact form_corresponds hc hb ho hes hs hi
  | call h h' hname hargs =>
    rw [Evaluator.step, Evaluator.step, h, h']
    exact call_corresponds hc hb ho hf hf' hname hargs hs hi
  | items hp hp' hes =>
    rw [Evaluator.step, Evaluator.step]
    · apply (items_corresponds hit hs hi hes).seq
      intro u t t' vs vs' _ ht hvs
      exact .one_value ht (Value.Like.list_iff.mpr hvs)
    · exact hp'
    · exact hp
  | inert h h' =>
    have hnil : ∀ (rule : Except UnknownScoping Scoping) (parts : Evaluator.Parts) (i : FrameId)
        (e : Value), e.isInert → Evaluator.step rule parts i e = pure .nil := by
      intro rule parts i e h
      cases e <;> simp only [Value.isInert, reduceCtorEq] at h <;> rfl
    rw [hnil _ _ _ _ h, hnil _ _ _ _ h']
    exact .one_value hs .nil

theorem evaluate_corresponds (hc : c.Lawful) (H : c.Heaps mode mode') (room : Nat) :
    Imitates H (evaluate (.ok mode) room) (evaluate (.ok mode') room) := by
  have hparts : Imitates H (Evaluator.parts (.ok mode) room).item
        (Evaluator.parts (.ok mode') room).item ∧
      Imitates H (Evaluator.parts (.ok mode) room).inner
        (Evaluator.parts (.ok mode') room).inner ∧
      Imitates H (Evaluator.parts (.ok mode) room).operand
        (Evaluator.parts (.ok mode') room).operand := by
    induction room with
    | zero =>
      have hnone : Imitates H Evaluator.parts.exhausted Evaluator.parts.exhausted := by
        intro w s s' i i' k e e' hs _ _
        exact .same_fault hs _
      exact ⟨hnone, hnone, hnone⟩
    | succ room ih =>
      obtain ⟨hit, hb, ho⟩ := ih
      obtain ⟨-, -, hf⟩ := Evaluator.parts_confined (.ok mode) room
      obtain ⟨-, -, hf'⟩ := Evaluator.parts_confined (.ok mode') room
      exact ⟨step_corresponds hc hit hb ho hf hf', hit, hb⟩
  exact hparts.1

end evaluate

end ScopedLisp.Correspondence

import ScopedLisp.Proofs.Invariants
import ScopedLisp.Proofs.Relocation

namespace ScopedLisp

def Effect.make (f : Frame) : Effect FrameId := fun s =>
  (.ok s.frames.size, { s with frames := s.frames.push f })

namespace Evaluator

open Effect

/-- The arguments that have a parameter are evaluated, one after the other. Only then is there a
frame, or it turns out that an argument is missing. -/
def phasedCall (parts : Parts) (frame : FrameId) (scoping : Scoping) (name : String)
    (names : List String) (body : List Value) (home : Option FrameId) (args : List Value) :
    Effect Value := do
  let vs ← parts.operand.each frame (args.take names.length)
  match names[args.length]? with
  | some p => fail (.missingArgument name names.length args.length (.symbol p))
  | none =>
    let inner ← make (Frame.bindAll ⟨some (parent scoping home frame), []⟩ (names.zip vs))
    noteCall name inner
    parts.inner inner (.list body)

def gather (ev : Evaluator) (frame : FrameId) (name : String) (expected count : Nat) :
    List String → List Value → Effect (List Value)
  | [], _ => pure []
  | p :: _, [] => fail (.missingArgument name expected count (.symbol p))
  | _ :: ps, a :: as => do
    let v ← ev frame a
    let vs ← gather ev frame name expected count ps as
    pure (v :: vs)

theorem gather_eq (ev : Evaluator) (frame : FrameId) (name : String) (expected count : Nat)
    (names : List String) (args : List Value) :
    gather ev frame name expected count names args =
      ev.each frame (args.take names.length) >>= fun vs =>
        match names[args.length]? with
        | some p => fail (.missingArgument name expected count (.symbol p))
        | none => pure vs := by
  induction names generalizing args with
  | nil => rfl
  | cons p ps ih =>
    cases args with
    | nil => rfl
    | cons a as =>
      simp only [gather, ih, List.length_cons, List.take_succ_cons, each, bind_assoc, pure_bind,
        List.getElem?_cons_succ]
      congr 1
      funext v
      congr 1
      funext vs
      cases ps[as.length]? <;> rfl

theorem phasedCall_eq (parts : Parts) (frame : FrameId) (scoping : Scoping) (name : String)
    (names : List String) (body : List Value) (home : Option FrameId) (args : List Value) :
    phasedCall parts frame scoping name names body home args =
      gather parts.operand frame name names.length args.length names args >>= fun vs =>
        make (Frame.bindAll ⟨some (parent scoping home frame), []⟩ (names.zip vs)) >>= fun inner =>
          noteCall name inner >>= fun _ => parts.inner inner (.list body) := by
  rw [gather_eq, phasedCall, bind_assoc]
  congr 1
  funext vs
  cases names[args.length]? <;> rfl

end Evaluator

open Correspondence
open Evaluator (Confines Parts bindArguments call gather parent phasedCall)

theorem Correspondence.Corresponds.returns {c : Correspondence} {mode mode' : Scoping}
    {H : c.Heaps mode mode'} {α β γ : Type} {w : c.World} {s s' t' : Store}
    {Q : c.World → Store → Store → α → β → Prop} {R : c.World → Store → Store → α → γ → Prop}
    {r : Except Fault α × Store} {m : Effect β} {f : β → γ} (h : Corresponds H w s s' Q r (m t'))
    (hQR : ∀ u t t' a b, Grows w s s' u t t' → Q u t t' a b → R u t t' a (f b)) :
    Corresponds H w s s' R r ((m >>= fun b => pure (f b)) t') := by
  rw [Effect.bind_apply]
  generalize m t' = r' at h
  cases h with
  | value hg hs h => exact .value hg hs (hQR _ _ _ _ _ hg h)
  | fault hg hs h => exact .fault hg hs h

section call

variable {mode : Scoping} {w : sameCode.World} {s s' : Store} {i i' n : FrameId}

structure Filled (n : FrameId) (f : Frame) (names : List String) (u : sameCode.World) (t : Store)
    (bs : List (String × Value)) (vs : List Value) : Prop where
  params : names.map Value.symbol = bs.map (.symbol ·.1)
  params' : names.map Value.symbol = (names.zip vs).map (.symbol ·.1)
  values : BindingsAlike Eq (sameCode.Alike u) bs (names.zip vs)
  outside : ∀ j j' k, u j j' k → j ≠ n
  frame : t.frames[n]? = some (f.bindAll bs)

theorem gather_corresponds {ev ev' : Evaluator}
    (hev : Correspondence.Imitates (SameCode.heaps mode) ev ev') (hf : Confines ev)
    (name : String) (expected count : Nat) (names : List String) (args : List Value) {f : Frame}
    (hs : sameCode.Paired w s s') (hi : w i i' ()) (hn : s.frames[n]? = some f)
    (hfree : ∀ j j' k, w j j' k → j ≠ n) :
    Corresponds (SameCode.heaps mode) w s s' (fun u t _ _ vs => ∃ bs, Filled n f names u t bs vs)
      (bindArguments ev i name n expected count (names.map .symbol) args s)
      (gather ev' i' name expected count names args s') := by
  induction names generalizing args w s s' f with
  | nil =>
    apply Corresponds.one_value hs
    exact ⟨[], rfl, rfl, .nil, hfree, hn⟩
  | cons p ps ih =>
    cases args with
    | nil => exact .same_fault hs _
    | cons a as =>
      have hlt : n < s.frames.size := (Array.getElem?_eq_some_iff.mp hn).1
      -- the frame that is being filled is not in the world yet, so arguments leave it alone
      have hkeep : (ev i a s).2.frames[n]? = some f := by
        rw [(hf i a s (hs.lt hi).1).frame n hlt (hfree i i' () hi).symm, hn]
      have harg := hev w s s' i i' () a a hs hi rfl
      rw [List.map_cons, bindArguments, gather, Effect.bind_apply, Effect.bind_apply]
      generalize ev i a s = r, ev' i' a s' = r' at harg hkeep
      cases harg with
      | fault hg ht h => exact .fault hg ht h
      | @value u t t' v v' hg ht hv =>
        have hfree' : ∀ j j' k, u j j' k → j ≠ n := by
          intro j j' k hu
          rcases hg.fresh j j' k hu with hw | ⟨hj, -⟩
          · exact hfree j j' k hw
          · lia
        have hset : sameCode.Paired u (t.set n p v) t' := by
          apply ht.congr
          · intro j j' k hu
            exact ⟨Store.frames_set_ne t n p v (hfree' j j' k hu), rfl⟩
          · exact ht.listens
        have hfill : (t.set n p v).frames[n]? = some (f.set p v) := by
          rw [Store.frames_set, if_pos rfl, hkeep, Option.map_some]
        have hrest := ih as hset (hg.le _ _ _ hi) hfill hfree'
        have hsize : t.frames.size ≤ (t.set n p v).frames.size := by simp
        apply Corresponds.since (hg.trans (.refl u hsize (Nat.le_refl _)))
        apply hrest.returns
        rintro y r r' _ vs hy ⟨bs, hbs⟩
        refine ⟨(p, v) :: bs, ?_⟩
        exact {
          params := by rw [List.map_cons, hbs.params, List.map_cons]
          params' := by rw [List.map_cons, hbs.params', List.zip_cons_cons, List.map_cons]
          values := .cons ⟨rfl, hv.mono hy.le⟩ hbs.values
          outside := hbs.outside
          frame := hbs.frame }

theorem body_corresponds {ev ev' : Evaluator}
    (hev : Correspondence.Imitates (SameCode.heaps mode) ev ev') (name : String)
    {names : List String} {body vs : List Value} {bs : List (String × Value)}
    {home home' : Option FrameId} {u : sameCode.World} {t t' : Store} (hg : Grows w s s' u t t')
    (ht : sameCode.Paired u t t') (hi : u i i' ()) (hh : sameCode.Homes u () home home')
    (ho : parent mode home i < s.frames.size)
    (hbs : Filled s.frames.size ⟨some (parent mode home i), []⟩ names u t bs vs) :
    Corresponds (SameCode.heaps mode) w s s' (fun u _ _ => sameCode.Alike u)
      ((Effect.noteCall name s.frames.size >>= fun _ => ev s.frames.size (.list body)) t)
      ((Effect.make (Frame.bindAll ⟨some (parent mode home' i'), []⟩ (names.zip vs)) >>=
        fun inner => Effect.noteCall name inner >>= fun _ => ev' inner (.list body)) t') := by
  generalize hf : Frame.bindAll ⟨some (parent mode home' i'), []⟩ (names.zip vs) = f
  -- on one side the frame has been there and has been filled, on the other side it is made now
  let made : Store := { t' with frames := t'.frames.push f }
  have hn' : made.frames[t'.frames.size]? = some f := by simp [made]
  have hmade : sameCode.Paired u t made := by
    apply ht.congr
    · intro j j' k hu
      have hj' : j' ≠ t'.frames.size := Nat.ne_of_lt (ht.lt hu).2
      exact ⟨rfl, by simp [made, Array.getElem?_push, hj']⟩
    · exact ht.listens
  have hfree : ∀ j j' k, u j j' k → j ≠ s.frames.size ∧ j' ≠ t'.frames.size := by
    intro j j' k hu
    exact ⟨hbs.outside j j' k hu, Nat.ne_of_lt (ht.lt hu).2⟩
  obtain ⟨-, ho'⟩ := parent_lt (H := SameCode.heaps mode) ht hi hh
  rw [← hf] at hn'
  have hc : sameCode.Lawful := SameCode.diagonal.lawful
  have hg₁ : Grows w s s' u t made := hg.trans (.refl u (Nat.le_refl _) (by simp [made]))
  have hnote := noteCall_corresponds (H := SameCode.heaps mode) (l := ()) hc name name hbs.values
    hbs.frame hn' hmade
  change Corresponds _ w s s' _ _ ((Effect.noteCall name t'.frames.size >>= _) made)
  apply (hnote.since hg₁).bind
  rintro _ r r' _ _ hg₂ hr ⟨rfl, hrt, hrt'⟩
  have hn := hbs.frame
  rw [← hrt] at hn
  rw [← hrt'] at hn'
  have henter := (SameCode.heaps mode).enter (l := ()) (f := (names.map .symbol, body)) hr hi rfl
    hh hbs.values hbs.params hbs.params' hfree ho ho' hn hn'
  have hcall : Grows w s s' (World.add _ s.frames.size t'.frames.size ()) r r' := {
    le := le_trans hg₁.le (World.le_add _ _ _ _)
    size_le := hg₂.size_le
    size_le' := hg₂.size_le'
    fresh := by
      rintro j j' k (hu | ⟨rfl, rfl, -⟩)
      · exact hg₁.fresh j j' k hu
      · exact .inr ⟨Nat.le_refl _, hg.size_le'⟩ }
  apply Corresponds.since hcall
  exact hev _ r r' _ _ () _ _ henter (.inr ⟨rfl, rfl, rfl⟩) rfl

theorem phasedCall_corresponds {parts : Parts}
    (hb : Correspondence.Imitates (SameCode.heaps mode) parts.inner parts.inner)
    (ho : Correspondence.Imitates (SameCode.heaps mode) parts.operand parts.operand)
    (hf : Confines parts.operand) {name : String} {names : List String} {body : List Value}
    {home home' : Option FrameId} (args : List Value) (hs : sameCode.Paired w s s')
    (hi : w i i' ()) (hl : s.lookup? i name = some (.closure (names.map .symbol) body home))
    (hh : sameCode.Homes w () home home') :
    Corresponds (SameCode.heaps mode) w s s' (fun u _ _ => sameCode.Alike u)
      (call i parts (.ok mode) name args s)
      (phasedCall parts i' mode name names body home' args s') := by
  obtain ⟨hout, -⟩ := parent_lt (H := SameCode.heaps mode) hs hi hh
  rw [Evaluator.call_closure i hl, Evaluator.phasedCall_eq, List.length_map]
  have hext : sameCode.Paired w (s.extend (parent mode home i)).2 s' := by
    apply hs.congr
    · intro j j' k hw
      exact ⟨Store.frames_extend_of_lt s _ (hs.lt hw).1, rfl⟩
    · exact hs.listens
  have hfree : ∀ j j' k, w j j' k → j ≠ s.frames.size := by
    intro j j' k hw
    exact Nat.ne_of_lt (hs.lt hw).1
  have hgrow : Grows w s s' w (s.extend (parent mode home i)).2 s' := by
    apply Grows.refl <;> simp
  have hbound := gather_corresponds ho hf name names.length args.length names args hext hi
    (Store.frames_extend_self s (parent mode home i)) hfree
  apply (hbound.since hgrow).bind
  rintro u t t' _ vs hg ht ⟨bs, hbs⟩
  exact body_corresponds hb name hg ht (hg.le _ _ _ hi) (hh.mono hg.le) hout hbs

end call

/-- Everything that can be reached from the frame is there. -/
def Store.Intact (s : Store) (i : FrameId) : Prop := ∀ j, s.Reaches i j → j < s.frames.size

theorem Store.intact_of_homes {s : Store} {i : FrameId} (hi : i < s.frames.size)
    (h : s.All fun v => ∀ k, v.Remembers k → k < s.frames.size) : s.Intact i := by
  intro j hj
  induction hj with
  | root => exact hi
  | outer _ ho ih => exact Nat.lt_trans (Store.next?_lt ho) ih
  | home _ hv hk _ => exact h.get? hv _ hk

/-- Two runs end with one value, or with one failure, up to where the frames stand that are new. The
old frames stay where they are, and with them all that can be reached from the value moves. -/
inductive Coincide (old : FrameId → Prop) :
    Except Fault Value × Store → Except Fault Value × Store → Prop where
  | value {ρ : FrameId → FrameId} {R : FrameId → Prop} {v : Value} {t t' : Store}
      (h : t.Moves ρ R t') (hold : ∀ j, old j → R j ∧ ρ j = j) (hv : ∀ j, v.Remembers j → R j) :
      Coincide old (.ok v, t) (.ok (v.relocate ρ), t')
  | fault {ρ : FrameId → FrameId} {R : FrameId → Prop} {f g : Fault} {t t' : Store}
      (h : t.Moves ρ R t') (hold : ∀ j, old j → R j ∧ ρ j = j) (hf : f.detached = g.detached) :
      Coincide old (.error f, t) (.error g, t')

section coincide

variable {mode : Scoping} {s : Store} {i : FrameId}

theorem Correspondence.Corresponds.coincide {w : sameCode.World} {s s' : Store}
    {old : FrameId → Prop} {r r' : Except Fault Value × Store}
    (h : Corresponds (SameCode.heaps mode) w s s' (fun u _ _ => sameCode.Alike u) r r')
    (hold : ∀ j, old j → w j j ()) : Coincide old r r' := by
  cases h with
  | @value u t t' v v' hg ht hv =>
    obtain ⟨ρ, hρ, hmoves⟩ := Paired.moves ht
    have hw := fun j hj => hg.le _ _ _ (hold j hj)
    rw [← relocate_alike hρ hv]
    refine .value hmoves (fun j hj => ⟨⟨j, hw j hj⟩, hρ j j (hw j hj)⟩) ?_
    intro j hj
    obtain ⟨j', hj', -⟩ := hj.paired hv
    exact ⟨j', hj'⟩
  | @fault u t t' f g hg ht hf =>
    obtain ⟨ρ, hρ, hmoves⟩ := Paired.moves ht
    have hw := fun j hj => hg.le _ _ _ (hold j hj)
    refine .fault hmoves (fun j hj => ⟨⟨j, hw j hj⟩, hρ j j (hw j hj)⟩) ?_
    exact hf.detached_eq fun _ _ => id

def Store.reachable (s : Store) (i : FrameId) : sameCode.World := fun j j' _ =>
  j = j' ∧ s.Reaches i j

theorem Value.alike_self {w : sameCode.World} {v : Value} (h : ∀ j, v.Remembers j → w j j ()) :
    sameCode.Alike w v v := by
  induction v using Value.induct with
  | number n => exact .number n
  | nil => exact .nil
  | list items ih =>
    apply Value.Like.list_iff.mpr
    apply List.forall₂_same.mpr
    intro v hv
    exact ih v hv fun j hj => h j (.item hv hj)
  | closure params body home =>
    cases home with
    | none =>
      have hkind : Subsingleton sameCode.Kind := inferInstanceAs (Subsingleton Unit)
      exact .closure (.mk (k := ()) (l := ()) rfl (.none hkind))
    | some j => exact .closure (.mk (k := ()) (l := ()) rfl (.some (h j (.closure params body))))
  | symbol name => exact .symbol (.symbol fun _ => rfl)
  | integer n => exact .integer (.integer n)
  | text s => exact .text (.text s)

theorem Store.Intact.paired (h : s.Intact i) : sameCode.Paired (s.reachable i) s s where
  listens := rfl
  lt := by
    rintro j _ _ ⟨rfl, hj⟩
    exact ⟨h j hj, h j hj⟩
  same_iff := by
    rintro j _ _ k _ _ ⟨rfl, -⟩ ⟨rfl, -⟩
    rfl
  kind_eq _ _ := rfl
  bound := by
    rintro j _ _ name _ ⟨rfl, hj⟩ rfl
    cases hv : s.get? j name with
    | none => exact .none
    | some v => exact .some (Value.alike_self fun k hk => ⟨rfl, hj.home hv hk⟩)
  outward := by
    rintro j _ _ ⟨rfl, hj⟩
    cases ho : s.next? j with
    | none => exact .ends
    | some o => exact .continues ⟨rfl, hj.outer ho⟩ fun _ _ ha _ _ => ha

theorem Correspondence.Paired.intact {w : sameCode.World} {s' : Store} {i' : FrameId}
    (h : sameCode.Paired w s s') (hi : w i i' ()) : s.Intact i := by
  obtain ⟨ρ, -, hmoves⟩ := h.moves
  intro j hj
  obtain ⟨j', hw⟩ := hmoves.reaches ⟨i', hi⟩ hj
  exact (h.lt hw).1

theorem Correspondence.Corresponds.intact {w : sameCode.World} {s' : Store} {i' : FrameId}
    {r r' : Except Fault Value × Store}
    (h : Corresponds (SameCode.heaps mode) w s s' (fun u _ _ => sameCode.Alike u) r r')
    (hi : w i i' ()) : r.2.Intact i ∧ ∀ v, r.1 = .ok v → ∀ j, v.Remembers j → r.2.Intact j := by
  cases h with
  | value hg ht hv =>
    refine ⟨Paired.intact ht (hg.le _ _ _ hi), ?_⟩
    rintro _ ⟨⟩ j hj
    obtain ⟨j', hw, -⟩ := hj.paired hv
    exact Paired.intact ht hw
  | fault hg ht hf =>
    refine ⟨Paired.intact ht (hg.le _ _ _ hi), ?_⟩
    rintro _ ⟨⟩

/-- An evaluation leaves its frame intact, and the frames that its value remembers. -/
theorem Store.Intact.evaluate (h : s.Intact i) (room : Nat) (e : Value) :
    let r := evaluate (.ok mode) room i e s
    r.2.Intact i ∧ ∀ v, r.1 = .ok v → ∀ j, v.Remembers j → r.2.Intact j :=
  (evaluate_corresponds SameCode.diagonal.lawful (SameCode.heaps mode) room _ s s i i () e e
    h.paired ⟨rfl, .root⟩ rfl).intact ⟨rfl, .root⟩

theorem call_corresponds_phased (h : s.Intact i) {name : String} {names : List String}
    {body : List Value} {home : Option FrameId} (args : List Value)
    (hcallee : s.lookup? i name = some (.closure (names.map .symbol) body home)) (room : Nat) :
    let parts := Evaluator.parts (.ok mode) room
    Corresponds (SameCode.heaps mode) (s.reachable i) s s (fun u _ _ => sameCode.Alike u)
      (call i parts (.ok mode) name args s)
      (phasedCall parts i mode name names body home args s) := by
  intro parts
  have hev := evaluate_corresponds SameCode.diagonal.lawful (SameCode.heaps mode)
  obtain ⟨-, -, ho⟩ := Evaluator.parts_confined (.ok mode) room
  have hroot : s.reachable i i i () := ⟨rfl, .root⟩
  have hhome : sameCode.Homes (s.reachable i) () home home := by
    have hl := h.paired.lookup hroot (rfl : name = name)
    rw [hcallee] at hl
    cases hl with
    | some hv =>
      cases hv with
      | closure hc =>
        cases hc with
        | mk _ hh => exact hh
  have hparts := Evaluator.parts_eq (.ok mode) room
  apply phasedCall_corresponds _ _ ho args h.paired hroot hcallee hhome
  · rw [hparts]
    exact hev (room - 1)
  · rw [hparts]
    exact hev (room - 2)

end coincide

section phases

variable {s t : Store} {i j n : FrameId}

theorem Evaluator.bindArguments_surplus (ev : Evaluator) (name : String)
    (expected count count' : Nat) {ps args args' : List Value} (h : ps.length ≤ args.length)
    (h' : ps.length ≤ args'.length) (htake : args'.take ps.length = args.take ps.length) :
    bindArguments ev i name n expected count ps args =
      bindArguments ev i name n expected count' ps args' := by
  induction ps generalizing args args' with
  | nil => rfl
  | cons p ps ih =>
    cases args with
    | nil => simp at h
    | cons a as =>
      cases args' with
      | nil => simp at h'
      | cons a' as' =>
        simp only [List.length_cons, List.take_succ_cons, List.cons.injEq] at h h' htake
        obtain ⟨rfl, htake⟩ := htake
        rw [bindArguments, bindArguments, ih (by lia) (by lia) htake]

theorem Evaluator.body_frames {ev : Evaluator} (hev : Confines ev) (name : String)
    (body : List Value) (f : Frame) (hj : j < t.frames.size) :
    ((Effect.make f >>= fun inner => Effect.noteCall name inner >>= fun _ => ev inner (.list body))
      t).2.frames[j]? = t.frames[j]? := by
  let made : Store := { t with frames := t.frames.push f }
  have hin : t.frames.size < made.frames.size := by simp [made]
  have hrun : Store.Confined t.frames.size (fun _ => True) made
      ((Effect.noteCall name t.frames.size >>= fun _ => ev t.frames.size (.list body)) made).2 := by
    apply Store.Confined.seq (noteCall_confined name t.frames.size)
    intro _ u hu
    exact (hev _ _ u (Nat.lt_of_lt_of_le hin hu)).mono fun _ _ => trivial
  have hne : j ≠ t.frames.size := Nat.ne_of_lt hj
  have hmade : made.frames[j]? = t.frames[j]? := by simp [made, Array.getElem?_push, hne]
  rw [← hmade]
  exact hrun.frame j (Nat.lt_trans hj hin) hne

theorem Evaluator.phasedCall_frames {parts : Parts} (hb : Confines parts.inner)
    (ho : Confines parts.operand) (scoping : Scoping) (name : String) (names : List String)
    (body : List Value) (home : Option FrameId) (args : List Value) (hi : i < s.frames.size)
    (hj : j < s.frames.size) :
    (phasedCall parts i scoping name names body home args s).2.frames[j]? =
      (parts.operand.each i (args.take names.length) s).2.frames[j]? := by
  have hsize := (each_confined (P := fun _ => True) ho (args.take names.length) hi
    fun _ _ _ _ => trivial).size_le
  rw [phasedCall, Effect.bind_apply]
  generalize parts.operand.each i (args.take names.length) s = r at hsize
  obtain ⟨_ | vs, t⟩ := r
  · rfl
  · cases names[args.length]? with
    | some p => rfl
    | none => exact body_frames hb name body _ (Nat.lt_of_lt_of_le hj hsize)

section outcome

variable {parts : Parts} {scoping : Scoping} {name : String} {names : List String}
  {body : List Value} {home : Option FrameId} {args : List Value}

theorem Evaluator.phasedCall_error {fault : Fault}
    (h : (parts.operand.each i (args.take names.length) s).1 = .error fault) :
    phasedCall parts i scoping name names body home args s =
      (.error fault, (parts.operand.each i (args.take names.length) s).2) :=
  Effect.bind_error (Prod.ext h rfl)

theorem Evaluator.phasedCall_missing {vs : List Value} {p : String}
    (h : (parts.operand.each i (args.take names.length) s).1 = .ok vs)
    (hp : names[args.length]? = some p) :
    phasedCall parts i scoping name names body home args s =
      (.error (.missingArgument name names.length args.length (.symbol p)),
        (parts.operand.each i (args.take names.length) s).2) := by
  rw [phasedCall, hp]
  exact Effect.bind_ok (Prod.ext h rfl)

end outcome

end phases

theorem Coincide.error {old : FrameId → Prop} {r : Except Fault Value × Store} {g : Fault}
    {t' : Store} (h : Coincide old r (.error g, t')) :
    ∃ f, r.1 = .error f ∧ f.detached = g.detached := by
  cases h with
  | fault _ _ hf => exact ⟨_, rfl, hf⟩

theorem Fault.eq_missingArgument {f : Fault} {name p : String} {expected count : Nat}
    (h : f.detached = (Fault.missingArgument name expected count (.symbol p)).detached) :
    f = .missingArgument name expected count (.symbol p) := by
  cases f with
  | missingArgument name' expected' count' v =>
    cases v with
    | symbol q => exact h
    | _ => simp [detached, Value.detached] at h
  | _ => simp [detached] at h

/-- A call evaluates as many arguments as there are parameters, in the caller's frame, and only then
makes the frame where they are bound, or fails for the first parameter that has no argument. Surplus
arguments make no difference. Of the frames that were there before, only the caller's changes, and
only by the arguments, whether the call fails or not. -/
theorem evaluate_call_phased (mode : Scoping) (room : Nat) {s : Store} {i : FrameId} {name : String}
    (names : List String) {body : List Value} {home : Option FrameId} (args : List Value)
    (hname : Form.ofName? name = none)
    (hcallee : s.lookup? i name = some (.closure (names.map .symbol) body home))
    (hs : s.Intact i) :
    let parts := Evaluator.parts (.ok mode) room
    let call (args : List Value) :=
      evaluate (.ok mode) (room + 1) i (.list (.symbol name :: args)) s
    let first := parts.operand.each i (args.take names.length) s
    let phased := Evaluator.phasedCall parts i mode name names body home args s
    Coincide (s.Reaches i) (call args) phased ∧
    (∀ args', names.length ≤ args.length → names.length ≤ args'.length →
      args'.take names.length = args.take names.length → call args' = call args) ∧
    (∀ fault, first.1 = .error fault →
      ∃ f, (call args).1 = .error f ∧ f.detached = fault.detached) ∧
    (∀ vs p, first.1 = .ok vs → names[args.length]? = some p →
      (call args).1 = .error (.missingArgument name names.length args.length (.symbol p))) ∧
    (∀ j < s.frames.size, phased.2.frames[j]? = first.2.frames[j]?) ∧
    (∀ j < s.frames.size, j ≠ i → (call args).2.frames[j]? = s.frames[j]?) ∧
    ∀ o vs x, (Frame.bindAll ⟨o, []⟩ (names.zip vs)).get? x = (names.zip vs).reverse.lookup x := by
  intro parts call first phased
  obtain ⟨-, hb, ho⟩ := Evaluator.parts_confined (.ok mode) room
  have hi := Store.lt_size_of_lookup? hcallee
  have hcall : ∀ args, call args = Evaluator.call i parts (.ok mode) name args s := by
    intro args
    unfold call
    rw [evaluate_succ, Evaluator.step, hname]
  have hcoincide : Coincide (s.Reaches i) (call args) phased := by
    rw [hcall]
    exact (call_corresponds_phased hs args hcallee room).coincide fun j hj => ⟨rfl, hj⟩
  refine ⟨hcoincide, ?_, ?_, ?_, ?_, ?_, ?_⟩
  · intro args' h h' htake
    rw [hcall, hcall, Evaluator.call_closure i hcallee, Evaluator.call_closure i hcallee]
    rw [Evaluator.bindArguments_surplus parts.operand name _ args'.length args.length
      (by simpa using h') (by simpa using h) (by simpa using htake.symm)]
  · intro fault hfault
    rw [show phased = _ from Evaluator.phasedCall_error hfault] at hcoincide
    exact hcoincide.error
  · intro vs p hvs hp
    rw [show phased = _ from Evaluator.phasedCall_missing hvs hp] at hcoincide
    obtain ⟨f, hf, hmissing⟩ := hcoincide.error
    rw [hf, Fault.eq_missingArgument hmissing]
  · exact fun j hj => Evaluator.phasedCall_frames hb ho mode name names body home args hi hj
  · exact (evaluate_confined (.ok mode) (room + 1) i _ s hi).frame
  · intro o vs x
    rw [Frame.get?_bindAll]
    exact Option.or_none

theorem evaluate_call_phased_counts :
    let f : Value := .closure [.symbol "x", .symbol "x"]
      [.symbol "+", .symbol "x", .symbol "y"] (some 0)
    let s : Store := ⟨#[⟨none, [("f", f)]⟩], none⟩
    let two : Value := .number ⟨0x4000000000000000⟩
    let args : List Value := [.list [.symbol "let", .symbol "y", two], two]
    let call (args : List Value) := evaluate (.ok .lexical) 5 0 (.list (.symbol "f" :: args)) s
    Form.ofName? "f" = none ∧ s.lookup? 0 "f" = some f ∧ s.Intact 0 ∧
      call args = call (args ++ [.list [.symbol "cond"]]) ∧
      (call [two]).1 = .error (.missingArgument "f" 2 1 (.symbol "x")) := by
  intro f s two args call
  have hname : Form.ofName? "f" = none := by decide +kernel
  have hcallee : s.lookup? 0 "f" = some f := by
    rw [Store.lookup?_eq]
    rfl
  have hs : s.Intact 0 := by
    apply Store.intact_of_homes Nat.one_pos
    simp only [Store.All, s, f, List.mem_toArray, List.forall_mem_singleton]
    rintro k ⟨⟩
    exact Nat.one_pos
  obtain ⟨-, hsurplus, -⟩ := evaluate_call_phased .lexical 4 ["x", "x"]
    (args ++ [.list [.symbol "cond"]]) hname hcallee hs
  obtain ⟨-, -, -, hmissing, -⟩ :=
    evaluate_call_phased .lexical 4 ["x", "x"] [two] hname hcallee hs
  exact ⟨hname, hcallee, hs, hsurplus args (by decide) (by decide) rfl, hmissing [two] "x" rfl rfl⟩

end ScopedLisp

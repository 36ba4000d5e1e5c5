import Mathlib.Order.BooleanAlgebra.Basic
import ScopedLisp.Proofs.Confinement
import ScopedLisp.Proofs.Likeness

/-!
Two runs that correspond step by step. What corresponds in their code, their names and their frames
is left open; a world says which frames do, and grows only by frames that are new.
-/

namespace ScopedLisp

structure Correspondence where
  Kind : Type
  Reads : Kind → String → String → Prop
  Binds : Kind → String → String → Prop
  Shown : Value → Value → Prop
  Code : Kind → Value → Value → Prop
  Function : Kind → Kind → List Value × List Value → List Value × List Value → Prop

def Value.isInert : Value → Bool
  | .nil | .closure .. | .integer _ | .text _ => true
  | _ => false

namespace Correspondence

section code

variable (c : Correspondence) (k : c.Kind)

inductive Parameter : Value → Value → Prop where
  | symbol {a a' : String} (h : c.Binds k a a') : Parameter (.symbol a) (.symbol a')
  | other {p p' : Value} (hp : p.isSymbol = false) (hp' : p'.isSymbol = false)
      (h : c.Shown p p') : Parameter p p'

inductive Branches : List Value → List Value → Prop where
  | none : Branches [] []
  | default {e e' : Value} (h : c.Code k e e') : Branches [e] [e']
  | pair {t t' r r' : Value} {rest rest' : List Value} (hne : rest ≠ []) (hne' : rest' ≠ [])
      (ht : c.Code k t t') (hr : c.Code k r r') (h : Branches rest rest') :
      Branches (.list [t, r] :: rest) (.list [t', r'] :: rest')
  | malformed {e e' : Value} {rest rest' : List Value} (hne : rest ≠ []) (hne' : rest' ≠ [])
      (hp : ∀ t r, e ≠ .list [t, r]) (hp' : ∀ t r, e' ≠ .list [t, r]) (h : c.Shown e e') :
      Branches (e :: rest) (e' :: rest')

inductive Operands : Form → List Value → List Value → Prop where
  | operator (op : Operator) {es es' : List Value} (h : List.Forall₂ (c.Code k) es es') :
      Operands (.operator op) es es'
  | negation {es es' : List Value} (h : List.Forall₂ (c.Code k) es es') :
      Operands .negation es es'
  | definition {a a' : String} {e e' : Value} (ha : c.Binds k a a') (h : c.Code k e e') :
      Operands .definition [.symbol a, e] [.symbol a', e']
  | undefinable {t t' e e' : Value} (ht : t.isSymbol = false) (ht' : t'.isSymbol = false)
      (h : c.Shown t t') : Operands .definition [t, e] [t', e']
  | incomplete {es es' : List Value} (h : es.length ≠ 2) (h' : es'.length ≠ 2) :
      Operands .definition es es'
  | function {es es' : List Value}
      (h : EndAlike c.Shown (fun f f' => ∃ l, c.Function k l f f') (Evaluator.functionParts es)
        (Evaluator.functionParts es')) : Operands .function es es'
  | choice {es es' : List Value} (h : c.Branches k es es') : Operands .choice es es'

inductive Shape : Value → Value → Prop where
  | symbol {a a' : String} (h : c.Reads k a a') : Shape (.symbol a) (.symbol a')
  | number (n : Number) : Shape (.number n) (.number n)
  | form {f : Form} {head head' : String} {es es' : List Value} (h : Form.ofName? head = some f)
      (h' : Form.ofName? head' = some f) (hs : c.Operands k f es es') :
      Shape (.list (.symbol head :: es)) (.list (.symbol head' :: es'))
  | call {head head' : String} {es es' : List Value} (h : Form.ofName? head = none)
      (h' : Form.ofName? head' = none) (hr : c.Reads k head head')
      (hs : List.Forall₂ (c.Code k) es es') :
      Shape (.list (.symbol head :: es)) (.list (.symbol head' :: es'))
  | items {es es' : List Value} (hp : ∀ head tail, es ≠ .symbol head :: tail)
      (hp' : ∀ head tail, es' ≠ .symbol head :: tail) (hs : List.Forall₂ (c.Code k) es es') :
      Shape (.list es) (.list es')
  | inert {e e' : Value} (h : e.isInert) (h' : e'.isInert) : Shape e e'

end code

section values

variable (c : Correspondence)

abbrev World : Type := FrameId → FrameId → c.Kind → Prop

variable {c} in
def World.single (n n' : FrameId) (l : c.Kind) : c.World := fun i i' k => i = n ∧ i' = n' ∧ k = l

variable {c} in
def World.add (w : c.World) (n n' : FrameId) (l : c.Kind) : c.World := fun i i' k =>
  w i i' k ∨ i = n ∧ i' = n' ∧ k = l

variable (w : c.World)

inductive Homes (k : c.Kind) : Option FrameId → Option FrameId → Prop where
  | none (h : Subsingleton c.Kind) : Homes k none none
  | some {i i' : FrameId} (h : w i i' k) : Homes k (some i) (some i')

inductive Closures : Value → Value → Prop where
  | symbol {a : String} (h : ∀ k, c.Reads k a a) : Closures (.symbol a) (.symbol a)
  | integer (i : Int) : Closures (.integer i) (.integer i)
  | text (s : String) : Closures (.text s) (.text s)
  | mk {k l : c.Kind} {ps b ps' b' : List Value} {home home' : Option FrameId}
      (hf : c.Function k l (ps, b) (ps', b')) (hh : c.Homes w k home home') :
      Closures (.closure ps b home) (.closure ps' b' home')

abbrev Alike : Value → Value → Prop := Value.Like (c.Closures w)

variable {c w}

theorem World.le_add (w : c.World) (n n' : FrameId) (l : c.Kind) : w ≤ w.add n n' l :=
  fun _ _ _ h => .inl h

theorem Homes.mono {u : c.World} (hwu : w ≤ u) {k : c.Kind} {home home' : Option FrameId}
    (h : c.Homes w k home home') : c.Homes u k home home' := by
  cases h with
  | none h => exact .none h
  | some h => exact .some (hwu _ _ _ h)

theorem Closures.mono {u : c.World} (hwu : w ≤ u) {v v' : Value} (h : c.Closures w v v') :
    c.Closures u v v' := by
  cases h with
  | symbol h => exact .symbol h
  | integer i => exact .integer i
  | text s => exact .text s
  | mk hf hh => exact .mk hf (hh.mono hwu)

theorem Alike.mono {u : c.World} (hwu : w ≤ u) {v v' : Value} (h : c.Alike w v v') :
    c.Alike u v v' :=
  Value.Like.mono h fun _ _ => Closures.mono hwu

theorem Alike.mono_option {u : c.World} (hwu : w ≤ u) {v v' : Option Value}
    (h : Option.Rel (c.Alike w) v v') : Option.Rel (c.Alike u) v v' := by
  cases h with
  | none => exact .none
  | some hv => exact .some (hv.mono hwu)

end values

structure Lawful (c : Correspondence) : Prop where
  shape {k : c.Kind} {e e' : Value} : c.Code k e e' → c.Shape k e e'
  parameters {k l : c.Kind} {f f' : List Value × List Value} :
    c.Function k l f f' → List.Forall₂ (c.Parameter l) f.1 f'.1
  body {k l : c.Kind} {f f' : List Value × List Value} :
    c.Function k l f f' → c.Code l (.list f.2) (.list f'.2)
  bound_iff {k : c.Kind} {a a' b b' : String} :
    c.Binds k a a' → c.Binds k b b' → (a = b ↔ a' = b')
  shown {v v' : Value} : c.Alike ⊤ v v' → c.Shown v v'
  shown_read {k : c.Kind} {a a' : String} : c.Reads k a a' → c.Shown (.symbol a) (.symbol a')
  shown_bound {k : c.Kind} {a a' : String} : c.Binds k a a' → c.Shown (.symbol a) (.symbol a')
  written {v v' : Value} : c.Shown v v' → Value.WrittenAlike v v'

theorem Lawful.shown_alike {c : Correspondence} (hc : c.Lawful) {w : c.World} {v v' : Value}
    (h : c.Alike w v v') : c.Shown v v' := hc.shown (h.mono le_top)

structure Heaps (c : Correspondence) (mode mode' : Scoping) where
  Holds : c.World → Store → Store → Prop
  lt {w : c.World} {s s' : Store} {i i' : FrameId} {k : c.Kind} : Holds w s s' → w i i' k →
    i < s.frames.size ∧ i' < s'.frames.size
  listens {w : c.World} {s s' : Store} : Holds w s s' → s.events.isSome = s'.events.isSome
  lookup {w : c.World} {s s' : Store} {i i' : FrameId} {k : c.Kind} {a a' : String} :
    Holds w s s' → w i i' k → c.Reads k a a' →
    Option.Rel (c.Alike w) (s.lookup? i a) (s'.lookup? i' a')
  assign {w : c.World} {s s' : Store} {i i' : FrameId} {k : c.Kind} {a a' : String}
    {v v' : Value} : Holds w s s' → w i i' k → c.Binds k a a' → c.Alike w v v' →
    Holds w (s.set i a v) (s'.set i' a' v')
  congr {w : c.World} {s s' t t' : Store} : Holds w s s' →
    (∀ i i' k, w i i' k → t.frames[i]? = s.frames[i]? ∧ t'.frames[i']? = s'.frames[i']?) →
    t.events.isSome = t'.events.isSome → Holds w t t'
  enter {w : c.World} {s s' : Store} {i i' n n' : FrameId} {k k₁ l : c.Kind}
    {f f' : List Value × List Value} {home home' : Option FrameId}
    {bs bs' : List (String × Value)} : Holds w s s' → w i i' k → c.Function k₁ l f f' →
    c.Homes w k₁ home home' → BindingsAlike (c.Binds l) (c.Alike w) bs bs' →
    f.1 = bs.map (.symbol ·.1) → f'.1 = bs'.map (.symbol ·.1) →
    (∀ j j' m, w j j' m → j ≠ n ∧ j' ≠ n') →
    Evaluator.parent mode home i < n → Evaluator.parent mode' home' i' < n' →
    s.frames[n]? = some (Frame.bindAll ⟨some (Evaluator.parent mode home i), []⟩ bs) →
    s'.frames[n']? = some (Frame.bindAll ⟨some (Evaluator.parent mode' home' i'), []⟩ bs') →
    Holds (w.add n n' l) s s'

section runs

variable {c : Correspondence} {mode mode' : Scoping} (H : c.Heaps mode mode')

structure Grows (w : c.World) (s s' : Store) (u : c.World) (t t' : Store) : Prop where
  le : w ≤ u
  size_le : s.frames.size ≤ t.frames.size
  size_le' : s'.frames.size ≤ t'.frames.size
  fresh : ∀ i i' k, u i i' k → w i i' k ∨ s.frames.size ≤ i ∧ s'.frames.size ≤ i'

theorem Grows.refl (w : c.World) {s s' t t' : Store} (h : s.frames.size ≤ t.frames.size)
    (h' : s'.frames.size ≤ t'.frames.size) : Grows w s s' w t t' where
  le := le_rfl
  size_le := h
  size_le' := h'
  fresh _ _ _ hw := .inl hw

theorem Grows.trans {w u x : c.World} {s s' t t' r r' : Store} (h : Grows w s s' u t t')
    (g : Grows u t t' x r r') : Grows w s s' x r r' where
  le := le_trans h.le g.le
  size_le := Nat.le_trans h.size_le g.size_le
  size_le' := Nat.le_trans h.size_le' g.size_le'
  fresh i i' k hx := by
    rcases g.fresh i i' k hx with hu | ⟨hi, hi'⟩
    · exact h.fresh i i' k hu
    · exact .inr ⟨Nat.le_trans h.size_le hi, Nat.le_trans h.size_le' hi'⟩

theorem Grows.free {w u : c.World} {s s' t t' : Store} (h : Grows w s s' u t t') {n n' : Nat}
    (hn : n < s.frames.size) (hn' : n' < s'.frames.size)
    (hfree : ∀ j j' k, w j j' k → j ≠ n ∧ j' ≠ n') : ∀ j j' k, u j j' k → j ≠ n ∧ j' ≠ n' := by
  intro j j' k hu
  rcases h.fresh j j' k hu with hw | ⟨hj, hj'⟩
  · exact hfree j j' k hw
  · exact ⟨by lia, by lia⟩

inductive Corresponds (w : c.World) (s s' : Store) {α β : Type}
    (Q : c.World → Store → Store → α → β → Prop) :
    Except Fault α × Store → Except Fault β × Store → Prop where
  | value {u : c.World} {t t' : Store} {a : α} {b : β} (hg : Grows w s s' u t t')
      (hs : H.Holds u t t') (h : Q u t t' a b) : Corresponds w s s' Q (.ok a, t) (.ok b, t')
  | fault {u : c.World} {t t' : Store} {f g : Fault} (hg : Grows w s s' u t t')
      (hs : H.Holds u t t') (h : f.Like c.Shown g) :
      Corresponds w s s' Q (.error f, t) (.error g, t')

namespace Corresponds

variable {H} {α β γ δ : Type} {w u : c.World} {s s' t t' : Store}
  {Q : c.World → Store → Store → α → β → Prop} {R : c.World → Store → Store → γ → δ → Prop}

theorem same_fault (hs : H.Holds w s s') (fault : Fault) :
    Corresponds H w s s' Q (.error fault, s) (.error fault, s') :=
  .fault (.refl w (Nat.le_refl _) (Nat.le_refl _)) hs (.same fault)

theorem one_fault (hs : H.Holds w s s') {f g : Fault} (h : f.Like c.Shown g) :
    Corresponds H w s s' Q (.error f, s) (.error g, s') :=
  .fault (.refl w (Nat.le_refl _) (Nat.le_refl _)) hs h

theorem one_value (hs : H.Holds w s s') {a : α} {b : β} (h : Q w s s' a b) :
    Corresponds H w s s' Q (.ok a, s) (.ok b, s') :=
  .value (.refl w (Nat.le_refl _) (Nat.le_refl _)) hs h

theorem since (hg : Grows w s s' u t t') {r : Except Fault α × Store} {r' : Except Fault β × Store}
    (h : Corresponds H u t t' Q r r') : Corresponds H w s s' Q r r' := by
  cases h with
  | value hg' hs h => exact .value (hg.trans hg') hs h
  | fault hg' hs h => exact .fault (hg.trans hg') hs h

theorem imp {P : c.World → Store → Store → α → β → Prop} {r : Except Fault α × Store}
    {r' : Except Fault β × Store} (h : Corresponds H w s s' Q r r')
    (hQP : ∀ u t t' a b, Grows w s s' u t t' → Q u t t' a b → P u t t' a b) :
    Corresponds H w s s' P r r' := by
  cases h with
  | value hg hs h => exact .value hg hs (hQP _ _ _ _ _ hg h)
  | fault hg hs h => exact .fault hg hs h

theorem bind {m : Effect α} {m' : Effect β} {f : α → Effect γ} {f' : β → Effect δ}
    (hm : Corresponds H w s s' Q (m t) (m' t'))
    (hf : ∀ u t t' a b, Grows w s s' u t t' → H.Holds u t t' → Q u t t' a b →
      Corresponds H w s s' R (f a t) (f' b t')) :
    Corresponds H w s s' R ((m >>= f) t) ((m' >>= f') t') := by
  rw [Effect.bind_apply, Effect.bind_apply]
  generalize m t = r, m' t' = r' at hm
  cases hm with
  | value hg hs h => exact hf _ _ _ _ _ hg hs h
  | fault hg hs h => exact .fault hg hs h

theorem seq {m : Effect α} {m' : Effect β} {f : α → Effect γ} {f' : β → Effect δ}
    (hm : Corresponds H w s s' Q (m s) (m' s'))
    (hf : ∀ u t t' a b, Grows w s s' u t t' → H.Holds u t t' → Q u t t' a b →
      Corresponds H u t t' R (f a t) (f' b t')) :
    Corresponds H w s s' R ((m >>= f) s) ((m' >>= f') s') :=
  hm.bind fun u t t' a b hg hs h => (hf u t t' a b hg hs h).since hg

end Corresponds

def Imitates (ev ev' : Evaluator) : Prop :=
  ∀ (w : c.World) (s s' : Store) (i i' : FrameId) (k : c.Kind) (e e' : Value), H.Holds w s s' →
    w i i' k → c.Code k e e' →
    Corresponds H w s s' (fun u _ _ => c.Alike u) (ev i e s) (ev' i' e' s')

end runs

end Correspondence

end ScopedLisp

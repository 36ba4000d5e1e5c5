import Mathlib.Data.List.Forall2
import ScopedLisp.Proofs.Chains

namespace ScopedLisp

namespace Value

mutual

def detached : Value → Value
  | .list items => .list (detachedEach items)
  | .closure params body _ => .closure params body none
  | v => v

def detachedEach : List Value → List Value
  | [] => []
  | v :: vs => detached v :: detachedEach vs

end

theorem detachedEach_eq_map (vs : List Value) : detachedEach vs = vs.map detached := by
  induction vs with
  | nil => rfl
  | cons v vs ih => simp [detachedEach, ih]

theorem detailed_detached (v : Value) : v.detached.detailed = v.detailed := by
  induction v using Value.induct with
  | list items ih =>
    have hmap : items.map (detailed ∘ detached) = items.map detailed := List.map_congr_left ih
    simp only [detached, detailed, detachedEach_eq_map, detailedEach_eq_map, List.map_map, hmap]
  | closure => rfl
  | number | symbol | nil | integer | text => rfl

theorem plain_detached (v : Value) : v.detached.plain = v.plain := by
  cases v with
  | list items => exact detailed_detached (.list items)
  | _ => rfl

def WrittenAlike (v w : Value) : Prop := ∀ style room, v.fault? style room = w.fault? style room

theorem faultEach?_eq {vs ws : List Value} (h : List.Forall₂ WrittenAlike vs ws) (style : Style)
    (room : Nat) : faultEach? style room vs = faultEach? style room ws := by
  induction h with
  | nil => rfl
  | cons hvw _ ih => simp only [faultEach?, hvw style room, ih]

theorem writtenAlike_list {vs ws : List Value} (h : List.Forall₂ WrittenAlike vs ws) :
    WrittenAlike (.list vs) (.list ws) := by
  intro style room
  rw [fault?_list, fault?_list, faultEach?_eq h]

theorem writtenAlike_detached (v : Value) : WrittenAlike v.detached v := by
  induction v using Value.induct with
  | list items ih =>
    rw [detached, detachedEach_eq_map]
    exact writtenAlike_list (List.forall₂_map_left_iff.mpr (List.forall₂_same.mpr ih))
  | closure ps b home =>
    intro style room
    cases style <;> rfl
  | number | symbol | nil | integer | text => exact fun _ _ => rfl

theorem writtenAlike_of_detached_eq {v w : Value} (h : v.detached = w.detached) :
    WrittenAlike v w := fun style room => by
  rw [← writtenAlike_detached v, h, writtenAlike_detached w]

inductive Like (R : Value → Value → Prop) : Value → Value → Prop where
  | number (n : Number) : Like R (.number n) (.number n)
  | nil : Like R .nil .nil
  | list {vs ws : List Value} (hl : vs.length = ws.length)
      (h : ∀ p ∈ vs.zip ws, Like R p.1 p.2) : Like R (.list vs) (.list ws)
  | closure {ps b qs c : List Value} {home home' : Option FrameId}
      (h : R (.closure ps b home) (.closure qs c home')) :
      Like R (.closure ps b home) (.closure qs c home')
  | symbol {name : String} (h : R (.symbol name) (.symbol name)) :
      Like R (.symbol name) (.symbol name)
  | integer {i : Int} (h : R (.integer i) (.integer i)) : Like R (.integer i) (.integer i)
  | text {s : String} (h : R (.text s) (.text s)) : Like R (.text s) (.text s)

namespace Like

variable {R S : Value → Value → Prop} {v w : Value}

theorem list_iff {vs ws : List Value} :
    Like R (.list vs) (.list ws) ↔ List.Forall₂ (Like R) vs ws := by
  rw [List.forall₂_iff_zip]
  constructor
  · intro h
    cases h with
    | list hl h => exact ⟨hl, fun hp => h _ hp⟩
  · rintro ⟨hl, h⟩
    exact .list hl fun p hp => h hp

theorem mono (h : Like R v w) (hRS : ∀ v w, R v w → S v w) : Like S v w := by
  induction h with
  | number n => exact .number n
  | nil => exact .nil
  | list hl _ ih => exact .list hl ih
  | closure h => exact .closure (hRS _ _ h)
  | symbol h => exact .symbol (hRS _ _ h)
  | integer h => exact .integer (hRS _ _ h)
  | text h => exact .text (hRS _ _ h)

theorem refl (hR : ∀ v, R v v) (v : Value) : Like R v v := by
  induction v using Value.induct with
  | number n => exact .number n
  | nil => exact .nil
  | list items ih =>
    refine list_iff.mpr (List.forall₂_same.mpr ih)
  | closure ps b home => exact .closure (hR _)
  | symbol name => exact .symbol (hR _)
  | integer i => exact .integer (hR _)
  | text s => exact .text (hR _)

theorem holds_eq (h : Like R v w) : v.holds = w.holds := by
  cases h <;> rfl

theorem image_eq {f g : Value → Value} (h : Like R v w)
    (hnumber : ∀ n, f (.number n) = g (.number n)) (hnil : f .nil = g .nil)
    (hf : ∀ vs, f (.list vs) = .list (vs.map f)) (hg : ∀ vs, g (.list vs) = .list (vs.map g))
    (hR : ∀ v w, R v w → f v = g w) : f v = g w := by
  induction h with
  | number n => exact hnumber n
  | nil => exact hnil
  | @list vs ws hl _ ih =>
    rw [hf, hg, Value.list.injEq]
    apply List.ext_getElem
    · simpa using hl
    · intro k hk hk'
      simp only [List.length_map] at hk hk'
      have hz : k < (vs.zip ws).length := by simp; omega
      simpa using ih _ (List.getElem_mem hz)
  | closure h | symbol h | integer h | text h => exact hR _ _ h

theorem detached_eq (h : Like R v w) (hR : ∀ v w, R v w → v.detached = w.detached) :
    v.detached = w.detached := by
  have hlist : ∀ vs : List Value, (Value.list vs).detached = .list (vs.map detached) := by
    intro vs
    rw [detached, detachedEach_eq_map]
  exact h.image_eq (fun _ => rfl) rfl hlist hlist hR

end Like

end Value

namespace Fault

inductive Like (R : Value → Value → Prop) : Fault → Fault → Prop where
  | unbound {v w : Value} (h : R v w) : Like R (.unbound v) (.unbound w)
  | unbindable {v w : Value} (h : R v w) : Like R (.unbindable v) (.unbindable w)
  | operandNotNumber (op : Operator) {v w : Value} (h : R v w) :
      Like R (.operandNotNumber op v) (.operandNotNumber op w)
  | negandNotNumber {v w : Value} (h : R v w) : Like R (.negandNotNumber v) (.negandNotNumber w)
  | targetNotSymbol {v w : Value} (h : R v w) : Like R (.targetNotSymbol v) (.targetNotSymbol w)
  | parametersNotList {v w : Value} (h : R v w) :
      Like R (.parametersNotList v) (.parametersNotList w)
  | parameterNotSymbol {v w : Value} (h : R v w) :
      Like R (.parameterNotSymbol v) (.parameterNotSymbol w)
  | bodyNotList {v w : Value} (h : R v w) : Like R (.bodyNotList v) (.bodyNotList w)
  | clauseNotPair {v w : Value} (h : R v w) : Like R (.clauseNotPair v) (.clauseNotPair w)
  | notClosure {f g : String} (h : R (.symbol f) (.symbol g)) :
      Like R (.notClosure f) (.notClosure g)
  | missingArgument {f g : String} (expected count : Nat) {v w : Value}
      (hf : R (.symbol f) (.symbol g)) (h : R v w) :
      Like R (.missingArgument f expected count v) (.missingArgument g expected count w)
  | same (fault : Fault) : Like R fault fault

def detached : Fault → Fault
  | .unbound v => .unbound v.detached
  | .unbindable v => .unbindable v.detached
  | .operandNotNumber op v => .operandNotNumber op v.detached
  | .negandNotNumber v => .negandNotNumber v.detached
  | .targetNotSymbol v => .targetNotSymbol v.detached
  | .parametersNotList v => .parametersNotList v.detached
  | .parameterNotSymbol v => .parameterNotSymbol v.detached
  | .bodyNotList v => .bodyNotList v.detached
  | .clauseNotPair v => .clauseNotPair v.detached
  | .missingArgument name expected count v => .missingArgument name expected count v.detached
  | fault => fault

theorem message_detached (fault : Fault) : fault.detached.message = fault.message := by
  cases fault with
  | unbindable v => exact congrArg (fun text => "Cannot bind " ++ text ++ " as a symbol") v.plain_detached
  | unbound v | negandNotNumber v | targetNotSymbol v | parametersNotList v
  | parameterNotSymbol v | bodyNotList v | clauseNotPair v | operandNotNumber _ v
  | missingArgument _ _ _ v => exact congrArg (fun text => _ ++ text) v.plain_detached
  | _ => rfl

theorem Like.detached_eq {R : Value → Value → Prop} (hR : ∀ v w, R v w → v.detached = w.detached)
    {f g : Fault} (h : Like R f g) : f.detached = g.detached := by
  cases h with
  | notClosure h =>
    have hname := hR _ _ h
    simp only [Value.detached, Value.symbol.injEq] at hname
    rw [hname]
  | missingArgument expected count hf h =>
    have hname := hR _ _ hf
    simp only [Value.detached, Value.symbol.injEq] at hname
    rw [hname, detached, detached, hR _ _ h]
  | same => rfl
  | _ => simp only [detached, hR _ _ ‹_›]

theorem Like.reported {R : Value → Value → Prop} (hR : ∀ v w, R v w → Value.WrittenAlike v w)
    {f g : Fault} (h : Like R f g) : Like R f.reported g.reported := by
  have hshown : f.shown?.bind (Value.fault? .plain Value.writingRoom) =
      g.shown?.bind (Value.fault? .plain Value.writingRoom) := by
    cases h with
    | same | notClosure => rfl
    | missingArgument _ _ _ h => exact hR _ _ h _ _
    | _ => exact hR _ _ ‹_› _ _
  unfold Fault.reported
  rw [hshown]
  split
  · exact h
  · exact .same _
  · exact .same _

theorem Like.kind?_eq {R : Value → Value → Prop} {f g : Fault} (h : Like R f g) :
    f.kind? = g.kind? := by
  cases h <;> rfl

end Fault

inductive EndAlike {α β : Type} (R : Value → Value → Prop) (Q : α → β → Prop) :
    Except Fault α → Except Fault β → Prop where
  | value {a : α} {b : β} (h : Q a b) : EndAlike R Q (.ok a) (.ok b)
  | fault {f g : Fault} (h : f.Like R g) : EndAlike R Q (.error f) (.error g)

def detachedEnd (r : Except Fault Value) : Except Fault Value :=
  (r.map Value.detached).mapError Fault.detached

theorem EndAlike.detachedEnd_eq {R S : Value → Value → Prop}
    (hR : ∀ v w, R v w → v.detached = w.detached) (hS : ∀ v w, S v w → v.detached = w.detached)
    {r r' : Except Fault Value} (h : EndAlike R S r r') : detachedEnd r = detachedEnd r' := by
  cases h with
  | value h => exact congrArg Except.ok (hS _ _ h)
  | fault h => exact congrArg Except.error (h.detached_eq hR)

abbrev BindingsAlike (T : String → String → Prop) (V : Value → Value → Prop) :
    List (String × Value) → List (String × Value) → Prop :=
  List.Forall₂ fun b c => T b.1 c.1 ∧ V b.2 c.2

namespace BindingsAlike

variable {T : String → String → Prop} {V : Value → Value → Prop} {bs cs : List (String × Value)}
  {x y : String}

theorem put (h : BindingsAlike T V bs cs) (hxy : ∀ a b, T a b → (x = a ↔ y = b)) {v w : Value}
    (ht : T x y) (hv : V v w) : BindingsAlike T V (Named.put bs x v) (Named.put cs y w) := by
  induction h with
  | nil => exact .cons ⟨ht, hv⟩ .nil
  | @cons b c bs cs hbc hrest ih =>
    have hn := hxy _ _ hbc.1
    obtain ⟨a, u⟩ := b
    obtain ⟨a', u'⟩ := c
    simp only [Named.put]
    by_cases ha : a = x
    · rw [if_pos ha, if_pos (hn.mp ha.symm).symm]
      exact .cons ⟨ht, hv⟩ hrest
    · rw [if_neg ha, if_neg fun hb => ha (hn.mpr hb.symm).symm]
      exact .cons hbc ih

theorem bindAll (h : BindingsAlike T V bs cs)
    (hT : ∀ a a' b b', T a a' → T b b' → (a = b ↔ a' = b')) {f g : Frame}
    (hfg : BindingsAlike T V f.bindings g.bindings) :
    BindingsAlike T V (f.bindAll bs).bindings (g.bindAll cs).bindings := by
  induction h generalizing f g with
  | nil => exact hfg
  | cons hb _ ih =>
    apply ih
    apply hfg.put
    · intro a a' ha
      exact hT _ _ _ _ hb.1 ha
    · exact hb.1
    · exact hb.2

theorem fault?_eq {f g : Frame} (h : BindingsAlike T Value.WrittenAlike f.bindings g.bindings) :
    f.fault? = g.fault? := by
  refine Value.faultEach?_eq ?_ _ _
  rw [List.forall₂_map_left_iff, List.forall₂_map_right_iff]
  exact h.imp fun _ _ hbc => hbc.2

theorem mono {W : Value → Value → Prop} (h : BindingsAlike T V bs cs)
    (hVW : ∀ v w, V v w → W v w) : BindingsAlike T W bs cs :=
  List.Forall₂.imp (fun _ _ hbc => ⟨hbc.1, hVW _ _ hbc.2⟩) h

end BindingsAlike

namespace Evaluator

theorem numbers_like {R S : Value → Value → Prop} (hS : ∀ v w, v.Like R w → S v w) (op : Operator)
    {vs ws : List Value} (h : List.Forall₂ (Value.Like R) vs ws) :
    EndAlike S Eq (numbers op vs) (numbers op ws) := by
  induction h with
  | nil => exact .value rfl
  | @cons v w vs ws hvw _ ih =>
    cases hvw with
    | number n =>
      simp only [numbers]
      generalize numbers op vs = r, numbers op ws = r' at ih
      cases ih with
      | value h => exact .value (by rw [h])
      | fault h => exact .fault h
    | nil => exact .fault (.operandNotNumber op (hS _ _ .nil))
    | list hl h => exact .fault (.operandNotNumber op (hS _ _ (.list hl h)))
    | closure h => exact .fault (.operandNotNumber op (hS _ _ (.closure h)))
    | symbol h => exact .fault (.operandNotNumber op (hS _ _ (.symbol h)))
    | integer h => exact .fault (.operandNotNumber op (hS _ _ (.integer h)))
    | text h => exact .fault (.operandNotNumber op (hS _ _ (.text h)))

end Evaluator

end ScopedLisp

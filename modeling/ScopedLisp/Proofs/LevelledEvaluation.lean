import Mathlib.Data.Nat.Pairing
import ScopedLisp.Proofs.Visibility

/-!
Evaluation that knows how many function bodies of its source text it is in. Every expression comes
with this level, and a function keeps the level that it was made on, for its body is one level
further in. Nothing is evaluated in a frame unless the depth of the frame is the level: otherwise
anything may happen.
-/

namespace ScopedLisp

/-- The expression stands in the program, inside just so many bodies of functions. -/
inductive Value.At (program : Value) : Nat → Value → Prop where
  | program : At program 0 program
  | part {k : Nat} {e p : Value} (h : At program k e) (hp : p ∈ e.searched)
      (hf : ∀ tail, e ≠ .list (.symbol "fn" :: tail)) : At program k p
  | body {k : Nat} {params body : Value} (h : At program k (.list [.symbol "fn", params, body])) :
      At program (k + 1) body

def StandsOn (sources : List String) (k : Nat) (e : Value) : Prop :=
  ∃ source ∈ sources, ∃ program, Reader.read source = .ok program ∧ program.At k e

namespace StandsOn

variable {sources : List String} {k : Nat} {e p : Value}

theorem program {source : String} (hs : source ∈ sources) (h : Reader.read source = .ok e) :
    StandsOn sources 0 e :=
  ⟨source, hs, e, h, .program⟩

theorem part (h : StandsOn sources k e) (hp : p ∈ e.searched)
    (hf : ∀ tail, e ≠ .list (.symbol "fn" :: tail)) : StandsOn sources k p := by
  obtain ⟨source, hs, program, hread, h⟩ := h
  exact ⟨source, hs, program, hread, h.part hp hf⟩

theorem operand {head : String} {es : List Value} (hf : Form.ofName? head ≠ some .function)
    (h : StandsOn sources k (.list (.symbol head :: es)))
    (hp : p ∈ (Value.list (.symbol head :: es)).searched) : StandsOn sources k p := by
  apply h.part hp
  intro tail heq
  obtain ⟨hhead, -⟩ := List.cons.inj (Value.list.inj heq)
  rw [Value.symbol.inj hhead] at hf
  exact hf Form.ofName?_fn

theorem body {params body : Value}
    (h : StandsOn sources k (.list [.symbol "fn", params, body])) :
    StandsOn sources (k + 1) body := by
  obtain ⟨source, hs, program, hread, h⟩ := h
  exact ⟨source, hs, program, hread, h.body⟩

end StandsOn

namespace Value

mutual

def functionDepth : Value → Nat
  | .list [.symbol "fn", _, body] => body.functionDepth + 1
  | .list items => functionDepthEach items
  | _ => 0

def functionDepthEach : List Value → Nat
  | [] => 0
  | v :: vs => max v.functionDepth (functionDepthEach vs)

end

theorem functionDepth_le_each {v : Value} {vs : List Value} (h : v ∈ vs) :
    v.functionDepth ≤ functionDepthEach vs := by
  induction h with
  | head => exact Nat.le_max_left ..
  | tail _ _ ih => exact Nat.le_trans ih (Nat.le_max_right ..)

theorem functionDepth_list {es : List Value}
    (h : ∀ params body, es ≠ [.symbol "fn", params, body]) :
    (Value.list es).functionDepth = functionDepthEach es := by
  rw [functionDepth]
  exact h

theorem functionDepth_branch {p : Value} {es : List Value} (h : p ∈ Form.branches es) :
    p.functionDepth ≤ functionDepthEach es := by
  fun_induction Form.branches es with
  | case1 => nomatch h
  | case2 default => exact functionDepth_le_each h
  | case3 test result rest _ ih =>
    rw [functionDepthEach, functionDepth_list (by simp)]
    rcases List.mem_cons.mp h with rfl | h
    · exact Nat.le_trans (functionDepth_le_each (by simp)) (Nat.le_max_left ..)
    rcases List.mem_cons.mp h with rfl | h
    · exact Nat.le_trans (functionDepth_le_each (by simp)) (Nat.le_max_left ..)
    · exact Nat.le_trans (ih h) (Nat.le_max_right ..)
  | case4 clause rest _ _ ih => exact Nat.le_trans (ih h) (Nat.le_max_right ..)

theorem functionDepth_searched {e p : Value} (hp : p ∈ e.searched)
    (hf : ∀ tail, e ≠ .list (.symbol "fn" :: tail)) : p.functionDepth ≤ e.functionDepth := by
  cases e with
  | list es =>
    rw [functionDepth_list fun params body h => hf _ (congrArg Value.list h)]
    by_cases hs : ∃ head tail, es = .symbol head :: tail
    · obtain ⟨head, tail, rfl⟩ := hs
      cases hform : Form.ofName? head with
      | none =>
        rw [searched_call hform] at hp
        exact functionDepth_le_each hp
      | some f =>
        rw [searched_form hform] at hp
        refine Nat.le_trans ?_ (Nat.le_max_right ..)
        cases f with
        | operator | negation => exact functionDepth_le_each hp
        | definition =>
          rcases tail with _ | ⟨target, _ | ⟨v, _ | ⟨extra, rest⟩⟩⟩
          · nomatch hp
          · nomatch hp
          · exact functionDepth_le_each (List.mem_cons_of_mem _ hp)
          · nomatch hp
        -- only the body of a function is further in than the function
        | function => exact absurd (Form.eq_name hform) fun h => hf tail (h ▸ rfl)
        | choice => exact functionDepth_branch hp
    · simp only [not_exists] at hs
      rw [searched_items hs] at hp
      exact functionDepth_le_each hp
  | _ => nomatch hp

theorem At.level_le {program e : Value} {k : Nat} (h : program.At k e) :
    k + e.functionDepth ≤ program.functionDepth := by
  induction h with
  | program => simp
  | part _ hp hf ih => exact Nat.le_trans (Nat.add_le_add_left (functionDepth_searched hp hf) _) ih
  | body _ ih =>
    rw [functionDepth] at ih
    lia

end Value

open Classical in
/-- The effect in the stores with the property, and in others what there is instead. -/
noncomputable def Effect.guarded {α : Type} (P : Store → Prop) (m instead : Effect α) : Effect α :=
  fun s => if P s then m s else instead s

namespace Levelled

structure Parts where
  item : Nat → Evaluator
  inner : Nat → Evaluator
  operand : Nat → Evaluator

def Parts.at (ps : Parts) (k : Nat) : Evaluator.Parts := ⟨ps.item k, ps.inner k, ps.operand k⟩

def home (frame : FrameId) (k : Nat) : FrameId := Nat.pair frame k

def frameOf (home : FrameId) : FrameId := home.unpair.1

def bodyLevel (home : FrameId) : Nat := home.unpair.2 + 1

def noteCall (name : String) (i : FrameId) (k : Nat) : Effect Unit := fun s =>
  match s.events, s.frames[i]? with
  | some _, some f =>
    if f.fault?.isSome then (.error .depthExceeded, s) else Effect.note (.called name f k) s
  | _, _ => (.ok (), s)

section evaluation

variable (sources : List String) (instead : Nat → Evaluator)

noncomputable def call (ps : Parts) (k : Nat) (frame : FrameId) (name : String)
    (args : List Value) : Effect Value := do
  match ← Effect.lookup frame name with
  | .closure params body (some home) =>
    let inner ← Effect.extend (frameOf home)
    let entered : Effect Value := do
      Evaluator.bindArguments (ps.operand k) frame name inner params.length args.length params args
      noteCall name inner (bodyLevel home)
      ps.inner (bodyLevel home) inner (.list body)
    Effect.guarded (fun s => s.depth inner = bodyLevel home) entered
      (instead (bodyLevel home) inner (.list body))
  | _ => Effect.fail (.notClosure name)

def form (ps : Parts) (k : Nat) (frame : FrameId) : Form → List Value → Effect Value
  | .function, es => Evaluator.function (home frame k) es
  | f, es => Evaluator.form frame (ps.at k) f es

noncomputable def step (ps : Parts) (k : Nat) : Evaluator := fun frame e =>
  match e with
  | .list (.symbol head :: tail) =>
    match Form.ofName? head with
    | some f => form ps k frame f tail
    | none => call instead ps k frame head tail
  | e => Evaluator.step (.ok .lexical) (ps.at k) frame e

noncomputable def checked (ev : Nat → Evaluator) : Nat → Evaluator := fun k frame e =>
  Effect.guarded (fun s => StandsOn sources k e ∧ s.depth frame = k) (ev k frame e)
    (instead k frame e)

noncomputable def parts : Nat → Parts
  | 0 =>
    let none := checked sources instead fun _ => Evaluator.parts.exhausted
    ⟨none, none, none⟩
  | room + 1 =>
    let ps := parts room
    ⟨checked sources instead (step instead ps), ps.item, ps.inner⟩

noncomputable def evaluateSource (source : String) (root : FrameId) (s : Store) :
    Except Failure Value × Store :=
  runSource ((parts sources instead evaluationRoom).item 0 root) source s

noncomputable def evaluateAll (root : FrameId) :
    List String → Store → List (Except Failure Value) × Store
  | [], s => ([], s)
  | source :: rest, s =>
    let first := evaluateSource sources instead source root s
    let later := evaluateAll root rest first.2
    (first.1 :: later.1, later.2)

end evaluation

end Levelled

open Levelled (frameOf)

namespace Value

def unmarked (v : Value) : Value := v.relocate frameOf

@[simp] theorem unmarked_number (n : Number) : (Value.number n).unmarked = .number n := rfl

theorem unmarked_list (vs : List Value) :
    (Value.list vs).unmarked = .list (vs.map unmarked) := by
  rw [unmarked, relocate, relocateEach_eq_map]
  rfl

theorem unmarked_home (params body : List Value) (i : FrameId) (k : Nat) :
    (Value.closure params body (some (Levelled.home i k))).unmarked =
      .closure params body (some i) := by
  simp [unmarked, relocate, frameOf, Levelled.home]

theorem detached_unmarked (v : Value) : v.unmarked.detached = v.detached := by
  induction v using Value.induct with
  | list items ih =>
    have hmap : items.map (detached ∘ unmarked) = items.map detached := List.map_congr_left ih
    rw [unmarked_list, detached, detached, detachedEach_eq_map, detachedEach_eq_map, List.map_map,
      hmap]
  | closure => rfl
  | number | symbol | nil | integer | text => rfl

theorem writtenAlike_unmarked (v : Value) : WrittenAlike v.unmarked v :=
  writtenAlike_of_detached_eq v.detached_unmarked

@[simp] theorem holds_unmarked (v : Value) : v.unmarked.holds = v.holds := by
  cases v <;> rfl

end Value

namespace Fault

def unmarked : Fault → Fault
  | .operandNotNumber op v => .operandNotNumber op v.unmarked
  | .negandNotNumber v => .negandNotNumber v.unmarked
  | fault => fault

theorem reported_unmarked (fault : Fault) : fault.unmarked.reported = fault.reported.unmarked := by
  have hfault : fault.unmarked.shown?.bind (Value.fault? .plain Value.writingRoom) =
      fault.shown?.bind (Value.fault? .plain Value.writingRoom) := by
    cases fault with
    | operandNotNumber op v | negandNotNumber v => exact v.writtenAlike_unmarked _ _
    | _ => rfl
  rw [reported, reported, hfault]
  split <;> rfl

end Fault

namespace Frame

def unmarked (f : Frame) : Frame := { f with bindings := f.bindings.map fun b => (b.1, b.2.unmarked) }

theorem get?_unmarked (f : Frame) (a : String) : f.unmarked.get? a = (f.get? a).map Value.unmarked := by
  obtain ⟨outer, bindings⟩ := f
  induction bindings with
  | nil => rfl
  | cons b bs ih =>
    rw [get?, get?, unmarked, List.map_cons, Named.lookup_cons, Named.lookup_cons]
    split
    · rfl
    · exact ih

theorem unmarked_set (f : Frame) (a : String) (v : Value) :
    (f.set a v).unmarked = f.unmarked.set a v.unmarked := by
  obtain ⟨outer, bindings⟩ := f
  rw [unmarked, unmarked, set, set, Frame.mk.injEq]
  refine ⟨rfl, ?_⟩
  dsimp only
  induction bindings with
  | nil => rfl
  | cons b bs ih =>
    rw [Named.put, List.map_cons, Named.put]
    split
    · rfl
    · rw [List.map_cons, ih]

theorem fault?_unmarked (f : Frame) : f.unmarked.fault? = f.fault? := by
  apply BindingsAlike.fault?_eq (T := Eq)
  apply List.forall₂_map_left_iff.mpr
  apply List.forall₂_same.mpr
  exact fun b _ => ⟨rfl, b.2.writtenAlike_unmarked⟩

end Frame

def Event.unmarked : Event → Event
  | .parsed program => .parsed program
  | .called name frame depth => .called name frame.unmarked depth

namespace Store

def unmarked (s : Store) : Store :=
  ⟨s.frames.map Frame.unmarked, s.events.map (·.map Event.unmarked)⟩

section unmarked

variable (s : Store) (i : FrameId)

@[simp] theorem size_unmarked : s.unmarked.frames.size = s.frames.size := by simp [unmarked]

theorem frames_unmarked : s.unmarked.frames[i]? = s.frames[i]?.map Frame.unmarked := by
  simp [unmarked]

theorem sameOuter_unmarked : SameOuter s s.unmarked i := by
  rw [SameOuter, frames_unmarked, Option.map_map]
  rfl

theorem get?_unmarked (a : String) : s.unmarked.get? i a = (s.get? i a).map Value.unmarked := by
  rw [get?, get?, frames_unmarked]
  cases s.frames[i]? with
  | none => rfl
  | some f => exact f.get?_unmarked a

theorem lookup?_unmarked (a : String) :
    s.unmarked.lookup? i a = (s.lookup? i a).map Value.unmarked := by
  induction i using Nat.strongRecOn with
  | _ i ih =>
    rw [lookup?_eq, lookup?_eq s, get?_unmarked, (s.sameOuter_unmarked i).next?_eq]
    cases s.get? i a with
    | some v => rfl
    | none =>
      cases ho : s.next? i with
      | none => rfl
      | some o => exact ih o (next?_lt ho)

theorem unmarked_set (a : String) (v : Value) :
    (s.set i a v).unmarked = s.unmarked.set i a v.unmarked := by
  rw [unmarked, set, set, Store.mk.injEq]
  refine ⟨?_, rfl⟩
  apply Array.ext_getElem?
  intro j
  simp only [unmarked, Array.getElem?_map, Array.getElem?_modify]
  split
  · cases s.frames[j]? with
    | none => rfl
    | some f => exact congrArg some (f.unmarked_set a v)
  · rfl

theorem unmarked_extend : (s.extend i).2.unmarked = (s.unmarked.extend i).2 := by
  rw [unmarked, extend, extend, allocate, allocate, Array.map_push]
  rfl

theorem unmarked_note (event : Event) :
    (Effect.note event s).2.unmarked = (Effect.note event.unmarked s.unmarked).2 := by
  obtain ⟨frames, events⟩ := s
  cases events <;> rfl

theorem cannotRecord_unmarked (program : Value) :
    s.unmarked.cannotRecord program = s.cannotRecord program :=
  cannotRecord_congr (by simp [unmarked]) program

end unmarked

end Store

end ScopedLisp

import Mathlib.Data.List.Basic
import Mathlib.Data.List.Find
import Mathlib.Data.List.Induction
import Mathlib.Data.Nat.Basic
import Mathlib.Order.Basic
import ScopedLisp.Proofs.Chains

namespace ScopedLisp

theorem Frame.names_bindAll (outer : Option FrameId) (bound : List (String × Value)) :
    (Frame.bindAll ⟨outer, []⟩ bound).bindings.map (·.1) = (bound.map (·.1)).eraseDups := by
  induction bound using List.reverseRecOn with
  | nil => rfl
  | append_singleton bound b ih =>
    rw [bindAll_append, List.map_append, List.eraseDups_append]
    change (Named.put _ b.1 b.2).map _ = _ ++ ([b.1].removeAll _).eraseDups
    rw [Named.map_fst_put, ih]
    by_cases hb : b.1 ∈ bound.map (·.1)
    · have hnone : [b.1].removeAll (bound.map (·.1)) = [] := by simp [List.removeAll, hb]
      rw [if_pos (List.mem_eraseDups.mpr hb), hnone, List.eraseDups_nil, List.append_nil]
    · have hone : [b.1].removeAll (bound.map (·.1)) = [b.1] := by simp [List.removeAll, hb]
      rw [if_neg (List.mem_eraseDups.not.mpr hb), hone]
      rfl

theorem Frame.nodup_bindAll {f : Frame} (hf : (f.bindings.map (·.1)).Nodup)
    (bound : List (String × Value)) : ((f.bindAll bound).bindings.map (·.1)).Nodup := by
  induction bound generalizing f with
  | nil => exact hf
  | cons b bound ih =>
    apply ih
    change ((Named.put _ b.1 b.2).map _).Nodup
    rw [Named.map_fst_put]
    split
    · exact hf
    · next hb => exact List.nodup_append.mpr ⟨hf, by simp, by grind⟩

namespace Store

inductive Change where
  | root
  | extend (i : FrameId)
  | set (i : FrameId) (name v : Value)
  | update (i : FrameId) (pairs : List (Value × Value))

def writable : List (Value × Value) → List (String × Value)
  | (.symbol name, v) :: rest => (name, v) :: writable rest
  | _ => []

namespace Change

def frame? : Change → Option FrameId
  | .root => none
  | .extend i | .set i _ _ | .update i _ => some i

def made? : Change → Option (Option FrameId)
  | .root => some none
  | .extend i => some (some i)
  | .set .. | .update .. => none

def names : Change → List Value
  | .root | .extend _ => []
  | .set _ name _ => [name]
  | .update _ pairs => pairs.map (·.1)

def writesTo (f : FrameId) : Change → List (String × Value)
  | .root | .extend _ => []
  | .set i name v => if i = f then writable [(name, v)] else []
  | .update i pairs => if i = f then writable pairs else []

def apply (s : Store) : Change → Option Fault × Store
  | .root => (none, (s.allocate none).2)
  | .extend i => (none, (s.extend i).2)
  | .set i name v =>
    match s.setValue i name v with
    | .ok t => (none, t)
    | .error fault => (some fault, s)
  | .update i pairs => s.update i pairs

theorem apply_set (s : Store) (i : FrameId) (name v : Value) :
    (Change.set i name v).apply s = (Change.update i [(name, v)]).apply s := by
  cases name <;> rfl

theorem fault_update (s : Store) (i : FrameId) (pairs : List (Value × Value)) :
    (s.update i pairs).1 = ((pairs.map (·.1)).find? (!·.isSymbol)).map .unbindable := by
  induction pairs generalizing s with
  | nil => rfl
  | cons p rest ih =>
    obtain ⟨name, v⟩ := p
    cases name with
    | symbol a => exact ih (s.set i a v)
    | _ => rfl

theorem fault_apply (c : Change) (s : Store) :
    (c.apply s).1 = (c.names.find? (!·.isSymbol)).map .unbindable := by
  cases c with
  | root | extend => rfl
  | set i name v =>
    rw [apply_set]
    exact fault_update s i [(name, v)]
  | update i pairs => exact fault_update s i pairs

theorem writesTo_of_ne {c : Change} {f : FrameId} (h : c.frame? ≠ some f) : c.writesTo f = [] := by
  cases c with
  | root | extend => rfl
  | set i | update i =>
    have hi : i ≠ f := fun hi => h (congrArg some hi)
    exact if_neg hi

theorem frame?_of_made? {c : Change} {o : FrameId} (h : c.made? = some (some o)) :
    c.frame? = some o := by
  cases c with
  | extend i => exact Option.some.inj h
  | _ => cases h

end Change

abbrev History := List Change

namespace History

variable {h : History} {s : Store} {f i : FrameId}

def outers (h : History) : List (Option FrameId) := h.filterMap Change.made?

def writesTo (h : History) (f : FrameId) : List (String × Value) := h.flatMap (Change.writesTo f)

def after (s : Store) (h : History) : Store := h.foldl (fun s c => (c.apply s).2) s

inductive Feasible : History → Prop where
  | nil : Feasible []
  | snoc {h : History} {c : Change} (hh : Feasible h)
      (hc : ∀ i, c.frame? = some i → i < (outers h).length) : Feasible (h ++ [c])

/-- Outward from the first frame, the second is the nearest one written to under the name. -/
inductive Nearest (h : History) (name : String) : FrameId → FrameId → Prop where
  | here {f : FrameId} (hw : name ∈ (h.writesTo f).map (·.1)) : Nearest h name f f
  | outward {f o g : FrameId} (hw : name ∉ (h.writesTo f).map (·.1))
      (ho : h.outers[f]? = some (some o)) (hg : Nearest h name o g) : Nearest h name f g

theorem frames_update (s : Store) (i : FrameId) (pairs : List (Value × Value)) (f : FrameId) :
    (s.update i pairs).2.frames[f]? =
      s.frames[f]?.map (·.bindAll ((Change.update i pairs).writesTo f)) := by
  induction pairs generalizing s with
  | nil =>
    have hnone : (Change.update i []).writesTo f = [] := by simp [Change.writesTo, writable]
    rw [update, hnone]
    cases s.frames[f]? <;> rfl
  | cons p rest ih =>
    obtain ⟨name, v⟩ := p
    cases name with
    | symbol a =>
      have hrest := ih (s.set i a v)
      rw [frames_set] at hrest
      rw [update, setValue, hrest]
      by_cases hi : i = f
      · simp only [Change.writesTo, if_pos hi, writable]
        cases s.frames[f]? <;> rfl
      · simp only [Change.writesTo, if_neg hi]
    | _ =>
      rw [Change.writesTo, writable, ite_self]
      · cases hf : s.frames[f]? <;> exact hf
      · simp

theorem frames_apply (c : Change) (s : Store) (f : FrameId) :
    (c.apply s).2.frames[f]? =
      if f = s.frames.size then c.made?.map fun outer => ⟨outer, []⟩
      else s.frames[f]?.map (·.bindAll (c.writesTo f)) := by
  have hmade : ∀ outer, (s.allocate outer).2.frames[f]? =
      if f = s.frames.size then some ⟨outer, []⟩
      else s.frames[f]?.map (·.bindAll []) := by
    intro outer
    rw [frames_allocate]
    cases s.frames[f]? <;> rfl
  have hwrites : ∀ (i : FrameId) (pairs : List (Value × Value)), (s.update i pairs).2.frames[f]? =
      if f = s.frames.size then none
      else s.frames[f]?.map (·.bindAll ((Change.update i pairs).writesTo f)) := by
    intro i pairs
    rw [frames_update]
    split
    · next hf => rw [hf, Array.getElem?_eq_none (Nat.le_refl _), Option.map_none]
    · rfl
  cases c with
  | root => exact hmade none
  | extend i => exact hmade (some i)
  | set i name v =>
    rw [Change.apply_set]
    exact hwrites i [(name, v)]
  | update i pairs => exact hwrites i pairs

theorem outers_concat (h : History) (c : Change) (f : FrameId) :
    (outers (h ++ [c]))[f]? = if f = h.outers.length then c.made? else h.outers[f]? := by
  rw [outers, List.filterMap_append]
  change (h.outers ++ _)[f]? = _
  cases hc : c.made? with
  | none =>
    rw [List.filterMap_cons_none hc, List.filterMap_nil, List.append_nil]
    split
    · next hf => rw [hf, List.getElem?_eq_none (Nat.le_refl _)]
    · rfl
  | some outer =>
    rw [List.filterMap_cons_some hc, List.filterMap_nil]
    split
    · next hf => rw [hf, List.getElem?_concat_length]
    · next hf =>
      by_cases hlt : f < h.outers.length
      · rw [List.getElem?_append_left hlt]
      · rw [List.getElem?_eq_none (by simp; lia), List.getElem?_eq_none (by lia)]

theorem writesTo_concat (h : History) (c : Change) (f : FrameId) :
    writesTo (h ++ [c]) f = h.writesTo f ++ c.writesTo f := by
  rw [writesTo, writesTo, List.flatMap_append, List.flatMap_singleton]

theorem after_concat (s : Store) (h : History) (c : Change) :
    after s (h ++ [c]) = (c.apply (after s h)).2 := by
  rw [after, after, List.foldl_append]
  rfl

theorem Feasible.writesTo_eq_nil (hh : Feasible h) (hf : h.outers.length ≤ f) :
    h.writesTo f = [] := by
  induction hh with
  | nil => rfl
  | @snoc h c hh hc ih =>
    have hle : h.outers.length ≤ f := by
      rw [outers, List.filterMap_append, List.length_append] at hf
      exact Nat.le_trans (Nat.le_add_right _ _) hf
    rw [writesTo_concat, ih hle, List.nil_append]
    apply Change.writesTo_of_ne
    intro he
    exact absurd (hc f he) (Nat.not_lt_of_le hle)

theorem Feasible.outer_lt (hh : Feasible h) {o : FrameId} (ho : h.outers[f]? = some (some o)) :
    o < f := by
  induction hh with
  | nil => cases ho
  | @snoc h c hh hc ih =>
    rw [outers_concat] at ho
    split at ho
    · next hf =>
      rw [hf]
      exact hc o (Change.frame?_of_made? ho)
    · exact ih ho

theorem Feasible.frames_after (hh : Feasible h) (f : FrameId) :
    (h.after .empty).frames[f]? =
      h.outers[f]?.map fun outer => Frame.bindAll ⟨outer, []⟩ (h.writesTo f) := by
  induction hh generalizing f with
  | nil => rfl
  | @snoc h c hh hc ih =>
    have hsize : (h.after .empty).frames.size = h.outers.length := by
      apply eq_of_forall_lt_iff
      intro j
      have hsome := congrArg Option.isSome (ih j)
      rw [Bool.eq_iff_iff] at hsome
      simpa using hsome
    rw [after_concat, frames_apply, outers_concat, writesTo_concat, hsize]
    split
    · next hf =>
      -- the frame was not there before, so nothing has been written to it
      have hc' : c.writesTo f = [] := by
        apply Change.writesTo_of_ne
        intro he
        exact Nat.lt_irrefl _ (hf ▸ hc f he)
      rw [hh.writesTo_eq_nil (Nat.le_of_eq hf.symm), hc']
      rfl
    · rw [ih, Option.map_map]
      congr 1
      funext outer
      exact (Frame.bindAll_append _ _ _).symm

theorem Feasible.get?_after (hh : Feasible h) (f : FrameId) (name : String) :
    (h.after .empty).get? f name = (h.writesTo f).reverse.lookup name := by
  rw [get?, hh.frames_after]
  cases ho : h.outers[f]? with
  | none =>
    rw [hh.writesTo_eq_nil (List.getElem?_eq_none_iff.mp ho)]
    rfl
  | some outer =>
    rw [Option.map_some, Option.bind_some, Frame.get?_bindAll]
    exact Option.or_none

theorem Feasible.isSome_get?_after (hh : Feasible h) {f : FrameId} {name : String} :
    ((h.after .empty).get? f name).isSome ↔ name ∈ (h.writesTo f).map (·.1) := by
  cases ho : h.outers[f]? with
  | none => rw [hh.get?_after, hh.writesTo_eq_nil (List.getElem?_eq_none_iff.mp ho)]; simp
  | some outer =>
    apply get?_of_filled
    rw [hh.frames_after, ho, Option.map_some]

theorem Feasible.next?_after (hh : Feasible h) (f : FrameId) :
    (h.after .empty).next? f = h.outers[f]?.join := by
  rw [next?, hh.frames_after]
  cases ho : h.outers[f]? with
  | none => rfl
  | some outer =>
    rw [Option.map_some, Option.bind_some, Frame.outer_bindAll, Option.join_some]
    cases outer with
    | none => rfl
    | some o =>
      have hlt := hh.outer_lt ho
      simpa [Option.filter] using hlt

theorem Feasible.find?_of_nearest (hh : Feasible h) {name : String} {f g : FrameId}
    (hg : h.Nearest name f g) : (h.after .empty).find? f name = some g := by
  induction hg with
  | here hw => rw [find?_eq, if_pos (hh.isSome_get?_after.mpr hw)]
  | outward hw ho _ ih =>
    rw [find?_eq, if_neg (hh.isSome_get?_after.not.mpr hw), hh.next?_after, ho]
    exact ih

theorem Feasible.nearest_of_find? (hh : Feasible h) {name : String} {f g : FrameId}
    (hg : (h.after .empty).find? f name = some g) : h.Nearest name f g := by
  induction f using Nat.strongRecOn with
  | _ f ih =>
    rw [find?_eq] at hg
    split at hg
    · next hw =>
      obtain rfl := Option.some.inj hg
      exact .here (hh.isSome_get?_after.mp hw)
    · next hw =>
      obtain ⟨o, ho, hg⟩ := Option.bind_eq_some_iff.mp hg
      have hlt := next?_lt ho
      rw [hh.next?_after, Option.join_eq_some_iff] at ho
      exact .outward (hh.isSome_get?_after.not.mp hw) ho (ih o hlt hg)

end History

structure AnswersAlike (s t : Store) (f : FrameId) : Prop where
  lookup : ∀ name, t.lookupValue f name = s.lookupValue f name
  find : ∀ name, t.findValue? f name = s.findValue? f name
  contains : ∀ name, t.contains f name = s.contains f name
  root : t.root f = s.root f
  depth : t.depth f = s.depth f
  text : t.frameText? f = s.frameText? f
  chainText : t.chainText? f = s.chainText? f

theorem answersAlike_of_chain {s t : Store} {f : FrameId} (hf : f < s.frames.size)
    (hchain : t.chain f = s.chain f) (hsame : ∀ j ∈ s.chain f, t.frames[j]? = s.frames[j]?) :
    AnswersAlike s t f := by
  have hread : ∀ {α : Type} (read : Option Frame → Option α),
      (t.chain f).filterMap (fun j => read t.frames[j]?) =
        (s.chain f).filterMap fun j => read s.frames[j]? := by
    intro α read
    rw [hchain]
    apply List.filterMap_congr
    intro j hj
    rw [hsame j hj]
  have hfind : ∀ name, t.find? f name = s.find? f name := by
    intro name
    rw [find?, find?, hchain]
    apply List.find?_congr
    intro j hj
    rw [get?, get?, hsame j hj]
  have hfindValue : ∀ name, t.findValue? f name = s.findValue? f name := by
    intro name
    cases name with
    | symbol a => exact hfind a
    | _ => rfl
  have hself : t.frames[f]? = s.frames[f]? := hsame f (by rw [chain_eq hf]; exact .head _)
  refine ⟨?_, hfindValue, ?_, ?_, ?_, ?_, ?_⟩
  · intro name
    cases name with
    | symbol a =>
      have hlookup : t.lookup? f a = s.lookup? f a := by
        rw [lookup?, lookup?, hfind]
        cases hg : s.find? f a with
        | none => rfl
        | some g =>
          have hmem : g ∈ s.chain f := List.mem_of_find?_eq_some hg
          rw [Option.bind_some, Option.bind_some, get?, get?, hsame g hmem]
      rw [lookupValue, lookupValue, hlookup]
    | _ => rfl
  · intro name
    rw [contains, contains, hfindValue]
  · rw [root, root, hchain]
  · rw [depth, depth, hchain]
  · rw [frameText?, frameText?, frameText, frameText, hself]
  · have htext : t.chainText f = s.chainText f := by
      unfold chainText
      rw [hread fun frame => frame.map (·.bindingsText)]
    rw [chainText?, chainText?, htext, ← List.head?_filterMap, ← List.head?_filterMap,
      hread fun frame => frame.bind (·.fault?)]

theorem answersAlike_apply {c : Change} {s : Store} {f : FrameId} (hf : f < s.frames.size)
    (hc : ∀ i, c.frame? = some i → i ∉ s.chain f) :
    (c.apply s).2.chain f = s.chain f ∧ AnswersAlike s (c.apply s).2 f := by
  have hframe : ∀ j < s.frames.size,
      (c.apply s).2.frames[j]? = s.frames[j]?.map (·.bindAll (c.writesTo j)) := by
    intro j hj
    rw [History.frames_apply, if_neg (Nat.ne_of_lt hj)]
  have hchain : (c.apply s).2.chain f = s.chain f := by
    apply chain_congr
    intro j hj
    rw [SameOuter, hframe j (Nat.lt_of_le_of_lt hj hf), Option.map_map]
    congr 1
    funext frame
    exact Frame.outer_bindAll frame _
  refine ⟨hchain, answersAlike_of_chain hf hchain ?_⟩
  intro j hj
  rw [hframe j (mem_chain hj).2, Change.writesTo_of_ne fun he => hc j he hj]
  exact Option.map_id_apply

theorem AnswersAlike.trans {s t u : Store} {f : FrameId} (h : AnswersAlike s t f)
    (k : AnswersAlike t u f) : AnswersAlike s u f where
  lookup name := (k.lookup name).trans (h.lookup name)
  find name := (k.find name).trans (h.find name)
  contains name := (k.contains name).trans (h.contains name)
  root := k.root.trans h.root
  depth := k.depth.trans h.depth
  text := k.text.trans h.text
  chainText := k.chainText.trans h.chainText

namespace History

theorem answersAlike_after {s : Store} {f : FrameId} (hf : f < s.frames.size) (h : History)
    (hh : ∀ c ∈ h, ∀ i, c.frame? = some i → i ∉ s.chain f) : AnswersAlike s (h.after s) f := by
  induction h generalizing s with
  | nil => exact ⟨fun _ => rfl, fun _ => rfl, fun _ => rfl, rfl, rfl, rfl, rfl⟩
  | cons c h ih =>
    rw [List.forall_mem_cons] at hh
    obtain ⟨hchain, hstep⟩ := answersAlike_apply hf hh.1
    have hf' : f < (c.apply s).2.frames.size := by
      apply And.right
      apply mem_chain (i := f)
      rw [hchain, chain_eq hf]
      exact .head _
    apply hstep.trans
    apply ih hf'
    rw [hchain]
    exact hh.2

/-- Whatever was done to a forest of frames, the nearest frame that was ever written to under a
name answers for the name, with what was last written to it; without one the name is unbound. A
frame lists its names as they first came, each once. A change fails only at a name that is no
symbol, what it has written before that stays, and frames that do not continue in its frame answer
as before. -/
theorem answers_by_last_writes {h : History} (hh : h.Feasible) (f : FrameId) :
    let s := h.after .empty
    (∀ name g, h.Nearest name f g →
      (∃ v, (h.writesTo g).reverse.lookup name = some v ∧
        s.lookupValue f (.symbol name) = .ok v) ∧
      s.findValue? f (.symbol name) = some g ∧ s.contains f (.symbol name) = true) ∧
    (∀ name, (¬ ∃ g, h.Nearest name f g) →
      s.lookupValue f (.symbol name) = .error (.unbound (.symbol name)) ∧
      s.findValue? f (.symbol name) = none ∧ s.contains f (.symbol name) = false) ∧
    (∀ c : Change, (c.apply s).1 = (c.names.find? (!·.isSymbol)).map .unbindable) ∧
    (f < h.outers.length →
      (∃ frame, s.frames[f]? = some frame ∧
        frame.bindings.map (·.1) = ((h.writesTo f).map (·.1)).eraseDups ∧
        (frame.bindings.map (·.1)).Nodup) ∧
      ∀ more : History, (∀ c ∈ more, ∀ i, c.frame? = some i → i ∉ s.chain f) →
        s.AnswersAlike (more.after s) f) := by
  intro s
  refine ⟨?_, ?_, fun c => c.fault_apply s, ?_⟩
  · intro name g hg
    have hfind : s.find? f name = some g := hh.find?_of_nearest hg
    have hbound : (s.get? g name).isSome :=
      List.find?_some (p := fun j => (s.get? j name).isSome) hfind
    obtain ⟨v, hv⟩ := Option.isSome_iff_exists.mp hbound
    refine ⟨⟨v, ?_, ?_⟩, hfind, ?_⟩
    · rw [← hh.get?_after]
      exact hv
    · rw [lookupValue, lookup?, hfind, Option.bind_some, hv]
    · rw [contains, findValue?, hfind]
      rfl
  · intro name hnone
    have hfind : s.find? f name = none := by
      rw [Option.eq_none_iff_forall_not_mem]
      intro g hg
      exact hnone ⟨g, hh.nearest_of_find? hg⟩
    refine ⟨?_, hfind, ?_⟩
    · rw [lookupValue, lookup?, hfind, Option.bind_none]
    · rw [contains, findValue?, hfind]
      rfl
  · intro hf
    have hframe := hh.frames_after f
    rw [List.getElem?_eq_getElem hf, Option.map_some] at hframe
    refine ⟨⟨_, hframe, Frame.names_bindAll _ _, Frame.nodup_bindAll (f := ⟨_, []⟩) .nil _⟩, ?_⟩
    intro more hmore
    exact answersAlike_after (Array.getElem?_eq_some_iff.mp hframe).1 more hmore

theorem answers_by_last_writes_update :
    let one : Value := .number ⟨0x3ff0000000000000⟩
    let h : History := [.root, .extend 0, .set 0 (.symbol "a") one,
      .update 1 [(.symbol "b", one), (one, .nil), (.symbol "c", .nil)], .set 0 (.symbol "a") .nil]
    let s := h.after .empty
    h.Feasible ∧ s.lookupValue 1 (.symbol "a") = .ok .nil ∧ s.findValue? 1 (.symbol "a") = some 0 ∧
      s.lookupValue 1 (.symbol "c") = .error (.unbound (.symbol "c")) := by
  intro one h s
  have hh : h.Feasible := by
    refine .snoc (.snoc (.snoc (.snoc (.snoc .nil ?_) ?_) ?_) ?_) ?_
    all_goals
      intro i hi
      cases hi
      try decide
  obtain ⟨hbound, hunbound, -⟩ := answers_by_last_writes hh 1
  have ha : h.Nearest "a" 1 0 := .outward (by decide) rfl (.here (by decide))
  have hc : ¬ ∃ g, h.Nearest "c" 1 g := by
    rintro ⟨g, hw | ⟨-, ho, hg⟩⟩
    · exact absurd hw (by decide)
    · obtain rfl : 0 = _ := Option.some.inj (Option.some.inj ho)
      rcases hg with hw | ⟨-, ho, -⟩
      · exact absurd hw (by decide)
      · cases ho
  obtain ⟨⟨v, hv, hlookup⟩, hfind, -⟩ := hbound "a" 0 ha
  obtain rfl : Value.nil = v := Option.some.inj hv
  exact ⟨hh, hlookup, hfind, (hunbound "c" hc).1⟩

end History

end Store

end ScopedLisp

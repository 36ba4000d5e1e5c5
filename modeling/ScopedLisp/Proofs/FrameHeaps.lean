import ScopedLisp.Proofs.Sessions

namespace ScopedLisp

open Text

def Value.Anchored (s : Store) (r : FrameId) (v : Value) : Prop :=
  ∀ params body home, (Value.closure params body home).Within v →
    ∃ i < s.frames.size, home = some i ∧ s.root i = r

namespace Store

/-- Going outward by nothing but the outer links visits these frames and then comes to an end. -/
inductive Walk (s : Store) : FrameId → List FrameId → Prop where
  | last {i : FrameId} (ho : s.frames[i]?.map (·.outer) = some none) : Walk s i [i]
  | outward {i o : FrameId} {js : List FrameId} (ho : s.frames[i]?.map (·.outer) = some (some o))
      (h : Walk s o js) : Walk s i (i :: js)

/-- What the frame answers is what is met on the walk through these frames. -/
structure AnswersAlong (s : Store) (i : FrameId) (js : List FrameId) : Prop where
  find : ∀ name, s.find? i name = js.find? fun j => (s.get? j name).isSome
  lookup : ∀ name, s.lookup? i name = js.findSome? (s.get? · name)
  root : js.getLast? = some (s.root i)
  depth : js.length = s.depth i + 1
  chainText : ∃ texts : List String, texts.length = s.depth i + 1 ∧
    List.Forall₂ (fun j text => ∃ f, s.frames[j]? = some f ∧ text = f.bindingsText) js texts ∧
    s.chainText i = "<Environment chain: " ++ joinWith " -> " texts ++ ">"

structure Grounded (s : Store) : Prop where
  outer_lt : ∀ (i : FrameId) (f : Frame) (o : FrameId),
    s.frames[i]? = some f → f.outer = some o → o < i
  bound : ∀ (i : FrameId) (f : Frame),
    s.frames[i]? = some f → ∀ b ∈ f.bindings, b.2.Anchored s (s.root i)

structure Under (s : Store) (i r : FrameId) : Prop where
  lt : i < s.frames.size
  root : s.root i = r

structure GrowsUnder (r : FrameId) (s t : Store) : Prop extends s.GrowsTo t where
  new_root : ∀ j, s.frames.size ≤ j → j < t.frames.size → t.root j = r

variable {s t u : Store} {i j r : FrameId}

theorem Walk.unique {js ks : List FrameId} (h : s.Walk i js) (k : s.Walk i ks) : ks = js := by
  induction h generalizing ks with
  | last ho =>
    cases k with
    | last => rfl
    | outward ho' => simp [ho] at ho'
  | outward ho _ ih =>
    cases k with
    | last ho' => simp [ho] at ho'
    | outward ho' hk =>
      rw [ho] at ho'
      cases ho'
      rw [ih hk]

namespace Grounded

theorem next?_eq (hs : s.Grounded) (i : FrameId) : s.next? i = s.frames[i]?.bind (·.outer) := by
  rw [next?]
  cases ho : s.frames[i]?.bind (·.outer) with
  | none => rfl
  | some o =>
    obtain ⟨f, hf, ho⟩ := Option.bind_eq_some_iff.mp ho
    simpa [Option.filter] using hs.outer_lt i f o hf ho

theorem walk_chain (hs : s.Grounded) (hi : i < s.frames.size) : s.Walk i (s.chain i) := by
  induction i using Nat.strongRecOn with
  | _ i ih =>
    have hf : s.frames[i]? = some s.frames[i] := Array.getElem?_eq_getElem hi
    rw [chain_eq hi, hs.next?_eq, hf, Option.bind_some]
    cases ho : s.frames[i].outer with
    | none => exact .last (by rw [hf, Option.map_some, ho])
    | some o =>
      have hlt := hs.outer_lt i _ o hf ho
      exact .outward (by rw [hf, Option.map_some, ho]) (ih o hlt (Nat.lt_trans hlt hi))

end Grounded

theorem chain_ne_nil (hi : i < s.frames.size) : s.chain i ≠ [] := by
  rw [chain_eq hi]
  exact List.cons_ne_nil _ _

theorem find?_bind_eq_findSome? {α β : Type} (f : α → Option β) (l : List α) :
    (l.find? fun a => (f a).isSome).bind f = l.findSome? f := by
  induction l with
  | nil => rfl
  | cons a l ih =>
    rw [List.find?_cons, List.findSome?_cons]
    cases h : f a with
    | none => exact ih
    | some b => exact h

theorem forall₂_bindingsText {js : List FrameId} (h : ∀ j ∈ js, j < s.frames.size) :
    List.Forall₂ (fun j text => ∃ f, s.frames[j]? = some f ∧ text = f.bindingsText) js
      (js.filterMap fun j => s.frames[j]?.map (·.bindingsText)) := by
  induction js with
  | nil => exact .nil
  | cons j js ih =>
    rw [List.forall_mem_cons] at h
    obtain ⟨hj, hjs⟩ := h
    have hf : s.frames[j]? = some s.frames[j] := Array.getElem?_eq_getElem hj
    rw [List.filterMap_cons, hf, Option.map_some]
    exact .cons ⟨_, hf, rfl⟩ (ih hjs)

theorem length_chain (hi : i < s.frames.size) : (s.chain i).length = s.depth i + 1 := by
  have hpos := List.length_pos_of_ne_nil (chain_ne_nil hi)
  rw [Store.depth]
  lia

theorem answersAlong_chain (hi : i < s.frames.size) : s.AnswersAlong i (s.chain i) where
  find _ := rfl
  lookup name := find?_bind_eq_findSome? (s.get? · name) (s.chain i)
  root := by
    rw [Store.root, List.getLast?_eq_some_getLast (chain_ne_nil hi)]
    rfl
  depth := length_chain hi
  chainText := by
    have htexts := forall₂_bindingsText fun j hj => (mem_chain (s := s) (i := i) hj).2
    exact ⟨_, htexts.length_eq.symm.trans (length_chain hi), htexts, rfl⟩

theorem Under.mono (h : s.Under i r) (hg : s.GrowsTo t) : t.Under i r where
  lt := Nat.lt_of_lt_of_le h.lt hg.size_le
  root := by rw [hg.root_eq h.lt, h.root]

theorem root_of_next? {o : FrameId} (ho : s.next? i = some o) (hlt : o < s.frames.size) :
    s.root i = s.root o := by
  have hi : i < s.frames.size := by
    apply Nat.lt_of_not_le
    intro hi
    simp [next?, Array.getElem?_eq_none hi] at ho
  rw [root, chain_eq hi, ho, Option.map_some, Option.getD_some, root,
    List.getLast?_cons_of_ne_nil (chain_ne_nil hlt)]
  simp [List.getLast?_eq_some_getLast (chain_ne_nil hlt)]

theorem Under.extend (h : s.Under i r) : (s.extend i).2.Under s.frames.size r where
  lt := by simp
  root := by
    have hi := h.mono (growsTo_extend s i)
    have hnext : (s.extend i).2.next? s.frames.size = some i := by
      rw [next?, frames_extend_self]
      simpa [Option.filter] using h.lt
    rw [root_of_next? hnext hi.lt, hi.root]

theorem under_self (h : s.frames[i]?.map (·.outer) = some none) : s.Under i i := by
  obtain ⟨f, hf, ho⟩ := Option.map_eq_some_iff.mp h
  have hi : i < s.frames.size := (Array.getElem?_eq_some_iff.mp hf).1
  have hnext : s.next? i = none := by
    rw [next?, hf, Option.bind_some, ho]
    rfl
  refine ⟨hi, ?_⟩
  rw [root, chain_eq hi, hnext]
  rfl

theorem Under.of_mem_chain (h : s.Under i r) (hj : j ∈ s.chain i) : s.Under j r := by
  induction i using Nat.strongRecOn with
  | _ i ih =>
    rw [chain_eq h.lt, List.mem_cons] at hj
    rcases hj with rfl | hj
    · exact h
    · cases ho : s.next? i with
      | none => simp [ho] at hj
      | some o =>
        rw [ho, Option.map_some, Option.getD_some] at hj
        have hlt : o < s.frames.size := Nat.lt_trans (next?_lt ho) h.lt
        have hroot : s.root o = r := by rw [← root_of_next? ho hlt, h.root]
        exact ih o (next?_lt ho) ⟨hlt, hroot⟩ hj

namespace GrowsUnder

theorem refl (s : Store) : s.GrowsUnder r s where
  toGrowsTo := .refl s
  new_root _ hj hlt := absurd hj (Nat.not_le_of_lt hlt)

theorem trans (h : s.GrowsUnder r t) (g : t.GrowsUnder r u) : s.GrowsUnder r u where
  toGrowsTo := h.toGrowsTo.trans g.toGrowsTo
  new_root j hj hlt := by
    by_cases ht : j < t.frames.size
    · rw [g.root_eq ht, h.new_root j hj ht]
    · exact g.new_root j (Nat.le_of_not_lt ht) hlt

theorem of_growsTo (h : s.GrowsTo t) (hsize : t.frames.size = s.frames.size) :
    s.GrowsUnder r t where
  toGrowsTo := h
  new_root _ hj hlt := absurd hj (Nat.not_le_of_lt (hsize ▸ hlt))

theorem extend (h : s.Under i r) : s.GrowsUnder r (s.extend i).2 where
  toGrowsTo := growsTo_extend s i
  new_root j hj hlt := by
    rw [size_extend] at hlt
    obtain rfl : j = s.frames.size := by lia
    exact h.extend.root

end GrowsUnder

end Store

namespace Value

variable {s t : Store} {r : FrameId}

theorem Anchored.mono {v : Value} (h : v.Anchored s r) (hg : s.GrowsTo t) : v.Anchored t r := by
  intro params body home hw
  obtain ⟨i, hi, hhome, hroot⟩ := h params body home hw
  exact ⟨i, Nat.lt_of_lt_of_le hi hg.size_le, hhome, by rw [hg.root_eq hi, hroot]⟩

theorem anchored_list {vs : List Value} (h : ∀ v ∈ vs, v.Anchored s r) :
    (Value.list vs).Anchored s r := by
  rintro params body home (_ | ⟨hv, hw⟩)
  exact h _ hv params body home hw

theorem anchored_number (n : Number) : (Value.number n).Anchored s r := by
  rintro params body home ⟨⟩

theorem anchored_nil : Value.nil.Anchored s r := by
  rintro params body home ⟨⟩

theorem anchored_closure {i : FrameId} (hi : s.Under i r) (params body : List Value) :
    (Value.closure params body (some i)).Anchored s r := by
  rintro _ _ _ ⟨⟩
  exact ⟨i, hi.lt, rfl, hi.root⟩

end Value

namespace Store.Grounded

variable {s t : Store} {i r : FrameId} {name : String} {v : Value}

theorem lookup? (hs : s.Grounded) (hi : s.Under i r) (hv : s.lookup? i name = some v) :
    v.Anchored s r := by
  obtain ⟨j, hj, hv⟩ := Option.bind_eq_some_iff.mp hv
  obtain ⟨f, hf, hb⟩ := Option.bind_eq_some_iff.mp hv
  obtain ⟨before, after, hbindings, -⟩ := List.lookup_eq_some_iff.mp hb
  have hroot := (hi.of_mem_chain (List.mem_of_find?_eq_some hj)).root
  exact hroot ▸ hs.bound j f hf (name, v) (by simp [hbindings])

theorem of_frames_eq (hs : s.Grounded) (h : t.frames = s.frames) : t.Grounded where
  outer_lt i f o hf := hs.outer_lt i f o (h ▸ hf)
  bound i f hf b hb := by
    have hg := growsTo_of_frames_eq h
    rw [h] at hf
    have hi : i < s.frames.size := (Array.getElem?_eq_some_iff.mp hf).1
    rw [hg.root_eq hi]
    exact (hs.bound i f hf b hb).mono hg

theorem set (hs : s.Grounded) (hi : s.Under i r) (name : String) (hv : v.Anchored s r) :
    (s.set i name v).Grounded where
  outer_lt j f o hf ho := by
    rw [frames_set] at hf
    split at hf
    · obtain ⟨g, hg, rfl⟩ := Option.map_eq_some_iff.mp hf
      exact hs.outer_lt j g o hg ho
    · exact hs.outer_lt j f o hf ho
  bound j f hf b hb := by
    have hg := growsTo_set s i name v
    have hj : j < s.frames.size := by
      rw [← size_set s i name v]
      exact (Array.getElem?_eq_some_iff.mp hf).1
    rw [hg.root_eq hj]
    rw [frames_set] at hf
    split at hf
    · next hij =>
      obtain ⟨g, hg', rfl⟩ := Option.map_eq_some_iff.mp hf
      rcases Named.mem_put hb with rfl | hb
      · rw [← hij, hi.root]
        exact hv.mono hg
      · exact (hs.bound j g hg' b hb).mono hg
    · exact (hs.bound j f hf b hb).mono hg

theorem allocate (hs : s.Grounded) {outer : Option FrameId}
    (houter : ∀ o, outer = some o → o < s.frames.size) : (s.allocate outer).2.Grounded where
  outer_lt j f o hf ho := by
    rw [frames_allocate] at hf
    split at hf
    · next hj =>
      cases hf
      exact hj ▸ houter o ho
    · exact hs.outer_lt j f o hf ho
  bound j f hf b hb := by
    have hg := growsTo_allocate s outer
    rw [frames_allocate] at hf
    split at hf
    · cases hf
      nomatch hb
    · have hj : j < s.frames.size := (Array.getElem?_eq_some_iff.mp hf).1
      rw [hg.root_eq hj]
      exact (hs.bound j f hf b hb).mono hg

theorem extend (hs : s.Grounded) (hi : i < s.frames.size) : (s.extend i).2.Grounded :=
  hs.allocate fun _ ho => Option.some.inj ho ▸ hi

end Store.Grounded

end ScopedLisp

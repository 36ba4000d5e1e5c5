import ScopedLisp.Evaluation

namespace ScopedLisp

def Frame.bindAll (f : Frame) (bound : List (String × Value)) : Frame :=
  bound.foldl (fun f b => f.set b.1 b.2) f

theorem Frame.bindAll_append (f : Frame) (bound more : List (String × Value)) :
    f.bindAll (bound ++ more) = (f.bindAll bound).bindAll more :=
  List.foldl_append

@[simp] theorem Frame.outer_bindAll (f : Frame) (bound : List (String × Value)) :
    (f.bindAll bound).outer = f.outer := by
  induction bound generalizing f with
  | nil => rfl
  | cons b bound ih => exact ih (f.set b.1 b.2)

theorem Frame.get?_bindAll (f : Frame) (bound : List (String × Value)) (name : String) :
    (f.bindAll bound).get? name = (bound.reverse.lookup name).or (f.get? name) := by
  induction bound generalizing f with
  | nil => rfl
  | cons b bound ih =>
    rw [bindAll, List.foldl_cons, ← bindAll, ih, get?_set, List.reverse_cons, List.lookup_append,
      Option.or_assoc, Named.lookup_cons]
    congr 1
    split <;> rfl

theorem Frame.isSome_get?_bindAll {f : Frame} {bound : List (String × Value)} {name : String} :
    ((f.bindAll bound).get? name).isSome ↔ name ∈ bound.map (·.1) ∨ (f.get? name).isSome := by
  induction bound generalizing f with
  | nil => simp [bindAll]
  | cons b bound ih =>
    have hstep := ih (f := f.set b.1 b.2)
    rw [get?_set] at hstep
    rw [bindAll, List.foldl_cons, ← bindAll, hstep, List.map_cons, List.mem_cons]
    by_cases hb : name = b.1
    · simp [hb]
    · simp [hb]

namespace Store

def next? (s : Store) (i : FrameId) : Option FrameId :=
  (s.frames[i]?.bind (·.outer)).filter (· < i)

theorem next?_lt {s : Store} {i o : FrameId} (h : s.next? i = some o) : o < i := by
  simpa using (Option.filter_eq_some_iff.mp h).2

theorem chain_eq {s : Store} {i : FrameId} (hi : i < s.frames.size) :
    s.chain i = i :: ((s.next? i).map s.chain).getD [] := by
  rw [chain]
  simp only [next?, Array.getElem?_eq_getElem hi, Option.bind_some]
  cases ho : s.frames[i].outer with
  | none => rfl
  | some o => by_cases h : o < i <;> simp [Option.filter, h]

theorem chain_of_size_le {s : Store} {i : FrameId} (hi : s.frames.size ≤ i) : s.chain i = [] := by
  rw [chain, Array.getElem?_eq_none hi]

theorem mem_chain {s : Store} {i j : FrameId} (h : j ∈ s.chain i) :
    j ≤ i ∧ j < s.frames.size := by
  induction i using Nat.strongRecOn with
  | _ i ih =>
    by_cases hi : i < s.frames.size
    · rw [chain_eq hi, List.mem_cons] at h
      rcases h with rfl | h
      · exact ⟨Nat.le_refl _, hi⟩
      · cases ho : s.next? i with
        | none => simp [ho] at h
        | some o =>
          have hlt := next?_lt ho
          rw [ho, Option.map_some, Option.getD_some] at h
          obtain ⟨hle, hj⟩ := ih o hlt h
          exact ⟨Nat.le_trans hle (Nat.le_of_lt hlt), hj⟩
    · rw [chain_of_size_le (Nat.le_of_not_lt hi)] at h
      cases h

theorem get?_of_size_le {s : Store} {i : FrameId} (hi : s.frames.size ≤ i) (name : String) :
    s.get? i name = none := by
  simp [get?, Array.getElem?_eq_none hi]

theorem lookup?_eq (s : Store) (i : FrameId) (name : String) :
    s.lookup? i name = (s.get? i name).or ((s.next? i).bind (s.lookup? · name)) := by
  by_cases hi : i < s.frames.size
  · simp only [lookup?, find?, chain_eq hi, List.find?_cons]
    cases hg : s.get? i name with
    | some v => simp [hg]
    | none => cases s.next? i <;> simp
  · have hs := Nat.le_of_not_lt hi
    simp [lookup?, find?, chain_of_size_le hs, get?_of_size_le hs, next?, Array.getElem?_eq_none hs]

theorem find?_eq (s : Store) (i : FrameId) (name : String) :
    s.find? i name =
      if (s.get? i name).isSome then some i else (s.next? i).bind (s.find? · name) := by
  by_cases hi : i < s.frames.size
  · rw [find?, chain_eq hi, List.find?_cons]
    cases hg : (s.get? i name).isSome with
    | true => rfl
    | false => cases s.next? i <;> rfl
  · have hs := Nat.le_of_not_lt hi
    simp [find?, chain_of_size_le hs, get?_of_size_le hs, next?, Array.getElem?_eq_none hs]

theorem lt_size_of_lookup? {s : Store} {i : FrameId} {name : String} {v : Value}
    (h : s.lookup? i name = some v) : i < s.frames.size := by
  apply Nat.lt_of_not_le
  intro hi
  simp [lookup?, find?, chain_of_size_le hi] at h

theorem lookup?_congr {s t : Store} {i : FrameId} (name : String)
    (h : ∀ j ≤ i, t.frames[j]? = s.frames[j]?) : t.lookup? i name = s.lookup? i name := by
  induction i using Nat.strongRecOn with
  | _ i ih =>
    have hg : t.get? i name = s.get? i name := by simp [get?, h i (Nat.le_refl i)]
    have hn : t.next? i = s.next? i := by simp [next?, h i (Nat.le_refl i)]
    rw [lookup?_eq, lookup?_eq, hg, hn]
    cases ho : s.next? i with
    | none => rfl
    | some o =>
      have hlt := next?_lt ho
      simp only [Option.bind_some]
      rw [ih o hlt fun j hj => h j (by lia)]

def SameOuter (s t : Store) (i : FrameId) : Prop :=
  t.frames[i]?.map (·.outer) = s.frames[i]?.map (·.outer)

theorem SameOuter.lt_size_iff {s t : Store} {i : FrameId} (h : SameOuter s t i) :
    i < t.frames.size ↔ i < s.frames.size := by
  have hsome := congrArg Option.isSome h
  rw [Bool.eq_iff_iff] at hsome
  simpa using hsome

theorem SameOuter.next?_eq {s t : Store} {i : FrameId} (h : SameOuter s t i) :
    t.next? i = s.next? i := by
  have hjoin : ∀ o? : Option Frame, o?.bind (·.outer) = (o?.map (·.outer)).join := by
    intro o?
    cases o? <;> rfl
  rw [next?, next?, hjoin, hjoin, h]

theorem chain_congr {s t : Store} {i : FrameId} (h : ∀ j ≤ i, SameOuter s t j) :
    t.chain i = s.chain i := by
  induction i using Nat.strongRecOn with
  | _ i ih =>
    have hi := h i (Nat.le_refl i)
    by_cases hs : i < s.frames.size
    · rw [chain_eq hs, chain_eq (hi.lt_size_iff.mpr hs), hi.next?_eq]
      cases ho : s.next? i with
      | none => rfl
      | some o =>
        have hlt := next?_lt ho
        rw [Option.map_some, Option.map_some, ih o hlt fun j hj => h j (by lia)]
    · have ht := fun ht => hs (hi.lt_size_iff.mp ht)
      rw [chain_of_size_le (Nat.le_of_not_lt hs), chain_of_size_le (Nat.le_of_not_lt ht)]

theorem depth_congr {s t : Store} {i : FrameId} (h : ∀ j ≤ i, SameOuter s t j) :
    t.depth i = s.depth i := by
  rw [depth, depth, chain_congr h]

section set

variable (s : Store) (i : FrameId) (name : String) (v : Value)

@[simp] theorem size_set : (s.set i name v).frames.size = s.frames.size := by simp [set]

theorem frames_set (j : FrameId) :
    (s.set i name v).frames[j]? = if i = j then s.frames[j]?.map (·.set name v) else s.frames[j]? := by
  simp [set, Array.getElem?_modify]

theorem frames_set_ne {j : FrameId} (h : j ≠ i) : (s.set i name v).frames[j]? = s.frames[j]? := by
  rw [frames_set, if_neg h.symm]

theorem sameOuter_set (j : FrameId) : SameOuter s (s.set i name v) j := by
  rw [SameOuter, frames_set]
  split <;> cases s.frames[j]? <;> rfl

theorem outer_set (j : FrameId) :
    (s.set i name v).frames[j]?.bind (·.outer) = s.frames[j]?.bind (·.outer) := by
  rw [frames_set]
  split <;> cases s.frames[j]? <;> rfl

@[simp] theorem next?_set (j : FrameId) : (s.set i name v).next? j = s.next? j := by
  rw [next?, outer_set, next?]

theorem get?_set {i : FrameId} (hi : i < s.frames.size) (other : String) :
    (s.set i name v).get? i other = if other = name then some v else s.get? i other := by
  simp [get?, frames_set, Array.getElem?_eq_getElem hi]

theorem get?_set_ne {j : FrameId} (h : j ≠ i) (other : String) :
    (s.set i name v).get? j other = s.get? j other := by
  simp [get?, frames_set_ne s i name v h]

theorem get?_set_eq (j : FrameId) (other : String) :
    (s.set i name v).get? j other =
      if j = i ∧ other = name ∧ j < s.frames.size then some v else s.get? j other := by
  by_cases hj : j = i
  · subst hj
    by_cases hlt : j < s.frames.size
    · rw [get?_set s name v hlt]
      simp [hlt]
    · rw [get?_of_size_le (by simpa using hlt), get?_of_size_le (Nat.le_of_not_lt hlt)]
      simp [hlt]
  · rw [get?_set_ne s i name v hj]
    simp [hj]

theorem lookup?_set_self {i : FrameId} (hi : i < s.frames.size) (other : String) :
    (s.set i name v).lookup? i other = if other = name then some v else s.lookup? i other := by
  rw [lookup?_eq, get?_set s name v hi, next?_set, lookup?_eq s]
  split
  · rfl
  · cases ho : s.next? i with
    | none => rfl
    | some o =>
      have hlt := next?_lt ho
      simp only [Option.bind_some]
      rw [lookup?_congr other fun j hj => frames_set_ne s i name v (by lia)]

end set

section allocate

variable (s : Store) (outer : Option FrameId)

@[simp] theorem size_allocate : (s.allocate outer).2.frames.size = s.frames.size + 1 := by
  simp [allocate]

theorem frames_allocate (j : FrameId) :
    (s.allocate outer).2.frames[j]? =
      if j = s.frames.size then some ⟨outer, []⟩ else s.frames[j]? := by
  simp [allocate, Array.getElem?_push]

theorem frames_allocate_of_lt {j : FrameId} (h : j < s.frames.size) :
    (s.allocate outer).2.frames[j]? = s.frames[j]? := by
  simp [allocate, Array.getElem?_push, Nat.ne_of_lt h]

theorem frames_allocate_self :
    (s.allocate outer).2.frames[s.frames.size]? = some ⟨outer, []⟩ := by
  simp [allocate]

end allocate

section extend

variable (s : Store) (i : FrameId)

@[simp] theorem size_extend : (s.extend i).2.frames.size = s.frames.size + 1 :=
  size_allocate s (some i)

theorem frames_extend (j : FrameId) :
    (s.extend i).2.frames[j]? =
      if j = s.frames.size then some ⟨some i, []⟩ else s.frames[j]? :=
  frames_allocate s (some i) j

theorem frames_extend_of_lt {j : FrameId} (h : j < s.frames.size) :
    (s.extend i).2.frames[j]? = s.frames[j]? :=
  frames_allocate_of_lt s (some i) h

theorem frames_extend_self : (s.extend i).2.frames[s.frames.size]? = some ⟨some i, []⟩ :=
  frames_allocate_self s (some i)

theorem depth_extend {s : Store} {i : FrameId} (hi : i < s.frames.size) :
    (s.extend i).2.depth s.frames.size = s.depth i + 1 := by
  have hsame : (s.extend i).2.chain i = s.chain i :=
    chain_congr fun j hj => congrArg _ (frames_extend_of_lt s i (by lia))
  have hnext : (s.extend i).2.next? s.frames.size = some i := by
    rw [next?, frames_extend_self]
    simpa [Option.filter] using hi
  rw [depth, depth, chain_eq (by simp), hnext, Option.map_some, hsame, chain_eq hi]
  simp

end extend

structure GrowsTo (s t : Store) : Prop where
  size_le : s.frames.size ≤ t.frames.size
  outer : ∀ i < s.frames.size, SameOuter s t i

section growth

variable {s t u : Store} {i : FrameId}

theorem GrowsTo.chain_eq (h : s.GrowsTo t) (hi : i < s.frames.size) : t.chain i = s.chain i :=
  chain_congr fun j hj => h.outer j (Nat.lt_of_le_of_lt hj hi)

theorem GrowsTo.depth_eq (h : s.GrowsTo t) (hi : i < s.frames.size) : t.depth i = s.depth i := by
  rw [depth, depth, h.chain_eq hi]

theorem GrowsTo.root_eq (h : s.GrowsTo t) (hi : i < s.frames.size) : t.root i = s.root i := by
  rw [root, root, h.chain_eq hi]

theorem GrowsTo.refl (s : Store) : s.GrowsTo s := ⟨Nat.le_refl _, fun _ _ => rfl⟩

theorem GrowsTo.trans (h : s.GrowsTo t) (g : t.GrowsTo u) : s.GrowsTo u where
  size_le := Nat.le_trans h.size_le g.size_le
  outer i hi := Eq.trans (g.outer i (Nat.lt_of_lt_of_le hi h.size_le)) (h.outer i hi)

theorem growsTo_of_frames_eq (h : t.frames = s.frames) : s.GrowsTo t where
  size_le := Nat.le_of_eq (by rw [h])
  outer i _ := by rw [SameOuter, h]

theorem growsTo_set (s : Store) (i : FrameId) (a : String) (v : Value) : s.GrowsTo (s.set i a v) where
  size_le := by simp
  outer j _ := sameOuter_set s i a v j

theorem growsTo_allocate (s : Store) (outer : Option FrameId) : s.GrowsTo (s.allocate outer).2 where
  size_le := by simp
  outer _ hj := congrArg _ (frames_allocate_of_lt s outer hj)

theorem growsTo_extend (s : Store) (i : FrameId) : s.GrowsTo (s.extend i).2 :=
  growsTo_allocate s (some i)

end growth

section filled

variable {s : Store} {n o : FrameId} {bound : List (String × Value)}

theorem next?_of_filled (hn : s.frames[n]? = some (Frame.bindAll ⟨some o, []⟩ bound)) (ho : o < n) :
    s.next? n = some o := by
  rw [next?, hn, Option.bind_some, Frame.outer_bindAll]
  simpa [Option.filter] using ho

theorem get?_of_filled {outer : Option FrameId}
    (hn : s.frames[n]? = some (Frame.bindAll ⟨outer, []⟩ bound)) (name : String) :
    (s.get? n name).isSome ↔ name ∈ bound.map (·.1) := by
  rw [get?, hn, Option.bind_some, Frame.isSome_get?_bindAll]
  exact or_iff_left Bool.false_ne_true

end filled

end Store

end ScopedLisp

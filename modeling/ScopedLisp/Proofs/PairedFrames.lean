import ScopedLisp.Proofs.CorrespondingRuns

namespace ScopedLisp

theorem Frame.get?_bindAll_rel {T : String → String → Prop} {V : Value → Value → Prop}
    {bs bs' : List (String × Value)} (h : BindingsAlike T V bs bs') {a a' : String}
    (ha : ∀ b b', T b b' → (a = b ↔ a' = b')) {f f' : Frame}
    (hf : Option.Rel V (f.get? a) (f'.get? a')) :
    Option.Rel V ((f.bindAll bs).get? a) ((f'.bindAll bs').get? a') := by
  induction h generalizing f f' with
  | nil => exact hf
  | @cons b b' bs bs' hb _ ih =>
    apply ih
    have hn := ha _ _ hb.1
    rw [get?_set, get?_set]
    by_cases hab : a = b.1
    · rw [if_pos hab, if_pos (hn.mp hab)]
      exact .some hb.2
    · rw [if_neg hab, if_neg fun h => hab (hn.mpr h)]
      exact hf

namespace Correspondence

section oneToOne

variable {c : Correspondence}

structure OneToOne (w : c.World) (s s' : Store) : Prop where
  listens : s.events.isSome = s'.events.isSome
  lt : ∀ {i i' k}, w i i' k → i < s.frames.size ∧ i' < s'.frames.size
  same_iff : ∀ {i i' k j j' l}, w i i' k → w j j' l → (i = j ↔ i' = j')
  kind_eq : ∀ {i i' k l}, w i i' k → w i i' l → k = l

namespace OneToOne

variable {w : c.World} {s s' : Store} {i i' : FrameId} {k : c.Kind}

theorem single {n n' : Nat} (l : c.Kind) (hn : n < s.frames.size) (hn' : n' < s'.frames.size)
    (hl : s.events.isSome = s'.events.isSome) : OneToOne (World.single n n' l) s s' where
  listens := hl
  lt := by
    rintro i i' k ⟨rfl, rfl, rfl⟩
    exact ⟨hn, hn'⟩
  same_iff := by
    rintro i i' k j j' m ⟨rfl, rfl, rfl⟩ ⟨rfl, rfl, rfl⟩
    simp
  kind_eq := by
    rintro i i' k m ⟨rfl, rfl, rfl⟩ ⟨-, -, rfl⟩
    rfl

theorem set (h : OneToOne w s s') (i i' : FrameId) (a a' : String) (v v' : Value) :
    OneToOne w (s.set i a v) (s'.set i' a' v') where
  listens := h.listens
  lt hj := by simpa using h.lt hj
  same_iff := h.same_iff
  kind_eq := h.kind_eq

theorem congr {t t' : Store} (h : OneToOne w s s')
    (hf : ∀ i i' k, w i i' k → t.frames[i]? = s.frames[i]? ∧ t'.frames[i']? = s'.frames[i']?)
    (hl : t.events.isSome = t'.events.isSome) : OneToOne w t t' where
  listens := hl
  lt {i i' k} hi := by
    obtain ⟨ht, ht'⟩ := hf i i' k hi
    obtain ⟨hs, hs'⟩ := h.lt hi
    constructor
    · rw [Array.getElem?_eq_getElem hs] at ht
      exact (Array.getElem?_eq_some_iff.mp ht).1
    · rw [Array.getElem?_eq_getElem hs'] at ht'
      exact (Array.getElem?_eq_some_iff.mp ht').1
  same_iff := h.same_iff
  kind_eq := h.kind_eq

theorem add (h : OneToOne w s s') {n n' : Nat} (l : c.Kind)
    (hfree : ∀ j j' m, w j j' m → j ≠ n ∧ j' ≠ n') (hn : n < s.frames.size)
    (hn' : n' < s'.frames.size) : OneToOne (w.add n n' l) s s' where
  listens := h.listens
  lt hj := by
    rcases hj with hj | ⟨rfl, rfl, -⟩
    · exact h.lt hj
    · exact ⟨hn, hn'⟩
  same_iff hi hj := by
    rcases hi with hi | ⟨rfl, rfl, -⟩ <;> rcases hj with hj | ⟨rfl, rfl, -⟩
    · exact h.same_iff hi hj
    · have hi := hfree _ _ _ hi
      simp [hi]
    · have hj := hfree _ _ _ hj
      simp [hj.1.symm, hj.2.symm]
    · simp
  kind_eq hi hj := by
    rcases hi with hi | ⟨rfl, rfl, rfl⟩ <;> rcases hj with hj | ⟨hj, hj', rfl⟩
    · exact h.kind_eq hi hj
    · exact absurd hj (hfree _ _ _ hi).1
    · exact absurd rfl (hfree _ _ _ hj).1
    · rfl

theorem get?_set {V : Value → Value → Prop} (h : OneToOne w s s') (hi : w i i' k)
    {j j' : FrameId} {l : c.Kind} (hj : w j j' l) {a a' b b' : String}
    (hab : j = i → (b = a ↔ b' = a')) {v v' : Value} (hv : V v v')
    (hb : Option.Rel V (s.get? j b) (s'.get? j' b')) :
    Option.Rel V ((s.set i a v).get? j b) ((s'.set i' a' v').get? j' b') := by
  have hji := h.same_iff hj hi
  by_cases he : j = i
  · obtain rfl := he
    obtain rfl := hji.mp rfl
    have hn := hab rfl
    rw [Store.get?_set s a v (h.lt hj).1, Store.get?_set s' a' v' (h.lt hj).2]
    by_cases hba : b = a
    · rw [if_pos hba, if_pos (hn.mp hba)]
      exact .some hv
    · rw [if_neg hba, if_neg fun hb => hba (hn.mpr hb)]
      exact hb
  · rw [Store.get?_set_ne s i a v he, Store.get?_set_ne s' i' a' v' fun he' => he (hji.mpr he')]
    exact hb

end OneToOne

end oneToOne

section paired

variable (c : Correspondence)

inductive Outward (w : c.World) (s s' : Store) (i i' : FrameId) (k : c.Kind) :
    Option FrameId → Option FrameId → Prop where
  | ends : Outward w s s' i i' k none none
  | continues {o o' : FrameId} {l : c.Kind} (ho : w o o' l)
      (hr : ∀ a a', c.Reads k a a' → s.get? i a = none → s'.get? i' a' = none → c.Reads l a a') :
      Outward w s s' i i' k (some o) (some o')

structure Paired (w : c.World) (s s' : Store) : Prop where
  listens : s.events.isSome = s'.events.isSome
  lt : ∀ {i i' k}, w i i' k → i < s.frames.size ∧ i' < s'.frames.size
  same_iff : ∀ {i i' k j j' l}, w i i' k → w j j' l → (i = j ↔ i' = j')
  kind_eq : ∀ {i i' k l}, w i i' k → w i i' l → k = l
  bound : ∀ {i i' k a a'}, w i i' k → c.Reads k a a' →
    Option.Rel (c.Alike w) (s.get? i a) (s'.get? i' a')
  outward : ∀ {i i' k}, w i i' k → c.Outward w s s' i i' k (s.next? i) (s'.next? i')

structure Scoped : Prop where
  read_iff {k : c.Kind} {a a' b b' : String} : c.Binds k b b' → c.Reads k a a' → (a = b ↔ a' = b')
  outside {k l : c.Kind} {f f' : List Value × List Value} {a a' : String} : c.Function k l f f' →
    c.Reads l a a' → .symbol a ∉ f.1 → .symbol a' ∉ f'.1 → c.Reads k a a'

end paired

variable {c : Correspondence} {w : c.World} {s s' : Store} {i i' : FrameId} {k : c.Kind}

theorem Outward.mono {u : c.World} {t t' : Store} {o? o?' : Option FrameId} (hwu : w ≤ u)
    (hg : ∀ a, t.get? i a = none → s.get? i a = none)
    (hg' : ∀ a, t'.get? i' a = none → s'.get? i' a = none)
    (h : c.Outward w s s' i i' k o? o?') : c.Outward u t t' i i' k o? o?' := by
  cases h with
  | ends => exact .ends
  | continues ho hr =>
    apply Outward.continues (hwu _ _ _ ho)
    intro a a' ha hn hn'
    exact hr a a' ha (hg a hn) (hg' a' hn')

namespace Paired

theorem lookup (h : c.Paired w s s') (hi : w i i' k) {a a' : String} (ha : c.Reads k a a') :
    Option.Rel (c.Alike w) (s.lookup? i a) (s'.lookup? i' a') := by
  induction i using Nat.strongRecOn generalizing i' k with
  | _ i ih =>
    have hb := h.bound hi ha
    have ho := h.outward hi
    rw [Store.lookup?_eq s, Store.lookup?_eq s']
    generalize hv : s.get? i a = v?, hv' : s'.get? i' a' = v?' at hb
    cases hb with
    | some hval => exact .some hval
    | none =>
      generalize hn : s.next? i = o?, s'.next? i' = o?' at ho
      cases ho with
      | ends => exact .none
      | continues hw hr => exact ih _ (Store.next?_lt hn) hw (hr a a' ha hv hv')

theorem oneToOne (h : c.Paired w s s') : OneToOne w s s' :=
  ⟨h.listens, h.lt, h.same_iff, h.kind_eq⟩

theorem assign (hc : c.Scoped) (h : c.Paired w s s') (hi : w i i' k) {a a' : String}
    (ha : c.Binds k a a') {v v' : Value} (hv : c.Alike w v v') :
    c.Paired w (s.set i a v) (s'.set i' a' v') where
  listens := h.listens
  lt := (h.oneToOne.set i i' a a' v v').lt
  same_iff := h.same_iff
  kind_eq := h.kind_eq
  bound {j j' l b b'} hj hb := by
    refine h.oneToOne.get?_set hi hj ?_ hv (h.bound hj hb)
    rintro rfl
    obtain rfl := (h.same_iff hj hi).mp rfl
    obtain rfl := h.kind_eq hi hj
    exact hc.read_iff ha hb
  outward {j j' l} hj := by
    rw [Store.next?_set, Store.next?_set]
    have hkept : ∀ (s : Store) (i j : Nat) (a : String) (v : Value) (b : String),
        i < s.frames.size → (s.set i a v).get? j b = none → s.get? j b = none := by
      intro s i j a v b hi hn
      by_cases hj : j = i
      · subst hj
        rw [Store.get?_set s a v hi] at hn
        split at hn
        · simp at hn
        · exact hn
      · rwa [Store.get?_set_ne s i a v hj] at hn
    apply (h.outward hj).mono le_rfl
    · exact fun b => hkept s i j a v b (h.lt hi).1
    · exact fun b => hkept s' i' j' a' v' b (h.lt hi).2

theorem congr {t t' : Store} (h : c.Paired w s s')
    (hf : ∀ i i' k, w i i' k → t.frames[i]? = s.frames[i]? ∧ t'.frames[i']? = s'.frames[i']?)
    (hl : t.events.isSome = t'.events.isSome) : c.Paired w t t' where
  listens := hl
  lt := (h.oneToOne.congr hf hl).lt
  same_iff := h.same_iff
  kind_eq := h.kind_eq
  bound {i i' k a a'} hi ha := by
    obtain ⟨ht, ht'⟩ := hf i i' k hi
    rw [Store.get?, Store.get?, ht, ht']
    exact h.bound hi ha
  outward {i i' k} hi := by
    obtain ⟨ht, ht'⟩ := hf i i' k hi
    have hn : t.next? i = s.next? i := by rw [Store.next?, Store.next?, ht]
    have hn' : t'.next? i' = s'.next? i' := by rw [Store.next?, Store.next?, ht']
    rw [hn, hn']
    apply (h.outward hi).mono le_rfl
    · intro a
      rw [Store.get?, Store.get?, ht]
      exact id
    · intro a
      rw [Store.get?, Store.get?, ht']
      exact id

theorem root {n n' : Nat} (l : c.Kind) (hn : s.frames[n]? = some ⟨none, []⟩)
    (hn' : s'.frames[n']? = some ⟨none, []⟩) (hl : s.events.isSome = s'.events.isSome) :
    c.Paired (World.single n n' l) s s' := by
  have hlt := (Array.getElem?_eq_some_iff.mp hn).1
  have hlt' := (Array.getElem?_eq_some_iff.mp hn').1
  obtain ⟨hl, hlt, hsame, hkind⟩ := OneToOne.single l hlt hlt' hl
  refine ⟨hl, hlt, hsame, hkind, ?_, ?_⟩
  · rintro i i' k a a' ⟨rfl, rfl, rfl⟩ _
    rw [Store.get?, Store.get?, hn, hn']
    exact .none
  · rintro i i' k ⟨rfl, rfl, rfl⟩
    rw [Store.next?, Store.next?, hn, hn']
    exact .ends

theorem add (hc : c.Scoped) (h : c.Paired w s s') {l : c.Kind} {f f' : List Value × List Value}
    (hfun : c.Function k l f f') {bs bs' : List (String × Value)}
    (hbs : BindingsAlike (c.Binds l) (c.Alike w) bs bs') (hps : f.1 = bs.map (.symbol ·.1))
    (hps' : f'.1 = bs'.map (.symbol ·.1)) {n n' o o' : Nat}
    (hfree : ∀ j j' m, w j j' m → j ≠ n ∧ j' ≠ n') (ho : w o o' k) (hon : o < n) (hon' : o' < n')
    (hn : s.frames[n]? = some (Frame.bindAll ⟨some o, []⟩ bs))
    (hn' : s'.frames[n']? = some (Frame.bindAll ⟨some o', []⟩ bs')) :
    c.Paired (w.add n n' l) s s' := by
  have hlt := (Array.getElem?_eq_some_iff.mp hn).1
  have hlt' := (Array.getElem?_eq_some_iff.mp hn').1
  obtain ⟨hl, hlt, hsame, hkind⟩ := h.oneToOne.add l hfree hlt hlt'
  refine ⟨hl, hlt, hsame, hkind, ?_, ?_⟩
  · rintro j j' m a a' (hj | ⟨rfl, rfl, rfl⟩) ha
    · exact Alike.mono_option (World.le_add w _ _ _) (h.bound hj ha)
    · rw [Store.get?, Store.get?, hn, hn']
      apply Frame.get?_bindAll_rel
      · apply hbs.mono
        intro v v' hv
        exact hv.mono (World.le_add w _ _ _)
      · intro b b' hb
        exact hc.read_iff hb ha
      · exact .none
  · rintro j j' m (hj | ⟨rfl, rfl, rfl⟩)
    · apply (h.outward hj).mono (World.le_add w _ _ _)
      · exact fun a => id
      · exact fun a => id
    · have hunbound : ∀ (t : Store) (n o : FrameId) (cs : List (String × Value)) (a : String),
          t.frames[n]? = some (Frame.bindAll ⟨some o, []⟩ cs) → t.get? n a = none →
          Value.symbol a ∉ cs.map (.symbol ·.1) := by
        intro t n o cs a ht ha hm
        have hsome := (Store.get?_of_filled ht a).mpr (by simpa using hm)
        simp [ha] at hsome
      rw [Store.next?_of_filled hn hon, Store.next?_of_filled hn' hon']
      -- a name that the new frame does not bind is no parameter
      apply Outward.continues (.inl ho)
      intro a a' ha hg hg'
      apply hc.outside hfun ha
      · rw [hps]
        exact hunbound s j o bs a hn hg
      · rw [hps']
        exact hunbound s' j' o' bs' a' hn' hg'

end Paired

def paired (hc : c.Scoped) (mode : Scoping) (hm : mode = .lexical ∨ Subsingleton c.Kind) :
    c.Heaps mode mode where
  Holds := c.Paired
  lt h := h.lt
  listens h := h.listens
  lookup h hi ha := h.lookup hi ha
  assign h hi ha hv := h.assign hc hi ha hv
  congr h hf hl := h.congr hf hl
  enter {w s s' i i' n n' k k₁ l f f' home home' bs bs'} h hi hfun hh hbs hps hps' hfree hon hon'
      hn hn' := by
    have ho : w (Evaluator.parent mode home i) (Evaluator.parent mode home' i') k₁ := by
      cases hh with
      | none hk =>
        have hkind := Subsingleton.elim k k₁
        cases mode <;> exact hkind ▸ hi
      | some hw =>
        cases mode with
        | lexical => exact hw
        | dynamic =>
          -- the call continues in its caller's frame, which is of the only kind there is
          have hk : Subsingleton c.Kind := by simpa using hm
          have hkind := Subsingleton.elim k k₁
          exact hkind ▸ hi
    exact h.add hc hfun hbs hps hps' hfree ho hon hon' hn hn'

end Correspondence

end ScopedLisp

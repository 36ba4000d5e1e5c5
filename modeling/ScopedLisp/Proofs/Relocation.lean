import ScopedLisp.Proofs.PairedFrames
import ScopedLisp.Proofs.SharedCode

namespace ScopedLisp

def sameCode : Correspondence where
  Kind := Unit
  Reads _ := Eq
  Binds _ := Eq
  Shown v v' := v.detached = v'.detached
  Code _ := Eq
  Function _ _ := Eq

namespace SameCode

theorem diagonal : sameCode.Diagonal where
  code_eq := id
  read_eq := id
  bound_eq := id
  function_eq := id
  shown_iff := .rfl
  reads _ := rfl
  part _ _ := rfl
  defines _ := rfl
  makes _ := ⟨(), rfl⟩
  parameter _ _ := rfl
  body _ := rfl

theorem names_scoped : sameCode.Scoped where
  read_iff := by
    rintro _ a _ b _ rfl rfl
    rfl
  outside _ ha _ _ := ha

def heaps (mode : Scoping) : sameCode.Heaps mode mode :=
  Correspondence.paired names_scoped mode (.inr (inferInstanceAs (Subsingleton Unit)))

end SameCode

namespace Value

inductive Remembers (i : FrameId) : Value → Prop where
  | closure (params body : List Value) : Remembers i (.closure params body (some i))
  | item {items : List Value} {v : Value} (hv : v ∈ items) (h : Remembers i v) :
      Remembers i (.list items)

mutual

def relocate (ρ : FrameId → FrameId) : Value → Value
  | .list items => .list (relocateEach ρ items)
  | .closure params body home => .closure params body (home.map ρ)
  | v => v

def relocateEach (ρ : FrameId → FrameId) : List Value → List Value
  | [] => []
  | v :: vs => relocate ρ v :: relocateEach ρ vs

end

theorem relocateEach_eq_map (ρ : FrameId → FrameId) (vs : List Value) :
    relocateEach ρ vs = vs.map (relocate ρ) := by
  induction vs with
  | nil => rfl
  | cons v vs ih => simp [relocateEach, ih]

theorem remembers_relocate {ρ : FrameId → FrameId} {k : FrameId} {v : Value}
    (h : (v.relocate ρ).Remembers k) : ∃ i, v.Remembers i ∧ ρ i = k := by
  induction v using Value.induct with
  | list items ih =>
    rw [relocate, relocateEach_eq_map] at h
    cases h with
    | item hv h =>
      obtain ⟨v, hmem, rfl⟩ := List.mem_map.mp hv
      obtain ⟨i, hi, hk⟩ := ih v hmem h
      exact ⟨i, .item hmem hi, hk⟩
  | closure params body home =>
    cases home with
    | none => nomatch h
    | some i =>
      cases h with
      | closure => exact ⟨i, .closure params body, rfl⟩
  | number | symbol | nil | integer | text => nomatch h

end Value

namespace Store

inductive Reaches (s : Store) (root : FrameId) : FrameId → Prop where
  | root : Reaches s root root
  | outer {i o : FrameId} (h : Reaches s root i) (ho : s.next? i = some o) : Reaches s root o
  | home {i j : FrameId} {name : String} {v : Value} (h : Reaches s root i)
      (hv : s.get? i name = some v) (hj : v.Remembers j) : Reaches s root j

/-- All that can be reached from the root in one store is in the other one too, at other places, and
nothing more can be reached there. -/
structure Relocates (ρ : FrameId → FrameId) (s : Store) (root : FrameId) (t : Store) : Prop where
  bindings : ∀ i, s.Reaches root i → ∀ name,
    t.get? (ρ i) name = (s.get? i name).map (Value.relocate ρ)
  outer : ∀ i, s.Reaches root i → t.next? (ρ i) = (s.next? i).map ρ
  injective : ∀ i j, s.Reaches root i → s.Reaches root j → ρ i = ρ j → i = j
  onto : ∀ k, t.Reaches (ρ root) k → ∃ i, s.Reaches root i ∧ ρ i = k

structure Moves (ρ : FrameId → FrameId) (s : Store) (R : FrameId → Prop) (t : Store) : Prop where
  bindings : ∀ i, R i → ∀ name, t.get? (ρ i) name = (s.get? i name).map (Value.relocate ρ)
  outer : ∀ i, R i → t.next? (ρ i) = (s.next? i).map ρ
  injective : ∀ i j, R i → R j → ρ i = ρ j → i = j
  outward : ∀ i o, R i → s.next? i = some o → R o
  home : ∀ i name v j, R i → s.get? i name = some v → v.Remembers j → R j

namespace Moves

variable {ρ : FrameId → FrameId} {s t : Store} {R : FrameId → Prop} {root i : FrameId}

theorem reaches (h : s.Moves ρ R t) (hr : R root) (hi : s.Reaches root i) : R i := by
  induction hi with
  | root => exact hr
  | outer _ ho ih => exact h.outward _ _ ih ho
  | home _ hv hj ih => exact h.home _ _ _ _ ih hv hj

theorem relocates (h : s.Moves ρ R t) (hr : R root) : s.Relocates ρ root t where
  bindings i hi := h.bindings i (h.reaches hr hi)
  outer i hi := h.outer i (h.reaches hr hi)
  injective i j hi hj := h.injective i j (h.reaches hr hi) (h.reaches hr hj)
  onto k hk := by
    induction hk with
    | root => exact ⟨root, .root, rfl⟩
    | @outer k o _ ho ih =>
      obtain ⟨i, hi, rfl⟩ := ih
      rw [h.outer i (h.reaches hr hi), Option.map_eq_some_iff] at ho
      obtain ⟨o, ho, rfl⟩ := ho
      exact ⟨o, hi.outer ho, rfl⟩
    | @home k j name v _ hv hj ih =>
      obtain ⟨i, hi, rfl⟩ := ih
      rw [h.bindings i (h.reaches hr hi) name, Option.map_eq_some_iff] at hv
      obtain ⟨v, hv, rfl⟩ := hv
      obtain ⟨j, hmem, rfl⟩ := Value.remembers_relocate hj
      exact ⟨j, hi.home hv hmem, rfl⟩

end Moves

end Store

section paired

open Correspondence

variable {w : sameCode.World} {s s' : Store} {root root' j : FrameId} {v v' : Value}

theorem Value.Remembers.paired (hj : v.Remembers j) (h : sameCode.Alike w v v') :
    ∃ j', w j j' () ∧ v'.Remembers j' := by
  induction hj generalizing v' with
  | closure params body =>
    cases h with
    | closure hc =>
      cases hc with
      | mk _ hh =>
        cases hh with
        | @some _ j' hw => exact ⟨j', hw, .closure _ _⟩
  | @item items v hv _ ih =>
    cases h with
    | @list vs ws hl h =>
      obtain ⟨k, hk, rfl⟩ := List.getElem_of_mem hv
      have hk' : k < ws.length := by omega
      have hz : k < (items.zip ws).length := by simp; omega
      have hitem := h _ (List.getElem_mem hz)
      rw [List.getElem_zip] at hitem
      obtain ⟨j', hw, hj'⟩ := ih hitem
      exact ⟨j', hw, .item (List.getElem_mem hk') hj'⟩

theorem relocate_alike {ρ : FrameId → FrameId} (hρ : ∀ i i', w i i' () → ρ i = i')
    (h : sameCode.Alike w v v') : v.relocate ρ = v' := by
  apply Value.Like.image_eq (g := id) h
  · exact fun _ => rfl
  · rfl
  · intro vs
    rw [Value.relocate, Value.relocateEach_eq_map]
  · simp
  · rintro _ _ (_ | _ | _ | ⟨hf, hh⟩)
    · rfl
    · rfl
    · rfl
    · obtain ⟨rfl, rfl⟩ := Prod.mk.inj hf
      cases hh with
      | none => rfl
      | some hw =>
        have hi := hρ _ _ hw
        rw [Value.relocate, Option.map_some, hi]
        rfl

theorem Correspondence.Paired.moves (h : sameCode.Paired w s s') :
    ∃ ρ : FrameId → FrameId, (∀ i i', w i i' () → ρ i = i') ∧
      s.Moves ρ (fun i => ∃ i', w i i' ()) s' := by
  -- the world is one to one, so it gives each of its frames one place
  have hplace : ∀ i, ∃ i', ∀ k, w i k () → w i i' () := by
    intro i
    by_cases hi : ∃ k, w i k ()
    · obtain ⟨k, hk⟩ := hi
      exact ⟨k, fun _ _ => hk⟩
    · rw [not_exists] at hi
      exact ⟨i, fun k hk => absurd hk (hi k)⟩
  choose ρ hw using hplace
  have hρ : ∀ i i', w i i' () → ρ i = i' := by
    intro i i' hi
    exact (h.same_iff (hw i i' hi) hi).mp rfl
  refine ⟨ρ, hρ, ?_, ?_, ?_, ?_, ?_⟩
  · rintro i ⟨i', hi⟩ name
    have hb := h.bound (hw i i' hi) (rfl : name = name)
    generalize s.get? i name = v?, s'.get? (ρ i) name = v?' at hb
    cases hb with
    | none => rfl
    | some hv => rw [Option.map_some, relocate_alike hρ hv]
  · rintro i ⟨i', hi⟩
    have ho := h.outward (hw i i' hi)
    generalize s.next? i = o?, s'.next? (ρ i) = o?' at ho
    cases ho with
    | ends => rfl
    | continues ho _ => rw [Option.map_some, hρ _ _ ho]
  · rintro i j ⟨i', hi⟩ ⟨j', hj⟩ hij
    exact (h.same_iff (hw i i' hi) (hw j j' hj)).mpr hij
  · rintro i o ⟨i', hi⟩ ho
    have hout := h.outward hi
    rw [ho] at hout
    generalize s'.next? i' = o?' at hout
    cases hout with
    | continues ho _ => exact ⟨_, ho⟩
  · rintro i name v j ⟨i', hi⟩ hv hj
    have hb := h.bound hi (rfl : name = name)
    rw [hv] at hb
    generalize s'.get? i' name = v?' at hb
    cases hb with
    | some hval =>
      obtain ⟨j', hw, -⟩ := hj.paired hval
      exact ⟨j', hw⟩

theorem Correspondence.Paired.relocates (h : sameCode.Paired w s s') (hr : w root root' ()) :
    ∃ ρ, ρ root = root' ∧ s.Relocates ρ root s' := by
  obtain ⟨ρ, hρ, hmoves⟩ := h.moves
  exact ⟨ρ, hρ root root' hr, hmoves.relocates ⟨root', hr⟩⟩

end paired

end ScopedLisp

import ScopedLisp.Proofs.Likeness

namespace ScopedLisp

namespace Value

mutual

def names : Value → List String
  | .symbol name => [name]
  | .list items => namesEach items
  | .closure params body _ => namesEach params ++ namesEach body
  | _ => []

def namesEach : List Value → List String
  | [] => []
  | v :: vs => names v ++ namesEach vs

end

mutual

def rename (σ : String → String) : Value → Value
  | .symbol name => .symbol (σ name)
  | .list items => .list (renameEach σ items)
  | .closure params body home => .closure (renameEach σ params) (renameEach σ body) home
  | v => v

def renameEach (σ : String → String) : List Value → List Value
  | [] => []
  | v :: vs => rename σ v :: renameEach σ vs

end

theorem mem_namesEach {name : String} {vs : List Value} :
    name ∈ namesEach vs ↔ ∃ v ∈ vs, name ∈ v.names := by
  induction vs with
  | nil => simp [namesEach]
  | cons v vs ih => simp [namesEach, ih]

theorem renameEach_eq_map (σ : String → String) (vs : List Value) :
    renameEach σ vs = vs.map (rename σ) := by
  induction vs with
  | nil => rfl
  | cons v vs ih => simp [renameEach, ih]

theorem rename_rename (σ τ : String → String) (v : Value) :
    (v.rename σ).rename τ = v.rename (τ ∘ σ) := by
  induction v using Value.induct with
  | symbol name => rfl
  | list items ih =>
    simp only [rename, renameEach_eq_map, List.map_map, Value.list.injEq]
    exact List.map_congr_left ih
  | closure params body home ihp ihb =>
    simp only [rename, renameEach_eq_map, List.map_map, Value.closure.injEq, and_true]
    exact ⟨List.map_congr_left ihp, List.map_congr_left ihb⟩
  | number | nil | integer | text => rfl

theorem rename_eq_self {σ : String → String} {v : Value} (h : ∀ name ∈ v.names, σ name = name) :
    v.rename σ = v := by
  have hmap : ∀ vs : List Value, (∀ v ∈ vs, (∀ name ∈ v.names, σ name = name) → v.rename σ = v) →
      (∀ name ∈ namesEach vs, σ name = name) → renameEach σ vs = vs := by
    intro vs ih h
    rw [renameEach_eq_map]
    conv_rhs => rw [← List.map_id vs]
    apply List.map_congr_left
    intro v hv
    apply ih v hv
    intro name hname
    exact h name (mem_namesEach.mpr ⟨v, hv, hname⟩)
  induction v using Value.induct with
  | symbol name => simp [rename, h name (by simp [names])]
  | list items ih => rw [rename, hmap items ih h]
  | closure params body home ihp ihb =>
    simp only [names, List.mem_append] at h
    rw [rename, hmap params ihp fun name hn => h name (.inl hn),
      hmap body ihb fun name hn => h name (.inr hn)]
  | number | nil | integer | text => rfl

theorem writtenAlike_rename (σ : String → String) (v : Value) : WrittenAlike v (v.rename σ) := by
  induction v using Value.induct with
  | list items ih =>
    rw [rename, renameEach_eq_map]
    exact writtenAlike_list (List.forall₂_map_right_iff.mpr (List.forall₂_same.mpr ih))
  | closure params body home ihp ihb =>
    have hp := List.forall₂_map_right_iff.mpr (List.forall₂_same.mpr ihp)
    have hb := List.forall₂_map_right_iff.mpr (List.forall₂_same.mpr ihb)
    intro style room
    rw [rename, renameEach_eq_map, renameEach_eq_map]
    cases style <;> simp only [fault?, faultEach?_eq hp, faultEach?_eq hb]
  | symbol =>
    intro style room
    cases style <;> rfl
  | number | nil | integer | text => exact fun _ _ => rfl

end Value

def replaced (x z name : String) : String := if name = x then z else name

theorem replaced_replaced {x z name : String} (h : name ≠ z) :
    replaced z x (replaced x z name) = name := by
  by_cases hx : name = x
  · simp [replaced, hx]
  · simp [replaced, hx, h]

theorem replaced_inj {x z a b : String} (ha : a ≠ z) (hb : b ≠ z)
    (h : replaced x z a = replaced x z b) : a = b := by
  rw [← replaced_replaced (x := x) ha, h, replaced_replaced hb]

theorem Value.rename_back {x z : String} {v : Value} (h : z ∉ v.names) :
    (v.rename (replaced x z)).rename (replaced z x) = v := by
  rw [rename_rename]
  apply rename_eq_self
  intro name hname
  apply replaced_replaced
  rintro rfl
  exact h hname

theorem Value.rename_unused {x z : String} {v : Value} (h : z ∉ v.names) :
    v.rename (replaced z x) = v := by
  apply rename_eq_self
  intro name hname
  apply if_neg
  rintro rfl
  exact h hname

theorem Value.renameEach_unused {x z : String} {vs : List Value} (h : z ∉ (Value.list vs).names) :
    renameEach (replaced z x) vs = vs := by
  have hl := rename_unused (x := x) h
  simpa only [rename, Value.list.injEq] using hl

theorem Value.notMem_names_list {z : String} {items : List Value} :
    z ∉ (Value.list items).names ↔ ∀ v ∈ items, z ∉ v.names := by
  simp [names, mem_namesEach]

inductive Position where
  | expression | clause

/-- The position of an item of a list that has these items before it and after it. What stands last
in a choice is no clause but the default. -/
def Position.ofItem : List Value → List Value → Position
  | .symbol name :: _, _ :: _ => if name = "cond" then .clause else .expression
  | _, _ => .expression

/-- In one function with the parameter `x`, however deep in the value, all occurrences of `x` are
replaced by `z`. A clause of two parts is a test and its result, so it is no function even when the
test is the symbol `fn`. -/
inductive Value.RenamedAt (x z : String) : Position → Value → Value → Prop where
  | here {position : Position} {params rest : List Value} (hx : .symbol x ∈ params)
      (hp : position = .clause → rest ≠ []) :
      RenamedAt x z position (.list (.symbol "fn" :: .list params :: rest))
        (rename (replaced x z) (.list (.symbol "fn" :: .list params :: rest)))
  | inside {position : Position} {before after : List Value} {e e' : Value}
      (h : RenamedAt x z (.ofItem before after) e e') :
      RenamedAt x z position (.list (before ++ e :: after)) (.list (before ++ e' :: after))

theorem Value.RenamedAt.expression {x z : String} {position : Position} {e e' : Value}
    (h : e.RenamedAt x z position e') : e.RenamedAt x z .expression e' := by
  cases h with
  | here hx _ => exact .here hx (by rintro ⟨⟩)
  | inside h => exact .inside h

theorem Value.RenamedAt.rename_back {x z : String} {position : Position} {e e' : Value}
    (h : RenamedAt x z position e e') (hz : z ∉ e.names) : e'.rename (replaced z x) = e := by
  induction h with
  | here _ _ => exact Value.rename_back hz
  | @inside _ before after e e' _ ih =>
    rw [notMem_names_list] at hz
    have hbeforez : z ∉ (Value.list before).names :=
      notMem_names_list.mpr fun v hv => hz v (by simp [hv])
    have hafterz : z ∉ (Value.list after).names :=
      notMem_names_list.mpr fun v hv => hz v (by simp [hv])
    have hbefore := renameEach_unused (x := x) hbeforez
    have hafter := renameEach_unused (x := x) hafterz
    have he := ih (hz e (by simp))
    rw [renameEach_eq_map] at hbefore hafter
    simp only [rename, renameEach_eq_map, List.map_append, List.map_cons, hbefore, hafter, he]

end ScopedLisp

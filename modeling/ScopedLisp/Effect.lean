import ScopedLisp.Store

namespace ScopedLisp

def Effect (α : Type) : Type := Store → Except Fault α × Store

namespace Effect

variable {α β : Type}

protected def pure (a : α) : Effect α := fun s => (.ok a, s)

protected def bind (m : Effect α) (f : α → Effect β) : Effect β := fun s =>
  match m s with
  | (.ok a, s) => f a s
  | (.error fault, s) => (.error fault, s)

instance : Monad Effect where
  pure := Effect.pure
  bind := Effect.bind

@[simp] theorem pure_apply (a : α) (s : Store) : (pure a : Effect α) s = (.ok a, s) := rfl

theorem bind_apply (m : Effect α) (f : α → Effect β) (s : Store) :
    (m >>= f) s = match m s with
      | (.ok a, s) => f a s
      | (.error fault, s) => (.error fault, s) := rfl

theorem bind_ok {m : Effect α} {f : α → Effect β} {s t : Store} {a : α} (h : m s = (.ok a, t)) :
    (m >>= f) s = f a t := by rw [bind_apply, h]

theorem bind_error {m : Effect α} {f : α → Effect β} {s t : Store} {fault : Fault}
    (h : m s = (.error fault, t)) : (m >>= f) s = (.error fault, t) := by rw [bind_apply, h]

theorem bind_eq_ok {m : Effect α} {f : α → Effect β} {s u : Store} {b : β} :
    (m >>= f) s = (.ok b, u) ↔ ∃ a t, m s = (.ok a, t) ∧ f a t = (.ok b, u) := by
  constructor
  · intro h
    rw [bind_apply] at h
    split at h
    · next a t hm => exact ⟨a, t, hm, h⟩
    · cases h
  · rintro ⟨a, t, hm, hf⟩
    rw [bind_ok hm, hf]

theorem bind_eq_error {m : Effect α} {f : α → Effect β} {s u : Store} {fault : Fault} :
    (m >>= f) s = (.error fault, u) ↔
      m s = (.error fault, u) ∨ ∃ a t, m s = (.ok a, t) ∧ f a t = (.error fault, u) := by
  constructor
  · intro h
    rw [bind_apply] at h
    split at h
    · next a t hm => exact .inr ⟨a, t, hm, h⟩
    · next hm =>
      cases h
      exact .inl hm
  · rintro (hm | ⟨a, t, hm, hf⟩)
    · exact bind_error hm
    · rw [bind_ok hm, hf]

theorem bind_pure_id (m : Effect α) : (m >>= fun a => pure (id a)) = m := by
  funext s
  rw [bind_apply]
  rcases m s with ⟨_ | _, t⟩ <;> rfl

theorem bind_bind {γ : Type} (m : Effect α) (f : α → Effect β) (g : β → Effect γ) :
    m >>= f >>= g = m >>= fun a => f a >>= g := by
  funext s
  simp only [bind_apply]
  rcases m s with ⟨_ | _, t⟩ <;> rfl

instance : LawfulMonad Effect :=
  .mk' _ bind_pure_id (fun _ _ => rfl) bind_bind

def fail (fault : Fault) : Effect α := fun s => (.error fault, s)

def ofExcept : Except Fault α → Effect α
  | .ok a => pure a
  | .error fault => fail fault

def lookup (i : FrameId) (name : String) : Effect Value := fun s =>
  (s.lookupValue i (.symbol name), s)

def extend (i : FrameId) : Effect FrameId := fun s => (.ok (s.extend i).1, (s.extend i).2)

def assign (i : FrameId) (name v : Value) : Effect Unit := fun s =>
  match s.setValue i name v with
  | .ok t => (.ok (), t)
  | .error fault => (.error fault, s)

def note (event : Event) : Effect Unit := fun s =>
  (.ok (), { s with events := s.events.map (event :: ·) })

/-- A listener is shown the frame of the call, and a frame too deep to be shown is as bad as one
too deep to be evaluated in. -/
def noteCall (name : String) (i : FrameId) : Effect Unit := fun s =>
  match s.events, s.frames[i]? with
  | some _, some f =>
    if f.fault?.isSome then (.error .depthExceeded, s) else note (.called name f (s.depth i)) s
  | _, _ => (.ok (), s)

variable (i : FrameId) (name : String) (s : Store)

theorem lookup_bind (f : Value → Effect α) :
    (lookup i name >>= f) s = match s.lookup? i name with
      | some v => f v s
      | none => (.error (.unbound (.symbol name)), s) := by
  simp only [bind_apply, lookup, Store.lookupValue]
  cases s.lookup? i name <;> rfl

theorem extend_bind (f : FrameId → Effect α) :
    (extend i >>= f) s = f s.frames.size (s.extend i).2 := rfl

theorem ofExcept_ok_bind (a : α) (f : α → Effect β) : (ofExcept (.ok a) >>= f) s = f a s := rfl

theorem ofExcept_error_bind (fault : Fault) (f : α → Effect β) :
    (ofExcept (.error fault) >>= f) s = (.error fault, s) := rfl

end Effect

end ScopedLisp

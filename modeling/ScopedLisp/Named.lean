namespace ScopedLisp.Named

variable {α : Type}

def put : List (String × α) → String → α → List (String × α)
  | [], name, a => [(name, a)]
  | (n, b) :: rest, name, a => if n = name then (name, a) :: rest else (n, b) :: put rest name a

theorem lookup_cons (n other : String) (b : α) (rest : List (String × α)) :
    ((n, b) :: rest).lookup other = if other = n then some b else rest.lookup other := by
  by_cases h : other = n
  · simp [h]
  · have hb : (other == n) = false := by simpa using h
    simp [List.lookup_cons, h, hb]

@[simp] theorem lookup_put (entries : List (String × α)) (name other : String) (a : α) :
    (put entries name a).lookup other = if other = name then some a else entries.lookup other := by
  induction entries with
  | nil => exact lookup_cons ..
  | cons e es ih =>
    obtain ⟨n, b⟩ := e
    by_cases hn : n = name
    · subst hn
      by_cases h : other = n <;> simp [put, lookup_cons, h]
    · by_cases h : other = n
      · subst h; simp [put, hn]
      · simp only [put, hn, lookup_cons, h, ih, if_false]

theorem map_fst_put (entries : List (String × α)) (name : String) (a : α) :
    (put entries name a).map (·.1) =
      if name ∈ entries.map (·.1) then entries.map (·.1) else entries.map (·.1) ++ [name] := by
  induction entries with
  | nil => rfl
  | cons e es ih =>
    obtain ⟨n, b⟩ := e
    by_cases hn : n = name
    · subst hn; simp [put]
    · have hn' : name ≠ n := fun h => hn h.symm
      simp only [put, hn, if_false, List.map_cons, ih, List.mem_cons, hn', false_or]
      split <;> rfl

end ScopedLisp.Named

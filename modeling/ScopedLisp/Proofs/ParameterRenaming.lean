import ScopedLisp.Proofs.PairedFrames
import ScopedLisp.Proofs.Renaming

/-!
Under lexical scoping the name of a parameter does not matter: code in a function only ever runs in
frames that were made for code in this function, and these continue, past the frame that binds the
parameter, in frames where both names mean the same.
-/

namespace ScopedLisp

namespace Evaluator

theorem functionParts_params {params body : Value} (h : ∀ ps, params ≠ .list ps) :
    functionParts [params, body] = .error (.parametersNotList params) := by
  cases params with
  | list ps => exact absurd rfl (h ps)
  | _ => rfl

theorem functionParts_body {ps : List Value} {body : Value}
    (hps : ps.find? (!·.isSymbol) = none) (h : ∀ b, body ≠ .list b) :
    functionParts [.list ps, body] = .error (.bodyNotList body) := by
  cases body with
  | list b => exact absurd rfl (h b)
  | _ => simp only [functionParts, hps]

end Evaluator

inductive Region where
  | outside | inside

namespace Renaming

variable (x z : String)

def Names : Region → String → String → Prop
  | .outside, a, a' => a = a'
  | .inside, a, a' => a ≠ z ∧ a' = replaced x z a

def Code : Region → Value → Value → Prop
  | .outside, e, e' => z ∉ e.names ∧ (e' = e ∨ e.RenamedAt x z .expression e')
  | .inside, e, e' => z ∉ e.names ∧ e' = e.rename (replaced x z)

structure Function (k l : Region) (f f' : List Value × List Value) : Prop where
  symbols : ∀ p ∈ f.1, p.isSymbol
  params : Code x z l (.list f.1) (.list f'.1)
  body : Code x z l (.list f.2) (.list f'.2)
  enters : k = l ∨ k = .outside ∧ l = .inside ∧ .symbol x ∈ f.1

def correspondence : Correspondence where
  Kind := Region
  Reads := Names x z
  Binds := Names x z
  Shown := Value.WrittenAlike
  Code := Code x z
  Function := Function x z

variable {x z} {k l : Region}

theorem names_iff {a a' b b' : String} (ha : Names x z k a a') (hb : Names x z k b b') :
    a = b ↔ a' = b' := by
  cases k with
  | outside => rw [ha, hb]
  | inside =>
    obtain ⟨haz, rfl⟩ := ha
    obtain ⟨hbz, rfl⟩ := hb
    constructor
    · rintro rfl
      rfl
    · exact replaced_inj haz hbz

theorem form_names (hx : Form.ofName? x = none) (hz : Form.ofName? z = none) {a a' : String}
    (ha : Names x z k a a') : Form.ofName? a' = Form.ofName? a := by
  cases k with
  | outside => rw [ha]
  | inside =>
    obtain ⟨-, rfl⟩ := ha
    unfold replaced
    split
    · next h => rw [h, hx, hz]
    · rfl

section code

variable {e e' : Value}

theorem rename_back (h : Code x z k e e') : e'.rename (replaced z x) = e := by
  cases k with
  | outside =>
    obtain ⟨hz, rfl | h⟩ := h
    · exact Value.rename_unused hz
    · exact h.rename_back hz
  | inside =>
    obtain ⟨hz, rfl⟩ := h
    exact Value.rename_back hz

theorem code_written (h : Code x z k e e') : Value.WrittenAlike e e' := by
  intro style room
  rw [Value.writtenAlike_rename (replaced z x) e' style room, rename_back h]

theorem isSymbol_renamedAt {position : Position} (h : e.RenamedAt x z position e') :
    e.isSymbol = false ∧ e'.isSymbol = false := by
  cases h <;> exact ⟨rfl, rfl⟩

theorem isSymbol_rename (σ : String → String) (e : Value) :
    (e.rename σ).isSymbol = e.isSymbol := by
  cases e <;> rfl

theorem code_isSymbol (h : Code x z k e e') : e'.isSymbol = e.isSymbol := by
  cases k with
  | outside =>
    obtain ⟨-, rfl | h⟩ := h
    · rfl
    · rw [(isSymbol_renamedAt h).1, (isSymbol_renamedAt h).2]
  | inside =>
    obtain ⟨-, rfl⟩ := h
    exact isSymbol_rename _ e

theorem code_symbol {a : String} (h : Code x z k (.symbol a) e') :
    ∃ a', e' = .symbol a' ∧ Names x z k a a' := by
  cases k with
  | outside =>
    obtain ⟨-, rfl | h⟩ := h
    · exact ⟨a, rfl, rfl⟩
    · exact absurd (isSymbol_renamedAt h).1 (by simp [Value.isSymbol])
  | inside =>
    obtain ⟨hz, rfl⟩ := h
    refine ⟨_, rfl, ?_, rfl⟩
    rintro rfl
    exact hz (by simp [Value.names])

theorem codes_same {es : List Value} (h : ∀ e ∈ es, z ∉ e.names) :
    List.Forall₂ (Code x z .outside) es es :=
  List.forall₂_same.mpr fun e he => ⟨h e he, .inl rfl⟩

theorem codes_renamed {es : List Value} (h : ∀ e ∈ es, z ∉ e.names) :
    List.Forall₂ (Code x z .inside) es (es.map (Value.rename (replaced x z))) :=
  List.forall₂_map_right_iff.mpr (List.forall₂_same.mpr fun e he => ⟨h e he, rfl⟩)

def LooksAlike (v v' : Value) : Prop := v'.isSymbol = v.isSymbol ∧ Value.WrittenAlike v v'

theorem code_looksAlike (h : Code x z k e e') : LooksAlike e e' := ⟨code_isSymbol h, code_written h⟩

theorem code_list {es : List Value} (h : Code x z k (.list es) e') :
    ∃ es', e' = .list es' ∧
      List.Forall₂ LooksAlike es es' := by
  have hsame : ∀ vs : List Value,
      List.Forall₂ LooksAlike vs vs := by
    intro vs
    exact List.forall₂_same.mpr fun v _ => ⟨rfl, fun _ _ => rfl⟩
  have hrenamed : ∃ es', (Value.list es).rename (replaced x z) = .list es' ∧
      List.Forall₂ LooksAlike es es' := by
    refine ⟨_, rfl, ?_⟩
    rw [Value.renameEach_eq_map, List.forall₂_map_right_iff]
    exact List.forall₂_same.mpr fun v _ => ⟨isSymbol_rename _ v, Value.writtenAlike_rename _ v⟩
  cases k with
  | outside =>
    obtain ⟨hz, rfl | h⟩ := h
    · exact ⟨es, rfl, hsame es⟩
    · cases h with
      | here _ _ => exact hrenamed
      | @inside _ before after e e' h =>
        have hze : z ∉ e.names := Value.notMem_names_list.mp hz e (by simp)
        have hchanged : Code x z .outside e e' := ⟨hze, .inr h.expression⟩
        have hlooks := code_looksAlike hchanged
        exact ⟨_, rfl, List.rel_append (hsame before) (.cons hlooks (hsame after))⟩
  | inside =>
    obtain ⟨-, rfl⟩ := h
    exact hrenamed

theorem code_not_list (h : Code x z k e e') (he : ∀ es, e ≠ .list es) : ∀ es, e' ≠ .list es := by
  intro es hes
  have hback := rename_back h
  rw [hes, Value.rename] at hback
  exact he _ hback.symm

theorem find_parameter {ps ps' : List Value}
    (h : List.Forall₂ LooksAlike ps ps') :
    Option.Rel Value.WrittenAlike (ps.find? (!·.isSymbol)) (ps'.find? (!·.isSymbol)) := by
  induction h with
  | nil => exact .none
  | @cons v v' vs vs' hv _ ih =>
    rw [List.find?_cons, List.find?_cons, hv.1]
    cases v.isSymbol with
    | true => exact ih
    | false => exact .some hv.2

theorem functionParts_alike {es es' : List Value} (h : List.Forall₂ (Code x z l) es es')
    (hkl : ∀ ps rest, es = .list ps :: rest → k = l ∨ k = .outside ∧ l = .inside ∧ .symbol x ∈ ps) :
    EndAlike Value.WrittenAlike (fun f f' => ∃ l, Function x z k l f f')
      (Evaluator.functionParts es) (Evaluator.functionParts es') := by
  rcases h with _ | ⟨hp, _ | ⟨hb, _ | ⟨hc, hrest⟩⟩⟩
  · exact .fault (.same _)
  · simp only [Evaluator.functionParts]
    exact .fault (.same _)
  · rename_i p p' b b'
    by_cases hlist : ∃ ps, p = .list ps
    · obtain ⟨ps, rfl⟩ := hlist
      obtain ⟨ps', rfl, hlooks⟩ := code_list hp
      have hfind := find_parameter hlooks
      generalize hq : ps.find? (!·.isSymbol) = q?, hq' : ps'.find? (!·.isSymbol) = q?' at hfind
      cases hfind with
      | some hv =>
        simp only [Evaluator.functionParts, hq, hq']
        exact .fault (.parameterNotSymbol hv)
      | none =>
        by_cases hbody : ∃ bs, b = .list bs
        · obtain ⟨bs, rfl⟩ := hbody
          obtain ⟨bs', rfl, -⟩ := code_list hb
          simp only [Evaluator.functionParts, hq, hq']
          refine .value ⟨l, ?_, hp, hb, hkl ps _ rfl⟩
          simpa using hq
        · rw [not_exists] at hbody
          rw [Evaluator.functionParts_body hq hbody,
            Evaluator.functionParts_body hq' (code_not_list hb hbody)]
          exact .fault (.bodyNotList (code_written hb))
    · rw [not_exists] at hlist
      rw [Evaluator.functionParts_params hlist,
        Evaluator.functionParts_params (code_not_list hp hlist)]
      exact .fault (.parametersNotList (code_written hp))
  · simp only [Evaluator.functionParts]
    exact .fault (.same _)

end code

section choice

variable {e e' : Value}

inductive Clauses (x z : String) (k : Region) : Value → Value → Prop where
  | pair {t t' r r' : Value} (ht : Code x z k t t') (hr : Code x z k r r') :
      Clauses x z k (.list [t, r]) (.list [t', r'])
  | other {e e' : Value} (hp : ∀ t r, e ≠ .list [t, r]) (hp' : ∀ t r, e' ≠ .list [t, r])
      (h : Value.WrittenAlike e e') : Clauses x z k e e'

theorem clause_other (h : Code x z k e e') (hp : ∀ t r, e ≠ .list [t, r]) :
    Clauses x z k e e' := by
  apply Clauses.other hp
  · intro t r he
    have hback := rename_back h
    rw [he, Value.rename] at hback
    exact hp _ _ hback.symm
  · exact code_written h

theorem branches_of_clauses {es es' : List Value} (h : List.Forall₂ (Code x z k) es es')
    (hc : List.Forall₂ (Clauses x z k) es.dropLast es'.dropLast) :
    (correspondence x z).Branches k es es' := by
  induction h with
  | nil => exact .none
  | cons he hrest ih =>
    cases hrest with
    | nil => exact .default he
    | cons he₁ hrest =>
      simp only [List.dropLast_cons_cons] at hc
      cases hc with
      | cons hclause hc =>
        have hrest := ih hc
        cases hclause with
        | pair ht hr => exact .pair (by simp) (by simp) ht hr hrest
        | other hp hp' hw => exact .malformed (by simp) (by simp) hp hp' hw

theorem clause_same (hz : z ∉ e.names) : Clauses x z .outside e e := by
  by_cases hp : ∃ t r, e = .list [t, r]
  · obtain ⟨t, r, rfl⟩ := hp
    rw [Value.notMem_names_list] at hz
    exact .pair ⟨hz t (by simp), .inl rfl⟩ ⟨hz r (by simp), .inl rfl⟩
  · simp only [not_exists] at hp
    exact clause_other ⟨hz, .inl rfl⟩ hp

theorem clauses_same {es : List Value} (h : ∀ e ∈ es, z ∉ e.names) :
    List.Forall₂ (Clauses x z .outside) es es :=
  List.forall₂_same.mpr fun e he => clause_same (h e he)

theorem clause_renamed (hz : z ∉ e.names) : Clauses x z .inside e (e.rename (replaced x z)) := by
  by_cases hp : ∃ t r, e = .list [t, r]
  · obtain ⟨t, r, rfl⟩ := hp
    rw [Value.notMem_names_list] at hz
    exact .pair ⟨hz t (by simp), rfl⟩ ⟨hz r (by simp), rfl⟩
  · simp only [not_exists] at hp
    exact clause_other ⟨hz, rfl⟩ hp

theorem clause_changed (hz : z ∉ e.names) (h : e.RenamedAt x z .clause e') :
    Clauses x z .outside e e' := by
  by_cases hp : ∃ t r, e = .list [t, r]
  · obtain ⟨t, r, hp⟩ := hp
    cases h with
    | here _ hrest =>
      -- a function has a third part, its body
      simp only [Value.list.injEq, List.cons.injEq] at hp
      exact absurd hp.2.2 (hrest rfl)
    | @inside _ before after e e' h =>
      rw [Value.notMem_names_list] at hz
      have hchanged : Code x z .outside e e' := ⟨hz e (by simp), .inr h.expression⟩
      simp only [Value.list.injEq] at hp
      rcases before with _ | ⟨b, _ | ⟨c, before⟩⟩
      · simp only [List.nil_append, List.cons.injEq] at hp
        obtain ⟨rfl, rfl⟩ := hp
        exact .pair hchanged ⟨hz r (by simp), .inl rfl⟩
      · simp only [List.cons_append, List.nil_append, List.cons.injEq] at hp
        obtain ⟨rfl, rfl, rfl⟩ := hp
        exact .pair ⟨hz b (by simp), .inl rfl⟩ hchanged
      · simp at hp
  · simp only [not_exists] at hp
    exact clause_other ⟨hz, .inr h.expression⟩ hp

end choice

section shape

variable (hx : Form.ofName? x = none) (hz : Form.ofName? z = none)
include hx hz

theorem shape_list {es es' : List Value} (h : List.Forall₂ (Code x z k) es es')
    (hc : es.head? = some (.symbol "cond") →
      List.Forall₂ (Clauses x z k) es.tail.dropLast es'.tail.dropLast) :
    (correspondence x z).Shape k (.list es) (.list es') := by
  cases h with
  | nil => exact .items (by simp) (by simp) .nil
  | @cons e e' es es' he hes =>
    by_cases hsymbol : ∃ head, e = .symbol head
    · obtain ⟨head, rfl⟩ := hsymbol
      obtain ⟨head', rfl, hhead⟩ := code_symbol he
      have hforms := form_names hx hz hhead
      cases hf : Form.ofName? head with
      | none => exact .call hf (by rw [hforms, hf]) hhead hes
      | some f =>
        apply Correspondence.Shape.form hf (by rw [hforms, hf])
        cases f with
        | operator op => exact .operator op hes
        | negation => exact .negation hes
        | definition =>
          rcases hes with _ | ⟨ht, _ | ⟨hv, _ | ⟨hw, hrest⟩⟩⟩
          · exact .incomplete (by simp) (by simp)
          · exact .incomplete (by simp) (by simp)
          · rename_i t t' v v'
            have hsame := code_isSymbol ht
            cases ht' : t.isSymbol with
            | true =>
              cases t with
              | symbol a =>
                obtain ⟨a', rfl, ha⟩ := code_symbol ht
                exact .definition ha hv
              | _ => simp [Value.isSymbol] at ht'
            | false => exact .undefinable ht' (by rw [hsame, ht']) (code_written ht)
          · exact .incomplete (by simp) (by simp)
        | function => exact .function (functionParts_alike hes fun _ _ _ => .inl rfl)
        | choice =>
          apply Correspondence.Operands.choice
          apply branches_of_clauses hes
          apply hc
          rw [Form.eq_name hf, List.head?_cons, Form.name]
    · have hplain : e.isSymbol = false := by
        cases e with
        | symbol a => exact absurd ⟨a, rfl⟩ hsymbol
        | _ => rfl
      have hplain' : e'.isSymbol = false := by rw [code_isSymbol he, hplain]
      apply Correspondence.Shape.items
      · rintro head tail he
        simp only [List.cons.injEq] at he
        simp [he.1, Value.isSymbol] at hplain
      · rintro head tail he
        simp only [List.cons.injEq] at he
        simp [he.1, Value.isSymbol] at hplain'
      · exact .cons he hes

theorem shape_same {es : List Value} (h : ∀ e ∈ es, z ∉ e.names) :
    (correspondence x z).Shape .outside (.list es) (.list es) := by
  apply shape_list hx hz (codes_same h)
  intro _
  apply clauses_same
  intro e he
  exact h e (List.mem_of_mem_tail (List.dropLast_subset _ he))

theorem shape_renamed {es : List Value} (h : ∀ e ∈ es, z ∉ e.names) :
    (correspondence x z).Shape .inside (.list es)
      (.list (es.map (Value.rename (replaced x z)))) := by
  apply shape_list hx hz (codes_renamed h)
  intro _
  rw [← List.map_tail, ← List.map_dropLast, List.forall₂_map_right_iff]
  apply List.forall₂_same.mpr
  intro e he
  exact clause_renamed (h e (List.mem_of_mem_tail (List.dropLast_subset _ he)))

theorem shape_changed {before after : List Value} {e e' : Value}
    (hn : ∀ v ∈ before ++ e :: after, z ∉ v.names)
    (h : e.RenamedAt x z (.ofItem before after) e') :
    (correspondence x z).Shape .outside (.list (before ++ e :: after))
      (.list (before ++ e' :: after)) := by
  have hz' := hn e (by simp)
  have hbefore : ∀ v ∈ before, z ∉ v.names := fun v hv => hn v (by simp [hv])
  have hafter : ∀ v ∈ after, z ∉ v.names := fun v hv => hn v (by simp [hv])
  apply shape_list hx hz
  · exact List.rel_append (codes_same hbefore)
      (.cons ⟨hz', .inr h.expression⟩ (codes_same hafter))
  · intro hcond
    cases before with
    | nil =>
      simp only [List.nil_append, List.head?_cons, Option.some.injEq] at hcond
      have hlist := (isSymbol_renamedAt h).1
      simp [hcond, Value.isSymbol] at hlist
    | cons b before =>
      simp only [List.cons_append, List.head?_cons, Option.some.injEq] at hcond
      subst hcond
      have hbefore' := fun v hv => hbefore v (List.mem_cons_of_mem _ hv)
      simp only [List.cons_append, List.tail_cons]
      cases after with
      | nil =>
        -- the last part is the default expression and no clause
        rw [List.dropLast_concat, List.dropLast_concat]
        exact clauses_same hbefore'
      | cons a after =>
        have hafter' := fun v hv => hafter v (List.dropLast_subset _ hv)
        rw [List.dropLast_append_of_ne_nil (by simp), List.dropLast_append_of_ne_nil (by simp),
          List.dropLast_cons_cons, List.dropLast_cons_cons]
        exact List.rel_append (clauses_same hbefore')
          (.cons (clause_changed hz' h) (clauses_same hafter'))

omit hz in
theorem shape_function {params rest : List Value} (hp : .symbol x ∈ params)
    (hn : ∀ v ∈ .symbol "fn" :: .list params :: rest, z ∉ v.names) :
    (correspondence x z).Shape .outside (.list (.symbol "fn" :: .list params :: rest))
      ((Value.list (.symbol "fn" :: .list params :: rest)).rename (replaced x z)) := by
  have hfn : replaced x z "fn" = "fn" := by
    apply if_neg
    rintro rfl
    simp [Form.ofName?_fn] at hx
  have hparts := codes_renamed (x := x) fun v hv => hn v (List.mem_cons_of_mem _ hv)
  rw [Value.rename, Value.renameEach_eq_map, List.map_cons, Value.rename, hfn]
  apply Correspondence.Shape.form Form.ofName?_fn Form.ofName?_fn
  apply Correspondence.Operands.function
  -- the function is made outside, and its body stands inside
  apply functionParts_alike hparts
  rintro ps rest' hps
  simp only [List.cons.injEq, Value.list.injEq] at hps
  exact .inr ⟨rfl, rfl, hps.1 ▸ hp⟩

theorem shape_of_code {e e' : Value} (h : Code x z k e e') : (correspondence x z).Shape k e e' := by
  cases e with
  | symbol a =>
    obtain ⟨a', rfl, ha⟩ := code_symbol h
    exact .symbol ha
  | list es =>
    cases k with
    | outside =>
      obtain ⟨hn, rfl | h⟩ := h
      · exact shape_same hx hz (Value.notMem_names_list.mp hn)
      · rw [Value.notMem_names_list] at hn
        cases h with
        | here hp _ => exact shape_function hx hp hn
        | inside h => exact shape_changed hx hz hn h
    | inside =>
      obtain ⟨hn, rfl⟩ := h
      rw [Value.rename, Value.renameEach_eq_map]
      exact shape_renamed hx hz (Value.notMem_names_list.mp hn)
  | number n =>
    have he' : e' = .number n := by
      cases k with
      | outside =>
        obtain ⟨-, rfl | h⟩ := h
        · rfl
        · cases h
      | inside => exact h.2
    rw [he']
    exact .number n
  | nil | closure | integer | text =>
    apply Correspondence.Shape.inert rfl
    cases k with
    | outside =>
      obtain ⟨-, rfl | h⟩ := h
      · rfl
      · cases h
    | inside =>
      obtain ⟨-, rfl⟩ := h
      rfl

end shape

theorem alike_back {w : (correspondence x z).World} {v v' : Value}
    (h : (correspondence x z).Alike w v v') :
    v.detached = (v'.rename (replaced z x)).detached := by
  apply Value.Like.image_eq (f := Value.detached)
    (g := fun v => (v.rename (replaced z x)).detached) h
  · exact fun _ => rfl
  · rfl
  · intro vs
    rw [Value.detached, Value.detachedEach_eq_map]
  · intro vs
    rw [Value.rename, Value.detached, Value.renameEach_eq_map, Value.detachedEach_eq_map,
      List.map_map]
    rfl
  · rintro _ _ (hread | _ | _ | ⟨hf, -⟩)
    · obtain ⟨ha, -⟩ := hread .inside
      rw [Value.rename, replaced, if_neg ha]
    · rfl
    · rfl
    · have hps := rename_back hf.params
      have hb := rename_back hf.body
      simp only [Value.rename, Value.list.injEq] at hps hb
      simp only [Value.rename, Value.detached, hps, hb]

theorem parameters_alike {ps ps' : List Value} (hs : ∀ p ∈ ps, p.isSymbol)
    (h : Code x z l (.list ps) (.list ps')) :
    List.Forall₂ ((correspondence x z).Parameter l) ps ps' := by
  have hnames : ∀ p ∈ ps, ∀ p', Code x z l p p' → (correspondence x z).Parameter l p p' := by
    intro p hp p' hpp'
    have hsymbol := hs p hp
    cases p with
    | symbol a =>
      obtain ⟨a', rfl, ha⟩ := code_symbol hpp'
      exact .symbol ha
    | _ => simp [Value.isSymbol] at hsymbol
  cases l with
  | outside =>
    obtain ⟨hn, he | h⟩ := h
    · rw [Value.list.injEq] at he
      rw [he]
      apply List.forall₂_same.mpr
      intro p hp
      exact hnames p hp p ⟨Value.notMem_names_list.mp hn p hp, .inl rfl⟩
    · generalize he : Value.list ps' = e' at h
      cases h with
      | @here _ params rest _ _ =>
        have hparams := hs (.list params) (by simp)
        simp [Value.isSymbol] at hparams
      | @inside _ before after e e' h =>
        have hsymbol := hs e (by simp)
        simp [(isSymbol_renamedAt h).1] at hsymbol
  | inside =>
    obtain ⟨hn, he⟩ := h
    rw [Value.rename, Value.renameEach_eq_map, Value.list.injEq] at he
    rw [he, List.forall₂_map_right_iff]
    apply List.forall₂_same.mpr
    intro p hp
    exact hnames p hp _ ⟨Value.notMem_names_list.mp hn p hp, rfl⟩

theorem lawful (hx : Form.ofName? x = none) (hz : Form.ofName? z = none) :
    (correspondence x z).Lawful where
  shape h := shape_of_code hx hz h
  parameters hf := parameters_alike hf.symbols hf.params
  body hf := hf.body
  bound_iff := names_iff
  shown {v v'} h := by
    intro style room
    rw [← Value.writtenAlike_detached v, alike_back h, Value.writtenAlike_detached,
      ← Value.writtenAlike_rename]
  shown_read _ := by
    intro style room
    cases style <;> rfl
  shown_bound _ := by
    intro style room
    cases style <;> rfl
  written h := h

theorem names_scoped : (correspondence x z).Scoped where
  read_iff ha hb := names_iff hb ha
  outside {k l f f' a a'} hf ha hp hp' := by
    rcases hf.enters with rfl | ⟨rfl, rfl, hx⟩
    · exact ha
    · obtain ⟨-, rfl⟩ := ha
      -- the frame of the function binds the parameter, so it is not looked up any further
      have hax : a ≠ x := by
        rintro rfl
        exact hp hx
      exact (if_neg hax).symm

def heaps (x z : String) : (correspondence x z).Heaps .lexical .lexical :=
  Correspondence.paired names_scoped .lexical (.inl rfl)

end Renaming

open Renaming Correspondence

/-- A program and the same program with one function's parameter renamed to a name that occurs
nowhere, each evaluated in a new frame: they end with values that are the same once the new name is
replaced by the old one, or with faults of the same kind, and what they leave bound in their frames
is related in the same way. -/
theorem evaluate_lexical_rename_parameter (room : Nat) {x z : String}
    (hx : Form.ofName? x = none) (hz : Form.ofName? z = none) {program renamed : Value}
    (hn : z ∉ program.names) (h : program.RenamedAt x z .expression renamed) (s : Store) :
    let root := (s.allocate none).1
    let start := (s.allocate none).2
    let r := evaluate (.ok .lexical) room root program start
    let r' := evaluate (.ok .lexical) room root renamed start
    let back : Value → Value := fun v => (v.rename (replaced z x)).detached
    (r'.1.map back).mapError (·.reported.kind?) =
        (r.1.map Value.detached).mapError (·.reported.kind?) ∧
      ∀ name, (r'.2.get? root name).map back = (r.2.get? root name).map Value.detached := by
  intro root start r r' back
  have hnew : start.frames[root]? = some ⟨none, []⟩ := Store.frames_allocate_self s none
  have hroot : (correspondence x z).Paired (World.single root root Region.outside) start start :=
    Paired.root _ hnew hnew rfl
  have hruns : Corresponds (heaps x z) (World.single root root Region.outside) start start
      (fun u _ _ => (correspondence x z).Alike u) r r' :=
    evaluate_corresponds (lawful hx hz) (heaps x z) room _ start start root root .outside
      program renamed hroot ⟨rfl, rfl, rfl⟩ ⟨hn, .inr h⟩
  have hbindings : ∀ {u : (correspondence x z).World} {t t' : Store}, u root root Region.outside →
      (correspondence x z).Paired u t t' →
      ∀ name, (t'.get? root name).map back = (t.get? root name).map Value.detached := by
    intro u t t' hu ht name
    have hb := ht.bound hu (rfl : Names x z .outside name name)
    generalize t.get? root name = v?, t'.get? root name = v?' at hb
    cases hb with
    | none => rfl
    | some hv => exact congrArg some (alike_back hv).symm
  clear_value r r'
  cases hruns with
  | value hg ht hv =>
    constructor
    · exact congrArg Except.ok (alike_back hv).symm
    · exact hbindings (hg.le _ _ _ ⟨rfl, rfl, rfl⟩) ht
  | fault hg ht hf =>
    constructor
    · have hkind := (hf.reported fun _ _ h => h).kind?_eq
      exact congrArg Except.error hkind.symm
    · exact hbindings (hg.le _ _ _ ⟨rfl, rfl, rfl⟩) ht

theorem evaluate_lexical_rename_parameter_nested :
    let function : String → Value := fun n => .list [.symbol "fn", .list [.symbol n],
      .list [.symbol "fn", .list [.symbol "m"], .list [.symbol "+", .symbol n, .symbol "m"]]]
    let result : String → Value := fun n =>
      .list [.list [.symbol "let", .symbol "f", function n], .list [.symbol "f", .number .zero]]
    let program : String → Value := fun n =>
      .list [.list [.symbol "let", .symbol "fn", .number ⟨0x3ff0000000000000⟩],
        .list [.symbol "cond", .list [.symbol "fn", result n], .number .zero]]
    let r := evaluate (.ok .lexical) 9 0 (program "n") (Store.empty.allocate none).2
    let r' := evaluate (.ok .lexical) 9 0 (program "k") (Store.empty.allocate none).2
    let back : Value → Value := fun v => (v.rename (replaced "k" "n")).detached
    Form.ofName? "n" = none ∧ Form.ofName? "k" = none ∧ "k" ∉ (program "n").names ∧
      (program "n").RenamedAt "n" "k" .expression (program "k") ∧ r.1.isOk = true ∧
      (r'.1.map back).mapError (·.reported.kind?) =
        (r.1.map Value.detached).mapError (·.reported.kind?) ∧
      ∀ name, (r'.2.get? 0 name).map back = (r.2.get? 0 name).map Value.detached := by
  intro function result program r r' back
  have hx : Form.ofName? "n" = none := by decide +kernel
  have hz : Form.ofName? "k" = none := by decide +kernel
  have hn : "k" ∉ (program "n").names := by decide +kernel
  have hfunction : (function "n").RenamedAt "n" "k" .expression (function "k") :=
    .here (by simp) (by simp)
  have hdefinition : (Value.list [.symbol "let", .symbol "f", function "n"]).RenamedAt "n" "k"
      .expression (.list [.symbol "let", .symbol "f", function "k"]) :=
    @Value.RenamedAt.inside _ _ _ [.symbol "let", .symbol "f"] [] _ _ hfunction
  have hresult : (result "n").RenamedAt "n" "k" .expression (result "k") :=
    @Value.RenamedAt.inside _ _ _ [] [_] _ _ hdefinition
  have hclause : (Value.list [.symbol "fn", result "n"]).RenamedAt "n" "k" .clause
      (.list [.symbol "fn", result "k"]) :=
    @Value.RenamedAt.inside _ _ _ [.symbol "fn"] [] _ _ hresult
  have hchoice : (Value.list [.symbol "cond", .list [.symbol "fn", result "n"],
      .number .zero]).RenamedAt "n" "k" .expression
      (.list [.symbol "cond", .list [.symbol "fn", result "k"], .number .zero]) :=
    @Value.RenamedAt.inside _ _ _ [.symbol "cond"] [_] _ _ hclause
  have h : (program "n").RenamedAt "n" "k" .expression (program "k") :=
    @Value.RenamedAt.inside _ _ _ [_] [] _ _ hchoice
  have hvalue : r.1.isOk = true := by decide +kernel
  exact ⟨hx, hz, hn, h, hvalue, evaluate_lexical_rename_parameter 9 hx hz hn h Store.empty⟩

end ScopedLisp

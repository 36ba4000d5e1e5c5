import ScopedLisp.Proofs.Isolation
import ScopedLisp.Proofs.ReadingBack

/-!
Programs that run alike under both modes. Under dynamic scoping the frames of all active calls stand
between a function and the root, under lexical scoping none does. Where functions make no functions
and define nothing, these frames bind parameters only, and where no function reads a parameter of
another they are never noticed.
-/

namespace ScopedLisp

open Store Correspondence

def Writes (sources : List String) (params body : List Value) : Prop :=
  ∃ source ∈ sources, ∃ program, Reader.read source = .ok program ∧
    (Value.list [.symbol "fn", .list params, .list body]).StandsIn program

def IsParameter (sources : List String) (a : String) : Prop :=
  ∃ params body, Writes sources params body ∧ .symbol a ∈ params

/-- No function makes functions or defines names, or reads a parameter of another. The test of a
clause is read, also where it is the name of a form. -/
structure Plain (sources : List String) : Prop where
  flat {params body tail : List Value} {head : String} : Writes sources params body →
    (Value.list (.symbol head :: tail)).StandsIn (.list body) → head ≠ "fn" ∧ head ≠ "let"
  own {params body : List Value} {a : String} : Writes sources params body →
    (Value.symbol a).StandsIn (.list body) → .symbol a ∈ params ∨ ¬ IsParameter sources a

inductive Place where
  | outside
  | inside (params body : List Value)

namespace Place

def Reads (sources : List String) : Place → String → Prop
  | .outside, _ => True
  | .inside params _, a => .symbol a ∈ params ∨ ¬ IsParameter sources a

def Binds : Place → String → Prop
  | .outside, _ => True
  | .inside params _, a => .symbol a ∈ params

def Code (sources : List String) : Place → Value → Prop
  | .outside, e => ∀ params body,
    (Value.list [.symbol "fn", .list params, .list body]).StandsIn e → Writes sources params body
  | .inside params body, e => Writes sources params body ∧ e.StandsIn (.list body)

end Place

def sameProgram (sources : List String) : Correspondence where
  Kind := Place
  Reads k a a' := a = a' ∧ k.Reads sources a
  Binds k a a' := a = a' ∧ k.Binds a
  Shown v v' := v.detached = v'.detached
  Code k e e' := e = e' ∧ k.Code sources e
  Function k l f f' := f = f' ∧ k = .outside ∧ l = .inside f.1 f.2 ∧ Writes sources f.1 f.2

namespace SameProgram

variable {sources : List String}

theorem diagonal (h : Plain sources) : (sameProgram sources).Diagonal where
  code_eq he := he.1
  read_eq ha := ha.1
  bound_eq ha := ha.1
  function_eq hf := hf.1
  shown_iff := .rfl
  reads {k a} he := by
    refine ⟨rfl, ?_⟩
    cases k with
    | outside => trivial
    | inside params body => exact h.own he.2.1 he.2.2
  part {k e p} he hp := by
    refine ⟨rfl, ?_⟩
    cases k with
    | outside => exact fun params body hstands => he.2 params body (.part hp hstands)
    | inside params body => exact ⟨he.2.1, (Value.StandsIn.part hp .self).trans he.2.2⟩
  defines {k a v} he := by
    refine ⟨rfl, ?_⟩
    cases k with
    | outside => trivial
    | inside params body => exact absurd rfl (h.flat he.2.1 he.2.2).2
  makes {k params body} he := by
    cases k with
    | outside => exact ⟨_, rfl, rfl, rfl, he.2 params body .self⟩
    | inside ps b => exact absurd rfl (h.flat he.2.1 he.2.2).1
  parameter {k l f a} hf ha := by
    obtain ⟨-, -, rfl, -⟩ := hf
    exact ⟨rfl, ha⟩
  body {k l f} hf := by
    obtain ⟨-, -, rfl, hwrites⟩ := hf
    exact ⟨rfl, hwrites, .self⟩

variable {w : (sameProgram sources).World} {s s' : Store} {r r' i i' : FrameId}

structure Called (r' : FrameId) (w : (sameProgram sources).World) (s s' : Store) (i i' : FrameId)
    (params body : List Value) : Prop where
  written : Writes sources params body
  binds : ∀ a, (s.get? i a).isSome ↔ .symbol a ∈ params
  caller : ∃ o o' k, s.next? i = some o ∧ w o o' k
  home : s'.next? i' = some r'

structure Agree (r r' : FrameId) (w : (sameProgram sources).World) (s s' : Store) : Prop
    extends OneToOne w s s' where
  root : w r r' Place.outside
  only : ∀ {i i'}, w i i' Place.outside → i = r ∧ i' = r'
  ends : s.next? r = none ∧ s'.next? r' = none
  bound : ∀ {i i' k}, w i i' k → ∀ a,
    Option.Rel ((sameProgram sources).Alike w) (s.get? i a) (s'.get? i' a)
  called : ∀ {i i' params body}, w i i' (Place.inside params body) →
    Called r' w s s' i i' params body

namespace Agree

theorem lookup_root (h : Agree r r' w s s') {a : String} (ha : ¬ IsParameter sources a)
    {k : Place} (hi : w i i' k) :
    s.lookup? i a = s.get? r a ∧ s'.lookup? i' a = s'.get? r' a := by
  have hroot : s.lookup? r a = s.get? r a ∧ s'.lookup? r' a = s'.get? r' a := by
    rw [lookup?_eq s, lookup?_eq s', h.ends.1, h.ends.2]
    simp
  induction i using Nat.strongRecOn generalizing i' k with
  | ind i ih =>
    cases k with
    | outside =>
      obtain ⟨rfl, rfl⟩ := h.only hi
      exact hroot
    | inside params body =>
      obtain ⟨hwrites, hbinds, ⟨o, o', k, hnext, ho⟩, hhome⟩ := h.called hi
      have hnone : s.get? i a = none := by
        rw [← Option.not_isSome_iff_eq_none, hbinds]
        exact fun hmem => ha ⟨params, body, hwrites, hmem⟩
      have hnone' : s'.get? i' a = none := by
        have hb := h.bound hi a
        rw [hnone] at hb
        generalize s'.get? i' a = v? at hb
        cases hb
        rfl
      rw [lookup?_eq s, lookup?_eq s', hnone, hnone', hnext, hhome]
      exact ⟨(ih o (next?_lt hnext) ho).1, hroot.2⟩

theorem lookup (h : Agree r r' w s s') {k : Place} (hi : w i i' k) {a : String}
    (ha : k.Reads sources a) :
    Option.Rel ((sameProgram sources).Alike w) (s.lookup? i a) (s'.lookup? i' a) := by
  cases k with
  | outside =>
    obtain ⟨rfl, rfl⟩ := h.only hi
    rw [lookup?_eq s, lookup?_eq s', h.ends.1, h.ends.2]
    simpa using h.bound hi a
  | inside params body =>
    rcases ha with hown | hfree
    · have hsome := (h.called hi).binds a |>.mpr hown
      have hb := h.bound hi a
      rw [lookup?_eq s, lookup?_eq s']
      generalize s.get? i a = v?, s'.get? i' a = v?' at hb hsome
      cases hb with
      | some hv => exact .some hv
      | none => cases hsome
    · obtain ⟨hl, hl'⟩ := h.lookup_root hfree hi
      rw [hl, hl']
      exact h.bound h.root a

theorem assign (h : Agree r r' w s s') {k : Place} (hi : w i i' k) {a : String} (ha : k.Binds a)
    {v v' : Value} (hv : (sameProgram sources).Alike w v v') :
    Agree r r' w (s.set i a v) (s'.set i' a v') where
  toOneToOne := h.toOneToOne.set i i' a a v v'
  root := h.root
  only := h.only
  ends := by
    rw [next?_set, next?_set]
    exact h.ends
  bound hj b := h.toOneToOne.get?_set hi hj (fun _ => .rfl) hv (h.bound hj b)
  called {j j' params body} hj := by
    obtain ⟨hwrites, hbinds, hcaller, hhome⟩ := h.called hj
    refine ⟨hwrites, ?_, ?_, ?_⟩
    · intro b
      by_cases he : j = i
      · obtain rfl := he
        obtain rfl := (h.same_iff hj hi).mp rfl
        obtain rfl := h.kind_eq hj hi
        rw [get?_set s a v (h.lt hj).1]
        split
        · next hb =>
          subst hb
          exact iff_of_true rfl ha
        · exact hbinds b
      · rw [get?_set_ne s i a v he]
        exact hbinds b
    · rw [next?_set]
      exact hcaller
    · rw [next?_set]
      exact hhome

theorem congr {t t' : Store} (h : Agree r r' w s s')
    (hf : ∀ i i' k, w i i' k → t.frames[i]? = s.frames[i]? ∧ t'.frames[i']? = s'.frames[i']?)
    (hl : t.events.isSome = t'.events.isSome) : Agree r r' w t t' := by
  have hnext : ∀ {i i' k}, w i i' k → t.next? i = s.next? i ∧ t'.next? i' = s'.next? i' := by
    intro i i' k hi
    obtain ⟨ht, ht'⟩ := hf i i' k hi
    exact ⟨by rw [next?, next?, ht], by rw [next?, next?, ht']⟩
  have hget : ∀ {i i' k}, w i i' k → ∀ a, t.get? i a = s.get? i a ∧ t'.get? i' a = s'.get? i' a := by
    intro i i' k hi a
    obtain ⟨ht, ht'⟩ := hf i i' k hi
    exact ⟨by rw [get?, get?, ht], by rw [get?, get?, ht']⟩
  refine ⟨h.toOneToOne.congr hf hl, h.root, h.only, ?_, ?_, ?_⟩
  · rw [(hnext h.root).1, (hnext h.root).2]
    exact h.ends
  · intro i i' k hi a
    rw [(hget hi a).1, (hget hi a).2]
    exact h.bound hi a
  · intro i i' params body hi
    obtain ⟨hwrites, hbinds, hcaller, hhome⟩ := h.called hi
    refine ⟨hwrites, ?_, ?_, ?_⟩
    · intro a
      rw [(hget hi a).1]
      exact hbinds a
    · rw [(hnext hi).1]
      exact hcaller
    · rw [(hnext hi).2]
      exact hhome

theorem enter (h : Agree r r' w s s') {k : Place} (hi : w i i' k) {params body : List Value}
    (hwrites : Writes sources params body) {bs bs' : List (String × Value)}
    (hbs : BindingsAlike Eq ((sameProgram sources).Alike w) bs bs')
    (hps : params = bs.map (.symbol ·.1)) {n n' : FrameId}
    (hfree : ∀ j j' m, w j j' m → j ≠ n ∧ j' ≠ n') (hin : i < n) (hrn' : r' < n')
    (hn : s.frames[n]? = some (Frame.bindAll ⟨some i, []⟩ bs))
    (hn' : s'.frames[n']? = some (Frame.bindAll ⟨some r', []⟩ bs')) :
    Agree r r' (w.add n n' (Place.inside params body)) s s' := by
  have hle := World.le_add w n n' (Place.inside params body)
  have hlt := (Array.getElem?_eq_some_iff.mp hn).1
  have hlt' := (Array.getElem?_eq_some_iff.mp hn').1
  refine ⟨h.toOneToOne.add _ hfree hlt hlt', .inl h.root, ?_, h.ends, ?_, ?_⟩
  · rintro j j' (hj | ⟨-, -, hk⟩)
    · exact h.only hj
    · cases hk
  · rintro j j' m (hj | ⟨rfl, rfl, rfl⟩) a
    · exact Alike.mono_option hle (h.bound hj a)
    · rw [get?, get?, hn, hn']
      apply Frame.get?_bindAll_rel (hbs.mono fun v v' hv => hv.mono hle)
      · rintro b _ rfl
        rfl
      · exact .none
  · rintro j j' ps b (hj | ⟨rfl, rfl, hk⟩)
    · obtain ⟨hwrites, hbinds, ⟨o, o', m, hnext, ho⟩, hhome⟩ := h.called hj
      exact ⟨hwrites, hbinds, ⟨o, o', m, hnext, .inl ho⟩, hhome⟩
    · obtain ⟨rfl, rfl⟩ := Place.inside.inj hk
      refine ⟨hwrites, ?_, ⟨i, i', k, next?_of_filled hn hin, .inl hi⟩, next?_of_filled hn' hrn'⟩
      intro a
      rw [get?_of_filled hn, hps]
      simp

theorem start (hn : s.frames[r]? = some ⟨none, []⟩) (hn' : s'.frames[r']? = some ⟨none, []⟩)
    (hl : s.events.isSome = s'.events.isSome) :
    Agree r r' (World.single r r' Place.outside : (sameProgram sources).World) s s' := by
  have hlt := (Array.getElem?_eq_some_iff.mp hn).1
  have hlt' := (Array.getElem?_eq_some_iff.mp hn').1
  refine ⟨.single _ hlt hlt' hl, ⟨rfl, rfl, rfl⟩, ?_, ?_, ?_, ?_⟩
  · rintro i i' ⟨rfl, rfl, -⟩
    exact ⟨rfl, rfl⟩
  · rw [next?, next?, hn, hn']
    exact ⟨rfl, rfl⟩
  · rintro i i' k ⟨rfl, rfl, rfl⟩ a
    rw [get?, get?, hn, hn']
    exact .none
  · rintro i i' params body ⟨-, -, hk⟩
    cases hk

end Agree

def heaps (sources : List String) (r r' : FrameId) :
    (sameProgram sources).Heaps .dynamic .lexical where
  Holds := Agree r r'
  lt h := h.lt
  listens h := h.listens
  lookup {w s s' i i' k a a'} h hi ha := by
    obtain ⟨rfl, ha⟩ := ha
    exact h.lookup hi ha
  assign {w s s' i i' k a a' v v'} h hi ha hv := by
    obtain ⟨rfl, ha⟩ := ha
    exact h.assign hi ha hv
  congr h hf hl := h.congr hf hl
  enter {w s s' i i' n n' k k₁ l f f' home home' bs bs'} h hi hfun hh hbs hps hps' hfree hon hon'
      hn hn' := by
    obtain ⟨rfl, rfl, rfl, hwrites⟩ := hfun
    cases hh with
    | none hk =>
      have heq := hk.elim Place.outside (Place.inside [] [])
      cases heq
    | some hw =>
      obtain ⟨rfl, rfl⟩ := h.only hw
      exact h.enter hi hwrites (hbs.imp fun _ _ hb => ⟨hb.1.1, hb.2⟩) hps hfree hon hon' hn hn'

end SameProgram

namespace Session

inductive Reply.Same : Reply → Reply → Prop where
  | value {v v' : Value} (h : v.detached = v'.detached) : Same (.value v) (.value v')
  | failure {f f' : Failure} (hk : f.kind? = f'.kind?) (hm : f.message = f'.message) :
      Same (.failure f) (.failure f')

theorem Reply.same_of_detached {r r' : Except Failure Value}
    (h : (valueReply r).detached = (valueReply r').detached) :
    Same (valueReply r) (valueReply r') := by
  cases r with
  | ok v =>
    cases r' with
    | ok v' => exact .value (Reply.value.inj h)
    | error f' => cases h
  | error f =>
    cases r' with
    | ok v' => cases h
    | error f' =>
      have hf := Reply.failure.inj h
      constructor
      · rw [← f.kind?_detached, hf, f'.kind?_detached]
      · rw [← f.message_detached, hf, f'.message_detached]

structure Agreeing (sources : List String) (id : String) (r r' : FrameId)
    (w : (sameProgram sources).World) (dynamic lexical : Session) : Prop where
  agree : SameProgram.Agree r r' w dynamic.store lexical.store
  dynamic_eq : dynamic.interpreter? id = some ⟨.dynamic, r⟩
  lexical_eq : lexical.interpreter? id = some ⟨.lexical, r'⟩

namespace Agreeing

variable {sources : List String} {id : String} {r r' : FrameId} {w : (sameProgram sources).World}
  {dynamic lexical : Session}

theorem evaluated (h : Agreeing sources id r r' w dynamic lexical) (hp : Plain sources)
    {source : String} (hs : source ∈ sources) :
    (dynamic.run (.eval id source)).1.Same (lexical.run (.eval id source)).1 ∧
      ∃ u, Agreeing sources id r r' u (dynamic.run (.eval id source)).2
        (lexical.run (.eval id source)).2 := by
  have hcode : ∀ program, Reader.read source = .ok program →
      (sameProgram sources).Code Place.outside program program := by
    intro program hread
    exact ⟨rfl, fun params body hstands => ⟨source, hs, program, hread, hstands⟩⟩
  obtain ⟨hreply, u, -, hu⟩ := (SameProgram.diagonal hp).evaluateSource
    (SameProgram.heaps sources r r') h.agree h.agree.root hcode
  rw [run_eval h.dynamic_eq, run_eval h.lexical_eq]
  exact ⟨Reply.same_of_detached hreply, u, hu, h.dynamic_eq, h.lexical_eq⟩

theorem runs (h : Agreeing sources id r r' w dynamic lexical) (hp : Plain sources)
    {inputs : List String} (hs : ∀ source ∈ inputs, source ∈ sources) :
    let evals := inputs.map (Command.eval id)
    List.Forall₂ Reply.Same (dynamic.repliesTo id evals) (lexical.repliesTo id evals) ∧
      ∃ u, Agreeing sources id r r' u (dynamic.after evals) (lexical.after evals) := by
  induction inputs generalizing w dynamic lexical with
  | nil => exact ⟨.nil, w, h⟩
  | cons source inputs ih =>
    rw [List.forall_mem_cons] at hs
    obtain ⟨hreply, u, hnext⟩ := h.evaluated hp hs.1
    obtain ⟨hreplies, hend⟩ := ih hnext hs.2
    have hsource : (Command.eval id source).source? id = some source := if_pos rfl
    simp only [List.map_cons, repliesTo, hsource]
    exact ⟨.cons hreply hreplies, hend⟩

end Agreeing

/-- A program whose functions are plain runs in a new interpreter of either mode with the same
replies, and leaves the same names bound to the same values in the root frame. -/
theorem modes_agree (s : Session) (id : String) {sources : List String} (h : Plain sources) :
    let root := (s.store.allocate none).1
    let dynamic := (s.create id (some Scoping.dynamic.name)).2
    let lexical := (s.create id (some Scoping.lexical.name)).2
    let evals := sources.map (Command.eval id)
    List.Forall₂ Reply.Same (dynamic.repliesTo id evals) (lexical.repliesTo id evals) ∧
      (dynamic.after evals).interpreter? id = some ⟨.dynamic, root⟩ ∧
      (lexical.after evals).interpreter? id = some ⟨.lexical, root⟩ ∧
      ∀ name, ((dynamic.after evals).store.get? root name).map Value.detached =
        ((lexical.after evals).store.get? root name).map Value.detached := by
  intro root dynamic lexical evals
  have hnew := Store.frames_allocate_self s.store none
  have hdynamic : dynamic = s.add id .dynamic := create_eq (create_name s id .dynamic)
  have hlexical : lexical = s.add id .lexical := create_eq (create_name s id .lexical)
  have hstart : Agreeing sources id root root (World.single root root Place.outside) dynamic
      lexical := by
    rw [hdynamic, hlexical]
    refine ⟨.start hnew hnew rfl, ?_, ?_⟩ <;> rw [interpreter?_add, if_pos rfl] <;> rfl
  obtain ⟨hreplies, u, hend⟩ := hstart.runs h fun _ hs => hs
  refine ⟨hreplies, hend.dynamic_eq, hend.lexical_eq, ?_⟩
  intro name
  have hb := hend.agree.bound hend.agree.root name
  change Option.map _ ((dynamic.after evals).store.get? root name) = _
  generalize (dynamic.after evals).store.get? root name = v?,
    (lexical.after evals).store.get? root name = v?' at hb
  cases hb with
  | none => rfl
  | some hv => exact congrArg some ((SameProgram.diagonal h).detached_eq hv)

theorem modes_agree_calls :
    let sources := ["(let f (fn (n) (+ n 1)))", "(let g (fn (m) (f m)))", "(g 2)"]
    let evals := sources.map (Command.eval "a")
    let dynamic := (initial.create "a" (some Scoping.dynamic.name)).2
    let lexical := (initial.create "a" (some Scoping.lexical.name)).2
    Plain sources ∧
      List.Forall₂ Reply.Same (dynamic.repliesTo "a" evals) (lexical.repliesTo "a" evals) := by
  intro sources evals dynamic lexical
  let one : Value := .number ⟨0x3ff0000000000000⟩
  let two : Value := .number ⟨0x4000000000000000⟩
  let sum : List Value := [.symbol "+", .symbol "n", one]
  let pass : List Value := [.symbol "f", .symbol "m"]
  let programs : List Value :=
    [.list [.symbol "let", .symbol "f", .list [.symbol "fn", .list [.symbol "n"], .list sum]],
      .list [.symbol "let", .symbol "g", .list [.symbol "fn", .list [.symbol "m"], .list pass]],
      .list [.symbol "g", two]]
  have htokens : ∀ source ∈ sources, ∃ v ∈ programs,
      Token.ofSource source = Value.tokensEach [v] := by decide +kernel
  have hexpressions : ∀ v ∈ programs, v.Expression fun _ => True := by
    simp [programs, sum, pass, one, two]
  have hshallow : ∀ v ∈ programs, Value.nestingEach [v] ≤ Reader.nestingLimit := by decide
  have hread : ∀ source ∈ sources, ∀ program, Reader.read source = .ok program →
      program ∈ programs := by
    intro source hsource program hprogram
    obtain ⟨v, hv, ht⟩ := htokens source hsource
    have hspells := Token.Spells.of_expressions (List.forall_mem_singleton.mpr (hexpressions v hv))
    rw [Reader.read_of_spells ht hspells (hshallow v hv) rfl] at hprogram
    rwa [← Except.ok.inj hprogram]
  have hforms : Form.ofName? "let" = some .definition ∧ Form.ofName? "+" = some (.operator .add) ∧
      Form.ofName? "f" = none ∧ Form.ofName? "g" = none ∧ Form.ofName? "n" = none ∧
      Form.ofName? "m" = none := by decide +kernel
  obtain ⟨hlet, hadd, hf, hg, hn, hm⟩ := hforms
  have hwrites : ∀ params body, Writes sources params body →
      params = [.symbol "n"] ∧ body = sum ∨ params = [.symbol "m"] ∧ body = pass := by
    rintro params body ⟨source, hsource, program, hprogram, hstands⟩
    have hmem := hread source hsource program hprogram
    simp only [programs, List.mem_cons, List.not_mem_nil, or_false] at hmem
    rcases hmem with rfl | rfl | rfl
    · left
      simpa [Value.standsIn_form, Value.standsIn_call, Form.ofName?_fn, hlet, hn, hadd, Form.parts,
        sum, one] using hstands
    · right
      simpa [Value.standsIn_form, Value.standsIn_call, Form.ofName?_fn, hlet, hm, hf, Form.parts,
        pass] using hstands
    · simp [Value.standsIn_call, hg, two] at hstands
  have hparameter : ∀ a, IsParameter sources a → a = "n" ∨ a = "m" := by
    rintro a ⟨params, body, hw, ha⟩
    rcases hwrites params body hw with ⟨rfl, -⟩ | ⟨rfl, -⟩
    · left
      simpa using ha
    · right
      simpa using ha
  have hplain : Plain sources := by
    constructor
    · intro params body tail head hw hstands
      rcases hwrites params body hw with ⟨-, rfl⟩ | ⟨-, rfl⟩
      · simp [Value.standsIn_form, hadd, Form.parts, sum, one] at hstands
        simp [hstands]
      · simp [Value.standsIn_call, hf, pass] at hstands
        simp [hstands]
    · intro params body a hw hstands
      rcases hwrites params body hw with ⟨rfl, rfl⟩ | ⟨rfl, rfl⟩
      · left
        simpa [Value.standsIn_form, hadd, Form.parts, sum, one] using hstands
      · simp [Value.standsIn_call, hf, pass] at hstands
        rcases hstands with rfl | rfl
        · exact .inr fun h => by simpa using hparameter "f" h
        · exact .inl (by simp)
  exact ⟨hplain, (modes_agree initial "a" hplain).1⟩

end Session

end ScopedLisp

import Mathlib.Data.List.Induction
import ScopedLisp.Proofs.Sessions

namespace ScopedLisp

open Text

def Scoping.NamedBy (mode : Scoping) (text : String) : Prop := lower (trim text) = mode.name

namespace Scoping

variable {mode : Scoping} {text : String}

instance : Decidable (mode.NamedBy text) := inferInstanceAs (Decidable (_ = _))

theorem parse_of_named (h : mode.NamedBy text) : parse text = .ok mode := by
  unfold NamedBy at h
  cases mode <;> simp [parse, h, name]

theorem parse_of_unnamed (h : ∀ mode : Scoping, ¬ mode.NamedBy text) :
    parse text = .error ⟨lower (trim text)⟩ := by
  have hd : lower (trim text) ≠ "dynamic" := h .dynamic
  have hl : lower (trim text) ≠ "lexical" := h .lexical
  simp only [parse, if_neg hd, if_neg hl]

theorem ofSetting_eq_parse (h : text ≠ "") : ofSetting (some text) = parse text := if_neg h

theorem ofSetting_eq_dynamic {setting : Option String} (h : setting.getD "" = "") :
    ofSetting setting = .ok .dynamic := by
  cases setting with
  | none => rfl
  | some text => exact if_pos h

end Scoping

namespace Session

def Command.setting? : Command → Option (Option String)
  | .configure setting => some setting
  | _ => none

def configured (commands : List Command) : Option String :=
  (commands.filterMap Command.setting?).getLast?.join

/-- The commands end all blocks that they begin, and no other. A block whose mode is rejected does
not begin. -/
inductive Closed : List Command → Prop where
  | nil : Closed []
  | step {c : Command} {commands : List Command} (hleave : c ≠ .leave)
      (henter : ∀ text mode, c = .enter text → ¬ Scoping.NamedBy mode text)
      (h : Closed commands) : Closed (c :: commands)
  | block {text : String} {mode : Scoping} {inside commands : List Command}
      (hmode : mode.NamedBy text) (hi : Closed inside) (h : Closed commands) :
      Closed (.enter text :: (inside ++ .leave :: commands))

/-- After the commands a block is open that began right after the first of them, and what came in it
is closed. -/
inductive EnteredAfter (before : List Command) : List Command → Prop where
  | intro {text : String} {mode : Scoping} {inside : List Command} (hmode : mode.NamedBy text)
      (hi : Closed inside) : EnteredAfter before (before ++ .enter text :: inside)

def rejection (text : String) : Reply :=
  .failure (.evaluation (.unknownScoping ⟨lower (trim text)⟩))

section run

variable (s : Session) {mode : Scoping} {text : String}

theorem ambient_choose (hmode : mode.NamedBy text) :
    (s.run (.choose (some text))).2.ambient = { s.ambient with override := some mode } := by
  simp only [run, Ambient.choose, Ambient.override?, Scoping.parse_of_named hmode]
  rfl

theorem ambient_enter (hmode : mode.NamedBy text) :
    (s.run (.enter text)).2.ambient = s.ambient.enterMode mode := by
  simp only [run, Ambient.enter, Scoping.parse_of_named hmode]
  rfl

theorem run_rejected (h : ∀ mode : Scoping, ¬ mode.NamedBy text) :
    s.run (.choose (some text)) = (rejection text, s) ∧
      s.run (.enter text) = (rejection text, s) := by
  have hparse := Scoping.parse_of_unnamed h
  constructor
  · simp only [run, Ambient.choose, Ambient.override?, hparse]
    rfl
  · simp only [run, Ambient.enter, hparse]
    rfl

theorem run_current_override (h : s.ambient.override = some mode) :
    s.run .current = (.mode mode, s) := by
  simp only [run, Ambient.current, h]
  rfl

theorem run_current_setting (h : s.ambient.override = none) :
    s.run .current = (modeReply (Scoping.ofSetting s.ambient.setting), s) := by
  simp only [run, Ambient.current, h]

theorem ambient_eval (id source : String) : (s.run (.eval id source)).2.ambient = s.ambient := by
  simp only [run]
  cases s.interpreter? id with
  | none => rfl
  | some i => exact Ambient.leave_enterMode s.ambient i.scoping

theorem ambient_evaluate (id source : String) :
    (s.run (.evaluate id source)).2.ambient = s.ambient := by
  simp only [run]
  cases s.interpreter? id <;> rfl

theorem ambient_create (id : String) (scoping : Option String) :
    (s.run (.create id scoping)).2.ambient = s.ambient := by
  simp only [run, create]
  split <;> rfl

theorem ambient_inspect (id : String) : (s.run (.inspect id)).2.ambient = s.ambient := by
  simp only [run]
  cases s.interpreter? id <;> rfl

end run

inductive Turns (a : Ambient) : Command → Ambient → Prop where
  | kept {c : Command} (hleave : c ≠ .leave)
      (henter : ∀ text mode, c = .enter text → ¬ Scoping.NamedBy mode text)
      (hsetting : c.setting? = none) : Turns a c a
  | configured (setting : Option String) : Turns a (.configure setting) { a with setting }
  | cleared : Turns a (.choose none) { a with override := none }
  | chosen {text : String} {mode : Scoping} (hmode : mode.NamedBy text) :
      Turns a (.choose (some text)) { a with override := some mode }
  | entered {text : String} {mode : Scoping} (hmode : mode.NamedBy text) :
      Turns a (.enter text) (a.enterMode mode)
  | left : Turns a .leave a.leave

theorem run_turns (s : Session) (c : Command) : Turns s.ambient c (s.run c).2.ambient := by
  cases c with
  | create id scoping =>
    rw [ambient_create]
    exact .kept (by simp) (by simp) rfl
  | eval id source =>
    rw [ambient_eval]
    exact .kept (by simp) (by simp) rfl
  | evaluate id source =>
    rw [ambient_evaluate]
    exact .kept (by simp) (by simp) rfl
  | inspect id =>
    rw [ambient_inspect]
    exact .kept (by simp) (by simp) rfl
  | current => exact .kept (by simp) (by simp) rfl
  | choose text =>
    cases text with
    | none => exact .cleared
    | some text =>
      by_cases h : ∃ mode, Scoping.NamedBy mode text
      · obtain ⟨mode, hmode⟩ := h
        rw [ambient_choose s hmode]
        exact .chosen hmode
      · rw [(run_rejected s (not_exists.mp h)).1]
        exact .kept (by simp) (by simp) rfl
  | enter text =>
    by_cases h : ∃ mode, Scoping.NamedBy mode text
    · obtain ⟨mode, hmode⟩ := h
      rw [ambient_enter s hmode]
      exact .entered hmode
    · rw [(run_rejected s (not_exists.mp h)).2]
      refine .kept (by simp) ?_ rfl
      rintro _ mode ⟨⟩
      exact not_exists.mp h mode
  | leave => exact .left
  | configure setting => exact .configured setting

theorem saved_run (s : Session) {c : Command} (hleave : c ≠ .leave)
    (henter : ∀ text mode, c = .enter text → ¬ Scoping.NamedBy mode text) :
    (s.run c).2.ambient.saved = s.ambient.saved := by
  have hturn := run_turns s c
  generalize (s.run c).2.ambient = a at hturn
  cases hturn with
  | entered hmode => exact absurd hmode (henter _ _ rfl)
  | left => exact absurd rfl hleave
  | _ => rfl

theorem ambient_leave (s : Session) {before : Option Scoping} {outer : List (Option Scoping)}
    (h : s.ambient.saved = before :: outer) :
    (s.run .leave).2.ambient = { s.ambient with override := before, saved := outer } := by
  simp only [run, change, Ambient.leave, h]

theorem after_nil (s : Session) : s.after [] = s := rfl

theorem after_cons (s : Session) (c : Command) (commands : List Command) :
    s.after (c :: commands) = (s.run c).2.after commands := rfl

theorem after_concat (s : Session) (commands : List Command) (c : Command) :
    s.after (commands ++ [c]) = ((s.after commands).run c).2 := after_append s commands [c]

namespace Closed

variable {commands : List Command}

theorem append (h : Closed commands) {more : List Command} (hm : Closed more) :
    Closed (commands ++ more) := by
  induction h with
  | nil => exact hm
  | step hleave henter _ ih => exact .step hleave henter ih
  | block hmode hi _ _ ih =>
    rw [List.cons_append, List.append_assoc, List.cons_append]
    exact .block hmode hi ih

theorem saved_after (h : Closed commands) (s : Session) :
    (s.after commands).ambient.saved = s.ambient.saved := by
  induction h generalizing s with
  | nil => rfl
  | step hleave henter _ ih => rw [after_cons, ih, saved_run s hleave henter]
  | @block text mode inside commands hmode _ _ ihi ih =>
    have hopen : ((s.run (.enter text)).2.after inside).ambient.saved =
        s.ambient.override :: s.ambient.saved := by
      rw [ihi, ambient_enter s hmode]
      rfl
    rw [after_cons, after_append, after_cons, ih, ambient_leave _ hopen]

end Closed

namespace EnteredAfter

variable {before outer commands : List Command}

theorem saved_after (h : EnteredAfter before commands) (s : Session) :
    (s.after commands).ambient.saved =
      (s.after before).ambient.override :: (s.after before).ambient.saved := by
  obtain ⟨hmode, hi⟩ := h
  rw [after_append, after_cons, hi.saved_after, ambient_enter _ hmode]
  rfl

theorem length_lt (h : EnteredAfter before commands) : before.length < commands.length := by
  obtain ⟨hmode, hi⟩ := h
  simp

theorem step (h : EnteredAfter before commands) {c : Command} (hleave : c ≠ .leave)
    (henter : ∀ text mode, c = .enter text → ¬ Scoping.NamedBy mode text) :
    EnteredAfter before (commands ++ [c]) := by
  obtain ⟨hmode, hi⟩ := h
  rw [List.append_assoc, List.cons_append]
  exact .intro hmode (hi.append (.step hleave henter .nil))

theorem leave (h : EnteredAfter outer before) (k : EnteredAfter before commands) :
    EnteredAfter outer (commands ++ [.leave]) := by
  obtain ⟨hmode, hi⟩ := h
  obtain ⟨hmode', hi'⟩ := k
  simp only [List.append_assoc, List.cons_append]
  exact .intro hmode (hi.append (.block hmode' hi' .nil))

end EnteredAfter

theorem exists_enteredAfter {s : Session} (hs : s.ambient.saved = []) (commands : List Command)
    (h : (s.after commands).ambient.saved ≠ []) : ∃ before, EnteredAfter before commands := by
  induction hn : commands.length using Nat.strongRecOn generalizing commands with
  | _ n ih =>
    rcases List.eq_nil_or_concat' commands with rfl | ⟨cs, c, rfl⟩
    · exact absurd hs h
    have hcs : cs.length < n := by
      rw [← hn]
      simp
    rw [after_concat] at h
    by_cases henter : ∀ text mode, c = .enter text → ¬ Scoping.NamedBy mode text
    · by_cases hleave : c = .leave
      · subst hleave
        have hopen : (s.after cs).ambient.saved ≠ [] := by
          intro hnone
          apply h
          simp [run, change, Ambient.leave, hnone]
        obtain ⟨b, hb⟩ := ih _ hcs cs hopen rfl
        rw [ambient_leave _ (hb.saved_after s)] at h
        obtain ⟨b', hb'⟩ := ih _ (Nat.lt_trans hb.length_lt hcs) b h rfl
        exact ⟨b', hb'.leave hb⟩
      · rw [saved_run _ hleave henter] at h
        obtain ⟨b, hb⟩ := ih _ hcs cs h rfl
        exact ⟨b, hb.step hleave henter⟩
    · push Not at henter
      obtain ⟨text, mode, rfl, hmode⟩ := henter
      exact ⟨cs, .intro hmode .nil⟩

theorem configured_concat (commands : List Command) (c : Command) :
    configured (commands ++ [c]) = c.setting?.getD (configured commands) := by
  unfold configured
  rw [List.filterMap_append]
  cases hc : c.setting? with
  | none => rw [List.filterMap_cons_none hc, List.filterMap_nil, List.append_nil, Option.getD_none]
  | some setting =>
    rw [List.filterMap_cons_some hc, List.filterMap_nil, List.getLast?_concat]
    rfl

theorem setting_after {s : Session} (hs : s.ambient.setting = none) (commands : List Command) :
    (s.after commands).ambient.setting = configured commands := by
  induction commands using List.reverseRecOn with
  | nil => exact hs
  | append_singleton commands c ih =>
    rw [after_concat, configured_concat, ← ih]
    have hturn := run_turns (s.after commands) c
    generalize ((s.after commands).run c).2.ambient = a at hturn
    cases hturn with
    | kept _ _ hsetting => rw [hsetting, Option.getD_none]
    | left =>
      unfold Ambient.leave
      split <;> rfl
    | _ => rfl

def Command.Names (c : Command) (mode : Scoping) : Prop :=
  ∃ text, (c = .choose (some text) ∨ c = .enter text) ∧ mode.NamedBy text

theorem Turns.origin {a b : Ambient} {c : Command} (h : Turns a c b) {mode : Scoping}
    (hm : some mode ∈ b.override :: b.saved) :
    some mode ∈ a.override :: a.saved ∨ c.Names mode := by
  cases h with
  | kept | configured => exact .inl hm
  | cleared =>
    rcases List.mem_cons.mp hm with hm | hm
    · cases hm
    · exact .inl (.tail _ hm)
  | @chosen text mode' hmode =>
    rcases List.mem_cons.mp hm with hm | hm
    · obtain rfl := Option.some.inj hm
      exact .inr ⟨text, .inl rfl, hmode⟩
    · exact .inl (.tail _ hm)
  | @entered text mode' hmode =>
    rcases List.mem_cons.mp hm with hm | hm
    · obtain rfl := Option.some.inj hm
      exact .inr ⟨text, .inr rfl, hmode⟩
    · exact .inl hm
  | left =>
    unfold Ambient.leave at hm
    split at hm
    · exact .inl hm
    · next hsaved =>
      rw [hsaved]
      exact .inl (.tail _ hm)

theorem named_after {s : Session} (hover : s.ambient.override = none) (hs : s.ambient.saved = [])
    (commands : List Command) {mode : Scoping}
    (h : some mode ∈ (s.after commands).ambient.override :: (s.after commands).ambient.saved) :
    ∃ c ∈ commands, c.Names mode := by
  induction commands using List.reverseRecOn with
  | nil => simp [after, hover, hs] at h
  | append_singleton commands c ih =>
    rw [after_concat] at h
    rcases (run_turns (s.after commands) c).origin h with h | h
    · obtain ⟨c', hc', hnames⟩ := ih h
      exact ⟨c', List.mem_append_left _ hc', hnames⟩
    · exact ⟨c, by simp, h⟩

/-- The ambient mode of every session is a stack. What is in force was named by a command or is
nothing; a text that names no mode changes nothing; the end of a block puts in force what was in
force when it began, and there is a beginning for every block that is open; evaluations leave the
mode as they find it. Only when nothing is in force does the configured text count, and only then
can the question for the mode fail. -/
theorem ambient_mode_is_stacked (events : Option (List Event)) (commands : List Command) :
    let s := (starting events).after commands
    (∀ mode, s.ambient.override = some mode →
      mode.name ∈ ["dynamic", "lexical"] ∧ ∃ c ∈ commands, c.Names mode) ∧
    ((s.run (.choose none)).2.ambient.override = none ∧ ∀ text mode, Scoping.NamedBy mode text →
      (s.run (.choose (some text))).2.ambient.override = some mode ∧
        (s.run (.enter text)).2.ambient.override = some mode) ∧
    (∀ text, (∀ mode, ¬ Scoping.NamedBy mode text) →
      s.run (.choose (some text)) = (rejection text, s) ∧
        s.run (.enter text) = (rejection text, s)) ∧
    (∀ before, EnteredAfter before commands →
      (s.run .leave).2.ambient.override = ((starting events).after before).ambient.override) ∧
    (s.ambient.saved ≠ [] → ∃ before, EnteredAfter before commands) ∧
    (∀ id source, (s.run (.eval id source)).2.ambient = s.ambient ∧
      (s.run (.evaluate id source)).2.ambient = s.ambient) ∧
    (∀ id scoping, (s.run (.create id scoping)).2.ambient = s.ambient) ∧
    (∀ setting, (s.run (.configure setting)).2.ambient.override = s.ambient.override) ∧
    (∀ mode, s.ambient.override = some mode → s.run .current = (.mode mode, s)) ∧
    (s.ambient.override = none →
      ((configured commands).getD "" = "" → s.run .current = (.mode .dynamic, s)) ∧
      ∀ text, configured commands = some text → text ≠ "" →
        (∀ mode, Scoping.NamedBy mode text → s.run .current = (.mode mode, s)) ∧
        ((∀ mode, ¬ Scoping.NamedBy mode text) → s.run .current = (rejection text, s))) := by
  intro s
  have hsetting : s.ambient.setting = configured commands := setting_after rfl commands
  refine ⟨?_, ?_, fun text => run_rejected s, ?_, ?_, ?_, ?_, ?_, ?_, ?_⟩
  · intro mode hmode
    refine ⟨by cases mode <;> simp [Scoping.name],
      named_after (s := starting events) rfl rfl commands ?_⟩
    rw [← hmode]
    exact .head _
  · refine ⟨rfl, ?_⟩
    intro text mode hmode
    rw [ambient_choose s hmode, ambient_enter s hmode]
    exact ⟨rfl, rfl⟩
  · intro before h
    rw [ambient_leave s (h.saved_after (starting events))]
  · exact exists_enteredAfter rfl commands
  · exact fun id source => ⟨ambient_eval s id source, ambient_evaluate s id source⟩
  · exact ambient_create s
  · exact fun setting => rfl
  · exact fun mode => run_current_override s
  · intro hnone
    rw [run_current_setting s hnone, hsetting]
    refine ⟨?_, ?_⟩
    · intro hempty
      rw [Scoping.ofSetting_eq_dynamic hempty]
      rfl
    · intro text htext hne
      rw [htext, Scoping.ofSetting_eq_parse hne]
      constructor
      · intro mode hmode
        rw [Scoping.parse_of_named hmode]
        rfl
      · intro hunnamed
        rw [Scoping.parse_of_unnamed hunnamed]
        rfl

theorem ambient_mode_is_stacked_nested :
    let commands : List Command := [.choose (some "lexical"), .enter "dynamic", .choose none,
      .enter "lexical", .leave, .enter ""]
    EnteredAfter [.choose (some "lexical")] commands ∧
      (((starting none).after commands).run .leave).2.ambient.override = some .lexical := by
  intro commands
  have hd : Scoping.NamedBy .dynamic "dynamic" := Scoping.lower_trim_name .dynamic
  have hl : Scoping.NamedBy .lexical "lexical" := Scoping.lower_trim_name .lexical
  have hlast : Closed [.enter ""] := by
    refine .step (by simp) ?_ .nil
    rintro text mode ⟨⟩
    cases mode <;> decide +kernel
  have hinside : Closed [.choose none, .enter "lexical", .leave, .enter ""] :=
    .step (by simp) (by simp) (.block hl .nil hlast)
  have hopen : EnteredAfter [.choose (some "lexical")] commands := .intro hd hinside
  obtain ⟨-, -, -, hleave, -⟩ := ambient_mode_is_stacked none commands
  refine ⟨hopen, ?_⟩
  rw [hleave _ hopen, after_cons, after_nil, ambient_choose _ hl]

end Session

end ScopedLisp

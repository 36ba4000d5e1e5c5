import ScopedLisp.Shell.Launch

/-!
Sessions that share one history file. A session loads the lines of the file, and at its end it
writes them down again with the typed lines after them, so that over any number of sessions the
file gathers what was typed. What has to be seen on the way is that writing one file leaves every
path leading where it led before, so that each session finds what the one before it left behind.
-/

namespace ScopedLisp

open Text

namespace History

def lines (text : String) : List String :=
  ((text.toList.splitOn '\n').filter (· ≠ [])).map String.ofList

theorem newline_not_mem_splitOn (cs : List Char) : ∀ line ∈ cs.splitOn '\n', '\n' ∉ line := by
  induction cs with
  | nil => simp
  | cons c cs ih =>
    rw [List.splitOn] at ih ⊢
    rw [List.splitOnP_cons_eq_if_modifyHead]
    by_cases hc : c = '\n'
    · subst hc
      simpa using ih
    · cases hs : cs.splitOnP (· == '\n') with
      | nil => simp [hc]
      | cons line rest =>
        rw [hs] at ih
        have hl := ih line (by simp)
        have hr : ∀ l ∈ rest, '\n' ∉ l := fun l h => ih l (by simp [h])
        simpa [hc, hl] using ⟨fun h => hc h.symm, hr⟩

theorem newline_not_mem_lines {text line : String} (h : line ∈ lines text) :
    '\n' ∉ line.toList := by
  obtain ⟨cs, hcs, rfl⟩ := List.mem_map.1 h
  simpa using newline_not_mem_splitOn _ _ (List.mem_filter.1 hcs).1

theorem ne_empty_of_mem_lines {text line : String} (h : line ∈ lines text) : line ≠ "" := by
  obtain ⟨cs, hcs, rfl⟩ := List.mem_map.1 h
  have hne : cs ≠ [] := by simpa using (List.mem_filter.1 hcs).2
  exact fun he => hne (by simpa using congrArg String.toList he)

theorem splitOn_text (entries : List String) (h : ∀ e ∈ entries, '\n' ∉ e.toList) :
    (text entries).toList.splitOn '\n' = entries.map String.toList ++ [[]] := by
  induction entries with
  | nil => rfl
  | cons e es ih =>
    have he : ∀ c ∈ e.toList, (c == '\n') = false := by
      intro c hc
      exact beq_false_of_ne fun hn => h e (by simp) (hn ▸ hc)
    have ih := ih fun x hx => h x (by simp [hx])
    simp only [text, String.toList_ofList, List.splitOn] at ih ⊢
    rw [List.flatMap_cons, List.append_assoc, List.singleton_append,
      List.splitOnP_append_cons_of_forall_mem he _ (by simp), ih]
    rfl

theorem lines_text (entries : List String) (h : ∀ e ∈ entries, '\n' ∉ e.toList) :
    lines (text entries) = entries.filter (· ≠ "") := by
  rw [lines, splitOn_text entries h, List.filter_append, List.filter_map, List.map_append,
    List.map_map]
  have hs : (String.ofList ∘ String.toList) = id := by funext e; simp
  simp [hs, Function.comp_def]

theorem parse_eq_lines {entries : List String} (hl : ∀ e ∈ entries, '\n' ∉ e.toList)
    (he : ∀ e ∈ entries, entry e.toList = e.toList) (ht : isTime (text entries).toList = false) :
    parse (text entries) = lines (text entries) := by
  rw [parse_text entries hl he ht, lines_text entries hl]

end History

namespace Node

theorem at?_folder_cons (entries : List (String × Node)) (name : String) (trail : List String) :
    (Node.folder entries).at? (name :: trail)
      = (entries.lookup name).bind fun node => node.at? trail := by
  rw [at?]
  cases entries.lookup name <;> rfl

theorem put_cons (text : String) (entries : List (String × Node)) (name : String)
    (trail : List String) :
    (Node.folder entries).put text (name :: trail)
      = .folder (Named.put entries name
          (put text ((entries.lookup name).getD (.folder [])) trail)) := rfl

theorem eq_folder_of_at?_cons {node : Node} {name : String} {trail : List String} {found : Node}
    (h : node.at? (name :: trail) = some found) : ∃ entries, node = .folder entries := by
  cases node with
  | file text => cases h
  | folder entries => exact ⟨entries, rfl⟩

theorem at?_put (text : String) (folder : List String) (name : String) (root : Node)
    (entries : List (String × Node)) (hf : root.at? folder = some (.folder entries)) :
    (root.put text (folder ++ [name])).at? (folder ++ [name]) = some (.file text) := by
  induction folder generalizing root with
  | nil =>
    obtain rfl : root = .folder entries := by simpa [at?] using hf
    simp [put, at?]
  | cons part folder ih =>
    obtain ⟨es, rfl⟩ := eq_folder_of_at?_cons hf
    rw [at?_folder_cons] at hf
    obtain ⟨child, hc, hf⟩ := Option.bind_eq_some_iff.1 hf
    rw [List.cons_append, put_cons, at?_folder_cons, Named.lookup_put, if_pos rfl, hc]
    exact ih child hf

theorem at?_put_of_folder (text : String) {place : List String} {root : Node}
    (hn : ∀ es, root.at? place ≠ some (.folder es)) {trail : List String}
    (ht : ∃ es, root.at? trail = some (.folder es)) :
    ∃ es, (root.put text place).at? trail = some (.folder es) := by
  induction place generalizing root trail with
  | nil =>
    obtain ⟨es, ht⟩ := ht
    cases root with
    | folder entries => exact absurd rfl (hn entries)
    | file old => cases trail <;> cases ht
  | cons name place ih =>
    cases root with
    | file old => exact ht
    | folder entries =>
      rw [put_cons]
      cases trail with
      | nil => exact ⟨_, rfl⟩
      | cons part trail =>
        simp only [at?_folder_cons, Named.lookup_put] at hn ht ⊢
        by_cases hp : part = name
        · subst hp
          obtain ⟨es, ht⟩ := ht
          obtain ⟨child, hc, ht⟩ := Option.bind_eq_some_iff.1 ht
          rw [hc] at hn
          rw [if_pos rfl, hc]
          exact ih hn ⟨es, ht⟩
        · rw [if_neg hp]
          exact ht

end Node

namespace Disk

/-- What a path needs that a file in the folder is kept under it: it leads there, and neither the
path nor the name is too long for the file that stands in while the kept one is replaced. -/
structure Serves (d : Disk) (p : Path) (folder : List String) (name : String) : Prop where
  leads : d.trail p = .ok (folder ++ [name])
  folder_there : ∃ entries, d.root.at? folder = some (.folder entries)
  no_folder : ∀ entries, d.root.at? (folder ++ [name]) ≠ some (.folder entries)
  path_fits : p.text.utf8ByteSize + standInLength ≤ pathLimit
  name_fits : (p.parts.getLast?.getD "").utf8ByteSize + standInLength ≤ nameLimit

def putFile (d : Disk) (place : List String) (text : String) : Disk :=
  { d with root := d.root.put text place }

def ReadsLines (d : Disk) (entriesOf : String → List String) (place : List String) : Prop :=
  ∀ text, d.root.at? place = some (.file text) → entriesOf text = History.lines text

def linesAt (d : Disk) (place : List String) : List String :=
  match d.root.at? place with
  | some (.file text) => History.lines text
  | _ => []

theorem linesAt_of_file {d : Disk} {place : List String} {text : String}
    (h : d.root.at? place = some (.file text)) : d.linesAt place = History.lines text := by
  rw [linesAt, h]

theorem newline_not_mem_linesAt {d : Disk} {place : List String} {line : String}
    (h : line ∈ d.linesAt place) : '\n' ∉ line.toList := by
  rw [linesAt] at h
  split at h
  · exact History.newline_not_mem_lines h
  · cases h

theorem ne_empty_of_mem_linesAt {d : Disk} {place : List String} {line : String}
    (h : line ∈ d.linesAt place) : line ≠ "" := by
  rw [linesAt] at h
  split at h
  · exact History.ne_empty_of_mem_lines h
  · cases h

theorem walk_of_folders {root root' : Node}
    (h : ∀ trail, (∃ es, root.at? trail = some (.folder es)) →
      ∃ es, root'.at? trail = some (.folder es)) (parts start : List String) {trail : List String}
    (hw : walk root start parts = .ok trail) : walk root' start parts = .ok trail := by
  induction parts generalizing start with
  | nil => exact hw
  | cons part parts ih =>
    rw [walk] at hw ⊢
    cases hs : root.at? start with
    | none => simp [hs] at hw
    | some node =>
      cases node with
      | file text => simp [hs] at hw
      | folder entries =>
        obtain ⟨es, he⟩ := h start ⟨entries, hs⟩
        rw [hs] at hw
        rw [he]
        dsimp only at hw ⊢
        split at hw
        · cases hw
        · rw [if_neg ‹_›]
          exact ih _ hw

variable {d : Disk} {p : Path} {folder : List String} {name : String}

theorem trail_putFile {place trail : List String}
    (hn : ∀ entries, d.root.at? place ≠ some (.folder entries)) (text : String)
    (h : d.trail p = .ok trail) : (d.putFile place text).trail p = .ok trail := by
  rw [Disk.trail] at h ⊢
  split at h
  · cases h
  · rw [if_neg ‹_›]
    exact walk_of_folders (fun _ => Node.at?_put_of_folder text hn) _ _ h

namespace Serves

theorem at?_putFile (h : d.Serves p folder name) (text : String) :
    (d.putFile (folder ++ [name]) text).root.at? (folder ++ [name]) = some (.file text) := by
  obtain ⟨entries, hf⟩ := h.folder_there
  exact Node.at?_put text folder name d.root entries hf

theorem putFile {q : Path} (h : d.Serves p folder name) (hq : d.Serves q folder name)
    (text : String) : (d.putFile (folder ++ [name]) text).Serves q folder name where
  leads := trail_putFile h.no_folder text hq.leads
  folder_there := Node.at?_put_of_folder text h.no_folder h.folder_there
  no_folder := by simp [h.at?_putFile text]
  path_fits := hq.path_fits
  name_fits := hq.name_fits

theorem write (h : d.Serves p folder name) (text : String) :
    d.write p text = .ok (d.putFile (folder ++ [name]) text) := by
  rw [Disk.write, h.leads]
  dsimp only
  cases hn : d.root.at? (folder ++ [name]) with
  | none => rfl
  | some node =>
    cases node with
    | folder entries => exact absurd hn (h.no_folder entries)
    | file old =>
      have hp := h.path_fits
      have hm := h.name_fits
      have hfits : ¬(pathLimit < p.text.utf8ByteSize + standInLength
          ∨ nameLimit < (p.parts.getLast?.getD "").utf8ByteSize + standInLength) := by omega
      rw [if_neg (by simpa using hfits)]
      rfl

theorem read (h : d.Serves p folder name) :
    (∃ text, d.root.at? (folder ++ [name]) = some (.file text) ∧ d.read p = .ok text)
      ∨ d.root.at? (folder ++ [name]) = none ∧ d.read p = .error .notFound := by
  rw [Disk.read, h.leads]
  dsimp only
  cases hn : d.root.at? (folder ++ [name]) with
  | none => exact .inr ⟨rfl, rfl⟩
  | some node =>
    cases node with
    | folder entries => exact absurd hn (h.no_folder entries)
    | file text => exact .inl ⟨text, rfl, rfl⟩

theorem load (h : d.Serves p folder name) {entriesOf : String → List String}
    (hreads : d.ReadsLines entriesOf (folder ++ [name])) :
    (History.load entriesOf d (some p)).1 = ⟨d.linesAt (folder ++ [name]), some p⟩ := by
  rw [linesAt, History.load]
  rcases h.read with ⟨text, hat, hread⟩ | ⟨hat, hread⟩
  · rw [hat, hread, History.ofFile, hreads text hat]
  · rw [hat, hread, History.ofFile]

end Serves

end Disk

namespace Launch

variable {s : Settings} {homes : Homes}

theorem plan_eq_ok_iff {words : List String} {p : Plan} :
    plan s homes words = .ok p ↔
      ∃ o level file, Options.parse words = .ok o ∧ threshold o s = .ok level ∧
        historyPath o s homes = .ok file ∧ p = ⟨level, file, mode o s, s.promptText⟩ := by
  rw [plan]
  constructor
  · intro h
    cases ho : Options.parse words with
    | error stop =>
      rw [ho] at h
      cases h
    | ok o =>
      rw [ho] at h
      replace h : (threshold o s >>= fun _ => _) = _ := h
      cases ht : threshold o s with
      | error refusal =>
        rw [ht] at h
        cases h
      | ok level =>
        rw [ht] at h
        replace h : ((historyPath o s homes).mapError Refusal.setting >>= fun _ => _) = _ := h
        cases hf : historyPath o s homes with
        | error fault =>
          rw [hf] at h
          cases h
        | ok file =>
          rw [hf] at h
          cases h
          exact ⟨o, level, file, rfl, ht, hf, rfl⟩
  · rintro ⟨o, level, file, ho, ht, hf, rfl⟩
    rw [ho]
    show (threshold o s >>= fun _ => _) = _
    rw [ht]
    show ((historyPath o s homes).mapError Refusal.setting >>= fun _ => _) = _
    rw [hf]
    rfl

theorem threshold_of_absent {o : Options} {level : Level} (ho : o.logLevel = .absent)
    (hs : s.threshold = .ok level) : threshold o s = .ok level := by
  rw [threshold, ho]
  dsimp only
  rw [hs]
  rfl

theorem historyPath_eq_some_iff {o : Options} {path : Path} :
    historyPath o s homes = .ok (some path) ↔
      o.history = true ∧ s.historyPath homes = .ok (some path) := by
  rw [historyPath]
  cases o.history <;> simp

end Launch

structure Sitting where
  red : String → String
  settings : Settings
  homes : Homes
  words : List String
  inputs : List Input
  typed : List String

namespace Sitting

variable (entriesOf : String → List String)

def launch (v : Sitting) (d : Disk) : Launch :=
  .runWith v.red entriesOf ⟨v.settings, v.homes, d⟩ v.words v.inputs

def close (v : Sitting) (d : Disk) : Disk := ((v.launch entriesOf d).finish v.typed d).1

def historyFile (v : Sitting) : Option Path :=
  match Launch.plan v.settings v.homes v.words with
  | .ok plan => plan.historyFile
  | .error _ => none

def KeepsHistory (v : Sitting) : Prop := v.historyFile.isSome

instance (v : Sitting) : Decidable v.KeepsHistory := inferInstanceAs (Decidable (_ = true))

def gives (v : Sitting) : List String :=
  if v.KeepsHistory then v.typed.filter (· ≠ "") else []

variable {entriesOf} {v : Sitting} {d : Disk}

theorem history_launch (v : Sitting) (d : Disk) :
    (v.launch entriesOf d).history = (History.load entriesOf d v.historyFile).1 := by
  rw [launch, Launch.runWith, historyFile]
  cases Launch.plan v.settings v.homes v.words <;> rfl

theorem close_of_none (h : v.historyFile = none) (d : Disk) : v.close entriesOf d = d := by
  rw [close, Launch.finish, history_launch, h]
  rfl

variable {p : Path} {folder : List String} {name : String}

theorem close_of_some (h : v.historyFile = some p) (hs : d.Serves p folder name)
    (hreads : d.ReadsLines entriesOf (folder ++ [name])) :
    v.close entriesOf d
      = d.putFile (folder ++ [name])
          (History.text (d.linesAt (folder ++ [name]) ++ v.typed)) := by
  rw [close, Launch.finish, history_launch, h, hs.load hreads, History.save]
  dsimp only [History.type]
  rw [hs.write]

theorem serves_close (hserves : ∀ p, v.historyFile = some p → d.Serves p folder name)
    (hreads : d.ReadsLines entriesOf (folder ++ [name])) (hp : d.Serves p folder name) :
    (v.close entriesOf d).Serves p folder name := by
  cases h : v.historyFile with
  | none =>
    rw [close_of_none h]
    exact hp
  | some q =>
    rw [close_of_some h (hserves q h) hreads]
    exact (hserves q h).putFile hp _

theorem gives_of_none (h : v.historyFile = none) : v.gives = [] :=
  if_neg (by simp [KeepsHistory, h])

theorem gives_of_some (h : v.historyFile = some p) : v.gives = v.typed.filter (· ≠ "") :=
  if_pos (by simp [KeepsHistory, h])

theorem linesAt_close (hserves : ∀ p, v.historyFile = some p → d.Serves p folder name)
    (hplain : ∀ line ∈ v.typed, '\n' ∉ line.toList)
    (hreads : d.ReadsLines entriesOf (folder ++ [name])) :
    (v.close entriesOf d).linesAt (folder ++ [name]) = d.linesAt (folder ++ [name]) ++ v.gives := by
  cases h : v.historyFile with
  | none => rw [close_of_none h, gives_of_none h, List.append_nil]
  | some p =>
    have hs := hserves p h
    have hall : ∀ e ∈ d.linesAt (folder ++ [name]) ++ v.typed, '\n' ∉ e.toList := by
      intro e he
      rcases List.mem_append.1 he with he | he
      · exact Disk.newline_not_mem_linesAt he
      · exact hplain e he
    -- nothing that was loaded is empty, so nothing of it is lost when it is written and read again
    have hkept : (d.linesAt (folder ++ [name])).filter (· ≠ "") = d.linesAt (folder ++ [name]) :=
      List.filter_eq_self.2 fun e he => by simpa using Disk.ne_empty_of_mem_linesAt he
    rw [close_of_some h hs hreads, Disk.linesAt_of_file (hs.at?_putFile _),
      History.lines_text _ hall, List.filter_append, hkept, gives_of_some h]

theorem historyFile_eq_some_iff :
    v.historyFile = some p ↔
      ∃ o level, Options.parse v.words = .ok o ∧ Launch.threshold o v.settings = .ok level ∧
        o.history = true ∧ v.settings.historyPath v.homes = .ok (some p) := by
  rw [historyFile]
  constructor
  · intro h
    split at h
    · rename_i plan hplan
      obtain ⟨o, level, file, ho, ht, hf, rfl⟩ := Launch.plan_eq_ok_iff.1 hplan
      obtain rfl : file = some p := h
      obtain ⟨hon, hpath⟩ := Launch.historyPath_eq_some_iff.1 hf
      exact ⟨o, level, ho, ht, hon, hpath⟩
    · cases h
  · rintro ⟨o, level, ho, ht, hon, hpath⟩
    have hf := Launch.historyPath_eq_some_iff.2 ⟨hon, hpath⟩
    rw [Launch.plan_eq_ok_iff.2 ⟨o, level, some p, ho, ht, hf, rfl⟩]

theorem historyFile_eq_none
    (h : (∃ o, Options.parse v.words = .ok o ∧ o.history = false)
      ∨ ∃ text, v.settings.historyFile = some text ∧ trim text = "") :
    v.historyFile = none := by
  rw [Option.eq_none_iff_forall_ne_some]
  intro p hp
  obtain ⟨o, level, ho, -, hon, hpath⟩ := historyFile_eq_some_iff.1 hp
  rcases h with ⟨o', ho', hoff⟩ | ⟨text, hset, hblank⟩
  · rw [ho] at ho'
    cases ho'
    simp [hon] at hoff
  · simp [Settings.historyPath, hset, hblank] at hpath

theorem outcome_of_wrong_mode {o : Options} {fault : SettingFault}
    (ho : Options.parse v.words = .ok o) (hm : Launch.mode o v.settings = .error fault)
    (hk : v.KeepsHistory) : (v.launch entriesOf d).outcome = .error fault := by
  obtain ⟨p, hp⟩ := Option.isSome_iff_exists.1 hk
  obtain ⟨o', level, ho', ht, hon, hpath⟩ := historyFile_eq_some_iff.1 hp
  rw [ho] at ho'
  cases ho'
  have hf := Launch.historyPath_eq_some_iff.2 ⟨hon, hpath⟩
  rw [launch, Launch.runWith, Launch.plan_eq_ok_iff.2 ⟨o, level, some p, ho, ht, hf, rfl⟩]
  dsimp only
  rw [hm]
  rfl

end Sitting

namespace Disk

def after (entriesOf : String → List String) (d : Disk) (sittings : List Sitting) : Disk :=
  sittings.foldl (fun d v => v.close entriesOf d) d

variable {entriesOf : String → List String} {folder : List String} {name : String}

theorem linesAt_after {d : Disk} {sittings : List Sitting}
    (hserves : ∀ v ∈ sittings, ∀ p, v.historyFile = some p → d.Serves p folder name)
    (hplain : ∀ v ∈ sittings, ∀ line ∈ v.typed, '\n' ∉ line.toList)
    (hreads : ∀ before, before <+: sittings →
      (d.after entriesOf before).ReadsLines entriesOf (folder ++ [name])) :
    (d.after entriesOf sittings).linesAt (folder ++ [name])
      = d.linesAt (folder ++ [name]) ++ sittings.flatMap Sitting.gives := by
  induction sittings generalizing d with
  | nil => simp [after]
  | cons v vs ih =>
    -- the first session leaves a disk from which the others may start
    have hv := hserves v (by simp)
    have hread := hreads [] List.nil_prefix
    have hstep := Sitting.linesAt_close hv (hplain v (by simp)) hread
    have hrest := ih (d := v.close entriesOf d)
      (fun w hw p hp => Sitting.serves_close hv hread (hserves w (by simp [hw]) p hp))
      (fun w hw => hplain w (by simp [hw]))
      (fun before hb => hreads (v :: before) (List.cons_prefix_cons.2 ⟨rfl, hb⟩))
    rw [List.flatMap_cons, ← List.append_assoc, ← hstep, ← hrest]
    rfl

/-- After each of any number of sessions the file holds the lines that it held at first and those
that the sessions with a history gave, in their order. A session has a history once the command
line, the level and the path are settled; the scoping mode does not count. The other sessions leave
the whole disk as it is, and a session that is broken off by its mode after loading counts as any
other. -/
theorem history_survives {d : Disk} {sittings : List Sitting}
    (hserves : ∀ v ∈ sittings, ∀ p, v.historyFile = some p → d.Serves p folder name)
    (hplain : ∀ v ∈ sittings, ∀ line ∈ v.typed, '\n' ∉ line.toList)
    (hreads : ∀ before, before <+: sittings →
      (d.after entriesOf before).ReadsLines entriesOf (folder ++ [name])) :
    (∀ before, before <+: sittings →
      (d.after entriesOf before).linesAt (folder ++ [name])
        = d.linesAt (folder ++ [name]) ++ before.flatMap Sitting.gives) ∧
    (∀ (v : Sitting) (p : Path), v.historyFile = some p ↔
      ∃ o level, Options.parse v.words = .ok o ∧ Launch.threshold o v.settings = .ok level ∧
        o.history = true ∧ v.settings.historyPath v.homes = .ok (some p)) ∧
    (∀ (v : Sitting) (e : Disk),
      ((∃ o, Options.parse v.words = .ok o ∧ o.history = false) ∨
        ∃ text, v.settings.historyFile = some text ∧ trim text = "") →
      v.close entriesOf e = e) ∧
    ∀ (v : Sitting) (e : Disk) (o : Options) (fault : SettingFault),
      Options.parse v.words = .ok o → Launch.mode o v.settings = .error fault →
      v.KeepsHistory → (v.launch entriesOf e).outcome = .error fault := by
  refine ⟨fun before hb => ?_, fun v p => Sitting.historyFile_eq_some_iff, fun v e h => ?_,
    fun v e o fault ho hm hk => ?_⟩
  · exact linesAt_after (fun v hv => hserves v (hb.subset hv)) (fun v hv => hplain v (hb.subset hv))
      fun earlier he => hreads earlier (he.trans hb)
  · exact Sitting.close_of_none (Sitting.historyFile_eq_none h) e
  · exact Sitting.outcome_of_wrong_mode ho hm hk

end Disk

def Sitting.withHist (words : List String) (scoping : Option String) (typed : List String) :
    Sitting :=
  ⟨Launch.red, ⟨scoping, none, some "hist", some "INFO"⟩, ⟨"/home/me", []⟩, words, [], typed⟩

theorem Sitting.historyFile_withHist (scoping : Option String) (typed : List String) :
    (withHist [] scoping typed).historyFile = some ⟨0, ["hist"]⟩ := by
  have hu : upper (trim "INFO") = "INFO" := by decide +kernel
  have hl : Level.ofName? "INFO" = some .info := by decide +kernel
  have ht : trim "hist" = "hist" := by decide +kernel
  have hp : (Path.parse "hist").expand? ⟨"/home/me", []⟩ = some ⟨0, ["hist"]⟩ := by
    decide +kernel
  refine historyFile_eq_some_iff.2 ⟨.default, .info, rfl, ?_, rfl, ?_⟩
  · refine Launch.threshold_of_absent rfl ?_
    simp [withHist, Settings.threshold, hu, hl]
  · simp [withHist, Settings.historyPath, ht, hp]

theorem Sitting.historyFile_withHist_off (scoping : Option String) (typed : List String) :
    (withHist ["--no-history"] scoping typed).historyFile = none := by
  have hparse : (Options.parse ["--no-history"]).toOption = some ⟨.absent, .absent, false⟩ := by
    decide +kernel
  cases ho : Options.parse ["--no-history"] with
  | error stop =>
    rw [ho] at hparse
    cases hparse
  | ok o =>
    rw [ho] at hparse
    cases hparse
    exact historyFile_eq_none (.inl ⟨_, ho, rfl⟩)

namespace Disk

def withHist (text : String) : Disk := ⟨.folder [("hist", .file text)], []⟩

theorem serves_withHist (text : String) : (withHist text).Serves ⟨0, ["hist"]⟩ [] "hist" where
  leads := rfl
  folder_there := ⟨_, rfl⟩
  no_folder := by simp [withHist, Node.at?]
  path_fits := by decide +kernel
  name_fits := by decide +kernel

theorem readsLines_withHist {text : String} (h : History.parse text = History.lines text) :
    (withHist text).ReadsLines History.parse ["hist"] := by
  intro other ho
  obtain rfl : text = other := by simpa [withHist, Node.at?] using ho
  exact h

theorem close_withHist {v : Sitting} {text : String}
    (h : v.historyFile = some ⟨0, ["hist"]⟩) (hreads : History.parse text = History.lines text) :
    v.close History.parse (withHist text)
      = withHist (History.text (History.lines text ++ v.typed)) := by
  have hat : (withHist text).root.at? ["hist"] = some (.file text) := by simp [withHist, Node.at?]
  rw [Sitting.close_of_some h (serves_withHist text) (readsLines_withHist hreads), List.nil_append,
    linesAt_of_file hat]
  simp [putFile, withHist, Node.put, Named.put]

theorem history_survives_three :
    ((withHist "a\n\nb\n").after History.parse
      [.withHist [] none ["x", "", "y"], .withHist ["--no-history"] none ["lost"],
        .withHist [] (some "wild") ["z"]]).linesAt ["hist"] = ["a", "b", "x", "y", "z"] := by
  let first := Sitting.withHist [] none ["x", "", "y"]
  let second := Sitting.withHist ["--no-history"] none ["lost"]
  let third := Sitting.withHist [] (some "wild") ["z"]
  let text₀ := "a\n\nb\n"
  let text₁ := History.text (History.lines text₀ ++ first.typed)
  have hfirst : first.historyFile = some ⟨0, ["hist"]⟩ := Sitting.historyFile_withHist _ _
  have hsecond : second.historyFile = none := Sitting.historyFile_withHist_off _ _
  have hthird : third.historyFile = some ⟨0, ["hist"]⟩ := Sitting.historyFile_withHist _ _
  have hparse₀ : History.parse text₀ = History.lines text₀ := by decide +kernel
  have hparse₁ : History.parse text₁ = History.lines text₁ :=
    History.parse_eq_lines (by decide +kernel) (by decide +kernel) (by decide +kernel)
  have hparse₂ : History.parse (History.text (History.lines text₁ ++ third.typed))
      = History.lines (History.text (History.lines text₁ ++ third.typed)) :=
    History.parse_eq_lines (by decide +kernel) (by decide +kernel) (by decide +kernel)
  have hserves : ∀ v ∈ [first, second, third], ∀ p, v.historyFile = some p →
      (withHist text₀).Serves p [] "hist" := by
    simp only [List.forall_mem_cons, hfirst, hsecond, hthird]
    simp [serves_withHist]
  have hplain : ∀ v ∈ [first, second, third], ∀ line ∈ v.typed, '\n' ∉ line.toList := by
    decide +kernel
  have hreads : ∀ before, before <+: [first, second, third] →
      ((withHist text₀).after History.parse before).ReadsLines History.parse ([] ++ ["hist"]) := by
    have hstep : first.close History.parse (withHist text₀) = withHist text₁ :=
      close_withHist hfirst hparse₀
    have hkept : second.close History.parse (withHist text₁) = withHist text₁ :=
      Sitting.close_of_none hsecond _
    have hbroken := close_withHist hthird hparse₁
    simp only [List.prefix_cons_iff, List.prefix_nil]
    rintro _ (rfl | ⟨_, rfl, rfl | ⟨_, rfl, rfl | ⟨_, rfl, rfl⟩⟩⟩) <;>
      simp only [after, List.foldl_cons, List.foldl_nil, hstep, hkept, hbroken, List.nil_append]
    · exact readsLines_withHist hparse₀
    · exact readsLines_withHist hparse₁
    · exact readsLines_withHist hparse₁
    · exact readsLines_withHist hparse₂
  have h := (history_survives hserves hplain hreads).1 _ (List.prefix_refl _)
  rw [List.nil_append] at h
  rw [h, List.flatMap_cons, List.flatMap_cons, List.flatMap_cons, Sitting.gives_of_some hfirst,
    Sitting.gives_of_none hsecond, Sitting.gives_of_some hthird]
  decide +kernel

end Disk

end ScopedLisp

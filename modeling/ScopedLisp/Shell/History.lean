import ScopedLisp.Shell.Disk
import ScopedLisp.Shell.Log

/-!
The history of typed lines. Its file holds one entry a line. Reading takes the lines that have an
end and something in them; writing puts every entry down. A file whose first line is a time, such
as `#1690000000`, has times among its entries, and reading leaves those out.
-/

namespace ScopedLisp

structure History where
  entries : List String
  file : Option Path

namespace History

def completeLines : List Char → List Char → List (List Char)
  | [], _ => []
  | c :: cs, start =>
    if c = '\n' then start.reverse :: completeLines cs [] else completeLines cs (c :: start)

/-- What is loaded of a line: a carriage return that ends it does not count, nor what follows a
NUL. -/
def entry (line : List Char) : List Char :=
  (if line.getLast? = some '\r' then line.dropLast else line).takeWhile (· ≠ '\x00')

def isTime : List Char → Bool
  | '#' :: c :: _ => c.isDigit
  | _ => false

def parse (text : String) : List String :=
  let timed := isTime text.toList
  let entries := (completeLines text.toList []).map entry
  (entries.filter fun e => e ≠ [] && !(timed && isTime e)).map String.ofList

def text (entries : List String) : String :=
  String.ofList (entries.flatMap fun entry => entry.toList ++ ['\n'])

/-- The entries that are taken down in a session come after the loaded ones. A line that equals the
latest entry is not taken down. -/
def type (h : History) (lines : List String) : History := { h with entries := h.entries ++ lines }

def couldNot (verb : String) (path : Path) (fault : FileFault) : LogLine :=
  .shell .warning ("could not " ++ verb ++ " history file " ++ path.text ++ ": " ++ fault.message)

def ofFile (entriesOf : String → List String) (path : Path) :
    Except FileFault String → History × List LogLine
  | .ok text => (⟨entriesOf text, some path⟩, [])
  | .error .notFound => (⟨[], some path⟩, [])
  | .error fault => (⟨[], some path⟩, [couldNot "read" path fault])

def load (entriesOf : String → List String) (disk : Disk) : Option Path → History × List LogLine
  | none => (⟨[], none⟩, [])
  | some path => ofFile entriesOf path (disk.read path)

def save (h : History) (disk : Disk) : Disk × List LogLine :=
  match h.file with
  | none => (disk, [])
  | some path =>
    match disk.write path (text h.entries) with
    | .ok disk => (disk, [])
    | .error fault => (disk, [couldNot "write" path fault])

theorem completeLines_append (line rest start : List Char) (h : '\n' ∉ line) :
    completeLines (line ++ '\n' :: rest) start
      = (start.reverse ++ line) :: completeLines rest [] := by
  induction line generalizing start with
  | nil => simp [completeLines]
  | cons c cs ih =>
    rw [List.mem_cons, not_or] at h
    have hc : c ≠ '\n' := fun he => h.1 he.symm
    simp [completeLines, hc, ih _ h.2]

theorem completeLines_text (entries : List String) (h : ∀ e ∈ entries, '\n' ∉ e.toList) :
    completeLines (text entries).toList [] = entries.map String.toList := by
  induction entries with
  | nil => rfl
  | cons e es ih =>
    have ih := ih fun x hx => h x (by simp [hx])
    simp only [text, String.toList_ofList] at ih ⊢
    rw [List.flatMap_cons, List.append_assoc, List.singleton_append,
      completeLines_append _ _ _ (h e (by simp)), ih]
    rfl

theorem parse_text (entries : List String) (hl : ∀ e ∈ entries, '\n' ∉ e.toList)
    (he : ∀ e ∈ entries, entry e.toList = e.toList) (ht : isTime (text entries).toList = false) :
    parse (text entries) = entries.filter (· ≠ "") := by
  have hm : (entries.map String.toList).map entry = entries.map String.toList := by
    rw [List.map_map]
    exact List.map_congr_left he
  rw [parse, completeLines_text _ hl, hm, ht, List.filter_map, List.map_map]
  simp [Function.comp_def]

end History

end ScopedLisp

import ScopedLisp.Shell.Launch

namespace ScopedLisp.Terminal

def fileFault : IO.Error → FileFault
  | .noFileOrDirectory .. => .notFound
  | .inappropriateType _ code _ => if code = 20 || code + 20 = 0 then .notFolder else .isFolder
  | .permissionDenied .. => .denied
  | .invalidArgument _ code _ => if code = 36 || code + 36 = 0 then .nameTooLong else .invalid
  | _ => .invalid

def readFile (path : Path) : IO (Except FileFault String) := do
  try
    return .ok (← IO.FS.readFile path.text)
  catch e =>
    match fileFault e with
    | .isFolder => return .error .invalid
    | fault => return .error fault

def loadHistory : Option Path → IO (History × List LogLine)
  | none => pure (⟨[], none⟩, [])
  | some path => do pure (History.ofFile History.parse path (← readFile path))

def emit (prompt : String) (level : Level) (outputs : List Output) : IO Unit := do
  for output in outputs do
    IO.print (output.onOutput prompt)
    IO.eprint (output.onError Launch.red level)
  (← IO.getStdout).flush

def saveHistory (level : Level) (history : History) : IO Unit := do
  if let some path := history.file then
    try
      IO.FS.writeFile path.text (History.text history.entries)
    catch e =>
      emit "" level [.log (History.couldNot "write" path (fileFault e))]

partial def converse (i : Interpreter) (prompt : String) (level : Level) (s : Store) :
    IO (List String × Option Failure) := do
  emit prompt level [.prompt]
  let line ← (← IO.getStdin).getLine
  if line = "" then
    emit prompt level [.newline]
    return ([], none)
  let text := String.ofList (Text.dropEnd (· == '\n') line.toList)
  if Dialogue.quits (.line text) then
    return ([text], none)
  let r := Dialogue.respond level.hearsEvents i s (.line text)
  emit prompt level r.outputs
  if r.broken.isSome then
    return ([text], r.broken)
  let (lines, broken) ← converse i prompt level r.store
  return (text :: lines, broken)

def readSettings : IO Settings := do
  return {
    scoping := ← IO.getEnv "SLISP_SCOPING"
    prompt := ← IO.getEnv "SLISP_PROMPT"
    historyFile := ← IO.getEnv "SLISP_HISTORY_FILE"
    logLevel := ← IO.getEnv "SLISP_LOG_LEVEL" }

def readHomes : IO Homes := do
  let own := (← IO.getEnv "HOME").getD "/"
  let table ← readFile (.parse "/etc/passwd")
  return ⟨own, Homes.accountsOf (table.toOption.getD "")⟩

def fail (fault : SettingFault) : IO UInt32 := do
  IO.eprintln fault.message
  return 1

def runPlan (p : Launch.Plan) : IO UInt32 := do
  let (history, logged) ← loadHistory p.historyFile
  emit "" p.level (logged.map .log)
  match p.mode with
  | .error fault =>
    saveHistory p.level history
    fail fault
  | .ok mode =>
    let (i, store) := Launch.interpreter mode
    emit "" p.level [Launch.opening]
    let (lines, broken) ← converse i p.prompt p.level store
    let (exitCode, last, words) := Launch.ending broken
    emit "" p.level last
    IO.eprint words
    let typed := if ← (← IO.getStdin).isTty then lines.filter (· ≠ "") else []
    saveHistory p.level (history.type typed)
    return exitCode.toUInt32

end ScopedLisp.Terminal

open ScopedLisp in
def main (words : List String) : IO UInt32 := do
  match Launch.plan (← Terminal.readSettings) (← Terminal.readHomes) words with
  | .ok plan => Terminal.runPlan plan
  | .error (.setting fault) => Terminal.fail fault
  | .error (.stop stop) =>
    let t := Launch.stopped [] stop
    IO.print t.output
    IO.eprint t.errors
    return t.exitCode.toUInt32

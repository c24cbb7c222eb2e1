import NotepadCalculator.CommandLine
import NotepadCalculator.Session.Basic

/-! The program: it reads its command line and hands one line after another to a session. -/
open NotepadCalculator Calendar Money

def attempt {β : Type} (action : IO β) : IO (Except FileFault β) := do
  match ← action.toBaseIO with
  | .ok b => return .ok b
  | .error (.noFileOrDirectory ..) => return .error .notFound
  | .error e => return .error (.reported (toString e))

instance : Files IO where
  read path := attempt (IO.FS.readFile path)
  write path text := attempt (IO.FS.writeFile path text)

/-- The present moment, at which a file just made has been changed last. -/
def present : IO (Option Moment) :=
  IO.FS.withTempFile fun _ path => do
    let time := (← path.metadata).modified
    return Moment.ofInstant? (time.sec * nanosPerSecond + time.nsec.toNat)

def perform (s : Session) (action : Session → IO (Option Reply)) : IO Reply := do
  let now := (← present).getD s.sheet.now
  match ← action { s with sheet.now := now } with
  | none => throw (IO.userError "files open one another without end")
  | some reply =>
    IO.print reply.printed
    return reply

/-- Whether lines may follow, and the session for them. -/
def performAll (s : Session) : List (Session → IO (Option Reply)) → IO Unit
  | [] => return
  | action :: rest => do
    let reply ← perform s action
    match reply.flow with
    | .proceed => performAll reply.session rest
    | .quit => return

def stripLineEnd (line : String) : String :=
  let cs := line.toList.reverse.dropWhile fun c => c = '\n' || c = '\r'
  String.ofList cs.reverse

partial def converse (s : Session) (input output : IO.FS.Stream) : IO Unit := do
  if ← input.isTty then
    output.putStr "> "
    output.flush
  let line ← input.getLine
  if line.isEmpty then return
  let reply ← perform s fun s => s.handle (stripLineEnd line)
  match reply.flow with
  | .proceed => converse reply.session input output
  | .quit => return

def readConfiguration : Option String → IO Configuration
  | none => return .default
  | some path => do
    match Configuration.read? (← IO.FS.readFile path) with
    | some c => return c
    | none => throw (IO.userError s!"invalid configuration in {path}")

def work (c : CommandLine) : IO Unit := do
  let configuration := (← readConfiguration c.configuration).apply c.overrides
  if let some fault := configuration.fault? then throw (IO.userError fault)
  let some now ← present | throw (IO.userError "the calendar has no present day")
  let s : Session := ⟨.new configuration.settings .standard now, c.records⟩
  let text ← c.file.mapM fun path => IO.FS.readFile path
  let actions := text.toList.map (fun text (s : Session) => s.replay (m := IO) text)
    ++ c.expressions.map (fun line (s : Session) => s.handle (m := IO) line)
  if actions.isEmpty then converse s (← IO.getStdin) (← IO.getStdout)
  else performAll s actions

def main (arguments : List String) : IO UInt32 := do
  match CommandLine.read arguments with
  | .error fault =>
    IO.eprintln s!"error: {fault.message}"
    return 2
  | .ok c =>
    if c.help then
      IO.println CommandLine.usage
      return 0
    match ← (work c).toBaseIO with
    | .ok () => return 0
    | .error e =>
      IO.eprintln s!"Error: {e}"
      return 1

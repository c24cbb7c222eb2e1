import NotepadCalculator.Session.Files
import NotepadCalculator.Sheet.Basic
import NotepadCalculator.Value.Record

/-!
A session prints what comes of each line and has commands of its own, for saving the lines of the
sheet, for opening saved lines in their place, and for leaving. An opened file may open others.
-/
namespace NotepadCalculator

inductive Flow where
  | proceed
  | quit
  deriving DecidableEq, Repr

structure Session where
  sheet : Sheet
  records : Bool
  deriving Repr

structure Reply where
  flow : Flow
  printed : String
  session : Session

inductive HostCommand where
  | save (path : String)
  | open (path : String)
  | quit
  | misused (name : String)
  deriving DecidableEq, Repr

/-- Commands of the session are told from those of the sheet by their exact names. -/
def HostCommand.ofTokens? : List Token → Option HostCommand
  | [] => none
  | first :: rest =>
    let arguments := (rest.filter (·.kind = .commandArg)).map (·.text)
    if first.kind ≠ .command then none
    else match first.text, arguments with
      | "save", [path] => some (.save path)
      | "open", [path] => some (.open path)
      | "quit", [] => some .quit
      | "q", [] => some .quit
      | "save", _ => some (.misused "save")
      | "open", _ => some (.misused "open")
      | _, _ => none

namespace Session

def printedLine (text : String) : String := text ++ "\n"

def record (input : String) (outcome : Outcome) (places : Nat) : String :=
  let text (t : Option String) := (t.map Record.quoted).getD "null"
  Record.object [
    ("display", text (outcome.show? places)),
    ("error", text outcome.message?),
    ("input", Record.quoted input),
    ("value", (outcome.value?.map Record.value).getD "null")]

/-- Shown with the settings that hold after the line. -/
def printed (s : Session) (input : String) (outcome : Outcome) : String :=
  let places := s.sheet.settings.precision
  if s.records then
    if outcome = .silent then "" else printedLine (record input outcome places)
  else ((outcome.show? places).map printedLine).getD ""

def savedText (s : Session) : String := String.join (s.sheet.lines.map (printedLine ·.input))

def enter (s : Session) (input : String) : Reply :=
  let (outcome, sheet) := s.sheet.enter input
  let s := { s with sheet := sheet }
  ⟨.proceed, s.printed input outcome, s⟩

def complaint (text : String) : String := printedLine ("Error: " ++ text)

section
variable {m : Type → Type} [Monad m] [Files m]

def save (s : Session) (path : String) : m Reply := do
  match ← Files.write path s.savedText with
  | .ok () => return ⟨.proceed, "", s⟩
  | .error fault => return ⟨.proceed, complaint s!"Failed to write {path}: {fault.message}", s⟩

def handleAll (handle : Session → String → m (Option Reply)) :
    Session → List String → m (Option Reply)
  | s, [] => return some ⟨.proceed, "", s⟩
  | s, line :: rest => do
    match ← handle s line with
    | none => return none
    | some reply => match reply.flow with
      | .quit => return some reply
      | .proceed =>
        return (← handleAll handle reply.session rest).map fun later =>
          { later with printed := reply.printed ++ later.printed }

/-- Replaces the sheet's lines by those of a file. Quitting inside the file only ends the file. -/
def openFile (handle : Session → String → m (Option Reply)) (s : Session) (path : String) :
    m (Option Reply) := do
  match ← Files.read path with
  | .error fault =>
    return some ⟨.proceed, complaint s!"Failed to read {path}: {fault.message}", s⟩
  | .ok text =>
    let s := { s with sheet := s.sheet.clear }
    return (← handleAll handle s (Text.documentLines text)).map fun reply =>
      { reply with flow := .proceed }

/-- Files that open files may go so many deep; below that there is no answer. -/
def handleWithin : Nat → Session → String → m (Option Reply)
  | 0, _, _ => return none
  | depth + 1, s, line =>
    match HostCommand.ofTokens? (tokenize line) with
    | some .quit => return some ⟨.quit, "", s⟩
    | some (.save path) => return some (← s.save path)
    | some (.open path) => s.openFile (handleWithin depth) path
    | some (.misused name) => return some ⟨.proceed, complaint s!"usage: :{name} <path>", s⟩
    | none => return some (s.enter line)

/-- How many files may be open at once, which is more than there is room for. -/
def depthLimit : Nat := 4294967296

def handle (s : Session) (line : String) : m (Option Reply) := handleWithin depthLimit s line

def replay (s : Session) (text : String) : m (Option Reply) :=
  handleAll handle s (Text.documentLines text)

end

end Session

end NotepadCalculator

import NotepadCalculator.Evaluation.Evaluate

/-!
The files a session reads and writes. Paths mean what the store of the files makes of them; one such
store is a directory of texts under plain names, without other directories in it or around it.
-/
namespace NotepadCalculator

inductive FileFault where
  | notFound
  | notDirectory
  | isDirectory
  | badName
  | nameTooLong
  /-- What the surrounding system reports, on one line. -/
  | system (message : String) (unbroken : '\n' ∉ message.toList)
  deriving DecidableEq, Repr

namespace FileFault

def message : FileFault → String
  | .notFound => "No such file or directory (os error 2)"
  | .notDirectory => "Not a directory (os error 20)"
  | .isDirectory => "Is a directory (os error 21)"
  | .badName => "file name contained an unexpected NUL byte"
  | .nameTooLong => "File name too long (os error 36)"
  | .system message _ => message

theorem unbroken_message (fault : FileFault) : '\n' ∉ fault.message.toList := by
  cases fault with
  | system message unbroken => exact unbroken
  | _ => decide

def reported (message : String) : FileFault :=
  .system (String.ofList (message.toList.map fun c => if c = '\n' then ' ' else c)) <| by
    rw [String.toList_ofList, List.mem_map]
    rintro ⟨c, _, broken⟩
    split at broken
    · contradiction
    · contradiction

end FileFault

class Files (m : Type → Type) where
  read : String → m (Except FileFault String)
  write : String → String → m (Except FileFault Unit)

/-- What is found under a path, and what there is after writing, also where that has failed. -/
class FileStore (σ : Type) where
  read : σ → String → Except FileFault String
  write : σ → String → String → Except FileFault Unit × σ

instance {σ : Type} [FileStore σ] : Files (StateM σ) where
  read path := return FileStore.read (← get) path
  write path text := modifyGet fun files => FileStore.write files path text

/-- What has been written is found again. Nothing else comes to be found by writing, apart from a
    front part of the text where writing has broken off. -/
class LawfulFileStore (σ : Type) [FileStore σ] : Prop where
  read_written : ∀ {files later : σ} {path text : String},
    FileStore.write files path text = (.ok (), later) → FileStore.read later path = .ok text
  read_after_write : ∀ {files : σ} {path text other found : String},
    FileStore.read (FileStore.write files path text).2 other = .ok found →
      found.toList <+: text.toList ∨ FileStore.read files other = .ok found

def nameLimit : Nat := 255
def pathLimit : Nat := 4095

inductive Remainder where
  | nothing
  | slashes
  | names
  deriving DecidableEq, Repr

inductive Place where
  | directory
  | named (around : Bool) (name : String) (remainder : Remainder)
  deriving DecidableEq, Repr

def isHere (part : List Char) : Bool := part = [] || part = ['.']
def isDots (part : List Char) : Bool := isHere part || part = ['.', '.']

def Place.ofPath (path : String) : Place :=
  let parts := Text.splitAt '/' path.toList
  let around := path.toList.head? = some '/' || (parts.takeWhile isDots).contains ['.', '.']
  match parts.dropWhile isDots with
  | [] => .directory
  | name :: rest =>
    .named around (String.ofList name)
      (if rest = [] then .nothing else if rest.all (· = []) then .slashes else .names)

def pathFault? (path : String) : Option FileFault :=
  if path.toList.contains '\x00' then some .badName
  else if pathLimit < path.utf8ByteSize then some .nameTooLong
  else none

/-- Why a name cannot stand for a file. There are no files around the directory. -/
def nameFault? (around : Bool) (name : String) : Option FileFault :=
  if nameLimit < name.utf8ByteSize then some .nameTooLong
  else if around then some .notFound
  else none

abbrev Directory := Bindings String

namespace Directory

def find (d : Directory) (around : Bool) (name : String) : Except FileFault String :=
  match nameFault? around name with
  | some fault => .error fault
  | none => (d.get? name).elim (.error .notFound) .ok

def read (d : Directory) (path : String) : Except FileFault String :=
  match pathFault? path, Place.ofPath path with
  | some fault, _ => .error fault
  | none, .directory => .error .isDirectory
  | none, .named around name .nothing => d.find around name
  | none, .named around name _ => d.find around name >>= fun _ => .error .notDirectory

/-- A slash at the end asks for a directory, whether there is one or not. -/
def write (d : Directory) (path text : String) : Except FileFault Directory :=
  match pathFault? path, Place.ofPath path with
  | some fault, _ => .error fault
  | none, .directory | none, .named _ _ .slashes => .error .isDirectory
  | none, .named around name .names => d.find around name >>= fun _ => .error .notDirectory
  | none, .named around name .nothing =>
    match nameFault? around name with
    | some fault => .error fault
    | none => .ok (d.set name text)

end Directory

instance : FileStore Directory where
  read := Directory.read
  write d path text := match d.write path text with
    | .ok later => (.ok (), later)
    | .error fault => (.error fault, d)

end NotepadCalculator

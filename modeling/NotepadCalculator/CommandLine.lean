import NotepadCalculator.Settings.Configuration

/-!
The command line of the program: options over the configuration, and what to work through. Options
come in any order; a long option may be joined to its value by an equals sign.
-/
namespace NotepadCalculator
open Number

structure CommandLine where
  help : Bool
  configuration : Option String
  overrides : Overrides
  file : Option String
  expressions : List String
  records : Bool
  deriving DecidableEq, Repr

inductive CommandLineFault where
  | unexpected (argument : String)
  | valueMissing (option : String)
  | badNumber (option value : String)
  deriving DecidableEq, Repr

def CommandLineFault.message : CommandLineFault → String
  | .unexpected argument => s!"unexpected argument '{argument}'"
  | .valueMissing option => s!"a value is needed after '{option}'"
  | .badNumber option value => s!"'{value}' is no number for '{option}'"

namespace CommandLine

def usage : String := "\n".intercalate [
  "Notepad calculator with units, currencies and dates",
  "",
  "      --config <PATH>      configuration file",
  "      --precision <N>      digits after the decimal point",
  "      --no-fuzzy           do not understand phrases",
  "      --quiet              do not print the results of assignments",
  "  -e, --eval <EXPR>        evaluate an expression and exit (repeatable)",
  "  -f, --file <PATH>        work through a saved file and exit",
  "      --json               print one JSON object per result",
  "      --log-json           write diagnostics as JSON",
  "      --log-level <LEVEL>  level of the diagnostics"]

def empty : CommandLine := ⟨false, none, ⟨none, false, false, none, false⟩, none, [], false⟩

/-- An option joined to its value counts as two arguments. -/
def split (argument : String) : List String :=
  if "--".toList.isPrefixOf argument.toList then
    match Text.cut? '=' argument.toList with
    | some (option, value) => [String.ofList option, String.ofList value]
    | none => [argument]
  else [argument]

def flag? (c : CommandLine) : String → Option CommandLine
  | "--help" | "-h" => some { c with help := true }
  | "--no-fuzzy" => some { c with overrides.noFuzzy := true }
  | "--quiet" => some { c with overrides.quiet := true }
  | "--json" => some { c with records := true }
  | "--log-json" => some { c with overrides.logRecords := true }
  | _ => none

def withPrecision (c : CommandLine) (option value : String) :
    Except CommandLineFault CommandLine :=
  match natural? wordLimit value.toList with
  | some places => .ok { c with overrides.precision := some places }
  | none => .error (.badNumber option value)

def setting? (c : CommandLine) (option value : String) :
    Option (Except CommandLineFault CommandLine) :=
  match option with
  | "--config" => some (.ok { c with configuration := some value })
  | "--precision" => some (c.withPrecision option value)
  | "--log-level" => some (.ok { c with overrides.logLevel := some value })
  | "--eval" | "-e" => some (.ok { c with expressions := c.expressions ++ [value] })
  | "--file" | "-f" => some (.ok { c with file := some value })
  | _ => none

def readOnto : CommandLine → List String → Except CommandLineFault CommandLine
  | c, [] => .ok c
  | c, [last] => match c.flag? last with
    | some c => .ok c
    | none => .error (if (c.setting? last "").isSome then .valueMissing last else .unexpected last)
  | c, option :: value :: rest => match c.flag? option with
    | some c => c.readOnto (value :: rest)
    | none => match c.setting? option value with
      | some (.ok c) => c.readOnto rest
      | some (.error fault) => .error fault
      | none => .error (.unexpected option)

def read (arguments : List String) : Except CommandLineFault CommandLine :=
  empty.readOnto (arguments.flatMap split)

end CommandLine

end NotepadCalculator

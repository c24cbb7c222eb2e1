import NotepadCalculator.Error
import NotepadCalculator.Settings.Basic

/-! The commands of a sheet, read from their names and arguments. -/
namespace NotepadCalculator
open Number

inductive Command where
  | clear
  | toggleQuiet
  | setQuiet (on : Bool)
  | setFuzzy (on : Bool)
  | setPrecision (places : Nat)
  | defineUnit (name : String) (scale : Float) (base : String)
  deriving DecidableEq, Repr

namespace Command

def misuse {β : Type} (usage : Usage) : Except EvalError β :=
  .error (.invalidArguments (.usage usage))

def flag (usage : Usage) (word : String) : Except EvalError Bool :=
  match flag? word with
  | some on => .ok on
  | none => misuse usage

def readQuiet : List String → Except EvalError Command
  | [] => .ok .toggleQuiet
  | [word] => (flag .quiet word).map .setQuiet
  | _ => misuse .quiet

def readPrecision (word : String) : Except EvalError Command :=
  match natural? precisionLimit word.toList with
  | some places => .ok (.setPrecision places)
  | none => misuse .set

def readSet : List String → Except EvalError Command
  | [key, word] => match Text.lowerAscii key with
    | "precision" => readPrecision word
    | "fuzzy" => (flag .set word).map .setFuzzy
    | "quiet" => (flag .set word).map .setQuiet
    | _ => misuse .set
  | _ => misuse .set

def readUnit : List String → Except EvalError Command
  | [name, scale, base] => match float? scale with
    | some scale => .ok (.defineUnit name scale base)
    | none => misuse .unit
  | _ => misuse .unit

def read (name : String) (arguments : List String) : Except EvalError Command :=
  match name with
  | "clear" => .ok .clear
  | "quiet" => readQuiet arguments
  | "set" => readSet arguments
  | "unit" => readUnit arguments
  | name => .error (.invalidOperation (.unknownCommand name))

end Command

end NotepadCalculator

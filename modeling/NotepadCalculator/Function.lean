import NotepadCalculator.Error

/-! The functions that expressions can call, with how many arguments each takes. -/
namespace NotepadCalculator

inductive Builtin where
  | sum
  | average
  | min
  | max
  | print
  | sqrt
  | abs
  | round
  | floor
  | ceil
  deriving DecidableEq, Repr

structure Function where
  builtin : Builtin
  name : String
  least : Nat
  most : Option Nat
  deriving DecidableEq, Repr

def Function.all : List Function := [
  ⟨.sum, "sum", 1, none⟩, ⟨.sum, "total", 1, none⟩,
  ⟨.average, "average", 1, none⟩, ⟨.average, "mean", 1, none⟩,
  ⟨.min, "min", 1, none⟩, ⟨.max, "max", 1, none⟩,
  ⟨.print, "print", 1, some 1⟩,
  ⟨.sqrt, "sqrt", 1, some 1⟩, ⟨.abs, "abs", 1, some 1⟩, ⟨.round, "round", 1, some 2⟩,
  ⟨.floor, "floor", 1, some 1⟩, ⟨.ceil, "ceil", 1, some 1⟩]

def Function.find? (name : String) : Option Function :=
  let name := Text.lowerAscii name
  Function.all.find? (·.name = name)

def Function.named (name : String) : Except EvalError Function :=
  match Function.find? name with
  | some f => .ok f
  | none => .error (.unknownFunction name)

def Function.countFault? (f : Function) (given : Nat) : Option ArgumentFault :=
  if given < f.least then some (.tooFew f.name f.least given)
  else match f.most with
    | some most => if most < given then some (.tooMany f.name most given) else none
    | none => none

def Function.checkCount (f : Function) (given : Nat) : Except EvalError Unit :=
  match f.countFault? given with
  | some fault => .error (.invalidArguments fault)
  | none => .ok ()

end NotepadCalculator

import NotepadCalculator.Evaluation.Arithmetic
import NotepadCalculator.Expr.Basic
import NotepadCalculator.Function
import NotepadCalculator.Text.Words

/-!
Evaluation of one line. It may bind variables, and it records which variables and which earlier
lines it has read, in reading order, whether it succeeds or not. A chain of operators is worked off
along its left side, so that only what stands in parentheses, under a sign or in a call goes a
level deeper.
-/
namespace NotepadCalculator
open Calendar Measurement Money Number

/-- Names with what they stand for, one entry for each. They are told apart by letter case. -/
abbrev Bindings (β : Type) := List (String × β)

namespace Bindings
variable {β : Type}

def get? (b : Bindings β) (name : String) : Option β := b.lookup name

/-- A name keeps its place when it is bound again. -/
def set (b : Bindings β) (name : String) (value : β) : Bindings β :=
  match b with
  | [] => [(name, value)]
  | (n, v) :: rest => if n = name then (n, value) :: rest else (n, v) :: set rest name value

theorem get?_set (b : Bindings β) (name other : String) (value : β) :
    (b.set name value).get? other = if other = name then some value else b.get? other := by
  induction b with
  | nil => by_cases same : other = name <;> simp [set, get?, same]
  | cons entry rest ih =>
    obtain ⟨n, v⟩ := entry
    simp only [get?, set] at ih ⊢
    split
    · rename_i here
      subst here
      by_cases same : other = n
      · simp [same]
      · simp [List.lookup_cons, same, beq_eq_false_iff_ne.2 same]
    · rename_i elsewhere
      simp only [List.lookup_cons, ih]
      by_cases same : other = n
      · simp [same, elsewhere]
      · simp [beq_eq_false_iff_ne.2 same]

end Bindings

/-- What a line sees. Earlier lines are numbered from 1 and may have no value; the line itself has
    the number `line`. -/
structure Surroundings (α : Type) where
  tables : Tables α
  now : Moment
  results : List (Option (Value α))
  line : Nat
  places : Nat

structure Progress (α : Type) where
  bindings : Bindings (Value α)
  linesRead : List Nat
  variablesRead : List String
  deriving DecidableEq, Repr

def Progress.start {α : Type} (bindings : Bindings (Value α)) : Progress α := ⟨bindings, [], []⟩

/-- A failure keeps what has been recorded before it. -/
abbrev Evaluation (α β : Type) := ExceptT EvalError (StateM (Progress α)) β

namespace Evaluation
variable {α : Type}

def fail {β : Type} (e : EvalError) : Evaluation α β := throw e

def refuse {β : Type} (fault : OperationFault) : Evaluation α β := throw (.invalidOperation fault)

def ofAnswer {β : Type} : Answer β → Evaluation α β
  | .ok b => return b
  | .error e => fail e

def bind (name : String) (value : Value α) : Evaluation α Unit :=
  modify fun p => { p with bindings := p.bindings.set name value }

def noteLine (line : Nat) : Evaluation α Unit :=
  modify fun p => { p with linesRead := p.linesRead ++ [line] }

def noteVariable (name : String) : Evaluation α Unit :=
  modify fun p => { p with variablesRead := p.variablesRead ++ [name] }

def valueOf? (name : String) : Evaluation α (Option (Value α)) := return (← get).bindings.get? name

/-- Only a bound variable counts as read. -/
def readVariable (name : String) : Evaluation α (Value α) := do
  match ← valueOf? name with
  | none => fail (.undefinedVariable name)
  | some value =>
    noteVariable name
    return value

end Evaluation

section
variable {α : Type} [Amount α]
open Evaluation

namespace Surroundings
variable (s : Surroundings α)

def lineNamed : Reference → Answer Nat
  | .latest =>
    if s.results = [] then .error (.outOfReach .nothingYet) else .ok s.results.length
  | .back count =>
    if count + 1 < s.line then .ok (s.line - (count + 1))
    else .error (.outOfReach (.beforeFirst count))
  | .line number =>
    if number < s.line then .ok number else .error (.outOfReach (.notYet number))

def result? (line : Nat) : Option (Option (Value α)) :=
  if line = 0 then none else s.results[line - 1]?

/-- A line counts as read even if it has no value. -/
def previous (reference : Reference) : Evaluation α (Value α) := do
  let line ← ofAnswer (s.lineNamed reference)
  match s.result? line with
  | none => fail (.outOfReach (.missing line))
  | some result =>
    noteLine line
    match result with
    | some value => return value
    | none => refuse (.noResult line)

/-- An amount with a word after it: a unit, else a currency, else a factor of a variable. -/
def unitLiteral (amount : α) (name : String) : Evaluation α (Value α) := do
  if s.tables.units.isUnit name then
    return .unit amount (← ofAnswer (measured (s.tables.units.canonicalName name)))
  match s.tables.rates.codeOf? name with
  | some code => return .currency amount code
  | none =>
    if (← valueOf? name).isSome then
      ofAnswer (s.tables.binary .multiply (.number amount) (← readVariable name))
    else fail (.unknownUnit name)

def currencyLiteral (amount : α) (word : String) : Answer (Value α) :=
  match s.tables.rates.codeOf? word with
  | some code => .ok (.currency amount code)
  | none => .error (.unknownCurrency word)

def date (spec : DateSpec) : Answer (Value α) :=
  match spec.resolve? s.now with
  | some moment => .ok (.date moment)
  | none => .error .beyondCalendar

/-! Functions. -/

def sum : List (Value α) → Answer (Value α)
  | [] => .error (.invalidArguments .nothingToSum)
  | first :: rest => rest.foldlM (s.tables.binary .add) first

def average (values : List (Value α)) : Answer (Value α) := do
  s.tables.binary .divide (← s.sum values) (.number (Amount.ofNat values.length))

/-- The better of two values, which must be of one kind: the first unless the other exceeds it, or
    falls short of it when the least is wanted. -/
def better (f : Function) (largest : Bool) (best value : Value α) : Answer (Value α) := do
  if value.kind ≠ best.kind then
    throw (.invalidArguments (.unlike f.name best.kind value.kind))
  match (← s.tables.binary .subtract value best).amount? with
  | none => throw (.invalidArguments (.incomparable f.name))
  | some difference =>
    if (if largest then Amount.isPositive difference else Amount.isNegative difference) then
      return value
    else return best

def extreme (f : Function) (largest : Bool) : List (Value α) → Answer (Value α)
  | [] => .error (.invalidArguments (.needsValue f.name))
  | first :: rest => rest.foldlM (s.better f largest) first

end Surroundings

def onAmount (f : Function) (value : Value α) (change : α → Answer α) : Answer (Value α) :=
  match value with
  | .scalar tag a => return .scalar tag (← change a)
  | value => .error (.invalidArguments (.noAmount f.name value.kind))

def squareRoot (a : α) : Answer α :=
  if Amount.isNegative a then .error (.invalidArguments .negativeRoot) else .ok (Amount.root a)

def roundedPlaces : Option (Value α) → Answer Int
  | none => .ok 0
  | some value =>
    let whole := match value with
      | .number a => Amount.whole? a
      | _ => none
    match whole.filter (·.natAbs ≤ 15) with
    | some n => .ok n
    | none => .error (.invalidArguments .unevenPlaces)

def Surroundings.apply (s : Surroundings α) (f : Function) (values : List (Value α)) :
    Answer (Value α) :=
  match f.builtin, values with
  | .sum, values => s.sum values
  | .average, values => s.average values
  | .min, values => s.extreme f false values
  | .max, values => s.extreme f true values
  | _, [] => .error (.invalidArguments (.needsValue f.name))
  | .sqrt, value :: _ => onAmount f value squareRoot
  | .abs, value :: _ => onAmount f value fun a => .ok (Amount.magnitude a)
  | .floor, value :: _ => onAmount f value fun a => .ok (Amount.integral .down a)
  | .ceil, value :: _ => onAmount f value fun a => .ok (Amount.integral .up a)
  | .round, value :: rest => do
    let n ← roundedPlaces rest.head?
    onAmount f value fun a => .ok (Amount.roundTo a n)
  | .print, value :: _ => .ok (.text (value.show s.places))

/-- Placeholders become the values of their variables; inserted text is not looked at again. -/
def Surroundings.fill (s : Surroundings α) : List Template.Piece → Evaluation α (List Char)
  | [] => return []
  | .literal c :: rest => return c :: (← s.fill rest)
  | .placeholder name :: rest => do
    let value ← readVariable name
    return (value.show s.places).toList ++ (← s.fill rest)

def Surroundings.print (s : Surroundings α) : Value α → Evaluation α (Value α)
  | .text template => return .text (String.ofList (← s.fill (Template.pieces template)))
  | value => return .text (value.show s.places)

/-! Expressions. -/

abbrev Inner (α : Type) := Expr α → Evaluation α (Value α)

def Surroundings.call (s : Surroundings α) (inner : Inner α) (name : String)
    (arguments : List (Expr α)) : Evaluation α (Value α) := do
  let f ← ofAnswer (Function.named name)
  ofAnswer (f.checkCount arguments.length)
  match f.builtin, arguments with
  | .print, template :: _ => s.print (← inner template)
  | _, arguments => ofAnswer (s.apply f (← arguments.mapM inner))

def Surroundings.step (s : Surroundings α) (inner : Inner α) (left : Value α)
    (step : BinaryOp × Expr α) : Evaluation α (Value α) := do
  ofAnswer (s.tables.binary step.1 left (← inner step.2))

def Surroundings.chain (s : Surroundings α) (inner : Inner α) (first : Expr α)
    (steps : List (BinaryOp × Expr α)) : Evaluation α (Value α) := do
  steps.foldlM (s.step inner) (← inner first)

def Surroundings.node (s : Surroundings α) (inner : Inner α) :
    Expr α → Evaluation α (Value α)
  | .number a => return .number a
  | .unit a name => s.unitLiteral a name
  | .currency a word => ofAnswer (s.currencyLiteral a word)
  | .date spec => ofAnswer (s.date spec)
  | .time clock => return .date (s.now.day.at clock)
  | .text content => return .text content
  | .variable name => readVariable name
  | .assign name e => do
    let value ← inner e
    bind name value
    return value
  | .binary op left right =>
    let (first, steps) := (Expr.binary op left right).spine
    s.chain inner first steps
  | .unary op e => do ofAnswer ((← inner e).unary op)
  | .call name arguments => s.call inner name arguments
  | .convert e target => do ofAnswer (s.tables.convert (← inner e) target)
  | .previous reference => s.previous reference
  | .command name _ => refuse (.isCommand name)
  | .blank => refuse .isBlank

def Surroundings.withLevels (s : Surroundings α) : Nat → Inner α
  | 0, _ => refuse .tooDeep
  | levels + 1, e => s.node (s.withLevels levels) e

def Surroundings.evaluate (s : Surroundings α) (e : Expr α) : Evaluation α (Value α) :=
  s.withLevels nestingLimit e

/-- The outcome of a line and what it has changed and recorded. -/
def Surroundings.run (s : Surroundings α) (bindings : Bindings (Value α)) (e : Expr α) :
    Answer (Value α) × Progress α :=
  (s.evaluate e).run.run (.start bindings)

end

end NotepadCalculator

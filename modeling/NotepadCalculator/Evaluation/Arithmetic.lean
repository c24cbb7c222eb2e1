import NotepadCalculator.Error

/-!
Arithmetic on values. What an operator does depends on what both sides count: units convert to the
unit of the left side, currencies to its currency, a percentage on the right is taken of the left
side, and dates move by durations.
-/
namespace NotepadCalculator
open Calendar Measurement Money Number

structure Tables (α : Type) where
  units : UnitSystem α
  rates : Rates α
  deriving DecidableEq, Repr

section
variable {α : Type}

abbrev Answer := Except EvalError

def mismatch (op : BinaryOp) (left right : Kind) : Answer (Value α) :=
  .error (.invalidOperation (.mismatch op left right))

def measured {β : Type} : Except UnitFault β → Answer β
  | .ok b => .ok b
  | .error fault => .error (.ofUnitFault fault)

def exchanged {β : Type} : Except String β → Answer β
  | .ok b => .ok b
  | .error word => .error (.unknownCurrency word)

variable [Amount α]

def quotient (tag : Tag) (a b : α) : Answer (Value α) :=
  if Amount.isZero b then .error .divisionByZero else .ok (.scalar tag (a / b))

def hundred : α := Amount.ofNat 100

def numbers (op : BinaryOp) (a b : α) : Answer (Value α) :=
  match op with
  | .add => .ok (.number (a + b))
  | .subtract => .ok (.number (a - b))
  | .multiply => .ok (.number (a * b))
  | .divide => quotient .number a b
  | .remainder =>
    if Amount.isZero b then .error .divisionByZero else .ok (.number (Amount.remainder a b))

def percentages (op : BinaryOp) (a b : α) : Answer (Value α) :=
  match op with
  | .add => .ok (.percent (a + b))
  | .subtract => .ok (.percent (a - b))
  | op => mismatch op .percentage .percentage

/-- A percentage on the left: so much of the right side, or scaled by a plain number. -/
def percentageLeft (op : BinaryOp) (p : α) (tag : Tag) (whole : α) : Answer (Value α) :=
  match op, tag with
  | .remainder, tag => .ok (.scalar tag (whole * p / hundred))
  | .multiply, .number => .ok (.percent (p * whole))
  | .divide, .number => quotient .percent p whole
  | op, tag => mismatch op .percentage tag.kind

def percentageRight (op : BinaryOp) (tag : Tag) (base p : α) : Answer (Value α) :=
  match op with
  | .add => .ok (.scalar tag (base + base * p / hundred))
  | .subtract => .ok (.scalar tag (base - base * p / hundred))
  | .multiply => .ok (.scalar tag (base * p / hundred))
  | .divide =>
    if Amount.isZero p then .error .divisionByZero else .ok (.scalar tag (base * hundred / p))
  | .remainder => mismatch op tag.kind .percentage

def numberUnit (op : BinaryOp) (a b : α) (name : String) : Answer (Value α) :=
  match op with
  | .multiply => .ok (.unit (a * b) name)
  | .divide => quotient (.unit name) a b
  | .remainder => mismatch op .number .unit
  | op => .error (.invalidOperation (.plainWithUnit op name))

def unitNumber (op : BinaryOp) (a : α) (name : String) (b : α) : Answer (Value α) :=
  match op with
  | .multiply => .ok (.unit (a * b) name)
  | .divide => quotient (.unit name) a b
  | .remainder => mismatch op .unit .number
  | op => .error (.invalidOperation (.unitWithPlain op name))

def currencyNumber (op : BinaryOp) (a : α) (code : String) (b : α) : Answer (Value α) :=
  match op with
  | .multiply => .ok (.currency (a * b) code)
  | .divide => quotient (.currency code) a b
  | op => mismatch op .currency .number

def numberCurrency (op : BinaryOp) (a b : α) (code : String) : Answer (Value α) :=
  match op with
  | .multiply => .ok (.currency (a * b) code)
  | op => mismatch op .number .currency

/-- The difference of two dates: days where they are whole, else hours. -/
def dateDifference (later earlier : Moment) : Value α :=
  let seconds : α := secondsBetween later earlier
  let day : α := Amount.ofNat 86400
  if Amount.isZero (Amount.remainder seconds day) then .unit (seconds / day) "day"
  else .unit (seconds / Amount.ofNat 3600) "h"

namespace Tables
variable (t : Tables α)

/-- A quotient of like units is a number; other units form a ratio. -/
def unitQuotient (a : α) (u : String) (b : α) (v : String) : Answer (Value α) :=
  match t.units.convert b v u with
  | .ok converted => quotient .number a converted
  | .error fault =>
    if Amount.isZero b then .error .divisionByZero
    else match t.units.canonicalName (u ++ "/" ++ v) with
      | .ok name => .ok (.unit (a / b) name)
      | .error _ => .error (.ofUnitFault fault)

def rateTimes? (rate : α) (r : String) (quantity : α) (q : String) : Option (Answer (Value α)) :=
  match t.units.rateUnits r with
  | .error _ => none
  | .ok (numerator, denominator) => match t.units.convert quantity q denominator with
    | .error _ => none
    | .ok quantity =>
      let ratio := numerator ++ "/" ++ denominator
      let rate := if ratio = r then .ok rate else measured (t.units.convert rate r ratio)
      some (rate.map fun rate => .unit (rate * quantity) numerator)

/-- One side has to be a rate and the other a quantity of its denominator. -/
def unitProduct (a : α) (u : String) (b : α) (v : String) : Answer (Value α) :=
  ((t.rateTimes? a u b v).or (t.rateTimes? b v a u)).getD
    (.error (.invalidOperation (.unitProduct u v)))

def unitUnit (op : BinaryOp) (a : α) (u : String) (b : α) (v : String) : Answer (Value α) :=
  match op with
  | .add => return .unit (a + (← measured (t.units.convert b v u))) u
  | .subtract => return .unit (a - (← measured (t.units.convert b v u))) u
  | .multiply => t.unitProduct a u b v
  | .divide => t.unitQuotient a u b v
  | .remainder => .error (.invalidOperation (.unitRemainder u v))

def currencyCurrency (op : BinaryOp) (a : α) (c : String) (b : α) (d : String) :
    Answer (Value α) := do
  let b ← exchanged (t.rates.exchange b d c)
  match op with
  | .add => return .currency (a + b) c
  | .subtract => return .currency (a - b) c
  | .divide => quotient .number a b
  | op => mismatch op .currency .currency

def scalars (op : BinaryOp) (left : Tag) (a : α) (right : Tag) (b : α) : Answer (Value α) :=
  match left, right with
  | .number, .number => numbers op a b
  | .percent, .percent => percentages op a b
  | .percent, tag => percentageLeft op a tag b
  | tag, .percent => percentageRight op tag a b
  | .number, .unit name => numberUnit op a b name
  | .unit name, .number => unitNumber op a name b
  | .unit u, .unit v => t.unitUnit op a u b v
  | .currency c, .currency d => t.currencyCurrency op a c b d
  | .currency code, .number => currencyNumber op a code b
  | .number, .currency code => numberCurrency op a b code
  | left, right => mismatch op left.kind right.kind

def moved (moment : Moment) (seconds : α) : Answer (Value α) :=
  match moment.shift? seconds with
  | some moment => .ok (.date moment)
  | none => .error (.invalidOperation .dateRange)

def seconds (amount : α) (name : String) : Answer α :=
  match t.units.convert amount name "s" with
  | .ok seconds => .ok seconds
  | .error _ => .error (.incompatibleUnits (.notDuration name))

def binary (op : BinaryOp) (left right : Value α) : Answer (Value α) :=
  match left, right, op with
  | .scalar tag a, .scalar tag' b, op => t.scalars op tag a tag' b
  | .date moment, .unit a name, .add => do moved moment (← t.seconds a name)
  | .date moment, .unit a name, .subtract => do moved moment (-(← t.seconds a name))
  | .unit a name, .date moment, .add => do moved moment (← t.seconds a name)
  | .date later, .date earlier, .subtract => .ok (dateDifference later earlier)
  | left, right, op => mismatch op left.kind right.kind

def convert (value : Value α) (target : String) : Answer (Value α) :=
  match value with
  | .unit a name => do
    let converted ← measured (t.units.convert a name target)
    return .unit converted (← measured (t.units.canonicalName target))
  | .currency a code => match t.rates.codeOf? target with
    | none => .error (.unknownCurrency target)
    | some dst => return .currency (← exchanged (t.rates.exchange a code dst)) dst
  | value => .error (.invalidOperation (.noUnit value.kind target))

end Tables

def Value.unary (op : UnaryOp) (value : Value α) : Answer (Value α) :=
  match op, value with
  | .negate, .scalar tag a => .ok (.scalar tag (-a))
  | .plus, .scalar tag a => .ok (.scalar tag a)
  | .percent, .number a => .ok (.percent a)
  | .percent, value => .error (.invalidOperation (.noPercentage value.kind))
  | _, value => .error (.invalidOperation (.noSign value.kind))

end

end NotepadCalculator

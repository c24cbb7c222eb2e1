import NotepadCalculator.Number.Amount
import NotepadCalculator.Text.Casing
import NotepadCalculator.Text.Words

/-!
Currencies and their exchange rates. Amounts are exchanged through the US dollar at fixed rates,
of which a session may replace any and to which it may add others.
-/
namespace NotepadCalculator.Money
open NotepadCalculator.Number NotepadCalculator.Text

def symbols : List (String × String) :=
  [("$", "USD"), ("€", "EUR"), ("£", "GBP"), ("¥", "JPY"), ("₹", "INR")]

def symbolOf? (code : String) : Option String :=
  (symbols.find? fun entry => entry.2 = code).map (·.1)

section
variable {α : Type} [Amount α]
open Amount

/-- Units of each currency for one US dollar. -/
def standardRates : List (String × α) := [
  ("USD", ofNat 1), ("EUR", ofDecimal 92 2), ("GBP", ofDecimal 79 2), ("JPY", ofDecimal 1495 1),
  ("INR", ofDecimal 831 1), ("CHF", ofDecimal 88 2), ("CAD", ofDecimal 136 2),
  ("AUD", ofDecimal 152 2), ("NZD", ofDecimal 164 2), ("CNY", ofDecimal 724 2),
  ("SEK", ofDecimal 104 1), ("NOK", ofDecimal 106 1), ("DKK", ofDecimal 687 2),
  ("PLN", ofDecimal 398 2), ("MXN", ofDecimal 171 1), ("BRL", ofDecimal 497 2),
  ("ZAR", ofDecimal 186 1), ("SGD", ofDecimal 134 2), ("HKD", ofDecimal 782 2),
  ("KRW", ofNat 1330)]

end

/-- Rates that replace or extend the standard ones, the latest first. -/
structure Rates (α : Type) where
  overrides : List (String × α)
  deriving DecidableEq, Repr

namespace Rates
variable {α : Type}

def standard : Rates α := ⟨[]⟩

def set (r : Rates α) (code : String) (perDollar : α) : Rates α :=
  ⟨(upperAscii code, perDollar) :: r.overrides⟩

def rate? [Amount α] (r : Rates α) (code : String) : Option α :=
  (r.overrides.lookup code).or (standardRates.lookup code)

/-- The code of a symbol, or the word itself as a code if it has three letters and a rate. -/
def codeOf? [Amount α] (r : Rates α) (word : String) : Option String :=
  let word := trim word
  match symbols.lookup word with
  | some code => some code
  | none =>
    let code := upperAscii word
    if word.length = 3 ∧ (r.rate? code).isSome then some code else none

def exchange [Amount α] (r : Rates α) (amount : α) (source target : String) : Except String α :=
  match r.codeOf? source, r.codeOf? target with
  | none, _ => .error source
  | some _, none => .error target
  | some src, some dst =>
    if src = dst then .ok amount
    else match r.rate? src, r.rate? dst with
      | none, _ => .error src
      | some _, none => .error dst
      | some srcRate, some dstRate => .ok (amount / srcRate * dstRate)

end Rates

end NotepadCalculator.Money

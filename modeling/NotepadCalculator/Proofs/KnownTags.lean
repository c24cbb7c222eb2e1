import NotepadCalculator.Proofs.EvaluationSteps
import NotepadCalculator.Proofs.KnownUnits
import NotepadCalculator.Proofs.SheetHistory

/-!
Tags that stand for something. The unit of every value that a sheet holds is the name of a unit,
and its currency the code of one, whatever way the value has come about: units are only added
while there are values, and they are forgotten together with these.
-/
namespace NotepadCalculator
open Calendar Measurement Money Number

/-! Currency codes. -/

namespace Text

theorem isBlank_of_between {c : Char} (above : 33 ≤ c.toNat) (below : c.toNat < 133) :
    isBlank c = false := by
  have low : ∀ bound ∈ [9, 14, 32, 33], bound ≤ c.toNat := by
    simp only [List.forall_mem_cons, List.not_mem_nil, false_implies, implies_true, and_true]
    omega
  have four : blanks.takeWhile (· ≤ c.toNat) = [9, 14, 32, 33] := by
    have beyond : ¬ 133 ≤ c.toNat := by omega
    have split : blanks = [9, 14, 32, 33] ++ 133 :: blanks.drop 5 := rfl
    rw [split, List.takeWhile_append_of_pos (by simpa using low),
      List.takeWhile_cons_of_neg (by simpa using beyond)]
    rfl
  rw [isBlank, Boundaries.holds, four]
  decide

theorem asciiUpper_cases (c : Char) : asciiUpper c = c ∨
    97 ≤ c.toNat ∧ c.toNat ≤ 122 ∧ (asciiUpper c).toNat = c.toNat - 32 := by
  unfold asciiUpper
  split
  · rename_i letter
    have small : 97 ≤ c.toNat ∧ c.toNat ≤ 122 := by
      simpa [Char.le_def, UInt32.le_iff_toNat_le] using letter
    refine .inr ⟨small.1, small.2, ?_⟩
    rw [Char.ofNat, dif_pos (by simp [Nat.isValidChar]; omega)]
    rfl
  · exact .inl rfl

theorem isBlank_asciiUpper (c : Char) : isBlank (asciiUpper c) = isBlank c := by
  rcases asciiUpper_cases c with same | ⟨_, _, upper⟩
  · rw [same]
  · rw [isBlank_of_between (by omega) (by omega), isBlank_of_between (by omega) (by omega)]

theorem asciiUpper_idem (c : Char) : asciiUpper (asciiUpper c) = asciiUpper c := by
  rcases asciiUpper_cases c with same | ⟨_, _, upper⟩
  · rw [same, same]
  · rcases asciiUpper_cases (asciiUpper c) with same | ⟨_, _, _⟩
    · exact same
    · omega

theorem trim_upperAscii (s : String) : trim (upperAscii s) = upperAscii (trim s) := by
  have blank : isBlank ∘ asciiUpper = isBlank := funext isBlank_asciiUpper
  simp [trim, upperAscii, trimChars, List.dropWhile_map, blank, ← List.map_reverse]

theorem upperAscii_idem (s : String) : upperAscii (upperAscii s) = upperAscii s := by
  simp [upperAscii, Function.comp_def, asciiUpper_idem]

theorem length_upperAscii (s : String) : (upperAscii s).length = s.length := by
  simp [upperAscii, ← String.length_toList]

end Text

namespace Money.Rates
variable {α : Type} [Amount α]
open Text

/-- A code with a rate, written as codes are. -/
structure IsCode (r : Rates α) (code : String) : Prop where
  trimmed : trim code = code
  upper : upperAscii code = code
  length : code.length = 3
  rated : (r.rate? code).isSome = true

theorem codeOf?_of_isCode {r : Rates α} {code : String} (isCode : r.IsCode code) :
    r.codeOf? code = some code := by
  have noSymbol : symbols.lookup code = none := by
    rw [List.lookup_eq_none_iff]
    intro entry member
    have short : ∀ entry ∈ symbols, entry.1.length = 1 := by decide
    have different : code ≠ entry.1 := by
      intro same
      have := isCode.length.symm.trans (same ▸ short entry member)
      contradiction
    simpa using different
  simp [codeOf?, isCode.trimmed, noSymbol, isCode.upper, isCode.length, isCode.rated]

theorem rated_of_standard (r : Rates α) {code : String}
    (listed : code ∈ (standardRates : List (String × α)).map (·.1)) :
    (r.rate? code).isSome = true := by
  obtain ⟨entry, member, rfl⟩ := List.mem_map.1 listed
  have standard : ((standardRates : List (String × α)).lookup entry.1).isSome = true :=
    List.lookup_isSome_iff.2 ⟨entry, member, by simp⟩
  rw [rate?, Option.isSome_or, standard, Bool.or_true]

theorem symbols_stand (α : Type) [Amount α] : ∀ entry ∈ symbols, trim entry.2 = entry.2 ∧
    upperAscii entry.2 = entry.2 ∧ entry.2.length = 3 ∧
      entry.2 ∈ (standardRates : List (String × α)).map (·.1) := by
  have codes : (standardRates : List (String × α)).map (·.1) =
      (standardRates : List (String × Float)).map (·.1) := rfl
  rw [codes]
  decide +kernel

theorem isCode_of_codeOf? {r : Rates α} {word code : String}
    (found : r.codeOf? word = some code) : r.IsCode code := by
  unfold codeOf? at found
  dsimp only at found
  split at found
  · rename_i symbol
    obtain rfl := Option.some.inj found
    have member := mem_of_lookup symbol
    obtain ⟨trimmed, upper, length, listed⟩ := symbols_stand α _ member
    exact ⟨trimmed, upper, length, rated_of_standard r listed⟩
  · split at found
    · rename_i known
      obtain rfl := Option.some.inj found
      exact ⟨by rw [trim_upperAscii, trim_idem], upperAscii_idem _,
        (length_upperAscii _).trans known.1, known.2⟩
    · contradiction

end Money.Rates

/-! Arithmetic. -/

def Value.tag? {α : Type} : Value α → Option Tag
  | .scalar tag _ => some tag
  | _ => none

namespace Tables
variable {α : Type} [Amount α]

def KnowsTag (t : Tables α) : Tag → Prop
  | .unit name => t.units.Canonical name
  | .currency code => t.rates.IsCode code
  | _ => True

def Knows (t : Tables α) : Value α → Prop
  | .scalar tag _ => t.KnowsTag tag
  | _ => True

theorem knowsTag_of_knows {t : Tables α} {value : Value α} {tag : Tag} (known : t.Knows value)
    (tags : value.tag? = some tag) : t.KnowsTag tag := by
  cases value with
  | scalar own a => exact Option.some.inj tags ▸ known
  | date moment => cases tags
  | text content => cases tags

def Yields (t : Tables α) (answer : Answer (Value α)) : Prop :=
  ∀ value, answer = .ok value → t.Knows value

variable {t : Tables α}

theorem yields_ok {value : Value α} (known : t.Knows value) : t.Yields (.ok value) := by
  intro value found
  obtain rfl := Except.ok.inj found
  exact known

theorem yields_error (e : EvalError) : t.Yields (.error e) := by
  intro value found
  cases found

theorem yields_bind {β : Type} {first : Answer β} {next : β → Answer (Value α)}
    (each : ∀ b, first = .ok b → t.Yields (next b)) : t.Yields (first >>= next) := by
  intro value found
  obtain ⟨b, gives, found⟩ := bind_eq_ok.1 found
  exact each b gives value found

theorem yields_quotient {tag : Tag} (known : t.KnowsTag tag) (a b : α) :
    t.Yields (quotient tag a b) := by
  unfold quotient
  split
  · exact yields_error _
  · exact yields_ok known

theorem knows_number : t.KnowsTag .number := trivial
theorem knows_percent : t.KnowsTag .percent := trivial

theorem yields_mismatch (op : BinaryOp) (left right : Kind) :
    t.Yields (mismatch op left right) := yields_error _

theorem yields_numbers (op : BinaryOp) (a b : α) : t.Yields (numbers op a b) := by
  unfold numbers
  split
  · exact yields_ok trivial
  · exact yields_ok trivial
  · exact yields_ok trivial
  · exact yields_quotient knows_number a b
  · split
    · exact yields_error _
    · exact yields_ok trivial

theorem yields_percentages (op : BinaryOp) (a b : α) : t.Yields (percentages op a b) := by
  cases op with
  | add => exact yields_ok trivial
  | subtract => exact yields_ok trivial
  | _ => exact yields_error _

theorem yields_percentageLeft (op : BinaryOp) (p : α) {tag : Tag} (known : t.KnowsTag tag)
    (whole : α) : t.Yields (percentageLeft op p tag whole) := by
  unfold percentageLeft
  split
  · exact yields_ok known
  · exact yields_ok trivial
  · exact yields_quotient knows_percent _ _
  · exact yields_error _

theorem yields_percentageRight (op : BinaryOp) {tag : Tag} (known : t.KnowsTag tag)
    (base p : α) : t.Yields (percentageRight op tag base p) := by
  unfold percentageRight
  split
  · exact yields_ok known
  · exact yields_ok known
  · exact yields_ok known
  · split
    · exact yields_error _
    · exact yields_ok known
  · exact yields_mismatch _ _ _

theorem yields_numberUnit (op : BinaryOp) (a b : α) {name : String}
    (known : t.KnowsTag (.unit name)) : t.Yields (numberUnit op a b name) := by
  cases op with
  | multiply => exact yields_ok known
  | divide => exact yields_quotient known a b
  | _ => exact yields_error _

theorem yields_unitNumber (op : BinaryOp) (a : α) {name : String}
    (known : t.KnowsTag (.unit name)) (b : α) : t.Yields (unitNumber op a name b) := by
  cases op with
  | multiply => exact yields_ok known
  | divide => exact yields_quotient known a b
  | _ => exact yields_error _

theorem yields_currencyNumber (op : BinaryOp) (a : α) {code : String}
    (known : t.KnowsTag (.currency code)) (b : α) : t.Yields (currencyNumber op a code b) := by
  cases op with
  | multiply => exact yields_ok known
  | divide => exact yields_quotient known a b
  | _ => exact yields_error _

theorem yields_numberCurrency (op : BinaryOp) (a b : α) {code : String}
    (known : t.KnowsTag (.currency code)) : t.Yields (numberCurrency op a b code) := by
  cases op with
  | multiply => exact yields_ok known
  | _ => exact yields_error _

theorem yields_unitQuotient (named : t.units.Named) (a : α) (u : String) (b : α) (v : String) :
    t.Yields (t.unitQuotient a u b v) := by
  unfold unitQuotient
  split
  · exact yields_quotient knows_number a _
  · split
    · exact yields_error _
    · split
      · rename_i called
        exact yields_ok (UnitSystem.canonical_of_canonicalName named called)
      · exact yields_error _

theorem yields_rateTimes (named : t.units.Named) {rate quantity : α} {r q : String}
    {answer : Answer (Value α)} (fits : t.rateTimes? rate r quantity q = some answer) :
    t.Yields answer := by
  unfold rateTimes? at fits
  split at fits
  · contradiction
  · rename_i numerator denominator read
    split at fits
    · contradiction
    · obtain rfl := Option.some.inj fits
      have known := UnitSystem.canonical_of_rateUnits named read
      split
      · exact yields_ok known
      · cases measured (t.units.convert rate r (numerator ++ "/" ++ denominator)) with
        | error e => exact yields_error e
        | ok rate => exact yields_ok known

theorem yields_unitProduct (named : t.units.Named) (a : α) (u : String) (b : α) (v : String) :
    t.Yields (t.unitProduct a u b v) := by
  unfold unitProduct
  cases fits : (t.rateTimes? a u b v).or (t.rateTimes? b v a u) with
  | none => exact yields_error _
  | some answer =>
    rcases Option.or_eq_some_iff.1 fits with left | ⟨_, right⟩
    · exact yields_rateTimes named left
    · exact yields_rateTimes named right

theorem yields_unitUnit (named : t.units.Named) (op : BinaryOp) (a : α) {u : String}
    (known : t.KnowsTag (.unit u)) (b : α) (v : String) : t.Yields (t.unitUnit op a u b v) := by
  cases op with
  | add => exact yields_bind fun _ _ => yields_ok known
  | subtract => exact yields_bind fun _ _ => yields_ok known
  | multiply => exact yields_unitProduct named a u b v
  | divide => exact yields_unitQuotient named a u b v
  | remainder => exact yields_error _

theorem yields_currencyCurrency (op : BinaryOp) (a : α) {c : String}
    (known : t.KnowsTag (.currency c)) (b : α) (d : String) :
    t.Yields (t.currencyCurrency op a c b d) := by
  refine yields_bind fun b _ => ?_
  cases op with
  | add => exact yields_ok known
  | subtract => exact yields_ok known
  | divide => exact yields_quotient knows_number a b
  | _ => exact yields_error _

theorem yields_scalars (named : t.units.Named) (op : BinaryOp) {left right : Tag}
    (knownLeft : t.KnowsTag left) (knownRight : t.KnowsTag right) (a b : α) :
    t.Yields (t.scalars op left a right b) := by
  unfold scalars
  split
  · exact yields_numbers op a b
  · exact yields_percentages op a b
  · exact yields_percentageLeft op a knownRight b
  · exact yields_percentageRight op knownLeft a b
  · exact yields_numberUnit op a b knownRight
  · exact yields_unitNumber op a knownLeft b
  · exact yields_unitUnit named op a knownLeft b _
  · exact yields_currencyCurrency op a knownLeft b _
  · exact yields_currencyNumber op a knownLeft b
  · exact yields_numberCurrency op a b knownRight
  · exact yields_mismatch op _ _

theorem yields_moved (moment : Moment) (seconds : α) : t.Yields (moved moment seconds) := by
  unfold moved
  split
  · exact yields_ok trivial
  · exact yields_error _

theorem knows_dateDifference (later earlier : Moment) :
    t.Knows (dateDifference later earlier) := by
  unfold dateDifference
  dsimp only
  split
  · exact UnitSystem.canonical_base t.units (by decide)
  · exact UnitSystem.canonical_base t.units (by decide)

theorem yields_binary (named : t.units.Named) (op : BinaryOp) {left right : Value α}
    (knownLeft : t.Knows left) (knownRight : t.Knows right) :
    t.Yields (t.binary op left right) := by
  unfold binary
  split
  · exact yields_scalars named op knownLeft knownRight _ _
  · exact yields_bind fun _ _ => yields_moved _ _
  · exact yields_bind fun _ _ => yields_moved _ _
  · exact yields_bind fun _ _ => yields_moved _ _
  · exact yields_ok (knows_dateDifference _ _)
  · exact yields_mismatch op _ _

theorem measured_eq_ok {β : Type} {answer : Except UnitFault β} {b : β}
    (found : measured answer = .ok b) : answer = .ok b := by
  cases answer with
  | ok c => exact congrArg Except.ok (Except.ok.inj found)
  | error fault => cases found

theorem yields_convert (named : t.units.Named) (value : Value α) (target : String) :
    t.Yields (t.convert value target) := by
  unfold convert
  split
  · refine yields_bind fun _ _ => yields_bind fun name called => yields_ok ?_
    exact UnitSystem.canonical_of_canonicalName named (measured_eq_ok called)
  · split
    · exact yields_error _
    · rename_i coded
      exact yields_bind fun _ _ => yields_ok (Rates.isCode_of_codeOf? coded)
  · exact yields_error _

theorem yields_unary (op : UnaryOp) {value : Value α} (known : t.Knows value) :
    t.Yields (value.unary op) := by
  unfold Value.unary
  split
  · exact yields_ok known
  · exact yields_ok known
  · exact yields_ok trivial
  · exact yields_error _
  · exact yields_error _

/-! Functions. -/

theorem yields_foldlM {δ : Type} {f : Value α → δ → Answer (Value α)} (items : List δ)
    {first : Value α} (known : t.Knows first)
    (each : ∀ value, t.Knows value → ∀ item ∈ items, t.Yields (f value item)) :
    t.Yields (items.foldlM f first) := by
  induction items generalizing first with
  | nil => exact yields_ok known
  | cons item rest ih =>
    rw [List.foldlM_cons]
    refine yields_bind fun value found => ih ?_ ?_
    · exact each first known item List.mem_cons_self value found
    · exact fun value known item member => each value known item (List.mem_cons_of_mem _ member)

theorem yields_onAmount (f : Function) {value : Value α} (known : t.Knows value)
    (change : α → Answer α) : t.Yields (onAmount f value change) := by
  unfold onAmount
  split
  · exact yields_bind fun _ _ => yields_ok known
  · exact yields_error _

end Tables

namespace Surroundings
variable {α : Type} [Amount α] {s : Surroundings α}
open Tables

theorem yields_sum (named : s.tables.units.Named) {values : List (Value α)}
    (known : ∀ value ∈ values, s.tables.Knows value) : s.tables.Yields (s.sum values) := by
  cases values with
  | nil => exact yields_error _
  | cons first rest =>
    obtain ⟨here, others⟩ := List.forall_mem_cons.1 known
    refine yields_foldlM rest here fun value known item member => ?_
    exact yields_binary named .add known (others item member)

theorem yields_average (named : s.tables.units.Named) {values : List (Value α)}
    (known : ∀ value ∈ values, s.tables.Knows value) : s.tables.Yields (s.average values) := by
  refine yields_bind fun total found => ?_
  have number : s.tables.Knows (.number (Amount.ofNat values.length)) := trivial
  exact yields_binary named .divide (yields_sum named known total found) number

theorem yields_better (f : Function) (largest : Bool) {best value : Value α}
    (knownBest : s.tables.Knows best) (known : s.tables.Knows value) :
    s.tables.Yields (s.better f largest best value) := by
  intro result found
  unfold better at found
  dsimp only at found
  obtain ⟨_, found⟩ := guarded_eq_ok.1 found
  obtain ⟨difference, _, found⟩ := bind_eq_ok.1 found
  cases amount : difference.amount? with
  | none =>
    rw [amount] at found
    cases found
  | some a =>
    simp only [amount] at found
    generalize (if largest then Amount.isPositive a else Amount.isNegative a) = exceeds at found
    cases exceeds with
    | false => exact yields_ok knownBest result found
    | true => exact yields_ok known result found

theorem yields_extreme (f : Function) (largest : Bool) {values : List (Value α)}
    (known : ∀ value ∈ values, s.tables.Knows value) :
    s.tables.Yields (s.extreme f largest values) := by
  cases values with
  | nil => exact yields_error _
  | cons first rest =>
    obtain ⟨here, others⟩ := List.forall_mem_cons.1 known
    refine yields_foldlM rest here fun value known item member => ?_
    exact yields_better f largest known (others item member)

theorem yields_apply (named : s.tables.units.Named) (f : Function) {values : List (Value α)}
    (known : ∀ value ∈ values, s.tables.Knows value) : s.tables.Yields (s.apply f values) := by
  unfold apply
  split
  · exact yields_sum named known
  · exact yields_average named known
  · exact yields_extreme f false known
  · exact yields_extreme f true known
  · exact yields_error _
  · exact yields_onAmount f (known _ List.mem_cons_self) _
  · exact yields_onAmount f (known _ List.mem_cons_self) _
  · exact yields_onAmount f (known _ List.mem_cons_self) _
  · exact yields_onAmount f (known _ List.mem_cons_self) _
  · exact yields_bind fun _ _ => yields_onAmount f (known _ List.mem_cons_self) _
  · exact yields_ok trivial

end Surroundings

/-! Evaluation. -/

namespace Evaluation
variable {α β γ : Type}

/-- From progress with the first property comes progress with it, and the result, if there is one,
    has the second property. -/
def Ensures (I : Progress α → Prop) (Q : β → Prop) (m : Evaluation α β) : Prop :=
  ∀ p, I p → I (runFrom m p).2 ∧ ∀ b, (runFrom m p).1 = .ok b → Q b

variable {I : Progress α → Prop}

theorem ensures_pure {Q : β → Prop} {b : β} (holds : Q b) :
    Ensures I Q (pure b : Evaluation α β) := by
  intro p before
  refine ⟨before, fun c found => ?_⟩
  obtain rfl := Except.ok.inj found
  exact holds

theorem ensures_refuse {Q : β → Prop} (fault : OperationFault) :
    Ensures I Q (refuse fault : Evaluation α β) :=
  fun _ before => ⟨before, fun _ found => nomatch found⟩

theorem ensures_ofAnswer {Q : β → Prop} {answer : Answer β} (holds : ∀ b, answer = .ok b → Q b) :
    Ensures I Q (ofAnswer answer : Evaluation α β) := by
  intro p before
  rw [runFrom_ofAnswer]
  exact ⟨before, holds⟩

theorem ensures_bind {P : β → Prop} {Q : γ → Prop} {m : Evaluation α β}
    {f : β → Evaluation α γ} (first : Ensures I P m) (next : ∀ b, P b → Ensures I Q (f b)) :
    Ensures I Q (m >>= f) := by
  intro p before
  obtain ⟨middle, result⟩ := first p before
  rw [runFrom_bind]
  rcases run : runFrom m p with ⟨_ | b, q⟩
  · rw [run] at middle
    exact ⟨middle, fun _ found => nomatch found⟩
  · rw [run] at middle result
    exact next b (result b rfl) q middle

theorem ensures_mapM {δ : Type} {Q : β → Prop} {f : δ → Evaluation α β} (items : List δ)
    (each : ∀ item ∈ items, Ensures I Q (f item)) :
    Ensures I (fun results => ∀ b ∈ results, Q b) (items.mapM f) := by
  induction items with
  | nil => exact ensures_pure (by simp)
  | cons item rest ih =>
    obtain ⟨here, others⟩ := List.forall_mem_cons.1 each
    rw [List.mapM_cons]
    refine ensures_bind here fun b holds => ensures_bind (ih others) fun results all => ?_
    exact ensures_pure (List.forall_mem_cons.2 ⟨holds, all⟩)

theorem ensures_foldlM {δ : Type} {Q : β → Prop} {f : β → δ → Evaluation α β} (items : List δ)
    {b : β} (start : Q b) (each : ∀ b, Q b → ∀ item ∈ items, Ensures I Q (f b item)) :
    Ensures I Q (items.foldlM f b) := by
  induction items generalizing b with
  | nil => exact ensures_pure start
  | cons item rest ih =>
    rw [List.foldlM_cons]
    refine ensures_bind (each b start item List.mem_cons_self) fun b holds => ih holds ?_
    exact fun b holds item member => each b holds item (List.mem_cons_of_mem _ member)

end Evaluation

namespace Surroundings
variable {α : Type} [Amount α] {s : Surroundings α}
open Evaluation Tables

structure Known (s : Surroundings α) : Prop where
  named : s.tables.units.Named
  results : ∀ value, some value ∈ s.results → s.tables.Knows value

def KnownBindings (s : Surroundings α) (p : Progress α) : Prop :=
  ∀ name value, p.bindings.get? name = some value → s.tables.Knows value

def Sound (s : Surroundings α) (m : Evaluation α (Value α)) : Prop :=
  Ensures s.KnownBindings s.tables.Knows m

theorem sound_readVariable (name : String) : s.Sound (readVariable name) := by
  intro p before
  rw [runFrom_readVariable]
  cases bound : p.bindings.get? name with
  | none => exact ⟨before, fun _ found => nomatch found⟩
  | some value =>
    refine ⟨before, fun result found => ?_⟩
    obtain rfl := Except.ok.inj found
    exact before name value bound

theorem sound_previous (known : s.Known) (reference : Reference) :
    s.Sound (s.previous reference) := by
  intro p before
  rw [runFrom_previous]
  cases s.lineNamed reference with
  | error e => exact ⟨before, fun _ found => nomatch found⟩
  | ok line =>
    dsimp only
    cases found : s.result? line with
    | none => exact ⟨before, fun _ found => nomatch found⟩
    | some result =>
      cases result with
      | none => exact ⟨before, fun _ found => nomatch found⟩
      | some value =>
        refine ⟨before, fun result same => ?_⟩
        obtain rfl := Except.ok.inj same
        obtain ⟨_, _, held⟩ := s.result?_eq_some found
        exact known.results value (List.mem_of_getElem? held)

theorem sound_ofAnswer {answer : Answer (Value α)} (yields : s.tables.Yields answer) :
    s.Sound (ofAnswer answer) := ensures_ofAnswer yields

theorem sound_pure {value : Value α} (known : s.tables.Knows value) :
    s.Sound (pure value) := ensures_pure known

theorem sound_unitLiteral (known : s.Known) (amount : α) (name : String) :
    s.Sound (s.unitLiteral amount name) := by
  intro p before
  rw [runFrom_unitLiteral]
  split
  · refine ⟨before, fun value found => ?_⟩
    cases called : measured (s.tables.units.canonicalName name) with
    | error e =>
      rw [called] at found
      cases found
    | ok canonical =>
      rw [called] at found
      obtain rfl := Except.ok.inj found
      exact UnitSystem.canonical_of_canonicalName known.named (measured_eq_ok called)
  · split
    · rename_i code coded
      refine ⟨before, yields_ok ?_⟩
      exact Rates.isCode_of_codeOf? coded
    · exact ⟨before, yields_error _⟩
    · rename_i value _ bound
      have number : s.tables.Knows (.number amount) := trivial
      exact ⟨before, yields_binary known.named .multiply number (before name value bound)⟩

theorem yields_currencyLiteral (amount : α) (word : String) :
    s.tables.Yields (s.currencyLiteral amount word) := by
  unfold currencyLiteral
  split
  · rename_i coded
    exact yields_ok (Rates.isCode_of_codeOf? coded)
  · exact yields_error _

theorem yields_date (spec : DateSpec) : s.tables.Yields (s.date spec) := by
  unfold date
  split
  · exact yields_ok trivial
  · exact yields_error _

theorem undisturbed_knownBindings : s.Undisturbed s.KnownBindings where
  named _ _ _ _ holds := holds
  earlier _ _ _ _ holds := holds

theorem sound_print (value : Value α) : s.Sound (s.print value) := by
  intro p before
  refine ⟨keeps_print undisturbed_knownBindings value p before, fun result found => ?_⟩
  cases value with
  | text template =>
    simp only [print, runFrom_bind] at found
    rcases run : runFrom (s.fill (Template.pieces template)) p with ⟨_ | filled, q⟩
    · rw [run] at found
      cases found
    · rw [run] at found
      obtain rfl := Except.ok.inj found
      trivial
  | scalar tag a =>
    obtain rfl := Except.ok.inj found
    trivial
  | date moment =>
    obtain rfl := Except.ok.inj found
    trivial

theorem sound_call (known : s.Known) {inner : Inner α} (name : String)
    (arguments : List (Expr α)) (each : ∀ argument ∈ arguments, s.Sound (inner argument)) :
    s.Sound (s.call inner name arguments) := by
  refine ensures_bind (ensures_ofAnswer fun _ _ => trivial) fun f (_ : True) => ?_
  refine ensures_bind (ensures_ofAnswer fun _ _ => trivial) fun _ (_ : True) => ?_
  split
  · exact ensures_bind (each _ List.mem_cons_self) fun value _ => sound_print value
  · refine ensures_bind (ensures_mapM _ each) fun values holds => ?_
    exact sound_ofAnswer (yields_apply known.named f holds)

theorem sound_chain (known : s.Known) {inner : Inner α} (first : Expr α)
    (steps : List (BinaryOp × Expr α)) (deeper : ∀ e, s.Sound (inner e)) :
    s.Sound (s.chain inner first steps) := by
  refine ensures_bind (deeper first) fun value start => ensures_foldlM steps start ?_
  intro left knownLeft step _
  refine ensures_bind (deeper step.2) fun right knownRight => ?_
  exact sound_ofAnswer (yields_binary known.named step.1 knownLeft knownRight)

theorem sound_assign {inner : Inner α} (name : String) (e : Expr α)
    (deeper : ∀ e, s.Sound (inner e)) : s.Sound (s.node inner (.assign name e)) := by
  refine ensures_bind (deeper e) fun value known => ?_
  intro p before
  refine ⟨fun other bound found => ?_, yields_ok known⟩
  change (p.bindings.set name value).get? other = some bound at found
  rw [Bindings.get?_set] at found
  split at found
  · obtain rfl := Option.some.inj found
    exact known
  · exact before other bound found

theorem sound_node (known : s.Known) {inner : Inner α} (deeper : ∀ e, s.Sound (inner e))
    (e : Expr α) : s.Sound (s.node inner e) := by
  cases e with
  | number a => exact sound_pure trivial
  | unit a name => exact sound_unitLiteral known a name
  | currency a word => exact sound_ofAnswer (yields_currencyLiteral a word)
  | date spec => exact sound_ofAnswer (yields_date spec)
  | time clock => exact sound_pure trivial
  | text content => exact sound_pure trivial
  | «variable» name => exact sound_readVariable name
  | assign name value => exact sound_assign name value deeper
  | binary op left right => exact sound_chain known _ _ deeper
  | unary op operand =>
    exact ensures_bind (deeper operand) fun _ holds => sound_ofAnswer (yields_unary op holds)
  | call name arguments => exact sound_call known name arguments fun argument _ => deeper argument
  | convert value target =>
    refine ensures_bind (deeper value) fun v _ => ?_
    exact sound_ofAnswer (yields_convert known.named v target)
  | previous reference => exact sound_previous known reference
  | command name arguments => exact ensures_refuse _
  | blank => exact ensures_refuse _

theorem sound_evaluate (known : s.Known) (e : Expr α) : s.Sound (s.evaluate e) := by
  have withLevels (levels : Nat) : ∀ e, s.Sound (s.withLevels levels e) := by
    induction levels with
    | zero => exact fun e => ensures_refuse _
    | succ levels ih => exact fun e => sound_node known ih e
  exact withLevels nestingLimit e

end Surroundings

/-! Sheets. -/

theorem Tables.knows_define {t : Tables Float} (named : t.units.Named) {units : UnitSystem Float}
    {name base : String} {scale : Float} (defined : t.units.define name scale base = .ok units)
    {value : Value Float} (known : t.Knows value) :
    ({ t with units := units } : Tables Float).Knows value := by
  cases value with
  | scalar tag a =>
    cases tag with
    | unit unit => exact UnitSystem.canonical_define named defined known
    | currency code => exact known
    | number => trivial
    | percent => trivial
  | date moment => trivial
  | text content => trivial

namespace Sheet

def tables (s : Sheet) : Tables Float := ⟨s.units, s.rates⟩

/-- What variables and lines hold is known, and an outcome shows nothing else. -/
structure Tagged (s : Sheet) : Prop where
  named : s.units.Named
  bound : ∀ name value, s.bindings.get? name = some value → s.tables.Knows value
  held : ∀ line ∈ s.lines, ∀ value, line.value = some value → s.tables.Knows value
  shown : ∀ line ∈ s.lines, ∀ value, line.outcome.value? = some value → line.value = some value

theorem tagged_new (settings : Settings) (rates : Rates Float) (now : Moment) :
    Tagged (.new settings rates now) where
  named := UnitSystem.named_standard
  bound := by simp [new, Bindings.get?]
  held := by simp [new]
  shown := by simp [new]

theorem known_surroundings {s : Sheet} (tagged : Tagged s) : s.surroundings.Known where
  named := tagged.named
  results := by
    intro value member
    obtain ⟨line, held, same⟩ := List.mem_map.1 member
    exact tagged.held line held value same

theorem value?_outcome {s : Sheet} {e : Expr Float} {answer : Answer (Value Float)}
    {value : Value Float} (shown : (s.outcome e answer).value? = some value) :
    answer.toOption = some value := by
  cases answer with
  | error error => cases shown
  | ok result =>
    simp only [outcome] at shown
    split at shown
    · cases shown
    · exact shown

theorem tagged_record {s : Sheet} (tagged : Tagged s) (input : String) (e : Expr Float) :
    Tagged (s.record input e).2 := by
  obtain ⟨bound, result⟩ := Surroundings.sound_evaluate (known_surroundings tagged) e
    (.start s.bindings) tagged.bound
  refine ⟨tagged.named, bound, ?_, ?_⟩
  · intro line member value held
    rcases List.mem_append.1 member with earlier | last
    · exact tagged.held line earlier value held
    · obtain rfl := List.mem_singleton.1 last
      exact result value (toOption_eq_some.1 held)
  · intro line member value shown
    rcases List.mem_append.1 member with earlier | last
    · exact tagged.shown line earlier value shown
    · obtain rfl := List.mem_singleton.1 last
      exact value?_outcome shown

theorem apply_units {s later : Sheet} {command : Command} (applied : s.apply command = .ok later) :
    later = s.clear ∨ ∃ settings units, later = { s with settings := settings, units := units } ∧
      (units = s.units ∨ ∃ name scale base, s.units.define name scale base = .ok units) := by
  cases command with
  | clear => exact .inl (Except.ok.inj applied).symm
  | toggleQuiet => exact .inr ⟨_, _, (Except.ok.inj applied).symm, .inl rfl⟩
  | setQuiet on => exact .inr ⟨_, _, (Except.ok.inj applied).symm, .inl rfl⟩
  | setFuzzy on => exact .inr ⟨_, _, (Except.ok.inj applied).symm, .inl rfl⟩
  | setPrecision places => exact .inr ⟨_, _, (Except.ok.inj applied).symm, .inl rfl⟩
  | defineUnit name scale base =>
    obtain ⟨units, defined, applied⟩ := bind_eq_ok.1 applied
    refine .inr ⟨s.settings, units, (Except.ok.inj applied).symm, .inr ⟨name, scale, base, ?_⟩⟩
    exact Tables.measured_eq_ok defined

theorem tagged_apply {s later : Sheet} (tagged : Tagged s) {command : Command}
    (applied : s.apply command = .ok later) : Tagged later := by
  rcases apply_units applied with rfl | ⟨settings, units, rfl, rfl | ⟨name, scale, base, defined⟩⟩
  · exact clear_eq_new s ▸ tagged_new s.settings s.rates s.now
  · exact ⟨tagged.named, tagged.bound, tagged.held, tagged.shown⟩
  · have still {value : Value Float} (known : s.tables.Knows value) :
        (⟨units, s.rates⟩ : Tables Float).Knows value :=
      Tables.knows_define (t := s.tables) tagged.named defined known
    exact ⟨UnitSystem.named_define tagged.named defined,
      fun other value found => still (tagged.bound other value found),
      fun line member value held => still (tagged.held line member value held), tagged.shown⟩

theorem tagged_enter {s : Sheet} (tagged : Tagged s) (input : String) :
    Tagged (s.enter input).2 := by
  have entry := enter_entry s input
  generalize s.enter input = reply at entry ⊢
  cases entry with
  | unread parsed => exact tagged
  | blank parsed => exact tagged
  | refused error parsed => exact tagged
  | obeyed parsed taken applied => exact tagged_apply tagged applied
  | kept parsed kept => exact tagged_record tagged input _

theorem tagged_of_reached {s : Sheet} (reached : Reached s) : Tagged s := by
  induction reached with
  | new settings rates now => exact tagged_new settings rates now
  | enter input _ ih => exact tagged_enter ih input
  | @clear s _ _ => exact clear_eq_new s ▸ tagged_new s.settings s.rates s.now
  | settings settings _ ih => exact ⟨ih.named, ih.bound, ih.held, ih.shown⟩
  | now now _ ih => exact ⟨ih.named, ih.bound, ih.held, ih.shown⟩

/-- A tag of a value that is bound to a variable, or held or shown by a line. -/
inductive Stores (s : Sheet) (tag : Tag) : Prop where
  | variable (name : String) (bound : (s.bindings.get? name).bind Value.tag? = some tag) :
      Stores s tag
  | line (line : Line) (member : line ∈ s.lines) (held : line.value.bind Value.tag? = some tag) :
      Stores s tag
  | outcome (line : Line) (member : line ∈ s.lines)
      (shown : line.outcome.value?.bind Value.tag? = some tag) : Stores s tag

theorem known_of_stores {s : Sheet} (tagged : Tagged s) {tag : Tag} (stores : s.Stores tag) :
    s.tables.KnowsTag tag := by
  cases stores with
  | «variable» name bound =>
    obtain ⟨value, found, tags⟩ := Option.bind_eq_some_iff.1 bound
    exact Tables.knowsTag_of_knows (tagged.bound name value found) tags
  | line line member held =>
    obtain ⟨value, found, tags⟩ := Option.bind_eq_some_iff.1 held
    exact Tables.knowsTag_of_knows (tagged.held line member value found) tags
  | outcome line member shown =>
    obtain ⟨value, found, tags⟩ := Option.bind_eq_some_iff.1 shown
    have held := tagged.shown line member value found
    exact Tables.knowsTag_of_knows (tagged.held line member value held) tags

/-- However a sheet has come about and whatever units were added in between, a unit in it goes by
    the one name that stands for all its spellings, and a currency by its code. -/
theorem tags_of_reached {s : Sheet} (reached : Reached s) :
    (∀ name, s.Stores (.unit name) → s.units.canonicalName name = .ok name) ∧
      ∀ code, s.Stores (.currency code) → s.rates.codeOf? code = some code := by
  have tagged := tagged_of_reached reached
  constructor
  · intro name stores
    exact UnitSystem.canonicalName_of_canonical (known_of_stores tagged stores)
  · intro code stores
    exact Rates.codeOf?_of_isCode (known_of_stores tagged stores)

def journey : Sheet :=
  ((fresh.enter "v = 90 metres/h").2.enter "fare = €5").2

theorem tags_of_journey :
    Reached journey ∧ journey.Stores (.unit "m/h") ∧ journey.Stores (.currency "EUR") ∧
      journey.units.canonicalName "m/h" = .ok "m/h" ∧
      journey.rates.codeOf? "EUR" = some "EUR" := by
  have reached : Reached journey := .enter _ (.enter _ (.new _ _ _))
  have speed : journey.Stores (.unit "m/h") := .variable "v" (by decide +kernel)
  have fare : journey.Stores (.currency "EUR") := .variable "fare" (by decide +kernel)
  have tags := tags_of_reached reached
  exact ⟨reached, speed, fare, tags.1 _ speed, tags.2 _ fare⟩

end Sheet

end NotepadCalculator

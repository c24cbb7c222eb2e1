import NotepadCalculator.Proofs.ExactConversion
import NotepadCalculator.Proofs.KnownTags

/-!
The greatest and the least of several values. Each value is compared with the best one so far under
its own tag, so the unit changes from step to step. With exact amounts the comparisons agree all the
same, because each of them is one of base amounts, and the first of the best values is what is left.
Values that do not go together are refused, wherever they stand.
-/
namespace NotepadCalculator
open Calendar Measurement Money Number

/-! Rows of amounts. -/

def Exceeds (largest : Bool) (a b : ℚ) : Prop := if largest then b < a else a < b

instance (largest : Bool) (a b : ℚ) : Decidable (Exceeds largest a b) := by
  unfold Exceeds
  infer_instance

theorem not_exceeds_self (largest : Bool) (a : ℚ) : ¬ Exceeds largest a a := by
  unfold Exceeds
  split <;> exact lt_irrefl a

theorem exceeds_of_not_exceeds {largest : Bool} {a b c : ℚ} (bound : ¬ Exceeds largest a b)
    (beyond : Exceeds largest c b) : Exceeds largest c a := by
  unfold Exceeds at *
  cases largest with
  | true => exact lt_of_le_of_lt (not_lt.1 bound) beyond
  | false => exact lt_of_lt_of_le beyond (not_lt.1 bound)

theorem not_exceeds_of_exceeds {largest : Bool} {a b : ℚ} (beyond : Exceeds largest a b) :
    ¬ Exceeds largest b a := by
  unfold Exceeds at *
  cases largest with
  | true => exact lt_asymm beyond
  | false => exact lt_asymm beyond

section
variable {β : Type}

/-- One of a row that no other exceeds, and that exceeds all before it. -/
structure Leads (amount : β → ℚ) (largest : Bool) (before : List β) (best : β)
    (after : List β) : Prop where
  bound : ∀ v ∈ before ++ best :: after, ¬ Exceeds largest (amount v) (amount best)
  first : ∀ v ∈ before, Exceeds largest (amount best) (amount v)

variable {amount : β → ℚ} {largest : Bool} {before after : List β} {best : β}

theorem leads_alone (v : β) : Leads amount largest [] v [] where
  bound := by simpa using not_exceeds_self largest (amount v)
  first := by simp

theorem leads_better (leads : Leads amount largest before best after) {v : β}
    (beyond : Exceeds largest (amount v) (amount best)) :
    Leads amount largest (before ++ best :: after) v [] := by
  have first : ∀ w ∈ before ++ best :: after, Exceeds largest (amount v) (amount w) :=
    fun w member => exceeds_of_not_exceeds (leads.bound w member) beyond
  refine ⟨?_, first⟩
  intro w member
  rcases List.mem_append.1 member with earlier | last
  · exact not_exceeds_of_exceeds (first w earlier)
  · rw [List.mem_singleton.1 last]
    exact not_exceeds_self largest (amount v)

theorem leads_worse (leads : Leads amount largest before best after) {v : β}
    (within : ¬ Exceeds largest (amount v) (amount best)) :
    Leads amount largest before best (after ++ [v]) := by
  refine ⟨?_, leads.first⟩
  intro w member
  rw [← List.cons_append, ← List.append_assoc] at member
  rcases List.mem_append.1 member with earlier | last
  · exact leads.bound w earlier
  · rw [List.mem_singleton.1 last]
    exact within

theorem leads_of_iff {amount' : β → ℚ} (leads : Leads amount largest before best after)
    (same : ∀ v w, Exceeds largest (amount' v) (amount' w) ↔
      Exceeds largest (amount v) (amount w)) : Leads amount' largest before best after where
  bound v member := by
    rw [same]
    exact leads.bound v member
  first v member := by
    rw [same]
    exact leads.first v member

end

namespace Measurement.Conversion

theorem fromBase_lt_iff {c : Conversion ℚ} (positive : 0 < c.factor) {x y : ℚ} :
    c.fromBase x < c.fromBase y ↔ x < y := by
  cases c with
  | linear factor =>
    exact div_lt_div_iff_of_pos_right positive
  | affine scale offset =>
    show x / scale - offset < y / scale - offset ↔ x < y
    rw [sub_lt_sub_iff_right]
    exact div_lt_div_iff_of_pos_right positive

theorem exceeds_fromBase {c : Conversion ℚ} (positive : 0 < c.factor) {largest : Bool} {x y : ℚ} :
    Exceeds largest (c.fromBase x) (c.fromBase y) ↔ Exceeds largest x y := by
  unfold Exceeds
  cases largest with
  | true => exact fromBase_lt_iff positive
  | false => exact fromBase_lt_iff positive

end Measurement.Conversion

namespace Money.Rates

def Positive (r : Rates ℚ) : Prop := ∀ code rate, r.rate? code = some rate → 0 < rate

theorem exchange_eq {r : Rates ℚ} {source target src dst : String} {s d : ℚ}
    (from_ : r.codeOf? source = some src) (to_ : r.codeOf? target = some dst)
    (rated : r.rate? src = some s) (rated' : r.rate? dst = some d) (nonzero : s ≠ 0) (a : ℚ) :
    r.exchange a source target = .ok (a / s * d) := by
  rw [exchange, from_, to_]
  dsimp only
  by_cases same : src = dst
  · subst same
    obtain rfl := Option.some.inj (rated.symm.trans rated')
    rw [if_pos rfl, div_mul_cancel₀ a nonzero]
  · rw [if_neg same, rated, rated']

theorem positive_standard : (standard : Rates ℚ).Positive := by
  have each : ∀ entry ∈ (standardRates : List (String × ℚ)), 0 < entry.2 := by decide +kernel
  intro code rate found
  exact each _ (mem_of_lookup found)

end Money.Rates

/-! Amounts under another tag. -/

inductive Quantity where
  | number
  | percentage
  | measure (m : Signature)
  | money
  deriving DecidableEq, Repr

namespace Tables

section
variable {α : Type} [Amount α]

/-- What is counted under a tag: for a unit that is known what it measures, and money for a currency
    that is known. -/
inductive Counts (t : Tables α) : Tag → Quantity → Prop where
  | number : Counts t .number .number
  | percent : Counts t .percent .percentage
  | unit {name : String} {m : Signature} (measures : t.units.Measures name m) :
      Counts t (.unit name) (.measure m)
  | currency {word code : String} (known : t.rates.codeOf? word = some code) :
      Counts t (.currency word) .money

inductive IsOf (t : Tables α) (q : Quantity) : Value α → Prop where
  | scalar {tag : Tag} (a : α) (counts : t.Counts tag q) : IsOf t q (.scalar tag a)

def amountUnder? (t : Tables α) : Tag → Value α → Option α
  | .number, .number a => some a
  | .percent, .percent a => some a
  | .unit target, .unit a source => (t.units.convert a source target).toOption
  | .currency target, .currency a source => (t.rates.exchange a source target).toOption
  | _, _ => none

theorem binary_subtract_of_amountUnder? {t : Tables α} {tag : Tag} {v : Value α} {b : α}
    (under : t.amountUnder? tag v = some b) (a : α) :
    t.binary .subtract (.scalar tag a) v = .ok (.scalar tag (a - b)) := by
  unfold amountUnder? at under
  split at under
  · obtain rfl := Option.some.inj under
    rfl
  · obtain rfl := Option.some.inj under
    rfl
  · rename_i target source c
    show (measured (t.units.convert c source target)).bind _ = _
    rw [toOption_eq_some.1 under]
    rfl
  · rename_i target source c
    show (exchanged (t.rates.exchange c source target)).bind _ = _
    rw [toOption_eq_some.1 under]
    rfl
  · cases under

theorem kind_of_isOf {t : Tables α} {q : Quantity} {v w : Value α} (first : t.IsOf q v)
    (second : t.IsOf q w) : v.kind = w.kind := by
  obtain ⟨a, counts⟩ := first
  obtain ⟨b, counts'⟩ := second
  cases counts <;> cases counts' <;> rfl

end

/-- How amounts under a tag and base amounts go over into one another. -/
def gauge? (t : Tables ℚ) : Tag → Option (Conversion ℚ)
  | .number => some (.linear 1)
  | .percent => some (.linear 1)
  | .unit name => (t.units.gauge name).toOption
  | .currency word =>
    ((t.rates.codeOf? word).bind t.rates.rate?).map fun rate => .linear (1 / rate)

def size (t : Tables ℚ) : Value ℚ → ℚ
  | .scalar tag a => (t.gauge? tag).elim 0 fun c => c.toBase a
  | _ => 0

section
variable {t : Tables ℚ} (reached : t.units.Reached) (positive : t.rates.Positive)
include reached positive

theorem gauge_of_counts {tag : Tag} {q : Quantity} (counts : t.Counts tag q) :
    ∃ c, t.gauge? tag = some c ∧ 0 < c.factor := by
  cases counts with
  | number => exact ⟨_, rfl, one_pos⟩
  | percent => exact ⟨_, rfl, one_pos⟩
  | unit measures =>
    obtain ⟨c, found, above⟩ := UnitSystem.gauge_of_measures reached measures
    refine ⟨c, ?_, above⟩
    rw [gauge?, found]
    rfl
  | @currency word code known =>
    obtain ⟨rate, rated⟩ := Option.isSome_iff_exists.1 (Rates.isCode_of_codeOf? known).rated
    refine ⟨.linear (1 / rate), ?_, one_div_pos.2 (positive code rate rated)⟩
    rw [gauge?, known, Option.bind_some, rated, Option.map_some]

/-- An amount goes over to another tag through base amounts. -/
theorem amountUnder?_eq {tag target : Tag} {q : Quantity} (from_ : t.Counts tag q)
    (to_ : t.Counts target q) {c : Conversion ℚ} (gauged : t.gauge? target = some c) (a : ℚ) :
    t.amountUnder? target (.scalar tag a) = some (c.fromBase (t.size (.scalar tag a))) := by
  obtain ⟨d, gauged', above⟩ := gauge_of_counts reached positive from_
  have size : t.size (.scalar tag a) = d.toBase a := by
    rw [Tables.size, gauged', Option.elim_some]
  rw [size]
  cases from_ with
  | number =>
    cases to_
    obtain rfl := Option.some.inj (gauged.symm.trans gauged')
    rw [Conversion.fromBase_toBase above]
    rfl
  | percent =>
    cases to_
    obtain rfl := Option.some.inj (gauged.symm.trans gauged')
    rw [Conversion.fromBase_toBase above]
    rfl
  | unit measures =>
    cases to_ with
    | unit measures' =>
      rw [amountUnder?, UnitSystem.convert_eq_gauge reached measures measures'
        (toOption_eq_some.1 gauged') (toOption_eq_some.1 gauged)]
      rfl
  | currency known =>
    cases to_ with
    | currency known' =>
      rw [gauge?, known, Option.bind_some, Option.map_eq_some_iff] at gauged'
      rw [gauge?, known', Option.bind_some, Option.map_eq_some_iff] at gauged
      obtain ⟨s, rated, rfl⟩ := gauged'
      obtain ⟨r, rated', rfl⟩ := gauged
      -- The base amount is one in dollars, even where a currency is exchanged for itself.
      have nonzero := (positive _ _ rated).ne'
      have exact : a * (1 / s) / (1 / r) = a / s * r := by
        rw [mul_one_div, div_div_eq_mul_div, div_one]
      rw [amountUnder?, Rates.exchange_eq known known' rated rated' nonzero, ← exact]
      rfl

theorem exists_amountUnder {tag : Tag} {q : Quantity} (counts : t.Counts tag q) :
    ∃ c : Conversion ℚ, 0 < c.factor ∧ ∀ v, t.IsOf q v →
      t.amountUnder? tag v = some (c.fromBase (t.size v)) := by
  obtain ⟨c, gauged, above⟩ := gauge_of_counts reached positive counts
  refine ⟨c, above, ?_⟩
  rintro _ ⟨a, counts'⟩
  exact amountUnder?_eq reached positive counts' counts gauged a

theorem subtract_of_isOf {q : Quantity} {best v : Value ℚ} (first : t.IsOf q best)
    (second : t.IsOf q v) : ∃ tag a, t.binary .subtract v best = .ok (.scalar tag a) ∧
      ∀ largest, Exceeds largest a 0 ↔ Exceeds largest (t.size v) (t.size best) := by
  obtain ⟨b, counts⟩ := first
  obtain @⟨tag, a, counts'⟩ := second
  obtain ⟨c, gauged, above⟩ := gauge_of_counts reached positive counts'
  have self : c.fromBase (t.size (.scalar tag a)) = a := by
    rw [size, gauged, Option.elim_some, Conversion.fromBase_toBase above]
  have under := amountUnder?_eq reached positive counts counts' gauged b
  refine ⟨tag, _, binary_subtract_of_amountUnder? under a, ?_⟩
  intro largest
  rw [← Conversion.exceeds_fromBase above (x := t.size (.scalar tag a)), self]
  unfold Exceeds
  rw [sub_pos, sub_neg]

end

end Tables

/-! Values that do not go together. -/

section
variable {α : Type} [Amount α]

/-- Two values that have no difference: of two kinds, of units that do not measure the same, or two
    texts. -/
inductive Clash (u : UnitSystem α) : Value α → Value α → Prop where
  | kinds {v w : Value α} (other : v.kind ≠ w.kind) : Clash u v w
  | units {first second : String} (a b : α) (apart : ¬ u.Alike first second) :
      Clash u (.unit a first) (.unit b second)
  | texts (first second : String) : Clash u (.text first) (.text second)

variable {u : UnitSystem α}

theorem clash_symm {v w : Value α} (clash : Clash u v w) : Clash u w v := by
  cases clash with
  | kinds other => exact .kinds (Ne.symm other)
  | units a b apart => exact .units b a fun alike => apart (UnitSystem.alike_symm alike)
  | texts first second => exact .texts second first

theorem clash_split {v w : Value α} (clash : Clash u v w) (between : Value α) :
    Clash u v between ∨ Clash u between w := by
  by_cases same : v.kind = between.kind
  · cases clash with
    | kinds other => exact .inr (.kinds (same ▸ other))
    | @units first second a b apart =>
      cases between with
      | scalar tag c =>
        cases tag with
        | unit name =>
          by_cases alike : u.Alike first name
          · exact .inr (.units c b fun onward => apart (UnitSystem.alike_trans alike onward))
          · exact .inl (.units a c alike)
        | _ => cases same
      | _ => cases same
    | texts first second =>
      cases between with
      | text content => exact .inl (.texts first content)
      | scalar tag c => cases tag <;> cases same
      | date moment => cases same
  · exact .inl (.kinds same)

end

namespace Surroundings

section
variable {s : Surroundings ℚ} (reached : s.tables.units.Reached)
  (positive : s.tables.rates.Positive) (f : Function) (largest : Bool) {q : Quantity}
include reached positive

theorem better_eq {best v : Value ℚ} (first : s.tables.IsOf q best) (second : s.tables.IsOf q v) :
    s.better f largest best v = .ok
      (if Exceeds largest (s.tables.size v) (s.tables.size best) then v else best) := by
  obtain ⟨tag, a, taken, exceeds⟩ := Tables.subtract_of_isOf reached positive first second
  have sign : (if largest then Amount.isPositive a else Amount.isNegative a) = true ↔
      Exceeds largest (s.tables.size v) (s.tables.size best) := by
    rw [← exceeds]
    unfold Exceeds
    cases largest with
    | true => exact Amount.isPositive_iff
    | false => exact Amount.isNegative_iff
  rw [better, if_neg (not_not.2 (Tables.kind_of_isOf second first)), taken]
  show (if _ then Except.ok v else Except.ok best) = _
  rw [apply_ite Except.ok]
  exact if_congr sign rfl rfl

theorem better_leads {before after : List (Value ℚ)} {best v : Value ℚ}
    (each : ∀ w ∈ before ++ best :: after ++ [v], s.tables.IsOf q w)
    (leads : Leads s.tables.size largest before best after) :
    ∃ before' best' after', before ++ best :: after ++ [v] = before' ++ best' :: after' ∧
      s.better f largest best v = .ok best' ∧
      Leads s.tables.size largest before' best' after' := by
  have compared := better_eq reached positive f largest (each best (by simp)) (each v (by simp))
  by_cases beyond : Exceeds largest (s.tables.size v) (s.tables.size best)
  · rw [if_pos beyond] at compared
    exact ⟨before ++ best :: after, v, [], rfl, compared, leads_better leads beyond⟩
  · rw [if_neg beyond] at compared
    exact ⟨before, best, after ++ [v], by simp, compared, leads_worse leads beyond⟩

theorem foldlM_better {before after rest : List (Value ℚ)} {best : Value ℚ}
    (leads : Leads s.tables.size largest before best after)
    (each : ∀ v ∈ before ++ best :: after ++ rest, s.tables.IsOf q v) :
    ∃ before' best' after', before ++ best :: after ++ rest = before' ++ best' :: after' ∧
      rest.foldlM (s.better f largest) best = .ok best' ∧
      Leads s.tables.size largest before' best' after' := by
  -- The row is what has been compared, and the induction is on what has not.
  induction rest generalizing before best after with
  | nil => exact ⟨before, best, after, List.append_nil _, rfl, leads⟩
  | cons v rest ih =>
    rw [List.append_cons] at each ⊢
    obtain ⟨before', best', after', split, compared, leads'⟩ :=
      better_leads reached positive f largest
        (fun w member => each w (List.mem_append_left rest member)) leads
    rw [split] at each ⊢
    rw [List.foldlM_cons, compared]
    exact ih leads' each

end

section
variable {α : Type} [Amount α] {s : Surroundings α} {f : Function} {largest : Bool}

theorem better_eq_ok {best v result : Value α} (compared : s.better f largest best v = .ok result) :
    ¬ Clash s.tables.units best v ∧ (result = best ∨ result = v) := by
  unfold better at compared
  rw [guarded_eq_ok] at compared
  obtain ⟨same, compared⟩ := compared
  rw [bind_eq_ok] at compared
  obtain ⟨difference, taken, chosen⟩ := compared
  constructor
  · intro clash
    cases clash with
    | kinds other => exact same (Ne.symm other)
    | units a b apart =>
      obtain ⟨c, converted, _⟩ := bind_eq_ok.1 taken
      exact apart (UnitSystem.convert_iff_alike.1 ⟨c, Tables.measured_eq_ok converted⟩)
    | texts first second => cases taken
  · cases amount : difference.amount? with
    | none =>
      rw [amount] at chosen
      cases chosen
    | some a =>
      simp only [amount] at chosen
      generalize (if largest then Amount.isPositive a else Amount.isNegative a) = beyond at chosen
      cases beyond with
      | true => exact .inr (pure_eq_ok.1 chosen).symm
      | false => exact .inl (pure_eq_ok.1 chosen).symm

theorem foldlM_better_eq_ok {rest : List (Value α)} {best result : Value α}
    (compared : rest.foldlM (s.better f largest) best = .ok result) :
    ∀ v ∈ rest, ¬ Clash s.tables.units best v := by
  induction rest generalizing best with
  | nil => simp
  | cons v rest ih =>
    rw [List.foldlM_cons, bind_eq_ok] at compared
    obtain ⟨next, step, onward⟩ := compared
    obtain ⟨together, either⟩ := better_eq_ok step
    have later := ih onward
    refine List.forall_mem_cons.2 ⟨together, ?_⟩
    intro w member clash
    rcases either with rfl | rfl
    · exact later w member clash
    · rcases clash_split clash next with first | second
      · exact together first
      · exact later w member second

theorem extreme_of_clash {values : List (Value α)} {v w : Value α} (both : [v, w].Sublist values)
    (clash : Clash s.tables.units v w) : ∃ e, s.extreme f largest values = .error e := by
  cases compared : s.extreme f largest values with
  | error e => exact ⟨e, rfl⟩
  | ok result =>
    exfalso
    cases values with
    | nil => cases compared
    | cons first rest =>
      have together := foldlM_better_eq_ok compared
      -- Either the first value is one of the two, or one of the two clashes with it.
      rcases List.cons_sublist_cons'.1 both with later | ⟨rfl, second⟩
      · have left : v ∈ rest := later.subset (by simp)
        have right : w ∈ rest := later.subset (by simp)
        rcases clash_split clash first with clash | clash
        · exact together v left (clash_symm clash)
        · exact together w right clash
      · exact together w (List.singleton_sublist.1 second) clash

end

def chooser (largest : Bool) : Function :=
  if largest then ⟨.max, "max", 1, none⟩ else ⟨.min, "min", 1, none⟩

theorem apply_chooser_eq {α : Type} [Amount α] (s : Surroundings α) (largest : Bool)
    (values : List (Value α)) :
    s.apply (chooser largest) values = s.extreme (chooser largest) largest values := by
  cases largest <;> rfl

/-- The greatest or the least of arguments that measure the same is one of them as it stands: the
    first one that no other exceeds, under whatever common tag their amounts are compared. Arguments
    of two kinds, of units that measure different things, or more texts than one are refused. -/
theorem apply_chooser {s : Surroundings ℚ} (reached : s.tables.units.Reached)
    (positive : s.tables.rates.Positive) (largest : Bool) (values : List (Value ℚ)) :
    Function.named (if largest then "max" else "min") = .ok (chooser largest) ∧
    (∀ q, values ≠ [] → (∀ v ∈ values, s.tables.IsOf q v) →
      ∃ before best after, values = before ++ best :: after ∧
        s.apply (chooser largest) values = .ok best ∧
        ∀ tag, s.tables.Counts tag q → ∃ amount : Value ℚ → ℚ,
          (∀ v ∈ values, s.tables.amountUnder? tag v = some (amount v)) ∧
          Leads amount largest before best after) ∧
    ∀ v w, [v, w].Sublist values → Clash s.tables.units v w →
      ∃ e, s.apply (chooser largest) values = .error e := by
  refine ⟨?_, ?_, ?_⟩
  · cases largest with
    | true => decide +kernel
    | false => decide +kernel
  · intro q nonempty each
    obtain ⟨first, rest, rfl⟩ := List.exists_cons_of_ne_nil nonempty
    obtain ⟨before, best, after, split, compared, leads⟩ :=
      foldlM_better reached positive (chooser largest) largest (leads_alone first) each
    refine ⟨before, best, after, split, (apply_chooser_eq _ _ _).trans compared, ?_⟩
    intro tag counts
    obtain ⟨c, above, under⟩ := Tables.exists_amountUnder reached positive counts
    refine ⟨fun v => c.fromBase (s.tables.size v), fun v member => under v (each v member), ?_⟩
    exact leads_of_iff leads fun v w => Conversion.exceeds_fromBase above
  · intro v w both clash
    rw [apply_chooser_eq]
    exact extreme_of_clash both clash

theorem apply_chooser_temperatures :
    let s : Surroundings ℚ :=
      ⟨⟨.standard, .standard⟩, Day.midnight ⟨0, by decide, by decide⟩, [], 1, 2⟩
    let values : List (Value ℚ) := [.unit 273 "K", .unit 0 "°C", .unit 32 "°F"]
    s.tables.units.Reached ∧ s.tables.rates.Positive ∧
      (∀ v ∈ values, s.tables.IsOf (.measure (.plain .temperature)) v) ∧
      ∃ before best after, values = before ++ best :: after ∧
        s.apply (chooser true) values = .ok best ∧ best = .unit 0 "°C" ∧
        ∀ tag, s.tables.Counts tag (.measure (.plain .temperature)) → ∃ amount : Value ℚ → ℚ,
          (∀ v ∈ values, s.tables.amountUnder? tag v = some (amount v)) ∧
          Leads amount true before best after := by
  intro s values
  have reached : s.tables.units.Reached := .standard
  have positive : s.tables.rates.Positive := Rates.positive_standard
  have known : ∀ name ∈ ["K", "°C", "°F"],
      s.tables.units.signature name = .ok (.plain .temperature) := by
    decide +kernel
  have degrees {name : String} (member : name ∈ ["K", "°C", "°F"]) (a : ℚ) :
      s.tables.IsOf (.measure (.plain .temperature)) (.unit a name) :=
    .scalar a (.unit ⟨_, known name member, rfl⟩)
  have each : ∀ v ∈ values, s.tables.IsOf (.measure (.plain .temperature)) v := by
    simp only [values, List.forall_mem_cons]
    exact ⟨degrees (by simp) 273, degrees (by simp) 0, degrees (by simp) 32, by simp⟩
  have found : s.apply (chooser true) values = .ok (.unit 0 "°C") := by decide +kernel
  refine ⟨reached, positive, each, ?_⟩
  obtain ⟨_, extreme, _⟩ := apply_chooser reached positive true values
  obtain ⟨before, best, after, split, applied, leads⟩ := extreme _ (by simp [values]) each
  exact ⟨before, best, after, split, applied, Except.ok.inj (applied.symm.trans found), leads⟩

end Surroundings

end NotepadCalculator

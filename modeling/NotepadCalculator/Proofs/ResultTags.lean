import NotepadCalculator.Proofs.TextVariance

/-!
What an operation comes to apart from amounts. Whether units and currencies convert is decided by
their names alone, so operands that count the same give results that count the same, or they fail
in the same way. Amounts decide no more than whether a divisor is zero, whether a date stays within
the calendar, and whether two dates are whole days apart.
-/
namespace NotepadCalculator
open Calendar Measurement Money Number

variable {α β γ : Type}

inductive Value.SameTag : Value α → Value α → Prop where
  | scalar (tag : Tag) (a b : α) : SameTag (.scalar tag a) (.scalar tag b)
  | date (m n : Moment) : SameTag (.date m) (.date n)
  | text (c d : String) : SameTag (.text c) (.text d)

theorem Value.SameTag.kind {v w : Value α} (same : v.SameTag w) : v.kind = w.kind := by
  cases same <;> rfl

/-- Both answers are results that belong together or the same error, unless one of them is an error
    that is excused. -/
inductive Parallel (Q : β → γ → Prop) (excused : EvalError → Prop) :
    Answer β → Answer γ → Prop where
  | ok {b : β} {c : γ} (related : Q b c) : Parallel Q excused (.ok b) (.ok c)
  | error (e : EvalError) : Parallel Q excused (.error e) (.error e)
  | left {e : EvalError} (excuse : excused e) (y : Answer γ) : Parallel Q excused (.error e) y
  | right {e : EvalError} (excuse : excused e) (x : Answer β) : Parallel Q excused x (.error e)

/-- Whether there is an answer does not depend on what is asked about, nor does the error. -/
inductive Uniform {ε : Type} (f : α → Except ε β) : Prop where
  | succeeds (each : ∀ a, ∃ b, f a = .ok b) : Uniform f
  | fails (e : ε) (each : ∀ a, f a = .error e) : Uniform f

section
variable {Q P : β → γ → Prop} {excused allowed : EvalError → Prop}

theorem Parallel.mono {x : Answer β} {y : Answer γ} (parallel : Parallel Q excused x y)
    (results : ∀ b c, Q b c → P b c) (errors : ∀ e, excused e → allowed e) :
    Parallel P allowed x y := by
  cases parallel with
  | ok related => exact .ok (results _ _ related)
  | error e => exact .error e
  | left excuse y => exact .left (errors _ excuse) y
  | right excuse x => exact .right (errors _ excuse) x

theorem Uniform.parallel_bind {f : α → Answer β} (uniform : Uniform f) {δ : Type} {Q : γ → δ → Prop}
    {g : β → Answer γ} {h : β → Answer δ} (rest : ∀ b c, Parallel Q excused (g b) (h c)) (a b : α) :
    Parallel Q excused (f a >>= g) (f b >>= h) := by
  cases uniform with
  | succeeds each =>
    obtain ⟨c, gives⟩ := each a
    obtain ⟨d, also⟩ := each b
    rw [gives, also]
    exact rest c d
  | fails e each =>
    rw [each a, each b]
    exact .error e

theorem uniform_bind {δ ε : Type} (first : Except ε δ) {f : δ → α → Except ε β}
    (rest : ∀ d, Uniform (f d)) : Uniform fun a => first >>= fun d => f d a := by
  cases first with
  | ok d => exact rest d
  | error e => exact .fails e fun _ => rfl

/-- Another form for the answers changes nothing about that. -/
theorem Uniform.through {δ ε : Type} {f : α → Except ε β} (uniform : Uniform f)
    {g : Except ε β → Except δ γ} (results : ∀ b, ∃ c, g (.ok b) = .ok c)
    (errors : ∀ e, ∃ d, g (.error e) = .error d) : Uniform fun a => g (f a) := by
  cases uniform with
  | succeeds each =>
    apply Uniform.succeeds
    intro a
    obtain ⟨b, gives⟩ := each a
    rw [gives]
    exact results b
  | fails e each =>
    obtain ⟨d, becomes⟩ := errors e
    apply Uniform.fails d
    intro a
    rw [each a, becomes]

theorem uniform_measured {f : α → Except UnitFault β} (uniform : Uniform f) :
    Uniform fun a => measured (f a) :=
  uniform.through (fun b => ⟨b, rfl⟩) fun fault => ⟨.ofUnitFault fault, rfl⟩

end

section
variable [Amount α]

/-! Conversion. -/

theorem uniform_convertRate (u : UnitSystem α) (source target : String) :
    Uniform fun a => u.convertRate a source target := by
  apply uniform_bind
  intro src
  apply uniform_bind
  intro dst
  by_cases unlike : src.pair ≠ dst.pair
  · simp only [if_pos unlike]
    exact .fails _ fun _ => rfl
  · simp only [if_neg unlike]
    exact .succeeds fun _ => ⟨_, rfl⟩

theorem uniform_convert (u : UnitSystem α) (source target : String) :
    Uniform fun a => u.convert a source target := by
  by_cases written : (isRatioName source || isRatioName target) = true
  · simp only [UnitSystem.convert, if_pos written]
    exact uniform_convertRate u source target
  · simp only [UnitSystem.convert, if_neg written]
    apply uniform_bind
    intro src
    apply uniform_bind
    intro dst
    by_cases unlike : src.dimension ≠ dst.dimension
    · simp only [if_pos unlike]
      exact .fails _ fun _ => rfl
    · simp only [if_neg unlike]
      by_cases named : src.name = dst.name
      · simp only [if_pos named]
        exact .succeeds fun a => ⟨a, rfl⟩
      · simp only [if_neg named]
        exact .succeeds fun _ => ⟨_, rfl⟩

theorem uniform_exchange (r : Rates α) (source target : String) :
    Uniform fun a => r.exchange a source target := by
  unfold Rates.exchange
  split
  · exact .fails _ fun _ => rfl
  · exact .fails _ fun _ => rfl
  · split
    · exact .succeeds fun a => ⟨a, rfl⟩
    · split
      · exact .fails _ fun _ => rfl
      · exact .fails _ fun _ => rfl
      · exact .succeeds fun a => ⟨_, rfl⟩

/-! Tagged amounts. -/

abbrev Divides : Answer (Value α) → Answer (Value α) → Prop :=
  Parallel Value.SameTag (· = .divisionByZero)

variable (a a' b b' : α)

omit [Amount α] in
theorem divides_ok (tag : Tag) : Divides (.ok (.scalar tag a)) (.ok (.scalar tag a')) :=
  .ok (.scalar tag a a')

theorem divides_unless {x x' : Answer (Value α)} (divides : Divides x x') : Divides
    (if Amount.isZero b then .error .divisionByZero else x)
    (if Amount.isZero b' then .error .divisionByZero else x') := by
  by_cases zero : Amount.isZero b = true
  · rw [if_pos zero]
    exact .left (by rfl) _
  · rw [if_neg zero]
    by_cases zero' : Amount.isZero b' = true
    · rw [if_pos zero']
      exact .right (by rfl) _
    · rw [if_neg zero']
      exact divides

theorem divides_by (tag : Tag) : Divides
    (if Amount.isZero b then .error .divisionByZero else .ok (.scalar tag a))
    (if Amount.isZero b' then .error .divisionByZero else .ok (.scalar tag a')) :=
  divides_unless b b' (divides_ok a a' tag)

theorem divides_numbers (op : BinaryOp) : Divides (numbers op a b) (numbers op a' b') := by
  cases op with
  | divide => exact divides_by _ _ b b' .number
  | remainder => exact divides_by _ _ b b' .number
  | _ => exact divides_ok _ _ .number

theorem divides_percentages (op : BinaryOp) :
    Divides (percentages op a b) (percentages op a' b') := by
  cases op with
  | add => exact divides_ok _ _ .percent
  | subtract => exact divides_ok _ _ .percent
  | _ => exact .error _

theorem divides_percentageLeft (op : BinaryOp) (tag : Tag) :
    Divides (percentageLeft op a tag b) (percentageLeft op a' tag b') := by
  unfold percentageLeft
  split
  · exact divides_ok _ _ tag
  · exact divides_ok _ _ .percent
  · exact divides_by _ _ b b' .percent
  · exact .error _

theorem divides_percentageRight (op : BinaryOp) (tag : Tag) :
    Divides (percentageRight op tag a b) (percentageRight op tag a' b') := by
  cases op with
  | divide => exact divides_by _ _ b b' tag
  | remainder => exact .error _
  | _ => exact divides_ok _ _ tag

theorem divides_numberUnit (op : BinaryOp) (name : String) :
    Divides (numberUnit op a b name) (numberUnit op a' b' name) := by
  cases op with
  | multiply => exact divides_ok _ _ (.unit name)
  | divide => exact divides_by _ _ b b' (.unit name)
  | _ => exact .error _

theorem divides_unitNumber (op : BinaryOp) (name : String) :
    Divides (unitNumber op a name b) (unitNumber op a' name b') := by
  cases op with
  | multiply => exact divides_ok _ _ (.unit name)
  | divide => exact divides_by _ _ b b' (.unit name)
  | _ => exact .error _

theorem divides_currencyNumber (op : BinaryOp) (code : String) :
    Divides (currencyNumber op a code b) (currencyNumber op a' code b') := by
  cases op with
  | multiply => exact divides_ok _ _ (.currency code)
  | divide => exact divides_by _ _ b b' (.currency code)
  | _ => exact .error _

theorem divides_numberCurrency (op : BinaryOp) (code : String) :
    Divides (numberCurrency op a b code) (numberCurrency op a' b' code) := by
  cases op with
  | multiply => exact divides_ok _ _ (.currency code)
  | _ => exact .error _

def Value.IsElapsed (v : Value α) : Prop := ∃ a, v = .unit a "day" ∨ v = .unit a "h"

theorem isElapsed_dateDifference (later earlier : Moment) :
    (dateDifference (α := α) later earlier).IsElapsed := by
  unfold dateDifference
  dsimp only
  split
  · exact ⟨_, .inl rfl⟩
  · exact ⟨_, .inr rfl⟩

namespace Tables
variable (t : Tables α)

theorem divides_unitQuotient (u v : String) :
    Divides (t.unitQuotient a u b v) (t.unitQuotient a' u b' v) := by
  unfold unitQuotient
  cases uniform_convert t.units v u with
  | succeeds each =>
    obtain ⟨c, gives⟩ := each b
    obtain ⟨c', gives'⟩ := each b'
    rw [gives, gives']
    exact divides_by _ _ c c' .number
  | fails fault each =>
    rw [each b, each b']
    -- A zero divisor is reported before the units are.
    apply divides_unless
    cases t.units.canonicalName (u ++ "/" ++ v) with
    | ok name => exact divides_ok _ _ (.unit name)
    | error _ => exact .error _

theorem divides_rateTimes? (r q : String) :
    Option.Rel Divides (t.rateTimes? a r b q) (t.rateTimes? a' r b' q) := by
  unfold rateTimes?
  cases t.units.rateUnits r with
  | error _ => exact .none
  | ok pair =>
    dsimp only
    cases uniform_convert t.units q pair.2 with
    | fails fault each =>
      rw [each b, each b']
      exact .none
    | succeeds each =>
      obtain ⟨c, gives⟩ := each b
      obtain ⟨c', gives'⟩ := each b'
      rw [gives, gives']
      apply Option.Rel.some
      have rate : Uniform fun a : α => if pair.1 ++ "/" ++ pair.2 = r then (.ok a : Answer α)
          else measured (t.units.convert a r (pair.1 ++ "/" ++ pair.2)) := by
        split
        · exact .succeeds fun a => ⟨a, rfl⟩
        · exact uniform_measured (uniform_convert t.units r _)
      exact rate.parallel_bind (fun _ _ => divides_ok _ _ (.unit pair.1)) a a'

theorem divides_unitProduct (u v : String) :
    Divides (t.unitProduct a u b v) (t.unitProduct a' u b' v) := by
  have first := divides_rateTimes? a a' b b' t u v
  have second := divides_rateTimes? b b' a a' t v u
  unfold unitProduct
  generalize t.rateTimes? a u b v = x, t.rateTimes? a' u b' v = x' at first
  generalize t.rateTimes? b v a u = y, t.rateTimes? b' v a' u = y' at second
  cases first with
  | some divides => exact divides
  | none =>
    cases second with
    | some divides => exact divides
    | none => exact .error _

theorem divides_unitUnit (op : BinaryOp) (u v : String) :
    Divides (t.unitUnit op a u b v) (t.unitUnit op a' u b' v) := by
  have converted := uniform_measured (uniform_convert t.units v u)
  cases op with
  | add => exact converted.parallel_bind (fun _ _ => divides_ok _ _ (.unit u)) b b'
  | subtract => exact converted.parallel_bind (fun _ _ => divides_ok _ _ (.unit u)) b b'
  | multiply => exact divides_unitProduct a a' b b' t u v
  | divide => exact divides_unitQuotient a a' b b' t u v
  | remainder => exact .error _

theorem divides_currencyCurrency (op : BinaryOp) (c d : String) :
    Divides (t.currencyCurrency op a c b d) (t.currencyCurrency op a' c b' d) := by
  have converted : Uniform fun b => exchanged (t.rates.exchange b d c) :=
    (uniform_exchange t.rates d c).through (fun e => ⟨e, rfl⟩) fun word => ⟨_, rfl⟩
  refine converted.parallel_bind (fun e e' => ?_) b b'
  cases op with
  | add => exact divides_ok _ _ (.currency c)
  | subtract => exact divides_ok _ _ (.currency c)
  | divide => exact divides_by _ _ e e' .number
  | _ => exact .error _

theorem divides_scalars (op : BinaryOp) (left right : Tag) :
    Divides (t.scalars op left a right b) (t.scalars op left a' right b') := by
  unfold scalars
  split
  · exact divides_numbers a a' b b' op
  · exact divides_percentages a a' b b' op
  · exact divides_percentageLeft a a' b b' op _
  · exact divides_percentageRight a a' b b' op _
  · exact divides_numberUnit a a' b b' op _
  · exact divides_unitNumber a a' b b' op _
  · exact divides_unitUnit a a' b b' t op _ _
  · exact divides_currencyCurrency a a' b b' t op _ _
  · exact divides_currencyNumber a a' b b' op _
  · exact divides_numberCurrency a a' b b' op _
  · exact .error _

/-! Dates. -/

theorem uniform_seconds (name : String) : Uniform fun a => t.seconds a name := by
  unfold seconds
  cases uniform_convert t.units name "s" with
  | succeeds each =>
    apply Uniform.succeeds
    intro a
    obtain ⟨b, gives⟩ := each a
    exact ⟨b, by rw [gives]⟩
  | fails fault each =>
    apply Uniform.fails (.incompatibleUnits (.notDuration name))
    intro a
    rw [each a]

abbrev Shifts : Answer (Value α) → Answer (Value α) → Prop :=
  Parallel Value.SameTag (· = .invalidOperation .dateRange)

theorem shifts_moved (m m' : Moment) : Shifts (moved m a) (moved m' a') := by
  unfold moved
  cases m.shift? a with
  | none => exact .left (by rfl) _
  | some date =>
    cases m'.shift? a' with
    | none => exact .right (by rfl) _
    | some date' => exact .ok (.date date date')

end Tables

/-! Values. -/

/-- Results of one operation on operands of these kinds: they have the same tag, but for differences
    of dates, which are in days or in hours. -/
def Resembles (op : BinaryOp) (left right : Kind) (v w : Value α) : Prop :=
  v.SameTag w ∨ op = .subtract ∧ left = .date ∧ right = .date ∧ v.IsElapsed ∧ w.IsElapsed

def Blames (left right : Kind) (e : EvalError) : Prop :=
  e = .divisionByZero ∨ (left = .date ∨ right = .date) ∧ e = .invalidOperation .dateRange

namespace Tables
variable (t : Tables α)

theorem parallel_binary (op : BinaryOp) {l l' r r' : Value α} (left : l.SameTag l')
    (right : r.SameTag r') :
    Parallel (Resembles op l.kind r.kind) (Blames l.kind r.kind) (t.binary op l r)
      (t.binary op l' r') := by
  have divided {x y : Answer (Value α)} (divides : Divides x y) :
      Parallel (Resembles op l.kind r.kind) (Blames l.kind r.kind) x y :=
    divides.mono (fun _ _ same => .inl same) fun _ zero => .inl zero
  have shifted {x y : Answer (Value α)} (date : l.kind = .date ∨ r.kind = .date)
      (shifts : Shifts x y) : Parallel (Resembles op l.kind r.kind) (Blames l.kind r.kind) x y :=
    shifts.mono (fun _ _ same => .inl same) fun _ range => .inr ⟨date, range⟩
  cases left with
  | text c d =>
    rw [binary_text_left, binary_text_left, right.kind]
    exact .error _
  | scalar tag a a' =>
    cases right with
    | text c d =>
      rw [binary_text_right, binary_text_right]
      exact .error _
    | scalar tag' b b' => exact divided (divides_scalars a a' b b' t op tag tag')
    | date m m' =>
      cases tag with
      | unit name =>
        cases op with
        | add =>
          apply shifted (.inr rfl)
          exact (uniform_seconds t name).parallel_bind (fun _ _ => shifts_moved _ _ m m') a a'
        | _ => exact .error _
      | _ => cases op <;> exact .error _
  | date m m' =>
    cases right with
    | text c d =>
      rw [binary_text_right, binary_text_right]
      exact .error _
    | scalar tag b b' =>
      cases tag with
      | unit name =>
        cases op with
        | add =>
          apply shifted (.inl rfl)
          exact (uniform_seconds t name).parallel_bind (fun _ _ => shifts_moved _ _ m m') b b'
        | subtract =>
          apply shifted (.inl rfl)
          exact (uniform_seconds t name).parallel_bind (fun _ _ => shifts_moved _ _ m m') b b'
        | _ => exact .error _
      | _ => cases op <;> exact .error _
    | date n n' =>
      cases op with
      | subtract =>
        refine .ok (.inr ⟨rfl, rfl, rfl, ?_, ?_⟩)
        · exact isElapsed_dateDifference m n
        · exact isElapsed_dateDifference m' n'
      | _ => exact .error _

/-- What counts the same comes out the same. An operation that succeeds does so on other amounts of
    the same tags as well, with a result of the same tag, and one that fails fails on those, unless
    amounts are to blame. -/
theorem binary_sameTag (op : BinaryOp) {l l' r r' : Value α} (left : l.SameTag l')
    (right : r.SameTag r') :
    (∀ v, t.binary op l r = .ok v →
      (∃ w, t.binary op l' r' = .ok w ∧ Resembles op l.kind r.kind v w) ∨
        ∃ e, t.binary op l' r' = .error e ∧ Blames l.kind r.kind e) ∧
    ∀ e, t.binary op l r = .error e → ¬Blames l.kind r.kind e →
      ∃ e', t.binary op l' r' = .error e' ∧ (e' = e ∨ Blames l.kind r.kind e') := by
  have parallel := parallel_binary t op left right
  constructor
  · intro v succeeds
    rw [succeeds] at parallel
    generalize t.binary op l' r' = answer at parallel
    cases parallel with
    | ok related => exact .inl ⟨_, rfl, related⟩
    | right excuse _ => exact .inr ⟨_, rfl, excuse⟩
  · intro e fails unexcused
    rw [fails] at parallel
    generalize t.binary op l' r' = answer at parallel
    cases parallel with
    | error _ => exact ⟨e, rfl, .inl rfl⟩
    | left excuse _ => exact absurd excuse unexcused
    | right excuse _ => exact ⟨_, rfl, .inr excuse⟩

end Tables

end

theorem Tables.binary_sameTag_lengths :
    let t : Tables Float := ⟨.standard, .standard⟩
    (t.binary .divide (.unit 10 "km") (.unit 2 "h") = .ok (.unit (10 / 2) "km/h") ∧
      ((∃ w, t.binary .divide (.unit 7 "km") (.unit 0 "h") = .ok w ∧
          Resembles .divide .unit .unit (.unit (10 / 2) "km/h") w) ∨
        ∃ e, t.binary .divide (.unit 7 "km") (.unit 0 "h") = .error e ∧ Blames .unit .unit e)) ∧
    (t.binary .multiply (.unit 10 "km") (.unit 2 "m") =
        .error (.invalidOperation (.unitProduct "km" "m")) ∧
      ∃ e, t.binary .multiply (.unit 0 "km") (.unit 5 "m") = .error e ∧
        (e = .invalidOperation (.unitProduct "km" "m") ∨ Blames .unit .unit e)) := by
  intro t
  have ratio : t.binary .divide (.unit 10 "km") (.unit 2 "h") = .ok (.unit (10 / 2) "km/h") := by
    decide +kernel
  have product : t.binary .multiply (.unit 10 "km") (.unit 2 "m") =
      .error (.invalidOperation (.unitProduct "km" "m")) := by
    decide +kernel
  refine ⟨⟨ratio, ?_⟩, product, ?_⟩
  · exact (binary_sameTag t .divide (.scalar _ 10 7) (.scalar _ 2 0)).1 _ ratio
  · refine (binary_sameTag t .multiply (.scalar _ 10 0) (.scalar _ 2 5)).2 _ product ?_
    rintro (zero | ⟨_, range⟩)
    · cases zero
    · cases range

end NotepadCalculator

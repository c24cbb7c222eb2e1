import NotepadCalculator.Proofs.UnitConversion

/-!
Spellings of one unit. What a unit is called settles what it is: two texts with the same name are
both read as the same definition, or both as the same ratio. An amount goes into either of them
alike, and where it cannot, both are refused for the same kind of reason.
-/
namespace NotepadCalculator

section
variable {ε β γ : Type}

inductive Akin (K : ε → ε → Prop) : Except ε β → Except ε β → Prop where
  | ok (b : β) : Akin K (.ok b) (.ok b)
  | error {e f : ε} (akin : K e f) : Akin K (.error e) (.error f)

variable {K : ε → ε → Prop}

theorem akin_refl (refl : ∀ e, K e e) (answer : Except ε β) : Akin K answer answer := by
  cases answer with
  | ok b => exact .ok b
  | error e => exact .error (refl e)

theorem akin_bind {x y : Except ε β} {f g : β → Except ε γ} (first : Akin K x y)
    (rest : ∀ b, Akin K (f b) (g b)) : Akin K (x >>= f) (y >>= g) := by
  cases first with
  | ok b => exact rest b
  | error akin => exact .error akin

end

namespace Measurement
open Number Text

def UnitFault.SameKind (e f : UnitFault) : Prop := e.ctorIdx = f.ctorIdx

theorem UnitFault.sameKind_refl (e : UnitFault) : e.SameKind e := rfl

namespace UnitSystem
variable {α : Type} [Amount α] {u : UnitSystem α} {a b : String}

/-- Two texts with one and the same name. -/
def Synonymous (u : UnitSystem α) (a b : String) : Prop :=
  ∃ name, u.canonicalName a = .ok name ∧ u.canonicalName b = .ok name

/-- Two texts that are read as the same unit. -/
inductive SameUnit (u : UnitSystem α) (a b : String) : Prop where
  | whole {unit : Definition α} (first : isRatioName a = false) (second : isRatioName b = false)
      (found : u.resolve a = .ok unit) (again : u.resolve b = .ok unit)
  | ratio {r : Ratio α} (first : isRatioName a = true) (second : isRatioName b = true)
      (read : u.ratio a = .ok r) (again : u.ratio b = .ok r)

theorem name_ne_ratio {unit : Definition α} (holds : u.Holds unit) (r : Ratio α) :
    unit.name ≠ r.name := by
  intro same
  have whole := holds.plain.whole
  rw [same, Ratio.name, isRatioName_ratio] at whole
  contradiction

theorem eq_of_name {first second : Definition α} (holds : u.Holds first) (other : u.Holds second)
    (same : first.name = second.name) : first = second := by
  have found := holds.own
  rw [same, other.own] at found
  exact (Option.some.inj found).symm

theorem ratio_eq_of_name (named : u.Named) {r q : Ratio α} (read : u.ratio a = .ok r)
    (again : u.ratio b = .ok q) (same : r.name = q.name) : r = q := by
  obtain ⟨above, below⟩ := sided_of_ratio named read
  obtain ⟨above', below'⟩ := sided_of_ratio named again
  have first := ratio_of_sided above below
  have second := ratio_of_sided above' below'
  rw [← Ratio.name, same, Ratio.name, second] at first
  exact (Except.ok.inj first).symm

theorem sameUnit_of_synonymous (named : u.Named) (synonymous : u.Synonymous a b) :
    u.SameUnit a b := by
  obtain ⟨name, first, second⟩ := synonymous
  have holds {spec : String} {unit : Definition α} (found : u.resolve spec = .ok unit) :
      u.Holds unit := holds_of_find? named (resolve_iff.1 found)
  cases written : isRatioName a with
  | true =>
    obtain ⟨r, read, rfl⟩ := (canonicalName_written written).1 first
    cases other : isRatioName b with
    | true =>
      obtain ⟨q, again, same⟩ := (canonicalName_written other).1 second
      obtain rfl := ratio_eq_of_name named again read same
      exact .ratio written other read again
    | false =>
      obtain ⟨unit, found, same⟩ := (canonicalName_whole other).1 second
      exact absurd same (name_ne_ratio (holds found) r)
  | false =>
    obtain ⟨unit, found, rfl⟩ := (canonicalName_whole written).1 first
    cases other : isRatioName b with
    | true =>
      obtain ⟨r, _, same⟩ := (canonicalName_written other).1 second
      exact absurd same.symm (name_ne_ratio (holds found) r)
    | false =>
      obtain ⟨unit', again, same⟩ := (canonicalName_whole other).1 second
      obtain rfl := eq_of_name (holds again) (holds found) same
      exact .whole written other found again

theorem isUnit_of_canonicalName {spec name : String} (called : u.canonicalName spec = .ok name) :
    u.isUnit spec = true := by
  rw [isUnit_iff_measures]
  cases written : isRatioName spec with
  | true =>
    obtain ⟨r, read, _⟩ := (canonicalName_written written).1 called
    exact ⟨_, (measures_written written).2 ⟨r, read, rfl⟩⟩
  | false =>
    obtain ⟨unit, found, _⟩ := (canonicalName_whole written).1 called
    exact ⟨_, (measures_whole written).2 ⟨unit, found, rfl⟩⟩

theorem isRatioName_of_sameUnit (same : u.SameUnit a b) : isRatioName a = isRatioName b := by
  cases same with
  | whole first second => rw [first, second]
  | ratio first second => rw [first, second]

theorem rate_of_sameUnit (same : u.SameUnit a b) :
    Akin UnitFault.SameKind (u.rate a) (u.rate b) := by
  cases same with
  | whole first second found again =>
    simp only [UnitSystem.rate, first, second, Bool.false_eq_true, if_false, found, again]
    refine akin_bind (.ok _) fun unit => ?_
    cases unit.dimension.rate? with
    | some pair => exact .ok _
    | none => exact .error rfl
  | ratio first second read again =>
    simp only [UnitSystem.rate, first, second, if_true, read, again]
    exact .ok _

theorem convertRate_of_sameUnit (same : u.SameUnit a b) (value : α) (source : String) :
    Akin UnitFault.SameKind (u.convertRate value source a) (u.convertRate value source b) := by
  refine akin_bind (akin_refl UnitFault.sameKind_refl _) fun src => ?_
  refine akin_bind (rate_of_sameUnit same) fun dst => ?_
  split
  · exact .error rfl
  · exact .ok _

theorem convert_of_sameUnit (same : u.SameUnit a b) (value : α) (source : String) :
    Akin UnitFault.SameKind (u.convert value source a) (u.convert value source b) := by
  have both := isRatioName_of_sameUnit same
  cases written : isRatioName source || isRatioName a with
  | true =>
    have other : (isRatioName source || isRatioName b) = true := both ▸ written
    rw [convert_written written, convert_written other]
    exact convertRate_of_sameUnit same value source
  | false =>
    obtain ⟨-, whole⟩ := Bool.or_eq_false_iff.1 written
    cases same with
    | ratio first _ _ _ =>
      rw [first] at whole
      contradiction
    | whole first second found again =>
      have other : (isRatioName source || isRatioName b) = false := both ▸ written
      simp only [convert, written, other, Bool.false_eq_true, if_false, found, again]
      refine akin_bind (akin_refl UnitFault.sameKind_refl _) fun src => ?_
      refine akin_bind (.ok _) fun dst => ?_
      split
      · exact .error rfl
      · exact akin_refl UnitFault.sameKind_refl _

end UnitSystem

end Measurement

end NotepadCalculator

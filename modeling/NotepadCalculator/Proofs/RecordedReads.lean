import NotepadCalculator.Proofs.EvaluationSteps

/-!
What an evaluation records is all that it depends on. Where a first evaluation succeeds, a second
one takes the same course as long as the variables and lines that the first has recorded hold the
same values for it. Nothing recorded is dropped again, so what is recorded early is among what is
recorded in the end.
-/
namespace NotepadCalculator
open Calendar Measurement Money Number Evaluation

variable {α β γ : Type}

def Progress.Extends (before p : Progress α) : Prop :=
  before.variablesRead ⊆ p.variablesRead ∧ before.linesRead ⊆ p.linesRead

/-- Two evaluations have recorded the same, and they agree on the variables named. -/
structure Progress.Alike (names : List String) (p q : Progress α) : Prop where
  readVariables : q.variablesRead = p.variablesRead
  readLines : q.linesRead = p.linesRead
  bound : ∀ name ∈ names, q.bindings.get? name = p.bindings.get? name

namespace Progress

theorem alike_withVariable {names : List String} {p q : Progress α} (alike : Alike names p q)
    (name : String) : Alike names (p.withVariable name) (q.withVariable name) :=
  ⟨by simp [withVariable, alike.readVariables], alike.readLines, alike.bound⟩

theorem alike_withLine {names : List String} {p q : Progress α} (alike : Alike names p q)
    (line : Nat) : Alike names (p.withLine line) (q.withLine line) :=
  ⟨alike.readVariables, by simp [withLine, alike.readLines], alike.bound⟩

theorem alike_withBinding {names : List String} {p q : Progress α} (alike : Alike names p q)
    (name : String) (value : Value α) :
    Alike names (p.withBinding name value) (q.withBinding name value) := by
  refine ⟨alike.readVariables, alike.readLines, fun other member => ?_⟩
  simp only [withBinding, Bindings.get?_set, alike.bound other member]

end Progress

namespace Surroundings

theorem undisturbed_extends (s : Surroundings α) (before : Progress α) :
    s.Undisturbed before.Extends where
  named := by
    intro p name value _ grown
    exact ⟨List.Subset.trans grown.1 (List.subset_append_left _ _), grown.2⟩
  earlier := by
    intro p line _ _ grown
    exact ⟨grown.1, List.Subset.trans grown.2 (List.subset_append_left _ _)⟩

end Surroundings

namespace Evaluation

/-- The second computation takes the course of the first where that succeeds and records no more
    than the names and numbers given. -/
structure Follows (names : List String) (numbers : List Nat) (first second : Evaluation α β) :
    Prop where
  grows : ∀ before : Progress α, Keeps before.Extends first
  same : ∀ p p' b q, Progress.Alike names p p' → runFrom first p = (.ok b, q) →
    q.variablesRead ⊆ names → q.linesRead ⊆ numbers →
      ∃ q', runFrom second p' = (.ok b, q') ∧ Progress.Alike names q q'

variable {names : List String} {numbers : List Nat}

theorem follows_ofAnswer (answer : Answer β) :
    Follows names numbers (ofAnswer (α := α) answer) (ofAnswer answer) where
  grows := fun _ => keeps_ofAnswer answer
  same := by
    intro p p' b q alike ran _ _
    rw [runFrom_ofAnswer] at ran ⊢
    obtain ⟨rfl, rfl⟩ := Prod.mk.inj ran
    exact ⟨p', rfl, alike⟩

theorem follows_pure (b : β) :
    Follows names numbers (pure b : Evaluation α β) (pure b) := follows_ofAnswer (.ok b)

theorem follows_fail (e : EvalError) :
    Follows names numbers (fail e : Evaluation α β) (fail e) := follows_ofAnswer (.error e)

theorem follows_refuse (fault : OperationFault) :
    Follows names numbers (refuse fault : Evaluation α β) (refuse fault) := follows_fail _

theorem follows_bindName (name : String) (value : Value α) :
    Follows names numbers (Evaluation.bind name value) (Evaluation.bind name value) where
  grows := fun _ _ grown => grown
  same := by
    intro p p' b q alike ran _ _
    rw [runFrom_bindName] at ran ⊢
    obtain ⟨_, rfl⟩ := Prod.mk.inj ran
    exact ⟨_, rfl, Progress.alike_withBinding alike name value⟩

theorem follows_bind {m m' : Evaluation α β} {f f' : β → Evaluation α γ}
    (first : Follows names numbers m m') (rest : ∀ b, Follows names numbers (f b) (f' b)) :
    Follows names numbers (m >>= f) (m' >>= f') where
  grows := fun before => keeps_bind (first.grows before) fun b => (rest b).grows before
  same := by
    intro p p' c q alike ran named numbered
    rw [runFrom_bind] at ran ⊢
    cases middle : runFrom m p with
    | mk answer r =>
      rw [middle] at ran
      cases answer with
      | error e => exact absurd (Prod.mk.inj ran).1 (by simp)
      | ok b =>
        have grown : r.Extends q := by
          have := (rest b).grows r r ⟨List.Subset.refl _, List.Subset.refl _⟩
          rwa [show runFrom (f b) r = (.ok c, q) from ran] at this
        obtain ⟨r', ran', alike'⟩ := first.same p p' b r alike middle
          (List.Subset.trans grown.1 named) (List.Subset.trans grown.2 numbered)
        rw [ran']
        exact (rest b).same r r' c q alike' ran named numbered

theorem follows_mapM {δ : Type} {f f' : δ → Evaluation α β}
    (each : ∀ item, Follows names numbers (f item) (f' item)) (items : List δ) :
    Follows names numbers (items.mapM f) (items.mapM f') := by
  induction items with
  | nil => exact follows_pure []
  | cons item rest ih =>
    rw [List.mapM_cons, List.mapM_cons]
    apply follows_bind (each item)
    intro _
    apply follows_bind ih
    intro _
    exact follows_pure _

theorem follows_foldlM {δ : Type} {f f' : β → δ → Evaluation α β}
    (each : ∀ b item, Follows names numbers (f b item) (f' b item)) (items : List δ) (b : β) :
    Follows names numbers (items.foldlM f b) (items.foldlM f' b) := by
  induction items generalizing b with
  | nil => exact follows_pure b
  | cons item rest ih =>
    rw [List.foldlM_cons, List.foldlM_cons]
    exact follows_bind (each b item) fun b => ih b

theorem follows_readVariable (name : String) :
    Follows names numbers (readVariable (α := α) name) (readVariable name) where
  grows := by
    intro before p grown
    rw [runFrom_readVariable]
    split
    · exact ⟨List.Subset.trans grown.1 (List.subset_append_left _ _), grown.2⟩
    · exact grown
  same := by
    intro p p' b q alike ran named _
    rw [runFrom_readVariable] at ran ⊢
    split at ran
    · rename_i value bound
      obtain ⟨isValue, rfl⟩ := Prod.mk.inj ran
      obtain rfl := Except.ok.inj isValue
      have member : name ∈ names := named (by simp [Progress.withVariable])
      rw [alike.bound name member, bound]
      exact ⟨_, rfl, Progress.alike_withVariable alike name⟩
    · exact absurd (Prod.mk.inj ran).1 (by simp)

end Evaluation

namespace Surroundings

abbrev withResults (s : Surroundings α) (results : List (Option (Value α))) : Surroundings α :=
  { s with results := results }

variable {s : Surroundings α} {results : List (Option (Value α))}
variable {names : List String} {numbers : List Nat}

theorem lineNamed_withResults (count : results.length = s.results.length)
    (reference : Reference) :
    (s.withResults results).lineNamed reference = s.lineNamed reference := by
  cases reference with
  | latest => simp only [lineNamed, ← List.length_eq_zero_iff, count]
  | back count => rfl
  | line number => rfl

theorem follows_previous (count : results.length = s.results.length)
    (lines : ∀ line ∈ numbers, (s.withResults results).result? line = s.result? line)
    (reference : Reference) :
    Follows names numbers (s.previous reference) ((s.withResults results).previous reference) where
  grows := fun before => keeps_previous (s.undisturbed_extends before) reference
  same := by
    intro p p' b q alike ran _ recorded
    rw [runFrom_previous] at ran ⊢
    rw [lineNamed_withResults count]
    split at ran
    · exact absurd (Prod.mk.inj ran).1 (by simp)
    · rename_i line named
      split at ran
      · exact absurd (Prod.mk.inj ran).1 (by simp)
      · exact absurd (Prod.mk.inj ran).1 (by simp)
      · rename_i value found
        obtain ⟨isValue, rfl⟩ := Prod.mk.inj ran
        have member : line ∈ numbers := recorded (by simp [Progress.withLine])
        simp only [lines line member, found]
        exact ⟨_, by rw [isValue], Progress.alike_withLine alike line⟩

variable [Amount α]

theorem follows_unitLiteral (amount : α) (name : String) :
    Follows names numbers (s.unitLiteral amount name)
      ((s.withResults results).unitLiteral amount name) where
  grows := fun before => keeps_unitLiteral (s.undisturbed_extends before) amount name
  same := by
    intro p p' b q alike ran named _
    rw [runFrom_unitLiteral] at ran ⊢
    split at ran
    · rename_i isUnit
      obtain ⟨answered, rfl⟩ := Prod.mk.inj ran
      exact ⟨p', by rw [if_pos isUnit, answered], alike⟩
    · rename_i noUnit
      rw [if_neg noUnit]
      split at ran
      · rename_i code isCode
        obtain ⟨answered, rfl⟩ := Prod.mk.inj ran
        simp only [isCode]
        exact ⟨p', by rw [answered], alike⟩
      · exact absurd (Prod.mk.inj ran).1 (by simp)
      · rename_i value noCode bound
        obtain ⟨answered, rfl⟩ := Prod.mk.inj ran
        have member : name ∈ names := named (by simp [Progress.withVariable])
        simp only [noCode, alike.bound name member, bound]
        exact ⟨_, by rw [answered], Progress.alike_withVariable alike name⟩

theorem follows_fill (pieces : List Template.Piece) :
    Follows names numbers (s.fill pieces) ((s.withResults results).fill pieces) := by
  induction pieces with
  | nil => exact follows_pure []
  | cons piece rest ih =>
    cases piece with
    | literal c => exact follows_bind ih fun _ => follows_pure _
    | placeholder name =>
      apply follows_bind (follows_readVariable name)
      intro _
      apply follows_bind ih
      intro _
      exact follows_pure _

theorem follows_print (value : Value α) :
    Follows names numbers (s.print value) ((s.withResults results).print value) := by
  cases value with
  | text template => exact follows_bind (follows_fill _) fun _ => follows_pure _
  | scalar tag a => exact follows_pure _
  | date moment => exact follows_pure _

section
variable {inner inner' : Inner α} (deeper : ∀ e, Follows names numbers (inner e) (inner' e))
include deeper

theorem follows_call (name : String) (arguments : List (Expr α)) :
    Follows names numbers (s.call inner name arguments)
      ((s.withResults results).call inner' name arguments) := by
  apply follows_bind (follows_ofAnswer _)
  intro f
  apply follows_bind (follows_ofAnswer _)
  intro _
  split
  · exact follows_bind (deeper _) fun value => follows_print value
  · exact follows_bind (follows_mapM deeper _) fun values => follows_ofAnswer _

theorem follows_chain (first : Expr α) (steps : List (BinaryOp × Expr α)) :
    Follows names numbers (s.chain inner first steps)
      ((s.withResults results).chain inner' first steps) := by
  apply follows_bind (deeper first)
  intro value
  apply follows_foldlM
  intro left step
  exact follows_bind (deeper step.2) fun right => follows_ofAnswer _

theorem follows_node (count : results.length = s.results.length)
    (lines : ∀ line ∈ numbers, (s.withResults results).result? line = s.result? line)
    (e : Expr α) :
    Follows names numbers (s.node inner e) ((s.withResults results).node inner' e) := by
  cases e with
  | number a => exact follows_pure _
  | unit a name => exact follows_unitLiteral a name
  | currency a word => exact follows_ofAnswer _
  | date spec => exact follows_ofAnswer _
  | time clock => exact follows_pure _
  | text content => exact follows_pure _
  | «variable» name => exact follows_readVariable name
  | assign name value =>
    apply follows_bind (deeper value)
    intro v
    apply follows_bind (follows_bindName name v)
    intro _
    exact follows_pure v
  | binary op left right => exact follows_chain deeper _ _
  | unary op operand => exact follows_bind (deeper operand) fun v => follows_ofAnswer _
  | call name arguments => exact follows_call deeper name arguments
  | convert value target => exact follows_bind (deeper value) fun v => follows_ofAnswer _
  | previous reference => exact follows_previous count lines reference
  | command name arguments => exact follows_refuse _
  | blank => exact follows_refuse _

end

theorem follows_withLevels (count : results.length = s.results.length)
    (lines : ∀ line ∈ numbers, (s.withResults results).result? line = s.result? line)
    (levels : Nat) (e : Expr α) :
    Follows names numbers (s.withLevels levels e)
      ((s.withResults results).withLevels levels e) := by
  induction levels generalizing e with
  | zero => exact follows_refuse _
  | succ levels ih => exact follows_node ih count lines e

/-- An evaluation that succeeds depends on nothing but what it records: with other variables and
    other lines, as many as before, it comes to the same value and records the same, if only the
    variables and the lines it has read are the same. -/
theorem run_determined_by_reads {e : Expr α} {bindings others : Bindings (Value α)}
    {value : Value α} {p : Progress α} (ran : s.run bindings e = (.ok value, p))
    (count : results.length = s.results.length)
    (sameVariables : ∀ name ∈ p.variablesRead, others.get? name = bindings.get? name)
    (sameLines : ∀ line ∈ p.linesRead, (s.withResults results).result? line = s.result? line) :
    ∃ q, (s.withResults results).run others e = (.ok value, q) ∧
      q.variablesRead = p.variablesRead ∧ q.linesRead = p.linesRead := by
  have follows : Follows p.variablesRead p.linesRead (s.evaluate e)
      ((s.withResults results).evaluate e) := follows_withLevels count sameLines nestingLimit e
  obtain ⟨q, ran', alike⟩ := follows.same (.start bindings) (.start others) value p
    ⟨rfl, rfl, sameVariables⟩ ran (List.Subset.refl _) (List.Subset.refl _)
  exact ⟨q, ran', alike.readVariables, alike.readLines⟩

theorem sum_determined_by_reads :
    let s : Surroundings Float := ⟨⟨.standard, ⟨[]⟩⟩, Day.midnight ⟨0, by decide, by decide⟩,
      [some (.number 5), some (.number 7)], 3, 2⟩
    let sum : Expr Float := .binary .add (.variable "x") (.previous (.line 1))
    s.run [("x", .number 2)] sum = (.ok (.number (2 + 5)), ⟨[("x", .number 2)], [1], ["x"]⟩) ∧
      ∃ q, (s.withResults [some (.number 5), none]).run [("y", .text "a"), ("x", .number 2)] sum =
        (.ok (.number (2 + 5)), q) ∧ q.variablesRead = ["x"] ∧ q.linesRead = [1] := by
  intro s sum
  have ran : s.run [("x", .number 2)] sum =
      (.ok (.number (2 + 5)), ⟨[("x", .number 2)], [1], ["x"]⟩) := rfl
  refine ⟨ran, run_determined_by_reads ran rfl ?_ ?_⟩
  · simp [Bindings.get?, List.lookup_cons]
  · intro line member
    obtain rfl := List.mem_singleton.1 member
    rfl

end Surroundings

end NotepadCalculator

import NotepadCalculator.Proofs.EvaluationSteps

/-!
How deep an evaluation goes. A chain of operators takes one level, however long it is; signs,
calls, conversions, assignments and right operands are a level below what they stand in. An
evaluation gives up for depth only where there are more levels than it may use, and there it does
not succeed.
-/
namespace NotepadCalculator
open Calendar Measurement Money Number

variable {α β γ : Type}

namespace Expr

def isChain : Expr α → Bool
  | .binary _ _ _ => true
  | _ => false

mutual

/-- How many levels an evaluation takes. -/
def depth : Expr α → Nat
  | .assign _ value => value.depth + 1
  | .binary _ left right =>
    max (if left.isChain then left.depth else left.depth + 1) (right.depth + 1)
  | .unary _ operand => operand.depth + 1
  | .call _ arguments => argumentDepth arguments + 1
  | .convert value _ => value.depth + 1
  | _ => 1

def argumentDepth : List (Expr α) → Nat
  | [] => 0
  | first :: rest => max first.depth (argumentDepth rest)

end

def leadingDepth (e : Expr α) : Nat := if e.isChain then e.depth else e.depth + 1

theorem leadingDepth_binary (op : BinaryOp) (left right : Expr α) :
    (binary op left right).leadingDepth = (binary op left right).depth := if_pos rfl

theorem depth_binary (op : BinaryOp) (left right : Expr α) :
    (binary op left right).depth = max left.leadingDepth (right.depth + 1) := by
  rw [depth, leadingDepth]

theorem depth_positive (e : Expr α) : 1 ≤ e.depth := by
  cases e <;> simp only [depth] <;> omega

theorem argumentDepth_le {arguments : List (Expr α)} {levels : Nat} :
    argumentDepth arguments ≤ levels ↔ ∀ argument ∈ arguments, argument.depth ≤ levels := by
  induction arguments with
  | nil => simp [argumentDepth]
  | cons first rest ih => rw [argumentDepth, Nat.max_le, ih, List.forall_mem_cons]

theorem spineOnto_depth (e : Expr α) (steps : List (BinaryOp × Expr α)) (levels : Nat) :
    ((e.spineOnto steps).1.depth ≤ levels ∧
        ∀ step ∈ (e.spineOnto steps).2, step.2.depth ≤ levels) ↔
      e.leadingDepth ≤ levels + 1 ∧ ∀ step ∈ steps, step.2.depth ≤ levels := by
  fun_induction spineOnto e steps with
  | case1 op left right steps ih =>
    rw [ih, List.forall_mem_cons, ← and_assoc]
    refine and_congr_left fun _ => ?_
    rw [leadingDepth_binary, depth_binary, Nat.max_le]
    exact and_congr_right fun _ => Nat.succ_le_succ_iff.symm
  | case2 e steps notBinary =>
    have other : e.isChain = false := by
      cases e with
      | binary op left right => exact (notBinary op left right rfl).elim
      | _ => rfl
    rw [leadingDepth, other]
    exact and_congr_left fun _ => Nat.succ_le_succ_iff.symm

/-- A chain takes a level more than the deepest of its operands. -/
theorem depth_chain (op : BinaryOp) (left right : Expr α) (levels : Nat) :
    (binary op left right).depth ≤ levels + 1 ↔
      (binary op left right).spine.1.depth ≤ levels ∧
        ∀ step ∈ (binary op left right).spine.2, step.2.depth ≤ levels := by
  have whole := spineOnto_depth (binary op left right) [] levels
  rw [spine, whole, leadingDepth_binary]
  simp

end Expr

/-! Evaluations that do not give up. -/

def Shallow (answer : Answer β) : Prop := answer ≠ .error (.invalidOperation .tooDeep)

theorem shallow_ok (b : β) : Shallow (.ok b : Answer β) := by simp [Shallow]

theorem shallow_error {e : EvalError} (other : e ≠ .invalidOperation .tooDeep) :
    Shallow (.error e : Answer β) := fun same => other (Except.error.inj same)

theorem shallow_bind {x : Answer β} {f : β → Answer γ} (first : Shallow x)
    (rest : ∀ b, Shallow (f b)) : Shallow (x >>= f) := by
  cases x with
  | ok b => exact rest b
  | error e => exact fun same => first (congrArg Except.error (Except.error.inj same))

theorem shallow_map {x : Answer β} (first : Shallow x) (f : β → γ) : Shallow (x.map f) :=
  shallow_bind first fun b => shallow_ok (f b)

theorem shallow_foldlM {δ : Type} {f : β → δ → Answer β} (each : ∀ b item, Shallow (f b item))
    (items : List δ) (b : β) : Shallow (items.foldlM f b) := by
  induction items generalizing b with
  | nil => exact shallow_ok b
  | cons item rest ih =>
    rw [List.foldlM_cons]
    exact shallow_bind (each b item) ih

theorem shallow_measured (found : Except UnitFault β) : Shallow (measured found) := by
  cases found with
  | ok b => exact shallow_ok b
  | error fault => cases fault <;> simp [measured, EvalError.ofUnitFault, Shallow]

theorem shallow_exchanged (found : Except String β) : Shallow (exchanged found) := by
  cases found <;> simp [exchanged, Shallow]

section
variable [Amount α]

theorem shallow_quotient (tag : Tag) (a b : α) : Shallow (quotient tag a b) := by
  unfold quotient
  split <;> simp [Shallow]

omit [Amount α] in
theorem shallow_mismatch (op : BinaryOp) (left right : Kind) :
    Shallow (mismatch op left right : Answer (Value α)) := by
  simp [mismatch, Shallow]

theorem shallow_numbers (op : BinaryOp) (a b : α) : Shallow (numbers op a b) := by
  cases op with
  | divide => exact shallow_quotient _ _ _
  | remainder =>
    unfold numbers
    dsimp only
    split <;> simp [Shallow]
  | _ => exact shallow_ok _

theorem shallow_percentages (op : BinaryOp) (a b : α) : Shallow (percentages op a b) := by
  cases op <;> first | exact shallow_ok _ | exact shallow_mismatch _ _ _

theorem shallow_percentageLeft (op : BinaryOp) (p : α) (tag : Tag) (whole : α) :
    Shallow (percentageLeft op p tag whole) := by
  unfold percentageLeft
  split
  · exact shallow_ok _
  · exact shallow_ok _
  · exact shallow_quotient _ _ _
  · exact shallow_mismatch _ _ _

theorem shallow_percentageRight (op : BinaryOp) (tag : Tag) (base p : α) :
    Shallow (percentageRight op tag base p) := by
  cases op with
  | divide =>
    unfold percentageRight
    dsimp only
    split <;> simp [Shallow]
  | remainder => exact shallow_mismatch _ _ _
  | _ => exact shallow_ok _

theorem shallow_numberUnit (op : BinaryOp) (a b : α) (name : String) :
    Shallow (numberUnit op a b name) := by
  cases op with
  | multiply => exact shallow_ok _
  | divide => exact shallow_quotient _ _ _
  | _ => simp [numberUnit, mismatch, Shallow]

theorem shallow_unitNumber (op : BinaryOp) (a : α) (name : String) (b : α) :
    Shallow (unitNumber op a name b) := by
  cases op with
  | multiply => exact shallow_ok _
  | divide => exact shallow_quotient _ _ _
  | _ => simp [unitNumber, mismatch, Shallow]

theorem shallow_currencyNumber (op : BinaryOp) (a : α) (code : String) (b : α) :
    Shallow (currencyNumber op a code b) := by
  cases op with
  | multiply => exact shallow_ok _
  | divide => exact shallow_quotient _ _ _
  | _ => exact shallow_mismatch _ _ _

theorem shallow_numberCurrency (op : BinaryOp) (a b : α) (code : String) :
    Shallow (numberCurrency op a b code) := by
  cases op with
  | multiply => exact shallow_ok _
  | _ => exact shallow_mismatch _ _ _

namespace Tables
variable (t : Tables α)

theorem shallow_unitQuotient (a : α) (u : String) (b : α) (v : String) :
    Shallow (t.unitQuotient a u b v) := by
  unfold unitQuotient
  split
  · exact shallow_quotient _ _ _
  · rename_i fault _
    split
    · simp [Shallow]
    · split
      · exact shallow_ok _
      · exact shallow_measured (.error fault)

theorem shallow_unitProduct (a : α) (u : String) (b : α) (v : String) :
    Shallow (t.unitProduct a u b v) := by
  have rate (rate : α) (r : String) (quantity : α) (q : String) :
      ∀ answer, t.rateTimes? rate r quantity q = some answer → Shallow answer := by
    intro answer found
    unfold rateTimes? at found
    split at found
    · contradiction
    · split at found
      · contradiction
      · obtain rfl := Option.some.inj found
        refine shallow_map ?_ _
        split
        · exact shallow_ok _
        · exact shallow_measured _
  unfold unitProduct
  cases first : t.rateTimes? a u b v with
  | some answer => exact rate a u b v answer first
  | none =>
    cases second : t.rateTimes? b v a u with
    | some answer => exact rate b v a u answer second
    | none => simp [Shallow]

theorem shallow_unitUnit (op : BinaryOp) (a : α) (u : String) (b : α) (v : String) :
    Shallow (t.unitUnit op a u b v) := by
  cases op with
  | add => exact shallow_bind (shallow_measured _) fun _ => shallow_ok _
  | subtract => exact shallow_bind (shallow_measured _) fun _ => shallow_ok _
  | multiply => exact t.shallow_unitProduct a u b v
  | divide => exact t.shallow_unitQuotient a u b v
  | remainder => simp [unitUnit, Shallow]

theorem shallow_currencyCurrency (op : BinaryOp) (a : α) (c : String) (b : α) (d : String) :
    Shallow (t.currencyCurrency op a c b d) := by
  apply shallow_bind (shallow_exchanged _)
  intro b
  cases op with
  | divide => exact shallow_quotient _ _ _
  | multiply => exact shallow_mismatch _ _ _
  | remainder => exact shallow_mismatch _ _ _
  | _ => exact shallow_ok _

theorem shallow_scalars (op : BinaryOp) (left : Tag) (a : α) (right : Tag) (b : α) :
    Shallow (t.scalars op left a right b) := by
  unfold scalars
  split
  · exact shallow_numbers _ _ _
  · exact shallow_percentages _ _ _
  · exact shallow_percentageLeft _ _ _ _
  · exact shallow_percentageRight _ _ _ _
  · exact shallow_numberUnit _ _ _ _
  · exact shallow_unitNumber _ _ _ _
  · exact t.shallow_unitUnit _ _ _ _ _
  · exact t.shallow_currencyCurrency _ _ _ _ _
  · exact shallow_currencyNumber _ _ _ _
  · exact shallow_numberCurrency _ _ _ _
  · exact shallow_mismatch _ _ _

theorem shallow_seconds (amount : α) (name : String) : Shallow (t.seconds amount name) := by
  unfold seconds
  split <;> simp [Shallow]

omit t in
theorem shallow_moved (moment : Moment) (seconds : α) :
    Shallow (moved moment seconds : Answer (Value α)) := by
  unfold moved
  split <;> simp [Shallow]

theorem shallow_binary (op : BinaryOp) (left right : Value α) :
    Shallow (t.binary op left right) := by
  unfold binary
  split
  · exact t.shallow_scalars _ _ _ _ _
  · exact shallow_bind (t.shallow_seconds _ _) fun _ => shallow_moved _ _
  · exact shallow_bind (t.shallow_seconds _ _) fun _ => shallow_moved _ _
  · exact shallow_bind (t.shallow_seconds _ _) fun _ => shallow_moved _ _
  · exact shallow_ok _
  · exact shallow_mismatch _ _ _

theorem shallow_convert (value : Value α) (target : String) : Shallow (t.convert value target) := by
  unfold convert
  split
  · apply shallow_bind (shallow_measured _)
    intro _
    exact shallow_bind (shallow_measured _) fun _ => shallow_ok _
  · split
    · simp [Shallow]
    · exact shallow_bind (shallow_exchanged _) fun _ => shallow_ok _
  · simp [Shallow]

end Tables

theorem shallow_unary (op : UnaryOp) (value : Value α) : Shallow (value.unary op) := by
  unfold Value.unary
  split <;> simp [Shallow]

omit [Amount α] in
theorem shallow_onAmount (f : Function) (value : Value α) {change : α → Answer α}
    (each : ∀ a, Shallow (change a)) : Shallow (onAmount f value change) := by
  cases value with
  | scalar tag a => exact shallow_bind (each a) fun _ => shallow_ok _
  | _ => simp [onAmount, Shallow]

theorem shallow_squareRoot (a : α) : Shallow (squareRoot a) := by
  unfold squareRoot
  split <;> simp [Shallow]

theorem shallow_roundedPlaces (asked : Option (Value α)) : Shallow (roundedPlaces asked) := by
  unfold roundedPlaces
  split
  · simp [Shallow]
  · dsimp only
    split <;> simp [Shallow]

namespace Surroundings
variable (s : Surroundings α)

theorem shallow_sum (values : List (Value α)) : Shallow (s.sum values) := by
  cases values with
  | nil => simp [sum, Shallow]
  | cons first rest => exact shallow_foldlM (s.tables.shallow_binary .add) rest first

theorem shallow_better (f : Function) (largest : Bool) (best value : Value α) :
    Shallow (s.better f largest best value) := by
  unfold better
  dsimp only
  by_cases unlike : value.kind ≠ best.kind
  · rw [if_pos unlike]
    exact shallow_error (by simp)
  · rw [if_neg unlike]
    apply shallow_bind (s.tables.shallow_binary .subtract value best)
    intro difference
    cases difference.amount? with
    | none => exact shallow_error (by simp)
    | some a =>
      dsimp only
      generalize (if largest then Amount.isPositive a else Amount.isNegative a) = exceeds
      cases exceeds <;> exact shallow_ok _

theorem shallow_extreme (f : Function) (largest : Bool) (values : List (Value α)) :
    Shallow (s.extreme f largest values) := by
  cases values with
  | nil => simp [extreme, Shallow]
  | cons first rest => exact shallow_foldlM (s.shallow_better f largest) rest first

theorem shallow_apply (f : Function) (values : List (Value α)) : Shallow (s.apply f values) := by
  unfold apply
  split
  · exact s.shallow_sum _
  · exact shallow_bind (s.shallow_sum _) fun _ => s.tables.shallow_binary _ _ _
  · exact s.shallow_extreme _ _ _
  · exact s.shallow_extreme _ _ _
  · simp [Shallow]
  · exact shallow_onAmount _ _ shallow_squareRoot
  · exact shallow_onAmount _ _ fun _ => shallow_ok _
  · exact shallow_onAmount _ _ fun _ => shallow_ok _
  · exact shallow_onAmount _ _ fun _ => shallow_ok _
  · exact shallow_bind (shallow_roundedPlaces _) fun _ =>
      shallow_onAmount _ _ fun _ => shallow_ok _
  · exact shallow_ok _

omit [Amount α] in
theorem shallow_lineNamed (reference : Reference) : Shallow (s.lineNamed reference) := by
  cases reference <;> simp only [lineNamed] <;> split <;> simp [Shallow]

theorem shallow_currencyLiteral (amount : α) (word : String) :
    Shallow (s.currencyLiteral amount word) := by
  unfold currencyLiteral
  split <;> simp [Shallow]

omit [Amount α] in
theorem shallow_date (spec : DateSpec) : Shallow (s.date spec) := by
  unfold date
  split <;> simp [Shallow]

end Surroundings

end

theorem shallow_named (name : String) : Shallow (Function.named name) := by
  unfold Function.named
  split <;> simp [Shallow]

theorem shallow_checkCount (f : Function) (given : Nat) : Shallow (f.checkCount given) := by
  unfold Function.checkCount
  split <;> simp [Shallow]

namespace Evaluation

def NeverDeep (m : Evaluation α β) : Prop := ∀ p, Shallow (runFrom m p).1

theorem neverDeep_ofAnswer {answer : Answer β} (shallow : Shallow answer) :
    NeverDeep (α := α) (ofAnswer answer) := by
  intro p
  rw [runFrom_ofAnswer]
  exact shallow

theorem neverDeep_pure (b : β) : NeverDeep (pure b : Evaluation α β) :=
  neverDeep_ofAnswer (shallow_ok b)

theorem neverDeep_bind {m : Evaluation α β} {f : β → Evaluation α γ} (first : NeverDeep m)
    (rest : ∀ b, NeverDeep (f b)) : NeverDeep (m >>= f) := by
  intro p
  have here := first p
  rw [runFrom_bind]
  cases run : runFrom m p with
  | mk answer q =>
    rw [run] at here
    cases answer with
    | ok b => exact rest b q
    | error e => exact fun same => here (congrArg Except.error (Except.error.inj same))

theorem neverDeep_mapM {δ : Type} {f : δ → Evaluation α β} (items : List δ)
    (each : ∀ item ∈ items, NeverDeep (f item)) : NeverDeep (items.mapM f) := by
  induction items with
  | nil => exact neverDeep_pure []
  | cons item rest ih =>
    obtain ⟨here, others⟩ := List.forall_mem_cons.1 each
    rw [List.mapM_cons]
    apply neverDeep_bind here
    intro _
    exact neverDeep_bind (ih others) fun _ => neverDeep_pure _

theorem neverDeep_foldlM {δ : Type} {f : β → δ → Evaluation α β} (items : List δ) (b : β)
    (each : ∀ b, ∀ item ∈ items, NeverDeep (f b item)) : NeverDeep (items.foldlM f b) := by
  induction items generalizing b with
  | nil => exact neverDeep_pure b
  | cons item rest ih =>
    rw [List.foldlM_cons]
    apply neverDeep_bind (each b item List.mem_cons_self)
    intro b
    exact ih b fun b item member => each b item (List.mem_cons_of_mem _ member)

theorem neverDeep_readVariable (name : String) : NeverDeep (α := α) (readVariable name) := by
  intro p
  rw [runFrom_readVariable]
  split <;> simp [Shallow]

end Evaluation

/-! Evaluations that succeed. -/

namespace Evaluation

/-- The computation succeeds only if the condition is met. -/
def Demands (P : Prop) (m : Evaluation α β) : Prop := ∀ p b, (runFrom m p).1 = .ok b → P

variable {P : Prop}

theorem demands_of_holds {m : Evaluation α β} (holds : P) : Demands P m := fun _ _ _ => holds

theorem demands_fail (e : EvalError) : Demands P (fail e : Evaluation α β) := by
  intro p b succeeded
  contradiction

theorem demands_first {m : Evaluation α β} {f : β → Evaluation α γ} (first : Demands P m) :
    Demands P (m >>= f) := by
  intro p c succeeded
  have here := first p
  rw [runFrom_bind] at succeeded
  cases run : runFrom m p with
  | mk answer q =>
    rw [run] at succeeded here
    cases answer with
    | ok b => exact here b rfl
    | error e => contradiction

theorem demands_rest {m : Evaluation α β} {f : β → Evaluation α γ}
    (rest : ∀ b, Demands P (f b)) : Demands P (m >>= f) := by
  intro p c succeeded
  rw [runFrom_bind] at succeeded
  cases run : runFrom m p with
  | mk answer q =>
    rw [run] at succeeded
    cases answer with
    | ok b => exact rest b q c succeeded
    | error e => contradiction

theorem demands_and {Q : Prop} {m : Evaluation α β} (first : Demands P m) (second : Demands Q m) :
    Demands (P ∧ Q) m :=
  fun p b succeeded => ⟨first p b succeeded, second p b succeeded⟩

theorem demands_imp {Q : Prop} {m : Evaluation α β} (demands : Demands P m) (weaker : P → Q) :
    Demands Q m := fun p b succeeded => weaker (demands p b succeeded)

theorem demands_mapM {δ : Type} {P : δ → Prop} {f : δ → Evaluation α β}
    (each : ∀ item, Demands (P item) (f item)) (items : List δ) :
    Demands (∀ item ∈ items, P item) (items.mapM f) := by
  induction items with
  | nil => exact demands_of_holds (by simp)
  | cons item rest ih =>
    rw [List.mapM_cons]
    refine demands_imp ?_ List.forall_mem_cons.2
    exact demands_and (demands_first (each item)) (demands_rest fun _ => demands_first ih)

theorem demands_foldlM {δ : Type} {P : δ → Prop} {f : β → δ → Evaluation α β}
    (each : ∀ b item, Demands (P item) (f b item)) (items : List δ) (b : β) :
    Demands (∀ item ∈ items, P item) (items.foldlM f b) := by
  induction items generalizing b with
  | nil => exact demands_of_holds (by simp)
  | cons item rest ih =>
    rw [List.foldlM_cons]
    refine demands_imp ?_ List.forall_mem_cons.2
    exact demands_and (demands_first (each b item)) (demands_rest ih)

end Evaluation

theorem Function.most_of_print : ∀ f ∈ Function.all, f.builtin = .print → f.most = some 1 := by
  decide

/-- `print` takes one argument, so none goes without evaluation. -/
theorem Function.length_of_print {name : String} {f : Function} {given : Nat}
    (named : Function.named name = .ok f) (prints : f.builtin = .print)
    (counted : f.checkCount (given + 1) = .ok ()) : given = 0 := by
  have listed : f ∈ Function.all := by
    unfold Function.named at named
    split at named
    · rename_i found
      obtain rfl := Except.ok.inj named
      unfold Function.find? at found
      exact List.mem_of_find?_eq_some found
    · contradiction
  have most := Function.most_of_print f listed prints
  unfold Function.checkCount Function.countFault? at counted
  rw [most] at counted
  split at counted
  · contradiction
  · rename_i faultless
    split at faultless
    · contradiction
    · dsimp only at faultless
      split at faultless
      · contradiction
      · omega

namespace Surroundings
open Evaluation
variable (s : Surroundings α)

theorem neverDeep_previous (reference : Reference) : NeverDeep (s.previous reference) := by
  intro p
  rw [runFrom_previous]
  have named := s.shallow_lineNamed reference
  generalize s.lineNamed reference = answer at named ⊢
  cases answer with
  | error e => exact shallow_error fun same => named (congrArg Except.error same)
  | ok line =>
    dsimp only
    split <;> simp [Shallow]

variable [Amount α]

theorem neverDeep_unitLiteral (amount : α) (name : String) :
    NeverDeep (s.unitLiteral amount name) := by
  intro p
  rw [runFrom_unitLiteral]
  split
  · exact shallow_map (shallow_measured _) _
  · split
    · exact shallow_ok _
    · simp [Shallow]
    · exact s.tables.shallow_binary _ _ _

theorem neverDeep_fill (pieces : List Template.Piece) : NeverDeep (s.fill pieces) := by
  induction pieces with
  | nil => exact neverDeep_pure []
  | cons piece rest ih =>
    cases piece with
    | literal c => exact neverDeep_bind ih fun _ => neverDeep_pure _
    | placeholder name =>
      apply neverDeep_bind (neverDeep_readVariable name)
      intro _
      exact neverDeep_bind ih fun _ => neverDeep_pure _

theorem neverDeep_print (value : Value α) : NeverDeep (s.print value) := by
  cases value with
  | text template => exact neverDeep_bind (s.neverDeep_fill _) fun _ => neverDeep_pure _
  | scalar tag a => exact neverDeep_pure _
  | date moment => exact neverDeep_pure _

variable {s} {inner : Inner α}

theorem neverDeep_call (name : String) (arguments : List (Expr α))
    (each : ∀ argument ∈ arguments, NeverDeep (inner argument)) :
    NeverDeep (s.call inner name arguments) := by
  apply neverDeep_bind (neverDeep_ofAnswer (shallow_named name))
  intro f
  apply neverDeep_bind (neverDeep_ofAnswer (shallow_checkCount f _))
  intro _
  split
  · exact neverDeep_bind (each _ List.mem_cons_self) s.neverDeep_print
  · exact neverDeep_bind (neverDeep_mapM _ each) fun _ => neverDeep_ofAnswer (s.shallow_apply _ _)

theorem neverDeep_chain (first : Expr α) (steps : List (BinaryOp × Expr α))
    (here : NeverDeep (inner first)) (each : ∀ step ∈ steps, NeverDeep (inner step.2)) :
    NeverDeep (s.chain inner first steps) := by
  apply neverDeep_bind here
  intro value
  refine neverDeep_foldlM steps value fun left step member => ?_
  apply neverDeep_bind (each step member)
  intro right
  exact neverDeep_ofAnswer (s.tables.shallow_binary _ _ _)

theorem neverDeep_node {levels : Nat} (deeper : ∀ {e}, e.depth ≤ levels → NeverDeep (inner e))
    {e : Expr α} (fits : e.depth ≤ levels + 1) : NeverDeep (s.node inner e) := by
  cases e with
  | number a => exact neverDeep_pure _
  | unit a name => exact s.neverDeep_unitLiteral a name
  | currency a word => exact neverDeep_ofAnswer (s.shallow_currencyLiteral a word)
  | date spec => exact neverDeep_ofAnswer (s.shallow_date spec)
  | time clock => exact neverDeep_pure _
  | text content => exact neverDeep_pure _
  | «variable» name => exact neverDeep_readVariable name
  | assign name value =>
    rw [Expr.depth] at fits
    apply neverDeep_bind (deeper (Nat.le_of_succ_le_succ fits))
    intro v
    exact neverDeep_bind (fun _ => shallow_ok ()) fun _ => neverDeep_pure v
  | binary op left right =>
    obtain ⟨first, others⟩ := (Expr.depth_chain op left right levels).1 fits
    exact neverDeep_chain _ _ (deeper first) fun step member => deeper (others step member)
  | unary op operand =>
    rw [Expr.depth] at fits
    exact neverDeep_bind (deeper (Nat.le_of_succ_le_succ fits)) fun v =>
      neverDeep_ofAnswer (shallow_unary op v)
  | call name arguments =>
    rw [Expr.depth] at fits
    have each := Expr.argumentDepth_le.1 (Nat.le_of_succ_le_succ fits)
    exact neverDeep_call name arguments fun argument member => deeper (each argument member)
  | convert value target =>
    rw [Expr.depth] at fits
    exact neverDeep_bind (deeper (Nat.le_of_succ_le_succ fits)) fun v =>
      neverDeep_ofAnswer (s.tables.shallow_convert v target)
  | previous reference => exact s.neverDeep_previous reference
  | command name arguments => exact neverDeep_ofAnswer (shallow_error (by simp))
  | blank => exact neverDeep_ofAnswer (shallow_error (by simp))

theorem neverDeep_withLevels {levels : Nat} {e : Expr α} (fits : e.depth ≤ levels) :
    NeverDeep (s.withLevels levels e) := by
  induction levels generalizing e with
  | zero => exact absurd e.depth_positive (by omega)
  | succ levels ih => exact neverDeep_node ih fits

theorem demands_call {levels : Nat} (each : ∀ e, Demands (e.depth ≤ levels) (inner e))
    (name : String) (arguments : List (Expr α)) :
    Demands (∀ argument ∈ arguments, argument.depth ≤ levels) (s.call inner name arguments) := by
  unfold call
  cases named : Function.named name with
  | error e => exact demands_fail e
  | ok f =>
    simp only [ofAnswer, pure_bind]
    cases counted : f.checkCount arguments.length with
    | error e => exact demands_first (demands_fail e)
    | ok _ =>
      simp only [pure_bind]
      split
      · rename_i template rest prints
        have single := Function.length_of_print named prints counted
        obtain rfl : rest = [] := List.eq_nil_of_length_eq_zero (by simpa using single)
        refine demands_first (demands_imp (each template) fun fits => ?_)
        simpa using fits
      · exact demands_first (demands_mapM each _)

theorem demands_node {levels : Nat} (each : ∀ e, Demands (e.depth ≤ levels) (inner e))
    (e : Expr α) : Demands (e.depth ≤ levels + 1) (s.node inner e) := by
  cases e with
  | assign name value =>
    rw [Expr.depth]
    exact demands_first (demands_imp (each value) Nat.succ_le_succ)
  | binary op left right =>
    refine demands_imp ?_ (Expr.depth_chain op left right levels).2
    apply demands_and (demands_first (each _))
    refine demands_rest fun value => demands_foldlM (fun left step => ?_) _ value
    exact demands_first (each step.2)
  | unary op operand =>
    rw [Expr.depth]
    exact demands_first (demands_imp (each operand) Nat.succ_le_succ)
  | call name arguments =>
    rw [Expr.depth]
    refine demands_imp (demands_call each name arguments) fun all => ?_
    exact Nat.succ_le_succ (Expr.argumentDepth_le.2 all)
  | convert value target =>
    rw [Expr.depth]
    exact demands_first (demands_imp (each value) Nat.succ_le_succ)
  | _ =>
    refine demands_of_holds ?_
    simp only [Expr.depth]
    omega

theorem demands_withLevels (s : Surroundings α) (levels : Nat) (e : Expr α) :
    Demands (e.depth ≤ levels) (s.withLevels levels e) := by
  induction levels generalizing e with
  | zero => exact demands_fail _
  | succ levels ih => exact demands_node ih e

/-- An evaluation gives up for depth only if the expression takes more levels than there are, and
    with more than there are it does not succeed. -/
theorem run_depth (s : Surroundings α) (bindings : Bindings (Value α)) (e : Expr α) :
    ((s.run bindings e).1 = .error (.invalidOperation .tooDeep) → nestingLimit < e.depth) ∧
      ∀ value, (s.run bindings e).1 = .ok value → e.depth ≤ nestingLimit := by
  constructor
  · intro deep
    refine Nat.lt_of_not_le fun fits => ?_
    exact neverDeep_withLevels fits (.start bindings) deep
  · exact fun value succeeded =>
      demands_withLevels s nestingLimit e (.start bindings) value succeeded

end Surroundings

end NotepadCalculator

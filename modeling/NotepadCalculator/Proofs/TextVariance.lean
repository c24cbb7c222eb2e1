import Mathlib.Data.List.Forall2
import Mathlib.Data.Option.Basic
import NotepadCalculator.Proofs.EvaluationSteps

/-!
Evaluations that differ in texts only. Arithmetic asks of a text no more than that it is one, and
`print` looks for placeholders in it. So where two sheets hold the same values except for texts that
a relation holds between, an expression comes to the same in both, except for a text that the
relation holds between; both fail with the same error otherwise, and they read and bind the same.
-/
namespace NotepadCalculator
open Calendar Measurement Money Number

variable {α β γ : Type} {R : String → String → Prop}

inductive Value.Like (R : String → String → Prop) : Value α → Value α → Prop where
  | scalar (tag : Tag) (a : α) : Like R (.scalar tag a) (.scalar tag a)
  | date (moment : Moment) : Like R (.date moment) (.date moment)
  | text {c d : String} (related : R c d) : Like R (.text c) (.text d)

theorem Value.like_refl (refl : ∀ c, R c c) (value : Value α) : Like R value value := by
  cases value with
  | scalar tag a => exact .scalar tag a
  | date moment => exact .date moment
  | text c => exact .text (refl c)

theorem Value.kind_of_like {v w : Value α} (like : Like R v w) : v.kind = w.kind := by
  cases like <;> rfl

theorem Value.amount?_of_like {v w : Value α} (like : Like R v w) : v.amount? = w.amount? := by
  cases like <;> rfl

/-- Both answers are errors, the same ones, or neither is. -/
inductive Agree (Q : β → γ → Prop) : Answer β → Answer γ → Prop where
  | ok {b : β} {c : γ} (related : Q b c) : Agree Q (.ok b) (.ok c)
  | error (e : EvalError) : Agree Q (.error e) (.error e)

theorem agree_refl {Q : β → β → Prop} (refl : ∀ b, Q b b) (answer : Answer β) :
    Agree Q answer answer := by
  cases answer with
  | ok b => exact .ok (refl b)
  | error e => exact .error e

theorem agree_bind {β' γ' : Type} {P : β → β' → Prop} {Q : γ → γ' → Prop} {x : Answer β}
    {y : Answer β'} {f : β → Answer γ} {g : β' → Answer γ'} (first : Agree P x y)
    (rest : ∀ b c, P b c → Agree Q (f b) (g c)) : Agree Q (x >>= f) (y >>= g) := by
  cases first with
  | ok related => exact rest _ _ related
  | error e => exact .error e

theorem agree_foldlM {δ δ' : Type} {P : δ → δ' → Prop} {Q : β → γ → Prop}
    {f : β → δ → Answer β} {g : γ → δ' → Answer γ}
    (each : ∀ b c x y, Q b c → P x y → Agree Q (f b x) (g c y)) {xs : List δ} {ys : List δ'}
    (items : List.Forall₂ P xs ys) {b : β} {c : γ} (start : Q b c) :
    Agree Q (xs.foldlM f b) (ys.foldlM g c) := by
  induction items generalizing b c with
  | nil => exact .ok start
  | cons item _ ih =>
    rw [List.foldlM_cons, List.foldlM_cons]
    exact agree_bind (each _ _ _ _ start item) fun _ _ related => ih related

section
variable [Amount α]

/-! Operations. -/

namespace Tables
variable (t : Tables α)

theorem binary_text_left (op : BinaryOp) (c : String) (w : Value α) :
    t.binary op (.text c) w = mismatch op .text w.kind := by
  cases w <;> cases op <;> rfl

theorem binary_text_right (op : BinaryOp) (v : Value α) (c : String) :
    t.binary op v (.text c) = mismatch op v.kind .text := by
  cases v <;> cases op <;> rfl

variable (refl : ∀ c, R c c)
include refl

theorem agree_binary (op : BinaryOp) {v v' w w' : Value α} (left : Value.Like R v v')
    (right : Value.Like R w w') : Agree (Value.Like R) (t.binary op v w) (t.binary op v' w') := by
  cases left with
  | text related =>
    rw [binary_text_left, binary_text_left, Value.kind_of_like right]
    exact .error _
  | _ =>
    cases right with
    | text related =>
      rw [binary_text_right, binary_text_right]
      exact .error _
    | _ => exact agree_refl (Value.like_refl refl) _

theorem agree_convert {v w : Value α} (like : Value.Like R v w) (target : String) :
    Agree (Value.Like R) (t.convert v target) (t.convert w target) := by
  cases like with
  | text related => exact .error _
  | _ => exact agree_refl (Value.like_refl refl) _

end Tables

theorem Value.agree_unary (refl : ∀ c, R c c) (op : UnaryOp) {v w : Value α} (like : Like R v w) :
    Agree (Like R) (v.unary op) (w.unary op) := by
  cases like with
  | text related => cases op <;> exact .error _
  | _ => exact agree_refl (like_refl refl) _

/-! Texts. -/

/-- Amounts shown with `p` places and with `q` are related texts. -/
structure Shows (R : String → String → Prop) (p q : Nat) (α : Type) [Amount α] : Prop where
  refl : ∀ c, R c c
  append : ∀ {c c' d d'}, R c c' → R d d' → R (c ++ d) (c' ++ d')
  amount : ∀ a : α, R (shownAmount p a) (shownAmount q a)

theorem show_of_like {p q : Nat} (shows : Shows R p q α) {v w : Value α}
    (like : Value.Like R v w) : R (v.show p) (w.show q) := by
  cases like with
  | text related => exact related
  | date moment => exact shows.refl _
  | scalar tag a =>
    cases tag with
    | number => exact shows.amount a
    | percent => exact shows.append (shows.amount a) (shows.refl _)
    | unit name =>
      exact shows.append (shows.append (shows.amount a) (shows.refl _)) (shows.refl _)
    | currency code =>
      simp only [Value.show, Tag.show]
      split
      · split
        · exact shows.append (shows.refl _) (shows.amount _)
        · exact shows.append (shows.refl _) (shows.amount a)
      · exact shows.append (shows.append (shows.amount a) (shows.refl _)) (shows.refl _)

/-! Functions. -/

section
variable (refl : ∀ c, R c c)
include refl

omit [Amount α] in
theorem agree_onAmount (f : Function) {v w : Value α} (like : Value.Like R v w)
    (change : α → Answer α) :
    Agree (Value.Like R) (onAmount f v change) (onAmount f w change) := by
  cases like with
  | text related => exact .error _
  | _ => exact agree_refl (Value.like_refl refl) _

omit refl in
theorem roundedPlaces_of_like {v w : Value α} (like : Value.Like R v w) :
    roundedPlaces (some v) = roundedPlaces (some w) := by
  cases like <;> rfl

namespace Surroundings
variable (s : Surroundings α) {values others : List (Value α)}
variable (like : List.Forall₂ (Value.Like R) values others)

include like in
theorem agree_sum : Agree (Value.Like R) (s.sum values) (s.sum others) := by
  cases like with
  | nil => exact .error _
  | cons first rest =>
    refine agree_foldlM ?_ rest first
    exact fun _ _ _ _ left right => s.tables.agree_binary refl .add left right

include like in
theorem agree_average : Agree (Value.Like R) (s.average values) (s.average others) := by
  unfold average
  rw [like.length_eq]
  exact agree_bind (s.agree_sum refl like) fun _ _ total =>
    s.tables.agree_binary refl .divide total (.scalar _ _)

theorem agree_better (f : Function) (largest : Bool) {best best' value value' : Value α}
    (first : Value.Like R best best') (second : Value.Like R value value') :
    Agree (Value.Like R) (s.better f largest best value) (s.better f largest best' value') := by
  unfold better
  dsimp only
  rw [Value.kind_of_like first, Value.kind_of_like second]
  by_cases unlike : value'.kind ≠ best'.kind
  · rw [if_pos unlike, if_pos unlike]
    exact .error _
  · rw [if_neg unlike, if_neg unlike]
    apply agree_bind (s.tables.agree_binary refl .subtract second first)
    intro difference difference' alike
    rw [Value.amount?_of_like alike]
    cases difference'.amount? with
    | none => exact .error _
    | some a =>
      dsimp only
      generalize (if largest then Amount.isPositive a else Amount.isNegative a) = exceeds
      cases exceeds with
      | false => exact .ok first
      | true => exact .ok second

include like in
theorem agree_extreme (f : Function) (largest : Bool) :
    Agree (Value.Like R) (s.extreme f largest values) (s.extreme f largest others) := by
  cases like with
  | nil => exact .error _
  | cons first rest =>
    refine agree_foldlM ?_ rest first
    exact fun _ _ _ _ best value => s.agree_better refl f largest best value

abbrev shownElse (s : Surroundings α) (results : List (Option (Value α))) (places : Nat) :
    Surroundings α :=
  { s with results := results, places := places }

variable {s} {results : List (Option (Value α))} {places : Nat}

include like in
theorem agree_apply (shows : Shows R s.places places α) (f : Function) :
    Agree (Value.Like R) (s.apply f values) ((s.shownElse results places).apply f others) := by
  unfold apply
  cases f.builtin with
  | sum => exact s.agree_sum refl like
  | average => exact s.agree_average refl like
  | min => exact s.agree_extreme refl like f false
  | max => exact s.agree_extreme refl like f true
  | print =>
    cases like with
    | nil => exact .error _
    | cons first rest => exact .ok (.text (show_of_like shows first))
  | round =>
    cases like with
    | nil => exact .error _
    | @cons _ _ rest rest' first second =>
      have places : roundedPlaces rest.head? = roundedPlaces rest'.head? := by
        cases second with
        | nil => rfl
        | cons asked _ => exact roundedPlaces_of_like asked
      dsimp only
      rw [places]
      refine agree_bind (agree_refl (Q := Eq) (fun _ => rfl) _) ?_
      rintro n _ rfl
      exact agree_onAmount refl f first _
  | sqrt | abs | floor | ceil =>
    cases like with
    | nil => exact .error _
    | cons first rest => exact agree_onAmount refl f first _

end Surroundings

end

end

/-! Computations. -/

structure Progress.Like (R : String → String → Prop) (p q : Progress α) : Prop where
  bindings : ∀ name, Option.Rel (Value.Like R) (p.bindings.get? name) (q.bindings.get? name)
  readVariables : p.variablesRead = q.variablesRead
  readLines : p.linesRead = q.linesRead

theorem Progress.Like.withVariable {p q : Progress α} (like : Like R p q) (name : String) :
    Like R (p.withVariable name) (q.withVariable name) :=
  ⟨like.bindings, congrArg (· ++ [name]) like.readVariables, like.readLines⟩

namespace Evaluation

/-- From progress that is alike, both computations come to progress that is alike, and to results
    that `Q` holds between, or to the same error. -/
def Alongside (R : String → String → Prop) (Q : β → γ → Prop) (m : Evaluation α β)
    (n : Evaluation α γ) : Prop :=
  ∀ p q, Progress.Like R p q →
    Agree Q (runFrom m p).1 (runFrom n q).1 ∧ Progress.Like R (runFrom m p).2 (runFrom n q).2

variable {β' γ' : Type} {P : β → β' → Prop} {Q : γ → γ' → Prop}

theorem alongside_ofAnswer {answer : Answer γ} {answer' : Answer γ'}
    (agree : Agree Q answer answer') :
    Alongside (α := α) R Q (ofAnswer answer) (ofAnswer answer') := by
  intro p q like
  rw [runFrom_ofAnswer, runFrom_ofAnswer]
  exact ⟨agree, like⟩

theorem alongside_pure {c : γ} {c' : γ'} (related : Q c c') :
    Alongside (α := α) R Q (pure c) (pure c') := alongside_ofAnswer (.ok related)

theorem alongside_fail (e : EvalError) : Alongside (α := α) R Q (fail e) (fail e) :=
  alongside_ofAnswer (.error e)

theorem alongside_bind {m : Evaluation α β} {n : Evaluation α β'} {f : β → Evaluation α γ}
    {g : β' → Evaluation α γ'} (first : Alongside R P m n)
    (rest : ∀ b b', P b b' → Alongside R Q (f b) (g b')) :
    Alongside R Q (m >>= f) (n >>= g) := by
  intro p q like
  obtain ⟨agree, later⟩ := first p q like
  rw [runFrom_bind, runFrom_bind]
  cases run : runFrom m p with
  | mk answer p' =>
    cases run' : runFrom n q with
    | mk answer' q' =>
      rw [run, run'] at agree later
      cases agree with
      | ok related => exact rest _ _ related p' q' later
      | error e => exact ⟨.error e, later⟩

theorem alongside_mapM {δ : Type} {f : δ → Evaluation α γ} {g : δ → Evaluation α γ'}
    (items : List δ) (each : ∀ item ∈ items, Alongside R Q (f item) (g item)) :
    Alongside R (List.Forall₂ Q) (items.mapM f) (items.mapM g) := by
  induction items with
  | nil => exact alongside_pure .nil
  | cons item rest ih =>
    obtain ⟨here, others⟩ := List.forall_mem_cons.1 each
    rw [List.mapM_cons, List.mapM_cons]
    apply alongside_bind here
    intro c c' related
    apply alongside_bind (ih others)
    intro cs cs' more
    exact alongside_pure (.cons related more)

theorem alongside_foldlM {δ : Type} {f : γ → δ → Evaluation α γ} {g : γ' → δ → Evaluation α γ'}
    (items : List δ)
    (each : ∀ c c', ∀ item ∈ items, Q c c' → Alongside R Q (f c item) (g c' item))
    {c : γ} {c' : γ'} (start : Q c c') : Alongside R Q (items.foldlM f c) (items.foldlM g c') := by
  induction items generalizing c c' with
  | nil => exact alongside_pure start
  | cons item rest ih =>
    rw [List.foldlM_cons, List.foldlM_cons]
    apply alongside_bind (each c c' item List.mem_cons_self start)
    intro d d' related
    refine ih (fun c c' item member => ?_) related
    exact each c c' item (List.mem_cons_of_mem _ member)

theorem alongside_bindName (name : String) {v w : Value α} (like : Value.Like R v w) :
    Alongside R (fun _ _ => True) (Evaluation.bind name v) (Evaluation.bind name w) := by
  intro p q before
  rw [runFrom_bindName, runFrom_bindName]
  refine ⟨.ok trivial, fun other => ?_, before.readVariables, before.readLines⟩
  simp only [Progress.withBinding, Bindings.get?_set]
  split
  · exact .some like
  · exact before.bindings other

theorem alongside_valueOf? (name : String) : Alongside (α := α) R (Option.Rel (Value.Like R))
    (valueOf? name) (valueOf? name) :=
  fun _ _ like => ⟨.ok (like.bindings name), like⟩

theorem alongside_noteVariable (name : String) :
    Alongside (α := α) R (fun _ _ => True) (noteVariable name) (noteVariable name) :=
  fun _ _ like => ⟨.ok trivial, like.withVariable name⟩

theorem alongside_noteLine (line : Nat) :
    Alongside (α := α) R (fun _ _ => True) (noteLine line) (noteLine line) :=
  fun _ _ like => ⟨.ok trivial, like.bindings, like.readVariables,
    congrArg (· ++ [line]) like.readLines⟩

theorem alongside_readVariable (name : String) :
    Alongside (α := α) R (Value.Like R) (readVariable name) (readVariable name) := by
  apply alongside_bind (alongside_valueOf? name)
  intro found found' bound
  cases bound with
  | none => exact alongside_fail _
  | some like => exact alongside_bind (alongside_noteVariable name) fun _ _ _ => alongside_pure like

end Evaluation

inductive Template.Like (R : String → String → Prop) : List Piece → List Piece → Prop where
  | nil : Like R [] []
  | literals {cs ds : List Char} {rest rest' : List Piece}
      (related : R (String.ofList cs) (String.ofList ds)) (tail : Like R rest rest') :
      Like R (cs.map .literal ++ rest) (ds.map .literal ++ rest')
  | placeholder (name : String) {rest rest' : List Piece} (tail : Like R rest rest') :
      Like R (.placeholder name :: rest) (.placeholder name :: rest')

theorem Template.like_refl (refl : ∀ c, R c c) (pieces : List Piece) : Like R pieces pieces := by
  induction pieces with
  | nil => exact .nil
  | cons piece rest ih =>
    cases piece with
    | literal c =>
      show Like R ([c].map .literal ++ rest) ([c].map .literal ++ rest)
      exact .literals (refl _) ih
    | placeholder name => exact .placeholder name ih

theorem rel_getElem? {P : β → γ → Prop} {bs : List β} {cs : List γ} (items : List.Forall₂ P bs cs)
    (n : Nat) : Option.Rel P bs[n]? cs[n]? := by
  induction items generalizing n with
  | nil => exact .none
  | cons here _ ih =>
    cases n with
    | zero => exact .some here
    | succ n => simpa using ih n

/-- Related texts are templates with the same placeholders. -/
def Transparent (R : String → String → Prop) : Prop :=
  ∀ c d, R c d → Template.Like R (Template.pieces c) (Template.pieces d)

def Expr.PrintsLiteral : Expr α → Prop
  | .call name (template :: _) =>
    ∀ f, Function.named name = .ok f → f.builtin = .print → ∃ c, template = .text c
  | _ => True

namespace Surroundings
open Evaluation
variable {s : Surroundings α} {results : List (Option (Value α))} {places : Nat}

theorem alongside_previous
    (like : List.Forall₂ (Option.Rel (Value.Like R)) s.results results) (reference : Reference) :
    Alongside R (Value.Like R) (s.previous reference)
      ((s.shownElse results places).previous reference) := by
  have named : (s.shownElse results places).lineNamed reference = s.lineNamed reference := by
    cases reference with
    | latest => simp only [lineNamed, ← List.length_eq_zero_iff, like.length_eq]
    | back count => rfl
    | line number => rfl
  have found (line : Nat) : Option.Rel (Option.Rel (Value.Like R)) (s.result? line)
      ((s.shownElse results places).result? line) := by
    unfold result?
    split
    · exact .none
    · exact rel_getElem? like _
  unfold previous
  rw [named]
  apply alongside_bind (alongside_ofAnswer (agree_refl (Q := Eq) (fun _ => rfl) _))
  rintro line _ rfl
  have found := found line
  generalize s.result? line = one, (s.shownElse results places).result? line = other at found ⊢
  cases found with
  | none => exact alongside_fail _
  | some result =>
    apply alongside_bind (alongside_noteLine line)
    intro _ _ _
    cases result with
    | none => exact alongside_fail _
    | some value => exact alongside_pure value

variable [Amount α]

theorem alongside_unitLiteral (refl : ∀ c, R c c) (amount : α) (name : String) :
    Alongside R (Value.Like R) (s.unitLiteral amount name)
      ((s.shownElse results places).unitLiteral amount name) := by
  have number : Value.Like R (.number amount) (.number amount) := .scalar _ _
  intro p q like
  rw [runFrom_unitLiteral, runFrom_unitLiteral]
  dsimp only
  split
  · exact ⟨agree_refl (Value.like_refl refl) _, like⟩
  · have bound := like.bindings name
    generalize p.bindings.get? name = one, q.bindings.get? name = other at bound
    cases s.tables.rates.codeOf? name with
    | some code => exact ⟨.ok (.scalar _ _), like⟩
    | none =>
      cases bound with
      | none => exact ⟨.error _, like⟩
      | some value =>
        exact ⟨s.tables.agree_binary refl .multiply number value, like.withVariable name⟩

theorem fill_literals (s : Surroundings α) (cs : List Char) (rest : List Template.Piece) :
    s.fill (cs.map .literal ++ rest) = do return cs ++ (← s.fill rest) := by
  induction cs with
  | nil => simp
  | cons c cs ih => simp [fill, ih]

theorem alongside_fill (shows : Shows R s.places places α) {pieces pieces' : List Template.Piece}
    (like : Template.Like R pieces pieces') :
    Alongside R (fun cs ds => R (String.ofList cs) (String.ofList ds)) (s.fill pieces)
      ((s.shownElse results places).fill pieces') := by
  induction like with
  | nil => exact alongside_pure (shows.refl _)
  | literals related tail ih =>
    rw [fill_literals, fill_literals]
    apply alongside_bind ih
    intro cs ds rest
    apply alongside_pure
    rw [String.ofList_append, String.ofList_append]
    exact shows.append related rest
  | placeholder name tail ih =>
    apply alongside_bind (alongside_readVariable name)
    intro value value' like
    apply alongside_bind ih
    intro cs ds rest
    apply alongside_pure
    rw [String.ofList_append, String.ofList_append, String.ofList_toList, String.ofList_toList]
    exact shows.append (show_of_like shows like) rest

theorem alongside_print (shows : Shows R s.places places α) {value value' : Value α}
    (like : Value.Like R value value')
    (templates : ∀ c d, value = .text c → value' = .text d →
      Template.Like R (Template.pieces c) (Template.pieces d)) :
    Alongside R (Value.Like R) (s.print value) ((s.shownElse results places).print value') := by
  cases like with
  | @text c d _ =>
    apply alongside_bind (alongside_fill shows (templates c d rfl rfl))
    intro cs ds related
    exact alongside_pure (.text related)
  | scalar tag a => exact alongside_pure (.text (show_of_like shows (.scalar tag a)))
  | date moment => exact alongside_pure (.text (show_of_like shows (.date moment)))

def Printable (R : String → String → Prop) (e : Expr α) : Prop :=
  Transparent R ∨ e.Throughout Expr.PrintsLiteral

section
variable (shows : Shows R s.places places α) {inner inner' : Inner α}
variable (deeper : ∀ e, Printable R e → Alongside R (Value.Like R) (inner e) (inner' e))
variable (literal : ∀ c, Alongside R (fun v w => v = .text c ∧ w = .text c) (inner (.text c))
  (inner' (.text c)))
include shows deeper literal

theorem alongside_call (name : String) (arguments : List (Expr α))
    (printable : Printable R (.call name arguments)) :
    Alongside R (Value.Like R) (s.call inner name arguments)
      ((s.shownElse results places).call inner' name arguments) := by
  have each : ∀ argument ∈ arguments, Alongside R (Value.Like R) (inner argument)
      (inner' argument) := by
    intro argument member
    have part : argument ∈ (Expr.call name arguments).parts := member
    exact deeper argument (printable.imp_right fun all => Expr.throughout_part all part)
  have named : Agree (fun f g => g = f ∧ Function.named name = .ok f) (Function.named name)
      (Function.named name) := by
    cases Function.named name with
    | ok f => exact .ok ⟨rfl, rfl⟩
    | error e => exact .error e
  apply alongside_bind (alongside_ofAnswer named)
  rintro _ f ⟨rfl, named⟩
  apply alongside_bind (alongside_ofAnswer (agree_refl (Q := Eq) (fun _ => rfl) _))
  intro _ _ _
  split
  · rename_i template _ prints
    have written : Transparent R ∨ ∃ c, template = .text c := by
      refine printable.imp_right fun all => ?_
      have here : Expr.PrintsLiteral (.call name (template :: _)) := Expr.throughout_here all
      exact here f named prints
    rcases written with transparent | ⟨c, rfl⟩
    · apply alongside_bind (each template List.mem_cons_self)
      intro value value' like
      refine alongside_print shows like ?_
      rintro c d rfl rfl
      cases like with
      | text related => exact transparent c d related
    · apply alongside_bind (literal c)
      rintro _ _ ⟨rfl, rfl⟩
      refine alongside_print shows (.text (shows.refl c)) ?_
      rintro _ _ ⟨⟩ ⟨⟩
      exact Template.like_refl shows.refl _
  · apply alongside_bind (alongside_mapM _ each)
    intro values values' like
    exact alongside_ofAnswer (agree_apply shows.refl like shows f)

omit literal in
theorem alongside_chain (first : Expr α) (steps : List (BinaryOp × Expr α))
    (here : Printable R first) (each : ∀ step ∈ steps, Printable R step.2) :
    Alongside R (Value.Like R) (s.chain inner first steps)
      ((s.shownElse results places).chain inner' first steps) := by
  apply alongside_bind (deeper first here)
  intro value value' like
  refine alongside_foldlM steps (fun left left' step member before => ?_) like
  apply alongside_bind (deeper step.2 (each step member))
  intro right right' after
  exact alongside_ofAnswer (s.tables.agree_binary shows.refl step.1 before after)

theorem alongside_node
    (lines : List.Forall₂ (Option.Rel (Value.Like R)) s.results results) (e : Expr α)
    (printable : Printable R e) :
    Alongside R (Value.Like R) (s.node inner e) ((s.shownElse results places).node inner' e) := by
  have below : ∀ part ∈ e.parts, Alongside R (Value.Like R) (inner part) (inner' part) :=
    fun part member => deeper part
      (printable.imp_right fun all => Expr.throughout_part all member)
  have same (answer : Answer (Value α)) :
      Alongside (α := α) R (Value.Like R) (ofAnswer answer) (ofAnswer answer) :=
    alongside_ofAnswer (agree_refl (Value.like_refl shows.refl) answer)
  cases e with
  | number a => exact same (.ok _)
  | unit a name => exact alongside_unitLiteral shows.refl a name
  | currency a word => exact same _
  | date spec => exact same _
  | time clock => exact same (.ok _)
  | text content => exact same (.ok _)
  | «variable» name => exact alongside_readVariable name
  | assign name value =>
    apply alongside_bind (below value (by simp [Expr.parts]))
    intro v w like
    apply alongside_bind (alongside_bindName name like)
    intro _ _ _
    exact alongside_pure like
  | binary op left right =>
    have spine (all : (Expr.binary op left right).Throughout Expr.PrintsLiteral) :=
      Expr.spine_throughout all
    refine alongside_chain shows deeper _ _ ?_ fun step member => ?_
    · exact printable.imp_right fun all => (spine all).1
    · exact printable.imp_right fun all => (spine all).2 step member
  | unary op operand =>
    apply alongside_bind (below operand (by simp [Expr.parts]))
    intro v w like
    exact alongside_ofAnswer (Value.agree_unary shows.refl op like)
  | call name arguments => exact alongside_call shows deeper literal name arguments printable
  | convert value target =>
    apply alongside_bind (below value (by simp [Expr.parts]))
    intro v w like
    exact alongside_ofAnswer (s.tables.agree_convert shows.refl like target)
  | previous reference => exact alongside_previous lines reference
  | command name arguments => exact same (.error _)
  | blank => exact same (.error _)

end

theorem alongside_withLevels (shows : Shows R s.places places α)
    (lines : List.Forall₂ (Option.Rel (Value.Like R)) s.results results) (levels : Nat)
    (e : Expr α) (printable : Printable R e) :
    Alongside R (Value.Like R) (s.withLevels levels e)
      ((s.shownElse results places).withLevels levels e) := by
  induction levels generalizing e with
  | zero => exact alongside_fail _
  | succ levels ih =>
    refine alongside_node shows ih (fun c => ?_) lines e printable
    cases levels with
    | zero => exact alongside_fail _
    | succ levels => exact alongside_pure ⟨rfl, rfl⟩

/-- Where bindings and earlier lines are alike, so is what an expression comes to. -/
theorem run_like (shows : Shows R s.places places α)
    (lines : List.Forall₂ (Option.Rel (Value.Like R)) s.results results) {e : Expr α}
    (printable : Printable R e) {bindings others : Bindings (Value α)}
    (alike : ∀ name, Option.Rel (Value.Like R) (bindings.get? name) (others.get? name)) :
    Agree (Value.Like R) (s.run bindings e).1 ((s.shownElse results places).run others e).1 ∧
      Progress.Like R (s.run bindings e).2 ((s.shownElse results places).run others e).2 :=
  alongside_withLevels shows lines nestingLimit e printable _ _ ⟨alike, rfl, rfl⟩

end Surroundings

end NotepadCalculator

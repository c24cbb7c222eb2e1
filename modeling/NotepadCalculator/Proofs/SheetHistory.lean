import NotepadCalculator.Proofs.DependencyOrder
import NotepadCalculator.Proofs.EvaluationSteps
import NotepadCalculator.Sheet.Basic

/-!
The history of a sheet. Its lines are numbered without gaps, every line is a node of the graph, and
a line has read earlier lines only: references reach no further, and a variable was assigned by an
earlier line. So the lines, as they stand, are in an order in which each follows what it has read.
-/
namespace NotepadCalculator
open Calendar Measurement Money Number

theorem placeNode_last {n : Node} {nodes : List Node} (above : ∀ m ∈ nodes, m.id < n.id) :
    placeNode n nodes = nodes ++ [n] := by
  induction nodes with
  | nil => rfl
  | cons m rest ih =>
    obtain ⟨less, others⟩ := List.forall_mem_cons.1 above
    rw [placeNode, if_neg (by omega), if_neg (by omega), ih others]
    rfl

namespace Command

theorem flag_map_ne_clear (usage : Usage) (word : String) {command : Bool → Command}
    (other : ∀ on, command on ≠ .clear) : (flag usage word).map command ≠ .ok .clear := by
  cases read : flag usage word with
  | error error => simp [Except.map]
  | ok on => simpa [Except.map] using other on

theorem readQuiet_ne_clear (arguments : List String) : readQuiet arguments ≠ .ok .clear := by
  unfold readQuiet
  split
  · simp
  · exact flag_map_ne_clear _ _ (by simp)
  · simp [misuse]

theorem readSet_ne_clear (arguments : List String) : readSet arguments ≠ .ok .clear := by
  unfold readSet
  split
  · split
    · unfold readPrecision
      split <;> simp [misuse]
    · exact flag_map_ne_clear _ _ (by simp)
    · exact flag_map_ne_clear _ _ (by simp)
    · simp [misuse]
  · simp [misuse]

theorem readUnit_ne_clear (arguments : List String) : readUnit arguments ≠ .ok .clear := by
  unfold readUnit
  split
  · split <;> simp [misuse]
  · simp [misuse]

theorem read_eq_clear {name : String} {arguments : List String}
    (taken : read name arguments = .ok .clear) : name = "clear" := by
  unfold read at taken
  split at taken
  · rfl
  · exact absurd taken (readQuiet_ne_clear arguments)
  · exact absurd taken (readSet_ne_clear arguments)
  · exact absurd taken (readUnit_ne_clear arguments)
  · simp at taken

end Command

namespace Sheet

/-- Sheets that come about from a new one by entering lines. In between all lines may be forgotten,
    the settings replaced, and time passes. -/
inductive Reached : Sheet → Prop where
  | new (settings : Settings) (rates : Rates Float) (now : Moment) :
      Reached (.new settings rates now)
  | enter {s : Sheet} (input : String) (reached : Reached s) : Reached (s.enter input).2
  | clear {s : Sheet} (reached : Reached s) : Reached s.clear
  | settings {s : Sheet} (settings : Settings) (reached : Reached s) :
      Reached { s with settings := settings }
  | now {s : Sheet} (now : Moment) (reached : Reached s) : Reached { s with now := now }

theorem clear_eq_new (s : Sheet) : s.clear = .new s.settings s.rates s.now := rfl

def isKept : Expr Float → Bool
  | .blank => false
  | .command _ _ => false
  | _ => true

/-- Everything that entering a line can come to. -/
inductive Entry (s : Sheet) (input : String) : Outcome × Sheet → Prop where
  | unread {error : ParseError} (parsed : parseLine s.settings.fuzzy input = .error error) :
      Entry s input (.failure (.parse error), s)
  | blank (parsed : parseLine s.settings.fuzzy input = .ok .blank) : Entry s input (.silent, s)
  | refused {name : String} {arguments : List String} (error : EvalError)
      (parsed : parseLine s.settings.fuzzy input = .ok (.command name arguments)) :
      Entry s input (.failure (.eval error), s)
  | obeyed {name : String} {arguments : List String} {command : Command} {later : Sheet}
      (parsed : parseLine s.settings.fuzzy input = .ok (.command name arguments))
      (taken : Command.read name arguments = .ok command) (applied : s.apply command = .ok later) :
      Entry s input (.silent, later)
  | kept {e : Expr Float} (parsed : parseLine s.settings.fuzzy input = .ok e)
      (kept : isKept e = true) : Entry s input (s.record input e)

theorem enter_entry (s : Sheet) (input : String) : Entry s input (s.enter input) := by
  unfold enter
  split
  · rename_i parsed
    exact .unread parsed
  · rename_i parsed
    exact .blank parsed
  · rename_i name arguments parsed
    unfold command
    cases taken : Command.read name arguments with
    | error error => exact .refused error parsed
    | ok command =>
      simp only [Except.bind]
      cases applied : s.apply command with
      | error error => exact .refused error parsed
      | ok later => exact .obeyed parsed taken applied
  · rename_i e notBlank notCommand parsed
    refine .kept parsed ?_
    cases e <;> first | rfl | simp_all

theorem apply_cases {s later : Sheet} {command : Command} (applied : s.apply command = .ok later) :
    command = .clear ∧ later = s.clear ∨
      ∃ settings units, later = { s with settings := settings, units := units } := by
  cases command with
  | clear => exact .inl ⟨rfl, (Except.ok.inj applied).symm⟩
  | toggleQuiet => exact .inr ⟨_, s.units, (Except.ok.inj applied).symm⟩
  | setQuiet on => exact .inr ⟨_, s.units, (Except.ok.inj applied).symm⟩
  | setFuzzy on => exact .inr ⟨_, s.units, (Except.ok.inj applied).symm⟩
  | setPrecision places => exact .inr ⟨_, s.units, (Except.ok.inj applied).symm⟩
  | defineUnit name scale base =>
    simp only [apply] at applied
    cases defined : measured (s.units.define name scale base) with
    | error error => simp [defined, bind, Except.bind] at applied
    | ok units =>
      simp only [defined, bind, Except.bind] at applied
      exact .inr ⟨s.settings, units, (Except.ok.inj applied).symm⟩

/-- Lines, graph and assignments agree, and reading has only ever gone backward. -/
structure Orderly (s : Sheet) : Prop where
  ids : s.lines.map (·.id) = List.range' 1 s.lines.length
  nodes : s.graph.nodes.map (fun node => (node.id, node.label)) =
    s.lines.map fun line => (line.id, Text.trim line.input)
  sorted : ∀ node ∈ s.graph.nodes, node.dependencies.Pairwise (· < ·)
  backward : ∀ node ∈ s.graph.nodes, ∀ id ∈ node.dependencies, 1 ≤ id ∧ id < node.id
  assigned : ∀ name line, s.assignedIn.get? name = some line → 1 ≤ line ∧ line ≤ s.lines.length

theorem orderly_new (settings : Settings) (rates : Rates Float) (now : Moment) :
    Orderly (.new settings rates now) where
  ids := rfl
  nodes := rfl
  sorted := by simp [new, Graph.empty]
  backward := by simp [new, Graph.empty]
  assigned := by simp [new, Bindings.get?]

theorem orderly_clear (s : Sheet) : Orderly s.clear where
  ids := rfl
  nodes := rfl
  sorted := by simp [clear, Graph.empty]
  backward := by simp [clear, Graph.empty]
  assigned := by simp [clear, Bindings.get?]

theorem orderly_congr {s later : Sheet} (orderly : Orderly s) (lines : later.lines = s.lines)
    (graph : later.graph = s.graph) (assigned : later.assignedIn = s.assignedIn) :
    Orderly later where
  ids := by rw [lines]; exact orderly.ids
  nodes := by rw [lines, graph]; exact orderly.nodes
  sorted := by rw [graph]; exact orderly.sorted
  backward := by rw [graph]; exact orderly.backward
  assigned := by rw [lines, assigned]; exact orderly.assigned

/-- References reach earlier lines only. -/
theorem linesRead_earlier (s : Sheet) (e : Expr Float) :
    ∀ line ∈ (s.surroundings.run s.bindings e).2.linesRead, 1 ≤ line ∧ line ≤ s.lines.length := by
  let earlier (p : Progress Float) : Prop :=
    ∀ line ∈ p.linesRead, 1 ≤ line ∧ line ≤ s.lines.length
  have undisturbed : s.surroundings.Undisturbed earlier := by
    constructor
    · exact fun p name value bound holds => holds
    · intro p line least most holds number member
      rcases List.mem_append.1 member with member | last
      · exact holds number member
      · obtain rfl := List.mem_singleton.1 last
        exact ⟨least, by simpa [surroundings] using most⟩
  refine Surroundings.run_keeps undisturbed (.inr fun p name value holds => holds) s.bindings ?_
  intro line member
  simp [Progress.start] at member

theorem dependencies_earlier {s : Sheet} (orderly : Orderly s) (e : Expr Float) :
    ∀ line ∈ s.dependencies (s.surroundings.run s.bindings e).2,
      1 ≤ line ∧ line ≤ s.lines.length := by
  intro line member
  rcases List.mem_append.1 (mem_ascending.1 member) with direct | assigned
  · exact linesRead_earlier s e line direct
  · obtain ⟨name, _, found⟩ := List.mem_filterMap.1 assigned
    exact orderly.assigned name line found

theorem noteAssignment_within {s : Sheet} (orderly : Orderly s) (e : Expr Float)
    (answer : Answer (Value Float)) (name : String) (line : Nat)
    (found : (s.noteAssignment e answer).get? name = some line) :
    1 ≤ line ∧ line ≤ s.lines.length + 1 := by
  have before (found : s.assignedIn.get? name = some line) :
      1 ≤ line ∧ line ≤ s.lines.length + 1 := by
    have := orderly.assigned name line found
    omega
  unfold noteAssignment at found
  split at found
  · rw [Bindings.get?_set] at found
    split at found
    · simp only [Option.some.injEq, nextLine] at found
      omega
    · exact before found
  · exact before found

theorem node_ids {s : Sheet} (orderly : Orderly s) :
    s.graph.ids = List.range' 1 s.lines.length := by
  have := congrArg (List.map Prod.fst) orderly.nodes
  simpa [Graph.ids, Function.comp_def, orderly.ids] using this

theorem graph_add_nodes {s : Sheet} (orderly : Orderly s) (label : String) (read : List Nat) :
    (s.graph.add s.nextLine label read).nodes = s.graph.nodes ++ [⟨s.nextLine, label, read⟩] := by
  refine placeNode_last fun m member => ?_
  have : m.id ∈ s.graph.ids := List.mem_map_of_mem member
  rw [node_ids orderly, List.mem_range'_1] at this
  simp only [nextLine]
  omega

theorem orderly_record {s : Sheet} (orderly : Orderly s) (input : String) (e : Expr Float) :
    Orderly (s.record input e).2 := by
  have nodes := graph_add_nodes orderly (Text.trim input)
    (s.dependencies (s.surroundings.run s.bindings e).2)
  have earlier := dependencies_earlier orderly e
  refine ⟨?_, ?_, ?_, ?_, ?_⟩
  · simp [record, orderly.ids, nextLine, List.range'_concat, Nat.add_comm]
  · simp [record, nodes, orderly.nodes]
  · simp only [record, nodes]
    intro node member
    rcases List.mem_append.1 member with old | last
    · exact orderly.sorted node old
    · rw [List.mem_singleton.1 last]
      exact ascending_pairwise _
  · simp only [record, nodes]
    intro node member id read
    rcases List.mem_append.1 member with old | last
    · exact orderly.backward node old id read
    · rw [List.mem_singleton.1 last] at read ⊢
      have := earlier id read
      simp only [nextLine]
      omega
  · intro name line found
    simpa [record] using noteAssignment_within orderly e _ name line found

theorem orderly_enter {s : Sheet} (orderly : Orderly s) (input : String) :
    Orderly (s.enter input).2 := by
  have entry := enter_entry s input
  generalize s.enter input = reply at entry ⊢
  cases entry with
  | unread parsed => exact orderly
  | blank parsed => exact orderly
  | refused error parsed => exact orderly
  | obeyed parsed taken applied =>
    rcases apply_cases applied with ⟨_, cleared⟩ | ⟨settings, units, changed⟩
    · exact cleared ▸ orderly_clear s
    · exact orderly_congr orderly (by rw [changed]) (by rw [changed]) (by rw [changed])
  | kept parsed kept => exact orderly_record orderly input _

theorem orderly_of_reached {s : Sheet} (reached : Reached s) : Orderly s := by
  induction reached with
  | new settings rates now => exact orderly_new settings rates now
  | enter input _ ih => exact orderly_enter ih input
  | clear _ _ => exact orderly_clear _
  | settings settings _ ih => exact orderly_congr ih rfl rfl rfl
  | now now _ ih => exact orderly_congr ih rfl rfl rfl

theorem enter_lines (s : Sheet) (input : String) :
    (s.enter input).2.lines = s.lines ∨
      (∃ line, (s.enter input).2.lines = s.lines ++ [line]) ∨
      ((s.enter input).1 = .silent ∧ (s.enter input).2.lines = [] ∧
        ∃ arguments, parseLine s.settings.fuzzy input = .ok (.command "clear" arguments)) := by
  have entry := enter_entry s input
  generalize s.enter input = reply at entry ⊢
  cases entry with
  | unread parsed => exact .inl rfl
  | blank parsed => exact .inl rfl
  | refused error parsed => exact .inl rfl
  | obeyed parsed taken applied =>
    rcases apply_cases applied with ⟨rfl, cleared⟩ | ⟨settings, units, changed⟩
    · obtain rfl := Command.read_eq_clear taken
      exact .inr (.inr ⟨rfl, by rw [cleared]; rfl, _, parsed⟩)
    · exact .inl (by rw [changed])
  | kept parsed kept => exact .inr (.inl ⟨_, rfl⟩)

theorem order_of_orderly {s : Sheet} (orderly : Orderly s) :
    s.order = .ok (List.range' 1 s.lines.length) := by
  have ordered := Graph.order_of_backward fun node member d read =>
    (orderly.backward node member d read).2
  rw [order, ordered, node_ids orderly]

/-- Lines are numbered from 1, each is a node of the graph with its text, and it has read earlier
    lines only, so the lines are in order as they stand. Another line is kept after them, or none
    is, unless all of them are forgotten on command. -/
theorem history_of_reached {s : Sheet} (reached : Reached s) :
    s.lines.map (·.id) = List.range' 1 s.lines.length ∧
      s.graph.nodes.map (fun node => (node.id, node.label)) =
        s.lines.map (fun line => (line.id, Text.trim line.input)) ∧
      (∀ node ∈ s.graph.nodes, node.dependencies.Pairwise (· < ·) ∧
        ∀ id ∈ node.dependencies, 1 ≤ id ∧ id < node.id) ∧
      s.order = .ok (List.range' 1 s.lines.length) ∧
      ∀ input, (s.enter input).2.lines = s.lines ∨
        (∃ line, (s.enter input).2.lines = s.lines ++ [line]) ∨
        ((s.enter input).1 = .silent ∧ (s.enter input).2.lines = [] ∧
          ∃ arguments, parseLine s.settings.fuzzy input = .ok (.command "clear" arguments)) := by
  have orderly := orderly_of_reached reached
  refine ⟨orderly.ids, orderly.nodes, ?_, order_of_orderly orderly, enter_lines s⟩
  exact fun node member => ⟨orderly.sorted node member, orderly.backward node member⟩

def fresh : Sheet := new .default ⟨[]⟩ (Day.midnight ⟨0, by decide, by decide⟩)

def twoLines : Sheet :=
  (((new .default ⟨[]⟩ (Day.midnight ⟨0, by decide, by decide⟩)).enter "x = 2").2.enter
    "x + prev").2

theorem history_of_twoLines :
    Reached twoLines ∧ twoLines.lines.length = 2 ∧
      twoLines.graph.nodes.map (·.dependencies) = [[], [1]] ∧ twoLines.order = .ok [1, 2] := by
  have reached : Reached twoLines := .enter _ (.enter _ (.new _ _ _))
  have length : twoLines.lines.length = 2 := by decide +kernel
  have ordered := (history_of_reached reached).2.2.2.1
  rw [length] at ordered
  exact ⟨reached, length, by decide +kernel, ordered⟩

end Sheet

end NotepadCalculator

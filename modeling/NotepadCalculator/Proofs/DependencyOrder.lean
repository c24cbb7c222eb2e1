import Mathlib.Data.List.Nodup
import Mathlib.Logic.Relation
import NotepadCalculator.Sheet.Dependencies

/-!
Depth-first ordering of a graph. Every node of the current path leads to the node being visited,
and every node ordered so far stands after what it depends on. So meeting a node of the path again
closes a cycle, and a graph without cycles is ordered completely.
-/
namespace NotepadCalculator.Graph
open Relation

/-- A dependency on a number without a node does not count. -/
def Depends (g : Graph) (a b : Nat) : Prop :=
  b ∈ g.ids ∧ ∃ node, g.node? a = some node ∧ b ∈ node.dependencies

def Cyclic (g : Graph) : Prop := ∃ id, TransGen g.Depends id id

/-- Nodes of the graph, none twice, each after everything it depends on. -/
structure Settled (g : Graph) (order : List Nat) : Prop where
  once : order.Nodup
  present : order ⊆ g.ids
  follows : ∀ before id after, order = before ++ id :: after → ∀ d, g.Depends id d → d ∈ before

/-- What holds in the middle of a search: nothing on the path has been ordered yet. -/
structure Searching (g : Graph) (path order : List Nat) : Prop where
  settled : g.Settled order
  apart : ∀ p ∈ path, p ∉ order

def Answers (g : Graph) (path order wanted : List Nat) : Except Nat (List Nat) → Prop
  | .ok later =>
    g.Searching path later ∧ order ⊆ later ∧ ∀ id ∈ wanted, id ∈ g.ids → id ∈ later
  | .error id => TransGen g.Depends id id

theorem node?_isSome_iff {g : Graph} {id : Nat} : (g.node? id).isSome ↔ id ∈ g.ids := by
  simp [node?, ids]

theorem ids_ascending (g : Graph) : g.ids.Pairwise (· < ·) := List.pairwise_map.2 g.ascending

theorem ids_nodup (g : Graph) : g.ids.Nodup := (ids_ascending g).imp Nat.ne_of_lt

theorem settled_nil (g : Graph) : g.Settled [] := ⟨.nil, List.nil_subset _, by simp⟩

theorem settled_append {g : Graph} {order : List Nat} {id : Nat} (settled : g.Settled order)
    (present : id ∈ g.ids) (fresh : id ∉ order) (ready : ∀ d, g.Depends id d → d ∈ order) :
    g.Settled (order ++ [id]) := by
  refine ⟨?_, ?_, ?_⟩
  · exact List.nodup_append.2 ⟨settled.once, List.nodup_singleton id, by
      intro a ha b hb same
      exact fresh (List.mem_singleton.1 hb ▸ same ▸ ha)⟩
  · intro a member
    rcases List.mem_append.1 member with earlier | last
    · exact settled.present earlier
    · exact List.mem_singleton.1 last ▸ present
  · intro before a after split d depends
    -- Either `a` is the new last node or it stands among the earlier ones.
    rcases List.eq_nil_or_concat after with none | ⟨rest, last, some⟩
    · subst none
      obtain ⟨same, tail⟩ := List.append_inj' split rfl
      obtain rfl : id = a := by simpa using tail
      exact same ▸ ready d depends
    · subst some
      have split : order ++ [id] = (before ++ a :: rest) ++ [last] := by simpa using split
      exact settled.follows before a rest (List.append_inj' split rfl).1 d depends

theorem visits_answer {g : Graph} {path : List Nat} (wanted : List Nat) {order : List Nat}
    (each : ∀ order id, id ∈ wanted → g.Searching path order →
      g.Answers path order [id] (g.visit path order id))
    (searching : g.Searching path order) :
    g.Answers path order wanted
      (wanted.foldlM (fun order next => g.visit path order next) order) := by
  induction wanted generalizing order with
  | nil => exact ⟨searching, List.Subset.refl order, by simp⟩
  | cons id rest ih =>
    have first := each order id List.mem_cons_self searching
    rw [List.foldlM_cons]
    cases run : g.visit path order id with
    | error on => rw [run] at first; exact first
    | ok middle =>
      rw [run] at first
      obtain ⟨searching, kept, reached⟩ := first
      have others := ih (fun order id member => each order id (List.mem_cons_of_mem _ member))
        searching
      show g.Answers path order (id :: rest) (rest.foldlM _ middle)
      cases more : rest.foldlM (fun order next => g.visit path order next) middle with
      | error on => rw [more] at others; exact others
      | ok later =>
        rw [more] at others
        obtain ⟨searching, keptLater, reachedLater⟩ := others
        refine ⟨searching, List.Subset.trans kept keptLater, ?_⟩
        intro a member present
        rcases List.mem_cons.1 member with same | member
        · exact keptLater (reached a (by simp [same]) present)
        · exact reachedLater a member present

theorem visit_answer (g : Graph) (path order : List Nat) (id : Nat)
    (searching : g.Searching path order)
    (leads : id ∈ g.ids → ∀ p ∈ path, TransGen g.Depends p id) :
    g.Answers path order [id] (g.visit path order id) := by
  fun_induction visit g path order id with
  | case1 path order id missing =>
    have absent : id ∉ g.ids := by simp [← node?_isSome_iff, missing]
    exact ⟨searching, List.Subset.refl order, by simp [absent]⟩
  | case2 path order id node found done =>
    exact ⟨searching, List.Subset.refl order, by simp [done]⟩
  | case3 path order id node found pending again =>
    exact leads (mem_ids_of_node? found) id again
  | case4 path order id node found pending fresh ih =>
    have present := mem_ids_of_node? found
    have deeper : g.Searching (id :: path) order :=
      ⟨searching.settled, List.forall_mem_cons.2 ⟨pending, searching.apart⟩⟩
    have inner : g.Answers (id :: path) order node.dependencies
        (node.dependencies.foldlM (fun order next => g.visit (id :: path) order next) order) := by
      refine visits_answer node.dependencies ?_ deeper
      intro order next member searching
      refine ih order next searching ?_
      intro nextPresent
      have edge : g.Depends id next := ⟨nextPresent, node, found, member⟩
      exact List.forall_mem_cons.2
        ⟨.single edge, fun p onPath => (leads present p onPath).tail edge⟩
    cases run : node.dependencies.foldlM
        (fun order next => g.visit (id :: path) order next) order with
    | error on => rw [run] at inner; exact inner
    | ok middle =>
      rw [run] at inner
      obtain ⟨⟨settled, apart⟩, kept, reached⟩ := inner
      obtain ⟨unordered, apart⟩ := List.forall_mem_cons.1 apart
      have ready : ∀ d, g.Depends id d → d ∈ middle := by
        rintro d ⟨dPresent, other, foundOther, member⟩
        obtain rfl : node = other := Option.some.inj (found.symm.trans foundOther)
        exact reached d member dPresent
      refine ⟨⟨settled_append settled present unordered ready, ?_⟩, ?_, by simp⟩
      · intro p onPath ordered
        rcases List.mem_append.1 ordered with earlier | last
        · exact apart p onPath earlier
        · exact fresh (List.mem_singleton.1 last ▸ onPath)
      · exact List.Subset.trans kept (List.subset_append_left middle [id])

theorem order_answer (g : Graph) : g.Answers [] [] g.ids g.order := by
  refine visits_answer g.ids ?_ ⟨settled_nil g, by simp⟩
  intro order id _ searching
  exact visit_answer g [] order id searching (by simp)

theorem order_ok {g : Graph} {order : List Nat} (run : g.order = .ok order) :
    g.Settled order ∧ order.Perm g.ids := by
  have answer := order_answer g
  rw [run] at answer
  obtain ⟨⟨settled, _⟩, _, complete⟩ := answer
  refine ⟨settled, (List.perm_ext_iff_of_nodup settled.once (ids_nodup g)).2 ?_⟩
  exact fun id => ⟨fun member => settled.present member, fun present => complete id present present⟩

theorem order_error {g : Graph} {id : Nat} (run : g.order = .error id) :
    TransGen g.Depends id id := by
  have answer := order_answer g
  rw [run] at answer
  exact answer

theorem settled_depends_before {g : Graph} {order : List Nat} (settled : g.Settled order)
    {a b : Nat} (member : a ∈ order) (depends : g.Depends a b) :
    b ∈ order ∧ order.idxOf b < order.idxOf a := by
  obtain ⟨before, after, split, fresh⟩ := List.eq_append_cons_of_mem member
  have earlier := settled.follows before a after split b depends
  subst split
  refine ⟨List.mem_append_left _ earlier, ?_⟩
  rw [List.idxOf_append_of_mem earlier, List.idxOf_append_of_notMem fresh]
  have := List.idxOf_lt_length_of_mem earlier
  omega

theorem settled_chain_before {g : Graph} {order : List Nat} (settled : g.Settled order)
    {a b : Nat} (member : a ∈ order) (chain : TransGen g.Depends a b) :
    b ∈ order ∧ order.idxOf b < order.idxOf a := by
  induction chain with
  | single depends => exact settled_depends_before settled member depends
  | tail _ depends ih =>
    obtain ⟨middle, less⟩ := ih
    obtain ⟨last, lessStill⟩ := settled_depends_before settled middle depends
    exact ⟨last, Nat.lt_trans lessStill less⟩

theorem mem_ids_of_depends {g : Graph} {a b : Nat} (depends : g.Depends a b) : a ∈ g.ids := by
  obtain ⟨_, _, found, _⟩ := depends
  exact mem_ids_of_node? found

theorem mem_ids_of_chain {g : Graph} {a b : Nat} (chain : TransGen g.Depends a b) :
    a ∈ g.ids := by
  obtain ⟨_, first, _⟩ := TransGen.head'_iff.1 chain
  exact mem_ids_of_depends first

theorem not_cyclic_of_order_ok {g : Graph} {order : List Nat} (run : g.order = .ok order) :
    ¬ g.Cyclic := by
  rintro ⟨id, cycle⟩
  obtain ⟨settled, everything⟩ := order_ok run
  have member := everything.mem_iff.2 (mem_ids_of_chain cycle)
  exact Nat.lt_irrefl _ (settled_chain_before settled member cycle).2

theorem order_ok_iff (g : Graph) : (∃ order, g.order = .ok order) ↔ ¬ g.Cyclic := by
  constructor
  · rintro ⟨order, run⟩
    exact not_cyclic_of_order_ok run
  · intro acyclic
    cases run : g.order with
    | ok order => exact ⟨order, rfl⟩
    | error id => exact absurd ⟨id, order_error run⟩ acyclic

theorem hasCycle_iff_cyclic (g : Graph) : g.hasCycle = true ↔ g.Cyclic := by
  have succeeds := order_ok_iff g
  cases run : g.order with
  | ok order => simpa [hasCycle, run, Except.toOption] using succeeds
  | error id => simpa [hasCycle, run, Except.toOption] using succeeds

/-! Dependencies that all lead backward. -/

theorem visit_done {g : Graph} {path order : List Nat} {id : Nat}
    (done : id ∈ g.ids → id ∈ order) : g.visit path order id = .ok order := by
  rw [visit]
  split
  · rfl
  · rename_i found
    rw [if_pos (done (mem_ids_of_node? found))]

theorem visits_done {g : Graph} {path order : List Nat} (wanted : List Nat)
    (done : ∀ id ∈ wanted, id ∈ g.ids → id ∈ order) :
    wanted.foldlM (fun order next => g.visit path order next) order = .ok order := by
  induction wanted with
  | nil => rfl
  | cons id rest ih =>
    obtain ⟨here, others⟩ := List.forall_mem_cons.1 done
    rw [List.foldlM_cons, visit_done here]
    exact ih others

theorem visit_next {g : Graph} {before : List Nat} {id : Nat} {node : Node}
    (found : g.node? id = some node) (fresh : id ∉ before)
    (done : ∀ d ∈ node.dependencies, d ∈ g.ids → d ∈ before) :
    g.visit [] before id = .ok (before ++ [id]) := by
  rw [visit]
  split
  · simp_all
  · rename_i other foundOther
    obtain rfl : node = other := Option.some.inj (found.symm.trans foundOther)
    rw [if_neg fresh, dif_neg List.not_mem_nil, visits_done node.dependencies done]
    rfl

theorem visits_in_order {g : Graph}
    (backward : ∀ node ∈ g.nodes, ∀ d ∈ node.dependencies, d < node.id)
    (before after : List Nat) (split : g.ids = before ++ after) :
    after.foldlM (g.visit []) before = .ok g.ids := by
  induction after generalizing before with
  | nil =>
    rw [split, List.append_nil]
    rfl
  | cons id rest ih =>
    have present : id ∈ g.ids := by simp [split]
    have sorted := ids_ascending g
    have unique := ids_nodup g
    rw [split] at sorted unique
    obtain ⟨node, found⟩ := Option.isSome_iff_exists.1 (node?_isSome_iff.2 present)
    have fresh : id ∉ before := fun member =>
      (List.nodup_append.1 unique).2.2 id member id List.mem_cons_self rfl
    have next : g.visit [] before id = .ok (before ++ [id]) := by
      refine visit_next found fresh fun d member dPresent => ?_
      have less : d < id := by
        have same : node.id = id := by simpa using List.find?_some found
        exact same ▸ backward node (List.mem_of_find?_eq_some found) d member
      rw [split] at dPresent
      rcases List.mem_append.1 dPresent with earlier | later
      · exact earlier
      · rcases List.mem_cons.1 later with same | later
        · omega
        · have := (List.pairwise_cons.1 (List.pairwise_append.1 sorted).2.1).1 d later
          omega
    rw [List.foldlM_cons, next]
    exact ih (before ++ [id]) (by simp [split])

/-- Where every dependency has a smaller number, the numbers themselves are in order. -/
theorem order_of_backward {g : Graph}
    (backward : ∀ node ∈ g.nodes, ∀ d ∈ node.dependencies, d < node.id) :
    g.order = .ok g.ids :=
  visits_in_order backward [] g.ids rfl

/-- Ordering succeeds exactly for a graph without cycles, and then every node is listed once and
    after everything it depends on. -/
theorem order_complete (g : Graph) :
    ((∃ order, g.order = .ok order) ↔ ¬ g.Cyclic) ∧
      (∀ order, g.order = .ok order → order.Perm g.ids ∧ order.Nodup ∧
        ∀ before id after, order = before ++ id :: after →
          ∀ d, g.Depends id d → d ∈ before) ∧
      (g.hasCycle = true ↔ g.Cyclic) := by
  refine ⟨order_ok_iff g, ?_, hasCycle_iff_cyclic g⟩
  intro order run
  obtain ⟨settled, everything⟩ := order_ok run
  exact ⟨everything, settled.once, settled.follows⟩

/-- The node that ordering fails with lies on a cycle itself; it does not merely lead to one. -/
theorem order_error_on_cycle {g : Graph} {id : Nat} (run : g.order = .error id) :
    id ∈ g.ids ∧ TransGen g.Depends id id := by
  have cycle := order_error run
  exact ⟨mem_ids_of_chain cycle, cycle⟩

def tailed : Graph := ((empty.add 1 "a" [2]).add 2 "b" [3]).add 3 "c" [2, 4]

theorem order_error_past_tail :
    tailed.order = .error 2 ∧ 2 ∈ tailed.ids ∧ TransGen tailed.Depends 2 2 := by
  have run : tailed.order = .error 2 := by decide +kernel
  exact ⟨run, order_error_on_cycle run⟩

end NotepadCalculator.Graph

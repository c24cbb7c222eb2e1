/-!
Which lines read which. Nodes are kept in ascending order of their numbers. Ordering visits nodes
depth first: every node follows what it depends on, and meeting a node of the current path again
is a cycle through that node. Dependencies on numbers without a node are ignored.
-/
namespace NotepadCalculator

structure Node where
  id : Nat
  label : String
  dependencies : List Nat
  deriving DecidableEq, Repr

abbrev Ascending (nodes : List Node) : Prop := nodes.Pairwise fun a b => a.id < b.id

structure Graph where
  nodes : List Node
  ascending : Ascending nodes
  deriving DecidableEq, Repr

def placeNode (n : Node) : List Node → List Node
  | [] => [n]
  | m :: rest =>
    if n.id < m.id then n :: m :: rest
    else if n.id = m.id then n :: rest
    else m :: placeNode n rest

theorem mem_of_mem_placeNode {n x : Node} {nodes : List Node} (h : x ∈ placeNode n nodes) :
    x = n ∨ x ∈ nodes := by
  induction nodes with
  | nil => simpa [placeNode] using h
  | cons m rest ih =>
    simp only [placeNode] at h
    split at h
    · simpa using h
    · split at h
      · rcases List.mem_cons.1 h with h | h
        · exact .inl h
        · exact .inr (List.mem_cons_of_mem m h)
      · rcases List.mem_cons.1 h with h | h
        · exact .inr (h ▸ List.mem_cons_self)
        · exact (ih h).imp id (List.mem_cons_of_mem m)

theorem ascending_placeNode (n : Node) {nodes : List Node} (sorted : Ascending nodes) :
    Ascending (placeNode n nodes) := by
  induction nodes with
  | nil => simp [placeNode]
  | cons m rest ih =>
    have ⟨above, tail⟩ := List.pairwise_cons.1 sorted
    simp only [placeNode]
    split
    · rename_i less
      refine List.pairwise_cons.2 ⟨fun x hx => ?_, sorted⟩
      rcases List.mem_cons.1 hx with rfl | hx
      · exact less
      · exact Nat.lt_trans less (above x hx)
    · split
      · rename_i same
        exact List.pairwise_cons.2 ⟨fun x hx => same ▸ above x hx, tail⟩
      · refine List.pairwise_cons.2 ⟨fun x hx => ?_, ih tail⟩
        rcases mem_of_mem_placeNode hx with rfl | hx
        · omega
        · exact above x hx

namespace Graph

def empty : Graph := ⟨[], .nil⟩

def add (g : Graph) (id : Nat) (label : String) (dependencies : List Nat) : Graph :=
  ⟨placeNode ⟨id, label, dependencies⟩ g.nodes, ascending_placeNode _ g.ascending⟩

def node? (g : Graph) (id : Nat) : Option Node := g.nodes.find? (·.id = id)
def ids (g : Graph) : List Nat := g.nodes.map (·.id)

def dependents (g : Graph) (id : Nat) : List Nat :=
  (g.nodes.filter (·.dependencies.contains id)).map (·.id)

theorem mem_ids_of_node? {g : Graph} {id : Nat} {node : Node} (found : g.node? id = some node) :
    id ∈ g.ids := by
  have member := List.mem_of_find?_eq_some found
  have same : node.id = id := by simpa using List.find?_some found
  exact List.mem_map.2 ⟨node, member, same⟩

def offPath (g : Graph) (path : List Nat) : List Nat := g.ids.filter (· ∉ path)

theorem offPath_shrinks {g : Graph} {path : List Nat} {id : Nat} (present : id ∈ g.ids)
    (fresh : id ∉ path) : (g.offPath (id :: path)).length < (g.offPath path).length := by
  have narrowed : g.offPath (id :: path) = (g.offPath path).filter (· ≠ id) := by
    simp [offPath, List.filter_filter]
  rw [narrowed]
  refine List.length_filter_lt_length_iff_exists.2 ⟨id, ?_, by simp⟩
  simpa [offPath] using And.intro present fresh

/-- Appends `id`, after what it depends on, to the nodes ordered so far; `path` leads to it. A path
    never takes in a node twice, so every visit ends. -/
def visit (g : Graph) (path order : List Nat) (id : Nat) : Except Nat (List Nat) :=
  match _ : g.node? id with
  | none => .ok order
  | some node =>
    if id ∈ order then .ok order
    else if _ : id ∈ path then .error id
    else do
      let order ← node.dependencies.foldlM (fun order next => g.visit (id :: path) order next) order
      return order ++ [id]
termination_by (g.offPath path).length
decreasing_by exact offPath_shrinks (mem_ids_of_node? ‹_›) ‹_›

def order (g : Graph) : Except Nat (List Nat) := g.ids.foldlM (g.visit []) []

def hasCycle (g : Graph) : Bool := g.order.toOption.isNone

end Graph

end NotepadCalculator

import Phrasebook.Pack.Basic

/-!
The graph of categories. A category points to every category that its matchers name in their groups.
An edge is marked as cyclic when its target leads back to its source.
-/

namespace Phrasebook.Graph

structure Node where
  name : String
  rules : Nat
  deriving DecidableEq, Repr

structure Edge where
  source : String
  target : String
  cyclic : Bool
  deriving DecidableEq, Repr

end Graph

structure Graph where
  nodes : List Graph.Node
  edges : List Graph.Edge

namespace Graph

/-- The targets of the pairs that start at `u`. -/
def targets (pairs : List (String × String)) (u : String) : List String :=
  (pairs.filter (·.1 == u)).map (·.2)

/-- Whether `goal` can be reached from a name on the stack. Names in `pending` have not been left
yet, and a name is left once at most. -/
def reachesFrom (pairs : List (String × String)) (goal : String) :
    (pending stack : List String) → Bool
  | _, [] => false
  | pending, u :: stack =>
    if u = goal then true
    else if _h : u ∈ pending then
      reachesFrom pairs goal (pending.erase u) (targets pairs u ++ stack)
    else reachesFrom pairs goal pending stack
termination_by pending stack => (pending.length, stack.length)
decreasing_by
  · have := List.length_erase_of_mem ‹u ∈ pending›
    have := List.length_pos_of_mem ‹u ∈ pending›
    exact Prod.Lex.left _ _ (by omega)
  · exact Prod.Lex.right _ (by simp)

/-- Whether the pairs lead from `u` to `goal`, in any number of steps. -/
def reaches (pairs : List (String × String)) (u goal : String) : Bool :=
  reachesFrom pairs goal (pairs.map (·.1)).eraseDups [u]

/-- An edge for every pair, in the same order. -/
def classify (pairs : List (String × String)) : List Edge :=
  pairs.map fun (u, v) => ⟨u, v, u == v || reaches pairs v u⟩

/-- The names that an entry brings to the graph: its category, then those in its groups. -/
def entryNames (e : Pack.Entry) : List String := e.category :: Group.leavesOf e.groups

def entryPairs (e : Pack.Entry) : List (String × String) :=
  (Group.leavesOf e.groups).map (e.category, ·)

/-- Nodes and edges in the order in which they first appear. -/
def ofEntries (entries : List Pack.Entry) : Graph :=
  { nodes := (entries.flatMap entryNames).eraseDups.map fun name =>
      ⟨name, entries.countP (·.category == name)⟩
    edges := classify (entries.flatMap entryPairs).eraseDups }

def cyclicEdges (g : Graph) : List Edge := g.edges.filter (·.cyclic)

end Phrasebook.Graph

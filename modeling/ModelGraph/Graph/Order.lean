import ModelGraph.Graph.Basic

/-!
# Dependency order

`Graph.topologicalOrder` lists the nodes so that each comes after its inputs.  Nodes are
placed one at a time: every node keeps count of the inputs it still waits for, and the
least-numbered node that waits for nothing goes next.  If some nodes wait forever, they lie
on a cycle or depend on one.
-/

namespace ModelGraph

namespace Graph

/-- The state of placing nodes in order. -/
structure Sweep where
  /-- For each node that is not placed, how many of its different inputs are not placed. -/
  waiting : Array (Option Nat)
  /-- The placed nodes, the latest first. -/
  placed : List NodeId

/-- The number of inputs that a node waits for; a placed node waits no more. -/
def Sweep.waitsFor? (s : Sweep) (id : NodeId) : Option Nat :=
  s.waiting.getD id.index none

/-- Whether one node is an input of another. -/
def uses (g : Graph) (id input : NodeId) : Bool :=
  (g.nodes[id.index]?).any fun node => node.inputs.contains input

/-- The state before the first node is placed. -/
def startSweep (g : Graph) : Sweep where
  waiting := g.nodes.map fun node => some node.inputs.eraseDups.length
  placed := []

/-- The least node that is not placed and waits for nothing. -/
def nextNode? (g : Graph) (s : Sweep) : Option NodeId :=
  g.ids.find? fun id => s.waitsFor? id = some 0

/-- Places a node; those that use it wait for one input less. -/
def place (g : Graph) (s : Sweep) (id : NodeId) : Sweep where
  waiting := s.waiting.mapIdx fun i count =>
    if i = id.index then none else if g.uses ⟨i⟩ id then count.map (· - 1) else count
  placed := id :: s.placed

@[simp] theorem placed_place (g : Graph) (s : Sweep) (id : NodeId) :
    (g.place s id).placed = id :: s.placed := rfl

/-- Places up to `limit` nodes. -/
def sweep (g : Graph) : (limit : Nat) → Sweep → Sweep
  | 0, s => s
  | limit + 1, s =>
    match g.nextNode? s with
    | none => s
    | some id => g.sweep limit (g.place s id)

theorem sweep_of_nextNode?_eq_some
    {g : Graph} {s : Sweep} {id : NodeId} (next : g.nextNode? s = some id) (limit : Nat) :
    g.sweep (limit + 1) s = g.sweep limit (g.place s id) := by
  simp only [sweep, next]

/-- The nodes in an order in which each follows its inputs, the least number first where
there is a choice. -/
def topologicalOrder (g : Graph) : Except Error (List NodeId) :=
  let s := g.sweep g.size g.startSweep
  if s.placed.length = g.size then
    .ok s.placed.reverse
  else
    .error (.cycleDetected (g.ids.filter fun id => (s.waitsFor? id).isSome))

/-- The graph of a list of nodes that all fit and can be ordered. -/
def ofNodes (nodes : List Node) : Except Error Graph := do
  let g : Graph := ⟨nodes.toArray⟩
  nodes.forM g.check
  let _ ← g.topologicalOrder
  return g

end Graph

end ModelGraph

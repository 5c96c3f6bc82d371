import ModelGraph.Graph.Basic

/-!
# Reachability

One node reaches another if a path of zero or more steps from a node to one of its inputs
leads there.  `Graph.reaches` searches depth first; each node is entered at most once.
-/

namespace ModelGraph

namespace Graph

/-- Searches for a node from those on a stack.  Nodes that are not among `unseen` have
been entered before. -/
def search (g : Graph) (target : NodeId) (unseen stack : List NodeId) : Except Error Bool :=
  match stack with
  | [] => .ok false
  | id :: stack =>
    if id = target then
      .ok true
    else
      match g.node id with
      | .error e => .error e
      | .ok node =>
        if id ∈ unseen then
          search g target (unseen.erase id) (node.inputs.reverse ++ stack)
        else
          search g target unseen stack
  termination_by (unseen.length, stack.length)
  decreasing_by
  · have fewer := List.length_erase_of_mem ‹id ∈ unseen›
    have some_left := List.length_pos_of_mem ‹id ∈ unseen›
    exact Prod.Lex.left _ _ (by omega)
  · exact Prod.Lex.right _ (by simp)

/-- Whether a path of inputs leads from one node to another. -/
def reaches (g : Graph) (start target : NodeId) : Except Error Bool :=
  g.search target g.ids [start]

end Graph

end ModelGraph

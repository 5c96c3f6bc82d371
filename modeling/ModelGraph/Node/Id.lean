/-!
# Node numbers

A node is known by its place in the list of nodes of its graph.
-/

namespace ModelGraph

/-- The number of a node. -/
structure NodeId where
  /-- The place of the node, counted from zero. -/
  index : Nat
  deriving DecidableEq, Hashable, Repr

namespace NodeId

instance : ToString NodeId where
  toString id := s!"N{id.index}"

instance : LT NodeId where
  lt a b := a.index < b.index

instance : LE NodeId where
  le a b := a.index ≤ b.index

instance (a b : NodeId) : Decidable (a < b) :=
  inferInstanceAs (Decidable (a.index < b.index))

instance (a b : NodeId) : Decidable (a ≤ b) :=
  inferInstanceAs (Decidable (a.index ≤ b.index))

end NodeId

end ModelGraph

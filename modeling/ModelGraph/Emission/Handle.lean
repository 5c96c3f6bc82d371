import ModelGraph.Error

/-!
# Handles

A handle is the number under which an engine knows a vertex that was built for a node.
`Handles` remembers which node has which, in the order in which the nodes came.
-/

namespace ModelGraph

/-- The number of a vertex in an engine. -/
structure Handle where
  /-- The number as a machine word. -/
  word : UInt32
  deriving DecidableEq, Repr

namespace Handle

/-- The handle with a number. -/
def ofNat (n : Nat) : Handle :=
  ⟨UInt32.ofNat n⟩

/-- The number of a handle. -/
def toNat (h : Handle) : Nat :=
  h.word.toNat

instance : ToString Handle where
  toString h := s!"n{h.toNat}"

end Handle

/-- The handles of nodes, in the order in which the nodes came. -/
structure Handles where
  /-- Each node with its handle; no node occurs twice. -/
  toList : List (NodeId × Handle) := []
  deriving DecidableEq

namespace Handles

instance : EmptyCollection Handles :=
  ⟨{}⟩

/-- The number of nodes that have a handle. -/
def size (handles : Handles) : Nat :=
  handles.toList.length

/-- Whether no node has a handle. -/
def isEmpty (handles : Handles) : Bool :=
  handles.toList.isEmpty

/-- The handle of a node, if it has one. -/
def get? (handles : Handles) (node : NodeId) : Option Handle :=
  handles.toList.lookup node

/-- Whether a node has a handle. -/
def contains (handles : Handles) (node : NodeId) : Bool :=
  (handles.get? node).isSome

/-- The handle of a node that should have one. -/
def get (handles : Handles) (node : NodeId) : Except Error Handle :=
  match handles.get? node with
  | some handle => .ok handle
  | none => .error (.missingHandle node)

/-- The handles of nodes that should have one. -/
def resolve (handles : Handles) (nodes : List NodeId) : Except Error (List Handle) :=
  nodes.mapM handles.get

/-- Gives a node a handle.  A node that had one keeps its place. -/
def insert (handles : Handles) (node : NodeId) (handle : Handle) : Handles :=
  if handles.contains node then
    ⟨handles.toList.map fun entry => if entry.1 = node then (node, handle) else entry⟩
  else
    ⟨handles.toList ++ [(node, handle)]⟩

theorem lookup_map_replace (entries : List (NodeId × Handle)) (node other : NodeId)
    (handle : Handle) :
    (entries.map fun entry => if entry.1 = node then (node, handle) else entry).lookup other =
      if other = node then (entries.lookup other).map fun _ => handle
      else entries.lookup other := by
  induction entries with
  | nil => simp
  | cons entry entries ih =>
    obtain ⟨key, old⟩ := entry
    by_cases same : key = node
    · subst same
      by_cases here : other = key
      · simp [here]
      · simp [here, List.lookup_cons, beq_false_of_ne here, ih]
    · by_cases here : other = key
      · subst here
        simp [same]
      · simp [same, List.lookup_cons, beq_false_of_ne here, ih]

theorem get?_insert (handles : Handles) (node other : NodeId) (handle : Handle) :
    (handles.insert node handle).get? other =
      if other = node then some handle else handles.get? other := by
  unfold insert contains get?
  split <;> rename_i present
  · simp only [lookup_map_replace]
    split <;> rename_i same
    · subst same
      obtain ⟨old, found⟩ := Option.isSome_iff_exists.mp present
      simp [found]
    · rfl
  · have absent := Option.not_isSome_iff_eq_none.mp present
    simp only [List.lookup_append]
    by_cases same : other = node
    · subst same
      simp [absent]
    · simp [same, List.lookup_cons, beq_false_of_ne same]

end Handles

end ModelGraph

import Mathlib.Data.List.Nodup
import Mathlib.Data.List.Perm.Subperm
import ModelGraph.Graph.Order
import ModelGraph.Proofs.Graph.Dependence

/-!
# Correctness of the dependency order

Nodes are placed one at a time.  The invariant of the sweep is that every count is the number
of different inputs that are not placed yet, and that every placed node was placed after its
inputs.  An order that is returned therefore lists every node once and each after its inputs,
and a graph that can be ordered has no cycle.
-/

namespace ModelGraph

namespace Graph

/-- Every node of a list, the latest first, comes after all of its inputs. -/
def Ordered (g : Graph) : List NodeId → Prop
  | [] => True
  | id :: earlier => (∀ input, g.DependsOn id input → input ∈ earlier) ∧ g.Ordered earlier

@[simp] theorem ordered_nil (g : Graph) : g.Ordered [] := trivial

@[simp] theorem ordered_cons
    (g : Graph) (id : NodeId) (earlier : List NodeId) :
    g.Ordered (id :: earlier) ↔
      (∀ input, g.DependsOn id input → input ∈ earlier) ∧ g.Ordered earlier := Iff.rfl

/-- What was placed first is ordered on its own. -/
theorem Ordered.of_append
    {g : Graph} {later earlier : List NodeId}
    (ordered : g.Ordered (later ++ earlier)) :
    g.Ordered earlier := by
  induction later with
  | nil => exact ordered
  | cons id later ih => exact ih ordered.2

/-- An ordered list is closed under going down a path. -/
theorem Ordered.mem_of_reaches
    {g : Graph} {placed : List NodeId} {id lower : NodeId}
    (ordered : g.Ordered placed)
    (present : id ∈ placed)
    (path : g.Reaches id lower) :
    lower ∈ placed := by
  induction placed generalizing id with
  | nil => cases present
  | cons latest earlier ih =>
      rcases List.mem_cons.mp present with rfl | before
      · rcases Relation.ReflTransGen.cases_head path with rfl | ⟨input, step, path⟩
        · exact present
        · exact List.mem_cons_of_mem _ (ih ordered.2 (ordered.1 input step) path)
      · exact List.mem_cons_of_mem _ (ih ordered.2 before path)

/-- No node of an ordered list without repetitions depends on itself. -/
theorem Ordered.not_above_self
    {g : Graph} {placed : List NodeId} {id : NodeId}
    (ordered : g.Ordered placed)
    (nodup : placed.Nodup)
    (present : id ∈ placed) :
    ¬g.Above id id := by
  induction placed with
  | nil => cases present
  | cons latest earlier ih =>
      obtain ⟨fresh, nodup⟩ := List.nodup_cons.mp nodup
      rcases List.mem_cons.mp present with rfl | before
      · intro cycle
        obtain ⟨input, step, path⟩ := Relation.TransGen.head'_iff.mp cycle
        exact fresh (ordered.2.mem_of_reaches (ordered.1 input step) path)
      · exact ih ordered.2 nodup before

/-! ## Counting the inputs that are not placed -/

theorem nodup_eraseDups (ids : List NodeId) : ids.eraseDups.Nodup := by
  match ids with
  | [] => simp
  | id :: rest =>
      rw [List.eraseDups_cons, List.nodup_cons]
      refine ⟨?_, nodup_eraseDups _⟩
      rw [List.mem_eraseDups, List.mem_filter]
      simp
  termination_by ids.length
  decreasing_by exact Nat.lt_succ_of_le (List.length_filter_le _ _)

/-- The different inputs of a node that are not placed. -/
def unplacedInputs (node : Node) (placed : List NodeId) : List NodeId :=
  node.inputs.eraseDups.filter (· ∉ placed)

@[simp] theorem mem_unplacedInputs
    (node : Node) (placed : List NodeId) (input : NodeId) :
    input ∈ unplacedInputs node placed ↔ input ∈ node.inputs ∧ input ∉ placed := by
  simp [unplacedInputs]

/-- Placing a node takes it from the unplaced inputs of every other node. -/
theorem unplacedInputs_cons
    (node : Node) (placed : List NodeId) (id : NodeId) :
    unplacedInputs node (id :: placed) = (unplacedInputs node placed).erase id := by
  have nodup : (unplacedInputs node placed).Nodup :=
    (nodup_eraseDups node.inputs).filter _
  rw [nodup.erase_eq_filter, unplacedInputs, unplacedInputs, List.filter_filter]
  congr 1
  funext input
  simp [not_or, bne, beq_eq_decide]

/-! ## The invariant of the sweep -/

/-- What holds of every state of placing the nodes of a graph. -/
structure Sweep.Valid (g : Graph) (s : Sweep) : Prop where
  /-- A placed node waits no more; another one waits for its unplaced inputs. -/
  waitsFor : ∀ id node, g.node id = .ok node →
    s.waitsFor? id =
      if id ∈ s.placed then none else some (unplacedInputs node s.placed).length
  /-- Only nodes of the graph are placed. -/
  inside : ∀ id ∈ s.placed, id.index < g.size
  /-- No node is placed twice. -/
  nodup : s.placed.Nodup
  /-- Each node was placed after its inputs. -/
  ordered : g.Ordered s.placed
  /-- There is a count for every node. -/
  size_waiting : s.waiting.size = g.size

theorem startSweep_valid (g : Graph) : g.startSweep.Valid g where
  waitsFor := by
    intro id node found
    rw [node_eq_ok_iff] at found
    have all_left : unplacedInputs node [] = node.inputs.eraseDups := by
      simp [unplacedInputs]
    simp [Sweep.waitsFor?, startSweep, all_left, found]
  inside := by simp [startSweep]
  nodup := by simp [startSweep]
  ordered := by simp [startSweep]
  size_waiting := by simp [startSweep, size]

theorem uses_eq
    {g : Graph} {id : NodeId} {node : Node}
    (found : g.node id = .ok node)
    (input : NodeId) :
    g.uses id input = decide (input ∈ node.inputs) := by
  rw [node_eq_ok_iff] at found
  simp [uses, found]

/-- What placing a node does to the counts. -/
theorem waitsFor?_place
    {g : Graph} {s : Sweep}
    (sized : s.waiting.size = g.size)
    (placed : NodeId) {id : NodeId}
    (inside : id.index < g.size) :
    (g.place s placed).waitsFor? id =
      if id = placed then none
      else if g.uses id placed then (s.waitsFor? id).map (· - 1) else s.waitsFor? id := by
  obtain ⟨id⟩ := id
  obtain ⟨placed⟩ := placed
  have present : s.waiting[id]? = some s.waiting[id] :=
    Array.getElem?_eq_getElem (by rw [sized]; exact inside)
  simp [Sweep.waitsFor?, place, present]

/-- The node that goes next is not placed, and all of its inputs are. -/
theorem Sweep.Valid.nextNode
    {g : Graph} {s : Sweep} {id : NodeId}
    (valid : s.Valid g)
    (next : g.nextNode? s = some id) :
    id.index < g.size ∧ id ∉ s.placed ∧ ∀ input, g.DependsOn id input → input ∈ s.placed := by
  have inside := (mem_ids g id).mp (List.mem_of_find?_eq_some next)
  have ready : s.waitsFor? id = some 0 := by simpa using List.find?_some next
  obtain ⟨node, found⟩ := exists_node inside
  rw [valid.waitsFor id node found] at ready
  split at ready
  · cases ready
  · next absent =>
      refine ⟨inside, absent, fun input depends => ?_⟩
      have none_left := List.length_eq_zero_iff.mp (Option.some.inj ready)
      have placed := (mem_unplacedInputs node s.placed input).not.mp (by simp [none_left])
      exact not_not.mp fun unplaced =>
        placed ⟨(dependsOn_iff found input).mp depends, unplaced⟩

/-- One step of the sweep keeps the invariant. -/
theorem Sweep.Valid.place
    {g : Graph} {s : Sweep} {id : NodeId}
    (valid : s.Valid g)
    (next : g.nextNode? s = some id) :
    (g.place s id).Valid g := by
  obtain ⟨inside, absent, inputsPlaced⟩ := valid.nextNode next
  refine
    { waitsFor := ?_
      inside := ?_
      nodup := List.nodup_cons.mpr ⟨absent, valid.nodup⟩
      ordered := ⟨inputsPlaced, valid.ordered⟩
      size_waiting := by simpa [Graph.place] using valid.size_waiting }
  · intro other node found
    rw [waitsFor?_place valid.size_waiting id (index_lt_of_node_eq_ok found),
      valid.waitsFor other node found, uses_eq found]
    change _ = if other ∈ id :: s.placed then none
      else some (unplacedInputs node (id :: s.placed)).length
    rw [unplacedInputs_cons]
    by_cases here : other = id
    · simp [here]
    · by_cases before : other ∈ s.placed
      · simp [here, before]
      · by_cases used : id ∈ node.inputs
        · have counted : id ∈ unplacedInputs node s.placed :=
            (mem_unplacedInputs node s.placed id).mpr ⟨used, absent⟩
          simp [here, before, used, List.length_erase_of_mem counted]
        · have uncounted : id ∉ unplacedInputs node s.placed := fun present =>
            used ((mem_unplacedInputs node s.placed id).mp present).1
          simp [here, before, used, List.erase_of_not_mem uncounted]
  · intro other present
    rcases List.mem_cons.mp present with rfl | before
    · exact inside
    · exact valid.inside other before

/-- The whole sweep keeps the invariant. -/
theorem Sweep.Valid.sweep
    {g : Graph} {s : Sweep}
    (valid : s.Valid g)
    (limit : Nat) :
    (g.sweep limit s).Valid g := by
  induction limit generalizing s with
  | zero => exact valid
  | succ limit ih =>
      unfold Graph.sweep
      cases next : g.nextNode? s with
      | none => exact valid
      | some id => exact ih (valid.place next)

/-! ## The order that is returned -/

/-- As many different nodes as a graph has are all of its nodes. -/
theorem perm_ids
    {g : Graph} {placed : List NodeId}
    (nodup : placed.Nodup)
    (inside : ∀ id ∈ placed, id.index < g.size)
    (full : placed.length = g.size) :
    placed.Perm g.ids := by
  have subperm : placed.Subperm g.ids :=
    nodup.subperm fun id present => (mem_ids g id).mpr (inside id present)
  have enough : g.ids.length ≤ placed.length :=
    Nat.le_of_eq ((length_ids g).trans full.symm)
  exact subperm.perm_of_length_le enough

/-- The order of a graph is what a sweep placed, once it has placed every node. -/
theorem topologicalOrder_eq_ok_iff {g : Graph} {order : List NodeId} :
    g.topologicalOrder = .ok order ↔
      (g.sweep g.size g.startSweep).placed.length = g.size ∧
        order = (g.sweep g.size g.startSweep).placed.reverse := by
  unfold topologicalOrder
  dsimp only
  split
  · next full => simp [full, eq_comm]
  · next notFull => simp [notFull]

/-- An order that is returned lists every node of the graph once, each after its inputs. -/
theorem topologicalOrder_spec
    {g : Graph} {order : List NodeId}
    (returned : g.topologicalOrder = .ok order) :
    order.Perm g.ids ∧ g.Ordered order.reverse := by
  have valid := g.startSweep_valid.sweep g.size
  obtain ⟨full, rfl⟩ := topologicalOrder_eq_ok_iff.mp returned
  refine ⟨(List.reverse_perm _).trans (perm_ids valid.nodup valid.inside full), ?_⟩
  rw [List.reverse_reverse]
  exact valid.ordered

/-- A graph that can be ordered has no cycle. -/
theorem acyclic_of_topologicalOrder
    {g : Graph} {order : List NodeId}
    (returned : g.topologicalOrder = .ok order) :
    g.Acyclic := by
  obtain ⟨perm, ordered⟩ := topologicalOrder_spec returned
  intro id cycle
  have listed := perm.trans g.ids.reverse_perm.symm
  have nodup : order.reverse.Nodup :=
    List.nodup_reverse.mpr (perm.nodup_iff.mpr g.nodup_ids)
  have present : id ∈ order.reverse :=
    List.mem_reverse.mpr (perm.mem_iff.mpr ((mem_ids g id).mpr cycle.index_lt))
  exact ordered.not_above_self nodup present cycle

end Graph

end ModelGraph

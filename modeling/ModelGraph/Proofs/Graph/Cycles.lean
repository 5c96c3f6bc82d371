import Mathlib.Data.Fintype.Pigeonhole
import ModelGraph.Proofs.Graph.Order

/-!
# Nodes that cannot be ordered

A sweep that cannot go on leaves nodes over if there is a cycle.  What was placed is closed
under going down and free of cycles, so nothing that leads into a cycle is ever placed.
Conversely a node that is left over has an input that is left over.  Walking down from it
never ends, and as there are finitely many nodes, the walk comes to one of them twice and has
found a cycle.  So the nodes left over are those that lead into a cycle, and an order is
refused exactly if there is one.
-/

namespace ModelGraph

namespace Graph

/-! ## Sweeps that cannot go on -/

theorem Sweep.Valid.length_placed_le
    {g : Graph} {s : Sweep}
    (valid : s.Valid g) :
    s.placed.length ≤ g.size := by
  have subperm : s.placed.Subperm g.ids :=
    valid.nodup.subperm fun id present => (mem_ids g id).mpr (valid.inside id present)
  rw [← length_ids]
  exact subperm.length_le

/-- A node that is not placed waits for nothing if its inputs are placed. -/
theorem Sweep.Valid.ready
    {g : Graph} {s : Sweep} {id : NodeId}
    (valid : s.Valid g)
    (inside : id.index < g.size)
    (absent : id ∉ s.placed)
    (inputsPlaced : ∀ input, g.DependsOn id input → input ∈ s.placed) :
    s.waitsFor? id = some 0 := by
  obtain ⟨node, found⟩ := exists_node inside
  have noneLeft : unplacedInputs node s.placed = [] := by
    apply List.eq_nil_iff_forall_not_mem.mpr
    intro input left
    obtain ⟨present, unplaced⟩ := (mem_unplacedInputs node s.placed input).mp left
    exact unplaced (inputsPlaced input ((dependsOn_iff found input).mpr present))
  rw [valid.waitsFor id node found, if_neg absent, noneLeft]
  rfl

/-- If a sweep cannot go on, a node that is left over has an input that is left over. -/
theorem Sweep.Valid.exists_unplaced_input
    {g : Graph} {s : Sweep} {id : NodeId}
    (valid : s.Valid g)
    (stuck : g.nextNode? s = none)
    (inside : id.index < g.size)
    (absent : id ∉ s.placed) :
    ∃ input, g.DependsOn id input ∧ input ∉ s.placed := by
  by_contra allPlaced
  push Not at allPlaced
  have passedOver := List.find?_eq_none.mp stuck id ((mem_ids g id).mpr inside)
  simp [valid.ready inside absent allPlaced] at passedOver

/-- A sweep with steps for all nodes that are left goes on until it cannot. -/
theorem Sweep.Valid.nextNode?_sweep
    {g : Graph} {s : Sweep} {limit : Nat}
    (valid : s.Valid g)
    (enough : g.size ≤ s.placed.length + limit) :
    g.nextNode? (g.sweep limit s) = none := by
  induction limit generalizing s with
  | zero =>
      cases next : g.nextNode? s with
      | none => exact next
      | some id =>
          -- one more node would be more nodes than there are
          have more := (valid.place next).length_placed_le
          change s.placed.length + 1 ≤ g.size at more
          omega
  | succ limit ih =>
      unfold Graph.sweep
      cases next : g.nextNode? s with
      | none => exact next
      | some id =>
          apply ih (valid.place next)
          change g.size ≤ s.placed.length + 1 + limit
          omega

/-! ## Ways into a cycle -/

/-- A node lies on a cycle or has a node of a cycle somewhere below it. -/
def Entangled (g : Graph) (id : NodeId) : Prop :=
  ∃ knot, g.Above knot knot ∧ g.Reaches id knot

theorem Above.entangled
    {g : Graph} {id : NodeId}
    (cycle : g.Above id id) :
    g.Entangled id :=
  ⟨id, cycle, .refl⟩

theorem Entangled.index_lt
    {g : Graph} {id : NodeId}
    (entangled : g.Entangled id) :
    id.index < g.size := by
  obtain ⟨knot, cycle, path⟩ := entangled
  rcases Relation.ReflTransGen.cases_head path with rfl | ⟨input, depends, _⟩
  · exact cycle.index_lt
  · exact depends.index_lt

theorem Acyclic.not_entangled
    {g : Graph}
    (acyclic : g.Acyclic)
    (id : NodeId) :
    ¬g.Entangled id :=
  fun ⟨knot, cycle, _⟩ => acyclic knot cycle

/-- What was placed after its inputs leads into no cycle. -/
theorem Ordered.not_entangled
    {g : Graph} {placed : List NodeId} {id : NodeId}
    (ordered : g.Ordered placed)
    (nodup : placed.Nodup)
    (present : id ∈ placed) :
    ¬g.Entangled id :=
  fun ⟨_, cycle, path⟩ =>
    ordered.not_above_self nodup (ordered.mem_of_reaches present path) cycle

/-- If each of some nodes has an input among them, all of them lead into a cycle. -/
theorem entangled_of_endless
    {g : Graph} {P : NodeId → Prop} {id : NodeId}
    (inside : ∀ id, P id → id.index < g.size)
    (endless : ∀ id, P id → ∃ input, g.DependsOn id input ∧ P input)
    (start : P id) :
    g.Entangled id := by
  choose! below depends stays using endless
  let walk : Nat → NodeId := fun n => below^[n] id
  have onward : ∀ n, walk (n + 1) = below (walk n) := fun n => Function.iterate_succ_apply' ..
  have along : ∀ n, P (walk n) := by
    intro n
    induction n with
    | zero => exact start
    | succ n ih => exact onward n ▸ stays _ ih
  have step : ∀ n, g.DependsOn (walk n) (walk (n + 1)) := fun n =>
    onward n ▸ depends _ (along n)
  have above : ∀ {m n}, m < n → g.Above (walk m) (walk n) := by
    intro m n earlier
    induction earlier with
    | refl => exact .single (step m)
    | step _ ih => exact ih.tail (step _)
  have reaches : ∀ n, g.Reaches id (walk n) := by
    intro n
    cases n with
    | zero => exact .refl
    | succ n => exact (above n.succ_pos).to_reflTransGen
  -- the walk has more steps than there are nodes
  obtain ⟨m, n, different, same⟩ := Finite.exists_ne_map_eq_of_infinite
    fun n => (⟨(walk n).index, inside _ (along n)⟩ : Fin g.size)
  have again : walk m = walk n := congrArg NodeId.mk (congrArg Fin.val same)
  rcases Nat.lt_or_gt_of_ne different with earlier | later
  · have cycle := above earlier
    rw [← again] at cycle
    exact ⟨walk m, cycle, reaches m⟩
  · have cycle := above later
    rw [again] at cycle
    exact ⟨walk n, cycle, reaches n⟩

/-- A sweep that cannot go on has placed the nodes that lead into no cycle. -/
theorem Sweep.Valid.mem_placed_iff
    {g : Graph} {s : Sweep} {id : NodeId}
    (valid : s.Valid g)
    (inputsExist : g.InputsExist)
    (stuck : g.nextNode? s = none)
    (inside : id.index < g.size) :
    id ∈ s.placed ↔ ¬g.Entangled id := by
  constructor
  · exact valid.ordered.not_entangled valid.nodup
  · intro free
    by_contra absent
    refine free (entangled_of_endless (P := fun id => id.index < g.size ∧ id ∉ s.placed)
      (fun _ left => left.1) (fun id left => ?_) ⟨inside, absent⟩)
    obtain ⟨input, depends, unplaced⟩ := valid.exists_unplaced_input stuck left.1 left.2
    exact ⟨input, depends, inputsExist id input depends, unplaced⟩

/-! ## The whole sweep -/

section

variable {g : Graph} (inputsExist : g.InputsExist)

include inputsExist

/-- The nodes that are left over are those that lead into a cycle. -/
theorem mem_placed_sweep_iff {id : NodeId} (inside : id.index < g.size) :
    id ∈ (g.sweep g.size g.startSweep).placed ↔ ¬g.Entangled id :=
  (g.startSweep_valid.sweep g.size).mem_placed_iff inputsExist
    (g.startSweep_valid.nextNode?_sweep (Nat.le_add_left _ _)) inside

/-- Every node is placed exactly if there is no cycle. -/
theorem length_placed_sweep_eq_iff :
    (g.sweep g.size g.startSweep).placed.length = g.size ↔ g.Acyclic := by
  have valid := g.startSweep_valid.sweep g.size
  constructor
  · intro full id cycle
    have complete := perm_ids valid.nodup valid.inside full
    have present := complete.mem_iff.mpr ((mem_ids g id).mpr cycle.index_lt)
    exact (mem_placed_sweep_iff inputsExist cycle.index_lt).mp present cycle.entangled
  · intro acyclic
    have all : g.ids.Subperm (g.sweep g.size g.startSweep).placed :=
      g.nodup_ids.subperm fun id present =>
        (mem_placed_sweep_iff inputsExist ((mem_ids g id).mp present)).mpr
          (acyclic.not_entangled id)
    exact Nat.le_antisymm valid.length_placed_le (g.length_ids ▸ all.length_le)

theorem exists_order_of_acyclic (acyclic : g.Acyclic) :
    ∃ order, g.topologicalOrder = .ok order :=
  ⟨_, topologicalOrder_eq_ok_iff.mpr ⟨(length_placed_sweep_eq_iff inputsExist).mpr acyclic, rfl⟩⟩

/-- The nodes that are reported are those that lead into a cycle. -/
theorem mem_waiting_iff {id : NodeId} :
    id ∈ g.ids.filter (fun id => ((g.sweep g.size g.startSweep).waitsFor? id).isSome) ↔
      g.Entangled id := by
  rw [List.mem_filter, mem_ids]
  constructor
  · rintro ⟨inside, waits⟩
    obtain ⟨node, found⟩ := exists_node inside
    rw [(g.startSweep_valid.sweep g.size).waitsFor id node found] at waits
    by_contra free
    rw [if_pos ((mem_placed_sweep_iff inputsExist inside).mpr free)] at waits
    cases waits
  · intro entangled
    have inside := entangled.index_lt
    obtain ⟨node, found⟩ := exists_node inside
    have absent := (mem_placed_sweep_iff inputsExist inside).not.mpr (not_not.mpr entangled)
    rw [(g.startSweep_valid.sweep g.size).waitsFor id node found, if_neg absent]
    exact ⟨inside, rfl⟩

end

/-- An order is refused exactly if some node depends on itself.  The refusal then names the
nodes that lie on a cycle or depend on one, each of them once and ascending. -/
theorem topologicalOrder_fails_iff_cycle
    {g : Graph}
    (inputsExist : g.InputsExist) :
    ((∃ e, g.topologicalOrder = .error e) ↔ ∃ id, g.Above id id) ∧
      ∀ e, g.topologicalOrder = .error e →
        ∃ nodes, e = .cycleDetected nodes ∧
          (∀ id, id ∈ nodes ↔ ∃ knot, g.Above knot knot ∧ g.Reaches id knot) ∧
          nodes.Pairwise (· < ·) := by
  have full := length_placed_sweep_eq_iff inputsExist
  unfold topologicalOrder
  dsimp only
  by_cases acyclic : g.Acyclic
  · rw [if_pos (full.mpr acyclic)]
    refine ⟨⟨nofun, ?_⟩, nofun⟩
    rintro ⟨id, cycle⟩
    exact absurd cycle (acyclic id)
  · rw [if_neg (full.not.mpr acyclic)]
    have cyclic : ∃ id, g.Above id id := by simpa [Acyclic] using acyclic
    refine ⟨⟨fun _ => cyclic, fun _ => ⟨_, rfl⟩⟩, ?_⟩
    rintro _ ⟨⟩
    exact ⟨_, rfl, fun id => mem_waiting_iff inputsExist, g.pairwise_ids.filter _⟩

/-- A number, two operators that are each other's input, and one that depends on them. -/
def knottedPair : Graph :=
  ⟨#[.operator (.unary .not ⟨3⟩), .constant (.natural 1), .operator (.unary .negate ⟨3⟩),
    .operator (.binary .addition ⟨1⟩ ⟨2⟩)]⟩

/-- All three operators are reported: each of them leads into a cycle, and the number does not. -/
theorem topologicalOrder_fails_knottedPair :
    knottedPair.InputsExist ∧
      knottedPair.topologicalOrder = .error (.cycleDetected [⟨0⟩, ⟨2⟩, ⟨3⟩]) ∧
      (∃ id, knottedPair.Above id id) ∧
      ∀ id, id ∈ [⟨0⟩, ⟨2⟩, ⟨3⟩] ↔
        ∃ knot, knottedPair.Above knot knot ∧ knottedPair.Reaches id knot := by
  have inputsExist : knottedPair.InputsExist := inputsExist_iff.mpr (by decide)
  have refused : knottedPair.topologicalOrder = .error (.cycleDetected [⟨0⟩, ⟨2⟩, ⟨3⟩]) := by
    decide +kernel
  obtain ⟨fails, reports⟩ := topologicalOrder_fails_iff_cycle inputsExist
  obtain ⟨nodes, named, entangled, _⟩ := reports _ refused
  cases named
  exact ⟨inputsExist, refused, fails.mp ⟨_, refused⟩, entangled⟩

end Graph

end ModelGraph

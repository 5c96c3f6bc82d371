import Mathlib.Data.List.Lex
import ModelGraph.Proofs.Graph.Cycles

/-!
# The least order

Many orders of the nodes of a graph put each node after its inputs.  The one that is returned
is the least of them, compared number by number from the front.  The sweep is greedy: at every
step the node that another order puts next is one that the sweep could place too, and the
sweep prefers the least.  So the two agree for a while, and where they part the sweep has the
lesser node.

The least order is one of a kind.  It therefore follows from which inputs the nodes have, and
not from how often they list them.
-/

namespace ModelGraph

namespace Graph

/-- An order of all nodes, each after its inputs. -/
structure IsOrder (g : Graph) (order : List NodeId) : Prop where
  /-- Every node is listed once. -/
  complete : order.Perm g.ids
  /-- Each node comes after its inputs. -/
  ordered : g.Ordered order.reverse

/-- Two lists of nodes are equal, or the first has the lesser number where they first differ. -/
def NotAfter (first second : List NodeId) : Prop :=
  first = second ∨ List.Lex (· < ·) first second

theorem NotAfter.cons
    {first second : List NodeId}
    (notAfter : NotAfter first second)
    (id : NodeId) :
    NotAfter (id :: first) (id :: second) :=
  notAfter.imp (congrArg (id :: ·)) .cons

theorem NotAfter.antisymm
    {first second : List NodeId}
    (notAfter : NotAfter first second)
    (notBefore : NotAfter second first) :
    first = second := by
  have asymmetric : ∀ {a b : NodeId}, a < b → ¬b < a := fun lesser => Nat.lt_asymm lesser
  rcases notAfter with same | lesser
  · exact same
  · exact notBefore.elim Eq.symm fun greater => absurd greater (List.lex_asymm asymmetric lesser)

theorem Ordered.of_dependsOn_iff
    {g g' : Graph} {placed : List NodeId}
    (ordered : g.Ordered placed)
    (depends : ∀ id input, g'.DependsOn id input ↔ g.DependsOn id input) :
    g'.Ordered placed := by
  induction placed with
  | nil => trivial
  | cons id earlier ih =>
      exact ⟨fun input step => ordered.1 input ((depends id input).mp step), ih ordered.2⟩

/-- What an order is follows from which inputs the nodes have. -/
theorem isOrder_congr
    {g g' : Graph} {order : List NodeId}
    (size : g'.size = g.size)
    (depends : ∀ id input, g'.DependsOn id input ↔ g.DependsOn id input) :
    g'.IsOrder order ↔ g.IsOrder order := by
  have sameIds : g'.ids = g.ids := by
    unfold ids
    rw [size]
  constructor
  · rintro ⟨complete, ordered⟩
    exact ⟨sameIds ▸ complete, ordered.of_dependsOn_iff fun id input => (depends id input).symm⟩
  · rintro ⟨complete, ordered⟩
    exact ⟨sameIds ▸ complete, ordered.of_dependsOn_iff depends⟩

/-! ## One step of the sweep -/

section Step

variable {g : Graph} {s : Sweep} {id : NodeId}

/-- Where some node could go next, that node or a lesser one does. -/
theorem exists_nextNode?_le
    (inside : id.index < g.size)
    (ready : s.waitsFor? id = some 0) :
    ∃ least, g.nextNode? s = some least ∧ (least = id ∨ least < id) := by
  have present := (mem_ids g id).mpr inside
  cases next : g.nextNode? s with
  | none =>
      have passedOver := List.find?_eq_none.mp next id present
      simp [ready] at passedOver
  | some least =>
      obtain ⟨_, before, after, split, passedOver⟩ := List.find?_eq_some_iff_append.mp next
      have ascending := g.pairwise_ids
      rw [split] at present ascending
      refine ⟨least, rfl, ?_⟩
      rcases List.mem_append.mp present with isBefore | isAfter
      · have notReady := passedOver id isBefore
        simp [ready] at notReady
      · rcases List.mem_cons.mp isAfter with same | later
        · exact .inl same.symm
        · exact .inr ((List.pairwise_cons.mp (List.pairwise_append.mp ascending).2.1).1 id later)

/-- A node that uses the node that goes next waits for it. -/
theorem Sweep.Valid.exists_waitsFor?
    {user : NodeId}
    (valid : s.Valid g)
    (next : g.nextNode? s = some id)
    (depends : g.DependsOn user id) :
    ∃ left, s.waitsFor? user = some (left + 1) ∧ (g.place s id).waitsFor? user = some left := by
  obtain ⟨_, absent, _⟩ := valid.nextNode next
  have unplaced : user ∉ s.placed := fun present =>
    absent (valid.ordered.mem_of_reaches present (.single depends))
  obtain ⟨node, found⟩ := exists_node depends.index_lt
  have waited : id ∈ unplacedInputs node s.placed :=
    (mem_unplacedInputs node s.placed id).mpr ⟨(dependsOn_iff found id).mp depends, absent⟩
  obtain ⟨left, counted⟩ := Nat.exists_eq_add_of_lt (List.length_pos_of_mem waited)
  have waits : s.waitsFor? user = some (left + 1) := by
    rw [valid.waitsFor user node found, if_neg unplaced, counted, Nat.zero_add]
  refine ⟨left, waits, ?_⟩
  have notSelf : user ≠ id := fun same =>
    absent ((valid.nextNode next).2.2 id (same ▸ depends))
  have used : g.uses user id = true := by
    rw [uses_eq found]
    exact decide_eq_true ((dependsOn_iff found id).mp depends)
  rw [waitsFor?_place valid.size_waiting id depends.index_lt, if_neg notSelf, if_pos used, waits]
  rfl

end Step

/-! ## The whole sweep -/

/-- A sweep goes on from what was placed. -/
theorem exists_later (g : Graph) (limit : Nat) (s : Sweep) :
    ∃ later : List NodeId, (g.sweep limit s).placed = later.reverse ++ s.placed := by
  induction limit generalizing s with
  | zero => exact ⟨[], rfl⟩
  | succ limit ih =>
      cases next : g.nextNode? s with
      | none => exact ⟨[], by simp [sweep, next]⟩
      | some id =>
          obtain ⟨later, placed⟩ := ih (g.place s id)
          exact ⟨id :: later, by simp [sweep_of_nextNode?_eq_some next, placed]⟩

/-- However an order goes on from what was placed, the sweep does not go on after it.  By
induction on what is left of that order. -/
theorem Sweep.Valid.exists_later_notAfter
    {g : Graph} {s : Sweep} {rest : List NodeId}
    (valid : s.Valid g)
    (complete : (rest.reverse ++ s.placed).Perm g.ids)
    (ordered : g.Ordered (rest.reverse ++ s.placed)) :
    ∃ later, (g.sweep rest.length s).placed = later.reverse ++ s.placed ∧
      NotAfter later rest := by
  induction rest generalizing s with
  | nil => exact ⟨[], rfl, .inl rfl⟩
  | cons id rest ih =>
      rw [List.reverse_cons, List.append_assoc, List.singleton_append] at complete ordered
      have inside : id.index < g.size :=
        (mem_ids g id).mp (complete.mem_iff.mp (List.mem_append_right _ List.mem_cons_self))
      have nodup := (List.nodup_append.mp (complete.nodup_iff.mpr g.nodup_ids)).2.1
      have ready : s.waitsFor? id = some 0 :=
        valid.ready inside (List.nodup_cons.mp nodup).1 ordered.of_append.1
      obtain ⟨least, next, same | lesser⟩ := exists_nextNode?_le inside ready
      · subst same
        obtain ⟨later, placed, notAfter⟩ := ih (valid.place next) complete ordered
        refine ⟨least :: later, ?_, notAfter.cons least⟩
        simp [sweep_of_nextNode?_eq_some next, placed]
      · obtain ⟨later, placed⟩ := g.exists_later rest.length (g.place s least)
        refine ⟨least :: later, ?_, .inr (.rel lesser)⟩
        simp [sweep_of_nextNode?_eq_some next, placed]

section Returned

variable {g : Graph} {order other : List NodeId}

theorem isOrder_of_topologicalOrder (returned : g.topologicalOrder = .ok order) :
    g.IsOrder order :=
  ⟨(topologicalOrder_spec returned).1, (topologicalOrder_spec returned).2⟩

/-- No order comes before the one that is returned. -/
theorem notAfter_of_isOrder
    (returned : g.topologicalOrder = .ok order)
    (isOrder : g.IsOrder other) :
    NotAfter order other := by
  have complete : (other.reverse ++ g.startSweep.placed).Perm g.ids := by
    simpa [startSweep] using isOrder.complete
  have ordered : g.Ordered (other.reverse ++ g.startSweep.placed) := by
    simpa [startSweep] using isOrder.ordered
  have length : other.length = g.size := isOrder.complete.length_eq.trans g.length_ids
  obtain ⟨later, placed, notAfter⟩ :=
    g.startSweep_valid.exists_later_notAfter complete ordered
  rw [length] at placed
  obtain ⟨-, rfl⟩ := topologicalOrder_eq_ok_iff.mp returned
  have whole : (g.sweep g.size g.startSweep).placed.reverse = later := by
    rw [placed]
    simp [startSweep]
  exact whole ▸ notAfter

end Returned

/-- A graph without cycles whose inputs exist has an order that is returned. -/
theorem exists_least_order
    {g : Graph}
    (inputsExist : g.InputsExist)
    (acyclic : g.Acyclic) :
    ∃ order, g.topologicalOrder = .ok order ∧ g.IsOrder order ∧
      ∀ other, g.IsOrder other → NotAfter order other := by
  obtain ⟨order, returned⟩ := exists_order_of_acyclic inputsExist acyclic
  exact ⟨order, returned, isOrder_of_topologicalOrder returned,
    fun _ => notAfter_of_isOrder returned⟩

/-- Graphs whose nodes have the same inputs have the same order, however often the nodes list
their inputs. -/
theorem topologicalOrder_eq_of_dependsOn_iff
    {g g' : Graph} {order : List NodeId}
    (inputsExist : g.InputsExist)
    (acyclic : g.Acyclic)
    (size : g'.size = g.size)
    (depends : ∀ id input, g'.DependsOn id input ↔ g.DependsOn id input)
    (returned : g.topologicalOrder = .ok order) :
    g'.topologicalOrder = .ok order := by
  have sameRelation : g'.DependsOn = g.DependsOn := by
    funext id input
    exact propext (depends id input)
  have inputsExist' : g'.InputsExist := fun id input step =>
    size ▸ inputsExist id input ((depends id input).mp step)
  have acyclic' : g'.Acyclic := by
    unfold Acyclic Above
    rw [sameRelation]
    exact acyclic
  obtain ⟨order', returned', isOrder', least'⟩ := exists_least_order inputsExist' acyclic'
  have isOrder := isOrder_of_topologicalOrder returned
  have notAfter := notAfter_of_isOrder returned ((isOrder_congr size depends).mp isOrder')
  have notBefore := least' order ((isOrder_congr size depends).mpr isOrder)
  rw [returned', notAfter.antisymm notBefore]

/-- A graph without cycles whose inputs exist is ordered.  The order lists every node once and
each after its inputs, and it is the least such order.  It is that of every graph whose nodes
have the same inputs, however often they list them.  While it is made, a node that uses the
node that goes next waits for one input at least, and from then on for one less. -/
theorem topologicalOrder_is_least
    {g : Graph}
    (inputsExist : g.InputsExist)
    (acyclic : g.Acyclic) :
    (∃ order, g.topologicalOrder = .ok order ∧
        order.Perm g.ids ∧ g.Ordered order.reverse ∧
        (∀ other, g.IsOrder other → order = other ∨ List.Lex (· < ·) order other) ∧
        ∀ g' : Graph, g'.size = g.size →
          (∀ id input, g'.DependsOn id input ↔ g.DependsOn id input) →
            g'.topologicalOrder = .ok order) ∧
      ∀ steps id user, g.nextNode? (g.sweep steps g.startSweep) = some id →
        g.DependsOn user id →
          ∃ left, (g.sweep steps g.startSweep).waitsFor? user = some (left + 1) ∧
            (g.place (g.sweep steps g.startSweep) id).waitsFor? user = some left := by
  constructor
  · obtain ⟨order, returned, isOrder, least⟩ := exists_least_order inputsExist acyclic
    refine ⟨order, returned, isOrder.complete, isOrder.ordered, least, ?_⟩
    intro g' size depends
    exact topologicalOrder_eq_of_dependsOn_iff inputsExist acyclic size depends returned
  · intro steps id user next depends
    exact (g.startSweep_valid.sweep steps).exists_waitsFor? next depends

/-- The square of a number that stands behind it, and another number with its negation. -/
def squareFirst : Graph :=
  ⟨#[.operator (.binary .multiplication ⟨3⟩ ⟨3⟩), .constant (.natural 1),
    .operator (.unary .negate ⟨1⟩), .constant (.natural 2)]⟩

/-- The least number that waits for nothing goes first, and the square waits once. -/
theorem topologicalOrder_is_least_squareFirst :
    squareFirst.InputsExist ∧ squareFirst.Acyclic ∧
      squareFirst.topologicalOrder = .ok [⟨1⟩, ⟨2⟩, ⟨3⟩, ⟨0⟩] ∧
      (∀ other, squareFirst.IsOrder other →
        [⟨1⟩, ⟨2⟩, ⟨3⟩, ⟨0⟩] = other ∨ List.Lex (· < ·) [⟨1⟩, ⟨2⟩, ⟨3⟩, ⟨0⟩] other) ∧
      ∃ left, (squareFirst.sweep 2 squareFirst.startSweep).waitsFor? ⟨0⟩ = some (left + 1) ∧
        (squareFirst.place (squareFirst.sweep 2 squareFirst.startSweep) ⟨3⟩).waitsFor? ⟨0⟩ =
          some left := by
  have returned : squareFirst.topologicalOrder = .ok [⟨1⟩, ⟨2⟩, ⟨3⟩, ⟨0⟩] := by
    decide +kernel
  have inputsExist : squareFirst.InputsExist := inputsExist_iff.mpr (by decide)
  have acyclic : squareFirst.Acyclic := acyclic_of_topologicalOrder returned
  have next : squareFirst.nextNode? (squareFirst.sweep 2 squareFirst.startSweep) = some ⟨3⟩ := by
    decide +kernel
  obtain ⟨⟨order, returned', _, _, least, _⟩, counts⟩ :=
    topologicalOrder_is_least inputsExist acyclic
  cases returned.symm.trans returned'
  exact ⟨inputsExist, acyclic, returned, least,
    counts 2 ⟨3⟩ ⟨0⟩ next ⟨_, rfl, List.mem_cons_self⟩⟩

end Graph

end ModelGraph

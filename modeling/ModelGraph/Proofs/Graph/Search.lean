import ModelGraph.Proofs.Graph.Dependence

/-!
# Correctness of the search for a node

The search keeps a stack of nodes to look at and a list of nodes it has not entered.  Its
invariant is that the inputs of every entered node are entered or on the stack, and that
the target was not entered.  Hence an entered node can lead to the target only by way of
the stack, and may be skipped when it comes up again.  The result is that the search answers
for every node of a graph whose inputs exist, and answers rightly.
-/

namespace ModelGraph

namespace Graph

/-- What holds while a search runs: a node that has been entered is not the target, and each
of its inputs has been entered or will be looked at. -/
def Explored (g : Graph) (target : NodeId) (unseen stack : List NodeId) : Prop :=
  ∀ entered, entered.index < g.size → entered ∉ unseen →
    entered ≠ target ∧
      ∀ input, g.DependsOn entered input → input ∈ stack ∨ input ∉ unseen

theorem explored_ids
    (g : Graph) (target : NodeId) (stack : List NodeId) :
    g.Explored target g.ids stack := by
  intro entered inside absent
  exact absurd ((mem_ids g entered).mpr inside) absent

/-- A path that starts in an entered node leads to the target only by way of the stack. -/
theorem Explored.reaches_from_stack
    {g : Graph} {target entered : NodeId} {unseen stack : List NodeId}
    (inputsExist : g.InputsExist)
    (explored : g.Explored target unseen stack)
    (inside : entered.index < g.size)
    (absent : entered ∉ unseen)
    (reaches : g.Reaches entered target) :
    ∃ id ∈ stack, g.Reaches id target := by
  induction reaches using Relation.ReflTransGen.head_induction_on with
  | refl => exact absurd rfl (explored target inside absent).1
  | head step path ih =>
      rcases (explored _ inside absent).2 _ step with waiting | entered
      · exact ⟨_, waiting, path⟩
      · exact ih (inputsExist _ _ step) entered

/-- Entering the node on top of the stack keeps the invariant. -/
theorem Explored.enter
    {g : Graph} {target id : NodeId} {node : Node} {unseen stack : List NodeId}
    (nodup : unseen.Nodup)
    (explored : g.Explored target unseen (id :: stack))
    (found : g.node id = .ok node)
    (different : id ≠ target) :
    g.Explored target (unseen.erase id) (node.inputs.reverse ++ stack) := by
  intro entered inside absent
  by_cases here : entered = id
  · subst here
    refine ⟨different, fun input depends => .inl ?_⟩
    have present := (dependsOn_iff found input).mp depends
    simp [present]
  · have before : entered ∉ unseen := fun present =>
      absent ((nodup.mem_erase_iff).mpr ⟨here, present⟩)
    obtain ⟨notTarget, inputs⟩ := explored entered inside before
    refine ⟨notTarget, fun input depends => ?_⟩
    rcases inputs input depends with waiting | alreadyEntered
    · rcases List.mem_cons.mp waiting with rfl | waiting
      · exact .inr (nodup.not_mem_erase)
      · exact .inl (List.mem_append_right _ waiting)
    · exact .inr fun present => alreadyEntered (List.mem_of_mem_erase present)

/-- Dropping a node that was entered before keeps the invariant. -/
theorem Explored.skip
    {g : Graph} {target id : NodeId} {unseen stack : List NodeId}
    (explored : g.Explored target unseen (id :: stack))
    (seen : id ∉ unseen) :
    g.Explored target unseen stack := by
  intro entered inside absent
  obtain ⟨notTarget, inputs⟩ := explored entered inside absent
  refine ⟨notTarget, fun input depends => ?_⟩
  rcases inputs input depends with waiting | alreadyEntered
  · rcases List.mem_cons.mp waiting with rfl | waiting
    · exact .inr seen
    · exact .inl waiting
  · exact .inr alreadyEntered

/-- A search that keeps its invariant says whether a node of the stack leads to the
target. -/
theorem search_eq_ok
    {g : Graph}
    (inputsExist : g.InputsExist)
    (target : NodeId)
    (unseen stack : List NodeId)
    (nodup : unseen.Nodup)
    (inside : ∀ id ∈ stack, id.index < g.size)
    (explored : g.Explored target unseen stack) :
    ∃ answer, g.search target unseen stack = .ok answer ∧
      (answer = true ↔ ∃ id ∈ stack, g.Reaches id target) := by
  fun_induction search g target unseen stack with
  | case1 unseen => exact ⟨false, rfl, by simp⟩
  | case2 unseen stack =>
      exact ⟨true, rfl, by simpa using .inl Relation.ReflTransGen.refl⟩
  | case3 unseen id stack different e missing =>
      obtain ⟨node, found⟩ := exists_node (inside id List.mem_cons_self)
      rw [found] at missing
      cases missing
  | case4 unseen id stack different node found fresh ih =>
      have stackInside : ∀ lower ∈ node.inputs.reverse ++ stack, lower.index < g.size := by
        intro lower present
        rcases List.mem_append.mp present with input | below
        · exact inputsExist id lower
            ((dependsOn_iff found lower).mpr (List.mem_reverse.mp input))
        · exact inside lower (List.mem_cons_of_mem _ below)
      obtain ⟨answer, answered, correct⟩ :=
        ih (nodup.erase id) stackInside (explored.enter nodup found different)
      refine ⟨answer, answered, correct.trans ?_⟩
      constructor
      · rintro ⟨lower, present, path⟩
        rcases List.mem_append.mp present with input | below
        · have step := (dependsOn_iff found lower).mpr (List.mem_reverse.mp input)
          exact ⟨id, List.mem_cons_self, path.head step⟩
        · exact ⟨lower, List.mem_cons_of_mem _ below, path⟩
      · rintro ⟨upper, present, path⟩
        rcases List.mem_cons.mp present with rfl | below
        · rcases Relation.ReflTransGen.cases_head path with equal | ⟨lower, step, path⟩
          · exact absurd equal different
          · have input := (dependsOn_iff found lower).mp step
            exact ⟨lower, by simp [input], path⟩
        · exact ⟨upper, List.mem_append_right _ below, path⟩
  | case5 unseen id stack different node found seen ih =>
      obtain ⟨answer, answered, correct⟩ :=
        ih nodup (fun lower below => inside lower (List.mem_cons_of_mem _ below))
          (explored.skip seen)
      refine ⟨answer, answered, correct.trans ?_⟩
      constructor
      · rintro ⟨lower, below, path⟩
        exact ⟨lower, List.mem_cons_of_mem _ below, path⟩
      · rintro ⟨upper, present, path⟩
        rcases List.mem_cons.mp present with rfl | below
        · exact (explored.skip seen).reaches_from_stack inputsExist
            (inside upper List.mem_cons_self) seen path
        · exact ⟨upper, below, path⟩

/-- In a graph whose inputs exist, asking whether a node reaches another gives the right
answer. -/
theorem reaches_eq_ok
    {g : Graph} {start : NodeId}
    (inputsExist : g.InputsExist)
    (inside : start.index < g.size)
    (target : NodeId) :
    ∃ answer, g.reaches start target = .ok answer ∧
      (answer = true ↔ g.Reaches start target) := by
  obtain ⟨answer, answered, correct⟩ :=
    search_eq_ok inputsExist target g.ids [start] g.nodup_ids
      (by simpa using inside) (g.explored_ids target [start])
  exact ⟨answer, answered, by simpa using correct⟩

/-- A search that finds nothing shows that there is no path. -/
theorem not_reaches_of_eq_ok_false
    {g : Graph} {start target : NodeId}
    (inputsExist : g.InputsExist)
    (inside : start.index < g.size)
    (answered : g.reaches start target = .ok false) :
    ¬g.Reaches start target := by
  intro path
  obtain ⟨answer, answered', correct⟩ := reaches_eq_ok inputsExist inside target
  rw [answered] at answered'
  cases answered'
  exact Bool.false_ne_true (correct.mpr path)

/-- A search answers for any nodes whose inputs are among them, also where nodes depend on
themselves.  It finds a node just where the node is the start or a path of inputs leads down to
it. -/
theorem search_finds_paths
    {g : Graph} {start : NodeId}
    (inRange : ∀ node ∈ g.nodes.toList, ∀ input ∈ node.inputs, input.index < g.size)
    (inside : start.index < g.size)
    (target : NodeId) :
    ∃ answer, g.reaches start target = .ok answer ∧
      (answer = true ↔ target = start ∨ g.Above start target) := by
  obtain ⟨answer, answered, correct⟩ :=
    reaches_eq_ok (inputsExist_iff.mpr inRange) inside target
  exact ⟨answer, answered, correct.trans Relation.reflTransGen_iff_eq_or_transGen⟩

/-- Two operators that are inputs of each other, and a constant that neither of them needs. -/
def knot : Graph where
  nodes :=
    #[.operator (.unary .exp ⟨1⟩), .operator (.unary .negate ⟨0⟩), .constant (.natural 0)]

/-- The search goes around the knot, does not find the constant and ends. -/
theorem search_finds_paths_knot :
    knot.Above ⟨0⟩ ⟨0⟩ ∧ knot.reaches ⟨0⟩ ⟨2⟩ = .ok false := by
  have inRange : ∀ node ∈ knot.nodes.toList, ∀ input ∈ node.inputs, input.index < knot.size := by
    decide
  have around : knot.Above ⟨0⟩ ⟨0⟩ :=
    .tail (.single ⟨_, rfl, List.mem_singleton_self _⟩) ⟨_, rfl, List.mem_singleton_self _⟩
  -- a step from an operator leads to the other operator
  have step : ∀ id input, id.index < 2 → knot.DependsOn id input → input.index < 2 := by
    rintro ⟨id⟩ input low ⟨node, found, used⟩
    match id, low with
    | 0, _ | 1, _ =>
        cases found
        cases List.mem_singleton.mp used
        decide
  have below : ∀ id, knot.Above ⟨0⟩ id → id.index < 2 := by
    intro id path
    induction path with
    | single first => exact step _ _ (by decide) first
    | tail _ last ih => exact step _ _ ih last
  obtain ⟨answer, answered, correct⟩ :=
    search_finds_paths inRange (show (⟨0⟩ : NodeId).index < knot.size by decide) ⟨2⟩
  cases answer with
  | false => exact ⟨around, answered⟩
  | true =>
      rcases correct.mp rfl with same | path
      · cases same
      · exact absurd (below _ path) (by decide)

end Graph

end ModelGraph

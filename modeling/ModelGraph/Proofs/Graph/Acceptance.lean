import ModelGraph.Proofs.Graph.Cycles
import ModelGraph.Proofs.Graph.Descent
import ModelGraph.Proofs.Graph.Edges

/-!
# Construction and loading accept the same graphs

A graph can be built node by node, changed input by input, or loaded as a whole.  Loading
checks every node of the list and places all of them in order; adding a node checks that node
alone, and giving a node another input checks that node and searches for a path back.  The
main result is that these tests decide the same question: whether the nodes make a
well-formed graph.

One half rests on the sweep for an order, which cannot get stuck in a graph without cycles.
The other half reads the tests of a single change off the well-formedness of its outcome.
-/

namespace ModelGraph

namespace Graph

/-! ## The sweep of a well-formed graph places every node -/

/-- A well-formed graph can be ordered. -/
theorem WellFormed.exists_order
    {g : Graph}
    (wellFormed : g.WellFormed) :
    ∃ order, g.topologicalOrder = .ok order :=
  exists_order_of_acyclic wellFormed.inputsExist wellFormed.acyclic

/-- Loading accepts a list of nodes exactly if they make a well-formed graph. -/
theorem ofNodes_eq_ok_iff_wellFormed {g : Graph} {nodes : List Node} :
    ofNodes nodes = .ok g ↔ g = ⟨nodes.toArray⟩ ∧ g.WellFormed := by
  constructor
  · intro loaded
    exact ⟨(ofNodes_eq_ok_iff.mp loaded).1, wellFormed_of_ofNodes loaded⟩
  · rintro ⟨rfl, wellFormed⟩
    refine ofNodes_eq_ok_iff.mpr ⟨rfl, fun node present => ?_, wellFormed.exists_order⟩
    obtain ⟨i, place⟩ := List.mem_iff_getElem?.mp present
    apply wellFormed.admits ⟨i⟩
    rw [node_eq_ok_iff, List.getElem?_toArray]
    exact place

theorem reachable_of_ofNodes
    {g : Graph} {nodes : List Node}
    (loaded : ofNodes nodes = .ok g) :
    g.Reachable :=
  ⟨[.load nodes], by simp [edits, edit, request, loaded]⟩

/-- A graph whose nodes pass all checks and can be ordered is one that can be loaded. -/
theorem reachable_of_check
    {g : Graph} {order : List NodeId}
    (passes : g.nodes.toList.forM g.check = .ok ())
    (ordered : g.topologicalOrder = .ok order) :
    g.Reachable := by
  apply reachable_of_ofNodes
  refine ofNodes_eq_ok_iff.mpr ⟨rfl, fun node present => ?_, order, ordered⟩
  exact check_eq_ok_iff.mp (Outcome.forM_eq_ok_iff.mp passes node present)

/-- Well-formedness is all that histories have in common. -/
theorem reachable_iff_wellFormed {g : Graph} : g.Reachable ↔ g.WellFormed := by
  constructor
  · exact Reachable.wellFormed
  · intro wellFormed
    exact reachable_of_ofNodes (ofNodes_eq_ok_iff_wellFormed.mpr ⟨rfl, wellFormed⟩)

/-! ## Adding a node -/

/-- A node that is the last of a well-formed graph may be added to the nodes before it.  It is
not among its own inputs, as it would then depend on itself. -/
theorem WellFormed.admits_of_push
    {g : Graph} {added : Node}
    (wellFormed : (Graph.mk (g.nodes.push added)).WellFormed) :
    g.Admits added := by
  have isLast : (Graph.mk (g.nodes.push added)).node ⟨g.size⟩ = .ok added := by
    rw [node_push, if_pos rfl]
  apply (wellFormed.admits _ added isLast).of_inputs
  intro input present used found
  have notLast : input.index ≠ g.size := by
    intro last
    obtain rfl : input = ⟨g.size⟩ := congrArg NodeId.mk last
    exact wellFormed.acyclic _ (.single ⟨added, isLast, present⟩)
  rw [node_push, if_neg notLast] at found
  exact ⟨used, found, .refl used⟩

/-- Adding a node succeeds exactly if the longer list of nodes would be loaded. -/
theorem extend_eq_ok_iff_ofNodes
    {g g' : Graph}
    (wellFormed : g.WellFormed)
    (node : Node) :
    g.extend node = .ok g' ↔ ofNodes (g.nodes.toList ++ [node]) = .ok g' := by
  have sameList : (g.nodes.toList ++ [node]).toArray = g.nodes.push node := by
    rw [← List.push_toArray, Array.toArray_toList]
  rw [extend_eq_ok_iff, ofNodes_eq_ok_iff_wellFormed, sameList]
  constructor
  · rintro ⟨admitted, rfl⟩
    exact ⟨rfl, wellFormed.push admitted⟩
  · rintro ⟨rfl, longer⟩
    exact ⟨longer.admits_of_push, rfl⟩

/-! ## Replacing an input -/

/-- A path that ends at the changed node makes no use of its edges. -/
theorem Reaches.replace
    {g : Graph} {start id : NodeId}
    (path : g.Reaches start id)
    (node : Node) :
    (g.replace id node).Reaches start id := by
  induction path using Relation.ReflTransGen.head_induction_on with
  | refl => exact .refl
  | @head upper lower step _ ih =>
      by_cases here : upper = id
      · subst here
        exact .refl
      · obtain ⟨used, found, present⟩ := step
        refine ih.head ⟨used, ?_, present⟩
        rw [node_replace, if_neg fun same => here same.1]
        exact found

section Replace

variable {g : Graph} {id input : NodeId} {node : Node} {position : Nat}

/-- A node has the input that it was given. -/
theorem dependsOn_replace_withInput
    (found : g.node id = .ok node)
    (there : position < node.inputs.length)
    (input : NodeId) :
    (g.replace id (node.withInput position input)).DependsOn id input := by
  refine ⟨node.withInput position input, ?_, ?_⟩
  · rw [node_replace, if_pos ⟨rfl, index_lt_of_node_eq_ok found⟩]
  · rw [Node.inputs_withInput]
    exact List.mem_set there input

/-- If a graph without cycles results, then the new input did not lead to the node. -/
theorem not_reaches_of_replace_withInput
    (found : g.node id = .ok node)
    (there : position < node.inputs.length)
    (acyclic : (g.replace id (node.withInput position input)).Acyclic) :
    ¬g.Reaches input id := by
  intro path
  have first := dependsOn_replace_withInput found there input
  exact acyclic id (Relation.TransGen.head' first (path.replace _))

/-- If a well-formed graph results, then the graph before admitted the changed node. -/
theorem admits_of_replace
    {changed : Node}
    (found : g.node id = .ok node)
    (same : node.SameSort changed)
    (wellFormed : (g.replace id changed).WellFormed) :
    g.Admits changed := by
  have isChanged : (g.replace id changed).node id = .ok changed := by
    rw [node_replace, if_pos ⟨rfl, index_lt_of_node_eq_ok found⟩]
  apply (wellFormed.admits id changed isChanged).of_retains
  intro other used foundUsed
  rw [node_replace] at foundUsed
  split at foundUsed
  · next here =>
      cases foundUsed
      exact ⟨node, here.1 ▸ found, same.symm⟩
  · exact ⟨used, foundUsed, .refl used⟩

/-- Giving a node another input succeeds exactly if a well-formed graph results. -/
theorem setInput_eq_ok_iff_wellFormed
    {g' : Graph} {edge : String}
    (wellFormed : g.WellFormed)
    (found : g.node id = .ok node)
    (inside : input.index < g.size)
    (place : node.position? edge = some position) :
    g.setInput id edge input = .ok g' ↔
      g' = g.replace id (node.withInput position input) ∧ g'.WellFormed := by
  constructor
  · intro changed
    refine ⟨?_, wellFormed.setInput changed⟩
    obtain ⟨_, _, node', position', found', place', _, rfl⟩ := setInput_eq_ok_iff.mp changed
    cases found.symm.trans found'
    cases place.symm.trans place'
    rfl
  · rintro ⟨rfl, changed⟩
    have there := Node.lt_length_of_position?_eq_some place
    have apart := not_reaches_of_replace_withInput found there changed.acyclic
    have admitted := admits_of_replace found (node.sameSort_withInput position input) changed
    obtain ⟨answer, answered, correct⟩ := reaches_eq_ok wellFormed.inputsExist inside id
    cases answer with
    | true => exact absurd (correct.mp rfl) apart
    | false =>
        exact setInput_eq_ok_iff.mpr
          ⟨inside, answered, node, position, found, place, admitted, rfl⟩

/-- Giving a node another input succeeds exactly if the changed list of nodes would be
loaded. -/
theorem setInput_eq_ok_iff_ofNodes
    {g' : Graph} {edge : String}
    (wellFormed : g.WellFormed)
    (found : g.node id = .ok node)
    (inside : input.index < g.size)
    (place : node.position? edge = some position) :
    g.setInput id edge input = .ok g' ↔
      ofNodes (g.nodes.toList.set id.index (node.withInput position input)) = .ok g' := by
  have sameList : (g.nodes.toList.set id.index (node.withInput position input)).toArray =
      g.nodes.setIfInBounds id.index (node.withInput position input) := by
    rw [← Array.toList_setIfInBounds, Array.toArray_toList]
  rw [setInput_eq_ok_iff_wellFormed wellFormed found inside place,
    ofNodes_eq_ok_iff_wellFormed, sameList]
  rfl

end Replace

/-! ## The same graphs -/

/-- Adding a node and giving a node another input succeed exactly where loading the resulting
list of nodes does, and then with the same graph.  In particular, no other input is refused if
the graph stays well formed. -/
theorem construction_agrees_with_loading
    {g : Graph}
    (reachable : g.Reachable) :
    (∀ node g', g.extend node = .ok g' ↔ ofNodes (g.nodes.toList ++ [node]) = .ok g') ∧
    ∀ id edge input node position,
      g.node id = .ok node → input.index < g.size → node.position? edge = some position →
        (∀ g', g.setInput id edge input = .ok g' ↔
          ofNodes (g.nodes.toList.set id.index (node.withInput position input)) = .ok g') ∧
        ((g.replace id (node.withInput position input)).WellFormed →
          g.setInput id edge input = .ok (g.replace id (node.withInput position input))) := by
  have wellFormed := reachable.wellFormed
  constructor
  · intro node g'
    exact extend_eq_ok_iff_ofNodes wellFormed node
  · intro id edge input node position found inside place
    constructor
    · intro g'
      exact setInput_eq_ok_iff_ofNodes wellFormed found inside place
    · intro changed
      exact (setInput_eq_ok_iff_wellFormed wellFormed found inside place).mpr ⟨rfl, changed⟩

/-- A number and its negation, and another number. -/
def negatedNumber : Graph :=
  (∅ : Graph).edits
    [.addConstant (.natural 1), .addOperator (.unary .negate ⟨0⟩), .addConstant (.natural 2)]

/-- A node that would be its own input is refused; an input that stands later is not. -/
theorem construction_agrees_with_loading_negatedNumber :
    (∀ g', ofNodes (negatedNumber.nodes.toList ++ [.operator (.unary .exp ⟨3⟩)]) ≠ .ok g') ∧
      negatedNumber.setInput ⟨1⟩ "operand" ⟨2⟩ =
        .ok ⟨#[.constant (.natural 1), .operator (.unary .negate ⟨2⟩),
          .constant (.natural 2)]⟩ := by
  obtain ⟨adding, replacing⟩ := construction_agrees_with_loading (g := negatedNumber) ⟨_, rfl⟩
  constructor
  · intro g' loaded
    have refused : negatedNumber.extend (.operator (.unary .exp ⟨3⟩)) =
        .error (.unknownNode ⟨3⟩) := rfl
    cases refused.symm.trans ((adding _ g').mpr loaded)
  · have place : Node.position? (.operator (.unary .negate ⟨0⟩)) "operand" = some 0 := by
      decide +kernel
    have replaced := (replacing ⟨1⟩ "operand" ⟨2⟩ _ 0 rfl (by decide) place).1
    apply (replaced _).mpr
    apply ofNodes_eq_ok_iff.mpr
    refine ⟨rfl, ?_, [⟨0⟩, ⟨2⟩, ⟨1⟩], by decide +kernel⟩
    simp only [← check_eq_ok_iff]
    exact List.forall_iff_forall_mem.mp ⟨rfl, rfl, rfl⟩

end Graph

end ModelGraph

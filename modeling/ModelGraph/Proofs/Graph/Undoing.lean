import ModelGraph.Proofs.Graph.Acceptance

/-!
# Taking back a new input

What a node is apart from its inputs is its form.  A node is known by its form and its inputs
together, and giving it another input leaves its form alone.  So a node that is given its old
input again is the old node, and the graph is the old graph.  That the old input is not refused
is because the old graph was well formed.
-/

namespace ModelGraph

/-- What an operator is apart from its inputs. -/
inductive Operator.Form where
  | ifThenElse
  | binary (op : BinaryOp)
  | unary (op : UnaryOp)
  | sample

/-- What a node is apart from its inputs. -/
inductive Node.Form where
  | constant (value : Value)
  /-- A family, whether log-odds are given where the family allows both, and whether the types
  are fixed. -/
  | distribution (family : Family) (logits? : Option Bool) (typesFixed : Bool)
  | operator (form : Operator.Form)
  | map (length : Nat)
  | observation (value : Value)
  | query

/-- Parameters are known by their family, their use of log-odds and their inputs. -/
theorem Parameters.eq_of_inputs_eq
    {p q : Parameters}
    (family : p.family = q.family)
    (logits : p.logits? = q.logits?)
    (inputs : p.inputs = q.inputs) :
    p = q := by
  cases p <;> cases q <;> cases family <;> simp_all [Parameters.inputs, Parameters.logits?]

/-- What an operator is apart from its inputs. -/
def Operator.form : Operator → Operator.Form
  | .ifThenElse .. => .ifThenElse
  | .binary op .. => .binary op
  | .unary op _ => .unary op
  | .sample _ => .sample

/-- Operators are known by their form and their inputs. -/
theorem Operator.eq_of_inputs_eq
    {a b : Operator}
    (form : a.form = b.form)
    (inputs : a.inputs = b.inputs) :
    a = b := by
  cases a <;> cases b <;> cases form <;> simp_all [Operator.inputs]

namespace Node

/-- What a node is apart from its inputs. -/
def form : Node → Form
  | .constant value => .constant value
  | .distribution d => .distribution d.family d.parameters.logits? d.typesFixed
  | .operator op => .operator op.form
  | .map entries => .map entries.length
  | .observation _ value => .observation value
  | .query _ => .query

theorem entries_eq_of_flatMap_eq
    {entries entries' : List (NodeId × NodeId)}
    (same : entries.flatMap (fun entry => [entry.1, entry.2]) =
      entries'.flatMap fun entry => [entry.1, entry.2]) :
    entries = entries' := by
  induction entries generalizing entries' with
  | nil =>
      cases entries' with
      | nil => rfl
      | cons entry' rest' => cases same
  | cons entry rest ih =>
      cases entries' with
      | nil => cases same
      | cons entry' rest' =>
          simp only [List.flatMap_cons, List.cons_append, List.nil_append, List.cons.injEq] at same
          obtain ⟨key, value, later⟩ := same
          rw [ih later, Prod.ext key value]

/-- A node is known by its form and its inputs. -/
theorem eq_of_form_eq_of_inputs_eq
    {a b : Node}
    (form : a.form = b.form)
    (inputs : a.inputs = b.inputs) :
    a = b := by
  cases a <;> cases b <;>
    simp only [Node.form, Form.constant.injEq, Form.distribution.injEq, Form.operator.injEq,
      Form.map.injEq, Form.observation.injEq, reduceCtorEq] at form
  case constant.constant => rw [form]
  case distribution.distribution d d' =>
      obtain ⟨family, logits, typesFixed⟩ := form
      have parameters := Parameters.eq_of_inputs_eq family logits inputs
      rw [show d = d' from congr (congrArg Distribution.mk parameters) typesFixed]
  case operator.operator => rw [Operator.eq_of_inputs_eq form inputs]
  case map.map => rw [entries_eq_of_flatMap_eq inputs]
  case observation.observation => rw [form, List.singleton_inj.mp inputs]
  case query.query => rw [List.singleton_inj.mp inputs]

/-- Giving a node another input leaves its form alone. -/
theorem form_withInput (node : Node) (position : Nat) (input : NodeId) :
    (node.withInput position input).form = node.form := by
  cases node with
  | distribution d =>
      obtain ⟨parameters, typesFixed⟩ := d
      cases parameters <;> rfl
  | operator op => cases op <;> rfl
  | map entries => exact congrArg Form.map List.length_mapIdx
  | _ => rfl

/-- Giving a node another input leaves the names of its edges alone, and how they are read. -/
theorem position?_withInput (node : Node) (position : Nat) (input : NodeId) (edge : String) :
    (node.withInput position input).position? edge = node.position? edge := by
  cases node with
  | distribution d =>
      obtain ⟨parameters, typesFixed⟩ := d
      cases parameters <;> rfl
  | operator op => cases op <;> rfl
  | map entries =>
      change (Numeral.readSigned? edge.toList).filter _ = (Numeral.readSigned? edge.toList).filter _
      rw [List.length_mapIdx]
  | _ => rfl

/-- A node that is given its old input again is the old node. -/
theorem withInput_withInput
    {node : Node} {position : Nat} {old : NodeId}
    (used : node.inputs[position]? = some old)
    (new : NodeId) :
    (node.withInput position new).withInput position old = node := by
  apply eq_of_form_eq_of_inputs_eq
  · rw [form_withInput, form_withInput]
  · rw [inputs_withInput, inputs_withInput, List.set_set]
    obtain ⟨inside, rfl⟩ := List.getElem?_eq_some_iff.mp used
    exact List.set_getElem_self inside

end Node

namespace Graph

theorem replace_replace
    {g : Graph} {id : NodeId} {node : Node}
    (found : g.node id = .ok node)
    (changed : Node) :
    (g.replace id changed).replace id node = g := by
  obtain ⟨inside, rfl⟩ := Array.getElem?_eq_some_iff.mp (node_eq_ok_iff.mp found)
  unfold replace
  rw [Array.setIfInBounds_setIfInBounds]
  apply congrArg Graph.mk
  rw [← Array.toList_inj, Array.toList_setIfInBounds, ← Array.getElem_toList]
  exact List.set_getElem_self _

/-- A node that was given another input can be given its old input again, and then the graph is
the old one. -/
theorem setInput_old_input
    {g g' : Graph} {id : NodeId} {node : Node} {position : Nat} {edge : String}
    {old new : NodeId}
    (wellFormed : g.WellFormed)
    (found : g.node id = .ok node)
    (place : node.position? edge = some position)
    (used : node.inputs[position]? = some old)
    (changed : g.setInput id edge new = .ok g') :
    g'.setInput id edge old = .ok g := by
  have inside := index_lt_of_node_eq_ok found
  have wellFormed' := wellFormed.setInput changed
  obtain ⟨_, _, node₀, position₀, found₀, place₀, _, rfl⟩ := setInput_eq_ok_iff.mp changed
  obtain rfl : node₀ = node := Except.ok.inj (found₀.symm.trans found)
  obtain rfl : position₀ = position := Option.some.inj (place₀.symm.trans place)
  have isChanged : (g.replace id (node₀.withInput position₀ new)).node id =
      .ok (node₀.withInput position₀ new) := by
    rw [node_replace, if_pos ⟨rfl, inside⟩]
  have oldInside : old.index < (g.replace id (node₀.withInput position₀ new)).size := by
    rw [size_replace]
    exact wellFormed.inputsExist id old ⟨node₀, found, List.mem_of_getElem? used⟩
  -- as the old graph was well formed, the way back is open
  apply (setInput_eq_ok_iff_wellFormed wellFormed' isChanged oldInside
    ((node₀.position?_withInput position₀ new edge).trans place)).mpr
  rw [Node.withInput_withInput used, replace_replace found]
  exact ⟨rfl, wellFormed⟩

/-- A refused request for another input changes nothing.  A granted one changes the input at the
end of the edge and nothing else, neither in the node nor in other nodes, and is taken back by a
request for the old input. -/
theorem setInput_changes_one_input
    {g : Graph} {id : NodeId} {node : Node} {position : Nat} {edge : String} {old : NodeId}
    (reachable : g.Reachable)
    (found : g.node id = .ok node)
    (labelled : node.edges[position]? = some edge)
    (used : node.inputs[position]? = some old)
    (new : NodeId) :
    (∀ e, g.setInput id edge new = .error e → g.edit (.setInput id edge new) = g) ∧
    ∀ g', g.setInput id edge new = .ok g' →
      g'.size = g.size ∧
      (∀ other, other ≠ id → g'.node other = g.node other) ∧
      (∃ node', g'.node id = .ok node' ∧ node'.form = node.form ∧
        node'.inputs = node.inputs.set position new) ∧
      g'.setInput id edge old = .ok g := by
  have place := Node.position?_of_getElem?_edges labelled
  constructor
  · intro e refused
    simp only [edit, request, refused]
  · intro g' changed
    have back := setInput_old_input reachable.wellFormed found place used changed
    obtain ⟨_, _, node₀, position₀, found₀, place₀, _, rfl⟩ := setInput_eq_ok_iff.mp changed
    obtain rfl : node₀ = node := Except.ok.inj (found₀.symm.trans found)
    obtain rfl : position₀ = position := Option.some.inj (place₀.symm.trans place)
    refine ⟨size_replace _ _ _, ?_, ⟨node₀.withInput position₀ new, ?_, ?_, ?_⟩, back⟩
    · intro other different
      rw [node_replace, if_neg fun same => different same.1]
    · rw [node_replace, if_pos ⟨rfl, index_lt_of_node_eq_ok found⟩]
    · exact node₀.form_withInput position₀ new
    · exact node₀.inputs_withInput position₀ new

/-- The sum of a draw and its mean, and a mean that is not used yet. -/
def shiftedDraw : Graph :=
  (∅ : Graph).edits
    [.addConstant (.natural 2), .addConstant (.natural 1), .addDistribution (.normal ⟨0⟩ ⟨1⟩),
      .addOperator (.sample ⟨2⟩), .addOperator (.binary .addition ⟨3⟩ ⟨0⟩),
      .addConstant (.natural 3)]

/-- The mean of the draw is replaced by a constant that was added later.  The node of the
distribution stays one of the same kind, the sum keeps the old mean, and the request for the
old mean gives the old graph. -/
theorem setInput_changes_one_input_shiftedDraw :
    ∃ g', shiftedDraw.setInput ⟨2⟩ "mu" ⟨5⟩ = .ok g' ∧
      g'.node ⟨2⟩ = .ok (.distribution (.ofParameters (.normal ⟨5⟩ ⟨1⟩))) ∧
      g'.node ⟨4⟩ = shiftedDraw.node ⟨4⟩ ∧ g'.setInput ⟨2⟩ "mu" ⟨0⟩ = .ok shiftedDraw := by
  have reachable : shiftedDraw.Reachable := ⟨_, rfl⟩
  have isNormal : shiftedDraw.node ⟨2⟩ =
      .ok (.distribution (.ofParameters (.normal ⟨0⟩ ⟨1⟩))) := rfl
  have apart : ¬shiftedDraw.Reaches ⟨5⟩ ⟨2⟩ := by
    intro path
    have isConstant : shiftedDraw.node ⟨5⟩ = .ok (.constant (.natural 3)) := rfl
    cases eq_of_reaches isConstant rfl path
  have granted : shiftedDraw.setInput ⟨2⟩ "mu" ⟨5⟩ =
      .ok (shiftedDraw.replace ⟨2⟩ (.distribution (.ofParameters (.normal ⟨5⟩ ⟨1⟩)))) := by
    have place :
        Node.position? (.distribution (.ofParameters (.normal ⟨0⟩ ⟨1⟩))) "mu" = some 0 := by
      decide +kernel
    rw [setInput_eq reachable.wellFormed.inputsExist isNormal (by decide) apart, place]
    rfl
  have labelled : (Node.distribution (.ofParameters (.normal ⟨0⟩ ⟨1⟩))).edges[0]? = some "mu" := rfl
  obtain ⟨_, others, ⟨node', found', form, inputs⟩, back⟩ :=
    (setInput_changes_one_input reachable isNormal labelled rfl ⟨5⟩).2 _ granted
  refine ⟨_, granted, ?_, others ⟨4⟩ (by decide), back⟩
  rw [found']
  exact congrArg Except.ok (Node.eq_of_form_eq_of_inputs_eq form inputs)

end Graph

end ModelGraph

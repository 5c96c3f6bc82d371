import ModelGraph.Proofs.Graph.Order
import ModelGraph.Proofs.Graph.Search
import ModelGraph.Proofs.Graph.WellFormed

/-!
# Histories of graphs

A graph is built by requests that start from the graph without nodes: adding a node, giving
a node another input, fixing types, and putting a loaded graph in the place of the present
one.  A request may be refused, and then nothing changes.  Each request keeps a graph well
formed, and so every history leads to a well-formed graph.

Loading is why dependence cannot be read off the numbers of the nodes: the inputs of a
loaded node may come later in the list.
-/

namespace ModelGraph

/-- A request to change a graph. -/
inductive Edit where
  | addConstant (value : Value)
  | addDistribution (parameters : Parameters)
  | addOperator (op : Operator)
  | addMap (entries : List (NodeId × NodeId))
  | addObservation (observed : NodeId) (value : Value)
  | addQuery (queried : NodeId)
  | setInput (id : NodeId) (edge : String) (input : NodeId)
  | setTypesFixed (id : NodeId) (fixed : Bool)
  | fixAllTypes
  /-- Puts the graph of a list of nodes in the place of the present graph. -/
  | load (nodes : List Node)

namespace Graph

/-- Adds a node and forgets its number. -/
def extend (g : Graph) (node : Node) : Except Error Graph := do
  return (← g.insert node).2

/-- What a request makes of a graph, or why it is refused. -/
def request (g : Graph) : Edit → Except Error Graph
  | .addConstant value => g.extend (.constant value)
  | .addDistribution parameters => g.extend (.distribution (.ofParameters parameters))
  | .addOperator op => g.extend (.operator op)
  | .addMap entries => g.extend (.map entries)
  | .addObservation observed value => g.extend (.observation observed value)
  | .addQuery queried => g.extend (.query queried)
  | .setInput id edge input => g.setInput id edge input
  | .setTypesFixed id fixed => g.setTypesFixed id fixed
  | .fixAllTypes => return g.fixAllTypes
  | .load nodes => ofNodes nodes

/-- The graph after a request; a refused request changes nothing. -/
def edit (g : Graph) (e : Edit) : Graph :=
  match g.request e with
  | .ok g' => g'
  | .error _ => g

/-- The graph after a list of requests. -/
def edits (g : Graph) (history : List Edit) : Graph :=
  history.foldl edit g

/-- A graph that some list of requests builds from nothing. -/
def Reachable (g : Graph) : Prop :=
  ∃ history, (∅ : Graph).edits history = g

/-! ## What a request does -/

theorem insert_eq_ok_iff {g g' : Graph} {node : Node} {id : NodeId} :
    g.insert node = .ok (id, g') ↔
      g.Admits node ∧ id = ⟨g.size⟩ ∧ g' = ⟨g.nodes.push node⟩ := by
  unfold insert
  rw [Outcome.bind_eq_ok_iff, ← check_eq_ok_iff]
  constructor
  · rintro ⟨⟨⟩, passed, added⟩
    cases added
    exact ⟨passed, rfl, rfl⟩
  · rintro ⟨passed, rfl, rfl⟩
    exact ⟨(), passed, rfl⟩

theorem extend_eq_ok_iff {g g' : Graph} {node : Node} :
    g.extend node = .ok g' ↔ g.Admits node ∧ g' = ⟨g.nodes.push node⟩ := by
  unfold extend
  rw [Outcome.bind_eq_ok_iff]
  constructor
  · rintro ⟨⟨id, g''⟩, added, equal⟩
    cases equal
    obtain ⟨admitted, _, rfl⟩ := insert_eq_ok_iff.mp added
    exact ⟨admitted, rfl⟩
  · rintro ⟨admitted, rfl⟩
    exact ⟨_, insert_eq_ok_iff.mpr ⟨admitted, rfl, rfl⟩, rfl⟩

/-- An input is replaced if the new one exists and does not lead back, the edge is there, and
the graph admits the node with its new input. -/
theorem setInput_eq_ok_iff {g g' : Graph} {id input : NodeId} {edge : String} :
    g.setInput id edge input = .ok g' ↔
      input.index < g.size ∧ g.reaches input id = .ok false ∧
        ∃ node position, g.node id = .ok node ∧ node.position? edge = some position ∧
          g.Admits (node.withInput position input) ∧
            g' = g.replace id (node.withInput position input) := by
  unfold setInput
  constructor
  · intro changed
    obtain ⟨⟨⟩, inside, changed⟩ := Outcome.bind_eq_ok_iff.mp changed
    obtain ⟨back, reached, changed⟩ := Outcome.bind_eq_ok_iff.mp changed
    cases back with
    | true => simp at changed
    | false =>
        simp only [Bool.false_eq_true, if_false, Outcome.pure_eq, Node.rewire?_eq] at changed
        obtain ⟨node, found, changed⟩ := Outcome.bind_eq_ok_iff.mp changed
        cases place : node.position? edge with
        | none => simp [place] at changed
        | some position =>
            simp only [place, Option.map_some] at changed
            obtain ⟨⟨⟩, passed, changed⟩ := Outcome.bind_eq_ok_iff.mp changed
            cases changed
            exact ⟨require_eq_ok_iff.mp inside, reached, node, position, found, place,
              check_eq_ok_iff.mp passed, rfl⟩
  · rintro ⟨inside, reached, node, position, found, place, admitted, rfl⟩
    simp [require_eq_ok_iff.mpr inside, reached, found, Node.rewire?_eq, place,
      check_eq_ok_iff.mpr admitted]

theorem setTypesFixed_eq_ok_iff {g g' : Graph} {id : NodeId} {fixed : Bool} :
    g.setTypesFixed id fixed = .ok g' ↔
      ∃ d, g.node id = .ok (.distribution d) ∧
        g' = g.replace id (.distribution { d with typesFixed := fixed }) := by
  unfold setTypesFixed
  cases found : g.node id with
  | error e => simp
  | ok node => cases node <;> simp [eq_comm]

/-- A list of nodes makes a graph if the graph admits all of them and they can be ordered. -/
theorem ofNodes_eq_ok_iff {g : Graph} {nodes : List Node} :
    ofNodes nodes = .ok g ↔
      g = ⟨nodes.toArray⟩ ∧ (∀ node ∈ nodes, g.Admits node) ∧
        ∃ order, g.topologicalOrder = .ok order := by
  unfold ofNodes
  have passes : ∀ g : Graph, nodes.forM g.check = .ok () ↔ ∀ node ∈ nodes, g.Admits node := by
    intro g
    simp only [Outcome.forM_eq_ok_iff, check_eq_ok_iff]
  constructor
  · intro loaded
    obtain ⟨⟨⟩, passed, loaded⟩ := Outcome.bind_eq_ok_iff.mp loaded
    obtain ⟨order, ordered, equal⟩ := Outcome.bind_eq_ok_iff.mp loaded
    cases equal
    exact ⟨rfl, (passes _).mp passed, order, ordered⟩
  · rintro ⟨rfl, admitted, order, ordered⟩
    simp only [(passes _).mpr admitted, ordered, Outcome.ok_bind, Outcome.pure_eq]

/-! ## Well-formedness through a history -/

theorem wellFormed_empty : (∅ : Graph).WellFormed where
  admits := by
    intro id node found
    exact absurd (index_lt_of_node_eq_ok found) (Nat.not_lt_zero _)
  acyclic := by
    intro id cycle
    exact Nat.not_lt_zero _ cycle.index_lt

theorem retains_push (g : Graph) (added : Node) : g.Retains ⟨g.nodes.push added⟩ := by
  intro id node found
  refine ⟨node, ?_, .refl node⟩
  rw [node_push, if_neg (Nat.ne_of_lt (index_lt_of_node_eq_ok found))]
  exact found

theorem WellFormed.push
    {g : Graph} {added : Node}
    (wellFormed : g.WellFormed)
    (admitted : g.Admits added) :
    (Graph.mk (g.nodes.push added)).WellFormed where
  admits := by
    intro id node found
    rw [node_push] at found
    split at found
    · cases found
      exact admitted.of_retains (g.retains_push added)
    · exact (wellFormed.admits id node found).of_retains (g.retains_push added)
  acyclic := wellFormed.acyclic.push wellFormed.inputsExist admitted.inputs_exist

theorem retains_replace
    {g : Graph} {id : NodeId} {node node' : Node}
    (found : g.node id = .ok node)
    (same : node.SameSort node') :
    g.Retains (g.replace id node') := by
  intro other old foundOld
  rw [node_replace]
  split
  · next here =>
      rw [here.1, found] at foundOld
      cases foundOld
      exact ⟨node', rfl, same⟩
  · exact ⟨old, foundOld, .refl old⟩

/-- A node may be replaced by one of the same sort that the graph admits, as long as this
closes no cycle. -/
theorem WellFormed.replace
    {g : Graph} {id : NodeId} {node node' : Node}
    (wellFormed : g.WellFormed)
    (found : g.node id = .ok node)
    (same : node.SameSort node')
    (admitted : g.Admits node')
    (acyclic : (g.replace id node').Acyclic) :
    (g.replace id node').WellFormed where
  admits := by
    -- the consumers of the node stay valid because it is still of the same sort
    have retains := retains_replace found same
    intro other found' isThere
    rw [node_replace] at isThere
    split at isThere
    · cases isThere
      exact admitted.of_retains retains
    · exact (wellFormed.admits other found' isThere).of_retains retains
  acyclic := acyclic

theorem WellFormed.setInput
    {g g' : Graph} {id input : NodeId} {edge : String}
    (wellFormed : g.WellFormed)
    (changed : g.setInput id edge input = .ok g') :
    g'.WellFormed := by
  obtain ⟨inside, reached, node, position, found, _, admitted, rfl⟩ :=
    setInput_eq_ok_iff.mp changed
  have apart : ¬g.Reaches input id :=
    not_reaches_of_eq_ok_false wellFormed.inputsExist inside reached
  exact wellFormed.replace found (node.sameSort_withInput position input) admitted
    (wellFormed.acyclic.replace_withInput found apart)

theorem WellFormed.setTypesFixed
    {g g' : Graph} {id : NodeId} {fixed : Bool}
    (wellFormed : g.WellFormed)
    (changed : g.setTypesFixed id fixed = .ok g') :
    g'.WellFormed := by
  obtain ⟨d, found, rfl⟩ := setTypesFixed_eq_ok_iff.mp changed
  have admitted : g.Admits (.distribution { d with typesFixed := fixed }) :=
    (wellFormed.admits id _ found).of_parameters_eq rfl
  refine wellFormed.replace found ⟨rfl, rfl⟩ admitted ?_
  have sameEdges :
      (g.replace id (.distribution { d with typesFixed := fixed })).DependsOn = g.DependsOn := by
    refine dependsOn_eq_of_inputs_eq fun other => ?_
    rw [node_replace]
    split
    · next here =>
        rw [here.1, found]
        rfl
    · rfl
  unfold Acyclic Above
  rw [sameEdges]
  exact wellFormed.acyclic

theorem WellFormed.fixAllTypes {g : Graph} (wellFormed : g.WellFormed) :
    g.fixAllTypes.WellFormed where
  admits := by
    have retains : g.Retains g.fixAllTypes := by
      intro id node found
      exact ⟨fixTypes node, by rw [node_fixAllTypes, found]; rfl, node.sameSort_fixTypes⟩
    intro id node found
    rw [node_fixAllTypes] at found
    cases original : g.node id with
    | error e =>
        rw [original] at found
        cases found
    | ok old =>
        rw [original] at found
        cases found
        have admitted := (wellFormed.admits id old original).of_retains retains
        cases old with
        | distribution d => exact admitted.of_parameters_eq rfl
        | _ => exact admitted
  acyclic := by
    have sameEdges : g.fixAllTypes.DependsOn = g.DependsOn := by
      refine dependsOn_eq_of_inputs_eq fun id => ?_
      rw [node_fixAllTypes]
      cases g.node id with
      | error e => rfl
      | ok node => cases node <;> rfl
    unfold Acyclic Above
    rw [sameEdges]
    exact wellFormed.acyclic

theorem wellFormed_of_ofNodes
    {g : Graph} {nodes : List Node}
    (loaded : ofNodes nodes = .ok g) :
    g.WellFormed where
  admits := by
    obtain ⟨rfl, admitted, _⟩ := ofNodes_eq_ok_iff.mp loaded
    intro id node found
    rw [node_eq_ok_iff, List.getElem?_toArray] at found
    exact admitted node (List.mem_of_getElem? found)
  acyclic := by
    obtain ⟨_, _, order, ordered⟩ := ofNodes_eq_ok_iff.mp loaded
    exact acyclic_of_topologicalOrder ordered

/-- A request that is granted keeps a graph well formed. -/
theorem WellFormed.request
    {g g' : Graph} {e : Edit}
    (wellFormed : g.WellFormed)
    (granted : g.request e = .ok g') :
    g'.WellFormed := by
  have extended : ∀ {node}, g.extend node = .ok g' → g'.WellFormed := by
    intro node added
    obtain ⟨admitted, rfl⟩ := extend_eq_ok_iff.mp added
    exact wellFormed.push admitted
  cases e with
  | setInput id edge input => exact wellFormed.setInput granted
  | setTypesFixed id fixed => exact wellFormed.setTypesFixed granted
  | fixAllTypes =>
      cases granted
      exact wellFormed.fixAllTypes
  | load nodes => exact wellFormed_of_ofNodes granted
  | _ => exact extended granted

theorem WellFormed.edit
    {g : Graph}
    (wellFormed : g.WellFormed)
    (e : Edit) :
    (g.edit e).WellFormed := by
  unfold Graph.edit
  cases granted : g.request e with
  | ok g' => exact wellFormed.request granted
  | error _ => exact wellFormed

theorem WellFormed.edits
    {g : Graph}
    (wellFormed : g.WellFormed)
    (history : List Edit) :
    (g.edits history).WellFormed := by
  induction history generalizing g with
  | nil => exact wellFormed
  | cons e history ih => exact ih (wellFormed.edit e)

theorem Reachable.wellFormed {g : Graph} (reachable : g.Reachable) : g.WellFormed := by
  obtain ⟨history, rfl⟩ := reachable
  exact wellFormed_empty.edits history

/-- Whatever is requested, granted or refused, in whatever order, the graph stays well
formed. -/
theorem wellFormed_of_history (history : List Edit) :
    ((∅ : Graph).edits history).WellFormed :=
  wellFormed_empty.edits history

end Graph

end ModelGraph

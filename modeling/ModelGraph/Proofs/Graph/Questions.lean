import ModelGraph.Proofs.Graph.Answers
import ModelGraph.Proofs.Graph.Descriptions

/-!
# Questions and the questions they raise

A question about a node raises questions about nodes below it, and these need not be the same
question: the type of a sample is the type of the samples of its distribution, which may be the
type of a parameter, and the support of a distribution is found from a shape.
`Graph.respond` is one step of this recursion for all questions at once, and `Graph.answer_eq`
says that the answers of a well-formed graph solve it.  A step looks only at nodes that the node
reaches and at answers about nodes below it; `Graph.respond_congr` says so for two graphs, so
that it serves to compare a graph with itself and with what became of it.
-/

namespace ModelGraph

/-- What can be asked about a node. -/
inductive Question where
  | type
  | sampleType
  | shape
  | support
  | description
  deriving DecidableEq, Repr

/-- What a question is answered with. -/
abbrev Question.Answer : Question → Type
  | .type | .sampleType => NodeType
  | .shape => Shape
  | .support => Support
  | .description => String

/-- Answers to all questions about all nodes. -/
abbrev Answers :=
  (question : Question) → NodeId → Except Error question.Answer

namespace Graph

/-- The answers that the library gives. -/
def answer (g : Graph) : Answers
  | .type => g.typeOf
  | .sampleType => g.sampleTypeOf
  | .shape => g.shapeOf
  | .support => g.supportOf
  | .description => g.describe

/-- The values of the samples of a distribution, given the shapes of its parameters. -/
def distributionSupportFrom (shapeOf : NodeId → Except Error Shape) (id : NodeId)
    (d : Distribution) : Except Error Support :=
  match d.typesFixed, d.parameters with
  | true, .bernoulli .. => return .listed [.boolean false, .boolean true]
  | _, .bernoulli probability _ => return .outcomes 2 (← shapeOf probability)
  | _, .categorical probability _ => do
    let shape ← shapeOf probability
    match shape.last?, shape.withoutLast? with
    | some bound, some leading => return .outcomes bound leading
    | _, _ => throw (.invalidParameterShape id "probability" shape)
  | _, _ => throw (.noFiniteSupport id d.family.name)

theorem distributionSupport_eq (g : Graph) (id : NodeId) (d : Distribution) :
    g.distributionSupport id d = distributionSupportFrom g.shapeOf id d := by
  obtain ⟨parameters, fixed⟩ := d
  cases parameters <;> cases fixed <;> rfl

/-- The answer to a question about a node, given the answers to the questions it raises. -/
def respond (g : Graph) (answers : Answers) : Answers
  | .type, id => do
    match ← g.node id with
    | .operator (.sample distribution) => answers .sampleType distribution
    | node => g.typeRule id node (answers .type)
  | .sampleType, id => g.sampleTypeFrom (answers .type) id
  | .shape, id => do shapeRule id (← g.node id) (answers .shape)
  | .support, id => do
    match ← g.node id with
    | .distribution d => distributionSupportFrom (answers .shape) id d
    | node => g.supportRule id node (answers .support)
  | .description, id => do descriptionRule id (← g.node id) (answers .description)

/-! ## What a rule looks at

In each case two graphs are given, of which the second has the same nodes where the rule looks
them up, and two sets of answers that are the same where the rule asks for them. -/

section Types

variable {g g' : Graph} {id : NodeId} {node : Node}
  {typeOf typeOf' : NodeId → Except Error NodeType}

theorem sampleTypeFrom_congr
    (here : g'.node id = g.node id)
    (below : ∀ lower, g.DependsOn id lower → typeOf' lower = typeOf lower) :
    g'.sampleTypeFrom typeOf' id = g.sampleTypeFrom typeOf id := by
  unfold sampleTypeFrom
  rw [here]
  cases found : g.node id with
  | error e => rfl
  | ok node =>
      cases node with
      | distribution d =>
          simp only [Outcome.ok_bind]
          split
          · rfl
          · next parameter _ leads =>
              exact below parameter ⟨_, found, mem_inputs_of_leading?_eq_some leads⟩
          · rfl
      | _ => rfl

theorem entriesTypeFrom_congr
    {entries : List (NodeId × NodeId)}
    (each : ∀ entry ∈ entries, typeOf' entry.2 = typeOf entry.2) :
    entriesTypeFrom typeOf' entries = entriesTypeFrom typeOf entries := by
  cases entries with
  | nil => rfl
  | cons first rest =>
      obtain ⟨ofFirst, ofRest⟩ := List.forall_mem_cons.mp each
      simp only [entriesTypeFrom, ofFirst]
      refine congrArg (typeOf first.2 >>= ·) (funext fun start => ?_)
      refine Outcome.foldlM_congr (fun entry present type => ?_) start
      rw [ofRest entry present]

/-- The type of a node is told from the nodes and the types one or two steps down. -/
theorem typeRule_congr
    (found : g.node id = .ok node)
    (nodes : ∀ input ∈ node.inputs, g'.node input = g.node input)
    (below : ∀ lower, g.Above id lower → typeOf' lower = typeOf lower) :
    g'.typeRule id node typeOf' = g.typeRule id node typeOf := by
  have ofInput : ∀ input ∈ node.inputs, typeOf' input = typeOf input :=
    fun input present => below input (.single ⟨node, found, present⟩)
  have twoBelow : ∀ input ∈ node.inputs, ∀ lower, g.DependsOn input lower →
      typeOf' lower = typeOf lower :=
    fun input present lower depends =>
      below lower ((Relation.TransGen.single ⟨node, found, present⟩).tail depends)
  cases node with
  | constant value => rfl
  | distribution d => rfl
  | map entries => rfl
  | observation observed value => rfl
  | query queried => exact ofInput queried List.mem_cons_self
  | operator op =>
      cases op with
      | ifThenElse condition consequence alternative =>
          exact ofInput consequence (by simp [Node.inputs, Operator.inputs])
      | binary op left right =>
          have isLeft : left ∈ (Node.operator (.binary op left right)).inputs :=
            List.mem_cons_self
          have unified :
              unifiedTypeFrom typeOf' left right = unifiedTypeFrom typeOf left right := by
            simp only [unifiedTypeFrom, ofInput left isLeft,
              ofInput right (by simp [Node.inputs, Operator.inputs])]
          cases op with
          | index =>
              simp only [typeRule, operatorTypeFrom, nodes left isLeft]
              cases foundLeft : g.node left with
              | error e => rfl
              | ok used =>
                  cases used with
                  | map entries =>
                      refine entriesTypeFrom_congr fun entry present => ?_
                      refine twoBelow left isLeft entry.2 ⟨_, foundLeft, ?_⟩
                      exact List.mem_flatMap.mpr ⟨entry, present, by simp⟩
                  | _ => exact unified
          | _ => exact unified
      | unary op operand =>
          have ofOperand := ofInput operand List.mem_cons_self
          cases op with
          | not => rfl
          | toReal => rfl
          | toTensor => rfl
          | _ => exact ofOperand
      | sample distribution =>
          exact sampleTypeFrom_congr (nodes distribution List.mem_cons_self)
            (twoBelow distribution List.mem_cons_self)

theorem typeRule_local (g : Graph) : Rule.Local g.typeRule g := by
  intro id node found answers answers' same
  exact typeRule_congr found (fun _ _ => rfl) same

/-- The type of a node is found from the nodes below. -/
theorem typeOf_eq
    (wellFormed : g.WellFormed)
    (found : g.node id = .ok node) :
    g.typeOf id = g.typeRule id node g.typeOf :=
  ask_eq wellFormed g.typeRule_local found

end Types

section Supports

variable {g g' : Graph} {id : NodeId} {node : Node}

theorem findEntry_congr
    {map : NodeId} {key : Value} {entries : List (NodeId × NodeId)}
    (keys : ∀ entry ∈ entries, g'.node entry.1 = g.node entry.1) :
    g'.findEntry map key entries = g.findEntry map key entries := by
  induction entries with
  | nil => rfl
  | cons entry rest ih =>
      obtain ⟨here, later⟩ := List.forall_mem_cons.mp keys
      simp only [findEntry, here, ih later]

/-- An entry is found by looking at the map and at its keys. -/
theorem lookup_congr
    {map : NodeId}
    (here : g'.node map = g.node map)
    (below : ∀ lower, g.DependsOn map lower → g'.node lower = g.node lower)
    (key : Value) :
    g'.lookup map key = g.lookup map key := by
  unfold lookup
  rw [here]
  cases found : g.node map with
  | error e => rfl
  | ok node =>
      cases node with
      | map entries =>
          refine findEntry_congr fun entry present => below entry.1 ⟨_, found, ?_⟩
          exact List.mem_flatMap.mpr ⟨entry, present, by simp⟩
      | _ => rfl

/-- Only a distribution is enumerated by looking at shapes; any other node by looking at the
nodes and the supports one or two steps down. -/
theorem supportRule_congr
    {supportOf supportOf' : NodeId → Except Error Support}
    (found : g.node id = .ok node)
    (noDistribution : ∀ d, node ≠ .distribution d)
    (nodes : ∀ lower, g.Above id lower → g'.node lower = g.node lower)
    (below : ∀ lower, g.Above id lower → supportOf' lower = supportOf lower) :
    g'.supportRule id node supportOf' = g.supportRule id node supportOf := by
  rw [← g.supportRule_local id node found supportOf' supportOf below]
  cases node with
  | distribution d => exact absurd rfl (noDistribution d)
  | operator op =>
      cases op with
      | binary op left right =>
          have isLeft : g.DependsOn id left := ⟨_, found, List.mem_cons_self⟩
          have lookups : g'.lookup left = g.lookup left := by
            funext key
            refine lookup_congr (nodes left (.single isLeft)) (fun lower depends => ?_) key
            exact nodes lower ((Relation.TransGen.single isLeft).tail depends)
          simp only [supportRule, operatorSupport, indexSupport, lookups]
      | _ => rfl
  | _ => rfl

theorem distributionSupportFrom_congr
    {d : Distribution} {shapeOf shapeOf' : NodeId → Except Error Shape}
    (same : ∀ input ∈ d.parameters.inputs, shapeOf' input = shapeOf input) :
    distributionSupportFrom shapeOf' id d = distributionSupportFrom shapeOf id d := by
  obtain ⟨parameters, fixed⟩ := d
  cases parameters <;> cases fixed <;>
    simp_all [distributionSupportFrom, Parameters.inputs]

end Supports

/-! ## One step of the recursion -/

/-- The answers of a well-formed graph are what they make of themselves. -/
theorem WellFormed.answer_eq
    {g : Graph}
    (wellFormed : g.WellFormed)
    (question : Question) (id : NodeId) :
    g.answer question id = g.respond g.answer question id := by
  by_cases inside : id.index < g.size
  · obtain ⟨node, found⟩ := exists_node inside
    cases question with
    | type =>
        simp only [answer, respond, typeOf_eq wellFormed found, found, Outcome.ok_bind]
        cases node with
        | operator op => cases op <;> rfl
        | _ => rfl
    | sampleType => rfl
    | shape => simp only [answer, respond, shapeOf_eq wellFormed found, found, Outcome.ok_bind]
    | support =>
        simp only [answer, respond, supportOf_eq wellFormed found, found, Outcome.ok_bind]
        cases node with
        | distribution d => exact g.distributionSupport_eq id d
        | _ => rfl
    | description =>
        simp only [answer, respond, describe_eq wellFormed found, found, Outcome.ok_bind]
  · have outside := Nat.le_of_not_lt inside
    have missing := node_eq_error_of_size_le outside
    cases question with
    | sampleType => rfl
    | type => simp [answer, typeOf, ask_eq_error outside, respond, missing]
    | shape => simp [answer, shapeOf, ask_eq_error outside, respond, missing]
    | support => simp [answer, supportOf, ask_eq_error outside, respond, missing]
    | description => simp [answer, describe, ask_eq_error outside, respond, missing]

/-- A step looks only at nodes that the node reaches, and asks only about nodes below it. -/
theorem respond_congr
    {g g' : Graph} {answers answers' : Answers} {id : NodeId}
    (nodes : ∀ lower, g.Reaches id lower → g'.node lower = g.node lower)
    (below : ∀ question lower, g.Above id lower → answers' question lower = answers question lower)
    (question : Question) :
    g'.respond answers' question id = g.respond answers question id := by
  have here := nodes id .refl
  cases found : g.node id with
  | error e =>
      cases question <;> simp [respond, sampleTypeFrom, here, found]
  | ok node =>
      have ofInput : ∀ question, ∀ input ∈ node.inputs,
          answers' question input = answers question input :=
        fun question input present => below question input (.single ⟨node, found, present⟩)
      cases question with
      | type =>
          simp only [respond, here, found, Outcome.ok_bind]
          split
          · next distribution => exact ofInput .sampleType distribution List.mem_cons_self
          · refine typeRule_congr found (fun input present => ?_) (below .type)
            exact nodes input (.single ⟨node, found, present⟩)
      | sampleType =>
          exact sampleTypeFrom_congr here fun lower depends => below .type lower (.single depends)
      | shape =>
          simp only [respond, here, found, Outcome.ok_bind]
          exact shapeRule_congr (ofInput .shape)
      | support =>
          simp only [respond, here, found, Outcome.ok_bind]
          split
          · exact distributionSupportFrom_congr (ofInput .shape)
          · -- an index also asks for entries, which are two steps down
            next noDistribution =>
              refine supportRule_congr found noDistribution (fun lower above => ?_) (below .support)
              exact nodes lower above.to_reflTransGen
      | description =>
          simp only [respond, here, found, Outcome.ok_bind]
          exact descriptionRule_congr (ofInput .description)

end Graph

end ModelGraph

import ModelGraph.Node.Basic

/-!
# Inputs by position

Each kind of node finds its inputs by the names of their edges in a table of its own.  The tables
agree with the order in which inputs and edges are listed: a node with another input at the end of
an edge is the node with another input at the position of the edge, `Node.rewire?_eq`.
-/

namespace ModelGraph

namespace Parameters

/-- Replaces each input by the value of a function at its position and itself. -/
def mapInputs (f : Nat → NodeId → NodeId) : Parameters → Parameters
  | .bernoulli probability logits => .bernoulli (f 0 probability) logits
  | .beta a b => .beta (f 0 a) (f 1 b)
  | .binomial count probability logits => .binomial (f 0 count) (f 1 probability) logits
  | .categorical probability logits => .categorical (f 0 probability) logits
  | .dirichlet concentration => .dirichlet (f 0 concentration)
  | .halfCauchy scale => .halfCauchy (f 0 scale)
  | .normal mu sigma => .normal (f 0 mu) (f 1 sigma)
  | .studentT df loc scale => .studentT (f 0 df) (f 1 loc) (f 2 scale)
  | .uniform low high => .uniform (f 0 low) (f 1 high)

theorem inputs_mapInputs (f : Nat → NodeId → NodeId) (p : Parameters) :
    (p.mapInputs f).inputs = p.inputs.mapIdx f := by
  cases p <;> rfl

theorem rewire?_of_notMem
    {input : NodeId} {p : Parameters} {edge : String}
    (absent : edge ∉ p.edges) :
    p.rewire? input edge = none := by
  unfold rewire?
  split <;> first | rfl | exact absurd (by simp [edges]) absent

/-- The parameter of a name is the one in its place. -/
theorem rewire?_eq (input : NodeId) (p : Parameters) (edge : String) :
    p.rewire? input edge = (p.edges.idxOf? edge).map fun position =>
      p.mapInputs fun i old => if i = position then input else old := by
  by_cases present : edge ∈ p.edges
  · cases p with
    | bernoulli | categorical | dirichlet | halfCauchy =>
        obtain rfl := List.mem_singleton.mp present
        rfl
    | beta | binomial | normal | uniform =>
        simp only [edges, List.mem_cons, List.not_mem_nil, or_false] at present
        rcases present with rfl | rfl <;> rfl
    | studentT =>
        simp only [edges, List.mem_cons, List.not_mem_nil, or_false] at present
        rcases present with rfl | rfl | rfl <;> rfl
  · rw [rewire?_of_notMem present, List.idxOf?_eq_none_iff.mpr present]
    rfl

end Parameters

namespace Operator

/-- Replaces each input by the value of a function at its position and itself. -/
def mapInputs (f : Nat → NodeId → NodeId) : Operator → Operator
  | .ifThenElse condition consequence alternative =>
    .ifThenElse (f 0 condition) (f 1 consequence) (f 2 alternative)
  | .binary op left right => .binary op (f 0 left) (f 1 right)
  | .unary op operand => .unary op (f 0 operand)
  | .sample distribution => .sample (f 0 distribution)

theorem inputs_mapInputs (f : Nat → NodeId → NodeId) (op : Operator) :
    (op.mapInputs f).inputs = op.inputs.mapIdx f := by
  cases op <;> rfl

theorem rewire?_of_notMem
    {input : NodeId} {op : Operator} {edge : String}
    (absent : edge ∉ op.edges) :
    op.rewire? input edge = none := by
  unfold rewire?
  split <;> first | rfl | exact absurd (by simp [edges]) absent

/-- The input of a name is the one in its place. -/
theorem rewire?_eq (input : NodeId) (op : Operator) (edge : String) :
    op.rewire? input edge = (op.edges.idxOf? edge).map fun position =>
      op.mapInputs fun i old => if i = position then input else old := by
  by_cases present : edge ∈ op.edges
  · cases op with
    | unary | sample =>
        obtain rfl := List.mem_singleton.mp present
        rfl
    | binary =>
        simp only [edges, List.mem_cons, List.not_mem_nil, or_false] at present
        rcases present with rfl | rfl <;> rfl
    | ifThenElse =>
        simp only [edges, List.mem_cons, List.not_mem_nil, or_false] at present
        rcases present with rfl | rfl | rfl <;> rfl
  · rw [rewire?_of_notMem present, List.idxOf?_eq_none_iff.mpr present]
    rfl

end Operator

namespace Node

/-- The position of the input at the end of an edge.  The edges of a map are found by
number, however the number is written. -/
def position? (node : Node) (edge : String) : Option Nat :=
  match node with
  | .map entries =>
    (Numeral.readSigned? edge.toList).filter fun position => position < 2 * entries.length
  | node => node.edges.idxOf? edge

/-- Replaces each input by the value of a function at its position and itself. -/
def mapInputs (f : Nat → NodeId → NodeId) : Node → Node
  | .constant value => .constant value
  | .distribution d => .distribution { d with parameters := d.parameters.mapInputs f }
  | .operator op => .operator (op.mapInputs f)
  | .map entries =>
    .map (entries.mapIdx fun i entry => (f (2 * i) entry.1, f (2 * i + 1) entry.2))
  | .observation observed value => .observation (f 0 observed) value
  | .query queried => .query (f 0 queried)

/-- The node with another input at one position. -/
def withInput (node : Node) (position : Nat) (input : NodeId) : Node :=
  node.mapInputs fun i old => if i = position then input else old

theorem flatMap_mapIdx_entries (f : Nat → NodeId → NodeId) (entries : List (NodeId × NodeId)) :
    (entries.mapIdx fun i entry => (f (2 * i) entry.1, f (2 * i + 1) entry.2)).flatMap
        (fun entry => [entry.1, entry.2]) =
      (entries.flatMap fun entry => [entry.1, entry.2]).mapIdx f := by
  induction entries generalizing f with
  | nil => rfl
  | cons entry entries ih =>
    simp only [List.mapIdx_cons, List.flatMap_cons, List.cons_append, List.nil_append]
    exact congrArg _ (congrArg _ (ih fun i => f (i + 2)))

theorem inputs_mapInputs (f : Nat → NodeId → NodeId) (node : Node) :
    (node.mapInputs f).inputs = node.inputs.mapIdx f := by
  cases node with
  | distribution d => exact d.parameters.inputs_mapInputs f
  | operator op => exact op.inputs_mapInputs f
  | map entries => exact flatMap_mapIdx_entries f entries
  | _ => rfl

/-- Giving a node another input replaces the one at that position and nothing else. -/
theorem inputs_withInput (node : Node) (position : Nat) (input : NodeId) :
    (node.withInput position input).inputs = node.inputs.set position input := by
  rw [withInput, inputs_mapInputs]
  refine List.ext_getElem? fun i => ?_
  simp only [List.getElem?_mapIdx, List.getElem?_set]
  by_cases inside : i < node.inputs.length
  · by_cases same : position = i <;> simp [*, Ne.symm, eq_comm]
  · have outside : node.inputs[i]? = none := List.getElem?_eq_none (by omega)
    by_cases same : position = i <;> simp [*]

/-! ### The tables agree with the positions -/

theorem rewireEntries?_eq (input : NodeId) (entries : List (NodeId × NodeId)) (edge : String) :
    rewireEntries? input entries edge =
      ((Numeral.readSigned? edge.toList).filter
        fun position => position < 2 * entries.length).map fun position =>
          entries.mapIdx fun i entry =>
            (if 2 * i = position then input else entry.1,
              if 2 * i + 1 = position then input else entry.2) := by
  unfold rewireEntries?
  cases Numeral.readSigned? edge.toList with
  | none => rfl
  | some position =>
    by_cases inside : position < 2 * entries.length
    · have there : position / 2 < entries.length := by omega
      have replaced : entries.set (position / 2) (if position % 2 = 0 then
            (input, entries[position / 2].2) else (entries[position / 2].1, input)) =
          entries.mapIdx fun i entry =>
            (if 2 * i = position then input else entry.1,
              if 2 * i + 1 = position then input else entry.2) := by
        refine List.ext_getElem (by simp) fun i here here' => ?_
        rw [List.getElem_set, List.getElem_mapIdx]
        by_cases same : position / 2 = i
        · subst same
          rcases Nat.mod_two_eq_zero_or_one position with even | odd
          · have key : 2 * (position / 2) = position := by omega
            simp [even, key]
          · have value : 2 * (position / 2) + 1 = position := by omega
            simp [odd, value, show 2 * (position / 2) ≠ position by omega]
        · simp [same, show 2 * i ≠ position by omega, show 2 * i + 1 ≠ position by omega]
      simp [Option.filter, inside, there, replaced]
    · have outside : entries.length ≤ position / 2 := by omega
      simp [Option.filter, inside, outside]

theorem idxOf?_singleton (name edge : String) :
    [name].idxOf? edge = if edge = name then some 0 else none := by
  by_cases same : edge = name
  · subst same
    simp
  · rw [if_neg same]
    simpa [List.idxOf?_eq_none_iff] using Ne.symm same

/-- The input at the end of an edge is the one at the position of the edge. -/
theorem rewire?_eq (input : NodeId) (node : Node) (edge : String) :
    node.rewire? input edge =
      (node.position? edge).map fun position => node.withInput position input := by
  cases node with
  | constant => rfl
  | distribution d =>
    simp only [rewire?, d.parameters.rewire?_eq, position?, edges]
    cases d.parameters.edges.idxOf? edge <;> rfl
  | operator op =>
    simp only [rewire?, op.rewire?_eq, position?, edges]
    cases op.edges.idxOf? edge <;> rfl
  | map entries =>
    simp only [rewire?, rewireEntries?_eq, position?]
    cases (Numeral.readSigned? edge.toList).filter _ <;> rfl
  | observation | query =>
    simp only [rewire?, position?, edges, idxOf?_singleton]
    split <;> rfl

end Node

end ModelGraph

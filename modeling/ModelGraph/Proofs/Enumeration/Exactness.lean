import ModelGraph.Proofs.Enumeration.Evaluation
import ModelGraph.Proofs.Graph.Locality

/-!
# Enumeration lists only outcomes

Each value that the support of a node lists is the value of the node under some assignment, as
long as no draw is shared: the operands of an operation, and the key and the entries of an index,
have no sample in common.  The assignments for the operands, which are found first, are then
merged into one.  Where a draw is shared, the support also lists results of values that the draw
cannot have at once.

Distributions are not evaluated.  The values that are listed for them are those of a sample that
is drawn from them.
-/

namespace ModelGraph

/-- The nodes whose values make up the value of a node.  A sample takes its value from an
assignment, and the keys of a map are only compared with. -/
def Node.operands : Node → List NodeId
  | .operator (.sample _) => []
  | .operator op => op.inputs
  | .map entries => entries.map Prod.snd
  | _ => []

theorem Node.operands_operator
    {op : Operator}
    (notSample : ∀ distribution, op ≠ .sample distribution) :
    (Node.operator op).operands = op.inputs := by
  cases op with
  | sample distribution => exact absurd rfl (notSample distribution)
  | _ => rfl

namespace Graph

/-- A path of operands, which ends at samples, leads from one node down to another. -/
def DescendsTo (g : Graph) : NodeId → NodeId → Prop :=
  Relation.ReflTransGen fun id lower => ∃ node, g.node id = .ok node ∧ lower ∈ node.operands

/-- The value of a node is made up from that of a sample. -/
def DrawnBelow (g : Graph) (id sample : NodeId) : Prop :=
  g.DescendsTo id sample ∧
    ∃ distribution, g.node sample = .ok (.operator (.sample distribution))

/-- No draw is shared by the two operands of an operation, or by the key of an index and a value
of its map. -/
structure DrawsApart (g : Graph) (id : NodeId) : Prop where
  operands : ∀ lower op left right sample, g.DescendsTo id lower →
    g.node lower = .ok (.operator (.binary op left right)) → op ≠ .index →
      g.DrawnBelow left sample → ¬g.DrawnBelow right sample
  entries : ∀ lower map key entries entry sample, g.DescendsTo id lower →
    g.node lower = .ok (.operator (.binary .index map key)) →
      g.node map = .ok (.map entries) → entry ∈ entries →
        g.DrawnBelow key sample → ¬g.DrawnBelow entry.2 sample

section Descent

variable {g : Graph} {id lower sample : NodeId}

theorem descendsTo_of_mem_operands
    {node : Node}
    (found : g.node id = .ok node)
    (present : lower ∈ node.operands) :
    g.DescendsTo id lower :=
  .single ⟨node, found, present⟩

theorem DrawnBelow.of_descendsTo
    (drawn : g.DrawnBelow lower sample)
    (path : g.DescendsTo id lower) :
    g.DrawnBelow id sample :=
  ⟨path.trans drawn.1, drawn.2⟩

theorem DrawsApart.of_descendsTo
    (apart : g.DrawsApart id)
    (path : g.DescendsTo id lower) :
    g.DrawsApart lower where
  operands := fun _ op left right sample further =>
    apart.operands _ op left right sample (path.trans further)
  entries := fun _ map key entries entry sample further =>
    apart.entries _ map key entries entry sample (path.trans further)

/-- An index descends to its key, and past its map to the values there. -/
theorem descendsTo_entry
    {map key : NodeId} {entries : List (NodeId × NodeId)} {entry : NodeId × NodeId}
    (found : g.node id = .ok (.operator (.binary .index map key)))
    (foundMap : g.node map = .ok (.map entries))
    (present : entry ∈ entries) :
    g.DescendsTo id entry.2 := by
  have toMap : g.DescendsTo id map :=
    descendsTo_of_mem_operands found (by simp [Node.operands, Operator.inputs])
  exact toMap.trans (descendsTo_of_mem_operands foundMap (List.mem_map_of_mem present))

/-- Nothing but a node without operands is below it. -/
theorem eq_of_descendsTo
    {node : Node}
    (found : g.node id = .ok node)
    (noOperands : node.operands = [])
    (path : g.DescendsTo id lower) :
    lower = id := by
  rcases Relation.ReflTransGen.cases_head path with rfl | ⟨next, ⟨node', found', present⟩, _⟩
  · rfl
  · cases found.symm.trans found'
    rw [noOperands] at present
    cases present

end Descent

/-! ## Assignments -/

section Assignments

variable {g : Graph} {assigned first second : NodeId → Option Value}

/-- Two assignments as one; the first one decides where both give a value. -/
def merge (first second : NodeId → Option Value) (id : NodeId) : Option Value :=
  (first id).or (second id)

/-- A node keeps its value when more samples are given one. -/
theorem Evaluates.mono
    {id : NodeId} {v : Value}
    (evaluates : g.Evaluates first id v)
    (extends_first : ∀ sample value, first sample = some value → second sample = some value) :
    g.Evaluates second id v := by
  induction evaluates with
  | sample found drawn => exact .sample found (extends_first _ _ drawn)
  | constant found => exact .constant found
  | unary found _ applied ih => exact .unary found ih applied
  | binary found arithmetic _ _ combined ihLeft ihRight =>
      exact .binary found arithmetic ihLeft ihRight combined
  | index found _ selected _ ihKey ihEntry => exact .index found ihKey selected ihEntry

theorem merge_eq_some_of_left
    {sample : NodeId} {value : Value}
    (given : first sample = some value) :
    merge first second sample = some value := by
  rw [merge, given, Option.some_or]

theorem merge_eq_some_of_right
    {sample : NodeId} {value : Value}
    (free : first sample = none)
    (given : second sample = some value) :
    merge first second sample = some value := by
  rw [merge, free, Option.none_or, given]

theorem eq_some_of_merge
    {sample : NodeId} {value : Value}
    (given : merge first second sample = some value) :
    first sample = some value ∨ second sample = some value := by
  unfold merge at given
  cases here : first sample with
  | none =>
      rw [here, Option.none_or] at given
      exact .inr given
  | some other =>
      rw [here, Option.some_or] at given
      exact .inl given

/-- A node has a value under an assignment to samples below it, of values that they can take. -/
structure Realizes (g : Graph) (assigned : NodeId → Option Value) (id : NodeId) (v : Value) :
    Prop where
  draws : g.DrawsFrom assigned
  below : ∀ sample value, assigned sample = some value → g.DrawnBelow id sample
  evaluates : g.Evaluates assigned id v

/-- Where two nodes share no draw, their assignments merge into one for both. -/
theorem Realizes.merged
    {a b : NodeId} {x y : Value}
    (left : g.Realizes first a x)
    (right : g.Realizes second b y)
    (apart : ∀ sample, g.DrawnBelow a sample → ¬g.DrawnBelow b sample) :
    g.DrawsFrom (merge first second) ∧
      (∀ sample value, merge first second sample = some value →
        g.DrawnBelow a sample ∨ g.DrawnBelow b sample) ∧
      g.Evaluates (merge first second) a x ∧ g.Evaluates (merge first second) b y := by
  refine ⟨?_, ?_, ?_, ?_⟩
  · intro id distribution value found given
    rcases eq_some_of_merge given with given | given
    · exact left.draws id distribution value found given
    · exact right.draws id distribution value found given
  · intro sample value given
    rcases eq_some_of_merge given with given | given
    · exact .inl (left.below sample value given)
    · exact .inr (right.below sample value given)
  · exact left.evaluates.mono fun _ _ => merge_eq_some_of_left
  · refine right.evaluates.mono fun sample value given => ?_
    have free : first sample = none := by
      by_contra taken
      obtain ⟨other, given'⟩ := Option.ne_none_iff_exists'.mp taken
      exact apart sample (left.below sample other given') (right.below sample value given)
    exact merge_eq_some_of_right free given

theorem realizes_constant
    {id : NodeId} {value : Value}
    (found : g.node id = .ok (.constant value)) :
    g.Realizes (fun _ => none) id value :=
  ⟨nofun, nofun, .constant found⟩

/-- The assignment that gives a value to a single node. -/
def solely (id : NodeId) (value : Value) (other : NodeId) : Option Value :=
  if other = id then some value else none

theorem solely_eq_some_iff {id other : NodeId} {value value' : Value} :
    solely id value other = some value' ↔ other = id ∧ value = value' := by
  simp [solely]

/-- A sample can have each value that its distribution lists. -/
theorem realizes_sample
    {id distribution : NodeId} {values : Support} {value : Value}
    (found : g.node id = .ok (.operator (.sample distribution)))
    (listed : g.supportOf distribution = .ok values)
    (present : value ∈ values.toList) :
    g.Realizes (solely id value) id value where
  draws := by
    intro other distribution' value' found' given
    obtain ⟨rfl, rfl⟩ := solely_eq_some_iff.mp given
    cases found.symm.trans found'
    exact ⟨values, listed, present⟩
  below := by
    intro other value' given
    obtain ⟨rfl, _⟩ := solely_eq_some_iff.mp given
    exact ⟨.refl, distribution, found⟩
  evaluates := .sample found (solely_eq_some_iff.mpr ⟨rfl, rfl⟩)

theorem Realizes.unary
    {id operand : NodeId} {op : UnaryOp} {v r : Value}
    (found : g.node id = .ok (.operator (.unary op operand)))
    (realizes : g.Realizes assigned operand v)
    (applied : op.apply v = .ok r) :
    g.Realizes assigned id r where
  draws := realizes.draws
  below := fun sample value given =>
    (realizes.below sample value given).of_descendsTo
      (descendsTo_of_mem_operands found List.mem_cons_self)
  evaluates := .unary found realizes.evaluates applied

theorem Realizes.binary
    {id left right : NodeId} {op : BinaryOp} {operation : Tensor → Tensor → Except Error Tensor}
    {l r : Value} {c : Tensor}
    (found : g.node id = .ok (.operator (.binary op left right)))
    (arithmetic : op.arithmetic? = some operation)
    (apart : g.DrawsApart id)
    (ofLeft : g.Realizes first left l)
    (ofRight : g.Realizes second right r)
    (combined : operation l.toTensor r.toTensor = .ok c) :
    g.Realizes (merge first second) id (.tensor c) := by
  have notIndex : op ≠ .index := by
    rintro rfl
    cases arithmetic
  obtain ⟨draws, below, evaluatesLeft, evaluatesRight⟩ := ofLeft.merged ofRight fun sample =>
    apart.operands id op left right sample .refl found notIndex
  refine ⟨draws, ?_, .binary found arithmetic evaluatesLeft evaluatesRight combined⟩
  intro sample value given
  rcases below sample value given with drawn | drawn <;>
    exact drawn.of_descendsTo
      (descendsTo_of_mem_operands found (by simp [Node.operands, Operator.inputs]))

theorem Realizes.index
    {id map key entry : NodeId} {k v : Value}
    (found : g.node id = .ok (.operator (.binary .index map key)))
    (apart : g.DrawsApart id)
    (selected : g.lookup map k = .ok entry)
    (ofKey : g.Realizes first key k)
    (ofEntry : g.Realizes second entry v) :
    g.Realizes (merge first second) id v := by
  obtain ⟨entries, foundMap, pair, present, rfl⟩ := lookup_eq_ok selected
  obtain ⟨draws, below, evaluatesKey, evaluatesEntry⟩ := ofKey.merged ofEntry fun sample =>
    apart.entries id map key entries pair sample .refl found foundMap present
  refine ⟨draws, ?_, .index found evaluatesKey selected evaluatesEntry⟩
  intro sample value given
  rcases below sample value given with drawn | drawn
  · exact drawn.of_descendsTo
      (descendsTo_of_mem_operands found (by simp [Node.operands, Operator.inputs]))
  · exact drawn.of_descendsTo (descendsTo_entry found foundMap present)

end Assignments

/-! ## All nodes -/

section Realization

variable {g : Graph} {id : NodeId}

/-- Only samples have distributions among their inputs. -/
theorem WellFormed.node_input_ne_distribution
    {node : Node} {input : NodeId}
    (wellFormed : g.WellFormed)
    (found : g.node id = .ok node)
    (notSample : ∀ distribution, node ≠ .operator (.sample distribution))
    (present : input ∈ node.inputs)
    (d : Distribution) :
    g.node input ≠ .ok (.distribution d) := by
  obtain ⟨operand, foundInput, isOperand⟩ :=
    (wellFormed.admits id node found).operand_input notSample input present
  rintro isDistribution
  cases foundInput.symm.trans isDistribution
  simp [Node.IsOperand, Node.category] at isOperand

/-- A value that is listed for an operator is realized if those of the nodes below are. -/
theorem exists_realizes_operator
    {op : Operator} {values : Support} {v : Value}
    (wellFormed : g.WellFormed)
    (found : g.node id = .ok (.operator op))
    (listed : g.operatorSupport g.supportOf id op = .ok values)
    (apart : g.DrawsApart id)
    (below : ∀ lower values v, g.Above id lower → g.DescendsTo id lower →
      (∀ d, g.node lower ≠ .ok (.distribution d)) →
        g.supportOf lower = .ok values → v ∈ values.toList →
          ∃ assigned, g.Realizes assigned lower v)
    (present : v ∈ values.toList) :
    ∃ assigned, g.Realizes assigned id v := by
  have ofInput : (∀ distribution, op ≠ .sample distribution) → ∀ input ∈ op.inputs, ∀ values v,
      g.supportOf input = .ok values → v ∈ values.toList →
        ∃ assigned, g.Realizes assigned input v := by
    intro notSample input isInput values v
    have noDistribution : ∀ d, g.node input ≠ .ok (.distribution d) :=
      wellFormed.node_input_ne_distribution found (by simpa using notSample) isInput
    have isOperand : input ∈ (Node.operator op).operands := by
      rw [Node.operands_operator notSample]
      exact isInput
    exact below input values v (.single ⟨_, found, isInput⟩)
      (descendsTo_of_mem_operands found isOperand) noDistribution
  cases op with
  | ifThenElse condition consequence alternative => cases listed
  | sample distribution => exact ⟨_, realizes_sample found listed present⟩
  | unary op operand =>
      obtain ⟨operands, listedOperand, listed⟩ := Outcome.bind_eq_ok_iff.mp listed
      obtain ⟨set, formed, equal⟩ := Outcome.bind_eq_ok_iff.mp listed
      cases equal
      obtain ⟨operandValue, inOperands, applied⟩ := exists_of_mem_imageSupport formed present
      obtain ⟨assigned, realizes⟩ := ofInput (by simp) operand List.mem_cons_self
        operands operandValue listedOperand inOperands
      exact ⟨assigned, realizes.unary found applied⟩
  | binary op left right =>
      have ofInput := ofInput (by simp)
      have ofRight := ofInput right (by simp [Operator.inputs])
      cases arithmetic : op.arithmetic? with
      | some operation =>
          simp only [operatorSupport, arithmetic] at listed
          obtain ⟨rights, listedRight, listed⟩ := Outcome.bind_eq_ok_iff.mp listed
          obtain ⟨lefts, listedLeft, listed⟩ := Outcome.bind_eq_ok_iff.mp listed
          obtain ⟨set, formed, equal⟩ := Outcome.bind_eq_ok_iff.mp listed
          cases equal
          obtain ⟨l, inLeft, r, inRight, c, combined, rfl⟩ :=
            exists_of_mem_productSupport formed present
          obtain ⟨first, realizesLeft⟩ :=
            ofInput left List.mem_cons_self lefts l listedLeft inLeft
          obtain ⟨second, realizesRight⟩ := ofRight rights r listedRight inRight
          exact ⟨_, realizesLeft.binary found arithmetic apart realizesRight combined⟩
      | none =>
          obtain rfl := BinaryOp.eq_index_of_arithmetic_eq_none arithmetic
          obtain ⟨keys, listedKey, listed⟩ := Outcome.bind_eq_ok_iff.mp listed
          obtain ⟨set, formed, equal⟩ := Outcome.bind_eq_ok_iff.mp listed
          cases equal
          obtain ⟨key, inKeys, entry, entryValues, selected, listedEntry, inEntry⟩ :=
            exists_of_mem_indexSupport formed present
          obtain ⟨first, realizesKey⟩ := ofRight keys key listedKey inKeys
          have toMap : g.DependsOn id left := ⟨_, found, by simp [Node.inputs, Operator.inputs]⟩
          have toEntry : g.Above id entry :=
            (Relation.TransGen.single toMap).tail (dependsOn_of_lookup_eq_ok selected)
          obtain ⟨entries, foundMap, pair, isEntry, rfl⟩ := lookup_eq_ok selected
          have noDistribution : ∀ d, g.node pair.2 ≠ .ok (.distribution d) :=
            wellFormed.node_input_ne_distribution foundMap (by simp)
              (List.mem_flatMap.mpr ⟨pair, isEntry, by simp⟩)
          obtain ⟨second, realizesEntry⟩ := below pair.2 entryValues v toEntry
            (descendsTo_entry found foundMap isEntry) noDistribution listedEntry inEntry
          exact ⟨_, realizesKey.index found apart selected realizesEntry⟩

/-- A value that is listed for a node with a value of its own is realized. -/
theorem exists_realizes
    {values : Support} {v : Value}
    (wellFormed : g.WellFormed)
    (listed : g.supportOf id = .ok values)
    (apart : g.DrawsApart id)
    (noDistribution : ∀ d, g.node id ≠ .ok (.distribution d))
    (present : v ∈ values.toList) :
    ∃ assigned, g.Realizes assigned id v := by
  induction id using wellFormed.induction generalizing values v with
  | step id ih =>
      obtain ⟨node, found⟩ := exists_node_of_ask_eq_ok listed
      rw [supportOf_eq wellFormed found] at listed
      cases node with
      | distribution d => exact absurd found (noDistribution d)
      | constant value =>
          cases listed
          cases List.mem_singleton.mp present
          exact ⟨_, realizes_constant found⟩
      | operator op =>
          refine exists_realizes_operator wellFormed found listed apart ?_ present
          intro lower values v above path noDistribution listed present
          exact ih lower above listed (apart.of_descendsTo path) noDistribution present
      | _ =>
          cases listed
          cases present

/-- A value that is listed for a distribution is the value of a sample that is drawn from it. -/
theorem exists_realizes_of_distribution
    {d : Distribution} {values : Support} {v : Value}
    (wellFormed : g.WellFormed)
    (found : g.node id = .ok (.distribution d))
    (listed : g.supportOf id = .ok values)
    (present : v ∈ values.toList) :
    ∃ g', g.insert (.operator (.sample id)) = .ok (⟨g.size⟩, g') ∧
      ∃ assigned, g'.Realizes assigned ⟨g.size⟩ v := by
  have inside := index_lt_of_node_eq_ok found
  have admitted : g.Admits (.operator (.sample id)) := by
    refine ⟨?_, ?_, ?_, nofun, nofun, nofun⟩
    · intro input present
      rw [List.mem_singleton.mp present]
      exact inside
    · rintro _ ⟨⟩
      exact ⟨d, found⟩
    · intro notSample
      exact absurd rfl (notSample id)
  have kept := (wellFormed.alikeAt_push admitted inside).answer .support
  exact ⟨_, insert_eq_ok_iff.mpr ⟨admitted, rfl, rfl⟩, _,
    realizes_sample (g.node_push_last _) (kept.trans listed) present⟩

end Realization

/-- Where no draw is shared, each value that the support of a node lists is the value of the node
under some assignment.  If the node is a distribution, it is the value of a sample that is added
to the graph and drawn from it. -/
theorem exists_evaluates_of_mem_supportOf
    {g : Graph} {id : NodeId} {values : Support} {v : Value}
    (reachable : g.Reachable)
    (listed : g.supportOf id = .ok values)
    (apart : g.DrawsApart id)
    (present : v ∈ values.toList) :
    (∃ assigned, g.DrawsFrom assigned ∧ g.Evaluates assigned id v) ∨
      (∃ d, g.node id = .ok (.distribution d)) ∧
        ∃ g', g.insert (.operator (.sample id)) = .ok (⟨g.size⟩, g') ∧
          ∃ assigned, g'.DrawsFrom assigned ∧ g'.Evaluates assigned ⟨g.size⟩ v := by
  by_cases isDistribution : ∃ d, g.node id = .ok (.distribution d)
  · obtain ⟨d, found⟩ := isDistribution
    obtain ⟨g', inserted, assigned, realizes⟩ :=
      exists_realizes_of_distribution reachable.wellFormed found listed present
    exact .inr ⟨⟨d, found⟩, g', inserted, assigned, realizes.draws, realizes.evaluates⟩
  · obtain ⟨assigned, realizes⟩ := exists_realizes reachable.wellFormed listed apart
      (not_exists.mp isDistribution) present
    exact .inl ⟨assigned, realizes.draws, realizes.evaluates⟩

/-- A coin that is tossed again if it shows a zero. -/
def secondToss : Graph :=
  (∅ : Graph).edits
    [.addConstant (.probability 0.5),
      .addDistribution (.bernoulli ⟨0⟩ false),
      .addOperator (.sample ⟨1⟩),
      .addOperator (.sample ⟨1⟩),
      .addConstant (.real 0.0),
      .addConstant (.real 1.0),
      .addMap [(⟨4⟩, ⟨3⟩), (⟨5⟩, ⟨5⟩)],
      .addOperator (.binary .index ⟨6⟩ ⟨2⟩)]

/-- The tosses are two samples, so that the second may show a zero after the first did. -/
theorem exists_evaluates_secondToss :
    ∃ values, secondToss.supportOf ⟨7⟩ = .ok values ∧ secondToss.DrawsApart ⟨7⟩ ∧
      ∃ v ∈ values.toList, v.Matches (.tensor (.scalar 0.0)) ∧
        ∃ assigned, secondToss.DrawsFrom assigned ∧ secondToss.Evaluates assigned ⟨7⟩ v := by
  have reachable : secondToss.Reachable := ⟨_, rfl⟩
  have isIndex : secondToss.node ⟨7⟩ = .ok (.operator (.binary .index ⟨6⟩ ⟨2⟩)) := rfl
  have isMap : secondToss.node ⟨6⟩ = .ok (.map [(⟨4⟩, ⟨3⟩), (⟨5⟩, ⟨5⟩)]) := rfl
  have tossed : secondToss.supportOf ⟨2⟩ = .ok (.outcomes 2 .scalar) := rfl
  -- the only operation is the index, and its key is a sample of its own
  have isOperation : ∀ lower op left right,
      secondToss.node lower = .ok (.operator (.binary op left right)) →
        op = .index ∧ left = ⟨6⟩ ∧ right = ⟨2⟩ := by
    intro lower op left right found
    obtain ⟨i⟩ := lower
    match i with
    | 0 | 1 | 2 | 3 | 4 | 5 | 6 => cases found
    | 7 =>
        cases found
        exact ⟨rfl, rfl, rfl⟩
    | _ + 8 => cases found
  have apart : secondToss.DrawsApart ⟨7⟩ := by
    constructor
    · intro lower op left right sample _ found notIndex
      exact absurd (isOperation lower op left right found).1 notIndex
    · intro lower map key entries entry sample _ found foundMap present ofKey ofEntry
      obtain ⟨_, rfl, rfl⟩ := isOperation lower .index map key found
      cases isMap.symm.trans foundMap
      obtain rfl : sample = ⟨2⟩ := eq_of_descendsTo rfl rfl ofKey.1
      rcases List.mem_pair.mp present with rfl | rfl <;>
        cases eq_of_descendsTo rfl rfl ofEntry.1
  have selected : ∀ key ∈ (Support.outcomes 2 .scalar).toList, ∃ entry values,
      secondToss.lookup ⟨6⟩ key = .ok entry ∧ secondToss.supportOf entry = .ok values := by
    intro key present
    have sides : key ∈ [Value.tensor (.scalar 0.0), Value.tensor (.scalar 1.0)] := present
    rcases List.mem_pair.mp sides with rfl | rfl <;> exact ⟨_, _, rfl, rfl⟩
  obtain ⟨set, formed, listed⟩ :=
    exists_supportOf_index reachable.wellFormed isIndex tossed selected
  obtain ⟨entry, values, chosen, ofEntry, covers⟩ :=
    indexSupport_covers formed (.tensor (.scalar 0.0)) (.head _)
  cases (show secondToss.lookup ⟨6⟩ (.tensor (.scalar 0.0)) = .ok ⟨3⟩ from rfl).symm.trans chosen
  cases (show secondToss.supportOf ⟨3⟩ = .ok (.outcomes 2 .scalar) from rfl).symm.trans ofEntry
  obtain ⟨v, present, matching⟩ := covers (.tensor (.scalar 0.0)) (.head _)
  refine ⟨_, listed, apart, v, present, matching, ?_⟩
  rcases exists_evaluates_of_mem_supportOf reachable listed apart present with
    evaluated | ⟨⟨d, isDistribution⟩, _⟩
  · exact evaluated
  · cases isDistribution

end Graph

end ModelGraph

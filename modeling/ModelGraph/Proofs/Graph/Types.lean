import ModelGraph.Proofs.Graph.Locality
import ModelGraph.Proofs.NodeType

/-!
# Types in a well-formed graph

Distributions feed samples and nothing else, so no type of another node has a distribution among
its parts, and every type but that of a map can be repaired.  The type of an entry of a map is
unified from the types of all entries; since a type is repaired by its parts, it does not matter in
which order the entries come.
-/

namespace ModelGraph

open Outcome (Ensures)

/-- Something that has a value is no distribution. -/
theorem Node.IsOperand.ne_distribution
    {node : Node}
    (operand : node.IsOperand)
    (d : Distribution) :
    node ≠ .distribution d := by
  rintro rfl
  simp [IsOperand, category] at operand

namespace NodeType

/-- No distribution is among the parts of a type. -/
def NoDistribution (type : NodeType) : Prop :=
  ∀ family, .distribution family ∉ type.parts

theorem noDistribution_value (kind : Refinement) : (value kind).NoDistribution := by
  intro family
  simp [parts]

theorem noDistribution_map : map.NoDistribution := by
  intro family
  simp [parts]

theorem NoDistribution.unify
    {left right : NodeType}
    (ofLeft : left.NoDistribution)
    (ofRight : right.NoDistribution) :
    (NodeType.unify left right).NoDistribution := by
  intro family
  rw [mem_parts_unify, not_or]
  exact ⟨ofLeft family, ofRight family⟩

end NodeType

namespace Graph

open NodeType (NoDistribution)

/-! ## The entries of a map -/

/-- The types of the values of a map, in order. -/
def entryTypes (typeOf : NodeId → Except Error NodeType) (entries : List (NodeId × NodeId)) :
    List (Except Error NodeType) :=
  entries.map fun entry => typeOf entry.2

section Entries

variable {typeOf : NodeId → Except Error NodeType} {entries : List (NodeId × NodeId)}
  {type : NodeType}

theorem foldlM_unify_eq_ok_iff {first : NodeType} :
    entries.foldlM (fun type entry => return type.unify (← typeOf entry.2)) first = .ok type ↔
      ∃ types : List NodeType, entryTypes typeOf entries = types.map .ok ∧
        type = types.foldl .unify first := by
  induction entries generalizing first with
  | nil => simp [entryTypes, eq_comm]
  | cons entry entries ih =>
      rw [List.foldlM_cons]
      simp only [Outcome.bind_eq_ok_iff, Outcome.pure_eq, Except.ok.injEq]
      constructor
      · rintro ⟨_, ⟨own, typed, rfl⟩, later⟩
        obtain ⟨types, areTypes, rfl⟩ := ih.mp later
        exact ⟨own :: types, congrArg₂ List.cons typed areTypes, rfl⟩
      · rintro ⟨types, areTypes, rfl⟩
        cases types with
        | nil => cases areTypes
        | cons own types =>
            obtain ⟨typed, areTypes⟩ := List.cons.inj areTypes
            exact ⟨_, ⟨own, typed, rfl⟩, ih.mpr ⟨types, areTypes, rfl⟩⟩

/-- The type of an entry of a map is unified from the types of all its values. -/
theorem exists_types_of_entriesTypeFrom
    (typed : entriesTypeFrom typeOf entries = .ok type) :
    ∃ (first : NodeType) (types : List NodeType),
      entryTypes typeOf entries = (first :: types).map .ok ∧
        type = types.foldl .unify first := by
  cases entries with
  | nil => cases typed
  | cons entry entries =>
      obtain ⟨first, isFirst, later⟩ := Outcome.bind_eq_ok_iff.mp typed
      obtain ⟨types, areTypes, rfl⟩ := foldlM_unify_eq_ok_iff.mp later
      exact ⟨first, types, congrArg₂ List.cons isFirst areTypes, rfl⟩

theorem mem_parts_of_entriesTypeFrom
    (typed : entriesTypeFrom typeOf entries = .ok type)
    (part : NodeType) :
    part ∈ type.parts ↔ ∃ own, .ok own ∈ entryTypes typeOf entries ∧ part ∈ own.parts := by
  obtain ⟨first, types, areTypes, rfl⟩ := exists_types_of_entriesTypeFrom typed
  rw [NodeType.mem_parts_foldl_unify, areTypes]
  simp

theorem isMalformed_of_entriesTypeFrom
    (typed : entriesTypeFrom typeOf entries = .ok type) :
    type.isMalformed = true ↔
      (∃ answer ∈ entryTypes typeOf entries, ∃ other ∈ entryTypes typeOf entries,
          answer ≠ other) ∨
        ∃ own, .ok own ∈ entryTypes typeOf entries ∧ own.isMalformed = true := by
  obtain ⟨first, types, areTypes, rfl⟩ := exists_types_of_entriesTypeFrom typed
  rw [NodeType.isMalformed_foldl_unify_iff, areTypes]
  generalize first :: types = all
  simp

end Entries

/-! ## Distributions -/

theorem unifiedTypeFrom_noDistribution
    {typeOf : NodeId → Except Error NodeType} {left right : NodeId}
    (ofLeft : Ensures (typeOf left) NoDistribution fun _ => True)
    (ofRight : Ensures (typeOf right) NoDistribution fun _ => True) :
    Ensures (unifiedTypeFrom typeOf left right) NoDistribution fun _ => True := by
  refine ofLeft.bind fun _ leftPlain => ?_
  exact ofRight.bind fun _ rightPlain => leftPlain.unify rightPlain

theorem entriesTypeFrom_noDistribution
    {typeOf : NodeId → Except Error NodeType} {entries : List (NodeId × NodeId)}
    (each : ∀ entry ∈ entries, Ensures (typeOf entry.2) NoDistribution fun _ => True) :
    Ensures (entriesTypeFrom typeOf entries) NoDistribution fun _ => True := by
  cases typed : entriesTypeFrom typeOf entries with
  | error e => trivial
  | ok type =>
      intro family present
      obtain ⟨own, isOwn, isPart⟩ := (mem_parts_of_entriesTypeFrom typed _).mp present
      obtain ⟨entry, isEntry, ofEntry⟩ := List.mem_map.mp isOwn
      exact (each entry isEntry).of_ok ofEntry family isPart

/-- Whatever a node depends on is a distribution or has a type without distributions. -/
def PlainBelow (g : Graph) (id : NodeId) : Prop :=
  ∀ lower, g.Above id lower → ∀ node, g.node lower = .ok node → (∀ d, node ≠ .distribution d) →
    Ensures (g.typeOf lower) NoDistribution fun _ => True

namespace PlainBelow

variable {g : Graph} {id : NodeId}

/-- What a node works on has a value, unless the node is a sample.  This holds of the node itself
and of the nodes it depends on. -/
theorem input
    {user input : NodeId} {used : Node}
    (plain : g.PlainBelow id)
    (wellFormed : g.WellFormed)
    (path : g.Reaches id user)
    (found : g.node user = .ok used)
    (notSample : ∀ distribution, used ≠ .operator (.sample distribution))
    (present : input ∈ used.inputs) :
    Ensures (g.typeOf input) NoDistribution fun _ => True := by
  obtain ⟨operand, foundInput, isOperand⟩ :=
    (wellFormed.admits user used found).operand_input notSample input present
  have above : g.Above id input := Relation.TransGen.tail' path ⟨used, found, present⟩
  exact plain input above operand foundInput isOperand.ne_distribution

theorem index
    {left right : NodeId}
    (plain : g.PlainBelow id)
    (wellFormed : g.WellFormed)
    (found : g.node id = .ok (.operator (.binary .index left right)))
    (unified : Ensures (unifiedTypeFrom g.typeOf left right) NoDistribution fun _ => True) :
    Ensures (g.operatorTypeFrom g.typeOf (.binary .index left right)) NoDistribution
      fun _ => True := by
  simp only [operatorTypeFrom]
  cases foundLeft : g.node left with
  | error e => trivial
  | ok used =>
      cases used with
      | map entries =>
          have depends : g.DependsOn id left := ⟨_, found, List.mem_cons_self⟩
          refine entriesTypeFrom_noDistribution fun entry present => ?_
          refine plain.input wellFormed (.single depends) foundLeft (by simp) ?_
          exact List.mem_flatMap.mpr ⟨entry, present, by simp⟩
      | _ => exact unified

/-- A sample has a kind of its own, or the type of a parameter. -/
theorem sample
    {distribution : NodeId}
    (plain : g.PlainBelow id)
    (wellFormed : g.WellFormed)
    (found : g.node id = .ok (.operator (.sample distribution))) :
    Ensures (g.sampleTypeFrom g.typeOf distribution) NoDistribution fun _ => True := by
  have depends : g.DependsOn id distribution := ⟨_, found, List.mem_cons_self⟩
  obtain ⟨d, isDistribution⟩ := (wellFormed.admits id _ found).sample_input distribution rfl
  simp only [sampleTypeFrom, isDistribution, Outcome.ok_bind]
  split
  · exact NodeType.noDistribution_value _
  · next parameter _ leads =>
      exact plain.input wellFormed (.single depends) isDistribution (by simp)
        (mem_inputs_of_leading?_eq_some leads)
  · exact NodeType.noDistribution_value _

theorem operator
    {op : Operator}
    (plain : g.PlainBelow id)
    (wellFormed : g.WellFormed)
    (found : g.node id = .ok (.operator op)) :
    Ensures (g.operatorTypeFrom g.typeOf op) NoDistribution fun _ => True := by
  cases op with
  | ifThenElse condition consequence alternative =>
      exact plain.input wellFormed .refl found (by simp) (by simp [Node.inputs, Operator.inputs])
  | binary op left right =>
      have unified : Ensures (unifiedTypeFrom g.typeOf left right) NoDistribution fun _ => True :=
        unifiedTypeFrom_noDistribution
          (plain.input wellFormed .refl found (by simp) List.mem_cons_self)
          (plain.input wellFormed .refl found (by simp) (by simp [Node.inputs, Operator.inputs]))
      cases op with
      | index => exact plain.index wellFormed found unified
      | _ => exact unified
  | unary op operand =>
      have ofOperand := plain.input wellFormed .refl found (by simp) List.mem_cons_self
      cases op with
      | not => exact NodeType.noDistribution_value _
      | toReal => exact NodeType.noDistribution_value _
      | toTensor => exact NodeType.noDistribution_value _
      | _ => exact ofOperand
  | sample distribution => exact plain.sample wellFormed found

end PlainBelow

/-- Only the types of distributions have distributions among their parts. -/
theorem WellFormed.typeOf_noDistribution
    {g : Graph}
    (wellFormed : g.WellFormed)
    (id : NodeId) :
    ∀ node, g.node id = .ok node → (∀ d, node ≠ .distribution d) →
      Ensures (g.typeOf id) NoDistribution fun _ => True := by
  induction id using wellFormed.induction with
  | step id ih =>
      intro node found noDistribution
      have plain : g.PlainBelow id := ih
      rw [typeOf_eq wellFormed found]
      cases node with
      | constant value => exact NodeType.noDistribution_value _
      | distribution d => exact absurd rfl (noDistribution d)
      | operator op => exact plain.operator wellFormed found
      | map entries => exact NodeType.noDistribution_map
      | observation observed value => exact NodeType.noDistribution_value _
      | query queried => exact plain.input wellFormed .refl found (by simp) List.mem_cons_self

/-! ## Permuted maps -/

section Permuted

variable {g : Graph} {map : NodeId} {entries entries' : List (NodeId × NodeId)}

/-- The entries of a map may be permuted. -/
theorem WellFormed.replace_entries
    (wellFormed : g.WellFormed)
    (found : g.node map = .ok (.map entries))
    (permuted : entries'.Perm entries) :
    (g.replace map (.map entries')).WellFormed := by
  have sameInputs : ∀ input,
      input ∈ (Node.map entries').inputs ↔ input ∈ (Node.map entries).inputs := by
    intro input
    simp only [Node.inputs, List.mem_flatMap, permuted.mem_iff]
  have before : ∀ user input,
      (g.replace map (.map entries')).DependsOn user input → g.DependsOn user input := by
    rintro user input ⟨node, foundUser, present⟩
    rw [node_replace] at foundUser
    split at foundUser
    · next here =>
        cases foundUser
        exact ⟨_, here.1 ▸ found, (sameInputs input).mp present⟩
    · exact ⟨node, foundUser, present⟩
  have admitted := wellFormed.admits map _ found
  refine wellFormed.replace found ⟨rfl, rfl⟩ ?_ ?_
  · refine
      { inputs_exist := ?_
        sample_input := by simp
        operand_input := ?_
        observed_input := by simp
        queried_input := by simp
        map_entries := ?_ }
    · intro input present
      exact admitted.inputs_exist input ((sameInputs input).mp present)
    · intro _ input present
      exact admitted.operand_input (by simp) input ((sameInputs input).mp present)
    · rintro _ ⟨⟩ rfl
      exact admitted.map_entries entries rfl permuted.nil_eq.symm
  · intro id cycle
    apply wellFormed.acyclic id
    exact Relation.TransGen.mono before id id cycle

/-- What a node depends on has the same type whatever the node is replaced by. -/
theorem WellFormed.typeOf_replace
    {entry : NodeId} {node : Node}
    (wellFormed : g.WellFormed)
    (wellFormed' : (g.replace map node).WellFormed)
    (depends : g.DependsOn map entry) :
    (g.replace map node).typeOf entry = g.typeOf entry := by
  refine wellFormed.answer_eq_of_node_eq wellFormed' (fun lower path => ?_) .type
  have different : lower ≠ map := by
    rintro rfl
    exact wellFormed.acyclic lower (.head' depends path)
  rw [node_replace, if_neg (fun here => different here.1)]

theorem typeOf_index
    {id key : NodeId}
    (wellFormed : g.WellFormed)
    (found : g.node id = .ok (.operator (.binary .index map key)))
    (foundMap : g.node map = .ok (.map entries)) :
    g.typeOf id = entriesTypeFrom g.typeOf entries := by
  rw [typeOf_eq wellFormed found]
  simp only [typeRule, operatorTypeFrom, foundMap, Outcome.ok_bind]

/-- Where the entries of a map are permuted, the type of an entry has the same parts, and is
malformed if it was. -/
theorem WellFormed.typeOf_index_replace
    {id key : NodeId} {type : NodeType}
    (wellFormed : g.WellFormed)
    (found : g.node id = .ok (.operator (.binary .index map key)))
    (foundMap : g.node map = .ok (.map entries))
    (typed : g.typeOf id = .ok type)
    (permuted : entries'.Perm entries) :
    ∃ type', (g.replace map (.map entries')).typeOf id = .ok type' ∧
      type'.isMalformed = type.isMalformed ∧ type'.repairTarget? = type.repairTarget? := by
  have wellFormed' := wellFormed.replace_entries foundMap permuted
  have apart : id ≠ map := by
    rintro rfl
    cases found.symm.trans foundMap
  have found' : (g.replace map (.map entries')).node id =
      .ok (.operator (.binary .index map key)) := by
    rw [node_replace, if_neg (fun here => apart here.1)]
    exact found
  have foundMap' : (g.replace map (.map entries')).node map = .ok (.map entries') := by
    rw [node_replace, if_pos ⟨rfl, index_lt_of_node_eq_ok foundMap⟩]
  have inside' := index_lt_of_node_eq_ok found'
  obtain ⟨type', typed'⟩ := wellFormed'.exists_typeOf inside'
  have sameTypes : ∀ answer,
      answer ∈ entryTypes (g.replace map (.map entries')).typeOf entries' ↔
        answer ∈ entryTypes g.typeOf entries := by
    intro answer
    have sameMap : entryTypes (g.replace map (.map entries')).typeOf entries' =
        entryTypes g.typeOf entries' := by
      refine List.map_congr_left fun entry present => ?_
      apply wellFormed.typeOf_replace wellFormed'
      refine ⟨_, foundMap, List.mem_flatMap.mpr ⟨entry, permuted.mem_iff.mp present, ?_⟩⟩
      simp
    rw [sameMap]
    exact (permuted.map _).mem_iff
  refine ⟨type', typed', ?_, ?_⟩
  all_goals
    rw [typeOf_index wellFormed found foundMap] at typed
    rw [typeOf_index wellFormed' found' foundMap'] at typed'
  · rw [Bool.eq_iff_iff, isMalformed_of_entriesTypeFrom typed,
      isMalformed_of_entriesTypeFrom typed']
    simp only [sameTypes]
  · apply NodeType.repairTarget?_eq_of_parts
    intro part
    rw [mem_parts_of_entriesTypeFrom typed, mem_parts_of_entriesTypeFrom typed']
    simp only [sameTypes]

end Permuted

/-- Whatever is not a distribution has a type without distributions.  It can be repaired unless a
map is among its parts, by the least kind to which all of them can be coerced.  The type of an entry
of a map is malformed if the entries differ or one of them is malformed, and permuting the entries
changes neither this nor the repair. -/
theorem types_are_repairable
    {g : Graph}
    (reachable : g.Reachable) :
    (∀ id node, g.node id = .ok node → (∀ d, node ≠ .distribution d) →
      ∃ type, g.typeOf id = .ok type ∧
        (∀ family, .distribution family ∉ type.parts) ∧
        (type.repairTarget? = none ↔ .map ∈ type.parts) ∧
        ∀ repair, type.repairTarget? = some repair →
          IsLUB {kind | .value kind ∈ type.parts} repair) ∧
      ∀ id map key entries,
        g.node id = .ok (.operator (.binary .index map key)) → g.node map = .ok (.map entries) →
          ∃ type, g.typeOf id = .ok type ∧
            (type.isMalformed = true ↔
              (∃ entry ∈ entries, ∃ other ∈ entries, g.typeOf entry.2 ≠ g.typeOf other.2) ∨
                ∃ entry ∈ entries, ∃ own, g.typeOf entry.2 = .ok own ∧ own.isMalformed = true) ∧
            ∀ entries', entries'.Perm entries →
              (g.replace map (.map entries')).Reachable ∧
                ∃ type', (g.replace map (.map entries')).typeOf id = .ok type' ∧
                  type'.isMalformed = type.isMalformed ∧
                  type'.repairTarget? = type.repairTarget? := by
  have wellFormed := reachable.wellFormed
  constructor
  · intro id node found noDistribution
    obtain ⟨type, typed⟩ := wellFormed.exists_typeOf (index_lt_of_node_eq_ok found)
    have plain : type.NoDistribution :=
      (wellFormed.typeOf_noDistribution id node found noDistribution).of_ok typed
    refine ⟨type, typed, plain, NodeType.repairTarget?_eq_none_iff plain, ?_⟩
    intro repair repaired
    exact NodeType.isLUB_repairTarget? repaired
  · intro id map key entries found foundMap
    obtain ⟨type, typed⟩ := wellFormed.exists_typeOf (index_lt_of_node_eq_ok found)
    refine ⟨type, typed, ?_, ?_⟩
    · have unified := typed
      rw [typeOf_index wellFormed found foundMap] at unified
      rw [isMalformed_of_entriesTypeFrom unified]
      simp only [entryTypes, List.mem_map, exists_exists_and_eq_and]
      apply or_congr_right
      constructor
      · rintro ⟨own, ⟨entry, present, ofEntry⟩, malformed⟩
        exact ⟨entry, present, own, ofEntry, malformed⟩
      · rintro ⟨entry, present, own, ofEntry, malformed⟩
        exact ⟨own, ⟨entry, present, ofEntry⟩, malformed⟩
    · intro entries' permuted
      exact ⟨reachable_iff_wellFormed.mpr (wellFormed.replace_entries foundMap permuted),
        wellFormed.typeOf_index_replace found foundMap typed permuted⟩

/-- A map whose entries are a probability and a natural number, in which the second is looked up. -/
def mixedEntries : Graph where
  nodes := #[
    .constant (.natural 0),
    .constant (.natural 1),
    .constant (.probability 0.5),
    .map [(⟨0⟩, ⟨2⟩), (⟨1⟩, ⟨1⟩)],
    .operator (.binary .index ⟨3⟩ ⟨1⟩)]

theorem types_are_repairable_mixedEntries :
    ∃ type, mixedEntries.typeOf ⟨4⟩ = .ok type ∧ type.isMalformed = true ∧
      IsLUB {kind | .value kind ∈ type.parts} .positiveReal ∧
      ∃ type', (mixedEntries.replace ⟨3⟩ (.map [(⟨1⟩, ⟨1⟩), (⟨0⟩, ⟨2⟩)])).typeOf ⟨4⟩ = .ok type' ∧
        type'.isMalformed = true ∧ type'.repairTarget? = some .positiveReal := by
  have ordered : mixedEntries.topologicalOrder = .ok mixedEntries.ids := by decide +kernel
  have reachable : mixedEntries.Reachable := reachable_of_check rfl ordered
  have typed : mixedEntries.typeOf ⟨4⟩ =
      .ok (.malformed (.value .probability) (.value .natural)) := rfl
  obtain ⟨ofAll, ofEntries⟩ := types_are_repairable reachable
  obtain ⟨type, typed', _, _, least⟩ := ofAll ⟨4⟩ _ rfl fun _ equal => nomatch equal
  obtain ⟨type'', typed'', _, permuted⟩ := ofEntries ⟨4⟩ ⟨3⟩ ⟨1⟩ _ rfl rfl
  cases typed.symm.trans typed'
  cases typed.symm.trans typed''
  obtain ⟨_, type', swapped, malformed, repaired⟩ := permuted _ (List.Perm.swap _ _ [])
  exact ⟨_, typed, rfl, least _ rfl, type', swapped, malformed, repaired⟩

end Graph

end ModelGraph

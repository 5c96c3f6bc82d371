import ModelGraph.Emission.Recording
import ModelGraph.Proofs.Outcome

/-!
# What an engine is told about a node

`Node.LowersTo` relates a node to the instruction for it without saying where the node is
and in which order its inputs are looked up.  Only the handles of the inputs matter, so that
handles that are given later do not change an instruction.
-/

namespace ModelGraph

namespace Handle

theorem toNat_ofNat_le (n : Nat) : (ofNat n).toNat ≤ n := by
  change (UInt32.ofNat n).toNat ≤ n
  rw [UInt32.toNat_ofNat']
  exact Nat.mod_le n _

theorem toNat_ofNat_of_lt {n : Nat} (small : n < UInt32.size) : (ofNat n).toNat = n := by
  change (UInt32.ofNat n).toNat = n
  rw [UInt32.toNat_ofNat']
  exact Nat.mod_eq_of_lt small

theorem ofNat_toNat (handle : Handle) : ofNat handle.toNat = handle := by
  obtain ⟨word⟩ := handle
  exact congrArg Handle.mk UInt32.ofNat_toNat

end Handle

namespace Handles

theorem get_eq_ok_iff {handles : Handles} {node : NodeId} {handle : Handle} :
    handles.get node = .ok handle ↔ handles.get? node = some handle := by
  unfold get
  cases handles.get? node <;> simp

/-- Nodes are resolved to the handles they have, one by one. -/
theorem resolve_eq_ok_iff
    {handles : Handles} {nodes : List NodeId} {resolved : List Handle} :
    handles.resolve nodes = .ok resolved ↔ nodes.map handles.get? = resolved.map some := by
  unfold resolve
  induction nodes generalizing resolved with
  | nil => cases resolved <;> simp
  | cons node nodes ih =>
      rw [List.mapM_cons]
      simp only [Outcome.bind_eq_ok_iff, get_eq_ok_iff, ih]
      constructor
      · rintro ⟨first, isFirst, rest, areRest, equal⟩
        cases equal
        simp [isFirst, areRest]
      · intro equal
        cases resolved with
        | nil => simp at equal
        | cons first rest =>
            obtain ⟨isFirst, areRest⟩ := List.cons.inj equal
            exact ⟨first, isFirst, rest, areRest, rfl⟩

/-- Handles that were given are not taken away. -/
def KeptIn (handles handles' : Handles) : Prop :=
  ∀ id handle, handles.get? id = some handle → handles'.get? id = some handle

theorem KeptIn.refl (handles : Handles) : handles.KeptIn handles :=
  fun _ _ found => found

theorem KeptIn.trans
    {handles handles' handles'' : Handles}
    (first : handles.KeptIn handles')
    (next : handles'.KeptIn handles'') :
    handles.KeptIn handles'' :=
  fun id handle found => next id handle (first id handle found)

/-- A node that had no handle may be given one. -/
theorem keptIn_insert
    {handles : Handles} {id : NodeId} {handle : Handle}
    (fresh : handles.get? id = none) :
    handles.KeptIn (handles.insert id handle) := by
  intro other old found
  have different : other ≠ id := by
    rintro rfl
    cases fresh.symm.trans found
  rw [get?_insert, if_neg different]
  exact found

theorem KeptIn.map_get?
    {handles handles' : Handles} {nodes : List NodeId} {resolved : List Handle}
    (kept : handles.KeptIn handles')
    (areResolved : nodes.map handles.get? = resolved.map some) :
    nodes.map handles'.get? = resolved.map some := by
  induction nodes generalizing resolved with
  | nil => exact areResolved
  | cons node nodes ih =>
      cases resolved with
      | nil => cases areResolved
      | cons first rest =>
          obtain ⟨isFirst, areRest⟩ := List.cons.inj areResolved
          rw [List.map_cons, List.map_cons, kept node first isFirst, ih areRest]

end Handles

namespace Node

/-- Whether a node has a vertex of its own. -/
def hasVertex (node : Node) : Bool :=
  !node.isMarker

/-- Whether a node states an observation. -/
def isObservation : Node → Bool
  | .observation .. => true
  | _ => false

/-- Whether a node asks for a value. -/
def isQuery : Node → Bool
  | .query _ => true
  | _ => false

/-- The instruction for a node, where inputs are known by their handles. -/
inductive LowersTo (handles : Handles) : Node → Instruction → Prop where
  | constant (value : Value) :
      LowersTo handles (.constant value) (.add (.ofValue value))
  | distribution {d : Distribution} {tag : DistributionTag} {kind : Refinement}
      {inputs : List Handle}
      (known : d.parameters.tag? = some (tag, kind))
      (resolved : d.parameters.inputs.map handles.get? = inputs.map some) :
      LowersTo handles (.distribution d) (.add (.distribution tag kind inputs))
  | operator {op : Operator} {tag : OperatorTag} {inputs : List Handle}
      (known : op.tag = .ok tag)
      (resolved : op.inputs.map handles.get? = inputs.map some) :
      LowersTo handles (.operator op) (.add (.operator tag inputs))
  | observation {observed : NodeId} {value : Value} {handle : Handle}
      (resolved : handles.get? observed = some handle) :
      LowersTo handles (.observation observed value) (.observe handle value)
  | query {queried : NodeId} {handle : Handle}
      (resolved : handles.get? queried = some handle) :
      LowersTo handles (.query queried) (.query handle)

theorem LowersTo.of_keptIn
    {handles handles' : Handles} {node : Node} {instruction : Instruction}
    (lowers : node.LowersTo handles instruction)
    (kept : handles.KeptIn handles') :
    node.LowersTo handles' instruction := by
  cases lowers with
  | constant value => exact .constant value
  | distribution known resolved => exact .distribution known (kept.map_get? resolved)
  | operator known resolved => exact .operator known (kept.map_get? resolved)
  | observation resolved => exact .observation (kept _ _ resolved)
  | query resolved => exact .query (kept _ _ resolved)

/-- A vertex refers to nothing but the handles of the inputs of its node. -/
theorem LowersTo.mem_inputs
    {handles : Handles} {node : Node} {vertex : Vertex} {handle : Handle}
    (lowers : node.LowersTo handles (.add vertex))
    (refers : handle ∈ vertex.inputs) :
    ∃ id, handles.get? id = some handle := by
  have amongInputs : ∀ {ids : List NodeId} {inputs : List Handle},
      ids.map handles.get? = inputs.map some → handle ∈ inputs →
        ∃ id, handles.get? id = some handle := by
    intro ids inputs resolved present
    have found : some handle ∈ ids.map handles.get? := resolved ▸ List.mem_map_of_mem present
    obtain ⟨id, _, isHandle⟩ := List.mem_map.mp found
    exact ⟨id, isHandle⟩
  cases lowers with
  | constant value => cases value <;> cases refers
  | distribution known resolved => exact amongInputs resolved refers
  | operator known resolved => exact amongInputs resolved refers

end Node

namespace Graph

theorem lower_eq_ok_of_lowersTo
    {g : Graph} {handles : Handles} {id : NodeId} {node : Node} {instruction : Instruction}
    (found : g.node id = .ok node)
    (lowers : node.LowersTo handles instruction) :
    g.lower handles id = .ok instruction := by
  unfold lower
  rw [found, Outcome.ok_bind]
  cases lowers with
  | constant value => rfl
  | distribution known resolved => simp [known, Handles.resolve_eq_ok_iff.mpr resolved]
  | operator known resolved => simp [known, Handles.resolve_eq_ok_iff.mpr resolved]
  | observation resolved => simp [Handles.get_eq_ok_iff.mpr resolved]
  | query resolved => simp [Handles.get_eq_ok_iff.mpr resolved]

theorem lowersTo_of_lower_eq_ok
    {g : Graph} {handles : Handles} {id : NodeId} {node : Node} {instruction : Instruction}
    (found : g.node id = .ok node)
    (lowered : g.lower handles id = .ok instruction) :
    node.LowersTo handles instruction := by
  unfold lower at lowered
  rw [found, Outcome.ok_bind] at lowered
  cases node with
  | constant value =>
      cases lowered
      exact .constant value
  | distribution d =>
      cases known : d.parameters.tag? with
      | none => simp [known] at lowered
      | some family =>
          simp only [known] at lowered
          obtain ⟨inputs, resolved, equal⟩ := Outcome.bind_eq_ok_iff.mp lowered
          cases equal
          exact .distribution known (Handles.resolve_eq_ok_iff.mp resolved)
  | operator op =>
      cases known : op.tag with
      | error what => simp [known] at lowered
      | ok tag =>
          simp only [known] at lowered
          obtain ⟨inputs, resolved, equal⟩ := Outcome.bind_eq_ok_iff.mp lowered
          cases equal
          exact .operator known (Handles.resolve_eq_ok_iff.mp resolved)
  | map entries => cases lowered
  | observation observed value =>
      obtain ⟨handle, resolved, equal⟩ := Outcome.bind_eq_ok_iff.mp lowered
      cases equal
      exact .observation (Handles.get_eq_ok_iff.mp resolved)
  | query queried =>
      obtain ⟨handle, resolved, equal⟩ := Outcome.bind_eq_ok_iff.mp lowered
      cases equal
      exact .query (Handles.get_eq_ok_iff.mp resolved)

theorem lower_eq_ok_iff
    {g : Graph} {handles : Handles} {id : NodeId} {instruction : Instruction} :
    g.lower handles id = .ok instruction ↔
      ∃ node, g.node id = .ok node ∧ node.LowersTo handles instruction := by
  constructor
  · intro lowered
    obtain ⟨node, found, _⟩ := Outcome.bind_eq_ok_iff.mp lowered
    exact ⟨node, found, lowersTo_of_lower_eq_ok found lowered⟩
  · rintro ⟨node, found, lowers⟩
    exact lower_eq_ok_of_lowersTo found lowers

theorem lower_of_keptIn
    {g : Graph} {handles handles' : Handles} {id : NodeId} {instruction : Instruction}
    (lowered : g.lower handles id = .ok instruction)
    (kept : handles.KeptIn handles') :
    g.lower handles' id = .ok instruction := by
  obtain ⟨node, found, lowers⟩ := lower_eq_ok_iff.mp lowered
  exact lower_eq_ok_iff.mpr ⟨node, found, lowers.of_keptIn kept⟩

end Graph

end ModelGraph

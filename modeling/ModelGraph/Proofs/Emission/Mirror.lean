import ModelGraph.Proofs.Emission.Recording

/-!
# A recorded graph is a mirror image

`Graph.Mirrors` says what a recording that was told about a whole graph has to do with the
graph.  Handles number the nodes other than markers without gaps and in dependency order,
vertices are linked as these nodes are, and the markers are the observations and queries.
-/

namespace ModelGraph

namespace Graph

/-- A recording and the handles it gave are an image of a graph in a given order. -/
structure Mirrors (g : Graph) (order : List NodeId) (handles : Handles) (r : Recording) :
    Prop where
  /-- The order has every node once. -/
  complete : order.Perm g.ids
  /-- The nodes with a handle are those that are no markers. -/
  handled : ∀ id, (∃ handle, handles.get? id = some handle) ↔
    ∃ node, g.node id = .ok node ∧ node.isMarker = false
  /-- Every handle is the number of a vertex. -/
  inRange : ∀ id handle, handles.get? id = some handle → handle.toNat < r.vertices.size
  /-- Every vertex is that of exactly one node. -/
  bijective : ∀ k < r.vertices.size,
    ∃! id, ∃ handle, handles.get? id = some handle ∧ handle.toNat = k
  /-- Later nodes have higher handles. -/
  increasing : order.Pairwise fun earlier later => ∀ handle handle',
    handles.get? earlier = some handle → handles.get? later = some handle' →
      handle.toNat < handle'.toNat
  /-- Positive reals have vertices of their own. -/
  positiveReals : ∀ id x, g.node id = .ok (.constant (.positiveReal x)) →
    ∃ handle, handles.get? id = some handle ∧ r.vertex? handle = some (.positiveReal x)
  /-- So have probabilities. -/
  probabilities : ∀ id x, g.node id = .ok (.constant (.probability x)) →
    ∃ handle, handles.get? id = some handle ∧ r.vertex? handle = some (.probability x)
  /-- The vertex of any other constant holds its value. -/
  constants : ∀ id value, g.node id = .ok (.constant value) →
    (∀ x, value ≠ .positiveReal x) → (∀ x, value ≠ .probability x) →
      ∃ handle, handles.get? id = some handle ∧ r.vertex? handle = some (.constant value)
  /-- The vertex of a distribution lists the handles of its inputs, which are lower. -/
  distributions : ∀ id d, g.node id = .ok (.distribution d) →
    ∃ handle tag kind inputs, handles.get? id = some handle ∧
      d.parameters.tag? = some (tag, kind) ∧
        r.vertex? handle = some (.distribution tag kind inputs) ∧
          d.parameters.inputs.map handles.get? = inputs.map some ∧
            ∀ input ∈ inputs, input.toNat < handle.toNat
  /-- The vertex of an operator lists the handles of its inputs, which are lower. -/
  operators : ∀ id op, g.node id = .ok (.operator op) →
    ∃ handle tag inputs, handles.get? id = some handle ∧ op.tag = .ok tag ∧
      r.vertex? handle = some (.operator tag inputs) ∧
        op.inputs.map handles.get? = inputs.map some ∧
          ∀ input ∈ inputs, input.toNat < handle.toNat
  /-- The observations are those of the graph, in order. -/
  observations : List.Forall₂
    (fun id seen => ∃ observed, g.node id = .ok (.observation observed seen.2) ∧
      handles.get? observed = some seen.1)
    (g.select Node.isObservation order) r.observations.toList
  /-- The queries are those of the graph, in order. -/
  queries : List.Forall₂
    (fun id asked => ∃ queried, g.node id = .ok (.query queried) ∧
      handles.get? queried = some asked)
    (g.select Node.isQuery order) r.queries.toList

theorem pairwise_place_lt {ids : List NodeId} (nodup : ids.Nodup) :
    ids.Pairwise fun a b => ∀ i j : Nat, ids[i]? = some a → ids[j]? = some b → i < j := by
  rw [List.pairwise_iff_getElem]
  intro i j insideLeft insideRight before i' j' placeLeft placeRight
  obtain ⟨insideLeft', isLeft⟩ := List.getElem?_eq_some_iff.mp placeLeft
  obtain ⟨insideRight', isRight⟩ := List.getElem?_eq_some_iff.mp placeRight
  rw [nodup.getElem_inj_iff] at isLeft isRight
  omega

namespace Recorded

variable {g : Graph} {order : List NodeId} {handles : Handles} {r : Recording}

theorem size_vertices_le
    (recorded : g.Recorded order handles r)
    (complete : order.Perm g.ids) :
    r.vertices.size ≤ g.size := by
  rw [recorded.size_vertices, ← length_ids, ← complete.length_eq]
  exact List.length_filter_le _ _

/-- As long as numbers fit into a word, a handle is the place of its node. -/
theorem get?_eq_some_iff
    (recorded : g.Recorded order handles r)
    (small : r.vertices.size < UInt32.size)
    (id : NodeId) (handle : Handle) :
    handles.get? id = some handle ↔
      (g.select Node.hasVertex order)[handle.toNat]? = some id := by
  rw [recorded.numbers id handle]
  constructor
  · rintro ⟨k, place, rfl⟩
    have inside := (List.getElem?_eq_some_iff.mp place).1
    rw [← recorded.size_vertices] at inside
    rw [Handle.toNat_ofNat_of_lt (Nat.lt_trans inside small)]
    exact place
  · intro place
    exact ⟨handle.toNat, place, handle.ofNat_toNat.symm⟩

/-- The vertex at the handle of a node is what the node lowers to. -/
theorem vertex_of_get?
    {id : NodeId} {handle : Handle}
    (recorded : g.Recorded order handles r)
    (small : r.vertices.size < UInt32.size)
    (given : handles.get? id = some handle) :
    ∃ vertex, r.vertex? handle = some vertex ∧ g.lower handles id = .ok (.add vertex) := by
  have place := (recorded.get?_eq_some_iff small id handle).mp given
  obtain ⟨inside, isNode⟩ := List.getElem?_eq_some_iff.mp place
  have inside' : handle.toNat < r.vertices.toList.length :=
    recorded.vertices.length_eq ▸ inside
  refine ⟨r.vertices.toList[handle.toNat], ?_, ?_⟩
  · unfold Recording.vertex?
    rw [← Array.getElem?_toList]
    exact List.getElem?_eq_getElem inside'
  · have lowered := recorded.vertices.get inside inside'
    simp only [List.get_eq_getElem, isNode] at lowered
    exact lowered

theorem handled
    (recorded : g.Recorded order handles r)
    (complete : order.Perm g.ids)
    (id : NodeId) :
    (∃ handle, handles.get? id = some handle) ↔
      ∃ node, g.node id = .ok node ∧ node.isMarker = false := by
  have isSelected : id ∈ g.select Node.hasVertex order ↔
      ∃ node, g.node id = .ok node ∧ node.isMarker = false := by
    rw [mem_select, complete.mem_iff, mem_ids]
    simp only [Node.hasVertex, Bool.not_eq_true']
    constructor
    · exact And.right
    · rintro ⟨node, found, noMarker⟩
      exact ⟨index_lt_of_node_eq_ok found, node, found, noMarker⟩
  rw [← isSelected, List.mem_iff_getElem?]
  constructor
  · rintro ⟨handle, given⟩
    obtain ⟨k, place, _⟩ := (recorded.numbers id handle).mp given
    exact ⟨k, place⟩
  · rintro ⟨k, place⟩
    exact ⟨.ofNat k, (recorded.numbers id _).mpr ⟨k, place, rfl⟩⟩

theorem increasing
    (recorded : g.Recorded order handles r)
    (small : r.vertices.size < UInt32.size)
    (nodup : order.Nodup) :
    order.Pairwise fun earlier later => ∀ handle handle',
      handles.get? earlier = some handle → handles.get? later = some handle' →
        handle.toNat < handle'.toNat := by
  have places := List.pairwise_filter.mp
    (pairwise_place_lt (nodup_select (g := g) (p := Node.hasVertex) nodup))
  refine places.imp fun {earlier later} ascending handle handle' given given' => ?_
  have place := (recorded.get?_eq_some_iff small earlier handle).mp given
  have place' := (recorded.get?_eq_some_iff small later handle').mp given'
  have selected := List.mem_filter.mp (List.mem_of_getElem? place)
  have selected' := List.mem_filter.mp (List.mem_of_getElem? place')
  exact ascending selected.2 selected'.2 _ _ place place'

/-- Every node that is no marker lowers to the vertex at its handle. -/
theorem exists_vertex
    {id : NodeId} {node : Node}
    (recorded : g.Recorded order handles r)
    (complete : order.Perm g.ids)
    (small : r.vertices.size < UInt32.size)
    (found : g.node id = .ok node)
    (noMarker : node.isMarker = false) :
    ∃ handle vertex, handles.get? id = some handle ∧ r.vertex? handle = some vertex ∧
      node.LowersTo handles (.add vertex) ∧
        ∀ input ∈ vertex.inputs, input.toNat < handle.toNat := by
  obtain ⟨handle, given⟩ := (recorded.handled complete id).mpr ⟨node, found, noMarker⟩
  obtain ⟨vertex, there, lowered⟩ := recorded.vertex_of_get? small given
  obtain ⟨node', found', lowers⟩ := lower_eq_ok_iff.mp lowered
  cases found.symm.trans found'
  exact ⟨handle, vertex, given, there, lowers, recorded.upward _ vertex there⟩

theorem exists_vertex_constant
    {id : NodeId} {value : Value}
    (recorded : g.Recorded order handles r)
    (complete : order.Perm g.ids)
    (small : r.vertices.size < UInt32.size)
    (found : g.node id = .ok (.constant value)) :
    ∃ handle, handles.get? id = some handle ∧ r.vertex? handle = some (.ofValue value) := by
  obtain ⟨handle, vertex, given, there, lowers, _⟩ :=
    recorded.exists_vertex complete small found rfl
  cases lowers
  exact ⟨handle, given, there⟩

theorem mirrors
    (recorded : g.Recorded order handles r)
    (complete : order.Perm g.ids)
    (fits : g.size < UInt32.size) :
    g.Mirrors order handles r := by
  have small : r.vertices.size < UInt32.size :=
    Nat.lt_of_le_of_lt (recorded.size_vertices_le complete) fits
  have nodup : order.Nodup := complete.nodup_iff.mpr g.nodup_ids
  refine
    { complete := complete
      handled := recorded.handled complete
      inRange := ?_
      bijective := ?_
      increasing := recorded.increasing small nodup
      positiveReals := fun id x => recorded.exists_vertex_constant complete small
      probabilities := fun id x => recorded.exists_vertex_constant complete small
      constants := ?_
      distributions := ?_
      operators := ?_
      observations := ?_
      queries := ?_ }
  · intro id handle given
    exact recorded.get?_lt given
  · intro k inside
    have word := Handle.toNat_ofNat_of_lt (Nat.lt_trans inside small)
    rw [recorded.size_vertices] at inside
    refine ⟨(g.select Node.hasVertex order)[k], ⟨.ofNat k, ?_, word⟩, ?_⟩
    · rw [recorded.get?_eq_some_iff small, word]
      exact List.getElem?_eq_getElem inside
    · rintro other ⟨handle, given, rfl⟩
      have place := (recorded.get?_eq_some_iff small other handle).mp given
      exact (List.getElem?_eq_some_iff.mp place).2.symm
  · intro id value found notPositive notProbability
    obtain ⟨handle, given, there⟩ := recorded.exists_vertex_constant complete small found
    refine ⟨handle, given, there.trans ?_⟩
    cases value with
    | positiveReal x => exact absurd rfl (notPositive x)
    | probability x => exact absurd rfl (notProbability x)
    | _ => rfl
  · intro id d found
    obtain ⟨handle, vertex, given, there, lowers, lower⟩ :=
      recorded.exists_vertex complete small found rfl
    cases lowers with
    | distribution known resolved =>
        exact ⟨handle, _, _, _, given, known, there, resolved, lower⟩
  · intro id op found
    obtain ⟨handle, vertex, given, there, lowers, lower⟩ :=
      recorded.exists_vertex complete small found rfl
    cases lowers with
    | operator known resolved => exact ⟨handle, _, _, given, known, there, resolved, lower⟩
  · refine recorded.observations.imp fun id seen lowered => ?_
    obtain ⟨node, found, lowers⟩ := lower_eq_ok_iff.mp lowered
    cases lowers with
    | observation resolved => exact ⟨_, found, resolved⟩
  · refine recorded.queries.imp fun id asked lowered => ?_
    obtain ⟨node, found, lowers⟩ := lower_eq_ok_iff.mp lowered
    cases lowers with
    | query resolved => exact ⟨_, found, resolved⟩

end Recorded

/-- A recording that was told about a whole graph is an image of it. -/
theorem record_mirrors
    {g : Graph} {handles : Handles} {r : Recording}
    (fits : g.size < UInt32.size)
    (told : g.record ∅ = (.ok handles, r)) :
    ∃ order, g.topologicalOrder = .ok order ∧ g.Mirrors order handles r := by
  unfold record at told
  split at told
  · cases told
  · next order ordered =>
      have complete := (topologicalOrder_spec ordered).1
      have nodup : order.Nodup := complete.nodup_iff.mpr g.nodup_ids
      have recorded : g.Recorded ([] ++ order) handles r := (Recorded.empty g).run nodup told
      exact ⟨order, ordered, recorded.mirrors complete fits⟩

/-- An observed and queried coin, with every node but one before its inputs. -/
def backwardsCoin : Graph where
  nodes := #[
    .query ⟨1⟩,
    .operator (.sample ⟨2⟩),
    .distribution (.ofParameters (.bernoulli ⟨3⟩ false)),
    .constant (.probability 0.5),
    .observation ⟨1⟩ (.boolean true)]

/-- The bias has the first vertex, which is that of a probability. -/
theorem record_backwardsCoin :
    ∃ handles r, backwardsCoin.record ∅ = (.ok handles, r) ∧
      handles.toList = [(⟨3⟩, .ofNat 0), (⟨2⟩, .ofNat 1), (⟨1⟩, .ofNat 2)] ∧
        r.vertex? (.ofNat 0) = some (.probability 0.5) ∧
          backwardsCoin.Mirrors [⟨3⟩, ⟨2⟩, ⟨1⟩, ⟨0⟩, ⟨4⟩] handles r := by
  have ordered : backwardsCoin.topologicalOrder = .ok [⟨3⟩, ⟨2⟩, ⟨1⟩, ⟨0⟩, ⟨4⟩] := by
    decide +kernel
  obtain ⟨handles, r, told, numbered, first⟩ : ∃ handles r,
      backwardsCoin.record ∅ = (.ok handles, r) ∧
        handles.toList = [(⟨3⟩, .ofNat 0), (⟨2⟩, .ofNat 1), (⟨1⟩, .ofNat 2)] ∧
          handles.get? ⟨3⟩ = some (.ofNat 0) := by
    unfold record
    rw [ordered]
    exact ⟨_, _, rfl, rfl, rfl⟩
  obtain ⟨order, ordered', mirrors⟩ := record_mirrors (by decide) told
  cases ordered.symm.trans ordered'
  obtain ⟨handle, given, there⟩ := mirrors.probabilities ⟨3⟩ 0.5 rfl
  cases first.symm.trans given
  exact ⟨handles, r, told, numbered, there, mirrors⟩

end Graph

end ModelGraph

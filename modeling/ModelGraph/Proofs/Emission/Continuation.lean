import ModelGraph.Proofs.Emission.Mirror
import ModelGraph.Proofs.Graph.Acceptance

/-!
# Recordings that go on

A recording that holds something already may be told about a graph.  Nodes are lowered under the
handles that the recording gives, and it gives them by counting its vertices; apart from that it
does not look at what it holds.  So it gets what a fresh recording gets, with all handles shifted by
the number of vertices that were there before.  This is kept by each node that is told, also if
the next one fails.
-/

namespace ModelGraph

/-! ## Shifted handles -/

namespace Handle

/-- The handle of a vertex when `count` vertices are put before it. -/
def shift (count : Nat) (handle : Handle) : Handle :=
  .ofNat (handle.toNat + count)

theorem shift_ofNat (count n : Nat) : (ofNat n).shift count = ofNat (count + n) := by
  apply congrArg Handle.mk
  apply UInt32.toNat_inj.mp
  change (UInt32.ofNat ((UInt32.ofNat n).toNat + count)).toNat = _
  simp only [UInt32.toNat_ofNat']
  rw [Nat.mod_add_mod, Nat.add_comm]

theorem toNat_shift
    {handle : Handle} {count bound : Nat}
    (below : handle.toNat < bound)
    (fits : count + bound ≤ UInt32.size) :
    (handle.shift count).toNat = handle.toNat + count :=
  toNat_ofNat_of_lt (by omega)

end Handle

/-- A vertex with other handles for its inputs. -/
def Vertex.mapInputs (f : Handle → Handle) : Vertex → Vertex
  | .distribution tag kind inputs => .distribution tag kind (inputs.map f)
  | .operator tag inputs => .operator tag (inputs.map f)
  | vertex => vertex

theorem Vertex.mapInputs_ofValue
    (f : Handle → Handle) (value : Value) :
    (ofValue value).mapInputs f = ofValue value := by
  cases value <;> rfl

/-- An instruction with other handles. -/
def Instruction.mapHandles (f : Handle → Handle) : Instruction → Instruction
  | .add vertex => .add (vertex.mapInputs f)
  | .observe vertex value => .observe (f vertex) value
  | .query vertex => .query (f vertex)

namespace Handles

/-- The same nodes with other handles, in the same order. -/
def map (f : Handle → Handle) (handles : Handles) : Handles :=
  ⟨handles.toList.map fun entry => (entry.1, f entry.2)⟩

variable {f : Handle → Handle} {handles : Handles}

theorem get?_map (node : NodeId) : (handles.map f).get? node = (handles.get? node).map f := by
  unfold get? map
  induction handles.toList with
  | nil => rfl
  | cons entry entries ih =>
      rw [List.map_cons, List.lookup_cons, List.lookup_cons, ih]
      split <;> rfl

theorem map_insert (node : NodeId) (handle : Handle) :
    (handles.insert node handle).map f = (handles.map f).insert node (f handle) := by
  have present : (handles.map f).contains node = handles.contains node := by
    rw [contains, get?_map, Option.isSome_map, contains]
  unfold insert
  rw [present]
  -- the entry of the node is replaced in its place, or appended
  split
  · simp only [map, List.map_map, mk.injEq]
    refine List.map_congr_left fun entry _ => ?_
    by_cases here : entry.1 = node <;> simp [here]
  · simp [map]

theorem map_insert? (node : NodeId) (handle? : Option Handle) :
    (handles.insert? node handle?).map f = (handles.map f).insert? node (handle?.map f) := by
  cases handle? with
  | none => rfl
  | some handle => exact map_insert node handle

theorem get_map (node : NodeId) : (handles.map f).get node = (handles.get node).map f := by
  rw [get, get?_map, get]
  cases handles.get? node <;> rfl

theorem resolve_map (nodes : List NodeId) :
    (handles.map f).resolve nodes = (handles.resolve nodes).map (List.map f) := by
  unfold resolve
  induction nodes with
  | nil => rfl
  | cons node nodes ih =>
      rw [List.mapM_cons, List.mapM_cons, ih, get_map]
      cases handles.get node with
      | error e => rfl
      | ok handle => cases nodes.mapM handles.get <;> rfl

end Handles

/-- The instruction of a node has the handles under which the node is lowered. -/
theorem Graph.lower_map
    (g : Graph) (handles : Handles) (f : Handle → Handle) (id : NodeId) :
    g.lower (handles.map f) id = (g.lower handles id).map (Instruction.mapHandles f) := by
  unfold lower
  cases g.node id with
  | error e => rfl
  | ok node =>
      rw [Outcome.ok_bind, Outcome.ok_bind]
      cases node with
      | constant value =>
          change Except.ok (Instruction.add _) = .ok (.add ((Vertex.ofValue value).mapInputs f))
          rw [Vertex.mapInputs_ofValue]
      | distribution d =>
          simp only [Handles.resolve_map]
          cases d.parameters.tag? with
          | none => rfl
          | some known => cases handles.resolve d.parameters.inputs <;> rfl
      | operator op =>
          simp only [Handles.resolve_map]
          cases op.tag with
          | error what => rfl
          | ok tag => cases handles.resolve op.inputs <;> rfl
      | map entries => rfl
      | observation observed value =>
          simp only [Handles.get_map]
          cases handles.get observed <;> rfl
      | query queried =>
          simp only [Handles.get_map]
          cases handles.get queried <;> rfl

/-! ## One recording after another -/

namespace Recording

/-- A recording that goes on with what another one holds.  The handles of the other one are
shifted, since its vertices come after those of the first. -/
def followedBy (b r : Recording) : Recording where
  vertices := b.vertices ++ r.vertices.map (Vertex.mapInputs (.shift b.vertices.size))
  observations := b.observations ++
    r.observations.map fun seen => (seen.1.shift b.vertices.size, seen.2)
  queries := b.queries ++ r.queries.map (.shift b.vertices.size)

/-- A vertex is linked to a handle, or the handle is observed or queried. -/
def Mentions (r : Recording) (handle : Handle) : Prop :=
  (∃ vertex ∈ r.vertices, handle ∈ vertex.inputs) ∨
    (∃ value, (handle, value) ∈ r.observations) ∨ handle ∈ r.queries

variable (b r : Recording)

theorem followedBy_empty : b.followedBy ∅ = b := by
  obtain ⟨vertices, observations, queries⟩ := b
  simp [followedBy, EmptyCollection.emptyCollection]

/-- Shifted instructions are added behind. -/
theorem run_followedBy (instruction : Instruction) :
    (b.followedBy r).run (instruction.mapHandles (.shift b.vertices.size)) =
      ((r.run instruction).1.map (.shift b.vertices.size),
        b.followedBy (r.run instruction).2) := by
  cases instruction with
  | add vertex =>
      simp [run, followedBy, Instruction.mapHandles, Handle.shift_ofNat]
  | observe vertex value => simp [run, followedBy, Instruction.mapHandles]
  | query vertex => simp [run, followedBy, Instruction.mapHandles]

end Recording

namespace Graph

section Run

variable {g : Graph}

theorem recordNode_followedBy
    (b r : Recording) (handles : Handles) (id : NodeId) :
    g.recordNode (handles.map (.shift b.vertices.size)) (b.followedBy r) id =
      (g.recordNode handles r id).map fun told =>
        (told.1.map (.shift b.vertices.size), b.followedBy told.2) := by
  unfold recordNode
  rw [lower_map]
  cases g.lower handles id with
  | error e => rfl
  | ok instruction => exact congrArg Except.ok (b.run_followedBy r instruction)

/-- However far a recording gets with some nodes, it gets as far behind another one. -/
theorem recordNodes_followedBy
    (b r : Recording) (handles : Handles) (ids : List NodeId) :
    g.recordNodes (handles.map (.shift b.vertices.size)) (b.followedBy r) ids =
      ((g.recordNodes handles r ids).1.map (Handles.map (.shift b.vertices.size)),
        b.followedBy (g.recordNodes handles r ids).2) := by
  induction ids generalizing handles r with
  | nil => rfl
  | cons id ids ih =>
      unfold recordNodes
      rw [recordNode_followedBy]
      cases g.recordNode handles r id with
      | error e => rfl
      | ok told =>
          rw [← ih, Handles.map_insert?]
          rfl

theorem record_eq_followedBy (g : Graph) (b : Recording) :
    g.record b =
      ((g.record ∅).1.map (Handles.map (.shift b.vertices.size)), b.followedBy (g.record ∅).2) := by
  unfold record
  cases g.topologicalOrder with
  | error e => exact congrArg (Prod.mk _) b.followedBy_empty.symm
  | ok order =>
      have run := recordNodes_followedBy (g := g) b ∅ ∅ order
      rw [b.followedBy_empty] at run
      exact run

theorem lower_of_recordNode_eq_error
    {handles : Handles} {r : Recording} {id : NodeId} {e : Error}
    (failed : g.recordNode handles r id = .error e) :
    g.lower handles id = .error e := by
  unfold recordNode at failed
  cases lowered : g.lower handles id with
  | error e' =>
      rw [lowered] at failed
      cases failed
      rfl
  | ok instruction =>
      rw [lowered] at failed
      cases failed

/-- A failure comes from one node, and leaves what was recorded of the nodes before it. -/
theorem exists_failure_of_recordNodes
    {handles : Handles} {r r' : Recording} {ids : List NodeId} {e : Error}
    (failed : g.recordNodes handles r ids = (.error e, r')) :
    ∃ done id rest handles', ids = done ++ id :: rest ∧
      g.recordNodes handles r done = (.ok handles', r') ∧ g.lower handles' id = .error e := by
  induction ids generalizing handles r with
  | nil => cases failed
  | cons id ids ih =>
      unfold recordNodes at failed
      cases told : g.recordNode handles r id with
      | error e' =>
          rw [told] at failed
          cases failed
          exact ⟨[], id, ids, handles, rfl, rfl, lower_of_recordNode_eq_error told⟩
      | ok told' =>
          rw [told] at failed
          obtain ⟨done, failing, rest, handles', rfl, recorded, refused⟩ := ih failed
          refine ⟨id :: done, failing, rest, handles', rfl, ?_, refused⟩
          unfold recordNodes
          rw [told]
          exact recorded

end Run

namespace Recorded

variable {g : Graph} {done : List NodeId} {handles : Handles} {r : Recording}

/-- A recording mentions no other handles than the numbers of its vertices. -/
theorem lt_of_mentions
    {handle : Handle}
    (recorded : g.Recorded done handles r)
    (mentions : r.Mentions handle) :
    handle.toNat < r.vertices.size := by
  rcases mentions with ⟨vertex, present, refers⟩ | ⟨value, present⟩ | present
  · obtain ⟨k, there⟩ := Array.mem_iff_getElem?.mp present
    obtain ⟨inside, _⟩ := Array.getElem?_eq_some_iff.mp there
    exact Nat.lt_trans (recorded.upward k vertex there handle refers) inside
  · obtain ⟨id, lowered⟩ := recorded.observations.exists_lower (Array.mem_toList_iff.mpr present)
    obtain ⟨node, _, lowers⟩ := lower_eq_ok_iff.mp lowered
    cases lowers with
    | observation resolved => exact recorded.get?_lt resolved
  · obtain ⟨id, lowered⟩ := recorded.queries.exists_lower (Array.mem_toList_iff.mpr present)
    obtain ⟨node, _, lowers⟩ := lower_eq_ok_iff.mp lowered
    cases lowers with
    | query resolved => exact recorded.get?_lt resolved

end Recorded

/-- A fresh recording is made of the nodes before the first that fails, or of all nodes. -/
theorem exists_recorded_of_record
    {g : Graph} {order : List NodeId}
    (ordered : g.topologicalOrder = .ok order) :
    ∃ done rest handles, order = done ++ rest ∧
      g.recordNodes ∅ ∅ done = (.ok handles, (g.record ∅).2) ∧
      g.Recorded done handles (g.record ∅).2 ∧
      (rest = [] ∧ (g.record ∅).1 = .ok handles ∨
        ∃ id later e, rest = id :: later ∧ (g.record ∅).1 = .error e ∧
          g.lower handles id = .error e) := by
  have complete := (topologicalOrder_spec ordered).1
  have nodup : order.Nodup := complete.nodup_iff.mpr g.nodup_ids
  have whole : g.record ∅ = g.recordNodes ∅ ∅ order := by
    unfold record
    rw [ordered]
  rw [whole]
  cases told : g.recordNodes ∅ ∅ order with
  | mk answer r =>
      cases answer with
      | ok handles =>
          refine ⟨order, [], handles, (List.append_nil _).symm, told, ?_, .inl ⟨rfl, rfl⟩⟩
          exact (Recorded.empty g).run nodup told
      | error e =>
          obtain ⟨done, id, later, handles, rfl, recorded, refused⟩ :=
            exists_failure_of_recordNodes told
          refine ⟨done, id :: later, handles, rfl, recorded, ?_, ?_⟩
          · exact (Recorded.empty g).run (List.nodup_append.mp nodup).1 recorded
          · exact .inr ⟨id, later, e, rfl, rfl, refused⟩

/-- A recording that holds something already gets what a fresh recording gets, behind what it
holds: it succeeds where a fresh one does, and otherwise fails for the same reason.  All handles are
increased by the number of vertices it held.  If a node fails, what was added are the entries for
the nodes before it. -/
theorem record_continues_recording
    {g : Graph} {b : Recording}
    (reachable : g.Reachable)
    (fits : b.vertices.size + g.size < UInt32.size) :
    Outcome.Agree (fun later fresh => later = fresh.map (.shift b.vertices.size))
        (g.record b).1 (g.record ∅).1 ∧
      (g.record b).2 = b.followedBy (g.record ∅).2 ∧
      (∀ handle, (g.record ∅).2.Mentions handle →
        (handle.shift b.vertices.size).toNat = handle.toNat + b.vertices.size) ∧
      (∀ fresh, (g.record ∅).1 = .ok fresh → ∀ entry ∈ fresh.toList,
        (entry.2.shift b.vertices.size).toNat = entry.2.toNat + b.vertices.size) ∧
      ∀ e, (g.record b).1 = .error e → ∃ done id later handles,
        g.topologicalOrder = .ok (done ++ id :: later) ∧ g.lower handles id = .error e ∧
          g.recordNodes ∅ ∅ done = (.ok handles, (g.record ∅).2) ∧
          g.Recorded done handles (g.record ∅).2 := by
  obtain ⟨order, ordered⟩ := reachable.wellFormed.exists_order
  obtain ⟨done, rest, handles, rfl, told, recorded, outcome⟩ := exists_recorded_of_record ordered
  have agree : Outcome.Agree (fun later fresh => later = fresh.map (.shift b.vertices.size))
      (g.record b).1 (g.record ∅).1 := by
    rw [record_eq_followedBy g b]
    cases (g.record ∅).1 with
    | ok fresh => exact .ok rfl
    | error e => exact .error e
  have small : (g.record ∅).2.vertices.size ≤ g.size := by
    calc
      (g.record ∅).2.vertices.size = (g.select Node.hasVertex done).length :=
        recorded.size_vertices
      _ ≤ done.length := List.length_filter_le _ _
      _ ≤ (done ++ rest).length := (List.sublist_append_left done rest).length_le
      _ = g.size := by rw [(topologicalOrder_spec ordered).1.length_eq, length_ids]
  -- numbers below that of the vertices of `g` do not wrap around when they are shifted
  have shifted : ∀ handle : Handle, handle.toNat < (g.record ∅).2.vertices.size →
      (handle.shift b.vertices.size).toNat = handle.toNat + b.vertices.size := by
    intro handle below
    exact Handle.toNat_shift below (by omega)
  refine ⟨agree, by rw [record_eq_followedBy g b], ?_, ?_, ?_⟩
  · intro handle mentions
    exact shifted handle (recorded.lt_of_mentions mentions)
  · rintro fresh answered ⟨id, handle⟩ present
    rcases outcome with ⟨_, answered'⟩ | ⟨_, _, e, _, refused, _⟩
    · cases answered.symm.trans answered'
      have distinct := distinct_of_recordNodes Handles.distinct_empty told
      exact shifted handle (recorded.get?_lt (distinct.get?_of_mem present))
    · cases answered.symm.trans refused
  · intro e failed
    have refused := agree.symm.eq_error failed
    rcases outcome with ⟨_, answered⟩ | ⟨id, later, e', rfl, refused', lowered⟩
    · cases refused.symm.trans answered
    · cases refused.symm.trans refused'
      exact ⟨done, id, later, handles, ordered, lowered, told, recorded⟩

/-- A number whose logarithm cannot be emitted. -/
def refusedLogarithm : Graph where
  nodes := #[
    .operator (.unary .log ⟨1⟩),
    .constant (.positiveReal 2)]

/-- A coin is recorded, then recorded once more, and the logarithm is refused after its number. -/
theorem record_continues_recording_backwardsCoin :
    ∃ b, (backwardsCoin.record ∅).2 = b ∧ b.vertices.size = 3 ∧
      (∃ later, (backwardsCoin.record b).1 = .ok later ∧
        later.toList = [(⟨3⟩, .ofNat 3), (⟨2⟩, .ofNat 4), (⟨1⟩, .ofNat 5)]) ∧
      (backwardsCoin.record b).2 = b.followedBy b ∧
      (refusedLogarithm.record b).1 = .error (.emissionNotImplemented ⟨0⟩ "Log") ∧
        (refusedLogarithm.record b).2.vertices = b.vertices.push (.positiveReal 2) := by
  have ordered : backwardsCoin.topologicalOrder = .ok [⟨3⟩, ⟨2⟩, ⟨1⟩, ⟨0⟩, ⟨4⟩] := by
    decide +kernel
  have ordered' : refusedLogarithm.topologicalOrder = .ok [⟨1⟩, ⟨0⟩] := by decide +kernel
  obtain ⟨handles, b, told, numbered, size⟩ : ∃ handles b,
      backwardsCoin.record ∅ = (.ok handles, b) ∧
        handles.toList = [(⟨3⟩, .ofNat 0), (⟨2⟩, .ofNat 1), (⟨1⟩, .ofNat 2)] ∧
          b.vertices.size = 3 := by
    unfold record
    rw [ordered]
    exact ⟨_, _, rfl, rfl, rfl⟩
  have told' : refusedLogarithm.record ∅ = (.error (.emissionNotImplemented ⟨0⟩ "Log"),
      { vertices := #[.positiveReal 2] }) := by
    unfold record
    rw [ordered']
    rfl
  have reachable : backwardsCoin.Reachable := reachable_of_check rfl ordered
  have reachable' : refusedLogarithm.Reachable := reachable_of_check rfl ordered'
  have fits : b.vertices.size + backwardsCoin.size < UInt32.size := by
    rw [size]
    decide
  have fits' : b.vertices.size + refusedLogarithm.size < UInt32.size := by
    rw [size]
    decide
  obtain ⟨agree, followed, _⟩ := record_continues_recording reachable fits
  obtain ⟨agree', followed', _⟩ := record_continues_recording reachable' fits'
  rw [told] at agree followed
  rw [told'] at agree' followed'
  obtain ⟨later, granted, rfl⟩ := agree.symm.exists_of_ok rfl
  refine ⟨b, congrArg Prod.snd told, size, ⟨_, granted, ?_⟩, followed, agree'.eq_error rfl, ?_⟩
  · rw [size]
    unfold Handles.map
    rw [numbered]
    rfl
  · rw [followed']
    simp [Recording.followedBy, Vertex.mapInputs]

end Graph

end ModelGraph

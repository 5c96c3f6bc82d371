import Mathlib.Data.List.Forall2
import ModelGraph.Proofs.Emission.Lowering
import ModelGraph.Proofs.Graph.Order

/-!
# Recordings mirror graphs

A recording that was told about a graph holds the graph without its markers: one vertex for
each node, numbered in dependency order and linked as the nodes are, and the markers as
observations and queries.  While nodes are told about one by one, the invariant is that the
nodes that have vertices are numbered by their places among the nodes so far, and that every
entry of the recording is what the node lowers to.
-/

namespace ModelGraph

namespace Graph

/-- The nodes of a list that have a property. -/
def select (g : Graph) (p : Node → Bool) (ids : List NodeId) : List NodeId :=
  ids.filter fun id =>
    match g.node id with
    | .ok node => p node
    | .error _ => false

section Select

variable {g : Graph} {p : Node → Bool} {ids : List NodeId} {id : NodeId}

theorem mem_select :
    id ∈ g.select p ids ↔ id ∈ ids ∧ ∃ node, g.node id = .ok node ∧ p node = true := by
  unfold select
  rw [List.mem_filter]
  cases g.node id <;> simp

theorem select_append
    {node : Node}
    (found : g.node id = .ok node) :
    g.select p (ids ++ [id]) = g.select p ids ++ if p node then [id] else [] := by
  unfold select
  rw [List.filter_append, List.filter_singleton, found]
  cases holds : p node <;> simp [holds]

theorem nodup_select (nodup : ids.Nodup) : (g.select p ids).Nodup :=
  nodup.filter _

end Select

end Graph

/-- Nodes are numbered by their places in a list, and no other node has a handle. -/
def Handles.Numbers (handles : Handles) (ids : List NodeId) : Prop :=
  ∀ id handle, handles.get? id = some handle ↔ ∃ k, ids[k]? = some id ∧ handle = .ofNat k

namespace Handles

theorem numbers_empty : (∅ : Handles).Numbers [] := by
  intro id handle
  constructor
  · intro found
    cases found
  · rintro ⟨k, found, _⟩
    cases found

theorem getElem?_append_singleton
    {ids : List NodeId} {id other : NodeId} {k : Nat} :
    (ids ++ [id])[k]? = some other ↔ ids[k]? = some other ∨ k = ids.length ∧ id = other := by
  rcases Nat.lt_trichotomy k ids.length with before | rfl | after
  · rw [List.getElem?_append_left before]
    simp [Nat.ne_of_lt before]
  · simp
  · rw [List.getElem?_eq_none (by simp; omega), List.getElem?_eq_none (by omega)]
    simp [Nat.ne_of_gt after]

theorem Numbers.insert
    {handles : Handles} {ids : List NodeId} {id : NodeId}
    (numbers : handles.Numbers ids)
    (fresh : id ∉ ids) :
    (handles.insert id (.ofNat ids.length)).Numbers (ids ++ [id]) := by
  intro other handle
  rw [get?_insert]
  constructor
  · intro found
    split at found
    · next here =>
        cases found
        exact ⟨ids.length, getElem?_append_singleton.mpr (.inr ⟨rfl, here.symm⟩), rfl⟩
    · obtain ⟨k, place, isNumber⟩ := (numbers other handle).mp found
      exact ⟨k, getElem?_append_singleton.mpr (.inl place), isNumber⟩
  · rintro ⟨k, place, rfl⟩
    rcases getElem?_append_singleton.mp place with before | ⟨rfl, rfl⟩
    · have different : other ≠ id := fun here => fresh (here ▸ List.mem_of_getElem? before)
      rw [if_neg different]
      exact (numbers other _).mpr ⟨k, before, rfl⟩
    · rw [if_pos rfl]

theorem Numbers.get?_eq_none
    {handles : Handles} {ids : List NodeId} {id : NodeId}
    (numbers : handles.Numbers ids)
    (fresh : id ∉ ids) :
    handles.get? id = none := by
  apply Option.eq_none_iff_forall_ne_some.mpr
  intro handle found
  obtain ⟨k, place, _⟩ := (numbers id handle).mp found
  exact fresh (List.mem_of_getElem? place)

end Handles

namespace Graph

/-- The entries of a list are what the nodes of another list lower to, one by one. -/
def Listed {β : Type} (g : Graph) (handles : Handles) (entry : β → Instruction)
    (ids : List NodeId) (entries : List β) : Prop :=
  List.Forall₂ (fun id b => g.lower handles id = .ok (entry b)) ids entries

namespace Listed

variable {β : Type} {g : Graph} {handles handles' : Handles} {entry : β → Instruction}
  {p : Node → Bool} {done : List NodeId} {entries : List β} {id : NodeId} {node : Node}

theorem of_keptIn
    {ids : List NodeId}
    (listed : g.Listed handles entry ids entries)
    (kept : handles.KeptIn handles') :
    g.Listed handles' entry ids entries :=
  listed.imp fun _ _ lowered => lower_of_keptIn lowered kept

theorem skip
    (listed : g.Listed handles entry (g.select p done) entries)
    (kept : handles.KeptIn handles')
    (found : g.node id = .ok node)
    (other : p node = false) :
    g.Listed handles' entry (g.select p (done ++ [id])) entries := by
  rw [select_append found, other]
  simpa using listed.of_keptIn kept

theorem append
    {b : β}
    (listed : g.Listed handles entry (g.select p done) entries)
    (kept : handles.KeptIn handles')
    (found : g.node id = .ok node)
    (selected : p node = true)
    (lowered : g.lower handles id = .ok (entry b)) :
    g.Listed handles' entry (g.select p (done ++ [id])) (entries ++ [b]) := by
  rw [select_append found, selected]
  exact List.rel_append (listed.of_keptIn kept)
    (.cons (lower_of_keptIn lowered kept) .nil)

/-- Every entry of a list is what a node lowers to. -/
theorem exists_lower
    {ids : List NodeId} {b : β}
    (listed : g.Listed handles entry ids entries)
    (present : b ∈ entries) :
    ∃ id, g.lower handles id = .ok (entry b) := by
  induction listed with
  | nil => cases present
  | @cons id _ _ _ lowered _ ih =>
      cases present with
      | head => exact ⟨id, lowered⟩
      | tail _ present => exact ih present

end Listed

/-- What holds after a recording was told about some nodes. -/
structure Recorded (g : Graph) (done : List NodeId) (handles : Handles) (r : Recording) :
    Prop where
  numbers : handles.Numbers (g.select Node.hasVertex done)
  upward : ∀ (k : Nat) (vertex : Vertex), r.vertices[k]? = some vertex →
    ∀ handle ∈ vertex.inputs, handle.toNat < k
  vertices : g.Listed handles .add (g.select Node.hasVertex done) r.vertices.toList
  observations : g.Listed handles (fun seen => .observe seen.1 seen.2)
    (g.select Node.isObservation done) r.observations.toList
  queries : g.Listed handles .query (g.select Node.isQuery done) r.queries.toList

namespace Recorded

variable {g : Graph} {done : List NodeId} {handles : Handles} {r : Recording}

theorem empty (g : Graph) : g.Recorded [] ∅ ∅ where
  numbers := Handles.numbers_empty
  upward := by
    intro k vertex found
    cases found
  vertices := .nil
  observations := .nil
  queries := .nil

theorem size_vertices (recorded : g.Recorded done handles r) :
    r.vertices.size = (g.select Node.hasVertex done).length := by
  rw [← Array.length_toList]
  exact recorded.vertices.length_eq.symm

/-- The handle of a node is the number of a vertex. -/
theorem get?_lt
    {id : NodeId} {handle : Handle}
    (recorded : g.Recorded done handles r)
    (given : handles.get? id = some handle) :
    handle.toNat < r.vertices.size := by
  obtain ⟨k, place, rfl⟩ := (recorded.numbers id handle).mp given
  rw [recorded.size_vertices]
  exact Nat.lt_of_le_of_lt (Handle.toNat_ofNat_le k) (List.getElem?_eq_some_iff.mp place).1

/-- The inputs of a vertex that is added have lower numbers than the vertex. -/
theorem inputs_lt
    {id : NodeId} {vertex : Vertex} {handle : Handle}
    (recorded : g.Recorded done handles r)
    (lowered : g.lower handles id = .ok (.add vertex))
    (refers : handle ∈ vertex.inputs) :
    handle.toNat < r.vertices.size := by
  obtain ⟨node, _, lowers⟩ := lower_eq_ok_iff.mp lowered
  obtain ⟨input, given⟩ := lowers.mem_inputs refers
  exact recorded.get?_lt given

theorem add
    {id : NodeId} {vertex : Vertex}
    (recorded : g.Recorded done handles r)
    (fresh : id ∉ done)
    (lowered : g.lower handles id = .ok (.add vertex)) :
    g.Recorded (done ++ [id]) (handles.insert id (.ofNat r.vertices.size))
      { r with vertices := r.vertices.push vertex } := by
  obtain ⟨node, found, lowers⟩ := lower_eq_ok_iff.mp lowered
  obtain ⟨isVertex, noObservation, noQuery⟩ :
      node.hasVertex = true ∧ node.isObservation = false ∧ node.isQuery = false := by
    cases lowers <;> exact ⟨rfl, rfl, rfl⟩
  have freshVertex : id ∉ g.select Node.hasVertex done := fun present =>
    fresh (mem_select.mp present).1
  have kept : handles.KeptIn (handles.insert id (.ofNat r.vertices.size)) :=
    Handles.keptIn_insert (recorded.numbers.get?_eq_none freshVertex)
  refine
    { numbers := ?_
      upward := ?_
      vertices := ?_
      observations := recorded.observations.skip kept found noObservation
      queries := recorded.queries.skip kept found noQuery }
  · rw [select_append found, isVertex, recorded.size_vertices]
    exact recorded.numbers.insert freshVertex
  · intro k vertex' place
    rw [Array.getElem?_push] at place
    split at place
    · next last =>
        cases place
        intro handle refers
        rw [last]
        exact recorded.inputs_lt lowered refers
    · exact recorded.upward k vertex' place
  · rw [Array.toList_push]
    exact recorded.vertices.append kept found isVertex lowered

/-- A node without a vertex leaves handles and vertices alone. -/
theorem numbers_of_marker
    {id : NodeId} {node : Node}
    (recorded : g.Recorded done handles r)
    (found : g.node id = .ok node)
    (noVertex : node.hasVertex = false) :
    handles.Numbers (g.select Node.hasVertex (done ++ [id])) := by
  rw [select_append found, noVertex]
  change handles.Numbers (g.select Node.hasVertex done ++ [])
  rw [List.append_nil]
  exact recorded.numbers

theorem observe
    {id : NodeId} {observed : Handle} {value : Value}
    (recorded : g.Recorded done handles r)
    (lowered : g.lower handles id = .ok (.observe observed value)) :
    g.Recorded (done ++ [id]) handles
      { r with observations := r.observations.push (observed, value) } := by
  obtain ⟨node, found, lowers⟩ := lower_eq_ok_iff.mp lowered
  obtain ⟨noVertex, isObservation, noQuery⟩ :
      node.hasVertex = false ∧ node.isObservation = true ∧ node.isQuery = false := by
    cases lowers
    exact ⟨rfl, rfl, rfl⟩
  have kept : handles.KeptIn handles := .refl handles
  refine
    { numbers := recorded.numbers_of_marker found noVertex
      upward := recorded.upward
      vertices := recorded.vertices.skip kept found noVertex
      observations := ?_
      queries := recorded.queries.skip kept found noQuery }
  rw [Array.toList_push]
  exact recorded.observations.append kept found isObservation lowered

theorem query
    {id : NodeId} {queried : Handle}
    (recorded : g.Recorded done handles r)
    (lowered : g.lower handles id = .ok (.query queried)) :
    g.Recorded (done ++ [id]) handles { r with queries := r.queries.push queried } := by
  obtain ⟨node, found, lowers⟩ := lower_eq_ok_iff.mp lowered
  obtain ⟨noVertex, noObservation, isQuery⟩ :
      node.hasVertex = false ∧ node.isObservation = false ∧ node.isQuery = true := by
    cases lowers
    exact ⟨rfl, rfl, rfl⟩
  have kept : handles.KeptIn handles := .refl handles
  refine
    { numbers := recorded.numbers_of_marker found noVertex
      upward := recorded.upward
      vertices := recorded.vertices.skip kept found noVertex
      observations := recorded.observations.skip kept found noObservation
      queries := ?_ }
  rw [Array.toList_push]
  exact recorded.queries.append kept found isQuery lowered

/-- Telling about one more node keeps the invariant. -/
theorem step
    {id : NodeId} {handle? : Option Handle} {r' : Recording}
    (recorded : g.Recorded done handles r)
    (fresh : id ∉ done)
    (told : g.recordNode handles r id = .ok (handle?, r')) :
    g.Recorded (done ++ [id]) (handles.insert? id handle?) r' := by
  obtain ⟨instruction, lowered, equal⟩ := Outcome.bind_eq_ok_iff.mp told
  cases instruction with
  | add vertex =>
      cases equal
      exact recorded.add fresh lowered
  | observe observed value =>
      cases equal
      exact recorded.observe lowered
  | query queried =>
      cases equal
      exact recorded.query lowered

/-- Telling about nodes one by one keeps the invariant. -/
theorem run
    {rest : List NodeId} {handles' : Handles} {r' : Recording}
    (recorded : g.Recorded done handles r)
    (nodup : (done ++ rest).Nodup)
    (told : g.recordNodes handles r rest = (.ok handles', r')) :
    g.Recorded (done ++ rest) handles' r' := by
  induction rest generalizing done handles r with
  | nil =>
      cases told
      rw [List.append_nil]
      exact recorded
  | cons id rest ih =>
      unfold recordNodes at told
      split at told
      · cases told
      · next handle? next toldNode =>
          have split : done ++ id :: rest = (done ++ [id]) ++ rest := by simp
          have fresh : id ∉ done := by
            intro present
            exact (List.nodup_append.mp nodup).2.2 id present id List.mem_cons_self rfl
          rw [split] at nodup ⊢
          exact ih (recorded.step fresh toldNode) nodup told

end Recorded

end Graph

/-! ## Every node has one handle -/

/-- No node occurs twice. -/
def Handles.Distinct (handles : Handles) : Prop :=
  (handles.toList.map Prod.fst).Nodup

namespace Handles

variable {handles : Handles} {node : NodeId} {handle : Handle}

theorem distinct_empty : (∅ : Handles).Distinct :=
  List.nodup_nil

theorem contains_iff : handles.contains node = true ↔ node ∈ handles.toList.map Prod.fst := by
  unfold contains get?
  rw [List.lookup_isSome_iff, List.mem_map]
  simp only [beq_iff_eq, @eq_comm _ node]

theorem Distinct.insert
    (distinct : handles.Distinct)
    (node : NodeId) (handle : Handle) :
    (handles.insert node handle).Distinct := by
  unfold Distinct Handles.insert
  split
  · have sameNodes : (Prod.fst ∘ fun entry : NodeId × Handle =>
        if entry.1 = node then (node, handle) else entry) = Prod.fst := by
      funext entry
      by_cases here : entry.1 = node <;> simp [here]
    rw [List.map_map, sameNodes]
    exact distinct
  · next absent =>
      rw [contains_iff] at absent
      rw [List.map_append, List.map_singleton]
      rw [← List.concat_eq_append, List.nodup_concat]
      exact ⟨absent, distinct⟩

/-- The entry of a node says which handle it has. -/
theorem Distinct.get?_of_mem
    (distinct : handles.Distinct)
    (present : (node, handle) ∈ handles.toList) :
    handles.get? node = some handle := by
  obtain ⟨before, after, split⟩ := List.append_of_mem present
  refine List.lookup_eq_some_iff.mpr ⟨before, after, split, fun earlier isEarlier => ?_⟩
  unfold Distinct at distinct
  rw [split, List.map_append, List.nodup_append] at distinct
  have apart := distinct.2.2 earlier.1 (List.mem_map_of_mem isEarlier) node List.mem_cons_self
  exact bne_iff_ne.mpr apart.symm

end Handles

/-- Telling about nodes gives no node a second handle. -/
theorem Graph.distinct_of_recordNodes
    {g : Graph} {ids : List NodeId} {handles handles' : Handles} {r r' : Recording}
    (distinct : handles.Distinct)
    (told : g.recordNodes handles r ids = (.ok handles', r')) :
    handles'.Distinct := by
  induction ids generalizing handles r with
  | nil =>
      cases told
      exact distinct
  | cons id rest ih =>
      unfold recordNodes at told
      split at told
      · cases told
      · next handle? _ _ =>
          refine ih ?_ told
          cases handle? with
          | none => exact distinct
          | some handle => exact distinct.insert id handle

end ModelGraph

import ModelGraph.Proofs.Enumeration.ShapeSoundness

/-!
# The shape of an index is that of the first entry

The shape of an index is found from the first value of the map alone, whatever the key selects.
Enumeration follows the key.  So the shape that is found is the shape of all values that are
listed just if the selected entries, as far as they list anything, have the shape of the first.
Where they have not, the shape that is found is not the shape of the values.
-/

namespace ModelGraph

namespace Graph

/-- An index has the shape of the first value of its map. -/
theorem shapeOf_index
    {g : Graph} {id map keyNode : NodeId} {entries : List (NodeId × NodeId)}
    (wellFormed : g.WellFormed)
    (found : g.node id = .ok (.operator (.binary .index map keyNode)))
    (foundMap : g.node map = .ok (.map entries)) :
    ∃ first, entries.head? = some first ∧ g.shapeOf id = g.shapeOf first.2 := by
  cases entries with
  | nil => exact absurd rfl ((wellFormed.admits map _ foundMap).map_entries [] rfl)
  | cons first rest =>
      refine ⟨first, rfl, ?_⟩
      have ofMap : g.shapeOf id = g.shapeOf map := shapeOf_eq wellFormed found
      exact ofMap.trans (shapeOf_eq wellFormed foundMap)

/-- The shape of an index is that of the first value of its map.  It is the shape of all values
that are listed for the index just if it is that of all entries that are selected and list a
value. -/
theorem shapeOf_index_covers_iff
    {g : Graph} {id map keyNode : NodeId} {entries : List (NodeId × NodeId)}
    {keys values : Support}
    (reachable : g.Reachable)
    (found : g.node id = .ok (.operator (.binary .index map keyNode)))
    (foundMap : g.node map = .ok (.map entries))
    (ofKey : g.supportOf keyNode = .ok keys)
    (listed : g.supportOf id = .ok values)
    (shaped : ∀ key ∈ keys.toList, ∀ entry, g.lookup map key = .ok entry → g.Shaped entry) :
    (∃ first, entries.head? = some first ∧ g.shapeOf id = g.shapeOf first.2) ∧
      ((∀ v ∈ values.toList, g.shapeOf id = .ok v.shape) ↔
        ∀ key ∈ keys.toList, ∀ entry entryValues, g.lookup map key = .ok entry →
          g.supportOf entry = .ok entryValues → entryValues.toList ≠ [] →
            g.shapeOf entry = g.shapeOf id) := by
  have wellFormed := reachable.wellFormed
  obtain ⟨set, formed, rfl⟩ := indexSupport_of_supportOf wellFormed found ofKey listed
  -- what a selected entry lists has the shape of the entry
  have entryShape : ∀ key ∈ keys.toList, ∀ entry entryValues, g.lookup map key = .ok entry →
      g.supportOf entry = .ok entryValues → ∀ v ∈ entryValues.toList,
        g.shapeOf entry = .ok v.shape := by
    intro key inKeys entry entryValues selected ofEntry v inEntry
    have isShaped := shaped key inKeys entry selected
    obtain ⟨shape, found⟩ := isShaped.shapes entry .refl
    rw [found, (listsShape_supportOf wellFormed isShaped found).of_ok ofEntry v inEntry]
  refine ⟨shapeOf_index wellFormed found foundMap, ?_, ?_⟩
  · intro fits key inKeys entry entryValues selected ofEntry nonempty
    obtain ⟨v, inEntry⟩ := List.exists_mem_of_ne_nil _ nonempty
    obtain ⟨entry', entryValues', selected', ofEntry', covers⟩ :=
      indexSupport_covers formed key inKeys
    cases selected.symm.trans selected'
    cases ofEntry.symm.trans ofEntry'
    obtain ⟨member, present, matching⟩ := covers v inEntry
    rw [entryShape key inKeys entry entryValues selected ofEntry v inEntry,
      fits member present]
    exact congrArg Except.ok matching.shape_eq.symm
  · intro fits v present
    obtain ⟨key, inKeys, entry, entryValues, selected, ofEntry, inEntry⟩ :=
      exists_of_mem_indexSupport formed present
    rw [← fits key inKeys entry entryValues selected ofEntry (List.ne_nil_of_mem inEntry)]
    exact entryShape key inKeys entry entryValues selected ofEntry v inEntry

/-- A map from numbers to a number and to an array, which is indexed where the array stands. -/
def mixedMap : Graph :=
  (∅ : Graph).edits
    [.addConstant (.real 0.0),
      .addConstant (.real 1.0),
      .addConstant (.real 5.0),
      .addConstant (.tensor (.vector #[1.0, 2.0])),
      .addMap [(⟨0⟩, ⟨2⟩), (⟨1⟩, ⟨3⟩)],
      .addOperator (.binary .index ⟨4⟩ ⟨1⟩)]

/-- The entry that is selected is the second one, and the shape that is found that of the first,
so that it is not the shape of all values. -/
theorem shapeOf_index_covers_iff_mixedMap :
    mixedMap.shapeOf ⟨5⟩ = mixedMap.shapeOf ⟨2⟩ ∧
      ∃ values, mixedMap.supportOf ⟨5⟩ = .ok values ∧
        ¬∀ v ∈ values.toList, mixedMap.shapeOf ⟨5⟩ = .ok v.shape := by
  have reachable : mixedMap.Reachable := ⟨_, rfl⟩
  have isIndex : mixedMap.node ⟨5⟩ = .ok (.operator (.binary .index ⟨4⟩ ⟨1⟩)) := rfl
  have isMap : mixedMap.node ⟨4⟩ = .ok (.map [(⟨0⟩, ⟨2⟩), (⟨1⟩, ⟨3⟩)]) := rfl
  have ofKey : mixedMap.supportOf ⟨1⟩ = .ok (.listed [.real 1.0]) := rfl
  have selects : mixedMap.lookup ⟨4⟩ (.real 1.0) = .ok ⟨3⟩ := rfl
  have selected : ∀ key ∈ (Support.listed [.real 1.0]).toList, ∃ entry values,
      mixedMap.lookup ⟨4⟩ key = .ok entry ∧ mixedMap.supportOf entry = .ok values := by
    intro key present
    cases List.mem_singleton.mp present
    exact ⟨_, _, selects, rfl⟩
  obtain ⟨set, _, listed⟩ := exists_supportOf_index reachable.wellFormed isIndex ofKey selected
  have shaped : ∀ key ∈ (Support.listed [.real 1.0]).toList, ∀ entry,
      mixedMap.lookup ⟨4⟩ key = .ok entry → mixedMap.Shaped entry := by
    intro key present entry selected
    cases List.mem_singleton.mp present
    cases selects.symm.trans selected
    have alone : ∀ lower, mixedMap.Reaches ⟨3⟩ lower → lower = ⟨3⟩ := by
      intro lower path
      rcases Relation.ReflTransGen.cases_head path with rfl | ⟨next, ⟨node, found, present⟩, _⟩
      · rfl
      · cases found
        cases present
    constructor
    · intro lower path
      exact alone lower path ▸ ⟨_, rfl⟩
    · intro lower map key entries path found
      cases alone lower path ▸ found
  obtain ⟨⟨first, isFirst, ofFirst⟩, covers⟩ :=
    shapeOf_index_covers_iff reachable isIndex isMap ofKey listed shaped
  cases isFirst
  refine ⟨ofFirst, _, listed, fun fits => ?_⟩
  have same := covers.mp fits (.real 1.0) (.head _) ⟨3⟩ _ selects rfl (List.cons_ne_nil _ _)
  have array : mixedMap.shapeOf ⟨3⟩ = .ok ⟨[2]⟩ := rfl
  have number : mixedMap.shapeOf ⟨5⟩ = .ok .scalar := rfl
  cases array.symm.trans (same.trans number)

/-- A key that is listed selects an array, and the shape of the index is that of a number. -/
theorem index_selects_other_shape :
    mixedMap.Reachable ∧ mixedMap.node ⟨5⟩ = .ok (.operator (.binary .index ⟨4⟩ ⟨1⟩)) ∧
      mixedMap.node ⟨4⟩ = .ok (.map [(⟨0⟩, ⟨2⟩), (⟨1⟩, ⟨3⟩)]) ∧
      ∃ keys, mixedMap.supportOf ⟨1⟩ = .ok keys ∧
        ∃ key ∈ keys.toList, mixedMap.lookup ⟨4⟩ key = .ok ⟨3⟩ ∧
          mixedMap.shapeOf ⟨5⟩ = .ok .scalar ∧ mixedMap.shapeOf ⟨3⟩ = .ok ⟨[2]⟩ :=
  ⟨⟨_, rfl⟩, rfl, rfl, .listed [.real 1.0], rfl, .real 1.0, List.mem_cons_self, rfl, rfl, rfl⟩

end Graph

end ModelGraph

import Mathlib.Data.Nat.Dist
import ModelGraph.Graph.Lookup
import ModelGraph.Proofs.Enumeration.NearestReals
import ModelGraph.Proofs.Graph.History

/-!
# Natural numbers as keys

Keys of a map are compared by what they hold as reals, and the first entry whose key is equal is
selected.  A natural number as a real is a nearest one that a real can stand for, so that an entry
may be hidden behind an earlier one with another number: `natural_key_selects_first_entry`.  A
number below `2 ^ 53` is hidden by no other, nor is one that is more than `2 ^ 11` away from
all others.
-/

namespace ModelGraph

/-- Natural numbers have the same contents just where their nearest reals are the same. -/
theorem Value.sameContents_natural (a b : UInt64) :
    (Value.natural a).sameContents (.natural b) =
      decide (nearestReal a.toNat = nearestReal b.toNat) := by
  rw [Bool.eq_iff_iff, decide_eq_true_iff]
  exact beq_toFloat_iff a b

namespace Graph

section ConstantKeys

variable {g : Graph} {entries : List (NodeId × NodeId)}

/-- Among constant keys, the first one with the contents asked for is selected. -/
theorem findEntry_eq_find?
    (constant : NodeId → Value)
    (keys : ∀ entry ∈ entries, g.node entry.1 = .ok (.constant (constant entry.1)))
    (map : NodeId)
    (key : Value) :
    g.findEntry map key entries =
      match entries.find? fun entry => (constant entry.1).sameContents key with
      | some entry => .ok entry.2
      | none => (do throw (.keyNotFound map (← key.text))) := by
  induction entries with
  | nil => rfl
  | cons entry rest ih =>
      obtain ⟨here, later⟩ := List.forall_mem_cons.mp keys
      unfold findEntry
      rw [here, List.find?_cons]
      cases same : (constant entry.1).sameContents key with
      | true =>
          simp only [Outcome.ok_bind, same]
          rfl
      | false =>
          simp only [Outcome.ok_bind, same, Bool.false_eq_true, if_false]
          exact ih later

end ConstantKeys

section NaturalKeys

variable {g : Graph} {map : NodeId} {entries : List (NodeId × NodeId)} {number : NodeId → UInt64}

/-- Among natural keys, the first one with the nearest real asked for is selected. -/
theorem lookupNode_natural
    (found : g.node map = .ok (.map entries))
    (keys : ∀ entry ∈ entries, g.node entry.1 = .ok (.constant (.natural (number entry.1))))
    {entry : NodeId × NodeId}
    (present : entry ∈ entries) :
    ∃ selected,
      entries.find? (fun other =>
        nearestReal (number other.1).toNat = nearestReal (number entry.1).toNat) = some selected ∧
      g.lookupNode map entry.1 = .ok selected.2 := by
  have selection := findEntry_eq_find? (fun id => .natural (number id)) keys map
    (.natural (number entry.1))
  simp only [Value.sameContents_natural] at selection
  have lookup : g.lookupNode map entry.1 =
      g.findEntry map (.natural (number entry.1)) entries := by
    unfold lookupNode Graph.lookup
    rw [keys entry present, found]
    rfl
  cases first : entries.find? fun other =>
      decide (nearestReal (number other.1).toNat = nearestReal (number entry.1).toNat) with
  | some selected => exact ⟨selected, rfl, by rw [lookup, selection, first]⟩
  | none =>
      -- the entry itself would have been selected
      have refused := List.find?_eq_none.mp first entry present
      exact absurd (decide_eq_true rfl) refused

/-- An entry with a natural key is found by its key if no other entry has the same nearest
real. -/
theorem lookupNode_own_entry
    (found : g.node map = .ok (.map entries))
    (keys : ∀ entry ∈ entries, g.node entry.1 = .ok (.constant (.natural (number entry.1))))
    {entry : NodeId × NodeId}
    (present : entry ∈ entries)
    (alone : ∀ other ∈ entries,
      nearestReal (number other.1).toNat = nearestReal (number entry.1).toNat → other = entry) :
    g.lookupNode map entry.1 = .ok entry.2 := by
  obtain ⟨selected, first, lookup⟩ := lookupNode_natural found keys present
  have same := List.find?_some first
  rw [decide_eq_true_iff] at same
  rw [lookup, alone selected (List.mem_of_find?_eq_some first) same]

end NaturalKeys

/-- In a map with different natural numbers as keys, a key selects the first entry whose number has
the same nearest real.  That is the entry of the key itself if its number is below `2 ^ 53` or more
than `2 ^ 11` away from the other numbers. -/
theorem natural_key_selects_first_entry
    {g : Graph} {map : NodeId} {entries : List (NodeId × NodeId)}
    (number : NodeId → UInt64)
    (found : g.node map = .ok (.map entries))
    (keys : ∀ entry ∈ entries, g.node entry.1 = .ok (.constant (.natural (number entry.1))))
    (different : (entries.map fun entry => number entry.1).Nodup)
    {entry : NodeId × NodeId}
    (present : entry ∈ entries) :
    (∃ selected,
      entries.find? (fun other =>
        nearestReal (number other.1).toNat = nearestReal (number entry.1).toNat) = some selected ∧
      g.lookupNode map entry.1 = .ok selected.2) ∧
    ((number entry.1).toNat < 2 ^ 53 → g.lookupNode map entry.1 = .ok entry.2) ∧
    ((∀ other ∈ entries, other ≠ entry →
        2 ^ 11 < Nat.dist (number other.1).toNat (number entry.1).toNat) →
      g.lookupNode map entry.1 = .ok entry.2) := by
  refine ⟨lookupNode_natural found keys present, ?_, ?_⟩
  · intro small
    apply lookupNode_own_entry found keys present
    intro other present' same
    exact List.inj_on_of_nodup_map different present' present
      (UInt64.toNat_inj.mp (eq_of_nearestReal_eq small same))
  · intro apart
    apply lookupNode_own_entry found keys present
    intro other present' same
    by_contra distinct
    exact nearestReal_ne_of_dist (UInt64.toNat_lt _) (UInt64.toNat_lt _)
      (apart other present' distinct) same

/-- Three natural numbers of which two have the same nearest real, and a map from them to three
reals. -/
def crowdedMap : Graph :=
  (∅ : Graph).edits
    [.addConstant (.natural (2 ^ 53)), .addConstant (.natural (2 ^ 53 + 1)),
      .addConstant (.natural 3), .addConstant (.real 1.0), .addConstant (.real 2.0),
      .addConstant (.real 3.0), .addMap [(⟨0⟩, ⟨3⟩), (⟨1⟩, ⟨4⟩), (⟨2⟩, ⟨5⟩)]]

/-- The second key selects the entry of the first one, and the third key selects its own. -/
theorem natural_key_selects_first_entry_crowdedMap :
    crowdedMap.node ⟨6⟩ = .ok (.map [(⟨0⟩, ⟨3⟩), (⟨1⟩, ⟨4⟩), (⟨2⟩, ⟨5⟩)]) ∧
      crowdedMap.lookupNode ⟨6⟩ ⟨1⟩ = .ok ⟨3⟩ ∧ crowdedMap.lookupNode ⟨6⟩ ⟨2⟩ = .ok ⟨5⟩ := by
  have isMap : crowdedMap.node ⟨6⟩ = .ok (.map [(⟨0⟩, ⟨3⟩), (⟨1⟩, ⟨4⟩), (⟨2⟩, ⟨5⟩)]) := rfl
  have keys : ∀ entry ∈ [((⟨0⟩, ⟨3⟩) : NodeId × NodeId), (⟨1⟩, ⟨4⟩), (⟨2⟩, ⟨5⟩)],
      crowdedMap.node entry.1 =
        .ok (.constant (.natural ([2 ^ 53, 2 ^ 53 + 1, 3].getD entry.1.index 0))) := by
    simp only [List.forall_mem_cons]
    exact ⟨rfl, rfl, rfl, List.forall_mem_nil _⟩
  have selects := fun entry (present : entry ∈ _) =>
    natural_key_selects_first_entry (fun id => [2 ^ 53, 2 ^ 53 + 1, 3].getD id.index 0) isMap keys
      (by decide) present
  refine ⟨isMap, ?_, ?_⟩
  · obtain ⟨selected, first, lookup⟩ := (selects (⟨1⟩, ⟨4⟩) (by decide)).1
    obtain rfl : (⟨0⟩, ⟨3⟩) = selected := Option.some.inj (Eq.trans (by decide +kernel) first)
    exact lookup
  · exact (selects (⟨2⟩, ⟨5⟩) (by decide)).2.1 (by decide)

/-- A key selects the entry of another key, though their numbers are different. -/
theorem later_key_selects_earlier_entry :
    crowdedMap.Reachable ∧
      crowdedMap.node ⟨6⟩ = .ok (.map [(⟨0⟩, ⟨3⟩), (⟨1⟩, ⟨4⟩), (⟨2⟩, ⟨5⟩)]) ∧
      crowdedMap.node ⟨0⟩ = .ok (.constant (.natural (2 ^ 53))) ∧
      crowdedMap.node ⟨1⟩ = .ok (.constant (.natural (2 ^ 53 + 1))) ∧
      crowdedMap.node ⟨2⟩ = .ok (.constant (.natural 3)) ∧
      crowdedMap.lookupNode ⟨6⟩ ⟨1⟩ = .ok ⟨3⟩ := by
  have isMap : crowdedMap.node ⟨6⟩ = .ok (.map [(⟨0⟩, ⟨3⟩), (⟨1⟩, ⟨4⟩), (⟨2⟩, ⟨5⟩)]) := rfl
  have earlier : crowdedMap.node ⟨0⟩ = .ok (.constant (.natural (2 ^ 53))) := rfl
  have later : crowdedMap.node ⟨1⟩ = .ok (.constant (.natural (2 ^ 53 + 1))) := rfl
  have same : (Value.natural (2 ^ 53)).sameContents (.natural (2 ^ 53 + 1)) = true := by
    rw [Value.sameContents_natural]
    decide +kernel
  refine ⟨⟨_, rfl⟩, isMap, earlier, later, rfl, ?_⟩
  unfold lookupNode Graph.lookup findEntry
  simp only [later, isMap, earlier, Outcome.ok_bind, same]
  rfl

end Graph

end ModelGraph

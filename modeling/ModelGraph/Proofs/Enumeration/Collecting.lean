import ModelGraph.Graph.Enumeration
import ModelGraph.Proofs.Graph.Descent
import ModelGraph.Proofs.Value.Sets

/-!
# Collecting values

The support of an operator is collected in a set, result by result.  A set covers a value if
one of its members matches it.  A value that is inserted is covered from then on, although it
may not become a member, and nothing becomes a member that was not inserted.  So the support of an
operator covers the results on all listed values, and lists such results only, no contents twice.
-/

namespace ModelGraph

namespace ValueSet

/-- Some member matches a value. -/
def Covers (s : ValueSet) (v : Value) : Prop :=
  ∃ member ∈ s.toList, member.Matches v

theorem Covers.insert
    {s : ValueSet} {v : Value}
    (covers : s.Covers v)
    (w : Value) :
    (s.insert w).Covers v := by
  obtain ⟨member, present, matching⟩ := covers
  exact ⟨member, (mem_toList_insert s w member).mpr (.inl present), matching⟩

/-- A value that is not added is turned away for a member that matches it. -/
theorem Sound.covers_insert
    {s : ValueSet}
    (sound : s.Sound)
    (v : Value) :
    (s.insert v).Covers v := by
  cases present : s.contains v with
  | true =>
      rw [sound.indexed.contains_eq_any] at present
      obtain ⟨member, there, same⟩ := List.any_eq_true.mp present
      exact Covers.insert ⟨member, there, .of_sameContents same⟩ v
  | false => exact ⟨v, (mem_toList_insert s v v).mpr (.inr ⟨present, rfl⟩), .refl v⟩

/-- What one set is to another that came of it by insertions. -/
structure GrowsTo (s t : ValueSet) : Prop where
  sound : s.Sound → t.Sound
  covers : ∀ v, s.Covers v → t.Covers v

namespace GrowsTo

theorem refl (s : ValueSet) : s.GrowsTo s :=
  ⟨id, fun _ => id⟩

theorem trans (s t u : ValueSet) (first : s.GrowsTo t) (next : t.GrowsTo u) : s.GrowsTo u :=
  ⟨next.sound ∘ first.sound, fun v => next.covers v ∘ first.covers v⟩

theorem insert (s : ValueSet) (v : Value) : s.GrowsTo (s.insert v) :=
  ⟨fun sound => sound.insert v, fun _ covers => covers.insert v⟩

theorem insertMany (s : ValueSet) (values : List Value) : s.GrowsTo (s.insertMany values) := by
  unfold ValueSet.insertMany
  induction values generalizing s with
  | nil => exact refl s
  | cons v values ih => exact trans _ _ _ (insert s v) (ih (s.insert v))

end GrowsTo

theorem Sound.covers_insertMany
    {s : ValueSet}
    (sound : s.Sound)
    {values : List Value} {v : Value}
    (present : v ∈ values) :
    (s.insertMany values).Covers v := by
  induction values generalizing s with
  | nil => cases present
  | cons first rest ih =>
      rcases List.mem_cons.mp present with rfl | later
      · exact (GrowsTo.insertMany (s.insert v) rest).covers v (sound.covers_insert v)
      · exact ih (sound.insert first) later

theorem forall_mem_insert
    {P : Value → Prop} {s : ValueSet} {v : Value}
    (before : ∀ w ∈ s.toList, P w)
    (added : P v) :
    ∀ w ∈ (s.insert v).toList, P w := by
  intro w present
  rcases (mem_toList_insert s v w).mp present with old | ⟨_, rfl⟩
  · exact before w old
  · exact added

theorem forall_mem_insertMany
    {P : Value → Prop} {s : ValueSet} {values : List Value}
    (before : ∀ w ∈ s.toList, P w)
    (added : ∀ w ∈ values, P w) :
    ∀ w ∈ (s.insertMany values).toList, P w := by
  induction values generalizing s with
  | nil => exact before
  | cons v values ih =>
      have first := List.forall_mem_cons.mp added
      exact ih (forall_mem_insert before first.1) first.2

/-- A step of a fold inserts into a set, and what it achieves for an item lasts. -/
structure Collects {α : Type} (step : ValueSet → α → Except Error ValueSet)
    (achieved : α → ValueSet → Prop) : Prop where
  grows : ∀ s item t, step s item = .ok t → s.GrowsTo t
  achieves : ∀ s item t, s.Sound → step s item = .ok t → achieved item t
  lasts : ∀ item s t, s.GrowsTo t → achieved item s → achieved item t

theorem growsTo_foldlM
    {α : Type} {step : ValueSet → α → Except Error ValueSet}
    (grows : ∀ s item t, step s item = .ok t → s.GrowsTo t)
    {s t : ValueSet} {items : List α}
    (folded : items.foldlM step s = .ok t) :
    s.GrowsTo t := by
  induction items generalizing s with
  | nil =>
      cases folded
      exact .refl _
  | cons first rest ih =>
      rw [List.foldlM_cons] at folded
      obtain ⟨next, stepped, folded⟩ := Outcome.bind_eq_ok_iff.mp folded
      exact .trans _ _ _ (grows _ _ _ stepped) (ih folded)

/-- A fold that succeeds achieves for every item what its steps achieve for one. -/
theorem Collects.foldlM
    {α : Type} {step : ValueSet → α → Except Error ValueSet}
    {achieved : α → ValueSet → Prop}
    (collects : Collects step achieved) :
    Collects (fun s (items : List α) => items.foldlM step s)
      (fun items t => ∀ item ∈ items, achieved item t) where
  grows := fun _ _ _ folded => growsTo_foldlM collects.grows folded
  achieves := by
    intro s items t sound folded
    induction items generalizing s with
    | nil => simp
    | cons first rest ih =>
        rw [List.foldlM_cons] at folded
        obtain ⟨next, stepped, folded⟩ := Outcome.bind_eq_ok_iff.mp folded
        have now := collects.grows _ _ _ stepped
        have later := growsTo_foldlM collects.grows folded
        refine List.forall_mem_cons.mpr ⟨?_, ih next (now.sound sound) folded⟩
        exact collects.lasts _ _ _ later (collects.achieves _ _ _ sound stepped)
  lasts := by
    intro items s t grows before item present
    exact collects.lasts item s t grows (before item present)

end ValueSet

theorem Support.foldlM_eq {α : Type} (f : α → Value → Except Error α) (acc : α) (s : Support) :
    s.foldlM f acc = s.toList.foldlM f acc := by
  cases s with
  | listed values => rfl
  | outcomes bound shape =>
      change Shape.Indices.foldlM _ _ _ _ = List.foldlM _ _ (List.filterMap _ _)
      rw [Shape.Indices.foldlM_eq, List.foldlM_filterMap]
      refine congrArg (fun step => List.foldlM step acc _) ?_
      funext acc choice
      cases outcome shape choice <;> rfl

/-- What is collected from a support is sound, and has been achieved for each of its values. -/
theorem ValueSet.Collects.ofSupport
    {step : ValueSet → Value → Except Error ValueSet} {achieved : Value → ValueSet → Prop}
    (collects : Collects step achieved)
    {values : Support} {set : ValueSet}
    (folded : values.foldlM step ∅ = .ok set) :
    set.Sound ∧ ∀ v ∈ values.toList, achieved v set := by
  rw [Support.foldlM_eq] at folded
  exact ⟨(growsTo_foldlM collects.grows folded).sound sound_empty,
    collects.foldlM.achieves _ _ _ sound_empty folded⟩

namespace Graph

open ValueSet

/-! ## What the supports of operators hold -/

section Binary

variable {operation : Tensor → Tensor → Except Error Tensor}

/-- Each left value is combined with all right values. -/
theorem collects_products (right : List Value) : Collects
    (fun s (l : Value) => (right.map Value.toTensor).foldlM
      (fun s r => do return s.insert (.tensor (← operation l.toTensor r))) s)
    (fun l t => ∀ r ∈ right.map Value.toTensor,
      ∃ c, operation l.toTensor r = .ok c ∧ t.Covers (.tensor c)) := by
  have one : ∀ l : Tensor, Collects
      (fun s r => do return s.insert (.tensor (← operation l r)))
      (fun r t => ∃ c, operation l r = .ok c ∧ t.Covers (.tensor c)) := by
    intro l
    refine ⟨?_, ?_, ?_⟩
    · intro s r t inserted
      obtain ⟨c, _, equal⟩ := Outcome.bind_eq_ok_iff.mp inserted
      cases equal
      exact .insert s _
    · intro s r t sound inserted
      obtain ⟨c, combined, equal⟩ := Outcome.bind_eq_ok_iff.mp inserted
      cases equal
      exact ⟨c, combined, sound.covers_insert _⟩
    · rintro r s t grows ⟨c, combined, covers⟩
      exact ⟨c, combined, grows.covers _ covers⟩
  exact ⟨fun s l t => (one l.toTensor).foldlM.grows s _ t,
    fun s l t => (one l.toTensor).foldlM.achieves s _ t,
    fun l s t => (one l.toTensor).foldlM.lasts _ s t⟩

theorem productSupport_covers
    {left : Support} {right : List Value} {set : ValueSet}
    (formed : productSupport operation left right = .ok set) :
    ∀ l ∈ left.toList, ∀ r ∈ right,
      ∃ c, operation l.toTensor r.toTensor = .ok c ∧ set.Covers (.tensor c) :=
  fun l inLeft _ inRight =>
    ((collects_products right).ofSupport formed).2 l inLeft _ (List.mem_map_of_mem inRight)

theorem productSupport_sound
    {left : Support} {right : List Value} {set : ValueSet}
    (formed : productSupport operation left right = .ok set) :
    set.Sound :=
  ((collects_products right).ofSupport formed).1

/-- What holds of all results, and of the reasons why there is none, holds of a product. -/
theorem productSupport_ensures
    {P : Value → Prop} {reason : Error → Prop} {left : Support} {right : List Value}
    (each : ∀ l ∈ left.toList, ∀ r ∈ right,
      Outcome.Ensures (operation l.toTensor r.toTensor) (fun c => P (.tensor c)) reason) :
    Outcome.Ensures (productSupport operation left right)
      (fun set => ∀ v ∈ set.toList, P v) reason := by
  unfold productSupport
  rw [Support.foldlM_eq]
  refine .foldlM (fun s before l inLeft => ?_) (by simp)
  refine .foldlM (fun s before r inRight => ?_) before
  obtain ⟨value, isRight, rfl⟩ := List.mem_map.mp inRight
  exact (each l inLeft value isRight).bind fun c holds => forall_mem_insert before holds

/-- A value that a product lists is the result of the operation on listed values. -/
theorem exists_of_mem_productSupport
    {left : Support} {right : List Value} {set : ValueSet} {v : Value}
    (formed : productSupport operation left right = .ok set)
    (present : v ∈ set.toList) :
    ∃ l ∈ left.toList, ∃ r ∈ right, ∃ c,
      operation l.toTensor r.toTensor = .ok c ∧ v = .tensor c := by
  have origins : Outcome.Ensures (productSupport operation left right)
      (fun set => ∀ v ∈ set.toList, ∃ l ∈ left.toList, ∃ r ∈ right, ∃ c,
        operation l.toTensor r.toTensor = .ok c ∧ v = .tensor c)
      (fun _ => True) := by
    refine productSupport_ensures fun l inLeft r inRight => ?_
    cases combined : operation l.toTensor r.toTensor with
    | ok c => exact ⟨l, inLeft, r, inRight, c, combined, rfl⟩
    | error e => trivial
  exact origins.of_ok formed v present

end Binary

section Unary

variable {op : UnaryOp} {operand : Support}

theorem collects_images (op : UnaryOp) : Collects (fun s v => do return s.insert (← op.apply v))
    (fun v t => ∃ r, op.apply v = .ok r ∧ t.Covers r) := by
  refine ⟨?_, ?_, ?_⟩
  · intro s v t inserted
    obtain ⟨r, _, equal⟩ := Outcome.bind_eq_ok_iff.mp inserted
    cases equal
    exact .insert s _
  · intro s v t sound inserted
    obtain ⟨r, applied, equal⟩ := Outcome.bind_eq_ok_iff.mp inserted
    cases equal
    exact ⟨r, applied, sound.covers_insert _⟩
  · rintro v s t grows ⟨r, applied, covers⟩
    exact ⟨r, applied, grows.covers _ covers⟩

theorem imageSupport_covers
    {set : ValueSet}
    (formed : imageSupport op operand = .ok set) :
    ∀ v ∈ operand.toList, ∃ r, op.apply v = .ok r ∧ set.Covers r :=
  ((collects_images op).ofSupport formed).2

theorem imageSupport_sound
    {set : ValueSet}
    (formed : imageSupport op operand = .ok set) :
    set.Sound :=
  ((collects_images op).ofSupport formed).1

theorem imageSupport_ensures
    {P : Value → Prop} {reason : Error → Prop}
    (each : ∀ v ∈ operand.toList, Outcome.Ensures (op.apply v) P reason) :
    Outcome.Ensures (imageSupport op operand) (fun set => ∀ v ∈ set.toList, P v) reason := by
  unfold imageSupport
  rw [Support.foldlM_eq]
  refine .foldlM (fun s before v present => ?_) (by simp)
  exact (each v present).bind fun r holds => forall_mem_insert before holds

/-- A value that an image lists is the result of the operation on a listed value. -/
theorem exists_of_mem_imageSupport
    {set : ValueSet} {r : Value}
    (formed : imageSupport op operand = .ok set)
    (present : r ∈ set.toList) :
    ∃ v ∈ operand.toList, op.apply v = .ok r := by
  have origins : Outcome.Ensures (imageSupport op operand)
      (fun set => ∀ r ∈ set.toList, ∃ v ∈ operand.toList, op.apply v = .ok r)
      (fun _ => True) := by
    refine imageSupport_ensures fun v inOperand => ?_
    cases applied : op.apply v with
    | ok r => exact ⟨v, inOperand, applied⟩
    | error e => trivial
  exact origins.of_ok formed r present

end Unary

section Index

variable {g : Graph} {supportOf : NodeId → Except Error Support} {map : NodeId}
  {keys : Support}

theorem collects_entries (g : Graph) (supportOf : NodeId → Except Error Support) (map : NodeId) :
    Collects
      (fun s key => do
        let entry ← g.lookup map key
        return s.insertMany (← supportOf entry).toList)
      (fun key t => ∃ entry values, g.lookup map key = .ok entry ∧
        supportOf entry = .ok values ∧ ∀ v ∈ values.toList, t.Covers v) := by
  refine ⟨?_, ?_, ?_⟩
  · intro s key t inserted
    obtain ⟨entry, _, inserted⟩ := Outcome.bind_eq_ok_iff.mp inserted
    obtain ⟨values, _, equal⟩ := Outcome.bind_eq_ok_iff.mp inserted
    cases equal
    exact .insertMany s _
  · intro s key t sound inserted
    obtain ⟨entry, found, inserted⟩ := Outcome.bind_eq_ok_iff.mp inserted
    obtain ⟨values, listed, equal⟩ := Outcome.bind_eq_ok_iff.mp inserted
    cases equal
    exact ⟨entry, values, found, listed, fun v present => sound.covers_insertMany present⟩
  · rintro key s t grows ⟨entry, values, found, listed, covers⟩
    exact ⟨entry, values, found, listed, fun v present => grows.covers v (covers v present)⟩

theorem indexSupport_covers
    {set : ValueSet}
    (formed : g.indexSupport supportOf map keys = .ok set) :
    ∀ key ∈ keys.toList, ∃ entry values, g.lookup map key = .ok entry ∧
      supportOf entry = .ok values ∧ ∀ v ∈ values.toList, set.Covers v :=
  ((collects_entries g supportOf map).ofSupport formed).2

theorem indexSupport_sound
    {set : ValueSet}
    (formed : g.indexSupport supportOf map keys = .ok set) :
    set.Sound :=
  ((collects_entries g supportOf map).ofSupport formed).1

theorem indexSupport_ensures
    {P : Value → Prop} {reason : Error → Prop}
    (lookups : ∀ key ∈ keys.toList, Outcome.Ensures (g.lookup map key)
      (fun entry => Outcome.Ensures (supportOf entry)
        (fun values => ∀ v ∈ values.toList, P v) reason) reason) :
    Outcome.Ensures (g.indexSupport supportOf map keys)
      (fun set => ∀ v ∈ set.toList, P v) reason := by
  unfold indexSupport
  rw [Support.foldlM_eq]
  refine .foldlM (fun s before key present => ?_) (by simp)
  refine (lookups key present).bind fun entry each => ?_
  exact each.bind fun values holds => forall_mem_insertMany before holds

/-- A value that an index lists is listed by an entry that a listed key selects. -/
theorem exists_of_mem_indexSupport
    {set : ValueSet} {v : Value}
    (formed : g.indexSupport supportOf map keys = .ok set)
    (present : v ∈ set.toList) :
    ∃ key ∈ keys.toList, ∃ entry values, g.lookup map key = .ok entry ∧
      supportOf entry = .ok values ∧ v ∈ values.toList := by
  have origins : Outcome.Ensures (g.indexSupport supportOf map keys)
      (fun set => ∀ v ∈ set.toList, ∃ key ∈ keys.toList, ∃ entry values,
        g.lookup map key = .ok entry ∧ supportOf entry = .ok values ∧ v ∈ values.toList)
      (fun _ => True) := by
    refine indexSupport_ensures fun key inKeys => ?_
    cases selected : g.lookup map key with
    | error e => trivial
    | ok entry =>
        change Outcome.Ensures (supportOf entry) _ _
        cases listed : supportOf entry with
        | error e => trivial
        | ok values =>
            exact fun v inEntry => ⟨key, inKeys, entry, values, selected, listed, inEntry⟩
  exact origins.of_ok formed v present

variable {id keyNode : NodeId}

/-- The support of an index is collected from the supports of the entries that are selected. -/
theorem indexSupport_of_supportOf
    {values : Support}
    (wellFormed : g.WellFormed)
    (found : g.node id = .ok (.operator (.binary .index map keyNode)))
    (ofKey : g.supportOf keyNode = .ok keys)
    (listed : g.supportOf id = .ok values) :
    ∃ set, g.indexSupport g.supportOf map keys = .ok set ∧ values = .listed set.toList := by
  rw [supportOf_eq wellFormed found] at listed
  simp only [supportRule, operatorSupport, BinaryOp.arithmetic?, BinaryOp.arithmeticWith?, ofKey,
    Outcome.ok_bind] at listed
  obtain ⟨set, formed, equal⟩ := Outcome.bind_eq_ok_iff.mp listed
  cases equal
  exact ⟨set, formed, rfl⟩

/-- An index has a support if each key selects an entry that has one. -/
theorem exists_supportOf_index
    (wellFormed : g.WellFormed)
    (found : g.node id = .ok (.operator (.binary .index map keyNode)))
    (ofKey : g.supportOf keyNode = .ok keys)
    (entries : ∀ key ∈ keys.toList, ∃ entry values,
      g.lookup map key = .ok entry ∧ g.supportOf entry = .ok values) :
    ∃ set, g.indexSupport g.supportOf map keys = .ok set ∧
      g.supportOf id = .ok (.listed set.toList) := by
  have granted : Outcome.Ensures (g.indexSupport g.supportOf map keys)
      (fun set => ∀ v ∈ set.toList, True) (fun _ => False) := by
    refine indexSupport_ensures fun key inKeys => ?_
    obtain ⟨entry, values, selected, ofEntry⟩ := entries key inKeys
    rw [selected, Outcome.ensures_ok, ofEntry]
    exact fun _ _ => trivial
  obtain ⟨set, formed, _⟩ := granted.exists_ok
  refine ⟨set, formed, ?_⟩
  rw [supportOf_eq wellFormed found]
  simp only [supportRule, operatorSupport, BinaryOp.arithmetic?, BinaryOp.arithmeticWith?, ofKey,
    Outcome.ok_bind, formed, Outcome.pure_eq]

end Index

end Graph

end ModelGraph

import ModelGraph.Proofs.Value.Contents
import ModelGraph.Value.Set

/-!
# Sets of values as lists

A set looks for a value only among the members with its digest.  It misses none there, since values
of equal contents have one digest and each member stands in the bucket of its own.  So whatever is
asked of a set, it answers and grows like a list that is searched from the front:
`set_answers_as_list`.
-/

namespace ModelGraph

namespace ValueSet

/-! ## Members in their buckets -/

/-- The bucket of a digest holds just the members with this digest, the latest first. -/
def Indexed (s : ValueSet) : Prop :=
  ∀ d, s.bucket d = (s.toList.filter fun member => member.digest = d).reverse

theorem indexed_empty : (∅ : ValueSet).Indexed :=
  fun _ => Std.HashMap.getD_empty

theorem insert_eq (s : ValueSet) (v : Value) :
    s.insert v =
      if s.contains v then s
      else ⟨s.members.push v, s.buckets.insert v.digest (v :: s.bucket v.digest)⟩ := by
  obtain ⟨members, buckets⟩ := s
  exact apply_ite Prod.snd _ _ _

theorem containsThenInsert_eq (s : ValueSet) (v : Value) :
    s.containsThenInsert v = (s.contains v, s.insert v) := by
  refine Prod.ext ?_ rfl
  simp only [containsThenInsert, contains]
  split
  · next present => exact present.symm
  · next absent => exact (Bool.eq_false_of_not_eq_true absent).symm

theorem bucket_insert (s : ValueSet) (v : Value) (d : Digest) :
    (s.insert v).bucket d =
      if s.contains v = false ∧ v.digest = d then v :: s.bucket d else s.bucket d := by
  rw [insert_eq]
  cases s.contains v with
  | true => simp
  | false =>
      simp only [bucket, Bool.false_eq_true, if_false, Std.HashMap.getD_insert, beq_iff_eq,
        true_and]
      split
      · next here => rw [here]
      · rfl

theorem mem_toList_insert (s : ValueSet) (v w : Value) :
    w ∈ (s.insert v).toList ↔ w ∈ s.toList ∨ s.contains v = false ∧ w = v := by
  rw [toList_insert]
  cases s.contains v <;> simp

/-- An insertion adds a member at the end of the list and at the front of its bucket, or neither. -/
theorem Indexed.insert
    {s : ValueSet}
    (indexed : s.Indexed)
    (v : Value) :
    (s.insert v).Indexed := by
  intro d
  rw [bucket_insert, toList_insert, indexed d]
  cases s.contains v with
  | true => simp
  | false => by_cases here : v.digest = d <;> simp [here]

theorem Indexed.insertMany
    {s : ValueSet}
    (indexed : s.Indexed)
    (values : List Value) :
    (s.insertMany values).Indexed := by
  unfold ValueSet.insertMany
  induction values generalizing s with
  | nil => exact indexed
  | cons v rest ih => exact ih (indexed.insert v)

/-- A set that is indexed misses no member that has the contents of a value. -/
theorem Indexed.contains_eq_any
    {s : ValueSet}
    (indexed : s.Indexed)
    (v : Value) :
    s.contains v = s.toList.any fun member => member.sameContents v := by
  unfold contains
  rw [indexed, List.any_reverse, List.any_filter]
  refine List.any_congr rfl fun member => ?_
  cases same : member.sameContents v with
  | true => simp [Value.digest_eq_of_sameContents same]
  | false => simp

/-! ## Lists that are searched from the front -/

/-- Adds a value at the end of a list unless one in the list has its contents. -/
def listInsert (members : List Value) (v : Value) : List Value :=
  if members.any fun member => member.sameContents v then members else members ++ [v]

/-- Adds values to a list one after the other. -/
def listInsertMany (members values : List Value) : List Value :=
  values.foldl listInsert members

theorem Indexed.toList_insert
    {s : ValueSet}
    (indexed : s.Indexed)
    (v : Value) :
    (s.insert v).toList = listInsert s.toList v := by
  rw [ValueSet.toList_insert, indexed.contains_eq_any]
  rfl

theorem Indexed.toList_insertMany
    {s : ValueSet}
    (indexed : s.Indexed)
    (values : List Value) :
    (s.insertMany values).toList = listInsertMany s.toList values := by
  unfold ValueSet.insertMany listInsertMany
  induction values generalizing s with
  | nil => rfl
  | cons v rest ih =>
      rw [List.foldl_cons, List.foldl_cons, ih (indexed.insert v), indexed.toList_insert]

/-- No value of the list has the contents of an earlier one. -/
def Different (values : List Value) : Prop :=
  values.Pairwise fun earlier later => earlier.sameContents later = false

theorem different_nil : Different [] :=
  List.Pairwise.nil

theorem Different.listInsert
    {members : List Value}
    (different : Different members)
    (v : Value) :
    Different (listInsert members v) := by
  unfold ValueSet.listInsert
  split
  · exact different
  · next fresh =>
      refine List.pairwise_append.mpr ⟨different, List.pairwise_singleton _ _, ?_⟩
      intro member present w isNew
      rw [List.mem_singleton.mp isNew]
      simpa using List.any_eq_false.mp (Bool.eq_false_of_not_eq_true fresh) member present

theorem Different.listInsertMany
    {members : List Value}
    (different : Different members)
    (values : List Value) :
    Different (listInsertMany members values) := by
  unfold ValueSet.listInsertMany
  induction values generalizing members with
  | nil => exact different
  | cons v rest ih => exact ih (different.listInsert v)

/-- The values of the list stand in the way of those that come later. -/
theorem listInsertMany_eq_loop (members values : List Value) :
    listInsertMany members values =
      List.eraseDupsBy.loop (fun later earlier => earlier.sameContents later) values
        members.reverse := by
  unfold listInsertMany
  induction values generalizing members with
  | nil => simp [List.eraseDupsBy.loop]
  | cons v rest ih =>
      rw [List.foldl_cons, ih, List.eraseDupsBy.loop, List.any_reverse]
      unfold listInsert
      cases members.any fun member => member.sameContents v <;> simp

/-- Of values of equal contents the first is kept, in the place where it came. -/
theorem listInsertMany_nil (values : List Value) :
    listInsertMany [] values =
      values.eraseDupsBy fun later earlier => earlier.sameContents later :=
  listInsertMany_eq_loop [] values

/-- Where no contents come twice, nothing is left out. -/
theorem Different.listInsertMany_eq_append
    {members values : List Value}
    (different : Different (members ++ values)) :
    ValueSet.listInsertMany members values = members ++ values := by
  induction values generalizing members with
  | nil => exact (List.append_nil members).symm
  | cons v rest ih =>
      have fresh : ∀ member ∈ members, member.sameContents v = false := fun member present =>
        (List.pairwise_append.mp different).2.2 member present v List.mem_cons_self
      have added : ValueSet.listInsert members v = members ++ [v] :=
        if_neg (by simpa using fresh)
      rw [List.append_cons] at different ⊢
      rw [← ih different, ← added]
      rfl

theorem listInsertMany_append (members values values' : List Value) :
    listInsertMany members (values ++ values') =
      listInsertMany (listInsertMany members values) values' :=
  List.foldl_append

/-! ## Requests -/

/-- What may be asked of a set. -/
inductive Request where
  /-- Add a value; the answer is whether it was new. -/
  | insert (v : Value)
  /-- Say whether a member has the contents of a value. -/
  | contains (v : Value)
  /-- Add several values. -/
  | insertMany (values : List Value)
  /-- Start again with several values. -/
  | ofList (values : List Value)

/-- What a set answers to a request, and what becomes of it. -/
def respond (s : ValueSet) : Request → Option Bool × ValueSet
  | .insert v =>
    let (present, s') := s.containsThenInsert v
    (some !present, s')
  | .contains v => (some (s.contains v), s)
  | .insertMany values => (none, s.insertMany values)
  | .ofList values => (none, .ofList values)

theorem respond_insert (s : ValueSet) (v : Value) :
    s.respond (.insert v) = (some !s.contains v, s.insert v) := by
  change (some !(s.containsThenInsert v).1, (s.containsThenInsert v).2) = _
  rw [containsThenInsert_eq]

/-- What a list that is searched from the front answers to a request, and what becomes of it. -/
def listRespond (members : List Value) : Request → Option Bool × List Value
  | .insert v => (some !members.any fun member => member.sameContents v, listInsert members v)
  | .contains v => (some (members.any fun member => member.sameContents v), members)
  | .insertMany values => (none, listInsertMany members values)
  | .ofList values => (none, listInsertMany [] values)

/-- The values that are offered to a set from the last time on that it was started again. -/
def offered (before : List Value) : Request → List Value
  | .insert v => before ++ [v]
  | .contains _ => before
  | .insertMany values => before ++ values
  | .ofList values => values

/-- Makes requests one after the other, and keeps the answers. -/
def run {σ : Type} (respond : σ → Request → Option Bool × σ) :
    σ → List Request → List (Option Bool) × σ
  | s, [] => ([], s)
  | s, request :: rest =>
    let (answer, s') := respond s request
    let (answers, s'') := run respond s' rest
    (answer :: answers, s'')

theorem indexed_ofList (values : List Value) : (ofList values).Indexed :=
  indexed_empty.insertMany values

theorem toList_ofList (values : List Value) :
    (ofList values).toList = listInsertMany [] values :=
  indexed_empty.toList_insertMany values

/-- The members of a set that came of insertions are in their buckets, and their contents are
different. -/
structure Sound (s : ValueSet) : Prop where
  indexed : s.Indexed
  different : Different s.toList

theorem sound_empty : (∅ : ValueSet).Sound :=
  ⟨indexed_empty, different_nil⟩

theorem Sound.insert {s : ValueSet} (sound : s.Sound) (v : Value) : (s.insert v).Sound where
  indexed := sound.indexed.insert v
  different := by
    rw [sound.indexed.toList_insert]
    exact sound.different.listInsert v

theorem toList_ofList_of_different
    {values : List Value}
    (different : Different values) :
    (ofList values).toList = values := by
  rw [toList_ofList]
  exact (show Different ([] ++ values) from different).listInsertMany_eq_append

/-- A request is answered alike, and what is left of the set is listed like what is left of the
list. -/
theorem Indexed.respond
    {s : ValueSet}
    (indexed : s.Indexed)
    (request : Request) :
    (s.respond request).2.Indexed ∧
      (s.respond request).1 = (listRespond s.toList request).1 ∧
      (s.respond request).2.toList = (listRespond s.toList request).2 := by
  cases request with
  | insert v =>
      rw [respond_insert, indexed.contains_eq_any]
      exact ⟨indexed.insert v, rfl, indexed.toList_insert v⟩
  | contains v => exact ⟨indexed, congrArg some (indexed.contains_eq_any v), rfl⟩
  | insertMany values =>
      exact ⟨indexed.insertMany values, rfl, indexed.toList_insertMany values⟩
  | ofList values => exact ⟨indexed_ofList values, rfl, toList_ofList values⟩

/-- What one request keeps, any number of them keep. -/
theorem Indexed.run
    {s : ValueSet}
    (indexed : s.Indexed)
    (requests : List Request) :
    (run ValueSet.respond s requests).1 = (run listRespond s.toList requests).1 ∧
      (run ValueSet.respond s requests).2.toList = (run listRespond s.toList requests).2 := by
  induction requests generalizing s with
  | nil => exact ⟨rfl, rfl⟩
  | cons request rest ih =>
      obtain ⟨indexed', answer, left⟩ := indexed.respond request
      obtain ⟨answers, left'⟩ := ih indexed'
      rw [left] at answers left'
      exact ⟨congrArg₂ List.cons answer answers, left'⟩

/-- A list holds what was offered since it was last started again, without repetitions. -/
theorem run_listRespond (before : List Value) (requests : List Request) :
    (run listRespond (listInsertMany [] before) requests).2 =
      listInsertMany [] (requests.foldl offered before) := by
  induction requests generalizing before with
  | nil => rfl
  | cons request rest ih =>
      have step : (listRespond (listInsertMany [] before) request).2 =
          listInsertMany [] (offered before request) := by
        cases request with
        | insert v => exact (listInsertMany_append [] before [v]).symm
        | contains v => rfl
        | insertMany values => exact (listInsertMany_append [] before values).symm
        | ofList values => rfl
      rw [List.foldl_cons, ← ih, ← step]
      rfl

/-- Whatever is asked of a set that was empty, it answers like a list that is searched from the
front, and holds the same values in the same order.  They have different contents, and are the
first of each contents among the values that were offered, in the order of these. -/
theorem set_answers_as_list (requests : List Request) :
    (run respond ∅ requests).1 = (run listRespond [] requests).1 ∧
    (run respond ∅ requests).2.toList = (run listRespond [] requests).2 ∧
    (run respond ∅ requests).2.size = (run listRespond [] requests).2.length ∧
    Different (run respond ∅ requests).2.toList ∧
    (run respond ∅ requests).2.toList =
      (requests.foldl offered []).eraseDupsBy fun later earlier => earlier.sameContents later := by
  obtain ⟨answers, left⟩ := indexed_empty.run requests
  have offers := run_listRespond [] requests
  rw [toList_empty] at answers left
  refine ⟨answers, left, congrArg List.length left, ?_, ?_⟩
  · rw [left]
    exact offers ▸ different_nil.listInsertMany (requests.foldl offered [])
  · rw [left, ← listInsertMany_nil]
    exact offers

end ValueSet

end ModelGraph

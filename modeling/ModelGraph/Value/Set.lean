import Std.Data.HashMap
import ModelGraph.Value.Basic

/-!
# Sets of values

A set holds one value of each contents, in the order in which they came.  Members are
looked for among those with the same digest only.
-/

namespace ModelGraph

/-- Values of pairwise different contents, the first comer before the later ones. -/
structure ValueSet where
  /-- The members in order of arrival. -/
  members : Array Value := #[]
  /-- The members with each digest, the latest first. -/
  buckets : Std.HashMap Digest (List Value) := {}

namespace ValueSet

/-- The set without members. -/
def empty : ValueSet := {}

instance : EmptyCollection ValueSet :=
  ⟨empty⟩

/-- The members with a given digest. -/
def bucket (s : ValueSet) (d : Digest) : List Value :=
  s.buckets.getD d []

/-- Whether a member has the contents of `v`. -/
def contains (s : ValueSet) (v : Value) : Bool :=
  (s.bucket v.digest).any fun member => member.sameContents v

/-- Adds a value unless a member has its contents, and tells whether one had. -/
def containsThenInsert (s : ValueSet) (v : Value) : Bool × ValueSet :=
  let digest := v.digest
  let bucket := s.bucket digest
  if bucket.any fun member => member.sameContents v then
    (true, s)
  else
    match s with
    | ⟨members, buckets⟩ =>
      (false, ⟨members.push v, buckets.insert digest (v :: bucket)⟩)

/-- Adds a value unless a member has its contents. -/
def insert (s : ValueSet) (v : Value) : ValueSet :=
  (s.containsThenInsert v).2

/-- Adds values one after the other. -/
def insertMany (s : ValueSet) (values : List Value) : ValueSet :=
  values.foldl insert s

/-- The set of the values of a list. -/
def ofList (values : List Value) : ValueSet :=
  empty.insertMany values

/-- The members in order of arrival. -/
def toList (s : ValueSet) : List Value :=
  s.members.toList

/-- The number of members. -/
def size (s : ValueSet) : Nat :=
  s.members.size

/-- Whether there is no member. -/
def isEmpty (s : ValueSet) : Bool :=
  s.members.isEmpty

@[simp] theorem toList_empty : (∅ : ValueSet).toList = [] := rfl

theorem toList_insert (s : ValueSet) (v : Value) :
    (s.insert v).toList = if s.contains v then s.toList else s.toList ++ [v] := by
  obtain ⟨members, buckets⟩ := s
  simp only [insert, containsThenInsert, contains]
  split <;> simp only [toList, Array.toList_push, *] <;> rfl

end ValueSet

end ModelGraph

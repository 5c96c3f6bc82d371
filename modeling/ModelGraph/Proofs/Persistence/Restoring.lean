import ModelGraph.Persistence.Node
import ModelGraph.Proofs.Outcome

/-!
# Reading back what was written

Everything is read back as it was written, with one exception: a real that is no finite number
is written as nothing, and nothing is not read as a real.  `Read.provided` is the outcome of
reading where this may happen, and passes from the parts of a piece of data to the whole.  Data
without reals is simply read back.
-/

namespace ModelGraph

/-- Reads a piece of data if it is sound; unsound data does not have the form of its type. -/
def Read.provided {α : Type} (sound : Bool) (a : α) : Read α :=
  if sound then .ok a else .error .form

namespace Read

variable {α β : Type}

@[simp] theorem provided_true (a : α) : provided true a = .ok a := rfl

@[simp] theorem provided_false (a : α) : provided false a = .error .form := rfl

@[simp] theorem map_provided (f : α → β) (sound : Bool) (a : α) :
    f <$> provided sound a = provided sound (f a) := by
  cases sound <;> rfl

/-- Reading goes on if the data was sound. -/
theorem provided_bind {f : α → Read β} {a : α} {b : β} (sound : Bool) (next : f a = .ok b) :
    provided sound a >>= f = provided sound b := by
  cases sound with
  | true => exact next
  | false => rfl

end Read

namespace Json

@[simp] theorem toCount_ofNat (n : Nat) : (ofNat n).toCount = .ok n := rfl

@[simp] theorem toWord_ofNat (n : UInt64) : (ofNat n.toNat).toWord = .ok n := by
  simp [toWord, n.toNat_lt_size]

/-- A real is read back if it is a finite number. -/
@[simp] theorem toReal_ofReal (x : Float) : (ofReal x).toReal = Read.provided x.isFinite x := by
  unfold ofReal
  cases x.isFinite <;> rfl

section Array

variable {α β : Type} {write : α → Json} {read : Json → Read α}

/-- A list is read back if each of its items is. -/
theorem toList_map {sound : α → Bool}
    (each : ∀ a, read (write a) = Read.provided (sound a) a)
    (items : List α) :
    toList read (.array (items.map write)) = Read.provided (items.all sound) items := by
  change (items.map write).mapM read = _
  induction items with
  | nil => rfl
  | cons first rest ih =>
      rw [List.map_cons, List.mapM_cons, each, ih, List.all_cons]
      cases sound first <;> cases rest.all sound <;> rfl

theorem toList_map_of_ok
    (each : ∀ a, read (write a) = .ok a)
    (items : List α) :
    toList read (.array (items.map write)) = .ok items := by
  have sound : ∀ a, read (write a) = Read.provided true a := each
  rw [toList_map sound, List.all_eq_true.mpr fun _ _ => rfl, Read.provided_true]

theorem toPair_of_ok {first : Json → Read α} {second : Json → Read β} {x y : Json} {a : α} {b : β}
    (here : first x = .ok a)
    (there : second y = .ok b) :
    toPair first second (.array [x, y]) = .ok (a, b) := by
  simp [toPair, here, there]

end Array

namespace Parts

variable {α : Type} {name other : String} {json : Json} {parts : Parts} {part : Json → Read α}

@[simp] theorem read?_cons_self :
    read? ((name, json) :: parts) name part = some <$> part json := by
  simp [read?]

@[simp] theorem read?_cons_of_ne (different : name ≠ other) :
    read? ((other, json) :: parts) name part = read? parts name part := by
  simp [read?, List.lookup_cons, beq_false_of_ne different]

@[simp] theorem read_cons_self : read ((name, json) :: parts) name part = part json := by
  rw [read, read?_cons_self]
  cases part json <;> rfl

@[simp] theorem read_cons_of_ne (different : name ≠ other) :
    read ((other, json) :: parts) name part = read parts name part := by
  rw [read, read?_cons_of_ne different, ← read]

end Parts

end Json

end ModelGraph

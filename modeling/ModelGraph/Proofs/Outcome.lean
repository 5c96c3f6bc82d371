import Mathlib.Data.List.Forall2

/-!
# Requests that may be refused

Most functions of the library either answer or refuse.  This module takes chains of such
requests apart.  `Outcome.Ensures` states what holds of an answer together with what holds
of the reason for a refusal, and passes through chains and folds.  `Outcome.Agree` and
`Outcome.Correspond` compare two requests; the former asks for one reason if they are refused.
-/

namespace ModelGraph

namespace Outcome

variable {ε α β γ δ ζ : Type}

@[simp] theorem pure_eq (a : α) : (pure a : Except ε α) = .ok a := rfl

@[simp] theorem throw_eq (e : ε) : (throw e : Except ε α) = .error e := rfl

@[simp] theorem ok_bind (a : α) (f : α → Except ε β) : (Except.ok a >>= f) = f a := rfl

@[simp] theorem error_bind (e : ε) (f : α → Except ε β) :
    (Except.error e >>= f) = .error e := rfl

theorem bind_eq_ok_iff {x : Except ε α} {f : α → Except ε β} {b : β} :
    x >>= f = .ok b ↔ ∃ a, x = .ok a ∧ f a = .ok b := by
  cases x <;> simp

/-- Two requests in a row succeed if both do. -/
theorem seq_eq_ok_iff {x : Except ε Unit} {y : Except ε β} {b : β} :
    (x >>= fun _ => y) = .ok b ↔ x = .ok () ∧ y = .ok b := by
  cases x <;> simp

theorem mapError_eq_ok_iff {x : Except ε α} {f : ε → ζ} {a : α} :
    x.mapError f = .ok a ↔ x = .ok a := by
  cases x with
  | ok b =>
      change (Except.ok b : Except ζ α) = .ok a ↔ _
      simp only [Except.ok.injEq]
  | error e => exact ⟨nofun, nofun⟩

theorem forM_eq_ok_iff {f : α → Except ε Unit} {items : List α} :
    items.forM f = .ok () ↔ ∀ item ∈ items, f item = .ok () := by
  induction items with
  | nil => simp
  | cons item items ih =>
      change (f item >>= fun _ => items.forM f) = .ok () ↔ _
      rw [seq_eq_ok_iff, List.forall_mem_cons, ih]

/-- Several requests are granted together if each of them is. -/
theorem mapM_eq_ok_iff
    {f : α → Except ε β} {items : List α} {answers : List β} :
    items.mapM f = .ok answers ↔ List.Forall₂ (fun item a => f item = .ok a) items answers := by
  induction items generalizing answers with
  | nil => simp [eq_comm]
  | cons item items ih =>
      rw [List.mapM_cons]
      simp only [bind_eq_ok_iff, ih, List.forall₂_cons_left_iff, pure_eq, Except.ok.injEq]
      constructor
      · rintro ⟨a, here, rest, later, rfl⟩
        exact ⟨a, rest, here, later, rfl⟩
      · rintro ⟨a, rest, here, later, rfl⟩
        exact ⟨a, here, rest, later, rfl⟩

theorem exists_of_mapM_eq_ok
    {f : α → Except ε β} {items : List α} {answers : List β} {item : α}
    (granted : items.mapM f = .ok answers)
    (present : item ∈ items) :
    ∃ a, f item = .ok a := by
  induction mapM_eq_ok_iff.mp granted with
  | nil => cases present
  | cons here later ih =>
      cases present with
      | head => exact ⟨_, here⟩
      | tail _ present => exact ih (mapM_eq_ok_iff.mpr later) present

/-- Requests that are all granted are granted together. -/
theorem mapM_eq_ok_map
    {f : α → Except ε β} {g : α → β} {items : List α}
    (each : ∀ item ∈ items, f item = .ok (g item)) :
    items.mapM f = .ok (items.map g) :=
  mapM_eq_ok_iff.mpr (List.forall₂_map_right_iff.mpr (List.forall₂_same.mpr each))

theorem mapM_congr
    {f f' : α → Except ε β} {items : List α}
    (same : ∀ item ∈ items, f' item = f item) :
    items.mapM f' = items.mapM f := by
  induction items with
  | nil => rfl
  | cons item items ih =>
      obtain ⟨here, later⟩ := List.forall_mem_cons.mp same
      rw [List.mapM_cons, List.mapM_cons, here, ih later]

theorem foldlM_congr
    {f f' : β → α → Except ε β} {items : List α}
    (same : ∀ item ∈ items, ∀ b, f' b item = f b item)
    (start : β) :
    items.foldlM f' start = items.foldlM f start := by
  induction items generalizing start with
  | nil => rfl
  | cons item items ih =>
      obtain ⟨here, later⟩ := List.forall_mem_cons.mp same
      rw [List.foldlM_cons, List.foldlM_cons, here]
      exact congrArg (f start item >>= ·) (funext fun b => ih later b)

/-- An answer has one property, and the reason for a refusal another. -/
def Ensures (x : Except ε α) (answer : α → Prop) (reason : ε → Prop) : Prop :=
  match x with
  | .ok a => answer a
  | .error e => reason e

section Ensures

variable {answer : α → Prop} {reason : ε → Prop}

@[simp] theorem ensures_ok (a : α) : Ensures (.ok a) answer reason ↔ answer a := Iff.rfl

@[simp] theorem ensures_error (e : ε) : Ensures (.error e) answer reason ↔ reason e := Iff.rfl

theorem Ensures.of_ok
    {x : Except ε α} {a : α}
    (ensures : Ensures x answer reason)
    (answered : x = .ok a) :
    answer a := by
  rw [answered] at ensures
  exact ensures

theorem Ensures.of_error
    {x : Except ε α} {e : ε}
    (ensures : Ensures x answer reason)
    (refused : x = .error e) :
    reason e := by
  rw [refused] at ensures
  exact ensures

/-- A request that is refused for no reason is granted. -/
theorem Ensures.exists_ok
    {x : Except ε α}
    (ensures : Ensures x answer fun _ => False) :
    ∃ a, x = .ok a ∧ answer a := by
  cases x with
  | ok a => exact ⟨a, rfl, ensures⟩
  | error e => exact ensures.elim

theorem Ensures.bind
    {x : Except ε α} {f : α → Except ε β} {later : β → Prop}
    (first : Ensures x answer reason)
    (next : ∀ a, answer a → Ensures (f a) later reason) :
    Ensures (x >>= f) later reason := by
  cases x with
  | ok a => exact next a first
  | error e => exact first

theorem Ensures.imp
    {x : Except ε α} {answer' : α → Prop} {reason' : ε → Prop}
    (ensures : Ensures x answer reason)
    (answers : ∀ a, answer a → answer' a)
    (reasons : ∀ e, reason e → reason' e) :
    Ensures x answer' reason' := by
  cases x with
  | ok a => exact answers a ensures
  | error e => exact reasons e ensures

/-- What holds of each of several requests holds of all of them together. -/
theorem Ensures.mapM
    {f : β → Except ε α} {items : List β}
    (each : ∀ item ∈ items, Ensures (f item) answer reason) :
    Ensures (items.mapM f) (fun answers => ∀ a ∈ answers, answer a) reason := by
  induction items with
  | nil => simp
  | cons first rest ih =>
      obtain ⟨here, later⟩ := List.forall_mem_cons.mp each
      rw [List.mapM_cons]
      refine here.bind fun a holds => (ih later).bind fun answers all => ?_
      exact List.forall_mem_cons.mpr ⟨holds, all⟩

/-- What every step of a fold keeps, the whole fold keeps. -/
theorem Ensures.foldlM
    {f : β → α → Except ε β} {invariant : β → Prop}
    {items : List α} {start : β}
    (step : ∀ b, invariant b → ∀ item ∈ items, Ensures (f b item) invariant reason)
    (initially : invariant start) :
    Ensures (items.foldlM f start) invariant reason := by
  induction items generalizing start with
  | nil => exact initially
  | cons first rest ih =>
      rw [List.foldlM_cons]
      refine (step start initially first List.mem_cons_self).bind fun next holds => ?_
      exact ih (fun b holds item present =>
        step b holds item (List.mem_cons_of_mem _ present)) holds

/-- A request is refused for one kind of reason, if at all. -/
abbrev RefusedFor (x : Except ε α) (reason : ε → Prop) : Prop :=
  Ensures x (fun _ => True) reason

/-- Other facts about a request may be left out. -/
theorem Ensures.refusedFor
    {x : Except ε α} {reason' : ε → Prop}
    (ensures : Ensures x answer reason)
    (reasons : ∀ e, reason e → reason' e) :
    RefusedFor x reason' :=
  ensures.imp (fun _ _ => trivial) reasons

theorem RefusedFor.forM
    {f : β → Except ε Unit} {items : List β}
    (each : ∀ item ∈ items, RefusedFor (f item) reason) :
    RefusedFor (items.forM f) reason := by
  induction items with
  | nil => trivial
  | cons first rest ih =>
      obtain ⟨here, later⟩ := List.forall_mem_cons.mp each
      exact here.bind fun _ _ => ih later

theorem RefusedFor.mapM
    {f : β → Except ε α} {items : List β}
    (each : ∀ item ∈ items, RefusedFor (f item) reason) :
    RefusedFor (items.mapM f) reason :=
  (Ensures.mapM each).refusedFor fun _ refused => refused

end Ensures

/-- Two requests are both granted, with related answers, or both refused for one reason. -/
inductive Agree (related : α → β → Prop) : Except ε α → Except ε β → Prop where
  | ok {a : α} {b : β} (holds : related a b) : Agree related (.ok a) (.ok b)
  | error (e : ε) : Agree related (.error e) (.error e)

namespace Agree

variable {related : α → β → Prop} {x : Except ε α} {y : Except ε β}

theorem refl (x : Except ε α) : Agree (· = ·) x x := by
  cases x with
  | ok a => exact .ok rfl
  | error e => exact .error e

theorem bind
    {f : α → Except ε γ} {g : β → Except ε δ} {later : γ → δ → Prop}
    (first : Agree related x y)
    (next : ∀ a b, related a b → Agree later (f a) (g b)) :
    Agree later (x >>= f) (y >>= g) := by
  cases first with
  | ok holds => exact next _ _ holds
  | error e => exact .error e

theorem imp
    {related' : α → β → Prop}
    (agree : Agree related x y)
    (weaker : ∀ a b, related a b → related' a b) :
    Agree related' x y := by
  cases agree with
  | ok holds => exact .ok (weaker _ _ holds)
  | error e => exact .error e

/-- What was answered may be used to relate the answers otherwise. -/
theorem imp_of_eq_ok
    {related' : α → β → Prop}
    (agree : Agree related x y)
    (stronger : ∀ a b, x = .ok a → y = .ok b → related a b → related' a b) :
    Agree related' x y := by
  cases agree with
  | ok holds => exact .ok (stronger _ _ rfl rfl holds)
  | error e => exact .error e

theorem symm (agree : Agree related x y) : Agree (fun b a => related a b) y x := by
  cases agree with
  | ok holds => exact .ok holds
  | error e => exact .error e

/-- Requests that agree one by one agree together. -/
theorem mapM
    {f : ζ → Except ε α} {g : ζ → Except ε β} {items : List ζ}
    (each : ∀ item ∈ items, Agree related (f item) (g item)) :
    Agree (List.Forall₂ related) (items.mapM f) (items.mapM g) := by
  induction items with
  | nil => exact .ok .nil
  | cons item items ih =>
      obtain ⟨here, later⟩ := List.forall_mem_cons.mp each
      rw [List.mapM_cons, List.mapM_cons]
      exact here.bind fun _ _ first => (ih later).bind fun _ _ rest => .ok (.cons first rest)

theorem exists_of_ok
    {a : α}
    (agree : Agree related x y)
    (granted : x = .ok a) :
    ∃ b, y = .ok b ∧ related a b := by
  subst granted
  cases agree with
  | ok holds => exact ⟨_, rfl, holds⟩

theorem of_eq_ok
    {a : α} {b : β}
    (agree : Agree related x y)
    (granted : x = .ok a)
    (granted' : y = .ok b) :
    related a b := by
  subst granted granted'
  cases agree with
  | ok holds => exact holds

theorem eq_error
    {e : ε}
    (agree : Agree related x y)
    (refused : y = .error e) :
    x = .error e := by
  subst refused
  cases agree with
  | error => rfl

end Agree

/-- Two requests are both granted, with related answers, or both refused, for related reasons. -/
inductive Correspond (related : α → β → Prop) (alike : ε → ε → Prop) :
    Except ε α → Except ε β → Prop where
  | ok {a : α} {b : β} (holds : related a b) : Correspond related alike (.ok a) (.ok b)
  | error {e e' : ε} (reasons : alike e e') : Correspond related alike (.error e) (.error e')

namespace Correspond

variable {related : α → β → Prop} {alike : ε → ε → Prop} {x : Except ε α} {y : Except ε β}

theorem of_eq
    {x y : Except ε α}
    (reflexive : ∀ e, alike e e)
    (same : x = y) :
    Correspond (· = ·) alike x y := by
  subst same
  cases x with
  | ok a => exact .ok rfl
  | error e => exact .error (reflexive e)

theorem bind
    {f : α → Except ε γ} {g : β → Except ε δ} {later : γ → δ → Prop}
    (first : Correspond related alike x y)
    (next : ∀ a b, related a b → Correspond later alike (f a) (g b)) :
    Correspond later alike (x >>= f) (y >>= g) := by
  cases first with
  | ok holds => exact next _ _ holds
  | error reasons => exact .error reasons

theorem imp
    {related' : α → β → Prop}
    (correspond : Correspond related alike x y)
    (weaker : ∀ a b, x = .ok a → related a b → related' a b) :
    Correspond related' alike x y := by
  cases correspond with
  | ok holds => exact .ok (weaker _ _ rfl holds)
  | error reasons => exact .error reasons

end Correspond

end Outcome

end ModelGraph

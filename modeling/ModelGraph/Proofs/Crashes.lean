import ModelGraph.Error
import ModelGraph.Proofs.Outcome

/-!
# Computations that crash

Some computations are refused nothing, but read arrays by places that are computed in words.  They
answer where words can count the places, and crash where they cannot.  `Outcome.AnswersIf` states
both and passes through chains and lists of such computations.  `Outcome.AgreesIf` compares such a
computation with a request that reads no array.
-/

namespace ModelGraph

/-- Whether a computation ended by reading an array beyond its bounds. -/
def Error.IsCrash (e : Error) : Prop :=
  ∃ fault, e = .crash fault

namespace Outcome

variable {α β : Type} {x : Except Error α} {condition condition' : Prop} {a : α} {b : β}

/-- A computation gives an answer under a condition, and crashes where the condition fails. -/
structure AnswersIf (x : Except Error α) (condition : Prop) (answer : α) : Prop where
  answers : condition → x = .ok answer
  crashes : ¬condition → ∃ e, x = .error e ∧ e.IsCrash

namespace AnswersIf

theorem ok (a : α) : AnswersIf (.ok a) True a :=
  ⟨fun _ => rfl, fun never => absurd trivial never⟩

theorem eq_ok_iff
    (answersIf : AnswersIf x condition a)
    {c : α} :
    x = .ok c ↔ condition ∧ c = a := by
  by_cases holds : condition
  · rw [answersIf.answers holds, Except.ok.injEq]
    exact ⟨fun same => ⟨holds, same.symm⟩, fun same => same.2.symm⟩
  · obtain ⟨e, crashed, -⟩ := answersIf.crashes holds
    rw [crashed]
    exact iff_of_false nofun fun same => holds same.1

theorem exists_eq_ok_iff (answersIf : AnswersIf x condition a) :
    (∃ c, x = .ok c) ↔ condition := by
  simp only [answersIf.eq_ok_iff, exists_and_left, exists_eq, and_true]

theorem isCrash_of_eq_error
    {e : Error}
    (answersIf : AnswersIf x condition a)
    (failed : x = .error e) :
    e.IsCrash := by
  by_cases holds : condition
  · cases failed.symm.trans (answersIf.answers holds)
  · obtain ⟨e', crashed, isCrash⟩ := answersIf.crashes holds
    cases failed.symm.trans crashed
    exact isCrash

theorem of_iff
    (answersIf : AnswersIf x condition a)
    (same : condition ↔ condition') :
    AnswersIf x condition' a :=
  ⟨fun holds => answersIf.answers (same.mpr holds), fun fails =>
    answersIf.crashes (mt same.mp fails)⟩

theorem bind
    {f : α → Except Error β}
    (first : AnswersIf x condition a)
    (next : AnswersIf (f a) condition' b) :
    AnswersIf (x >>= f) (condition ∧ condition') b where
  answers := fun ⟨holds, holds'⟩ => by
    rw [first.answers holds, ok_bind, next.answers holds']
  crashes := fun fails => by
    by_cases holds : condition
    · rw [first.answers holds, ok_bind]
      exact next.crashes fun holds' => fails ⟨holds, holds'⟩
    · obtain ⟨e, crashed, isCrash⟩ := first.crashes holds
      exact ⟨e, by rw [crashed, error_bind], isCrash⟩

/-- What is made of an answer is there where the answer is. -/
theorem map
    (first : AnswersIf x condition a)
    (f : α → β) :
    AnswersIf (x >>= fun c => .ok (f c)) condition (f a) :=
  (first.bind (.ok (f a))).of_iff (and_iff_left trivial)

theorem mapM
    {f : α → Except Error β} {condition : α → Prop} {answer : α → β} {items : List α}
    (each : ∀ item, AnswersIf (f item) (condition item) (answer item)) :
    AnswersIf (items.mapM f) (∀ item ∈ items, condition item) (items.map answer) := by
  induction items with
  | nil => exact (AnswersIf.ok []).of_iff (by simp)
  | cons item items ih =>
      rw [List.mapM_cons]
      exact ((each item).bind (ih.map (answer item :: ·))).of_iff List.forall_mem_cons.symm

end AnswersIf

/-- A computation gives some answer under a condition, and crashes where the condition fails. -/
def GrantedIf (x : Except Error α) (condition : Prop) : Prop :=
  ∃ a, AnswersIf x condition a

namespace GrantedIf

theorem exists_eq_ok_iff (grantedIf : GrantedIf x condition) :
    (∃ a, x = .ok a) ↔ condition := by
  obtain ⟨a, answersIf⟩ := grantedIf
  exact answersIf.exists_eq_ok_iff

theorem isCrash_of_eq_error
    {e : Error}
    (grantedIf : GrantedIf x condition)
    (failed : x = .error e) :
    e.IsCrash := by
  obtain ⟨a, answersIf⟩ := grantedIf
  exact answersIf.isCrash_of_eq_error failed

theorem of_iff
    (grantedIf : GrantedIf x condition)
    (same : condition ↔ condition') :
    GrantedIf x condition' := by
  obtain ⟨a, answersIf⟩ := grantedIf
  exact ⟨a, answersIf.of_iff same⟩

theorem bind
    {f : α → Except Error β}
    (first : GrantedIf x condition)
    (next : ∀ a, GrantedIf (f a) condition') :
    GrantedIf (x >>= f) (condition ∧ condition') := by
  obtain ⟨a, answersIf⟩ := first
  obtain ⟨b, answersIf'⟩ := next a
  exact ⟨b, answersIf.bind answersIf'⟩

theorem map
    (first : GrantedIf x condition)
    (f : α → β) :
    GrantedIf (x >>= fun c => .ok (f c)) condition := by
  obtain ⟨a, answersIf⟩ := first
  exact ⟨f a, answersIf.map f⟩

theorem mapM
    {f : α → Except Error β} {condition : α → Prop} {items : List α}
    (each : ∀ item ∈ items, GrantedIf (f item) (condition item)) :
    GrantedIf (items.mapM f) (∀ item ∈ items, condition item) := by
  induction items with
  | nil => exact ⟨[], (AnswersIf.ok []).of_iff (by simp)⟩
  | cons item items ih =>
      obtain ⟨here, later⟩ := List.forall_mem_cons.mp each
      rw [List.mapM_cons]
      exact (here.bind fun b => (ih later).map (b :: ·)).of_iff List.forall_mem_cons.symm

end GrantedIf

/-- A computation agrees with a request under a condition.  Where the condition fails, it crashes,
unless both are refused for one reason before. -/
structure AgreesIf {γ : Type} (related : γ → β → Prop) (x : Except Error γ) (y : Except Error β)
    (condition : Prop) : Prop where
  agree : condition → Agree related x y
  crashes : ¬condition → ∃ e, y = .error e ∧ (e.IsCrash ∨ x = .error e)

namespace AgreesIf

variable {γ δ ζ : Type} {related : γ → β → Prop} {later : δ → ζ → Prop} {x : Except Error γ}
  {y : Except Error β}

theorem bind
    {f : γ → Except Error δ} {f' : β → Except Error ζ}
    (first : AgreesIf related x y condition)
    (next : ∀ c b, related c b → AgreesIf later (f c) (f' b) condition') :
    AgreesIf later (x >>= f) (y >>= f') (condition ∧ condition') where
  agree := fun ⟨holds, holds'⟩ =>
    (first.agree holds).bind fun c b isRelated => (next c b isRelated).agree holds'
  crashes := fun fails => by
    by_cases holds : condition
    · cases first.agree holds with
      | ok isRelated => exact (next _ _ isRelated).crashes fun holds' => fails ⟨holds, holds'⟩
      | error e => exact ⟨e, rfl, .inr rfl⟩
    · obtain ⟨e, failed, reason⟩ := first.crashes holds
      refine ⟨e, by rw [failed, error_bind], reason.imp_right fun refused => ?_⟩
      rw [refused, error_bind]

/-- A request that no computation follows may be refused whatever the condition. -/
theorem error (e : Error) : AgreesIf related (.error e) (.error e) condition :=
  ⟨fun _ => .error e, fun _ => ⟨e, rfl, .inr rfl⟩⟩

theorem of_iff
    (agreesIf : AgreesIf related x y condition)
    (same : condition ↔ condition') :
    AgreesIf related x y condition' :=
  ⟨fun holds => agreesIf.agree (same.mpr holds), fun fails =>
    agreesIf.crashes (mt same.mp fails)⟩

theorem imp
    {related' : γ → β → Prop}
    (agreesIf : AgreesIf related x y condition)
    (weaker : ∀ c b, related c b → related' c b) :
    AgreesIf related' x y condition :=
  ⟨fun holds => (agreesIf.agree holds).imp weaker, agreesIf.crashes⟩

/-- Where the computation comes to an end, the condition holds and the request is granted. -/
theorem of_eq_ok
    {b : β}
    (agreesIf : AgreesIf related x y condition)
    (answered : y = .ok b) :
    condition ∧ ∃ c, x = .ok c ∧ related c b := by
  subst answered
  by_cases holds : condition
  · cases agree : agreesIf.agree holds with
    | ok isRelated => exact ⟨holds, _, rfl, isRelated⟩
  · obtain ⟨e, failed, -⟩ := agreesIf.crashes holds
    cases failed

end AgreesIf

end Outcome

end ModelGraph

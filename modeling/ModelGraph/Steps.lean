/-!
# Runs of steps

Numbered steps are taken one after the other, up to the first failure.
-/

namespace ModelGraph

namespace Steps

variable {m : Type → Type} [Monad m] {α : Type}

/-- The results of a number of steps, numbered from `first` on; no step is taken after a
failure. -/
def run (step : Nat → m α) : (count first : Nat) → m (List α)
  | 0, _ => pure []
  | count + 1, first => do
    let a ← step first
    return a :: (← run step count (first + 1))

theorem run_eq [LawfulMonad m] (step : Nat → m α) (count first : Nat) :
    run step count first = (List.range' first count).mapM step := by
  induction count generalizing first with
  | zero => rfl
  | succ count ih => simp [run, List.range'_succ, ih]

/-- Steps numbered from zero on are taken along the numbers below their number. -/
theorem run_zero_eq [LawfulMonad m] (step : Nat → m α) (count : Nat) :
    run step count 0 = (List.range count).mapM step := by
  rw [run_eq, List.range_eq_range']

end Steps

end ModelGraph

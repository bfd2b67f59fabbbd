import Mathlib.Data.Bool.Basic

namespace while_loop

variable {σ : Type}

/-- `while (cond) body`, started in `s`, ends in the second state. -/
inductive Ends (cond : σ → Bool) (body : σ → σ) : σ → σ → Prop where
  | done {s : σ} : cond s = false → Ends cond body s s
  | turn {s last : σ} : cond s = true → Ends cond body (body s) last → Ends cond body s last

/-- The loop, given up after `fuel` turns. -/
def run (cond : σ → Bool) (body : σ → σ) : Nat → σ → Option σ
  | 0, s => if cond s then none else some s
  | fuel + 1, s => if cond s then run cond body fuel (body s) else some s

variable {cond : σ → Bool} {body : σ → σ} {s last last' : σ}

/-- A loop that is not given up has ended. -/
theorem ends_of_run {fuel : Nat} (h : run cond body fuel s = some last) : Ends cond body s last := by
  induction fuel generalizing s with
  | zero =>
    simp only [run, Option.ite_none_left_eq_some, Option.some.injEq, Bool.not_eq_true] at h
    obtain ⟨hcond, rfl⟩ := h
    exact .done hcond
  | succ fuel ih =>
    rw [run] at h
    split at h
    · next hcond => exact .turn hcond (ih h)
    · next hcond =>
      cases h
      exact .done (by simpa using hcond)

/-- The invariant rule, with what the end of the loop adds to it. -/
theorem Ends.invariant {I : σ → Prop} (h : Ends cond body s last) (hfirst : I s)
    (hturn : ∀ s, cond s = true → I s → I (body s)) : I last ∧ cond last = false := by
  induction h with
  | done hcond => exact ⟨hfirst, hcond⟩
  | turn hcond _ ih => exact ih (hturn _ hcond hfirst)

/-- A loop ends in one state only. -/
theorem Ends.unique (h : Ends cond body s last) (h' : Ends cond body s last') : last' = last := by
  induction h with
  | done hcond =>
    cases h' with
    | done _ => rfl
    | turn hcond' _ =>
      rw [hcond] at hcond'
      cases hcond'
  | turn hcond _ ih =>
    cases h' with
    | done hcond' =>
      rw [hcond] at hcond'
      cases hcond'
    | turn _ hrest => exact ih hrest

end while_loop

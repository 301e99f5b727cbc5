/-
Loops that test after their body: when a run of `do body while (cond)` ends, and
what holds where it does.
-/

namespace DoWhile

variable {σ : Type} {body : σ → σ} {cond : σ → Bool}

/-- The state the loop ends in, if it does within `n` passes. -/
def run (body : σ → σ) (cond : σ → Bool) : Nat → σ → Option σ
  | 0, _ => none
  | n + 1, s => if cond (body s) then run body cond n (body s) else some (body s)

theorem run_go {n : Nat} {s : σ} (h : cond (body s) = true) : run body cond (n + 1) s = run body cond n (body s) :=
  if_pos h

theorem run_end {n : Nat} {s : σ} (h : cond (body s) = false) : run body cond (n + 1) s = some (body s) :=
  if_neg (ne_true_of_eq_false h)

/-- A loop that goes on only when a measure has fallen ends. -/
theorem run_of_measure (μ : σ → Nat) (hμ : ∀ s, cond (body s) = true → μ (body s) < μ s) {n : Nat} {s : σ}
    (hn : μ s < n) : ∃ t, run body cond n s = some t := by
  induction n generalizing s with
  | zero => omega
  | succ n ih =>
    cases hc : cond (body s) with
    | true =>
      have hlt := hμ s hc
      obtain ⟨t, ht⟩ := ih (s := body s) (by omega)
      exact ⟨t, (run_go hc).trans ht⟩
    | false => exact ⟨body s, run_end hc⟩

/-- What a pass that goes on keeps, and one that ends the loop turns into `Q`. -/
theorem run_invariant {I Q : σ → Prop} (hgo : ∀ s, I s → cond (body s) = true → I (body s))
    (hend : ∀ s, I s → cond (body s) = false → Q (body s)) {n : Nat} {s t : σ} (hs : I s)
    (h : run body cond n s = some t) : Q t := by
  induction n generalizing s with
  | zero => cases h
  | succ n ih =>
    cases hc : cond (body s) with
    | true =>
      rw [run_go hc] at h
      exact ih (hgo s hs hc) h
    | false =>
      rw [run_end hc] at h
      cases h
      exact hend s hs hc

end DoWhile

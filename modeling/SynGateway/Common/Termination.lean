import SynGateway.Common.Transition

/-!
# Runs that come to an end

A measure that every step of some kind lowers bounds the number of these steps in a run, also where
other steps in between raise it by a bounded amount (`countP_le_of_measure`). When no steps of
another kind are taken the system stops, and it can be driven to a state in which no step of the
kind is left (`exists_run_to_end`).
-/

namespace SynGateway.Transition

variable {σ α : Type*} {step : σ → α → Option σ} {guard : σ → α → Prop} {μ : σ → ℕ} {p q : α → Bool}
  {s₀ s t : σ}

/-- **Steps of kind `p` are paid for by steps of kind `q`**, if each of the first costs one and each
of the second brings `k`. -/
theorem countP_le_of_measure {k : ℕ} {as : List α} (hreach : Reach step guard s₀ s)
    (hguard : ∀ s a, guard s a)
    (hstep : ∀ s a t, Reach step guard s₀ s → step s a = some t →
      μ t + (if p a then 1 else 0) ≤ μ s + if q a then k else 0)
    (hrun : run step s as = some t) : μ t + as.countP p ≤ μ s + k * as.countP q := by
  induction as generalizing s with
  | nil =>
      obtain rfl := Option.some.inj hrun
      simp
  | cons a as ih =>
      obtain ⟨u, hu, hrun⟩ := Option.bind_eq_some_iff.mp hrun
      have hrest := ih (hreach.next (hguard s a) hu) hrun
      have hfirst := hstep s a u hreach hu
      rw [List.countP_cons, List.countP_cons, Nat.mul_add]
      cases hq : q a <;> simp only [hq, Bool.false_eq_true, if_false, if_true] at hfirst ⊢ <;> omega

/-- Steps of one kind that lower the measure lead to a state with no such step left. -/
theorem exists_run_to_end (hguard : ∀ s a, guard s a)
    (hstep : ∀ s a t, Reach step guard s₀ s → step s a = some t → p a = true → μ t < μ s)
    (hreach : Reach step guard s₀ s) :
    ∃ as t, (∀ a ∈ as, p a = true) ∧ run step s as = some t ∧ ∀ a, p a = true →
    step t a = none := by
  induction hn : μ s using Nat.strong_induction_on generalizing s with
  | _ n ih =>
      by_cases hstuck : ∀ a, p a = true → step s a = none
      · exact ⟨[], s, by simp, rfl, hstuck⟩
      · push Not at hstuck
        obtain ⟨a, ha, hsome⟩ := hstuck
        obtain ⟨u, hu⟩ := Option.ne_none_iff_exists'.mp hsome
        have hlt : μ u < n := hn ▸ hstep s a u hreach hu ha
        obtain ⟨as, t, has, hrun, hend⟩ := ih (μ u) hlt (hreach.next (hguard s a) hu) rfl
        refine ⟨a :: as, t, List.forall_mem_cons.mpr ⟨ha, has⟩, ?_, hend⟩
        rw [run_cons, hu]
        exact hrun

end SynGateway.Transition

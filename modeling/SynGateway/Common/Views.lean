import SynGateway.Common.Transition

/-!
# Views of a run

An observer sees a state through a map `σ → τ` and an action through a partial relabelling `α → β`
that may read the state the action is taken in. A view is faithful when a step that the observer
sees is a step of the observed system, and a step that is not seen leaves the observed state alone.
Then the visible part of a run is itself a run (`View.Faithful.run_trace`), and what the observer
sees at the end depends on that part only (`View.Faithful.eq_of_trace_eq`).
-/

namespace SynGateway.Transition

variable {σ α τ β : Type*}

/-- What an observer sees of a state, and of an action taken in a state. -/
structure View (σ α τ β : Type*) where
  state : σ → τ
  action : σ → α → Option β

namespace View

variable (view : View σ α τ β) (step : σ → α → Option σ)

/-- The actions of a run that the observer sees, in their order. -/
def trace : σ → List α → List β
  | _, [] => []
  | s, a :: as =>
    (view.action s a).toList ++ match step s a with
      | none => []
      | some t => trace t as

/-- A seen step is a step of the observed system, and an unseen one changes nothing there. -/
structure Faithful (step' : τ → β → Option τ) : Prop where
  seen : ∀ {s a b t}, step s a = some t → view.action s a = some b →
    step' (view.state s) b = some (view.state t)
  unseen : ∀ {s a t}, step s a = some t → view.action s a = none → view.state t = view.state s

variable {view step} {step' : τ → β → Option τ} {s t : σ} {as : List α}

/-- **What is seen of a run is a run.** -/
theorem Faithful.run_trace (h : view.Faithful step step') (hrun : run step s as = some t) :
    run step' (view.state s) (view.trace step s as) = some (view.state t) := by
  induction as generalizing s with
  | nil =>
      obtain rfl := Option.some.inj hrun
      rfl
  | cons a as ih =>
      obtain ⟨u, hu, hrun⟩ := Option.bind_eq_some_iff.mp hrun
      simp only [trace, hu, run_append]
      cases hseen : view.action s a with
      | none =>
          rw [← h.unseen hu hseen]
          exact ih hrun
      | some b =>
          simp only [Option.toList_some, run_cons, run_nil, h.seen hu hseen, Option.bind_some]
          exact ih hrun

/-- **Runs of two systems that look alike end alike**, if both are seen as the same system. -/
theorem Faithful.eq_of_trace_eq {σ₂ α₂ : Type*} {view₂ : View σ₂ α₂ τ β}
    {step₂ : σ₂ → α₂ → Option σ₂} {s₂ t₂ : σ₂} {as₂ : List α₂} (h : view.Faithful step step')
    (h₂ : view₂.Faithful step₂ step') (hrun : run step s as = some t)
    (hrun₂ : run step₂ s₂ as₂ = some t₂) (hinit : view.state s = view₂.state s₂)
    (htrace : view.trace step s as = view₂.trace step₂ s₂ as₂) : view.state t = view₂.state t₂ := by
  have hend := h.run_trace hrun
  rw [hinit, htrace, h₂.run_trace hrun₂] at hend
  exact (Option.some.inj hend).symm

end View

end SynGateway.Transition

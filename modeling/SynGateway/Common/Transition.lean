import Mathlib.Data.List.Infix
import Mathlib.Order.Basic

/-!
# Guarded runs of partial transition systems

A system is a partial step function `σ → α → Option σ`: `step s a` is the state after action `a`,
and `none` where `a` is not enabled in `s`. `run` executes a list of actions, `Reach` collects the
states that a guarded run can reach, and `Reach.invariant` is the induction rule every safety
theorem uses.

A guard `σ → α → Prop` restricts the runs that are considered: it reads the state *before* the step
and the action taken there. `Visits` and `Takes` name the states and the steps of one given run, so
that a property of a whole run can be compared with a condition on each of its steps
(`visits_forall_iff`).
-/

namespace SynGateway.Transition

variable {σ α : Type*}

/-- Execute a list of actions, failing at the first action that is not enabled. -/
def run (step : σ → α → Option σ) : σ → List α → Option σ
  | s, [] => some s
  | s, a :: as => (step s a).bind fun t => run step t as

variable {step : σ → α → Option σ} {guard : σ → α → Prop} {s₀ s t : σ} {a : α}

@[simp] theorem run_nil : run step s [] = some s := rfl

@[simp] theorem run_cons (as : List α) :
    run step s (a :: as) = (step s a).bind fun t => run step t as := rfl

/-- Running a concatenation is running its two parts one after the other. -/
theorem run_append (as bs : List α) :
    run step s (as ++ bs) = (run step s as).bind fun t => run step t bs := by
  induction as generalizing s with
  | nil => rfl
  | cons a as ih =>
      simp only [List.cons_append, run_cons]
      cases step s a with
      | none => rfl
      | some t => exact ih

/-- The states a run reaches from `s₀` when every step of it meets `guard` in the state before. -/
inductive Reach (step : σ → α → Option σ) (guard : σ → α → Prop) (s₀ : σ) : σ → Prop
  | init : Reach step guard s₀ s₀
  | next {s t : σ} {a : α} :
      Reach step guard s₀ s → guard s a → step s a = some t → Reach step guard s₀ t

/-- The guard that admits every step. -/
def free : σ → α → Prop := fun _ _ => True

instance free.decidable (s : σ) (a : α) : Decidable (free s a) := inferInstanceAs (Decidable True)

/-- A predicate that holds initially and is kept by every guarded step holds of every reachable
state. -/
theorem Reach.invariant {I : σ → Prop} (h : Reach step guard s₀ s) (hinit : I s₀)
    (hstep : ∀ s a t, I s → guard s a → step s a = some t → I t) : I s := by
  induction h with
  | init => exact hinit
  | next _ hg ht ih => exact hstep _ _ _ ih hg ht

/-- An invariant of the guarded runs may be added to their guard. -/
theorem Reach.strengthen {I : σ → Prop} (h : Reach step guard s₀ s)
    (hI : ∀ s, Reach step guard s₀ s → I s) : Reach step (fun s a => I s ∧ guard s a) s₀ s := by
  induction h with
  | init => exact .init
  | next hreach hg ht ih => exact ih.next ⟨hI _ hreach, hg⟩ ht

/-- A refinement mapping: if every step of one system is a step of another, or no step at all, in
the image under `f`, then `f` maps its reachable states to reachable states. -/
theorem Reach.project {τ β : Type*} {step' : τ → β → Option τ} {grd : τ → β → Prop} {u₀ u : τ}
    {f : τ → σ} (h : Reach step' grd u₀ u) (hinit : f u₀ = s₀)
    (hstep : ∀ u b v, grd u b → step' u b = some v →
      f v = f u ∨ ∃ a, guard (f u) a ∧ step (f u) a = some (f v)) : Reach step guard s₀ (f u) := by
  induction h with
  | init => exact hinit ▸ .init
  | next _ hg ht ih =>
      rcases hstep _ _ _ hg ht with heq | ⟨a, ha, hnext⟩
      · exact heq ▸ ih
      · exact ih.next ha hnext

/-- Every step of the run of `as` from `s` meets the guard, read along the run. -/
def Meets (step : σ → α → Option σ) (guard : σ → α → Prop) : σ → List α → Prop
  | _, [] => True
  | s, a :: as =>
    guard s a ∧ match step s a with
      | none => True
      | some t => Meets step guard t as

instance Meets.decidable [∀ s a, Decidable (guard s a)] :
    ∀ (s : σ) (as : List α), Decidable (Meets step guard s as)
  | _, [] => inferInstanceAs (Decidable True)
  | s, a :: as =>
    haveI : Decidable (match step s a with
        | none => True
        | some t => Meets step guard t as) :=
      match step s a with
      | none => inferInstanceAs (Decidable True)
      | some t => Meets.decidable t as
    inferInstanceAs (Decidable (_ ∧ _))

/-- Every run meets the guard that forbids nothing. -/
theorem meets_free (s : σ) (as : List α) : Meets step free s as := by
  induction as generalizing s with
  | nil => trivial
  | cons a as ih =>
      refine ⟨trivial, ?_⟩
      cases step s a with
      | none => trivial
      | some t => exact ih t

/-- A concrete run whose steps meet the guard gives a reachable state. -/
theorem Reach.of_run {as : List α} (h : Reach step guard s₀ s) (hrun : run step s as = some t)
    (hmeets : Meets step guard s as) : Reach step guard s₀ t := by
  induction as generalizing s with
  | nil => exact Option.some.inj hrun ▸ h
  | cons a as ih =>
      obtain ⟨hg, hrest⟩ := hmeets
      obtain ⟨u, hu, hrun⟩ := Option.bind_eq_some_iff.mp hrun
      rw [hu] at hrest
      exact ih (h.next hg hu) hrun hrest

/-- A concrete run evaluates to a reachable state with the property that was evaluated. -/
theorem Reach.exists_of_run (step : σ → α → Option σ) (guard : σ → α → Prop) (s₀ : σ) (as : List α)
    (P : σ → Prop) [DecidablePred P] (hrun : (run step s₀ as).any (fun s => decide (P s)) = true)
    (hmeets : Meets step guard s₀ as) : ∃ s, Reach step guard s₀ s ∧ P s := by
  obtain ⟨s, hs, hP⟩ := (Option.any_eq_true _ _).mp hrun
  exact ⟨s, Reach.init.of_run hs hmeets, of_decide_eq_true hP⟩

/-! ## The states and the steps of one run -/

/-- The run of `as` from `s₀` passes through `s`. -/
def Visits (step : σ → α → Option σ) (s₀ : σ) (as : List α) (s : σ) : Prop :=
  ∃ bs, bs <+: as ∧ run step s₀ bs = some s

/-- The run of `as` from `s₀` takes action `a` in state `s`. -/
def Takes (step : σ → α → Option σ) (s₀ : σ) (as : List α) (s : σ) (a : α) : Prop :=
  ∃ bs, bs ++ [a] <+: as ∧ run step s₀ bs = some s

/-- Every prefix of a run that succeeds succeeds. -/
theorem exists_run_of_prefix {as bs : List α} (hpre : bs <+: as) (hrun : run step s₀ as = some s) :
    ∃ t, run step s₀ bs = some t := by
  obtain ⟨cs, rfl⟩ := hpre
  rw [run_append] at hrun
  obtain ⟨t, ht, -⟩ := Option.bind_eq_some_iff.mp hrun
  exact ⟨t, ht⟩

/-- A run whose steps all meet the guard visits only states that are reachable under the guard. -/
theorem Visits.reach {as : List α} (h : Visits step s₀ as s)
    (hsteps : ∀ t a, Takes step s₀ as t a → guard t a) : Reach step guard s₀ s := by
  obtain ⟨bs, hpre, hrun⟩ := h
  induction bs using List.reverseRecOn generalizing s with
  | nil => exact Option.some.inj hrun ▸ .init
  | append_singleton bs a ih =>
      rw [run_append] at hrun
      obtain ⟨u, hu, hlast⟩ := Option.bind_eq_some_iff.mp hrun
      have hstep : step u a = some s := by simpa using hlast
      exact (ih ((List.prefix_append bs [a]).trans hpre) hu).next (hsteps u a ⟨bs, hpre, hu⟩) hstep

/-- The state before a step that is taken is visited. -/
theorem Takes.visits {as : List α} (h : Takes step s₀ as s a) : Visits step s₀ as s := by
  obtain ⟨bs, hpre, hrun⟩ := h
  exact ⟨bs, (List.prefix_append bs [a]).trans hpre, hrun⟩

/-- In a run that succeeds, a step that is taken leads to a state that is visited. -/
theorem Takes.exists_next {as : List α} {s' : σ} (h : Takes step s₀ as s a)
    (hrun : run step s₀ as = some s') :
    ∃ t, step s a = some t ∧ Visits step s₀ as t := by
  obtain ⟨bs, hpre, hbs⟩ := h
  obtain ⟨t, ht⟩ := exists_run_of_prefix hpre hrun
  exact ⟨t, by simpa [run_append, hbs] using ht, bs ++ [a], hpre, ht⟩

/-- All steps of a run have `Q` exactly when they all meet `guard`, once guarded steps have `Q` and
a step outside the guard, after guarded ones, has not. -/
theorem takes_forall_iff {Q : σ → α → Prop} {as : List α} {s' : σ} (hrun : run step s₀ as = some s')
    (hkeep : ∀ s a, Reach step guard s₀ s → guard s a → Q s a)
    (hbreak : ∀ s a t, Reach step guard s₀ s → ¬ guard s a → step s a = some t → ¬ Q s a) :
    (∀ s a, Takes step s₀ as s a → Q s a) ↔ ∀ s a, Takes step s₀ as s a → guard s a := by
  constructor
  · intro hall s a htakes
    obtain ⟨bs, hpre, hbs⟩ := htakes
    -- induction on the length of the prefix: all earlier steps already meet the guard
    induction hn : bs.length using Nat.strong_induction_on generalizing bs s a with
    | _ n ih =>
        by_contra hguard
        have hvisit : Visits step s₀ bs s := ⟨bs, List.prefix_refl bs, hbs⟩
        have hreach : Reach step guard s₀ s := by
          refine hvisit.reach ?_
          rintro t b ⟨cs, hcs, hcsrun⟩
          have hlen := hcs.length_le
          simp only [List.length_append, List.length_singleton] at hlen
          exact ih cs.length (by omega) t b cs
            (hcs.trans ((List.prefix_append bs [a]).trans hpre)) hcsrun rfl
        obtain ⟨t, hstep, -⟩ := Takes.exists_next ⟨bs, hpre, hbs⟩ hrun
        exact hbreak s a t hreach hguard hstep (hall s a ⟨bs, hpre, hbs⟩)
  · intro hsteps s a htakes
    exact hkeep s a (htakes.visits.reach hsteps) (hsteps s a htakes)

/-- A run keeps `P` in all its states exactly when all its steps meet `guard`, once guarded steps
keep `P` (through the invariant `I`) and a step outside the guard is enabled only where it breaks
`P`. -/
theorem visits_forall_iff {P : σ → Prop} {as : List α} {s' : σ} (hrun : run step s₀ as = some s')
    (hkeep : ∀ s, Reach step guard s₀ s → P s)
    (hbreak : ∀ s a t, Reach step guard s₀ s → ¬ guard s a → step s a = some t → ¬ P t) :
    (∀ s, Visits step s₀ as s → P s) ↔ ∀ s a, Takes step s₀ as s a → guard s a := by
  constructor
  · intro hall
    refine (takes_forall_iff (Q := fun s a => ∀ t, step s a = some t → P t) hrun
      (fun s a hs hg t ht => hkeep t (hs.next hg ht))
      (fun s a t hs hg ht hQ => hbreak s a t hs hg ht (hQ t ht))).mp ?_
    intro s a htakes t ht
    obtain ⟨u, hu, hvisit⟩ := htakes.exists_next hrun
    rw [ht] at hu
    exact Option.some.inj hu ▸ hall u hvisit
  · intro hsteps s hvisit
    exact hkeep s (hvisit.reach hsteps)

end SynGateway.Transition

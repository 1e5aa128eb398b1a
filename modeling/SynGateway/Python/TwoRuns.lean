import Mathlib.Tactic.SplitIfs
import SynGateway.Python.Exec

/-!
# Two runs

Two bodies side by side, to show that what one does is what the other does. `Alike` compares what
they end with: the same exception, or related results. `Exec.Agree` says that from related states
they end alike, in related states; it has a rule for each statement. `AlikeUpTo` and
`Exec.AgreeUpTo` are the same where the exceptions are related only, so that what differs between
them may be caught later.
-/

namespace SynGateway.Python

variable {ε α β γ δ : Type}

/-- The same exception, or results that are related by `A`. -/
inductive Alike (A : α → β → Prop) : Except ε α → Except ε β → Prop
  | ok {a : α} {b : β} (h : A a b) : Alike A (.ok a) (.ok b)
  | error (e : ε) : Alike A (.error e) (.error e)

namespace Alike

variable {A : α → β → Prop} {B : γ → δ → Prop}

theorem refl {A : α → α → Prop} (h : ∀ a, A a a) (x : Except ε α) : Alike A x x := by
  cases x with
  | error e => exact .error e
  | ok a => exact .ok (h a)

/-- Ends that are alike in every detail. -/
theorem eq {x y : Except ε α} (h : Alike Eq x y) : x = y := by
  cases h with
  | ok h => rw [h]
  | error e => rfl

/-- Two bodies in step, and what follows each of them. -/
theorem bind {x : Except ε α} {y : Except ε β} {f : α → Except ε γ} {g : β → Except ε δ}
    (hxy : Alike A x y) (hfg : ∀ a b, A a b → Alike B (f a) (g b)) :
    Alike B (x >>= f) (y >>= g) := by
  cases hxy with
  | ok hab => exact hfg _ _ hab
  | error e => exact .error e

end Alike

/-- Exceptions that are related by `E`, or results that are related by `A`. -/
inductive AlikeUpTo (E : ε → ε → Prop) (A : α → β → Prop) : Except ε α → Except ε β → Prop
  | ok {a : α} {b : β} (h : A a b) : AlikeUpTo E A (.ok a) (.ok b)
  | error {e e' : ε} (h : E e e') : AlikeUpTo E A (.error e) (.error e')

theorem Alike.upTo {E : ε → ε → Prop} [Std.Refl E] {A : α → β → Prop} {x : Except ε α}
    {y : Except ε β} (h : Alike A x y) : AlikeUpTo E A x y := by
  cases h with
  | ok h => exact .ok h
  | error e => exact .error (Std.Refl.refl e)

/-- Alike are bodies that raise equal exceptions. -/
theorem alike_iff {A : α → β → Prop} {x : Except ε α} {y : Except ε β} :
    Alike A x y ↔ AlikeUpTo Eq A x y := by
  constructor
  · exact Alike.upTo
  · intro h
    cases h with
    | ok h => exact .ok h
    | error h => exact h ▸ .error _

namespace Exec

variable {σ τ : Type} {R : σ → τ → Prop} {A : α → β → Prop} {B : γ → δ → Prop}

/-- From related states the two bodies end alike, in related states. -/
def Agree (R : σ → τ → Prop) (A : α → β → Prop) (x : Exec ε σ α) (y : Exec ε τ β) : Prop :=
  ∀ s t, R s t → Alike A (x.run s).1 (y.run t).1 ∧ R (x.run s).2 (y.run t).2

/-- From related states the two bodies end alike up to their exceptions, in related states. -/
def AgreeUpTo (E : ε → ε → Prop) (R : σ → τ → Prop) (A : α → β → Prop) (x : Exec ε σ α)
    (y : Exec ε τ β) : Prop :=
  ∀ s t, R s t → AlikeUpTo E A (x.run s).1 (y.run t).1 ∧ R (x.run s).2 (y.run t).2

/-- Agreement is agreement up to equal exceptions. -/
theorem agree_iff {x : Exec ε σ α} {y : Exec ε τ β} : Agree R A x y ↔ AgreeUpTo Eq R A x y :=
  forall₃_congr fun _ _ _ => and_congr_left fun _ => alike_iff

namespace AgreeUpTo

variable {E E' : ε → ε → Prop}

theorem raise {e e' : ε} (h : E e e') :
    AgreeUpTo E R A (Exec.raise e : Exec ε σ α) (Exec.raise e' : Exec ε τ β) :=
  fun _ _ hR => ⟨.error h, hR⟩

theorem pure {a : α} {b : β} (h : A a b) :
    AgreeUpTo E R A (Pure.pure a : Exec ε σ α) (Pure.pure b : Exec ε τ β) :=
  fun _ _ hR => ⟨.ok h, hR⟩

/-- Equal exceptions are related. -/
theorem of_agree [Std.Refl E] {x : Exec ε σ α} {y : Exec ε τ β} (h : Agree R A x y) :
    AgreeUpTo E R A x y := by
  intro s t hR
  obtain ⟨hends, hstates⟩ := h s t hR
  exact ⟨hends.upTo, hstates⟩

theorem bind {x : Exec ε σ α} {y : Exec ε τ β} {f : α → Exec ε σ γ} {g : β → Exec ε τ δ}
    (hxy : AgreeUpTo E R A x y) (hfg : ∀ a b, A a b → AgreeUpTo E R B (f a) (g b)) :
    AgreeUpTo E R B (x >>= f) (y >>= g) := by
  intro s t hR
  obtain ⟨hends, hstates⟩ := hxy s t hR
  rcases hx : x.run s with ⟨e | a, s'⟩ <;> rcases hy : y.run t with ⟨e' | b, t'⟩ <;>
    rw [hx, hy] at hends hstates
  · cases hends with
    | error h =>
        rw [run_bind_error hx, run_bind_error hy]
        exact ⟨.error h, hstates⟩
  · cases hends
  · cases hends
  · cases hends with
    | ok hab =>
        rw [run_bind_ok hx, run_bind_ok hy]
        exact hfg a b hab s' t' hstates

/-- Statements one after the other. -/
theorem seq {x : Exec ε σ Unit} {y : Exec ε τ Unit} {f : Unit → Exec ε σ γ} {g : Unit → Exec ε τ δ}
    (hxy : AgreeUpTo E R Eq x y) (hfg : AgreeUpTo E R B (f ()) (g ())) :
    AgreeUpTo E R B (x >>= f) (y >>= g) :=
  hxy.bind fun _ _ _ => hfg

/-- Handlers that agree on related exceptions. What they do not take has to be related more closely.
-/
theorem tryExcept {x : Exec ε σ α} {y : Exec ε τ β} {handler : ε → Option (Exec ε σ α)}
    {handler' : ε → Option (Exec ε τ β)} (hxy : AgreeUpTo E R A x y)
    (hhandler : ∀ e e', E e e' →
      Option.Rel (AgreeUpTo E' R A) (handler e) (handler' e') ∧ (handler e = none → E' e e')) :
    AgreeUpTo E' R A (Exec.tryExcept x handler) (Exec.tryExcept y handler') := by
  intro s t hR
  obtain ⟨hends, hstates⟩ := hxy s t hR
  rcases hx : x.run s with ⟨e | a, s'⟩ <;> rcases hy : y.run t with ⟨e' | b, t'⟩ <;>
    rw [hx, hy] at hends hstates
  · cases hends with
    | error h =>
        obtain ⟨hclauses, huncaught⟩ := hhandler e e' h
        -- one handler catches exactly when the other does
        cases hcatch : handler e <;> cases hcatch' : handler' e' <;>
          rw [hcatch, hcatch'] at hclauses <;>
          cases hclauses
        · rw [run_tryExcept_uncaught hx hcatch, run_tryExcept_uncaught hy hcatch']
          exact ⟨.error (huncaught hcatch), hstates⟩
        · next hclause =>
            rw [run_tryExcept_caught hx hcatch, run_tryExcept_caught hy hcatch']
            exact hclause s' t' hstates
  · cases hends
  · cases hends
  · cases hends with
    | ok hab =>
        rw [run_tryExcept_ok hx, run_tryExcept_ok hy]
        exact ⟨.ok hab, hstates⟩

/-- Both cleanups run. -/
theorem tryFinally {x : Exec ε σ α} {y : Exec ε τ β} {cleanup : Exec ε σ Unit}
    {cleanup' : Exec ε τ Unit} (hxy : AgreeUpTo E R A x y)
    (hclean : AgreeUpTo E R Eq cleanup cleanup') :
    AgreeUpTo E R A (Exec.tryFinally x cleanup) (Exec.tryFinally y cleanup') := by
  intro s t hR
  obtain ⟨hends, hstates⟩ := hxy s t hR
  rcases hx : x.run s with ⟨r, s₁⟩
  rcases hy : y.run t with ⟨r', t₁⟩
  rw [hx, hy] at hends hstates
  -- the cleanups run whichever way the bodies ended, and an exception of theirs replaces it
  obtain ⟨hclean, hstates⟩ := hclean _ _ hstates
  rcases hc : cleanup.run s₁ with ⟨e | _, s'⟩ <;>
    rcases hc' : cleanup'.run t₁ with ⟨e' | _, t'⟩ <;> rw [hc, hc'] at hclean hstates
  · cases hclean with
    | error h =>
        rw [run_tryFinally_error hx hc, run_tryFinally_error hy hc']
        exact ⟨.error h, hstates⟩
  · cases hclean
  · cases hclean
  · rw [run_tryFinally hx hc, run_tryFinally hy hc']
    exact ⟨hends, hstates⟩

theorem ite {p : Prop} [Decidable p] {x x' : Exec ε σ α} {y y' : Exec ε τ β}
    (hthen : AgreeUpTo E R A x y) (helse : AgreeUpTo E R A x' y') :
    AgreeUpTo E R A (if p then x else x') (if p then y else y') := by
  split_ifs
  · exact hthen
  · exact helse

end AgreeUpTo

namespace Agree

theorem pure {a : α} {b : β} (h : A a b) :
    Agree R A (Pure.pure a : Exec ε σ α) (Pure.pure b : Exec ε τ β) := fun _ _ hR => ⟨.ok h, hR⟩

theorem raise (e : ε) : Agree R A (Exec.raise e : Exec ε σ α) (Exec.raise e : Exec ε τ β) :=
  fun _ _ hR => ⟨.error e, hR⟩

/-- A body agrees with itself. -/
theorem refl (x : Exec ε σ α) : Agree Eq Eq x x := by
  rintro s _ rfl
  exact ⟨Alike.refl (fun _ => rfl) _, rfl⟩

theorem lift {x : Except ε α} {y : Except ε β} (h : Alike A x y) :
    Agree R A (Exec.lift x : Exec ε σ α) (Exec.lift y : Exec ε τ β) := fun _ _ hR => ⟨h, hR⟩

theorem get : Agree R R (Exec.get : Exec ε σ σ) (Exec.get : Exec ε τ τ) :=
  fun _ _ hR => ⟨.ok hR, hR⟩

theorem modify {f : σ → σ} {g : τ → τ} (h : ∀ s t, R s t → R (f s) (g t)) :
    Agree R Eq (Exec.modify f : Exec ε σ Unit) (Exec.modify g : Exec ε τ Unit) :=
  fun s t hR => ⟨.ok rfl, h s t hR⟩

theorem bind {x : Exec ε σ α} {y : Exec ε τ β} {f : α → Exec ε σ γ} {g : β → Exec ε τ δ}
    (hxy : Agree R A x y) (hfg : ∀ a b, A a b → Agree R B (f a) (g b)) :
    Agree R B (x >>= f) (y >>= g) :=
  agree_iff.mpr ((agree_iff.mp hxy).bind fun a b hab => agree_iff.mp (hfg a b hab))

/-- Statements one after the other. -/
theorem seq {x : Exec ε σ Unit} {y : Exec ε τ Unit} {f : Unit → Exec ε σ γ} {g : Unit → Exec ε τ δ}
    (hxy : Agree R Eq x y) (hfg : Agree R B (f ()) (g ())) : Agree R B (x >>= f) (y >>= g) :=
  hxy.bind fun _ _ _ => hfg

/-- Handlers that take the same exceptions and agree on them. -/
theorem tryExcept {x : Exec ε σ α} {y : Exec ε τ β} {handler : ε → Option (Exec ε σ α)}
    {handler' : ε → Option (Exec ε τ β)} (hxy : Agree R A x y)
    (hhandler : ∀ e, Option.Rel (Agree R A) (handler e) (handler' e)) :
    Agree R A (Exec.tryExcept x handler) (Exec.tryExcept y handler') := by
  refine agree_iff.mpr ((agree_iff.mp hxy).tryExcept fun e e' heq => ?_)
  subst heq
  refine ⟨?_, fun _ => rfl⟩
  have hclauses := hhandler e
  cases hcatch : handler e <;> cases hcatch' : handler' e <;> rw [hcatch, hcatch'] at hclauses <;>
    cases hclauses
  · exact .none
  · next hclause => exact .some (agree_iff.mp hclause)

theorem tryFinally {x : Exec ε σ α} {y : Exec ε τ β} {cleanup : Exec ε σ Unit}
    {cleanup' : Exec ε τ Unit} (hxy : Agree R A x y) (hclean : Agree R Eq cleanup cleanup') :
    Agree R A (Exec.tryFinally x cleanup) (Exec.tryFinally y cleanup') :=
  agree_iff.mpr ((agree_iff.mp hxy).tryFinally (agree_iff.mp hclean))

/-- Results that are converted. -/
theorem map {x : Exec ε σ α} {y : Exec ε τ β} {f : α → γ} {g : β → δ} (hxy : Agree R A x y)
    (hfg : ∀ a b, A a b → B (f a) (g b)) : Agree R B (f <$> x) (g <$> y) := by
  rw [map_eq_pure_bind, map_eq_pure_bind]
  exact hxy.bind fun a b hab => pure (hfg a b hab)

section Zoom

variable {ε' σ' τ' : Type} {R' : σ' → τ' → Prop} {part : σ → σ'} {update : σ' → σ → σ}
    {wrap : ε' → ε}

/-- Bodies on parts of the states. -/
theorem zoom {part' : τ → τ'} {update' : τ' → τ → τ} {x : Exec ε' σ' α} {y : Exec ε' τ' β}
    (hxy : Agree R' A x y) (hpart : ∀ s t, R s t → R' (part s) (part' t))
    (hupdate : ∀ s t u v, R s t → R' u v → R (update u s) (update' v t)) :
    Agree R A (Exec.zoom part update wrap x) (Exec.zoom part' update' wrap y) := by
  intro s t hR
  obtain ⟨hends, hstates⟩ := hxy _ _ (hpart s t hR)
  rcases hx : x.run (part s) with ⟨e | a, u⟩ <;> rcases hy : y.run (part' t) with ⟨e' | b, v⟩ <;>
    rw [hx, hy] at hends hstates
  · cases hends
    rw [run_zoom_error hx, run_zoom_error hy]
    exact ⟨.error _, hupdate s t u v hR hstates⟩
  · cases hends
  · cases hends
  · cases hends with
    | ok hab =>
        rw [run_zoom_ok hx, run_zoom_ok hy]
        exact ⟨.ok hab, hupdate s t u v hR hstates⟩

/-- A body on a part of the state does there what it does on its own. -/
theorem zoom_self {part : σ → τ} {update : τ → σ → σ} (x : Exec ε τ α)
    (hupdate : ∀ s t, part (update t s) = t) :
    Agree (fun s t => part s = t) Eq (Exec.zoom part update id x) x := by
  rintro s _ rfl
  rcases hx : x.run (part s) with ⟨e | a, t⟩
  · rw [run_zoom_error hx]
    exact ⟨.error e, hupdate s t⟩
  · rw [run_zoom_ok hx]
    exact ⟨.ok rfl, hupdate s t⟩

end Zoom

/-- A loop over items that are related by `P`. -/
theorem mapM {ι κ : Type} {P : ι → κ → Prop} {f : ι → Exec ε σ α} {g : κ → Exec ε τ β}
    {items : List ι} {items' : List κ} (hitems : List.Forall₂ P items items')
    (hfg : ∀ i j, P i j → Agree R A (f i) (g j)) :
    Agree R (List.Forall₂ A) (items.mapM f) (items'.mapM g) := by
  induction hitems with
  | nil => exact pure .nil
  | cons hhead htail ih =>
      rw [List.mapM_cons, List.mapM_cons]
      exact (hfg _ _ hhead).bind fun a b hab => ih.bind fun as bs hrest => pure (.cons hab hrest)

/-- A loop over the same items. -/
theorem mapM_same {ι : Type} {f : ι → Exec ε σ α} {g : ι → Exec ε τ α} (items : List ι)
    (hfg : ∀ i, Agree R Eq (f i) (g i)) : Agree R Eq (items.mapM f) (items.mapM g) := by
  have hloop : Agree R (List.Forall₂ Eq) (items.mapM f) (items.mapM g) :=
    mapM (P := Eq) (List.forall₂_same.mpr fun _ _ => rfl) fun i _ hij => hij ▸ hfg i
  rwa [List.forall₂_eq_eq_eq] at hloop

theorem ite {p : Prop} [Decidable p] {x x' : Exec ε σ α} {y y' : Exec ε τ β} (hthen : Agree R A x y)
    (helse : Agree R A x' y') : Agree R A (if p then x else x') (if p then y else y') := by
  split_ifs
  · exact hthen
  · exact helse

end Agree

end Exec

end SynGateway.Python

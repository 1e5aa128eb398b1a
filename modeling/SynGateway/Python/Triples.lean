import SynGateway.Python.Exec

/-!
# Triples

Hoare triples for bodies that may raise. `Ensures P x Q E` says what holds when `x` ends from a
state with `P`: `Q` with its result, or `E` with its exception. There is one rule for each
statement.
-/

namespace SynGateway.Python.Exec

variable {ε σ α β : Type} {P P' : σ → Prop} {Q Q' : α → σ → Prop} {E E' : ε → σ → Prop}
  {x : Exec ε σ α}

/-- From a state with `P`, the body ends with a result and a state in `Q`, or with an exception and
a state in `E`. -/
def Ensures (P : σ → Prop) (x : Exec ε σ α) (Q : α → σ → Prop) (E : ε → σ → Prop) : Prop :=
  ∀ s, P s →
    match x.run s with
    | (.ok a, t) => Q a t
    | (.error e, t) => E e t

namespace Ensures

theorem ok (h : Ensures P x Q E) {s t : σ} {a : α} (hs : P s) (hrun : x.run s = (.ok a, t)) :
    Q a t := by
  have hpost := h s hs
  rwa [hrun] at hpost

theorem error (h : Ensures P x Q E) {s t : σ} {e : ε} (hs : P s) (hrun : x.run s = (.error e, t)) :
    E e t := by
  have hpost := h s hs
  rwa [hrun] at hpost

/-- The body ends one way or the other. -/
theorem cases (h : Ensures P x Q E) {s : σ} (hs : P s) :
    (∃ a t, x.run s = (.ok a, t) ∧ Q a t) ∨ ∃ e t, x.run s = (.error e, t) ∧ E e t := by
  rcases hrun : x.run s with ⟨e | a, t⟩
  · exact .inr ⟨e, t, rfl, h.error hs hrun⟩
  · exact .inl ⟨a, t, rfl, h.ok hs hrun⟩

/-- The rule of consequence. -/
theorem mono (h : Ensures P' x Q' E') (hP : ∀ s, P s → P' s) (hQ : ∀ a s, Q' a s → Q a s)
    (hE : ∀ e s, E' e s → E e s) : Ensures P x Q E := by
  intro s hs
  rcases h.cases (hP s hs) with ⟨a, t, hrun, hpost⟩ | ⟨e, t, hrun, hpost⟩
  · rw [hrun]
    exact hQ a t hpost
  · rw [hrun]
    exact hE e t hpost

/-- A fact that does not depend on the state is kept. -/
theorem frame {p : Prop} (h : Ensures P x Q E) :
    Ensures (fun s => P s ∧ p) x (fun a s => Q a s ∧ p) fun e s => E e s ∧ p := by
  rintro s ⟨hs, hp⟩
  exact h.mono (fun _ hs => hs) (fun _ _ hpost => ⟨hpost, hp⟩) (fun _ _ hpost => ⟨hpost, hp⟩) s hs

theorem pure {a : α} (h : ∀ s, P s → Q a s) : Ensures P (Pure.pure a : Exec ε σ α) Q E := h

theorem raise {e : ε} (h : ∀ s, P s → E e s) : Ensures P (Exec.raise e : Exec ε σ α) Q E := h

theorem modify {g : σ → σ} {Q : Unit → σ → Prop} (h : ∀ s, P s → Q () (g s)) :
    Ensures P (Exec.modify g : Exec ε σ Unit) Q E := h

/-- A computation without state keeps what is known of it. -/
theorem lift {r : Except ε α} (hok : ∀ a s, r = .ok a → P s → Q a s)
    (herror : ∀ e s, r = .error e → P s → E e s) : Ensures P (Exec.lift r) Q E := by
  intro s hs
  cases r with
  | ok a => exact hok a s rfl hs
  | error e => exact herror e s rfl hs

theorem bind {f : α → Exec ε σ β} {R : β → σ → Prop} (hx : Ensures P x Q E)
    (hf : ∀ a, Ensures (Q a) (f a) R E) : Ensures P (x >>= f) R E := by
  intro s hs
  rcases hx.cases hs with ⟨a, t, hrun, hpost⟩ | ⟨e, t, hrun, hpost⟩
  · rw [run_bind_ok hrun]
    exact hf a t hpost
  · rw [run_bind_error hrun]
    exact hpost

/-- A read of the state, whose result is used later on. -/
theorem get_bind {f : σ → Exec ε σ β} {R : β → σ → Prop}
    (hf : ∀ s, P s → Ensures (· = s) (f s) R E) :
    Ensures P (Exec.get >>= f) R E := by
  intro s hs
  rw [run_get_bind]
  exact hf s hs s rfl

/-- A loop that keeps `P`, and whose passes relate items and results by `A`. -/
theorem mapM {A : α → β → Prop} {f : α → Exec ε σ β} {l : List α}
    (hf : ∀ a ∈ l, Ensures P (f a) (fun b s => P s ∧ A a b) E) :
    Ensures P (l.mapM f) (fun bs s => P s ∧ List.Forall₂ A l bs) E := by
  induction l with
  | nil => exact pure fun s hs => ⟨hs, .nil⟩
  | cons a l ih =>
      obtain ⟨ha, hl⟩ := List.forall_mem_cons.mp hf
      rw [List.mapM_cons]
      refine ha.bind fun b => ?_
      have hrest := (ih hl).frame (p := A a b)
      refine (hrest.mono (fun _ hs => hs) (fun _ _ hs => hs) fun _ _ hs => hs.1).bind fun bs => ?_
      exact pure fun s hs => ⟨hs.1.1, .cons hs.2 hs.1.2⟩

/-- A first body that promises more about its exceptions. -/
theorem bind_mono {f : α → Exec ε σ β} {R : β → σ → Prop} (hx : Ensures P x Q E')
    (hE : ∀ e s, E' e s → E e s) (hf : ∀ a, Ensures (Q a) (f a) R E) : Ensures P (x >>= f) R E :=
  (hx.mono (fun _ h => h) (fun _ _ h => h) hE).bind hf

/-- An exception goes to its clause, or past all of them. -/
theorem tryExcept {handler : ε → Option (Exec ε σ α)} (hx : Ensures P x Q E')
    (hcaught : ∀ e, ∀ clause ∈ handler e, Ensures (E' e) clause Q E)
    (huncaught : ∀ e s, handler e = none → E' e s → E e s) :
    Ensures P (Exec.tryExcept x handler) Q E := by
  intro s hs
  rcases hx.cases hs with ⟨a, t, hrun, hpost⟩ | ⟨e, t, hrun, hpost⟩
  · rw [run_tryExcept_ok hrun]
    exact hpost
  · cases hclause : handler e with
    | none =>
        rw [run_tryExcept_uncaught hrun hclause]
        exact huncaught e t hclause hpost
    | some clause =>
        rw [run_tryExcept_caught hrun hclause]
        exact hcaught e clause hclause t hpost

/-- A clean-up that runs through. -/
theorem tryFinally {cleanup : Exec ε σ Unit} (hx : Ensures P x Q' E')
    (hrun : ∀ s, (cleanup.run s).1 = .ok ()) (hQ : ∀ a s, Q' a s → Q a (cleanup.run s).2)
    (hE : ∀ e s, E' e s → E e (cleanup.run s).2) : Ensures P (Exec.tryFinally x cleanup) Q E := by
  intro s hs
  rcases hx.cases hs with ⟨a, t, hbody, hpost⟩ | ⟨e, t, hbody, hpost⟩
  · rw [run_tryFinally hbody (Prod.ext (hrun t) rfl)]
    exact hQ a t hpost
  · rw [run_tryFinally hbody (Prod.ext (hrun t) rfl)]
    exact hE e t hpost

/-- A result that is converted. -/
theorem map {f : α → β} {R : β → σ → Prop} (hx : Ensures P x Q E) (hf : ∀ a s, Q a s → R (f a) s) :
    Ensures P (f <$> x) R E := by
  rw [map_eq_pure_bind]
  exact hx.bind fun a => pure (hf a)

end Ensures

/-! ## Bodies that raise before they change anything -/

/-- Whatever the body raises, it has changed nothing. -/
def Atomic (x : Exec ε σ α) : Prop := ∀ s e t, x.run s = (.error e, t) → t = s

namespace Atomic

theorem raise (e : ε) : Atomic (Exec.raise e : Exec ε σ α) := fun _ _ _ h => (Prod.mk.inj h).2.symm

theorem bind {f : α → Exec ε σ β} (hx : Preserves id x) (hf : ∀ a, Atomic (f a)) :
    Atomic (x >>= f) := by
  intro s e t h
  rcases hrun : x.run s with ⟨e' | a, s'⟩
  · rw [run_bind_error hrun] at h
    obtain ⟨-, rfl⟩ := Prod.mk.inj h
    exact hx.ends hrun
  · rw [run_bind_ok hrun] at h
    rw [hf a s' e t h]
    exact hx.ends hrun

/-- A change that ends the body. -/
theorem modify_pure (g : σ → σ) (a : α) :
    Atomic (Exec.modify g >>= fun _ => Pure.pure a : Exec ε σ α) := by
  intro s e t h
  rw [run_modify_bind, run_pure] at h
  cases h

/-- It is enough to look at the runs that end with a result. -/
theorem ensures (h : Atomic x) (hok : ∀ s a t, P s → x.run s = (.ok a, t) → Q a t) :
    Ensures P x Q fun _ => P := by
  intro s hs
  rcases hrun : x.run s with ⟨e | a, t⟩
  · dsimp only
    rwa [h s e t hrun]
  · exact hok s a t hs hrun

end Atomic

end SynGateway.Python.Exec

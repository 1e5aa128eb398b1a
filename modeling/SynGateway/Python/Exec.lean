import Mathlib.Data.List.Forall2
import Mathlib.Order.Defs.Unbundled

/-!
# Exceptions and local state

The meaning of a function body that assigns local variables and may raise: from a state it ends with
a result or with an exception, and in either case in a new state. `tryExcept` and `tryFinally` are
the statements `try ... except` and `try ... finally`.

The rules come in three groups: how a body runs (`run_*`), what holds whichever way it ends
(`Moves`, with `Preserves` for what it leaves unchanged and `Grows` for a log), and what it changes
only if it runs through (`Commits`). For a body without state there are rules for what it returns
(`bind_eq_ok`) and for what it can raise (`RaisesOnly`).
-/

namespace SynGateway.Python

variable {ε σ α β γ : Type}

/-- A body with local state `σ` that raises `ε` or returns `α`. -/
def Exec (ε σ α : Type) : Type := σ → Except ε α × σ

namespace Exec

/-- What the body ends with from `s`, and the state it leaves. -/
def run (x : Exec ε σ α) (s : σ) : Except ε α × σ := x s

instance : Monad (Exec ε σ) where
  pure a := fun s => (.ok a, s)
  bind x f := fun s =>
    match x s with
    | (.ok a, s') => f a s'
    | (.error e, s') => (.error e, s')

instance : LawfulMonad (Exec ε σ) := LawfulMonad.mk' _
  (by
    intro α x
    funext s
    change (match x s with | (.ok a, s') => (.ok a, s') | (.error e, s') => (.error e, s')) = x s
    rcases x s with ⟨_ | _, _⟩ <;> rfl)
  (fun _ _ => rfl)
  (by
    intro α β γ x f g
    funext s
    change (match (match x s with | (.ok a, s') => f a s' | (.error e, s') => (.error e, s')) with
      | (.ok b, s') => g b s' | (.error e, s') => (.error e, s')) = match x s with
      | (.ok a, s') => _ | (.error e, s') => (.error e, s')
    rcases x s with ⟨_ | _, _⟩ <;> rfl)

def raise (e : ε) : Exec ε σ α := fun s => (.error e, s)

def get : Exec ε σ σ := fun s => (.ok s, s)

def modify (f : σ → σ) : Exec ε σ Unit := fun s => (.ok (), f s)

/-- `try: body except ...`. The handler is `none` on what no clause catches. -/
def tryExcept (body : Exec ε σ α) (handler : ε → Option (Exec ε σ α)) : Exec ε σ α := fun s =>
  match body s with
  | (.ok a, s') => (.ok a, s')
  | (.error e, s') =>
    match handler e with
    | none => (.error e, s')
    | some clause => clause s'

/-- `try: body finally: cleanup`. What the clean-up raises replaces what the body ended with. -/
def tryFinally (body : Exec ε σ α) (cleanup : Exec ε σ Unit) : Exec ε σ α := fun s =>
  match cleanup (body s).2 with
  | (.ok _, s') => ((body s).1, s')
  | (.error e, s') => (.error e, s')

/-- A computation without state. -/
def lift (x : Except ε α) : Exec ε σ α := fun s => (x, s)

/-- A body on a part of the state, whose exceptions become those of `wrap`. -/
def zoom {ε' τ : Type} (part : σ → τ) (update : τ → σ → σ) (wrap : ε' → ε) (x : Exec ε' τ α) :
    Exec ε σ α := fun s =>
  match x (part s) with
  | (.ok a, t) => (.ok a, update t s)
  | (.error e, t) => (.error (wrap e), update t s)

/-! ## How a body runs -/

section Run

variable {s s' : σ} {a : α} {e : ε} {x : Exec ε σ α} {f : α → Exec ε σ β}
  {handler : ε → Option (Exec ε σ α)} {cleanup : Exec ε σ Unit}

@[simp] theorem run_pure : (pure a : Exec ε σ α).run s = (.ok a, s) := rfl

@[simp] theorem run_raise : (raise e : Exec ε σ α).run s = (.error e, s) := rfl

@[simp] theorem run_modify {g : σ → σ} : (modify g : Exec ε σ Unit).run s = (.ok (), g s) := rfl

/-- The second body runs on the result of the first. -/
theorem run_bind_ok (h : x.run s = (.ok a, s')) : (x >>= f).run s = (f a).run s' := by
  change (match x.run s with | (.ok a, s') => f a s' | (.error e, s') => (.error e, s')) = _
  rw [h]
  rfl

/-- An exception skips the second body. -/
theorem run_bind_error (h : x.run s = (.error e, s')) : (x >>= f).run s = (.error e, s') := by
  change (match x.run s with | (.ok a, s') => f a s' | (.error e, s') => (.error e, s')) = _
  rw [h]

@[simp] theorem run_pure_bind {a : α} : (pure a >>= f).run s = (f a).run s := rfl

@[simp] theorem run_get_bind {f : σ → Exec ε σ β} : (get >>= f).run s = (f s).run s := rfl

@[simp] theorem run_modify_bind {g : σ → σ} {f : Unit → Exec ε σ β} :
    (modify g >>= f).run s = (f ()).run (g s) := rfl

/-- Nothing runs behind a `raise`. -/
@[simp] theorem raise_bind {f : α → Exec ε σ β} : (raise e : Exec ε σ α) >>= f = raise e := rfl

/-- A sequence runs through when both of its parts do. -/
theorem run_bind_eq_ok {b : β} {t : σ} :
    (x >>= f).run s = (.ok b, t) ↔ ∃ a u, x.run s = (.ok a, u) ∧ (f a).run u = (.ok b, t) := by
  rcases h : x.run s with ⟨e | a, u⟩
  · rw [run_bind_error h]
    simp
  · rw [run_bind_ok h]
    constructor
    · intro hf
      exact ⟨a, u, rfl, hf⟩
    · rintro ⟨_, _, heq, hf⟩
      cases heq
      exact hf

/-- A branch is run. -/
theorem run_ite {p : Prop} [Decidable p] {x y : Exec ε σ α} :
    (if p then x else y).run s = if p then x.run s else y.run s := by
  split <;> rfl

/-- The first branch is run. -/
theorem run_if_pos {p : Prop} [Decidable p] {x y : Exec ε σ α} (h : p) :
    (if p then x else y).run s = x.run s := by
  rw [if_pos h]

/-- The second branch is run. -/
theorem run_if_neg {p : Prop} [Decidable p] {x y : Exec ε σ α} (h : ¬ p) :
    (if p then x else y).run s = y.run s := by
  rw [if_neg h]

@[simp] theorem run_lift {x : Except ε α} : (lift x : Exec ε σ α).run s = (x, s) := rfl

/-- Behind a computation without state. -/
theorem run_lift_bind_eq_ok {x : Except ε α} {b : β} {t : σ} :
    (lift x >>= f).run s = (.ok b, t) ↔ ∃ a, x = .ok a ∧ (f a).run s = (.ok b, t) := by
  rw [run_bind_eq_ok, run_lift]
  simp

/-- A loop that only reads. -/
theorem run_mapM {f : α → Exec ε σ β} {g : α → β} (h : ∀ a, (f a).run s = (.ok (g a), s))
    (l : List α) :
    (l.mapM f).run s = (.ok (l.map g), s) := by
  induction l with
  | nil => rfl
  | cons a l ih => rw [List.mapM_cons, run_bind_ok (h a), run_bind_ok ih, List.map_cons, run_pure]

section Zoom

variable {ε' τ : Type} {part : σ → τ} {update : τ → σ → σ} {wrap : ε' → ε} {x : Exec ε' τ α} {t : τ}

/-- A body on a part of the state leaves the rest. -/
theorem run_zoom_ok (h : x.run (part s) = (.ok a, t)) :
    (zoom part update wrap x).run s = (.ok a, update t s) := by
  change (match x.run (part s) with | (.ok a, t) => _ | (.error e, t) => _) = _
  rw [h]

/-- So does one that raises. -/
theorem run_zoom_error {e : ε'} (h : x.run (part s) = (.error e, t)) :
    (zoom part update wrap x).run s = (.error (wrap e), update t s) := by
  change (match x.run (part s) with | (.ok a, t) => _ | (.error e, t) => _) = _
  rw [h]

/-- A body on a part of the state leaves the rest of it alone. -/
theorem run_zoom_state : ((zoom part update wrap x).run s).2 = update (x.run (part s)).2 s := by
  rcases h : x.run (part s) with ⟨_ | _, _⟩
  · rw [run_zoom_error h]
  · rw [run_zoom_ok h]

/-- A body on a part returns what it returns there. -/
theorem run_zoom_eq_ok :
    (zoom part update wrap x).run s = (.ok a, s') ↔ ∃ t, x.run (part s) = (.ok a, t) ∧
    s' = update t s := by
  rcases h : x.run (part s) with ⟨e | b, t⟩
  · rw [run_zoom_error h]
    simp
  · rw [run_zoom_ok h]
    constructor
    · intro heq
      obtain ⟨hres, rfl⟩ := Prod.mk.inj heq
      exact ⟨t, by rw [Except.ok.inj hres], rfl⟩
    · rintro ⟨u, heq, rfl⟩
      obtain ⟨hres, rfl⟩ := Prod.mk.inj heq
      rw [Except.ok.inj hres]

end Zoom

/-- A body that returns needs no clause. -/
theorem run_tryExcept_ok (h : x.run s = (.ok a, s')) :
    (tryExcept x handler).run s = (.ok a, s') := by
  change (match x.run s with | (.ok a, s') => _ | (.error e, s') => _) = _
  rw [h]

/-- The clause that catches runs in the state of the `raise`. -/
theorem run_tryExcept_caught {clause : Exec ε σ α} (h : x.run s = (.error e, s'))
    (hcatch : handler e = some clause) : (tryExcept x handler).run s = clause.run s' := by
  change (match x.run s with | (.ok a, s') => _ | (.error e, s') => _) = _
  rw [h]
  change (match handler e with | none => _ | some clause => clause s') = _
  rw [hcatch]
  rfl

/-- What no clause catches is raised. -/
theorem run_tryExcept_uncaught (h : x.run s = (.error e, s')) (hpass : handler e = none) :
    (tryExcept x handler).run s = (.error e, s') := by
  change (match x.run s with | (.ok a, s') => _ | (.error e, s') => _) = _
  rw [h]
  change (match handler e with | none => _ | some clause => clause s') = _
  rw [hpass]

/-- The state after a `finally` clause that ended is the clause's. -/
theorem run_tryFinally_state : ((tryFinally x cleanup).run s).2 = (cleanup.run (x.run s).2).2 := by
  change (match cleanup.run (x.run s).2 with
    | (.ok _, s') => ((x.run s).1, s') | (.error e, s') => (.error e, s')).2 = _
  rcases cleanup.run (x.run s).2 with ⟨_ | _, _⟩ <;> rfl

/-- A `finally` clause that raises nothing keeps what the body ended with. -/
theorem run_tryFinally {r : Except ε α} {t : σ} (h : x.run s = (r, s'))
    (hclean : cleanup.run s' = (.ok (), t)) : (tryFinally x cleanup).run s = (r, t) := by
  change (match cleanup.run (x.run s).2 with
    | (.ok _, s') => ((x.run s).1, s') | (.error e, s') => (.error e, s')) = _
  rw [h, hclean]

/-- What the `finally` clause raises replaces what the body ended with. -/
theorem run_tryFinally_error {r : Except ε α} {t : σ} (h : x.run s = (r, s'))
    (hclean : cleanup.run s' = (.error e, t)) :
    (tryFinally x cleanup).run s = (.error e, t) := by
  change (match cleanup.run (x.run s).2 with
    | (.ok _, s') => ((x.run s).1, s') | (.error e, s') => (.error e, s')) = _
  rw [h, hclean]

end Run

/-! ## What holds whichever way a body ends -/

/-- The state before the body and the state after it are related by `R`, whichever way it ends. -/
def Moves (R : σ → σ → Prop) (x : Exec ε σ α) : Prop := ∀ s, R s (x.run s).2

namespace Moves

variable {R : σ → σ → Prop} {x : Exec ε σ α}

/-- Where a run of the body ends. -/
theorem ends (h : Moves R x) {s t : σ} {r : Except ε α} (hrun : x.run s = (r, t)) : R s t := by
  have hs := h s
  rwa [hrun] at hs

/-- An assignment moves as its function does. -/
theorem modify {g : σ → σ} (h : ∀ s, R s (g s)) : Moves R (Exec.modify g : Exec ε σ Unit) := h

/-- A value moves nothing. -/
theorem pure [Std.Refl R] (a : α) : Moves R (Pure.pure a : Exec ε σ α) := Std.Refl.refl

/-- A `raise` moves nothing. -/
theorem raise [Std.Refl R] (e : ε) : Moves R (Exec.raise e : Exec ε σ α) := Std.Refl.refl

/-- Reading moves nothing. -/
theorem get [Std.Refl R] : Moves R (Exec.get : Exec ε σ σ) := Std.Refl.refl

/-- A pure computation moves nothing. -/
theorem lift [Std.Refl R] (x : Except ε α) : Moves R (Exec.lift x : Exec ε σ α) := Std.Refl.refl

/-- What follows the body may use what the body returned. -/
theorem bind_run [IsTrans σ R] {f : α → Exec ε σ β} (hx : Moves R x)
    (hf : ∀ s a t, x.run s = (.ok a, t) → R t ((f a).run t).2) : Moves R (x >>= f) := by
  intro s
  have hs := hx s
  rcases h : x.run s with ⟨_ | a, s'⟩
  · rw [run_bind_error h]
    rwa [h] at hs
  · rw [run_bind_ok h]
    rw [h] at hs
    exact Trans.trans hs (hf s a s' h)

/-- Two bodies move one after the other. -/
theorem bind [IsTrans σ R] {f : α → Exec ε σ β} (hx : Moves R x) (hf : ∀ a, Moves R (f a)) :
    Moves R (x >>= f) :=
  hx.bind_run fun _ a t _ => hf a t

/-- So do a body and the clause that catches. -/
theorem tryExcept [IsTrans σ R] {handler : ε → Option (Exec ε σ α)} (hx : Moves R x)
    (hhandler : ∀ e, ∀ clause ∈ handler e, Moves R clause) :
    Moves R (Exec.tryExcept x handler) := by
  intro s
  have hs := hx s
  rcases h : x.run s with ⟨e | a, s'⟩
  · rw [h] at hs
    cases hcatch : handler e with
    | none => rwa [run_tryExcept_uncaught h hcatch]
    | some clause =>
        rw [run_tryExcept_caught h hcatch]
        exact Trans.trans hs (hhandler e clause hcatch s')
  · rw [run_tryExcept_ok h]
    rwa [h] at hs

/-- So do a body and its cleanup. -/
theorem tryFinally [IsTrans σ R] {cleanup : Exec ε σ Unit} (hx : Moves R x)
    (hclean : Moves R cleanup) : Moves R (Exec.tryFinally x cleanup) := by
  intro s
  rw [run_tryFinally_state]
  exact Trans.trans (hx s) (hclean _)

end Moves

/-- The states look the same to `view`. -/
def Same (view : σ → γ) (s t : σ) : Prop := view t = view s

instance (view : σ → γ) : Std.Refl (Same view) := ⟨fun _ => rfl⟩

instance (view : σ → γ) : IsTrans σ (Same view) := ⟨fun _ _ _ hst htu => htu.trans hst⟩

/-- `view` of the state is the same after the body, whichever way it ends. -/
abbrev Preserves (view : σ → γ) (x : Exec ε σ α) : Prop := Moves (Same view) x

/-- The list grows at its end, by items with `p`. -/
def Grows (view : σ → List γ) (p : γ → Prop) (s t : σ) : Prop :=
  ∃ items, view t = view s ++ items ∧ ∀ item ∈ items, p item

instance (view : σ → List γ) (p : γ → Prop) : Std.Refl (Grows view p) :=
  ⟨fun _ => ⟨[], (List.append_nil _).symm, fun _ h => absurd h List.not_mem_nil⟩⟩

instance (view : σ → List γ) (p : γ → Prop) : IsTrans σ (Grows view p) := by
  refine ⟨?_⟩
  rintro s t u ⟨items, ht, hitems⟩ ⟨items', hu, hitems'⟩
  refine ⟨items ++ items', by rw [hu, ht, List.append_assoc], fun item hmem => ?_⟩
  rcases List.mem_append.mp hmem with hmem | hmem
  · exact hitems item hmem
  · exact hitems' item hmem

section Grows

variable {view : σ → List γ} {p : γ → Prop} {s t : σ}

/-- A list that stays as it is. -/
theorem Same.grows (h : Same view s t) : Grows view p s t :=
  ⟨[], h.trans (List.append_nil _).symm, fun _ hmem => absurd hmem List.not_mem_nil⟩

/-- What was there is still there. -/
theorem Grows.mem (h : Grows view p s t) {item : γ} (hmem : item ∈ view s) : item ∈ view t := by
  obtain ⟨items, heq, -⟩ := h
  rw [heq]
  exact List.mem_append_left _ hmem

/-- What is there was there, or is one of the items that may be added. -/
theorem Grows.mem_or (h : Grows view p s t) {item : γ} (hmem : item ∈ view t) :
    item ∈ view s ∨ p item := by
  obtain ⟨items, heq, hitems⟩ := h
  rw [heq] at hmem
  exact (List.mem_append.mp hmem).imp_right (hitems item)

/-- What the body has added is kept by what follows. -/
theorem Grows.mem_bind {x : Exec ε σ α} {f : α → Exec ε σ β} (hf : ∀ a, Moves (Grows view p) (f a))
    {item : γ} (h : item ∈ view (x.run s).2) : item ∈ view ((x >>= f).run s).2 := by
  rcases hrun : x.run s with ⟨_ | a, t⟩
  · rw [run_bind_error hrun]
    rwa [hrun] at h
  · rw [run_bind_ok hrun]
    rw [hrun] at h
    exact (hf a t).mem h

end Grows

/-- What follows the body leaves the view as the body left it. -/
theorem view_bind (view : σ → γ) {x : Exec ε σ α} {f : α → Exec ε σ β}
    (hf : ∀ a, Preserves view (f a)) (s : σ) :
    view ((x >>= f).run s).2 = view (x.run s).2 := by
  rcases h : x.run s with ⟨_ | a, s'⟩
  · rw [run_bind_error h]
  · rw [run_bind_ok h]
    exact hf a s'

/-- Handlers that leave the view alone leave it as the body left it. -/
theorem view_tryExcept (view : σ → γ) {x : Exec ε σ α} {handler : ε → Option (Exec ε σ α)}
    (hhandler : ∀ e, ∀ clause ∈ handler e, Preserves view clause) (s : σ) :
    view ((tryExcept x handler).run s).2 = view (x.run s).2 := by
  rcases h : x.run s with ⟨e | a, s'⟩
  · cases hcatch : handler e with
    | none => rw [run_tryExcept_uncaught h hcatch]
    | some clause =>
        rw [run_tryExcept_caught h hcatch]
        exact hhandler e clause hcatch s'
  · rw [run_tryExcept_ok h]

/-! ## What a body changes only if it runs through -/

/-- The body changes `view` by `change` when it runs through, and not at all when it raises. -/
def Commits (view : σ → γ) (change : γ → γ) (x : Exec ε σ α) : Prop := ∀ s,
  match (x.run s).1 with
  | .ok _ => view (x.run s).2 = change (view s)
  | .error _ => view (x.run s).2 = view s

namespace Commits

variable {view : σ → γ} {change : γ → γ} {x : Exec ε σ α}

/-- A `raise` needs no change: it does not return. -/
theorem raise (e : ε) : Commits view change (Exec.raise e : Exec ε σ α) := fun _ => rfl

/-- An assignment changes the view as its function does. -/
theorem modify {g : σ → σ} (h : ∀ s, view (g s) = change (view s)) :
    Commits view change (Exec.modify g : Exec ε σ Unit) := h

/-- What comes before the change must leave the view alone. -/
theorem bind {f : α → Exec ε σ β} (hx : Preserves view x) (hf : ∀ a, Commits view change (f a)) :
    Commits view change (x >>= f) := by
  intro s
  rcases h : x.run s with ⟨e | a, s'⟩
  · have hview := hx s
    rw [h] at hview
    rw [run_bind_error h]
    exact hview
  · have hview : view s' = view s := by rw [← hx s, h]
    rw [run_bind_ok h, ← hview]
    exact hf a s'

/-- A clean-up that runs through and leaves the view alone. -/
theorem tryFinally {cleanup : Exec ε σ Unit} (hx : Commits view change x)
    (hrun : ∀ s, (cleanup.run s).1 = .ok ()) (hclean : Preserves view cleanup) :
    Commits view change (Exec.tryFinally x cleanup) := by
  intro s
  rcases hbody : x.run s with ⟨r, s'⟩
  have hdone : cleanup.run s' = (.ok (), (cleanup.run s').2) := Prod.ext (hrun s') rfl
  have hs := hx s
  rw [hbody] at hs
  rw [run_tryFinally hbody hdone]
  dsimp only at hs ⊢
  rw [hclean s']
  exact hs

end Commits

end Exec

/-! ## Bodies without state -/

/-- A sequence returns when both of its parts do. -/
theorem bind_eq_ok {x : Except ε α} {f : α → Except ε β} {b : β} :
    (x >>= f) = .ok b ↔ ∃ a, x = .ok a ∧ f a = .ok b := by
  cases x with
  | error e =>
      constructor
      · intro h
        cases h
      · rintro ⟨_, h, -⟩
        cases h
  | ok a =>
      constructor
      · intro h
        exact ⟨a, rfl, h⟩
      · rintro ⟨_, h, hf⟩
        cases h
        exact hf

/-- A loop that returns has returned for each item. -/
theorem forall₂_of_mapM {f : α → Except ε β} {l : List α} {l' : List β} (h : l.mapM f = .ok l') :
    List.Forall₂ (fun a b => f a = .ok b) l l' := by
  induction l generalizing l' with
  | nil =>
      cases h
      exact .nil
  | cons a l ih =>
      rw [List.mapM_cons] at h
      obtain ⟨b, hb, h⟩ := bind_eq_ok.mp h
      obtain ⟨bs, hbs, h⟩ := bind_eq_ok.mp h
      cases h
      exact .cons hb (ih hbs)

/-- Translating the exceptions leaves the result alone. -/
theorem mapError_eq_ok {ε' : Type} {x : Except ε α} {f : ε → ε'} {a : α} :
    x.mapError f = .ok a ↔ x = .ok a := by
  cases x with
  | error e =>
      constructor <;> intro h <;> cases h
  | ok b =>
      change Except.ok b = Except.ok a ↔ _
      rw [Except.ok.injEq, Except.ok.injEq]

/-- What is raised, if anything is, is one of these exceptions. -/
def RaisesOnly (p : ε → Prop) (x : Except ε α) : Prop := ∀ e, x = .error e → p e

section RaisesOnly

variable {p : ε → Prop} {x : Except ε α} {f : α → Except ε β}

/-- A result is no exception. -/
theorem RaisesOnly.ok (a : α) : RaisesOnly p (.ok a : Except ε α) := nofun

/-- After a part that raises nothing else, it depends on what follows. -/
theorem raisesOnly_bind_iff (hx : RaisesOnly p x) :
    RaisesOnly p (x >>= f) ↔ ∀ a, x = .ok a → RaisesOnly p (f a) := by
  cases x with
  | error e =>
      refine iff_of_true ?_ nofun
      rintro _ ⟨⟩
      exact hx e rfl
  | ok a =>
      constructor
      · rintro h _ ⟨⟩
        exact h
      · exact fun h => h a rfl

/-- What two bodies raise is what one of them raises. -/
theorem RaisesOnly.bind (hx : RaisesOnly p x) (hf : ∀ a, RaisesOnly p (f a)) :
    RaisesOnly p (x >>= f) :=
  (raisesOnly_bind_iff hx).mpr fun a _ => hf a

/-- What is made of the result raises nothing. -/
theorem raisesOnly_bind_ok_iff {g : α → β} :
    RaisesOnly p (x >>= fun a => .ok (g a)) ↔ RaisesOnly p x := by
  cases x with
  | error e =>
      constructor <;> rintro h _ ⟨⟩
      · exact h e rfl
      · exact h e rfl
  | ok a => exact iff_of_true (.ok _) (.ok _)

/-- A loop raises what its body raises on an item. -/
theorem RaisesOnly.mapM {l : List α} (hf : ∀ a ∈ l, RaisesOnly p (f a)) :
    RaisesOnly p (l.mapM f) := by
  induction l with
  | nil => exact .ok _
  | cons a l ih =>
      obtain ⟨ha, hl⟩ := List.forall_mem_cons.mp hf
      rw [List.mapM_cons]
      exact ha.bind fun _ => (ih hl).bind fun _ => .ok _

end RaisesOnly

end SynGateway.Python

import Mathlib.Data.List.Nodup

/-!
# `asyncio.Semaphore`

The semaphore of Python's `asyncio`, with one atomic operation for each stretch of its code between
two suspensions. `acquire` either takes a free unit or appends a waiter; a suspended waiter ends by
`resume`, after `release` has set its future or `cancelTask` has cancelled it. Waiters are tagged
with the task that waits, of any type `ι`.

`locked` is true as soon as *some* waiter has not been cancelled, also when units are free: a waiter
whose future is set but whose task has not resumed still stands in the list. `release` wakes the
oldest waiter whose future is not done, and a woken waiter that is cancelled before it resumes puts
its unit back and passes it on.

The quantity every operation accounts for is `units`, the free units together with the ones handed
to woken waiters.
-/

namespace SynGateway.Asyncio

/-- The state of the future that a suspended `acquire` awaits. -/
inductive Fut
  | pending
  | done
  | cancelled
deriving DecidableEq, Repr

/-- An entry of the waiter list: the waiting task, its future, and whether the task was cancelled
after the future was set (the task then gets `CancelledError` when it resumes). -/
structure Waiter (ι : Type*) where
  task : ι
  fut : Fut := .pending
  mustCancel : Bool := false
deriving DecidableEq, Repr

/-- The fields `_value` and `_waiters`. -/
structure Semaphore (ι : Type*) where
  value : ℕ
  waiters : List (Waiter ι) := []
deriving DecidableEq, Repr

variable {ι : Type*}

/-- `task.cancel()` on a task suspended on this waiter: a pending future is cancelled, a set one is
left and the task is marked. -/
def Waiter.cancel (w : Waiter ι) : Waiter ι :=
  match w.fut with
  | .pending => { w with fut := .cancelled }
  | .done => { w with mustCancel := true }
  | .cancelled => w

/-- Set the first future of the list that is not done; `none` when there is no such future. -/
def wakeFirst : List (Waiter ι) → Option (List (Waiter ι))
  | [] => none
  | w :: ws =>
    if w.fut = .pending then some ({ w with fut := .done } :: ws)
    else (wakeFirst ws).map (w :: ·)

/-- `while self._value > 0: if not self._wake_up_next(): break`, as the recursion on the value. -/
def wakeLoop : ℕ → List (Waiter ι) → Semaphore ι
  | 0, ws => ⟨0, ws⟩
  | v + 1, ws =>
    match wakeFirst ws with
    | some ws' => wakeLoop v ws'
    | none => ⟨v + 1, ws⟩

namespace Semaphore

/-- `locked()`: no free unit, or some waiter that was not cancelled stands in the list. -/
def locked (s : Semaphore ι) : Bool :=
  s.value == 0 || s.waiters.any fun w => w.fut != .cancelled

/-- `_wake_up_next()`: hand a unit to the first waiter that is not done, if there is one. -/
def wakeUpNext (s : Semaphore ι) : Semaphore ι :=
  match wakeFirst s.waiters with
  | some ws => ⟨s.value - 1, ws⟩
  | none => s

/-- `release()`. -/
def release (s : Semaphore ι) : Semaphore ι :=
  { s with value := s.value + 1 }.wakeUpNext

/-- `acquire()` up to its first suspension: the flag says whether the unit was taken at once. -/
def acquire (s : Semaphore ι) (i : ι) : Semaphore ι × Bool :=
  if s.locked then ({ s with waiters := s.waiters ++ [{ task := i }] }, false)
  else ({ s with value := s.value - 1 }, true)

/-- `task.cancel()` on a task suspended in `acquire()`. -/
def cancelTask [DecidableEq ι] (s : Semaphore ι) (i : ι) : Semaphore ι :=
  { s with waiters := s.waiters.map fun w => if w.task = i then w.cancel else w }

/-- The suspended `acquire()` of task `i` resumes: it returns (`true`) or raises `CancelledError`
(`false`); `none` while its future is pending. On both ways out the waiter leaves the list and free
units are handed to those behind it. -/
def resume [DecidableEq ι] (s : Semaphore ι) (i : ι) : Option (Semaphore ι × Bool) :=
  match s.waiters.find? (·.task = i) with
  | none => none
  | some w =>
    let rest := s.waiters.eraseP (·.task = i)
    match w.fut, w.mustCancel with
    | .pending, _ => none
    | .cancelled, _ => some (wakeLoop s.value rest, false)
    | .done, true => some (wakeLoop (s.value + 1) rest, false)
    | .done, false => some (wakeLoop s.value rest, true)

/-- Waiters that hold a unit they have not yet resumed with. -/
def handed (s : Semaphore ι) : ℕ := s.waiters.countP (·.fut = .done)

/-- Waiters whose future is still pending. -/
def pending (s : Semaphore ι) : ℕ := s.waiters.countP (·.fut = .pending)

/-- Free units and units handed to woken waiters. -/
def units (s : Semaphore ι) : ℕ := s.value + s.handed

/-! ## Waking -/

/-- Waking turns one pending future into a set one and moves nobody. -/
theorem wakeFirst_spec {ws ws' : List (Waiter ι)} (h : wakeFirst ws = some ws') :
    ws'.countP (·.fut = .done) = ws.countP (·.fut = .done) + 1 ∧
      ws'.countP (·.fut = .pending) + 1 = ws.countP (·.fut = .pending) ∧
      ws'.map Waiter.task = ws.map Waiter.task := by
  induction ws generalizing ws' with
  | nil => simp [wakeFirst] at h
  | cons w ws ih =>
      rw [wakeFirst] at h
      split at h
      · next hw =>
          obtain rfl := Option.some.inj h
          simp [hw]
      · next hw =>
          obtain ⟨vs, hvs, rfl⟩ := Option.map_eq_some_iff.mp h
          obtain ⟨hdone, hpend, htask⟩ := ih hvs
          refine ⟨?_, ?_, by simp [htask]⟩
          · simp only [List.countP_cons, hdone]; omega
          · simp only [List.countP_cons]; omega

/-- Nobody is woken exactly when no future is pending. -/
theorem wakeFirst_eq_none {ws : List (Waiter ι)} :
    wakeFirst ws = none ↔ ws.countP (·.fut = .pending) = 0 := by
  induction ws with
  | nil => simp [wakeFirst]
  | cons w ws ih =>
      rw [wakeFirst]
      split
      · next hw => simp [hw]
      · next hw => simp [hw, ih]

/-- The loop hands out units and stops when no unit is free or nobody is left to wake. -/
theorem wakeLoop_spec (v : ℕ) (ws : List (Waiter ι)) :
    (wakeLoop v ws).units = v + ws.countP (·.fut = .done) ∧
      (wakeLoop v ws).handed + (wakeLoop v ws).pending
        = ws.countP (·.fut = .done) + ws.countP (·.fut = .pending) ∧
      ((wakeLoop v ws).value = 0 ∨ (wakeLoop v ws).pending = 0) ∧
      (wakeLoop v ws).waiters.map Waiter.task = ws.map Waiter.task := by
  induction v generalizing ws with
  | zero => simp [wakeLoop, units, handed, pending]
  | succ v ih =>
      rw [wakeLoop]
      split
      · next ws' hws =>
          obtain ⟨hdone, hpend, htask⟩ := wakeFirst_spec hws
          obtain ⟨hunits, hsum, hstop, hmap⟩ := ih ws'
          exact ⟨by omega, by omega, hstop, by rw [hmap, htask]⟩
      · next hws =>
          have hnone := wakeFirst_eq_none.mp hws
          refine ⟨by simp [units, handed], by simp [handed, pending], Or.inr ?_, rfl⟩
          simpa [pending] using hnone

/-! ## What each operation does to the units -/

/-- A unit can be taken at once exactly when one is free and every waiter was cancelled. -/
theorem locked_eq_false {s : Semaphore ι} :
    s.locked = false ↔ 0 < s.value ∧ ∀ w ∈ s.waiters, w.fut = .cancelled := by
  simp [locked, Nat.pos_iff_ne_zero]

/-- A locked semaphore has no free unit, or somebody who holds or awaits one. -/
theorem value_of_locked {s : Semaphore ι} (h : s.locked = true) :
    s.value = 0 ∨ 0 < s.handed + s.pending := by
  by_contra hnot
  have hzero : s.handed = 0 ∧ s.pending = 0 := by omega
  have hall : ∀ w ∈ s.waiters, w.fut = .cancelled := by
    intro w hw
    have hdone := List.countP_eq_zero.mp hzero.1 w hw
    have hpend := List.countP_eq_zero.mp hzero.2 w hw
    cases hfut : w.fut <;> simp_all
  have hfree := locked_eq_false.mpr ⟨by omega, hall⟩
  simp [hfree] at h

/-- An unlocked semaphore has nobody waiting who could still get a unit. -/
theorem no_waiters_of_not_locked {s : Semaphore ι} (h : s.locked = false) :
    s.handed = 0 ∧ s.pending = 0 := by
  have hall := (locked_eq_false.mp h).2
  constructor <;>
    · simp only [handed, pending, List.countP_eq_zero, decide_eq_true_eq]
      intro w hw
      simp [hall w hw]

/-- `release` adds one unit, free or handed over. -/
theorem units_release (s : Semaphore ι) : s.release.units = s.units + 1 := by
  simp only [release, wakeUpNext]
  split
  · next ws hws =>
      have hdone := (wakeFirst_spec hws).1
      simp only [units, handed, hdone]
      omega
  · simp only [units, handed]; omega

/-- `release` hands the unit to a pending waiter if there is one, and frees it otherwise. -/
theorem release_spec (s : Semaphore ι) :
    (s.pending = 0 → s.release = { s with value := s.value + 1 }) ∧
      (0 < s.pending → s.release.value = s.value ∧ s.release.handed = s.handed + 1 ∧
        s.release.pending + 1 = s.pending) := by
  simp only [release, wakeUpNext]
  split
  · next ws hws =>
      obtain ⟨hdone, hpend, -⟩ := wakeFirst_spec hws
      simp only at hdone hpend
      exact ⟨fun h => by simp only [pending] at h; omega, fun _ =>
        ⟨rfl, by simp only [handed, hdone], by simp only [pending, hpend]⟩⟩
  · next hws =>
      have hnone := wakeFirst_eq_none.mp hws
      exact ⟨fun _ => rfl, fun h => by simp only [pending] at h; omega⟩

/-- At a locked semaphore the task waits behind the others. -/
theorem acquire_of_locked {s : Semaphore ι} (h : s.locked = true) (i : ι) :
    s.acquire i = ({ s with waiters := s.waiters ++ [{ task := i }] }, false) := by
  simp [acquire, h]

/-- An open semaphore gives its unit at once. -/
theorem acquire_of_not_locked {s : Semaphore ι} (h : s.locked = false) (i : ι) :
    s.acquire i = ({ s with value := s.value - 1 }, true) := by
  simp [acquire, h]

/-- Cancelling a task neither frees nor takes a unit. -/
theorem cancelTask_spec [DecidableEq ι] (s : Semaphore ι) (i : ι) :
    (s.cancelTask i).value = s.value ∧ (s.cancelTask i).handed = s.handed ∧
      (s.cancelTask i).pending ≤ s.pending ∧
      (s.cancelTask i).waiters.map Waiter.task = s.waiters.map Waiter.task := by
  have hcancel : ∀ w : Waiter ι, (w.cancel.fut = .done ↔ w.fut = .done) ∧
      (w.cancel.fut = .pending → w.fut = .pending) ∧ w.cancel.task = w.task := by
    intro w
    cases hw : w.fut <;> simp [Waiter.cancel, hw]
  refine ⟨rfl, ?_, ?_, ?_⟩
  · simp only [cancelTask, handed, List.countP_map]
    refine List.countP_congr fun w _ => ?_
    by_cases hi : w.task = i <;> simp [hi, (hcancel w).1]
  · simp only [cancelTask, pending, List.countP_map]
    refine List.countP_mono_left fun w _ => ?_
    by_cases hi : w.task = i
    · simpa [hi] using (hcancel w).2.1
    · simp [hi]
  · simp only [cancelTask, List.map_map]
    refine List.map_congr_left fun w _ => ?_
    by_cases hi : w.task = i <;> simp [hi, (hcancel w).2.2]

/-- Removing the first waiter that satisfies `p` takes it out of every count. -/
theorem countP_eraseP_add {p q : Waiter ι → Bool} {ws : List (Waiter ι)} {w : Waiter ι}
    (h : ws.find? p = some w) :
    (ws.eraseP p).countP q + (if q w then 1 else 0) = ws.countP q := by
  induction ws with
  | nil => simp at h
  | cons v ws ih =>
      by_cases hp : p v
      · obtain rfl : v = w := by simpa [hp] using h
        simp [hp, List.countP_cons]
      · have hrec := ih (by simpa [hp] using h)
        rw [List.eraseP_cons_of_neg hp, List.countP_cons, List.countP_cons]
        omega

/-- A resumed `acquire` that returns takes one unit out of the semaphore; one that raises takes
none. Either way the woken waiters behind it have been served. -/
theorem resume_spec [DecidableEq ι] {s s' : Semaphore ι} {i : ι} {ok : Bool}
    (h : s.resume i = some (s', ok)) :
    s'.units + (if ok then 1 else 0) = s.units ∧
      (ok = true → s'.handed + s'.pending + 1 = s.handed + s.pending) ∧
      (s'.value = 0 ∨ s'.pending = 0) := by
  rw [resume] at h
  split at h
  · simp at h
  · next w hfind =>
      have hdone := countP_eraseP_add (q := (·.fut = .done)) hfind
      have hpend := countP_eraseP_add (q := (·.fut = .pending)) hfind
      obtain ⟨hunits, hsum, hstop, -⟩ := wakeLoop_spec s.value (s.waiters.eraseP (·.task = i))
      obtain ⟨hunits', hsum', hstop', -⟩ :=
        wakeLoop_spec (s.value + 1) (s.waiters.eraseP (·.task = i))
      have hs : s.units = s.value + s.waiters.countP (·.fut = .done) := rfl
      have hh : s.handed = s.waiters.countP (·.fut = .done) := rfl
      have hp : s.pending = s.waiters.countP (·.fut = .pending) := rfl
      cases hfut : w.fut <;> cases hcan : w.mustCancel <;>
        simp only [hfut, hcan, decide_true, decide_false, reduceCtorEq, Bool.false_eq_true,
          if_true, if_false, Option.some.injEq, Prod.mk.injEq] at h hdone hpend
      all_goals
        obtain ⟨rfl, rfl⟩ := h
        simp only [Bool.false_eq_true, if_true, if_false]
      -- the set future (resumed, then cancelled on the way), and the cancelled one
      · exact ⟨by omega, fun _ => by omega, hstop⟩
      · exact ⟨by omega, fun h => absurd h (by decide), hstop'⟩
      · exact ⟨by omega, fun h => absurd h (by decide), hstop⟩
      · exact ⟨by omega, fun h => absurd h (by decide), hstop⟩

/-- The task that resumes leaves the list, and nobody else does. -/
theorem resume_tasks [DecidableEq ι] {s s' : Semaphore ι} {i : ι} {ok : Bool}
    (h : s.resume i = some (s', ok)) :
    s'.waiters.map Waiter.task = (s.waiters.map Waiter.task).erase i := by
  have herase : (s.waiters.eraseP (·.task = i)).map Waiter.task
      = (s.waiters.map Waiter.task).erase i := by
    rw [List.erase_eq_eraseP', List.eraseP_map]
    rfl
  rw [resume] at h
  split at h
  · simp at h
  · next w hfind =>
      cases hfut : w.fut <;> cases hcan : w.mustCancel <;>
        simp only [hfut, hcan, reduceCtorEq, Option.some.injEq, Prod.mk.injEq] at h
      all_goals
        rw [← h.1, ← herase]
        exact (wakeLoop_spec _ _).2.2.2

/-- Waking and releasing leave every task in its place. -/
theorem release_tasks (s : Semaphore ι) :
    s.release.waiters.map Waiter.task = s.waiters.map Waiter.task := by
  simp only [release, wakeUpNext]
  split
  · next ws hws => exact (wakeFirst_spec hws).2.2
  · rfl

/-- A waiter whose future is set or cancelled can resume, when its task stands in the list once. -/
theorem resume_isSome [DecidableEq ι] {s : Semaphore ι} (hnodup : (s.waiters.map Waiter.task).Nodup)
    {w : Waiter ι} (hmem : w ∈ s.waiters) (hfut : w.fut ≠ .pending) :
    (s.resume w.task).isSome := by
  have hfind : s.waiters.find? (·.task = w.task) = some w := by
    cases hv : s.waiters.find? (·.task = w.task) with
    | none =>
        have hnone := List.find?_eq_none.mp hv w hmem
        simp at hnone
    | some v =>
        have htask : v.task = w.task := by simpa using List.find?_some hv
        rw [List.inj_on_of_nodup_map hnodup (List.mem_of_find?_eq_some hv) hmem htask]
  rw [resume, hfind]
  cases hw : w.fut <;> cases hcan : w.mustCancel <;> simp_all

/-! ## Semaphores without cancellations -/

/-- No waiter was cancelled, before or after its future was set. -/
def Uncancelled (s : Semaphore ι) : Prop :=
  ∀ w ∈ s.waiters, w.fut ≠ .cancelled ∧ w.mustCancel = false

/-- Waking a waiter cancels nobody. -/
theorem wakeFirst_uncancelled {ws ws' : List (Waiter ι)} (h : wakeFirst ws = some ws')
    (hall : ∀ w ∈ ws, w.fut ≠ .cancelled ∧ w.mustCancel = false) :
    ∀ w ∈ ws', w.fut ≠ .cancelled ∧ w.mustCancel = false := by
  induction ws generalizing ws' with
  | nil => simp [wakeFirst] at h
  | cons w ws ih =>
      obtain ⟨hw, hws⟩ := List.forall_mem_cons.mp hall
      rw [wakeFirst] at h
      split at h
      · obtain rfl := Option.some.inj h
        exact List.forall_mem_cons.mpr ⟨⟨by simp, hw.2⟩, hws⟩
      · obtain ⟨vs, hvs, rfl⟩ := Option.map_eq_some_iff.mp h
        exact List.forall_mem_cons.mpr ⟨hw, ih hvs hws⟩

/-- Waking as many waiters as there are units cancels nobody. -/
theorem wakeLoop_uncancelled (v : ℕ) (ws : List (Waiter ι))
    (hall : ∀ w ∈ ws, w.fut ≠ .cancelled ∧ w.mustCancel = false) :
    (wakeLoop v ws).Uncancelled := by
  induction v generalizing ws with
  | zero => exact hall
  | succ v ih =>
      rw [wakeLoop]
      split
      · next ws' hws => exact ih ws' (wakeFirst_uncancelled hws hall)
      · exact hall

/-- `release` cancels nobody. -/
theorem Uncancelled.release {s : Semaphore ι} (h : s.Uncancelled) : s.release.Uncancelled := by
  simp only [Semaphore.release, wakeUpNext]
  split
  · next ws hws => exact wakeFirst_uncancelled hws h
  · exact h

/-- A new waiter is not cancelled. -/
theorem Uncancelled.append {s : Semaphore ι} (h : s.Uncancelled) (i : ι) :
    ({ s with waiters := s.waiters ++ [{ task := i }] } : Semaphore ι).Uncancelled := by
  intro w hw
  rcases List.mem_append.mp hw with hw | hw
  · exact h w hw
  · obtain rfl := List.mem_singleton.mp hw
    exact ⟨by simp, rfl⟩

/-- Without cancellations a suspended `acquire` resumes by returning. -/
theorem Uncancelled.resume [DecidableEq ι] {s s' : Semaphore ι} {i : ι} {ok : Bool}
    (h : s.Uncancelled) (hres : s.resume i = some (s', ok)) : s'.Uncancelled ∧ ok = true := by
  rw [Semaphore.resume] at hres
  split at hres
  · simp at hres
  · next w hfind =>
      obtain ⟨hfut, hcan⟩ := h w (List.mem_of_find?_eq_some hfind)
      cases hw : w.fut <;> simp [hw, hcan] at hres hfut
      obtain ⟨rfl, rfl⟩ := hres
      exact ⟨wakeLoop_uncancelled _ _ fun v hv => h v (List.mem_of_mem_eraseP hv), rfl⟩

end Semaphore

end SynGateway.Asyncio

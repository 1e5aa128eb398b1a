import SynGateway.Core.Admission.Queues

/-!
# Slots on their way to granted waiters

`_release()` pops the oldest waiter, frees a unit of the semaphore and leaves. Until the waiter's
task resumes the unit is free for anybody, and the waiter stands in no queue: an arrival sees
neither `locked()` nor a non-empty `_queue` and takes the fast path. If it takes the unit that the
waiter was granted, the waiter blocks a second time, on the semaphore, where no timer runs, no bound
holds and no order is kept.

`Covered` says that this has not happened. The newcomer on the fast path is the only step that can
break it: every run in which the fast path leaves a unit for each claim stays covered
(`Reachable.covered`).
-/

namespace SynGateway.Core.Admission

open SynGateway.Asyncio SynGateway.Transition SynGateway.Counting

/-- A notion of claim to a free unit: a waiter that is bound to take its slot has one, only granted
waiters have one, and an interruption gives nobody a claim it did not have. -/
structure IsClaim (p : Task → Bool) : Prop where
  of_due : ∀ task, task.isDue = true → p task = true
  granted : ∀ task, p task = true → task.isGranted = true
  of_interrupt : ∀ e i j, j ≠ .none → p (.queueWait e j) = true → p (.queueWait e i) = true

/-- A newcomer takes the fast path only when more units are free than are claimed. -/
def LeavesUnits (p : Task → Bool) (s : State) : Action → Prop
  | .arrive => s.sem.locked = false → s.queue = [] → s.tasks.countP p < s.sem.value
  | _ => True

/-- Every claim has a free unit, and nobody waits on the semaphore. -/
structure Covered (p : Task → Bool) (s : State) : Prop where
  claims_le : s.tasks.countP p ≤ s.sem.value
  waiters : s.sem.waiters = []

variable {cfg : Config} {s t : State} {a : Action} {r : ReqId} {p : Task → Bool}

instance LeavesUnits.decidable (p : Task → Bool) (s : State) :
    (a : Action) → Decidable (LeavesUnits p s a)
  | .arrive => inferInstanceAs (Decidable (_ → _ → _))
  | .timer _ | .cancel _ | .resume _ | .finish _ => inferInstanceAs (Decidable True)

/-- The waiters that will take their slot. -/
theorem isClaim_isDue : IsClaim Task.isDue where
  of_due _ h := h
  granted task h := by
    cases task with
    | queueWait e i => cases i <;> simp_all
    | semWait | body | ended => simp at h
  of_interrupt e i j hj h := by cases j <;> simp_all

/-- All granted waiters, also those that an interruption will make leave without their slot. -/
theorem isClaim_isGranted : IsClaim Task.isGranted where
  of_due task h := isClaim_isDue.granted task h
  granted _ h := h
  of_interrupt _ _ _ _ h := h

namespace IsClaim

/-- A task without a grant claims nothing. -/
theorem eq_false (hp : IsClaim p) {task : Task} (h : task.isGranted = false) : p task = false := by
  rw [← Bool.not_eq_true]
  intro hclaim
  rw [hp.granted task hclaim] at h
  exact absurd h (by simp)

/-- A new task claims nothing. -/
theorem countP_push (hp : IsClaim p) {tasks : List Task} {new : Task} (h : new.isGranted = false) :
    (tasks ++ [new]).countP p = tasks.countP p := by
  simp [hp.eq_false h]

/-- A task that is not granted adds no claim. -/
theorem countP_set (hp : IsClaim p) {tasks : List Task} {old new : Task}
    (htask : tasks[r]? = some old) (h : new.isGranted = false) :
    (tasks.set r new).countP p ≤ tasks.countP p := by
  apply countP_set_le htask
  intro hclaim
  rw [hp.eq_false h] at hclaim
  exact absurd hclaim (by simp)

end IsClaim

/-- A step of the waiting tasks alone that adds no claim. -/
theorem Covered.idle (h : Covered p s) (hsem : t.sem = s.sem)
    (hle : t.tasks.countP p ≤ s.tasks.countP p) : Covered p t where
  claims_le := by
    rw [hsem]
    exact hle.trans h.claims_le
  waiters := by rw [hsem, h.waiters]

/-- `_release()` frees the unit for the claim it makes. -/
theorem Covered.release (h : Covered p s) (hpos : 0 < s.active) : Covered p s.release := by
  have hle := h.claims_le
  have hsem : s.sem.release = ⟨s.sem.value + 1, []⟩ := by
    rw [(Semaphore.release_spec s.sem).1 (by simp [Semaphore.pending, h.waiters]), h.waiters]
  -- one grant is one claim more at most
  have hgrant : ∀ n (u : State), (u.grant n).tasks.countP p ≤ u.tasks.countP p + 1 := by
    intro n u
    rcases State.grant_cases u n with ⟨e, i, htask, heq⟩ | ⟨-, heq⟩
    · rw [heq]
      exact countP_set_le_succ htask _
    · rw [heq]
      exact Nat.le_succ _
  rcases State.release_cases hpos with ⟨-, heq⟩ | ⟨next, rest, -, heq⟩
  · rw [heq, hsem]
    refine ⟨?_, rfl⟩
    show s.tasks.countP p ≤ s.sem.value + 1
    omega
  · rw [heq, hsem]
    refine ⟨?_, rfl⟩
    -- the claim is covered by the unit that was given back
    have hone := hgrant next { s with queue := rest }
    show (State.grant { s with queue := rest } next).tasks.countP p ≤ s.sem.value + 1
    exact hone.trans (Nat.succ_le_succ hle)

/-- In a covered state nobody waits on the semaphore. -/
theorem Covered.ne_semWait (h : Covered p s) (hqueues : QueuesOk s) :
    s.tasks[r]? ≠ some .semWait := by
  rw [Ne, ← hqueues.waiters.task_eq r, State.waiting, h.waiters]
  simp

/-- A waiter bound to take its slot finds the semaphore unlocked. -/
theorem Covered.not_locked (h : Covered p s) (hp : IsClaim p) {e : QueueEntry}
    (htask : s.tasks[r]? = some (.queueWait e .none)) (hset : e.granted = true) :
    s.sem.locked = false := by
  have hclaim : p (.queueWait e .none) = true := hp.of_due _ hset
  have hpos : 0 < s.tasks.countP p :=
    List.countP_pos_iff.mpr ⟨_, List.mem_of_getElem? htask, hclaim⟩
  have hle := h.claims_le
  exact Semaphore.locked_eq_false.mpr ⟨by omega, by simp [h.waiters]⟩

/-- A step that leaves a unit for every claim keeps the claims covered. -/
theorem Covered.move (h : Covered p s) (hp : IsClaim p) (hslots : Slots cfg s)
    (hqueues : QueuesOk s) (hguard : LeavesUnits p s a) (hmove : Move cfg s a t) : Covered p t := by
  cases hmove with
  | reject => exact h.idle rfl (hp.countP_push rfl).le
  | enqueue => exact h.idle rfl (hp.countP_push rfl).le
  | fast hfree hempty =>
      have hmore := hguard hfree hempty
      refine ⟨?_, h.waiters⟩
      show (s.tasks ++ [Task.body]).countP p ≤ s.sem.value - 1
      rw [hp.countP_push rfl]
      omega
  | timer htask => exact h.idle rfl (countP_set_le htask (hp.of_interrupt _ _ _ (by simp)))
  | cancelIgnored => exact h
  | cancelQueue htask => exact h.idle rfl (countP_set_le htask (hp.of_interrupt _ _ _ (by simp)))
  -- Nobody waits on the semaphore while the claims are covered.
  | cancelSem htask => exact absurd htask (h.ne_semWait hqueues)
  | @leave r _ how htask ha =>
      have hset : Covered p (s.setTask r (.ended how)) :=
        h.idle rfl (hp.countP_set htask rfl)
      exact hset.release (hslots.active_pos_of_body htask)
  | resumeCancelled htask => exact h.idle rfl (hp.countP_set htask rfl)
  | resumeTimeout htask => exact h.idle rfl (hp.countP_set htask rfl)
  | @resumeEnter r e htask hset hfree =>
      have hloss : (s.tasks.set r .body).countP p + 1 = s.tasks.countP p :=
        countP_set_of_loss htask (hp.of_due _ hset) (hp.eq_false rfl)
      have hle := h.claims_le
      refine ⟨?_, h.waiters⟩
      show (s.tasks.set r .body).countP p ≤ s.sem.value - 1
      omega
  | resumeBlock htask hset hlocked =>
      rw [h.not_locked hp htask hset] at hlocked
      simp at hlocked
  | semEnter htask => exact absurd htask (h.ne_semWait hqueues)
  | semCancelled htask => exact absurd htask (h.ne_semWait hqueues)

/-- Runs whose newcomers leave the claimed units alone are covered in all their states. -/
theorem Reachable.covered {guard : State → Action → Prop} (h : Reachable cfg guard s)
    (hp : IsClaim p) (hleaves : ∀ s a, guard s a → LeavesUnits p s a) : Covered p s := by
  have hall := Reach.invariant (I := fun s => Covered p s ∧ Slots cfg s ∧ QueuesOk s) h
    ⟨⟨by simp [init], rfl⟩, Slots.init cfg, QueuesOk.init cfg⟩
    fun s a _ ⟨hc, hs, hq⟩ hguard hstep =>
      have hmove := move_of_step hstep
      ⟨hc.move hp hs hq (hleaves s a hguard) hmove, hs.move hmove, hq.move hs hmove⟩
  exact hall.1

end SynGateway.Core.Admission

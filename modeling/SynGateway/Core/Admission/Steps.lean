import SynGateway.Common.Counting
import SynGateway.Core.Admission.Defs

/-!
# What one step of the admission controller can do

`move_of_step` inverts the step function once: `Move cfg s a t` lists the fourteen ways in which an
action changes the controller, each with its guard and its post-state. The invariants of the later
modules are case analyses over `Move` and never unfold `step`.

The second half says what the building blocks of these post-states do to the counts of the tasks.
-/

namespace SynGateway.Core.Admission

open SynGateway.Asyncio SynGateway.Transition SynGateway.Counting

/-- The possible effects of one action. -/
inductive Move (cfg : Config) (s : State) : Action → State → Prop
  /-- `QueueFullError`. -/
  | reject (hbusy : s.sem.locked = true ∨ s.queue ≠ []) (hfull : cfg.maxQueue ≤ s.queue.length) :
      Move cfg s .arrive (s.push (.ended .queueFull))
  | enqueue (hbusy : s.sem.locked = true ∨ s.queue ≠ []) (hroom : s.queue.length < cfg.maxQueue) :
      Move cfg s .arrive
        { s.push (.queueWait {} .none) with queue := s.queue ++ [s.tasks.length] }
  /-- The fast path: the slot is taken without waiting. -/
  | fast (hfree : s.sem.locked = false) (hempty : s.queue = []) :
      Move cfg s .arrive
        ((State.push { s with sem := { s.sem with value := s.sem.value - 1 } } .body).enter
          s.tasks.length)
  | timer {r : ReqId} {e : QueueEntry} (htask : s.tasks[r]? = some (.queueWait e .none))
      (hset : e.event = true → cfg.interruptsSetEvent = true) :
      Move cfg s (.timer r) (s.setTask r (.queueWait e .timeout))
  | cancelIgnored {r : ReqId} {e : QueueEntry} (htask : s.tasks[r]? = some (.queueWait e .none))
      (hset : e.event = true) (hcfg : cfg.interruptsSetEvent = false) :
      Move cfg s (.cancel r) s
  | cancelQueue {r : ReqId} {e : QueueEntry} {i : Interrupt}
      (htask : s.tasks[r]? = some (.queueWait e i)) :
      Move cfg s (.cancel r) (s.setTask r (.queueWait e .cancel))
  | cancelSem {r : ReqId} (htask : s.tasks[r]? = some .semWait) :
      Move cfg s (.cancel r) { s with sem := s.sem.cancelTask r }
  /-- The body ends, by itself or cancelled, and `_release()` runs. -/
  | leave {r : ReqId} {a : Action} {how : Ended} (htask : s.tasks[r]? = some .body)
      (ha : a = .finish r ∧ how = .finished ∨ a = .cancel r ∧ how = .cancelled) :
      Move cfg s a (s.setTask r (.ended how)).release
  /-- `CancelledError` out of the wait on the queue event. -/
  | resumeCancelled {r : ReqId} {e : QueueEntry}
      (htask : s.tasks[r]? = some (.queueWait e .cancel)) :
      Move cfg s (.resume r) (s.setTask r (.ended .cancelled))
  /-- `QueueTimeoutError`. -/
  | resumeTimeout {r : ReqId} {e : QueueEntry}
      (htask : s.tasks[r]? = some (.queueWait e .timeout)) :
      Move cfg s (.resume r)
        { s.setTask r (.ended .queueTimeout) with queue := s.queue.erase r }
  /-- A granted waiter takes its slot. -/
  | resumeEnter {r : ReqId} {e : QueueEntry} (htask : s.tasks[r]? = some (.queueWait e .none))
      (hset : e.granted = true) (hfree : s.sem.locked = false) :
      Move cfg s (.resume r)
        ((State.setTask { s with sem := { s.sem with value := s.sem.value - 1 } } r .body).enter r)
  /-- A granted waiter finds the semaphore locked and waits a second time. -/
  | resumeBlock {r : ReqId} {e : QueueEntry} (htask : s.tasks[r]? = some (.queueWait e .none))
      (hset : e.granted = true) (hlocked : s.sem.locked = true) :
      Move cfg s (.resume r)
        (State.setTask
            { s with sem := { s.sem with waiters := s.sem.waiters ++ [{ task := r }] } } r
          .semWait)
  | semEnter {r : ReqId} {sem : Semaphore ReqId} (htask : s.tasks[r]? = some .semWait)
      (hres : s.sem.resume r = some (sem, true)) :
      Move cfg s (.resume r) ((State.setTask { s with sem } r .body).enter r)
  | semCancelled {r : ReqId} {sem : Semaphore ReqId} (htask : s.tasks[r]? = some .semWait)
      (hres : s.sem.resume r = some (sem, false)) :
      Move cfg s (.resume r) (State.setTask { s with sem } r (.ended .cancelled))

variable {cfg : Config} {s t : State} {a : Action}

/-! ## Inversion of the step function -/

/-- An arrival. -/
private theorem move_of_arrive : Move cfg s .arrive (acquireStart cfg s) := by
  rw [acquireStart]
  by_cases hfree : s.sem.locked = false ∧ s.queue = []
  · obtain ⟨hlock, hempty⟩ := hfree
    have hfirst : (s.sem.locked || !s.queue.isEmpty) = false := by simp [hlock, hempty]
    simp only [hfirst, Bool.false_eq_true, if_false, State.semAcquire,
      Semaphore.acquire_of_not_locked hlock]
    exact .fast hlock hempty
  · have hbusy : s.sem.locked = true ∨ s.queue ≠ [] := by
      by_cases hlock : s.sem.locked = true
      · exact .inl hlock
      · exact .inr fun hempty => hfree ⟨by simpa using hlock, hempty⟩
    have hfirst : (s.sem.locked || !s.queue.isEmpty) = true := by
      rcases hbusy with h | h <;> simp [h]
    have hsecond : (!s.sem.locked && s.queue.isEmpty) = false := by
      rcases hbusy with h | h <;> simp [h]
    simp only [hfirst, hsecond, if_true, Bool.false_eq_true, if_false]
    split
    · next hfull => exact .reject hbusy hfull
    · next hroom => exact .enqueue hbusy (by omega)

/-- The timer of a waiting request. -/
private theorem move_of_timer {r : ReqId} (h : timer cfg s r = some t) :
    Move cfg s (.timer r) t := by
  rw [timer] at h
  split at h
  · next e htask =>
      split at h
      · simp at h
      · next hset =>
          obtain rfl := Option.some.inj h
          exact .timer htask fun he => by simpa [he] using hset
  · simp at h

/-- The cancellation of a waiting request. -/
private theorem move_of_cancel {r : ReqId} (h : cancel cfg s r = some t) :
    Move cfg s (.cancel r) t := by
  rw [cancel] at h
  split at h
  · next e i htask =>
      split at h
      · next hignored =>
          obtain ⟨rfl, he, hcfg⟩ := hignored
          obtain rfl := Option.some.inj h
          exact .cancelIgnored htask he (by simpa using hcfg)
      · obtain rfl := Option.some.inj h
        exact .cancelQueue htask
  · next htask =>
      obtain rfl := Option.some.inj h
      exact .cancelSem htask
  · next htask =>
      obtain rfl := Option.some.inj h
      exact .leave htask (.inr ⟨rfl, rfl⟩)
  · simp at h

/-- A task goes on after its wait. -/
private theorem move_of_resume {r : ReqId} (h : resume s r = some t) :
    Move cfg s (.resume r) t := by
  rw [resume] at h
  split at h
  · next e htask =>
      split at h
      · next hevent =>
          have hset : e.granted = true := e.granted_eq_event.trans hevent
          simp only [hset, Bool.not_true, Bool.false_eq_true, if_false, Option.some.injEq] at h
          subst h
          rw [State.semAcquire]
          -- the task goes on to `sem.acquire()`, which lets it through or makes it wait
          by_cases hlock : s.sem.locked = true
          · rw [Semaphore.acquire_of_locked hlock]
            exact .resumeBlock htask hset hlock
          · rw [Semaphore.acquire_of_not_locked (by simpa using hlock)]
            exact .resumeEnter htask hset (by simpa using hlock)
      · simp at h
  · next htask =>
      obtain rfl := Option.some.inj h
      exact .resumeTimeout htask
  · next htask =>
      obtain rfl := Option.some.inj h
      exact .resumeCancelled htask
  · next htask =>
      split at h
      · next hres =>
          obtain rfl := Option.some.inj h
          exact .semEnter htask hres
      · next hres =>
          obtain rfl := Option.some.inj h
          exact .semCancelled htask hres
      · simp at h
  · simp at h

/-- An admitted request gives back its slot. -/
private theorem move_of_finish {r : ReqId} (h : finish s r = some t) :
    Move cfg s (.finish r) t := by
  rw [finish] at h
  split at h
  · next htask =>
      obtain rfl := Option.some.inj h
      exact .leave htask (.inl ⟨rfl, rfl⟩)
  · simp at h

/-- Every step is one of the moves. -/
theorem move_of_step (h : step cfg s a = some t) : Move cfg s a t := by
  cases a with
  | arrive => exact Option.some.inj h ▸ move_of_arrive
  | timer r => exact move_of_timer h
  | cancel r => exact move_of_cancel h
  | resume r => exact move_of_resume h
  | finish r => exact move_of_finish h

/-! ## Building blocks of the post-states -/

namespace State

variable {r : ReqId} {old new : Task}

@[simp] theorem setTask_sem : (s.setTask r new).sem = s.sem := rfl
@[simp] theorem setTask_queue : (s.setTask r new).queue = s.queue := rfl
@[simp] theorem setTask_active : (s.setTask r new).active = s.active := rfl
@[simp] theorem setTask_assertionFailed :
    (s.setTask r new).assertionFailed = s.assertionFailed := rfl
@[simp] theorem setTask_admitted : (s.setTask r new).admitted = s.admitted := rfl
@[simp] theorem setTask_tasks : (s.setTask r new).tasks = s.tasks.set r new := rfl

@[simp] theorem push_sem : (s.push new).sem = s.sem := rfl
@[simp] theorem push_queue : (s.push new).queue = s.queue := rfl
@[simp] theorem push_active : (s.push new).active = s.active := rfl
@[simp] theorem push_assertionFailed : (s.push new).assertionFailed = s.assertionFailed := rfl
@[simp] theorem push_admitted : (s.push new).admitted = s.admitted := rfl
@[simp] theorem push_tasks : (s.push new).tasks = s.tasks ++ [new] := rfl

@[simp] theorem enter_sem : (s.enter r).sem = s.sem := rfl
@[simp] theorem enter_queue : (s.enter r).queue = s.queue := rfl
@[simp] theorem enter_active : (s.enter r).active = s.active + 1 := rfl
@[simp] theorem enter_assertionFailed : (s.enter r).assertionFailed = s.assertionFailed := rfl
@[simp] theorem enter_admitted : (s.enter r).admitted = s.admitted ++ [r] := rfl
@[simp] theorem enter_tasks : (s.enter r).tasks = s.tasks := rfl

/-- Granting sets the event of a request that is still waiting for it and does nothing otherwise. -/
theorem grant_cases (s : State) (n : ReqId) :
    (∃ e i, s.tasks[n]? = some (.queueWait e i) ∧ s.grant n = s.setTask n (.queueWait e.grant i)) ∨
      ((∀ e i, s.tasks[n]? ≠ some (.queueWait e i)) ∧ s.grant n = s) := by
  rw [grant]
  split
  · next e i htask => exact .inl ⟨e, i, htask, rfl⟩
  · next hnot => exact .inr ⟨fun e i h => hnot e i h, rfl⟩

/-- What a grant leaves alone. -/
theorem grant_frame (s : State) (n : ReqId) :
    (s.grant n).sem = s.sem ∧ (s.grant n).queue = s.queue ∧ (s.grant n).active = s.active ∧
      (s.grant n).assertionFailed = s.assertionFailed ∧ (s.grant n).admitted = s.admitted := by
  rcases grant_cases s n with ⟨e, i, -, heq⟩ | ⟨-, heq⟩ <;> simp [heq]

/-- `_release()` with a running body: nobody to grant to, or the head of the queue gets the grant.
-/
theorem release_cases (h : 0 < s.active) :
    (s.queue = [] ∧ s.release = { s with active := s.active - 1, sem := s.sem.release }) ∨
      ∃ next rest, s.queue = next :: rest ∧
        s.release = { { s with queue := rest }.grant next with
          active := s.active - 1, sem := s.sem.release } := by
  have hpos : ¬ s.active - 1 < 0 := by omega
  rw [release]
  simp only [hpos, if_false, grantNext]
  cases hq : s.queue with
  | nil => exact .inl ⟨rfl, rfl⟩
  | cons next rest =>
      refine .inr ⟨next, rest, rfl, ?_⟩
      -- `_grant_next` drops an entry whose task no longer waits
      rcases grant_cases { s with queue := rest } next with ⟨e, i, htask, heq⟩ | ⟨hnot, heq⟩
      · simp only at htask
        simp only [heq]
        simp [grant, htask, setTask]
      · simp only at hnot
        simp only [heq]
        cases ht : s.tasks[next]? with
        | none => simp [grant, ht]
        | some task =>
            cases task with
            | queueWait e i => exact absurd ht (hnot e i)
            | semWait => simp [grant, ht]
            | body => simp [grant, ht]
            | ended how => simp [grant, ht]

end State

end SynGateway.Core.Admission

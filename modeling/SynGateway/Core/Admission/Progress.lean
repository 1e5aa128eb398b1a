import Mathlib.Algebra.Ring.Nat
import SynGateway.Common.Termination
import SynGateway.Core.Admission.Queues

/-!
# Every request ends

Once nobody arrives any more, what is left to do is bounded: a task that waits on its queue event
has at most three steps before it, one that waits on the semaphore two, a body one. And it is not
stuck before the end: a waiter in `_queue` has its timer, and while somebody waits on the semaphore
there is a body that will give its slot back, or a unit that is on its way to a woken waiter
(`Served`). The bodies are taken to end at some time; cancellations may come in between, and neither
slow the rest down nor lose a slot.
-/

namespace SynGateway.Counting

variable {α : Type*} {f : α → ℕ}

/-- What replacing one entry does to a sum over the list, as an additive identity. -/
theorem sum_map_set_add {l : List α} {i : ℕ} {old : α} (h : l[i]? = some old) (new : α) :
    ((l.set i new).map f).sum + f old = (l.map f).sum + f new := by
  induction l generalizing i with
  | nil => simp at h
  | cons a l ih =>
      cases i with
      | zero =>
          obtain rfl : a = old := by simpa using h
          simp only [List.set_cons_zero, List.map_cons, List.sum_cons]
          omega
      | succ i =>
          have hrec := ih (by simpa using h)
          simp only [List.set_cons_succ, List.map_cons, List.sum_cons]
          omega

end SynGateway.Counting

namespace SynGateway.Core.Admission

open SynGateway.Asyncio SynGateway.Transition SynGateway.Counting

/-- The steps that a request takes by itself: its timer, its resumptions and the end of its body. -/
def Action.isOwn : Action → Bool
  | .timer _ | .resume _ | .finish _ => true
  | .arrive | .cancel _ => false

/-- How many of them a task has before it, at most. -/
def Task.stepsLeft : Task → ℕ
  | .queueWait _ .none => 3
  | .queueWait _ _ => 1
  | .semWait => 2
  | .body => 1
  | .ended _ => 0

/-- How many of them are left for all requests. -/
def State.stepsLeft (s : State) : ℕ := (s.tasks.map Task.stepsLeft).sum

variable {cfg : Config} {s t : State} {a : Action} {r : ReqId} {old new : Task}

/-! ## The measure -/

/-- A step of a task changes its own share of the steps left. -/
theorem State.stepsLeft_setTask (new : Task) (htask : s.tasks[r]? = some old) :
    (s.setTask r new).stepsLeft + old.stepsLeft = s.stepsLeft + new.stepsLeft :=
  sum_map_set_add htask new

/-- A new task brings its own steps. -/
@[simp] theorem State.stepsLeft_push : (s.push new).stepsLeft = s.stepsLeft + new.stepsLeft := by
  simp [State.stepsLeft]

/-- A grant leaves the waiter as many steps as before. -/
theorem State.stepsLeft_grant (s : State) (n : ReqId) : (s.grant n).stepsLeft = s.stepsLeft := by
  rcases State.grant_cases s n with ⟨e, i, htask, heq⟩ | ⟨-, heq⟩
  · have hset := State.stepsLeft_setTask (.queueWait e.grant i) htask
    have hsame : (Task.queueWait e.grant i).stepsLeft = (Task.queueWait e i).stepsLeft := by
      cases i <;> rfl
    rw [heq]
    omega
  · rw [heq]

/-- `_release` takes no step of a task. -/
theorem State.stepsLeft_release (h : 0 < s.active) : s.release.stepsLeft = s.stepsLeft := by
  rcases State.release_cases h with ⟨-, heq⟩ | ⟨next, rest, -, heq⟩
  · rw [heq]
    rfl
  · rw [heq]
    exact State.stepsLeft_grant { s with queue := rest } next

/-- **A step of a request uses up one of the steps that are left**, an arrival brings three, and a
cancellation brings none. -/
theorem stepsLeft_move (hslots : Slots cfg s) (hmove : Move cfg s a t) :
    t.stepsLeft + (if a.isOwn then 1 else 0) ≤ s.stepsLeft + if a = .arrive then 3 else 0 := by
  cases hmove with
  | reject => simp [Action.isOwn, Task.stepsLeft]
  | enqueue =>
      show (s.push _).stepsLeft + _ ≤ _
      simp [Action.isOwn, Task.stepsLeft]
  | fast =>
      show (s.push .body).stepsLeft + _ ≤ _
      simp [Action.isOwn, Task.stepsLeft]
  | @timer r e htask =>
      have hset := State.stepsLeft_setTask (.queueWait e .timeout) htask
      simp only [Task.stepsLeft] at hset
      simp [Action.isOwn]
      omega
  | cancelIgnored => simp [Action.isOwn]
  | @cancelQueue r e i htask =>
      have hset := State.stepsLeft_setTask (.queueWait e .cancel) htask
      have hle : (Task.queueWait e .cancel).stepsLeft ≤ (Task.queueWait e i).stepsLeft := by
        -- an interrupt that was pending before counts no second time
        cases i <;> simp [Task.stepsLeft]
      simp [Action.isOwn]
      omega
  | cancelSem => exact Nat.le_refl _
  | @leave r a how htask ha =>
      have hset := State.stepsLeft_setTask (.ended how) htask
      rw [State.stepsLeft_release (hslots.active_pos_of_body htask)]
      -- the end of a request is its last step, and grants cost nothing
      simp only [Task.stepsLeft] at hset
      split <;> split <;> omega
  | resumeCancelled htask =>
      have hset := State.stepsLeft_setTask (.ended .cancelled) htask
      simp only [Task.stepsLeft] at hset
      simp [Action.isOwn]
      omega
  | @resumeTimeout r e htask =>
      have hset := State.stepsLeft_setTask (.ended .queueTimeout) htask
      simp only [Task.stepsLeft] at hset
      show (s.setTask r _).stepsLeft + _ ≤ _
      simp [Action.isOwn]
      omega
  | @resumeEnter r e htask =>
      have hset := State.stepsLeft_setTask (.body) htask
      simp only [Task.stepsLeft] at hset
      show (s.setTask r _).stepsLeft + _ ≤ _
      simp [Action.isOwn]
      omega
  | @resumeBlock r e htask =>
      have hset := State.stepsLeft_setTask (.semWait) htask
      simp only [Task.stepsLeft] at hset
      show (s.setTask r _).stepsLeft + _ ≤ _
      simp [Action.isOwn]
      omega
  | @semEnter r sem htask =>
      have hset := State.stepsLeft_setTask (.body) htask
      simp only [Task.stepsLeft] at hset
      show (s.setTask r _).stepsLeft + _ ≤ _
      simp [Action.isOwn]
      omega
  | @semCancelled r sem htask =>
      have hset := State.stepsLeft_setTask (.ended .cancelled) htask
      simp only [Task.stepsLeft] at hset
      show (s.setTask r _).stepsLeft + _ ≤ _
      simp [Action.isOwn]
      omega

/-! ## Nobody is stuck -/

/-- While a waiter of the semaphore is pending, no unit is free, or one is on its way to another. -/
def Served (sem : Semaphore ReqId) : Prop := sem.pending = 0 ∨ sem.value = 0 ∨ 0 < sem.handed

/-- A release hands the unit on, if somebody is pending. -/
theorem served_release (s : State) : Served s.sem.release := by
  obtain ⟨hnobody, hsomebody⟩ := Semaphore.release_spec s.sem
  rcases Nat.eq_zero_or_pos s.sem.pending with hzero | hpos
  · rw [hnobody hzero]
    exact .inl hzero
  · obtain ⟨-, hhanded, -⟩ := hsomebody hpos
    exact .inr (.inr (by omega))

/-- Every step keeps the waiters of the semaphore served. -/
theorem Served.move (h : Served s.sem) (hslots : Slots cfg s) (hmove : Move cfg s a t) :
    Served t.sem := by
  cases hmove with
  | reject | enqueue | timer | cancelIgnored | cancelQueue | resumeCancelled |
      resumeTimeout => exact h
  | fast hfree => exact .inl (Semaphore.no_waiters_of_not_locked hfree).2
  | resumeEnter htask hset hfree => exact .inl (Semaphore.no_waiters_of_not_locked hfree).2
  | @cancelSem r htask =>
      obtain ⟨hvalue, hhanded, hpending, -⟩ := Semaphore.cancelTask_spec s.sem r
      show (s.sem.cancelTask r).pending = 0 ∨ (s.sem.cancelTask r).value = 0 ∨
        0 < (s.sem.cancelTask r).handed
      unfold Served at h
      omega
  | leave htask ha =>
      rw [(State.release_spec (hslots.active_pos_of_body htask)).1]
      exact served_release (s.setTask _ _)
  | @resumeBlock r e htask hset hlocked =>
      -- the new waiter finds the semaphore locked: nothing is free, or somebody is ahead of it
      have hbusy := Semaphore.value_of_locked hlocked
      have hhanded : Semaphore.handed ⟨s.sem.value, s.sem.waiters ++ [{ task := r }]⟩ =
          s.sem.handed := by
        simp [Semaphore.handed]
      show _ ∨ s.sem.value = 0 ∨
        0 < Semaphore.handed ⟨s.sem.value, s.sem.waiters ++ [{ task := r }]⟩
      unfold Served at h
      omega
  | semEnter htask hres => exact (Semaphore.resume_spec hres).2.2.symm.imp_right .inl
  | semCancelled htask hres => exact (Semaphore.resume_spec hres).2.2.symm.imp_right .inl

/-- In every reachable state the semaphore has served whom it could. -/
theorem Reachable.served (h : Reachable cfg free s) : Served s.sem := by
  have hboth := Reach.invariant (I := fun s => Slots cfg s ∧ Served s.sem) h
    ⟨Slots.init cfg, .inl rfl⟩ fun _ _ _ ⟨hslots, hserved⟩ _ hstep =>
      ⟨hslots.move (move_of_step hstep), hserved.move hslots (move_of_step hstep)⟩
  exact hboth.2

/-- A waiter of the semaphore that is not pending can resume. -/
theorem exists_resume_of_not_pending (hqueues : QueuesOk s) {w : Waiter ReqId}
    (hmem : w ∈ s.sem.waiters) (hfut : w.fut ≠ .pending) : ∃ t, resume s w.task = some t := by
  have htask : s.tasks[w.task]? = some .semWait :=
    (hqueues.waiters.task_eq _).mp (List.mem_map_of_mem hmem)
  obtain ⟨⟨sem, ok⟩, hres⟩ := Option.isSome_iff_exists.mp
    (Semaphore.resume_isSome hqueues.waiters.nodup hmem hfut)
  unfold resume
  rw [htask]
  simp only [hres]
  cases ok <;> exact ⟨_, rfl⟩

/-- While somebody waits on the semaphore, and nobody is in a body, somebody there can resume. -/
theorem exists_resume_of_semWait (hmax : 1 ≤ cfg.maxActive) (hslots : Slots cfg s)
    (hqueues : QueuesOk s) (hserved : Served s.sem) (hbody : s.inBody = 0)
    (htask : s.tasks[r]? = some .semWait) : ∃ q t, resume s q = some t := by
  have hunits := hslots.units_eq
  have hunfold : s.sem.units = s.sem.value + s.sem.handed := rfl
  rcases Nat.eq_zero_or_pos s.sem.handed with hzero | hpos
  · -- a unit is free, so nobody is pending: the task itself was cancelled
    have hnone : s.sem.pending = 0 := by
      unfold Served at hserved
      omega
    obtain ⟨w, hw, rfl⟩ := List.mem_map.mp ((hqueues.waiters.task_eq r).mpr htask)
    have hfut := List.countP_eq_zero.mp hnone w hw
    obtain ⟨t, ht⟩ := exists_resume_of_not_pending hqueues hw (by simpa using hfut)
    exact ⟨w.task, t, ht⟩
  · obtain ⟨w, hw, hdone⟩ := List.countP_pos_iff.mp hpos
    obtain ⟨t, ht⟩ := exists_resume_of_not_pending hqueues hw (by simp [of_decide_eq_true hdone])
    exact ⟨w.task, t, ht⟩

/-- A task that waits on its queue event can resume, or its timer can fire. -/
theorem exists_own_of_queueWait {e : QueueEntry} {i : Interrupt}
    (htask : s.tasks[r]? = some (.queueWait e i)) :
    ∃ a, a.isOwn = true ∧ (step cfg s a).isSome = true := by
  cases i with
  | timeout => exact ⟨.resume r, rfl, by simp [step, resume, htask]⟩
  | cancel => exact ⟨.resume r, rfl, by simp [step, resume, htask]⟩
  | none =>
      cases hevent : e.event with
      | false => exact ⟨.timer r, rfl, by simp [step, timer, htask, hevent]⟩
      | true =>
          have hgranted : e.granted = true := e.granted_eq_event.trans hevent
          exact ⟨.resume r, rfl, by simp [step, resume, htask, hevent, hgranted]⟩

/-- **No deadlock.** While a request has not ended, some request can take a step by itself. -/
theorem exists_own_step (hmax : 1 ≤ cfg.maxActive) (h : Reachable cfg free s)
    (htask : s.tasks[r]? = some old) (hold : ∀ how, old ≠ .ended how) :
    ∃ a, a.isOwn = true ∧ (step cfg s a).isSome = true := by
  rcases Nat.eq_zero_or_pos s.inBody with hbody | hbody
  · cases old with
    | queueWait e i => exact exists_own_of_queueWait htask
    | semWait =>
        obtain ⟨q, t, ht⟩ := exists_resume_of_semWait hmax h.slots h.queues h.served hbody htask
        exact ⟨.resume q, rfl, by simp [step, ht]⟩
    | body =>
        have hpos : 0 < s.inBody := List.countP_pos_iff.mpr ⟨_, List.mem_of_getElem? htask, rfl⟩
        omega
    | ended how => exact absurd rfl (hold how)
  · obtain ⟨task, hmem, hisBody⟩ := List.countP_pos_iff.mp hbody
    obtain ⟨q, hq⟩ := List.mem_iff_getElem?.mp hmem
    cases task with
    | body => exact ⟨.finish q, rfl, by simp [step, finish, hq]⟩
    | _ => cases hisBody

/-- Where all requests have ended, every slot is free again. -/
theorem free_of_ended (h : Reachable cfg free s)
    (hended : ∀ task ∈ s.tasks, ∃ how, task = .ended how) :
    s.active = 0 ∧ s.sem.value = cfg.maxActive := by
  have hbody : s.inBody = 0 := by
    refine List.countP_eq_zero.mpr fun task hmem => ?_
    obtain ⟨how, rfl⟩ := hended task hmem
    simp
  have hhanded : s.sem.handed = 0 := by
    refine List.countP_eq_zero.mpr fun w hw _ => ?_
    have htask := (h.queues.waiters.task_eq w.task).mp (List.mem_map_of_mem hw)
    obtain ⟨how, hhow⟩ := hended _ (List.mem_of_getElem? htask)
    cases hhow
  have hunits := h.slots.units_eq
  have hunfold : s.sem.units = s.sem.value + s.sem.handed := rfl
  exact ⟨by rw [h.slots.active_eq, hbody]; rfl, by omega⟩

/-- **Every request ends.** In a run with any arrivals, timeouts and cancellations, in any order,
the requests take at most three steps by themselves for each arrival. Wherever they can take no
more, all have ended and all slots are free; and from wherever the run is they can go on to such a
state by themselves. -/
theorem requests_end (hmax : 1 ≤ cfg.maxActive) {as : List Action}
    (hrun : run (step cfg) (init cfg) as = some s) :
    as.countP Action.isOwn ≤ 3 * as.countP (· = .arrive) ∧
    ((∀ a, a.isOwn = true → step cfg s a = none) →
      (∀ task ∈ s.tasks, ∃ how, task = .ended how) ∧ s.active = 0 ∧ s.sem.value = cfg.maxActive) ∧
    ∃ bs t, (∀ a ∈ bs, a.isOwn = true) ∧ run (step cfg) s bs = some t ∧
      (∀ task ∈ t.tasks, ∃ how, task = .ended how) ∧ t.active = 0 ∧
      t.sem.value = cfg.maxActive := by
  have hdrop : ∀ s a t, Reachable cfg free s → step cfg s a = some t →
      t.stepsLeft + (if a.isOwn then 1 else 0) ≤ s.stepsLeft + if a = .arrive then 3 else 0 :=
    fun s a t hs hstep => stepsLeft_move hs.slots (move_of_step hstep)
  have hstuck : ∀ s, Reachable cfg free s → (∀ a, a.isOwn = true → step cfg s a = none) →
      (∀ task ∈ s.tasks, ∃ how, task = .ended how) ∧ s.active = 0 ∧
          s.sem.value = cfg.maxActive := by
    intro s hs hnone
    -- a task that has not ended has a step of its own
    have hended : ∀ task ∈ s.tasks, ∃ how, task = .ended how := by
      intro task hmem
      obtain ⟨r, hr⟩ := List.mem_iff_getElem?.mp hmem
      by_contra hnot
      obtain ⟨a, ha, hstep⟩ := exists_own_step hmax hs hr (not_exists.mp hnot)
      rw [hnone a ha] at hstep
      cases hstep
    exact ⟨hended, free_of_ended hs hended⟩
  have hreach : Reachable cfg free s := Reach.init.of_run hrun (meets_free _ _)
  refine ⟨?_, hstuck s hreach, ?_⟩
  · -- each own step lowers the measure, each arrival raises it by three
    have hcount := countP_le_of_measure (q := (· = .arrive)) .init (fun _ _ => trivial)
      (fun s a t hs hstep => by simpa using hdrop s a t hs hstep) hrun
    have hzero : (init cfg).stepsLeft = 0 := rfl
    omega
  · obtain ⟨bs, t, hbs, hbsrun, hend⟩ :=
      exists_run_to_end (p := Action.isOwn) (μ := State.stepsLeft)
      (fun _ _ => trivial) (fun s a t hs hstep ha => by
        have hle := hdrop s a t hs hstep
        have hnot : a ≠ .arrive := by
          rintro rfl
          cases ha
        rw [if_pos ha, if_neg hnot] at hle
        omega) hreach
    exact ⟨bs, t, hbs, hbsrun, hstuck t (hreach.of_run hbsrun (meets_free _ _)) hend⟩

/-- A run in which a queued request times out while another is cancelled in its body. -/
theorem requests_end_timeout_and_cancel :
    ∃ s, run (step ⟨1, 2, 1, true⟩) (init ⟨1, 2, 1, true⟩) [.arrive, .arrive, .timer 1, .cancel 0] =
        some s ∧
      ∃ bs t, (∀ a ∈ bs, Action.isOwn a = true) ∧ run (step ⟨1, 2, 1, true⟩) s bs = some t ∧
        (∀ task ∈ t.tasks, ∃ how, task = .ended how) ∧ t.active = 0 ∧ t.sem.value = 1 := by
  obtain ⟨s, hs⟩ := Option.isSome_iff_exists.mp
    (show (run (step ⟨1, 2, 1, true⟩) (init ⟨1, 2, 1, true⟩)
      [.arrive, .arrive, .timer 1, .cancel 0]).isSome = true by decide)
  exact ⟨s, hs, (@requests_end ⟨1, 2, 1, true⟩ _ (by decide) _ hs).2.2⟩

end SynGateway.Core.Admission

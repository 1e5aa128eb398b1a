import SynGateway.Core.Admission.Queues

/-!
# Cleanup of the admission controller

Every way out of `acquire()` has to restore `_queue`, `_active` and the semaphore. All of them do
but one: a request cancelled in its wait on the queue event leaves by `CancelledError`, which the
`except asyncio.TimeoutError` clause does not see, so its entry stays in `_queue` unless a release
has popped it before. `cleanup_iff` shows that this is the only leak: a run is clean in all its
states exactly when none of its steps lets a cancelled waiter go while its entry is still queued.
-/

namespace SynGateway.Core.Admission

open SynGateway.Asyncio SynGateway.Transition SynGateway.Counting

/-- `_queue` holds only entries of requests that still wait in `acquire()`, and once every request
has ended the controller is as new: nothing queued, nothing active, all slots free, and the next
arrival enters its body at once. -/
structure Clean (cfg : Config) (s : State) : Prop where
  queue_waiting : ∀ r ∈ s.queue, ∃ task, s.tasks[r]? = some task ∧ task.isSuspended = true
  settled : (∀ task ∈ s.tasks, ∃ how, task = .ended how) →
    s.queue = [] ∧ s.active = 0 ∧ s.sem.value = cfg.maxActive ∧
      (acquireStart cfg s).tasks = s.tasks ++ [.body]

/-- No waiter leaves the wait on its queue event by `CancelledError` while its entry is queued. -/
def NoAbandonedEntry (s : State) (a : Action) : Prop :=
  ∀ r e, a = .resume r → s.tasks[r]? = some (.queueWait e .cancel) → r ∉ s.queue

variable {cfg : Config} {s t : State} {a : Action} {r : ReqId}

/-- No entry of `_queue` belongs to a request that is gone. -/
def NoStray (s : State) : Prop := ∀ r ∈ s.queue, s.tasks[r]? ≠ some (.ended .cancelled)

/-- Changing the task of a request that has no queued entry leaves no stray entry. -/
theorem NoStray.set_of_not_mem {queue : List ReqId} {old new : Task} (h : NoStray s)
    (hsub : ∀ q ∈ queue, q ∈ s.queue) (htask : s.tasks[r]? = some old)
    (hr : r ∉ queue ∨ new ≠ .ended .cancelled) :
    ∀ q ∈ queue, (s.tasks.set r new)[q]? ≠ some (.ended .cancelled) := by
  intro q hq
  rw [getElem?_set_task htask]
  split
  · next hqr =>
      subst hqr
      intro hnew
      rcases hr with hr | hr
      · exact hr hq
      · exact hr (Option.some.inj hnew)
  · exact h q (hsub q hq)

/-- A request that does not wait ungranted has no entry in a queue without stray entries. -/
theorem not_mem_queue (hqueues : QueuesOk s) (htask : s.tasks[r]? = some .body ∨
    s.tasks[r]? = some .semWait) : r ∉ s.queue := by
  intro hr
  rcases hqueues.queue.queue_task r hr with ⟨e, i, he, -⟩ | he <;>
    rcases htask with h | h <;> simp [h] at he

/-- A grant takes the granted request out of the queue. -/
theorem NoStray.grant {next : ReqId} {rest : List ReqId} (h : NoStray s)
    (hqueue : s.queue = next :: rest) : NoStray (State.grant { s with queue := rest } next) := by
  have hsub : ∀ q ∈ rest, q ∈ s.queue := by
    intro q hq
    rw [hqueue]
    exact List.mem_cons_of_mem _ hq
  rcases State.grant_cases { s with queue := rest } next with ⟨e, i, htask, heq⟩ | ⟨-, heq⟩
  · rw [heq]
    exact h.set_of_not_mem hsub htask (.inr (by simp))
  · rw [heq]
    exact fun q hq => h q (hsub q hq)

/-- A body that ends leaves no stray entry behind. -/
theorem NoStray.leave (h : NoStray s) (hslots : Slots cfg s) (hqueues : QueuesOk s)
    (htask : s.tasks[r]? = some .body) (how : Ended) :
    NoStray (s.setTask r (.ended how)).release := by
  have hr : r ∉ s.queue := not_mem_queue hqueues (.inl htask)
  have hset : NoStray (s.setTask r (.ended how)) :=
    h.set_of_not_mem (fun _ hq => hq) htask (.inl hr)
  rcases State.release_cases (hslots.active_pos_of_body htask) with ⟨-, heq⟩ | ⟨next, rest, hq, heq⟩
  · rw [heq]
    exact hset
  · rw [heq]
    exact hset.grant hq

/-- A step within the guard makes no entry stray. -/
theorem NoStray.move (h : NoStray s) (hslots : Slots cfg s) (hqueues : QueuesOk s)
    (hguard : NoAbandonedEntry s a) (hmove : Move cfg s a t) : NoStray t := by
  have hself : ∀ q ∈ s.queue, q ∈ s.queue := fun _ hq => hq
  have hpush : ∀ new : Task, ∀ q ∈ s.queue, (s.tasks ++ [new])[q]? ≠ some (.ended .cancelled) := by
    intro new q hq
    rw [getElem?_push_task, if_neg (hqueues.queue.lt_length hq).ne]
    exact h q hq
  cases hmove with
  | reject => exact hpush _
  | enqueue =>
      intro q hq
      rcases List.mem_append.mp hq with hq | hq
      · exact hpush _ q hq
      · obtain rfl := List.mem_singleton.mp hq
        simp
  | fast => exact hpush _
  | timer htask => exact h.set_of_not_mem hself htask (.inr (by simp))
  | cancelIgnored => exact h
  | cancelQueue htask => exact h.set_of_not_mem hself htask (.inr (by simp))
  | cancelSem => exact h
  | leave htask ha => exact h.leave hslots hqueues htask _
  -- the guard is about this step: the entry is not in the queue any more
  | @resumeCancelled r e htask => exact h.set_of_not_mem hself htask (.inl (hguard r e rfl htask))
  | resumeTimeout htask =>
      exact h.set_of_not_mem (fun _ hq => List.mem_of_mem_erase hq) htask (.inr (by simp))
  | resumeEnter htask => exact h.set_of_not_mem hself htask (.inr (by simp))
  | resumeBlock htask => exact h.set_of_not_mem hself htask (.inr (by simp))
  | semEnter htask => exact h.set_of_not_mem hself htask (.inr (by simp))
  | @semCancelled r sem htask =>
      -- who waits on the semaphore has left the queue before
      have hr : r ∉ s.queue := not_mem_queue hqueues (.inr htask)
      exact h.set_of_not_mem hself htask (.inl hr)

/-- Runs within the guard have no stray entry. -/
theorem Reachable.noStray (h : Reachable cfg NoAbandonedEntry s) : NoStray s := by
  have hall := Reach.invariant (I := fun s => NoStray s ∧ Slots cfg s ∧ QueuesOk s) h
    ⟨by simp [NoStray, init], Slots.init cfg, QueuesOk.init cfg⟩
    fun _ _ _ ⟨hn, hs, hq⟩ hguard hstep =>
      have hmove := move_of_step hstep
      ⟨hn.move hs hq hguard hmove, hs.move hmove, hq.move hs hmove⟩
  exact hall.1

/-- A controller without stray entries whose requests have all ended is as new. -/
theorem settled_of_noStray (hmax : 1 ≤ cfg.maxActive) (hstray : NoStray s) (hslots : Slots cfg s)
    (hqueues : QueuesOk s) (hended : ∀ task ∈ s.tasks, ∃ how, task = .ended how) :
    s.queue = [] ∧ s.active = 0 ∧ s.sem.value = cfg.maxActive ∧
      (acquireStart cfg s).tasks = s.tasks ++ [.body] := by
  have htask : ∀ (q : ReqId) (task : Task), s.tasks[q]? = some task → ∃ how, task = .ended how :=
    fun _ task hq => hended task (List.mem_of_getElem? hq)
  have hqueue : s.queue = [] := by
    refine List.eq_nil_iff_forall_not_mem.mpr fun q hq => ?_
    -- an entry in the queue is a task that waits, or one that was cancelled
    rcases hqueues.queue.queue_task q hq with ⟨e, i, he, -⟩ | he
    · obtain ⟨how, hhow⟩ := htask q _ he
      simp at hhow
    · exact hstray q hq he
  have hwaiting : s.waiting = [] := by
    refine List.eq_nil_iff_forall_not_mem.mpr fun q hq => ?_
    obtain ⟨how, hhow⟩ := htask q _ ((hqueues.waiters.task_eq q).mp hq)
    simp at hhow
  have hwaiters : s.sem.waiters = [] := List.map_eq_nil_iff.mp hwaiting
  have hbody : s.inBody = 0 := by
    refine List.countP_eq_zero.mpr fun task hmem => ?_
    obtain ⟨how, rfl⟩ := hended task hmem
    simp
  -- nobody is in the body and nobody holds a handed unit, so all units are free
  have hvalue : s.sem.value = cfg.maxActive := by
    have hunits := hslots.units_eq
    rw [hbody] at hunits
    simpa [Semaphore.units, Semaphore.handed, hwaiters] using hunits
  have hfree : s.sem.locked = false :=
    Semaphore.locked_eq_false.mpr ⟨by omega, by simp [hwaiters]⟩
  refine ⟨hqueue, by rw [hslots.active_eq, hbody]; rfl, hvalue, ?_⟩
  have hfirst : (s.sem.locked || !s.queue.isEmpty) = false := by simp [hfree, hqueue]
  simp only [acquireStart, hfirst, Bool.false_eq_true, if_false, State.semAcquire,
    Semaphore.acquire_of_not_locked hfree]
  rfl

/-- Runs within the guard are clean. -/
theorem clean_of_reachable (hmax : 1 ≤ cfg.maxActive) (h : Reachable cfg NoAbandonedEntry s) :
    Clean cfg s where
  queue_waiting r hr := by
    rcases h.queues.queue.queue_task r hr with ⟨e, i, he, -⟩ | he
    · exact ⟨_, he, rfl⟩
    · exact absurd he (h.noStray r hr)
  settled := settled_of_noStray hmax h.noStray h.slots h.queues

/-- A step outside the guard leaves the entry of a request that has ended. -/
theorem not_clean_of_abandoned (hguard : ¬ NoAbandonedEntry s a) (hstep : step cfg s a = some t) :
    ¬ Clean cfg t := by
  simp only [NoAbandonedEntry, not_forall, not_not] at hguard
  obtain ⟨r, e, rfl, htask, hr⟩ := hguard
  have hnext : t = s.setTask r (.ended .cancelled) := by
    simpa [step, resume, htask] using hstep.symm
  subst hnext
  intro hclean
  obtain ⟨task, hget, hsusp⟩ := hclean.queue_waiting r hr
  rw [State.setTask_tasks, getElem?_set_task htask, if_pos rfl] at hget
  obtain rfl := Option.some.inj hget
  simp at hsusp

/-- **Cleanup.** A run passes only through clean states exactly when no waiter of it is let go by a
cancellation while its entry is still in `_queue`. -/
theorem cleanup_iff (hmax : 1 ≤ cfg.maxActive) {as : List Action} {s' : State}
    (hrun : run (step cfg) (init cfg) as = some s') :
    (∀ s, Visits (step cfg) (init cfg) as s → Clean cfg s) ↔
      ∀ s a, Takes (step cfg) (init cfg) as s a → NoAbandonedEntry s a :=
  visits_forall_iff hrun (fun _ h => clean_of_reachable hmax h) fun _ _ _ _ hguard hstep =>
    not_clean_of_abandoned hguard hstep

/-- A run in which a queued request times out and a granted one is cancelled. -/
theorem cleanup_iff_timeout_and_cancel :
    (∀ s, Visits (step ⟨1, 2, 1, true⟩) (init ⟨1, 2, 1, true⟩)
        [.arrive, .arrive, .arrive, .timer 1, .resume 1, .finish 0, .cancel 2, .resume 2] s →
      Clean ⟨1, 2, 1, true⟩ s) ↔
    ∀ s a, Takes (step ⟨1, 2, 1, true⟩) (init ⟨1, 2, 1, true⟩)
        [.arrive, .arrive, .arrive, .timer 1, .resume 1, .finish 0, .cancel 2, .resume 2] s a →
      NoAbandonedEntry s a := by
  obtain ⟨s', hs'⟩ := Option.isSome_iff_exists.mp
    (show (run (step ⟨1, 2, 1, true⟩) (init ⟨1, 2, 1, true⟩)
      [.arrive, .arrive, .arrive, .timer 1, .resume 1, .finish 0, .cancel 2, .resume 2]).isSome
        = true by decide)
  exact cleanup_iff (by decide) hs'

/-- Two queued requests are cancelled, then the running one finishes: everybody has ended, yet an
entry is left in `_queue` and the next arrival is queued beside the free slot. -/
theorem cleanup_fails :
    ¬ ∀ (cfg : Config) (s : State), 1 ≤ cfg.maxActive → Reachable cfg free s → Clean cfg s := by
  intro hclaim
  obtain ⟨s, hs⟩ := Option.isSome_iff_exists.mp
    (show (run (step ⟨1, 2, 1, true⟩) (init ⟨1, 2, 1, true⟩)
      [.arrive, .arrive, .arrive, .cancel 1, .cancel 2, .resume 1, .resume 2, .finish 0]).isSome
        = true by decide)
  have hclean := hclaim ⟨1, 2, 1, true⟩ s (by decide) (Reach.init.of_run hs (meets_free _ _))
  have hstate : (run (step ⟨1, 2, 1, true⟩) (init ⟨1, 2, 1, true⟩)
      [.arrive, .arrive, .arrive, .cancel 1, .cancel 2, .resume 1, .resume 2, .finish 0]).map
        (fun s => (s.queue, s.tasks)) = some ([2], [.ended .finished, .ended .cancelled,
          .ended .cancelled]) := by decide
  rw [hs, Option.map_some, Option.some.injEq, Prod.mk.injEq] at hstate
  have hempty := (hclean.settled (by simp [hstate.2])).1
  simp [hstate.1] at hempty

end SynGateway.Core.Admission

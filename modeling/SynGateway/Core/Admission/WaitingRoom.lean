import SynGateway.Core.Admission.Handover

/-!
# The waiting room of the admission controller

A request waits in `_queue`, between its grant and its next step, or in the waiter list of the
semaphore. Only the first place is bounded by `max_queue_size`. As long as no newcomer takes a unit
that was granted, the second place is backed by free units and the third stays empty, so at most
`max_queue_size` requests wait beyond the free slots. A newcomer that does opens the third place,
and then every such newcomer adds one more waiter.
-/

namespace SynGateway.Core.Admission

open SynGateway.Asyncio SynGateway.Transition SynGateway.Counting

variable {cfg : Config} {s t : State} {a : Action}

/-- `_queue` never grows beyond its bound. -/
theorem queue_length_move (h : s.queue.length ≤ cfg.maxQueue) (hslots : Slots cfg s)
    (hmove : Move cfg s a t) : t.queue.length ≤ cfg.maxQueue := by
  cases hmove with
  | enqueue hbusy hroom =>
      show (s.queue ++ [s.tasks.length]).length ≤ cfg.maxQueue
      rw [List.length_append]
      exact hroom
  | @leave r _ how htask ha =>
      have hpos : 0 < (s.setTask r (.ended how)).active := hslots.active_pos_of_body htask
      -- a release shortens the queue, if it changes it
      rcases State.release_cases hpos with ⟨-, heq⟩ | ⟨next, rest, hq, heq⟩
      · rw [heq]
        exact h
      · have hq : s.queue = next :: rest := hq
        rw [hq, List.length_cons] at h
        have hframe := (State.grant_frame { s.setTask r (.ended how) with queue := rest } next).2.1
        rw [heq]
        show (State.grant _ next).queue.length ≤ _
        rw [hframe]
        exact Nat.le_of_succ_le h
  | resumeTimeout => exact (List.erase_sublist.length_le).trans h
  | reject | fast | timer | cancelIgnored | cancelQueue | cancelSem | resumeCancelled | resumeEnter
  | resumeBlock | semEnter | semCancelled => exact h

/-- The queue never exceeds its limit. -/
theorem Reachable.queue_length_le {guard : State → Action → Prop} (h : Reachable cfg guard s) :
    s.queue.length ≤ cfg.maxQueue := by
  have hall := Reach.invariant (I := fun s => s.queue.length ≤ cfg.maxQueue ∧ Slots cfg s) h
    ⟨Nat.zero_le _, Slots.init cfg⟩ fun _ _ _ ⟨hq, hs⟩ _ hstep =>
      ⟨queue_length_move hq hs (move_of_step hstep), hs.move (move_of_step hstep)⟩
  exact hall.1

/-- A suspended request is in `_queue`, granted, or waiting on the semaphore. -/
theorem suspended_le (hqueues : QueuesOk s) (hwaiters : s.sem.waiters = []) :
    s.suspended ≤ s.queue.length + s.granted := by
  have hsplit : ∀ task ∈ s.tasks, task.isSuspended = true →
      (task.isSuspended && !task.isGranted) = true ∨ task.isGranted = true := by
    intro task _ hsusp
    rw [hsusp]
    cases task.isGranted with
    | false => exact .inl rfl
    | true => exact .inr rfl
  have hqueued : s.tasks.countP (fun task => task.isSuspended && !task.isGranted)
      ≤ s.queue.length := by
    apply countP_le_length_of_mem
    -- nobody waits on the semaphore, so who is suspended without a grant is in the queue
    intro r task htask hwait
    cases task with
    | queueWait e i => exact hqueues.queue.mem_queue r e i htask (by simpa using hwait)
    | semWait =>
        have hmem := (hqueues.waiters.task_eq r).mpr htask
        simp [State.waiting, hwaiters] at hmem
    | body | ended => simp at hwait
  exact (countP_le_add hsplit).trans (Nat.add_le_add_right hqueued _)

/-- **The waiting room is bounded.** In every run in which a newcomer takes the fast path only while
more units are free than are granted: the requests suspended in `acquire()` outside `_queue` are at
most as many as the free slots, hence all suspended ones at most `max_queue_size` plus that. -/
theorem waiting_room_bounded (h : Reachable cfg (LeavesUnits Task.isGranted) s) :
    s.suspended ≤ s.queue.length + s.sem.value ∧ s.suspended ≤ cfg.maxQueue + s.sem.value := by
  have hcovered := h.covered isClaim_isGranted fun _ _ hguard => hguard
  have hgranted : s.granted ≤ s.sem.value := hcovered.claims_le
  have hsusp := suspended_le h.queues hcovered.waiters
  have hqueue := h.queue_length_le
  exact ⟨by omega, by omega⟩

/-- The bound in a state with a granted waiter and a full queue. -/
theorem waiting_room_bounded_when_full :
    ∃ s : State, s.queue = [2, 3] ∧ s.granted = 1 ∧
      s.suspended ≤ s.queue.length + s.sem.value ∧ s.suspended ≤ 2 + s.sem.value := by
  obtain ⟨s, hreach, hqueue, hgranted⟩ := Reach.exists_of_run (step ⟨1, 2, 1, true⟩)
    (LeavesUnits Task.isGranted) (init ⟨1, 2, 1, true⟩)
    [.arrive, .arrive, .arrive, .finish 0, .arrive]
    (fun s => s.queue = [2, 3] ∧ s.granted = 1) (by decide) (by decide)
  exact ⟨s, hqueue, hgranted, waiting_room_bounded hreach⟩

/-- One slot and room for one. A request is granted the slot, a newcomer takes it and another fills
the queue: two requests wait with room for one and no slot free. -/
theorem waiting_room_overfilled :
    ¬ ∀ (cfg : Config) (s : State), Reachable cfg free s →
    s.suspended ≤ cfg.maxQueue + s.sem.value := by
  intro hclaim
  obtain ⟨s, hreach, hsusp, hvalue⟩ := Reach.exists_of_run (step ⟨1, 1, 1, true⟩) free
    (init ⟨1, 1, 1, true⟩) [.arrive, .arrive, .finish 0, .arrive, .arrive]
    (fun s => s.suspended = 2 ∧ s.sem.value = 0) (by decide) (meets_free _ _)
  have hbound := hclaim _ s hreach
  rw [hsusp, hvalue] at hbound
  exact absurd hbound (by decide)

end SynGateway.Core.Admission

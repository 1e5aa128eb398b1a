import SynGateway.Core.Admission.Slots

/-!
# Who stands in the two queues

A suspended request is found in exactly one place: an ungranted one in `_queue`, one that waits a
second time in the waiter list of the semaphore. The converse holds for the waiter list; in `_queue`
there may also be the entry of a request that was cancelled while it waited and is gone
(`QueueOk.queue_task`), which is the only kind of stray entry.
-/

namespace SynGateway.Core.Admission

open SynGateway.Asyncio SynGateway.Transition SynGateway.Counting

/-- `_queue` against the tasks. -/
structure QueueOk (queue : List ReqId) (tasks : List Task) : Prop where
  nodup : queue.Nodup
  queue_task : ∀ r ∈ queue, (∃ e i, tasks[r]? = some (.queueWait e i) ∧ e.granted = false) ∨
    tasks[r]? = some (.ended .cancelled)
  mem_queue : ∀ r e i, tasks[r]? = some (.queueWait e i) → e.granted = false → r ∈ queue

/-- The waiter list of the semaphore, by its tasks, against the tasks. -/
structure WaitersOk (waiting : List ReqId) (tasks : List Task) : Prop where
  nodup : waiting.Nodup
  task_eq : ∀ r, r ∈ waiting ↔ tasks[r]? = some .semWait

/-- The tasks in the waiter list of the semaphore. -/
def State.waiting (s : State) : List ReqId := s.sem.waiters.map Waiter.task

variable {cfg : Config} {s t : State} {a : Action} {r : ReqId} {queue waiting : List ReqId}
  {tasks : List Task} {old new : Task}

/-! ## Reading the tasks after a change -/

/-- The tasks after one of them changed. -/
theorem getElem?_set_task (h : tasks[r]? = some old) (q : ReqId) :
    (tasks.set r new)[q]? = if q = r then some new else tasks[q]? := by
  rw [List.getElem?_set]
  by_cases hq : q = r
  · rw [if_pos hq.symm, if_pos hq, if_pos (List.getElem?_eq_some_iff.mp h).1]
  · rw [if_neg (Ne.symm hq), if_neg hq]

/-- The tasks after one arrived. -/
theorem getElem?_push_task (tasks : List Task) (new : Task) (q : ReqId) :
    (tasks ++ [new])[q]? = if q = tasks.length then some new else tasks[q]? := by
  by_cases hq : q = tasks.length
  · simp [hq]
  · rw [if_neg hq]
    rcases Nat.lt_or_gt_of_ne hq with hlt | hgt
    · rw [List.getElem?_append_left hlt]
    · have hnew : [new][q - tasks.length]? = none :=
        List.getElem?_eq_none (by simp only [List.length_singleton]; omega)
      rw [List.getElem?_append_right hgt.le, hnew, List.getElem?_eq_none hgt.le]

/-- `_release()` changes no task but the one it grants to, and that one only by the grant. -/
theorem State.release_task (h : 0 < s.active) (q : ReqId) :
    s.release.tasks[q]? = s.tasks[q]? ∨ ∃ e i, s.tasks[q]? = some (.queueWait e i) ∧
      s.release.tasks[q]? = some (.queueWait e.grant i) := by
  rcases State.release_cases h with ⟨-, heq⟩ | ⟨next, rest, -, heq⟩
  · rw [heq]
    exact .inl rfl
  · rw [heq]
    rcases State.grant_cases { s with queue := rest } next with ⟨e, i, htask, hgrant⟩ | ⟨-, hgrant⟩
    · have htask : s.tasks[next]? = some (.queueWait e i) := htask
      rw [hgrant]
      show (s.tasks.set next (.queueWait e.grant i))[q]? = s.tasks[q]? ∨ ∃ e' i',
        s.tasks[q]? = some (.queueWait e' i') ∧
          (s.tasks.set next (.queueWait e.grant i))[q]? = some (.queueWait e'.grant i')
      rw [getElem?_set_task htask]
      -- only the granted task changes
      by_cases hq : q = next
      · exact .inr ⟨e, i, hq ▸ htask, if_pos hq⟩
      · exact .inl (if_neg hq)
    · rw [hgrant]
      exact .inl rfl

/-- `_release()` neither adds nor removes a request. -/
theorem State.release_length (h : 0 < s.active) : s.release.tasks.length = s.tasks.length := by
  apply Nat.le_antisymm
  · by_contra hlt
    rcases State.release_task h s.tasks.length with heq | ⟨e, i, htask, -⟩
    · rw [List.getElem?_eq_none (Nat.le_refl _), List.getElem?_eq_none_iff] at heq
      exact hlt heq
    · simp at htask
  · by_contra hlt
    rcases State.release_task h s.release.tasks.length with heq | ⟨e, i, -, htask⟩
    · rw [List.getElem?_eq_none (Nat.le_refl _), eq_comm, List.getElem?_eq_none_iff] at heq
      exact hlt heq
    · simp at htask

/-! ## The explicit queue -/

namespace QueueOk

/-- Only requests that have arrived are queued. -/
theorem lt_length (h : QueueOk queue tasks) (hr : r ∈ queue) : r < tasks.length := by
  rcases h.queue_task r hr with ⟨e, i, he, -⟩ | he
  · exact (List.getElem?_eq_some_iff.mp he).1
  · exact (List.getElem?_eq_some_iff.mp he).1

/-- A task outside the queue that changes into one that is not waiting ungranted. -/
theorem set_of_ne (h : QueueOk queue tasks) (htask : tasks[r]? = some old)
    (hold : ∀ e i, old = .queueWait e i → e.granted = true) (hold' : old ≠ .ended .cancelled)
    (hnew : ∀ e i, new = .queueWait e i → e.granted = true) : QueueOk queue (tasks.set r new) where
  nodup := h.nodup
  queue_task q hq := by
    -- the task of a queued request waits without a grant, so it is another one
    have hqr : q ≠ r := by
      rintro rfl
      rcases h.queue_task q hq with ⟨e, i, he, hgranted⟩ | he
      · have := hold e i (Option.some.inj (htask.symm.trans he))
        simp [this] at hgranted
      · exact hold' (Option.some.inj (htask.symm.trans he))
    rw [getElem?_set_task htask, if_neg hqr]
    exact h.queue_task q hq
  mem_queue q e i hq hgranted := by
    rw [getElem?_set_task htask] at hq
    split at hq
    · have := hnew e i (Option.some.inj hq)
      simp [this] at hgranted
    · exact h.mem_queue q e i hq hgranted

/-- An interruption of a wait, or its end by a cancellation, leaves the entry where it is. -/
theorem set_interrupt (h : QueueOk queue tasks) {e : QueueEntry} {i j : Interrupt}
    (htask : tasks[r]? = some (.queueWait e i)) : QueueOk queue (tasks.set r (.queueWait e j)) where
  nodup := h.nodup
  queue_task q hq := by
    rw [getElem?_set_task htask]
    by_cases hqr : q = r
    · subst hqr
      rw [if_pos rfl]
      -- an interrupt leaves the entry as it is
      rcases h.queue_task q hq with ⟨e', i', he, hgranted⟩ | he
      · obtain ⟨rfl, -⟩ := Task.queueWait.inj (Option.some.inj (htask.symm.trans he))
        exact .inl ⟨e, j, rfl, hgranted⟩
      · simp [htask] at he
    · rw [if_neg hqr]
      exact h.queue_task q hq
  mem_queue q e' i' hq hgranted := by
    rw [getElem?_set_task htask] at hq
    split at hq
    · next hqr =>
        obtain ⟨rfl, -⟩ := Task.queueWait.inj (Option.some.inj hq)
        exact hqr ▸ h.mem_queue r e i htask hgranted
    · exact h.mem_queue q e' i' hq hgranted

/-- A cancelled wait ends without touching the queue: its entry may stay behind. -/
theorem set_cancelled (h : QueueOk queue tasks) {e : QueueEntry} {i : Interrupt}
    (htask : tasks[r]? = some (.queueWait e i)) :
    QueueOk queue (tasks.set r (.ended .cancelled)) where
  nodup := h.nodup
  queue_task q hq := by
    rw [getElem?_set_task htask]
    by_cases hqr : q = r
    · exact .inr (if_pos hqr)
    · rw [if_neg hqr]
      exact h.queue_task q hq
  mem_queue q e' i' hq hgranted := by
    rw [getElem?_set_task htask] at hq
    split at hq
    · simp at hq
    · exact h.mem_queue q e' i' hq hgranted

/-- An entry leaves the queue together with the wait of its request. -/
theorem erase (h : QueueOk queue tasks) (htask : tasks[r]? = some old)
    (hnew : ∀ e i, new = .queueWait e i → e.granted = true) :
    QueueOk (queue.erase r) (tasks.set r new) where
  nodup := h.nodup.erase r
  queue_task q hq := by
    have hqr := (h.nodup.mem_erase_iff.mp hq).1
    rw [getElem?_set_task htask, if_neg hqr]
    exact h.queue_task q (List.mem_of_mem_erase hq)
  mem_queue q e i hq hgranted := by
    rw [getElem?_set_task htask] at hq
    split at hq
    · have := hnew e i (Option.some.inj hq)
      simp [this] at hgranted
    · next hqr => exact (List.mem_erase_of_ne hqr).mpr (h.mem_queue q e i hq hgranted)

/-- A new request that does not wait. -/
theorem push (h : QueueOk queue tasks) (hnew : ∀ e i, new ≠ .queueWait e i) :
    QueueOk queue (tasks ++ [new]) where
  nodup := h.nodup
  queue_task q hq := by
    rw [getElem?_push_task, if_neg (h.lt_length hq).ne]
    exact h.queue_task q hq
  mem_queue q e i hq hgranted := by
    rw [getElem?_push_task] at hq
    split at hq
    · exact absurd (Option.some.inj hq) (hnew e i)
    · exact h.mem_queue q e i hq hgranted

/-- A new request joins the queue at its end. -/
theorem enqueue (h : QueueOk queue tasks) :
    QueueOk (queue ++ [tasks.length]) (tasks ++ [.queueWait {} .none]) where
  nodup := by
    rw [← List.concat_eq_append]
    exact List.Nodup.concat (fun hmem => (h.lt_length hmem).ne rfl) h.nodup
  queue_task q hq := by
    rw [getElem?_push_task]
    by_cases hlt : q = tasks.length
    · exact .inl ⟨{}, .none, if_pos hlt, rfl⟩
    · rw [if_neg hlt]
      refine h.queue_task q ((List.mem_append.mp hq).resolve_right ?_)
      simpa using hlt
  mem_queue q e i hq hgranted := by
    rw [getElem?_push_task] at hq
    split at hq
    · next hlt => simp [hlt]
    · exact List.mem_append_left _ (h.mem_queue q e i hq hgranted)

/-- The entry of a request that is gone leaves the queue. -/
theorem pop_stray {next : ReqId} {rest : List ReqId} (h : QueueOk (next :: rest) tasks)
    (hnot : ∀ e i, tasks[next]? ≠ some (.queueWait e i)) : QueueOk rest tasks where
  nodup := h.nodup.of_cons
  queue_task q hq := h.queue_task q (List.mem_cons_of_mem _ hq)
  mem_queue q e i hq hgranted := by
    rcases List.mem_cons.mp (h.mem_queue q e i hq hgranted) with rfl | hmem
    · exact absurd hq (hnot e i)
    · exact hmem

end QueueOk

/-! ## The waiters of the semaphore -/

namespace WaitersOk

/-- A change between two task states that both do not wait for the semaphore. -/
theorem set (h : WaitersOk waiting tasks) (htask : tasks[r]? = some old) (hold : old ≠ .semWait)
    (hnew : new ≠ .semWait) : WaitersOk waiting (tasks.set r new) where
  nodup := h.nodup
  task_eq q := by
    rw [h.task_eq q, getElem?_set_task htask]
    by_cases hqr : q = r
    · subst hqr
      simp [htask, hold, hnew]
    · rw [if_neg hqr]

/-- A new task that does not wait. -/
theorem push (h : WaitersOk waiting tasks) (hnew : new ≠ .semWait) :
    WaitersOk waiting (tasks ++ [new]) where
  nodup := h.nodup
  task_eq q := by
    rw [h.task_eq q, getElem?_push_task]
    by_cases hq : q = tasks.length
    · subst hq
      simp [hnew]
    · rw [if_neg hq]

/-- A task that begins to wait. -/
theorem append (h : WaitersOk waiting tasks) (htask : tasks[r]? = some old)
    (hold : old ≠ .semWait) :
    WaitersOk (waiting ++ [r]) (tasks.set r .semWait) where
  nodup := by
    rw [← List.concat_eq_append]
    refine List.Nodup.concat (fun hmem => ?_) h.nodup
    exact hold (Option.some.inj (htask.symm.trans ((h.task_eq r).mp hmem)))
  task_eq q := by
    rw [getElem?_set_task htask, List.mem_append, List.mem_singleton, h.task_eq q]
    by_cases hqr : q = r <;> simp [hqr]

/-- A task that stops waiting. -/
theorem erase (h : WaitersOk waiting tasks) (htask : tasks[r]? = some old) (hnew : new ≠ .semWait) :
    WaitersOk (waiting.erase r) (tasks.set r new) where
  nodup := h.nodup.erase r
  task_eq q := by
    rw [h.nodup.mem_erase_iff, h.task_eq q, getElem?_set_task htask]
    by_cases hqr : q = r
    · simp [hqr, hnew]
    · simp [hqr]

end WaitersOk

/-! ## All runs -/

/-- Both queues agree with the tasks. -/
structure QueuesOk (s : State) : Prop where
  queue : QueueOk s.queue s.tasks
  waiters : WaitersOk s.waiting s.tasks

/-- Nobody waits at the beginning. -/
theorem QueuesOk.init (cfg : Config) : QueuesOk (init cfg) where
  queue := ⟨List.nodup_nil, by simp [Admission.init], by simp [Admission.init]⟩
  waiters := ⟨List.nodup_nil, by simp [Admission.init, State.waiting]⟩

/-- A grant takes the head of the queue out of it. -/
theorem QueuesOk.grant {next : ReqId} {rest : List ReqId} (hqueue : QueueOk (next :: rest) s.tasks)
    (hwaiters : WaitersOk waiting s.tasks) :
    QueueOk rest (s.grant next).tasks ∧ WaitersOk waiting (s.grant next).tasks := by
  rcases State.grant_cases s next with ⟨e, i, htask, heq⟩ | ⟨hnot, heq⟩
  · rw [heq]
    refine ⟨?_, hwaiters.set htask (by simp) (by simp)⟩
    have hset : ∀ e' i', Task.queueWait e.grant i = .queueWait e' i' → e'.granted = true := by
      rintro e' i' heq
      rw [← (Task.queueWait.inj heq).1]
      rfl
    simpa using hqueue.erase htask hset
  · rw [heq]
    exact ⟨hqueue.pop_stray hnot, hwaiters⟩

/-- `_release()` with a running body. -/
theorem QueuesOk.release (h : QueuesOk s) (hpos : 0 < s.active) : QueuesOk s.release := by
  obtain ⟨hqueue, hwaiters⟩ := h
  have htasks : s.sem.release.waiters.map Waiter.task = s.waiting := Semaphore.release_tasks s.sem
  rcases State.release_cases hpos with ⟨hempty, heq⟩ | ⟨next, rest, hq, heq⟩
  · rw [heq]
    exact ⟨hqueue, by rw [State.waiting, htasks]; exact hwaiters⟩
  · rw [heq]
    rw [hq] at hqueue
    -- the head leaves the queue with its grant
    have hgrant : QueueOk rest (State.grant { s with queue := rest } next).tasks ∧
        WaitersOk s.waiting (State.grant { s with queue := rest } next).tasks :=
      QueuesOk.grant (s := { s with queue := rest }) hqueue hwaiters
    refine ⟨?_, ?_⟩
    · show QueueOk (State.grant { s with queue := rest } next).queue _
      rw [(State.grant_frame { s with queue := rest } next).2.1]
      exact hgrant.1
    · rw [State.waiting, htasks]
      exact hgrant.2

/-- Every step keeps both queues in order. -/
theorem QueuesOk.move (h : QueuesOk s) (hslots : Slots cfg s) (hmove : Move cfg s a t) :
    QueuesOk t := by
  obtain ⟨hqueue, hwaiters⟩ := h
  cases hmove with
  | reject => exact ⟨hqueue.push (by simp), hwaiters.push (by simp)⟩
  | enqueue => exact ⟨hqueue.enqueue, hwaiters.push (by simp)⟩
  | fast => exact ⟨hqueue.push (by simp), hwaiters.push (by simp)⟩
  | timer htask => exact ⟨hqueue.set_interrupt htask, hwaiters.set htask (by simp) (by simp)⟩
  | cancelIgnored => exact ⟨hqueue, hwaiters⟩
  | cancelQueue htask => exact ⟨hqueue.set_interrupt htask, hwaiters.set htask (by simp) (by simp)⟩
  | @cancelSem r htask =>
      refine ⟨hqueue, ?_⟩
      rw [State.waiting, (Semaphore.cancelTask_spec s.sem r).2.2.2]
      exact hwaiters
  | leave htask ha =>
      -- Leaving is two changes: the task ends, and `_release()` grants the slot it held.
      refine QueuesOk.release ⟨?_, hwaiters.set htask (by simp) (by simp)⟩
        (hslots.active_pos_of_body htask)
      exact hqueue.set_of_ne htask (by simp) (by simp) (by simp)
  | resumeCancelled htask =>
      exact ⟨hqueue.set_cancelled htask, hwaiters.set htask (by simp) (by simp)⟩
  | resumeTimeout htask =>
      exact ⟨hqueue.erase htask (by simp), hwaiters.set htask (by simp) (by simp)⟩
  | resumeEnter htask hset hfree =>
      refine ⟨hqueue.set_of_ne htask ?_ (by simp) (by simp), hwaiters.set htask (by simp) (by simp)⟩
      rintro e i heq
      exact (Task.queueWait.inj heq).1 ▸ hset
  | resumeBlock htask hset hlocked =>
      refine ⟨hqueue.set_of_ne htask ?_ (by simp) (by simp), ?_⟩
      · rintro e i heq
        exact (Task.queueWait.inj heq).1 ▸ hset
      · have happend := hwaiters.append htask (by simp)
        simpa [State.waiting] using happend
  | semEnter htask hres =>
      refine ⟨hqueue.set_of_ne htask (by simp) (by simp) (by simp), ?_⟩
      have herase : WaitersOk (s.waiting.erase _) (s.tasks.set _ .body) :=
        hwaiters.erase htask (by simp)
      rw [State.waiting, ← Semaphore.resume_tasks hres] at herase
      exact herase
  | semCancelled htask hres =>
      refine ⟨hqueue.set_of_ne htask (by simp) (by simp) (by simp), ?_⟩
      have herase : WaitersOk (s.waiting.erase _) (s.tasks.set _ (.ended .cancelled)) :=
        hwaiters.erase htask (by simp)
      rw [State.waiting, ← Semaphore.resume_tasks hres] at herase
      exact herase

/-- Both queues agree with the tasks in every state of every run. -/
theorem Reachable.queues {guard : State → Action → Prop} (h : Reachable cfg guard s) :
    QueuesOk s := by
  have hboth := Reach.invariant (I := fun s => Slots cfg s ∧ QueuesOk s) h
    ⟨Slots.init cfg, QueuesOk.init cfg⟩ fun _ _ _ ⟨hs, hq⟩ _ hstep =>
      ⟨hs.move (move_of_step hstep), hq.move hs (move_of_step hstep)⟩
  exact hboth.2

end SynGateway.Core.Admission

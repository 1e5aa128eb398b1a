import SynGateway.Core.Admission.Queues

/-!
# Work conservation of the admission controller

When no task is runnable and somebody is queued, all slots should be busy. Two races break this. A
waiter whose timer has fired and whose entry a release then pops fails with `QueueTimeoutError`, and
the slot it was granted goes to nobody. And an arrival can be queued while a slot is free, because
`locked()` stays true until a woken semaphore waiter has resumed.

Both are the same loss: a free slot beside a queued waiter with no waiter on its way to it.
`reserved` counts the waiters on their way, granted ones and those pending on the semaphore, and
`GrantKept` says of a step that it leaves a reservation for every free slot. On runs whose steps all
do, the controller is work conserving.
-/

namespace SynGateway.Core.Admission

open SynGateway.Asyncio SynGateway.Transition SynGateway.Counting

/-- No suspended request is runnable: what is left to happen is an arrival, a timer or a body. -/
def Quiescent (cfg : Config) (s : State) : Prop := ∀ r, step cfg s (.resume r) = none

/-- Waiters on their way to a slot: granted ones that have not resumed, and pending ones on the
semaphore. -/
def State.reserved (s : State) : ℕ := s.granted + s.sem.pending

/-- Some queued request still waits: nothing has interrupted it. -/
def AnyWaiting (queue : List ReqId) (tasks : List Task) : Prop :=
  ∃ q ∈ queue, ∃ e, tasks[q]? = some (.queueWait e .none)

/-- The step is no cancellation from outside; a granted waiter that fails with `QueueTimeoutError`
leaves nobody waiting in the queue or a reservation for every free slot; and an arrival that joins
the queue finds one for every free slot. -/
def GrantKept (cfg : Config) (s : State) : Action → Prop
  | .cancel _ => False
  | .resume r => ∀ e, s.tasks[r]? = some (.queueWait e .timeout) → e.granted = true →
      AnyWaiting s.queue s.tasks → s.sem.value < s.reserved
  | .arrive => s.sem.locked = true ∨ s.queue ≠ [] → s.queue.length < cfg.maxQueue →
      s.sem.value ≤ s.reserved
  | _ => True

/-- The step is no cancellation from outside. -/
def NoCancel (_ : State) : Action → Prop
  | .cancel _ => False
  | _ => True

variable {cfg : Config} {s t : State} {a : Action} {r : ReqId} {queue queue' : List ReqId}
  {tasks : List Task} {old new : Task}

instance AnyWaiting.decidable : Decidable (AnyWaiting queue tasks) :=
  decidable_of_iff (∃ q ∈ queue, tasks[q]?.any Task.isWaiting = true) <|
    exists_congr fun q => and_congr_right fun _ => by
      constructor
      · intro h
        obtain ⟨task, htask, hwait⟩ := (Option.any_eq_true _ _).mp h
        cases task with
        | queueWait e i =>
            cases i with
            | none => exact ⟨e, htask⟩
            | timeout | cancel => simp at hwait
        | semWait | body | ended => simp at hwait
      · rintro ⟨e, htask⟩
        simp [htask]

instance NoCancel.decidable (s : State) : (a : Action) → Decidable (NoCancel s a)
  | .cancel _ => inferInstanceAs (Decidable False)
  | .arrive | .timer _ | .resume _ | .finish _ => inferInstanceAs (Decidable True)

instance GrantKept.decidable (cfg : Config) (s : State) :
    (a : Action) → Decidable (GrantKept cfg s a)
  | .cancel _ => inferInstanceAs (Decidable False)
  | .timer _ | .finish _ => inferInstanceAs (Decidable True)
  | .arrive => inferInstanceAs (Decidable (_ ∨ _ → _ → _))
  | .resume r =>
    match h : s.tasks[r]? with
    | some (.queueWait e .timeout) =>
      decidable_of_iff (e.granted = true → AnyWaiting s.queue s.tasks → s.sem.value < s.reserved)
        ⟨fun hall e' h' => by
          obtain ⟨rfl, -⟩ := Task.queueWait.inj (Option.some.inj (h.symm.trans h'))
          exact hall, fun hall => hall e h⟩
    | some (.queueWait _ .none) | some (.queueWait _ .cancel) | some .semWait | some .body
    | some (.ended _) | none => isTrue fun e h' => by simp [h'] at h

/-! ## Who still waits after a step -/

/-- Replacing a task by one that does not wait, or one outside the queue, adds nobody who waits. -/
theorem AnyWaiting.of_set (h : AnyWaiting queue' (tasks.set r new)) (htask : tasks[r]? = some old)
    (hsub : ∀ q ∈ queue', q ∈ queue) (hnew : r ∉ queue' ∨ ∀ e, new ≠ .queueWait e .none) :
    AnyWaiting queue tasks := by
  obtain ⟨q, hq, e, he⟩ := h
  rw [getElem?_set_task htask] at he
  split at he
  · next hqr =>
      subst hqr
      rcases hnew with hnew | hnew
      · exact absurd hq hnew
      · exact absurd (Option.some.inj he) (hnew e)
  · exact ⟨q, hsub q hq, e, he⟩

/-- A new task that does not wait is not the one that waits. -/
theorem AnyWaiting.of_push (h : AnyWaiting queue (tasks ++ [new]))
    (hnew : ∀ e, new ≠ .queueWait e .none) : AnyWaiting queue tasks := by
  obtain ⟨q, hq, e, he⟩ := h
  rw [getElem?_push_task] at he
  split at he
  · exact absurd (Option.some.inj he) (hnew e)
  · exact ⟨q, hq, e, he⟩

/-! ## Runs without cancellations -/

/-- Nobody was cancelled. -/
structure NoCancels (s : State) : Prop where
  tasks : ∀ task ∈ s.tasks, (∀ e, task ≠ .queueWait e .cancel) ∧ task ≠ .ended .cancelled
  sem : s.sem.Uncancelled

/-- A task that changes without being cancelled. -/
theorem NoCancels.set (h : NoCancels s) (r : ReqId) (hnew : ∀ e, new ≠ .queueWait e .cancel)
    (hnew' : new ≠ .ended .cancelled) : ∀ task ∈ s.tasks.set r new,
      (∀ e, task ≠ .queueWait e .cancel) ∧ task ≠ .ended .cancelled := by
  intro task hmem
  rcases List.mem_or_eq_of_mem_set hmem with hmem | rfl
  · exact h.tasks task hmem
  · exact ⟨hnew, hnew'⟩

/-- A new task is not cancelled. -/
theorem NoCancels.push (h : NoCancels s) (hnew : ∀ e, new ≠ .queueWait e .cancel)
    (hnew' : new ≠ .ended .cancelled) : ∀ task ∈ s.tasks ++ [new],
      (∀ e, task ≠ .queueWait e .cancel) ∧ task ≠ .ended .cancelled := by
  intro task hmem
  rcases List.mem_append.mp hmem with hmem | hmem
  · exact h.tasks task hmem
  · obtain rfl := List.mem_singleton.mp hmem
    exact ⟨hnew, hnew'⟩

/-- The interruption of a wait is not a cancellation. -/
theorem NoCancels.interrupt_ne (h : NoCancels s) {e : QueueEntry} {i : Interrupt}
    (htask : s.tasks[r]? = some (.queueWait e i)) : i ≠ .cancel := by
  rintro rfl
  exact (h.tasks _ (List.mem_of_getElem? htask)).1 e rfl

/-- Without cancellations every queued entry is the ungranted wait of its request. -/
theorem NoCancels.queue_task (h : NoCancels s) (hqueues : QueuesOk s) (hr : r ∈ s.queue) :
    ∃ e i, s.tasks[r]? = some (.queueWait e i) ∧ e.granted = false := by
  rcases hqueues.queue.queue_task r hr with hwait | hended
  · exact hwait
  · exact absurd rfl (h.tasks _ (List.mem_of_getElem? hended)).2

/-- A grant leaves nobody cancelled. -/
theorem NoCancels.grant (h : NoCancels s) (n : ReqId) : NoCancels (s.grant n) := by
  rcases State.grant_cases s n with ⟨e, i, htask, heq⟩ | ⟨-, heq⟩
  · rw [heq]
    refine ⟨h.set n ?_ (by simp), h.sem⟩
    rintro e' heq
    exact h.interrupt_ne htask (Task.queueWait.inj heq).2
  · rw [heq]
    exact h

/-- `_release` cancels nobody. -/
theorem NoCancels.release (h : NoCancels s) (hpos : 0 < s.active) : NoCancels s.release := by
  rcases State.release_cases hpos with ⟨-, heq⟩ | ⟨next, rest, -, heq⟩
  · rw [heq]
    exact ⟨h.tasks, h.sem.release⟩
  · rw [heq]
    have hrest : NoCancels { s with queue := rest } := ⟨h.tasks, h.sem⟩
    exact ⟨(hrest.grant next).tasks, h.sem.release⟩

/-- A step that is no cancellation cancels nobody. -/
theorem NoCancels.move (h : NoCancels s) (hslots : Slots cfg s) (hact : ∀ r, a ≠ .cancel r)
    (hmove : Move cfg s a t) : NoCancels t := by
  cases hmove with
  | reject => exact ⟨h.push (by simp) (by simp), h.sem⟩
  | enqueue => exact ⟨h.push (by simp) (by simp), h.sem⟩
  | fast => exact ⟨h.push (by simp) (by simp), h.sem⟩
  | timer => exact ⟨h.set _ (by simp) (by simp), h.sem⟩
  | cancelIgnored | cancelQueue | cancelSem => exact absurd rfl (hact _)
  | @leave r _ how htask ha =>
      -- the run has no cancellation, so the request leaves by finishing
      obtain ⟨-, rfl⟩ : a = .finish r ∧ how = .finished := ha.resolve_right fun h => hact r h.1
      have hset : NoCancels (s.setTask r (.ended .finished)) :=
        ⟨h.set r (by simp) (by simp), h.sem⟩
      exact hset.release (hslots.active_pos_of_body htask)
  | resumeCancelled htask => exact absurd rfl (h.interrupt_ne htask)
  | resumeTimeout => exact ⟨h.set _ (by simp) (by simp), h.sem⟩
  | resumeEnter => exact ⟨h.set _ (by simp) (by simp), h.sem⟩
  | resumeBlock => exact ⟨h.set _ (by simp) (by simp), h.sem.append _⟩
  | semEnter htask hres => exact ⟨h.set _ (by simp) (by simp), (h.sem.resume hres).1⟩
  | semCancelled htask hres => exact absurd (h.sem.resume hres).2 (by simp)

/-! ## Every free slot beside a waiter is reserved -/

/-- The invariant of runs that keep their grants. -/
structure Reserved (s : State) : Prop where
  free : AnyWaiting s.queue s.tasks → s.sem.value ≤ s.reserved
  woken : 0 < s.sem.pending → 0 < s.sem.value → 0 < s.sem.handed

/-- A step that touches no slot, no grant and no waiter of the semaphore. -/
theorem Reserved.idle (h : Reserved s) (hsem : t.sem = s.sem) (hgranted : t.granted = s.granted)
    (hwait : AnyWaiting t.queue t.tasks → AnyWaiting s.queue s.tasks) : Reserved t where
  free hany := by
    rw [State.reserved, hsem, hgranted]
    exact h.free (hwait hany)
  woken := by
    rw [hsem]
    exact h.woken

/-- `_release()` reserves the slot it frees for the waiter it grants it to. -/
theorem Reserved.release (h : Reserved s) (hqueues : QueuesOk s) (hcancels : NoCancels s)
    (hpos : 0 < s.active) : Reserved s.release := by
  obtain ⟨hnobody, hsomebody⟩ := Semaphore.release_spec s.sem
  have hwoken : 0 < s.sem.release.pending → 0 < s.sem.release.value → 0 < s.sem.release.handed := by
    intro hpend
    rcases Nat.eq_zero_or_pos s.sem.pending with hzero | hpos
    · rw [hnobody hzero] at hpend
      have hpend : 0 < s.sem.pending := hpend
      omega
    · obtain ⟨-, hhanded, -⟩ := hsomebody hpos
      omega
  -- With nobody queued the slot may stay free; else the grant reserves it.
  rcases State.release_cases hpos with ⟨hempty, heq⟩ | ⟨next, rest, hq, heq⟩
  · rw [heq]
    refine ⟨?_, hwoken⟩
    rintro ⟨q, hmem, -⟩
    rw [hempty] at hmem
    simp at hmem
  · have hnext : next ∈ s.queue := by simp [hq]
    obtain ⟨e, i, htask, hungranted⟩ := hcancels.queue_task hqueues hnext
    have hgrant : State.grant { s with queue := rest } next
        = State.setTask { s with queue := rest } next (.queueWait e.grant i) := by
      simp [State.grant, htask]
    rw [heq, hgrant]
    refine ⟨?_, hwoken⟩
    intro hany
    have hwait : AnyWaiting s.queue s.tasks := by
      refine hany.of_set htask (fun q hmem => hq ▸ List.mem_cons_of_mem _ hmem) (.inl ?_)
      have hnodup := hqueues.queue.nodup
      rw [hq] at hnodup
      exact (List.nodup_cons.mp hnodup).1
    have hbefore := h.free hwait
    have hcount : (s.tasks.set next (.queueWait e.grant i)).countP Task.isGranted = s.granted + 1 :=
      countP_set_of_gain htask hungranted rfl
    have hunfold : s.reserved = s.granted + s.sem.pending := rfl
    show s.sem.release.value
      ≤ (s.tasks.set next (.queueWait e.grant i)).countP Task.isGranted + s.sem.release.pending
    rcases Nat.eq_zero_or_pos s.sem.pending with hzero | hpos
    · rw [hnobody hzero, hcount]
      show s.sem.value + 1 ≤ s.granted + 1 + s.sem.pending
      omega
    · obtain ⟨hvalue, -, hpend⟩ := hsomebody hpos
      omega

/-- A waiter that times out gives up its grant only if that leaves a reservation for every free
slot. -/
theorem Reserved.timeout {e : QueueEntry} (h : Reserved s)
    (htask : s.tasks[r]? = some (.queueWait e .timeout))
    (hguard : e.granted = true → AnyWaiting s.queue s.tasks → s.sem.value < s.reserved) :
    Reserved { s.setTask r (.ended .queueTimeout) with queue := s.queue.erase r } := by
  refine ⟨fun hany => ?_, h.woken⟩
  have hunfold : s.reserved = s.granted + s.sem.pending := rfl
  have hwait : AnyWaiting s.queue s.tasks :=
    hany.of_set htask (fun _ hq => List.mem_of_mem_erase hq) (.inr (by simp))
  have hbefore := h.free hwait
  show s.sem.value ≤ (s.tasks.set r (.ended .queueTimeout)).countP Task.isGranted + s.sem.pending
  cases hgranted : e.granted with
  | false =>
      have hcount : (s.tasks.set r (.ended .queueTimeout)).countP Task.isGranted = s.granted :=
        countP_set_of_eq htask hgranted
      omega
  -- the grant is lost with the task: the guard says that enough others are left
  | true =>
      have hcount : (s.tasks.set r (.ended .queueTimeout)).countP Task.isGranted + 1
          = s.granted := countP_set_of_loss htask hgranted rfl
      have hlost := hguard hgranted hwait
      omega

/-- A granted waiter that waits for the semaphore takes its reservation along. -/
theorem Reserved.block {e : QueueEntry} (h : Reserved s)
    (htask : s.tasks[r]? = some (.queueWait e .none)) (hset : e.granted = true)
    (hlocked : s.sem.locked = true) :
    Reserved (State.setTask
        { s with sem := { s.sem with waiters := s.sem.waiters ++ [{ task := r }] } } r
      .semWait) := by
  have hunfold : s.reserved = s.granted + s.sem.pending := rfl
  have hcount : (s.tasks.set r .semWait).countP Task.isGranted + 1 = s.granted :=
    countP_set_of_loss htask hset rfl
  have hpend : Semaphore.pending ⟨s.sem.value, s.sem.waiters ++ [{ task := r }]⟩
      = s.sem.pending + 1 := by simp [Semaphore.pending]
  have hhanded : Semaphore.handed ⟨s.sem.value, s.sem.waiters ++ [{ task := r }]⟩
      = s.sem.handed := by simp [Semaphore.handed]
  refine ⟨fun hany => ?_, fun _ hpos => ?_⟩
  · have hbefore := h.free (hany.of_set htask (fun _ hq => hq) (.inr (by simp)))
    show s.sem.value ≤ (s.tasks.set r .semWait).countP Task.isGranted
      + Semaphore.pending ⟨s.sem.value, s.sem.waiters ++ [{ task := r }]⟩
    omega
  · show 0 < Semaphore.handed ⟨s.sem.value, s.sem.waiters ++ [{ task := r }]⟩
    rw [hhanded]
    have hvalue : 0 < s.sem.value := hpos
    -- locked with a free unit: somebody holds or awaits one, and then somebody holds one
    have hwaiters := (Semaphore.value_of_locked hlocked).resolve_left hvalue.ne'
    by_cases hzero : s.sem.pending = 0
    · omega
    · exact h.woken (by omega) hvalue

/-- A step within the guard keeps a reservation for every free slot beside a waiter. -/
theorem Reserved.move (h : Reserved s) (hslots : Slots cfg s) (hqueues : QueuesOk s)
    (hcancels : NoCancels s) (hguard : GrantKept cfg s a) (hmove : Move cfg s a t) :
    Reserved t := by
  have hself : ∀ q ∈ s.queue, q ∈ s.queue := fun _ hq => hq
  have hunfold : s.reserved = s.granted + s.sem.pending := rfl
  cases hmove with
  | reject =>
      refine h.idle rfl ?_ fun hany => hany.of_push (by simp)
      simp [State.granted]
  | enqueue hbusy hroom =>
      refine ⟨fun _ => ?_, h.woken⟩
      -- the guard: whoever queues finds every free unit reserved
      have hfree := hguard hbusy hroom
      have hgranted : (s.tasks ++ [Task.queueWait {} .none]).countP Task.isGranted = s.granted := by
        simp [State.granted]
      show s.sem.value ≤ (s.tasks ++ [Task.queueWait {} .none]).countP Task.isGranted +
        s.sem.pending
      omega
  | fast hfree hempty =>
      have hpend := (Semaphore.no_waiters_of_not_locked hfree).2
      refine ⟨?_, fun hpos => absurd hpos (by simpa [Semaphore.pending] using hpend)⟩
      rintro ⟨q, hmem, -⟩
      simp [hempty] at hmem
  | timer htask =>
      exact h.idle rfl (countP_set_of_eq htask rfl) fun hany =>
        hany.of_set htask hself (.inr (by simp))
  | cancelIgnored | cancelQueue | cancelSem => exact hguard.elim
  | @leave r _ how htask ha =>
      have hset : Reserved (s.setTask r (.ended how)) :=
        h.idle rfl (countP_set_of_eq htask rfl) fun hany =>
          hany.of_set htask hself (.inr (by simp))
      obtain ⟨-, rfl⟩ : a = .finish r ∧ how = .finished := ha.resolve_right fun hcan => by
        rw [hcan.1] at hguard
        exact hguard
      exact hset.release
        ⟨hqueues.queue.set_of_ne htask (by simp) (by simp) (by simp),
          hqueues.waiters.set htask (by simp) (by simp)⟩
        ⟨hcancels.set r (by simp) (by simp), hcancels.sem⟩ (hslots.active_pos_of_body htask)
  | resumeCancelled htask => exact absurd rfl (hcancels.interrupt_ne htask)
  | resumeTimeout htask => exact h.timeout htask (hguard _ htask)
  | @resumeEnter r e htask hset hfree =>
      obtain ⟨hvalue, -⟩ := Semaphore.locked_eq_false.mp hfree
      have hpend := (Semaphore.no_waiters_of_not_locked hfree).2
      -- an open semaphore has no woken waiter, and the grant takes its own unit along
      refine ⟨fun hany => ?_, fun hpos => absurd hpos (by simpa [Semaphore.pending] using hpend)⟩
      have hbefore := h.free (hany.of_set htask hself (.inr (by simp)))
      have hcount : (s.tasks.set r .body).countP Task.isGranted + 1 = s.granted :=
        countP_set_of_loss htask hset rfl
      show s.sem.value - 1 ≤ (s.tasks.set r .body).countP Task.isGranted + s.sem.pending
      omega
  | resumeBlock htask hset hlocked => exact h.block htask hset hlocked
  | @semEnter r sem htask hres =>
      obtain ⟨hunits, hsum, hstop⟩ := Semaphore.resume_spec hres
      have hsum := hsum rfl
      have hunits : sem.units + 1 = s.sem.units := by simpa using hunits
      have hsem : sem.units = sem.value + sem.handed := rfl
      have hsem' : s.sem.units = s.sem.value + s.sem.handed := rfl
      have hcount : (s.tasks.set r .body).countP Task.isGranted = s.granted :=
        countP_set_of_eq htask rfl
      refine ⟨fun hany => ?_, fun hpend hvalue => ?_⟩
      · have hbefore := h.free (hany.of_set htask hself (.inr (by simp)))
        show sem.value ≤ (s.tasks.set r .body).countP Task.isGranted + sem.pending
        omega
      · -- a waiter that resumes leaves no free unit beside another woken one
        rcases hstop with hzero | hzero
        · exact absurd hvalue (by simp [State.enter, State.setTask, hzero])
        · exact absurd hpend (by simp [State.enter, State.setTask, hzero])
  | semCancelled htask hres => exact absurd (hcancels.sem.resume hres).2 (by simp)

/-! ## Quiescent states -/

/-- A granted waiter is runnable. -/
theorem Quiescent.granted_eq_zero (h : Quiescent cfg s) : s.granted = 0 := by
  refine List.countP_eq_zero.mpr fun task hmem => ?_
  obtain ⟨r, hr⟩ := List.mem_iff_getElem?.mp hmem
  have hrun : resume s r = none := h r
  cases task with
  | queueWait e i =>
      intro hgranted
      have hevent : e.event = true := e.granted_eq_event ▸ hgranted
      have hset : e.granted = true := hgranted
      cases i <;> simp [resume, hr, hevent, hset] at hrun
  | semWait | body | ended => simp

/-- A woken semaphore waiter is runnable. -/
theorem Quiescent.handed_eq_zero (h : Quiescent cfg s) (hqueues : QueuesOk s) :
    s.sem.handed = 0 := by
  refine List.countP_eq_zero.mpr fun w hmem => ?_
  intro hdone
  have hfut : w.fut ≠ .pending := by
    rw [of_decide_eq_true hdone]
    simp
  have hsome := Semaphore.resume_isSome hqueues.waiters.nodup hmem hfut
  have htask := (hqueues.waiters.task_eq w.task).mp (List.mem_map_of_mem hmem)
  have hrun : resume s w.task = none := h w.task
  obtain ⟨⟨sem, ok⟩, hres⟩ := Option.isSome_iff_exists.mp hsome
  cases ok <;> simp [resume, htask, hres] at hrun

/-- In a quiescent state with somebody queued, somebody waits uninterrupted. -/
theorem Quiescent.anyWaiting (h : Quiescent cfg s) (hqueues : QueuesOk s) (hcancels : NoCancels s)
    (hqueue : s.queue ≠ []) : AnyWaiting s.queue s.tasks := by
  obtain ⟨r, hr⟩ := List.exists_mem_of_ne_nil _ hqueue
  obtain ⟨e, i, htask, -⟩ := hcancels.queue_task hqueues hr
  have hrun : resume s r = none := h r
  cases i with
  | none => exact ⟨r, hr, e, htask⟩
  | timeout => simp [resume, htask] at hrun
  | cancel => exact absurd rfl (hcancels.interrupt_ne htask)

/-! ## The law -/

/-- Runs that keep their grants keep a reservation for every free slot. -/
theorem Reachable.reserved (h : Reachable cfg (GrantKept cfg) s) : NoCancels s ∧ Reserved s := by
  have hall := Reach.invariant
    (I := fun s => (NoCancels s ∧ Reserved s) ∧ Slots cfg s ∧ QueuesOk s) h
    ⟨⟨⟨by simp [init], by simp [Semaphore.Uncancelled, init]⟩, ⟨by simp [AnyWaiting, init],
      by simp [init, Semaphore.pending]⟩⟩, Slots.init cfg, QueuesOk.init cfg⟩
    fun s a _ ⟨⟨hc, hr⟩, hs, hq⟩ hguard hstep =>
      have hmove := move_of_step hstep
      have hact : ∀ r, a ≠ .cancel r := by
        rintro r rfl
        exact hguard
      ⟨⟨hc.move hs hact hmove, hr.move hs hq hc hguard hmove⟩, hs.move hmove, hq.move hs hmove⟩
  exact hall.1

/-- **Work conservation.** In every run whose steps all keep their grants: when only arrivals,
timers and bodies are left to happen and somebody is queued, all slots are busy. -/
theorem work_conservation (h : Reachable cfg (GrantKept cfg) s) (hquiet : Quiescent cfg s)
    (hqueue : s.queue ≠ []) : s.inBody = cfg.maxActive := by
  obtain ⟨hcancels, hfree, hwoken⟩ := h.reserved
  have hgranted := hquiet.granted_eq_zero
  have hhanded := hquiet.handed_eq_zero h.queues
  have hvalue := hfree (hquiet.anyWaiting h.queues hcancels hqueue)
  have hunits := h.slots.units_eq
  have hunfold : s.sem.units = s.sem.value + s.sem.handed := rfl
  have hreserved : s.reserved = s.granted + s.sem.pending := rfl
  by_cases hpos : 0 < s.sem.value
  · have hpend : 0 < s.sem.pending := by omega
    have := hwoken hpend hpos
    omega
  · omega

/-- Only the requests that have arrived can be runnable. -/
theorem quiescent_of_lt (h : ∀ r < s.tasks.length, (resume s r).isNone = true) :
    Quiescent cfg s := by
  intro r
  by_cases hr : r < s.tasks.length
  · exact Option.isNone_iff_eq_none.mp (h r hr)
  · have hnone : s.tasks[r]? = none := List.getElem?_eq_none (Nat.le_of_not_lt hr)
    simp [step, resume, hnone]

/-- The law at a run in which the first of two queued requests times out while the slot is busy. -/
theorem work_conservation_after_timeout :
    ∃ s, Quiescent ⟨1, 2, 1, true⟩ s ∧ s.queue = [2] ∧ s.inBody = 1 := by
  obtain ⟨s, hreach, hquiet, hqueue⟩ := Reach.exists_of_run (step ⟨1, 2, 1, true⟩)
    (GrantKept ⟨1, 2, 1, true⟩) (init ⟨1, 2, 1, true⟩)
    [.arrive, .arrive, .arrive, .timer 1, .resume 1]
    (fun s => (∀ r < s.tasks.length, (resume s r).isNone = true) ∧ s.queue = [2])
    (by decide) (by decide)
  exact ⟨s, quiescent_of_lt hquiet, hqueue,
    work_conservation hreach (quiescent_of_lt hquiet) (by simp [hqueue])⟩

/-- One slot, two requests queued. The timer of the first fires, the running body ends and grants it
the slot, and then it fails: the second stays queued beside a free slot with nothing left to run. -/
theorem work_conservation_fails :
    ¬ ∀ (cfg : Config) (s : State), 1 ≤ cfg.maxActive → Reachable cfg NoCancel s →
      Quiescent cfg s → s.queue ≠ [] → s.inBody = cfg.maxActive := by
  intro hclaim
  obtain ⟨s, hreach, hquiet, hqueue, hbody⟩ := Reach.exists_of_run (step ⟨1, 2, 1, true⟩)
    NoCancel (init ⟨1, 2, 1, true⟩)
    [.arrive, .arrive, .arrive, .timer 1, .finish 0, .resume 1]
    (fun s => (∀ r < s.tasks.length, (resume s r).isNone = true) ∧ s.queue = [2] ∧ s.inBody = 0)
    (by decide) (by decide)
  have hbusy := hclaim _ s (by decide) hreach (quiescent_of_lt hquiet) (by simp [hqueue])
  simp [hbody] at hbusy

end SynGateway.Core.Admission

import SynGateway.Core.Admission.Handover

/-!
# The queue timeout

The controller on a discrete clock. `wait_for` arms its timer when a request arrives and is queued;
the timer fires when it is due, and the clock advances only when no due timer and no runnable task
is left. The second wait, on the semaphore, has no timer: a granted request that finds its unit
taken by a newcomer stays there as long as the newcomers like. While newcomers leave the claimed
units alone nobody gets there, and every request that enters its body does so within
`queue_timeout_seconds` of its arrival.
-/

namespace SynGateway.Core.Admission

open SynGateway.Asyncio SynGateway.Transition SynGateway.Counting

/-- The controller, the clock, the arrival times of the requests, and the times at which requests
entered their bodies. -/
structure Timed where
  ctrl : State
  now : ℕ := 0
  arrivedAt : List ℕ := []
  entries : List (ReqId × ℕ) := []
deriving DecidableEq, Repr

/-- A step of the controller, or one unit of time. -/
inductive TimedAction
  | act (a : Action)
  | tick
deriving DecidableEq, Repr

namespace Timed

def init (cfg : Config) : Timed := { ctrl := Admission.init cfg }

/-- The timer that `r` armed on its arrival is due. -/
def timerDue (cfg : Config) (s : Timed) (r : ReqId) : Bool :=
  s.arrivedAt[r]?.any fun t => t + cfg.queueTimeout ≤ s.now

/-- No task is runnable and no due timer is left to fire. -/
def settled (cfg : Config) (s : Timed) : Bool :=
  (List.range s.ctrl.tasks.length).all fun r =>
    (resume s.ctrl r).isNone && (!s.timerDue cfg r || (timer cfg s.ctrl r).isNone)

/-- The step `a` of the controller, at the present time. -/
def record (s : Timed) (a : Action) (t : State) : Timed where
  ctrl := t
  now := s.now
  arrivedAt := if a = .arrive then s.arrivedAt ++ [s.now] else s.arrivedAt
  entries := s.entries ++ (t.admitted.drop s.ctrl.admitted.length).map (·, s.now)

/-- One step: timers fire when they are due, and time advances when all else is done. -/
def step (cfg : Config) (s : Timed) : TimedAction → Option Timed
  | .act (.timer r) =>
    if s.timerDue cfg r then (timer cfg s.ctrl r).map (s.record (.timer r)) else none
  | .act a => (Admission.step cfg s.ctrl a).map (s.record a)
  | .tick => if s.settled cfg then some { s with now := s.now + 1 } else none

end Timed

/-- The guard of the untimed controller, on its steps. -/
def timedGuard (guard : State → Action → Prop) (s : Timed) : TimedAction → Prop
  | .act a => guard s.ctrl a
  | .tick => True

/-- The states of the timed runs whose steps meet `guard`. -/
abbrev TimedReachable (cfg : Config) (guard : State → Action → Prop) : Timed → Prop :=
  Reach (Timed.step cfg) (timedGuard guard) (Timed.init cfg)

variable {cfg : Config} {s t : State} {a : Action} {u v : Timed} {guard : State → Action → Prop}

instance timedGuard.decidable [∀ s a, Decidable (guard s a)] (u : Timed) :
    (b : TimedAction) → Decidable (timedGuard guard u b)
  | .act a => inferInstanceAs (Decidable (guard u.ctrl a))
  | .tick => inferInstanceAs (Decidable True)

/-! ## The clock changes nothing about the controller -/

/-- A timed step is a step of the controller at the present time, or a tick of a settled one. -/
theorem Timed.step_cases {b : TimedAction} (h : Timed.step cfg u b = some v) :
    (∃ a t, b = .act a ∧ Admission.step cfg u.ctrl a = some t ∧ v = u.record a t) ∨
      (b = .tick ∧ u.settled cfg = true ∧ v = { u with now := u.now + 1 }) := by
  cases b with
  | tick =>
      rw [Timed.step] at h
      split at h
      · next hsettled => exact .inr ⟨rfl, hsettled, (Option.some.inj h).symm⟩
      · simp at h
  | act a =>
      refine .inl ?_
      cases a with
      | timer r =>
          rw [Timed.step] at h
          split at h
          · -- a timer fires at its deadline only
            obtain ⟨t, ht, rfl⟩ := Option.map_eq_some_iff.mp h
            exact ⟨_, t, rfl, ht, rfl⟩
          · simp at h
      | arrive | cancel r | resume r | finish r =>
          simp only [Timed.step] at h
          obtain ⟨t, ht, rfl⟩ := Option.map_eq_some_iff.mp h
          exact ⟨_, t, rfl, ht, rfl⟩

/-- Forgetting the clock, a timed run is a run. -/
theorem TimedReachable.reachable (h : TimedReachable cfg guard u) : Reachable cfg guard u.ctrl := by
  apply Reach.project (f := Timed.ctrl) h rfl
  intro u b v hguard hstep
  rcases Timed.step_cases hstep with ⟨a, t, rfl, ht, rfl⟩ | ⟨-, -, rfl⟩
  · exact .inr ⟨a, hguard, ht⟩
  · exact .inl rfl

/-! ## What a step does to those who wait -/

/-- Only an arrival adds a request. -/
theorem length_of_move (hmove : Move cfg s a t) (hslots : Slots cfg s) :
    t.tasks.length = s.tasks.length + if a = .arrive then 1 else 0 := by
  cases hmove with
  | reject | enqueue | fast => simp
  | leave htask ha =>
      rw [State.release_length (hslots.active_pos_of_body htask)]
      rcases ha with ⟨rfl, -⟩ | ⟨rfl, -⟩ <;> simp
  | timer | cancelIgnored | cancelQueue | cancelSem | resumeCancelled | resumeTimeout | resumeEnter
  | resumeBlock | semEnter | semCancelled => simp

/-- Who waits for its event after a step did before, or has just arrived. -/
theorem waiting_of_move (hmove : Move cfg s a t) (hslots : Slots cfg s) {q : ReqId} {e : QueueEntry}
    (hq : t.tasks[q]? = some (.queueWait e .none)) :
    (∃ e', s.tasks[q]? = some (.queueWait e' .none)) ∨ (a = .arrive ∧ q = s.tasks.length) := by
  have hset : ∀ {r : ReqId} {old new : Task} {e : QueueEntry}, s.tasks[r]? = some old →
      (∀ e', new ≠ .queueWait e' .none) → (s.tasks.set r new)[q]? = some (.queueWait e .none) →
      ∃ e', s.tasks[q]? = some (.queueWait e' .none) := by
    intro r old new e htask hnew hget
    rw [getElem?_set_task htask] at hget
    split at hget
    · exact absurd (Option.some.inj hget) (hnew e)
    · exact ⟨e, hget⟩
  cases hmove with
  | reject | enqueue | fast =>
      simp only [State.enter_tasks, State.push_tasks, getElem?_push_task] at hq
      split at hq
      · next hlast => exact .inr ⟨rfl, hlast⟩
      · exact .inl ⟨e, hq⟩
  | cancelIgnored | cancelSem => exact .inl ⟨e, hq⟩
  | @leave r _ how htask ha =>
      left
      -- `_release` may grant, but it makes nobody wait
      rcases State.release_task (hslots.active_pos_of_body htask) q with heq | ⟨e', i, hold, hnew⟩
      · rw [heq] at hq
        exact hset htask (by simp) hq
      · rw [hnew] at hq
        obtain ⟨-, rfl⟩ := Task.queueWait.inj (Option.some.inj hq)
        rw [State.setTask_tasks] at hold
        exact hset htask (by simp) hold
  | timer htask | cancelQueue htask | resumeCancelled htask | resumeTimeout htask
  | resumeEnter htask | resumeBlock htask | semEnter htask | semCancelled htask => exact .inl (hset htask (by simp) hq)

/-- Who enters while nobody waits on the semaphore has just arrived or waited for its event. -/
theorem admitted_of_move (hmove : Move cfg s a t) (hslots : Slots cfg s)
    (hsem : ∀ r : ReqId, s.tasks[r]? ≠ some .semWait) :
    t.admitted = s.admitted ∨ (a = .arrive ∧ t.admitted = s.admitted ++ [s.tasks.length]) ∨
      ∃ r e, s.tasks[r]? = some (.queueWait e .none) ∧ t.admitted = s.admitted ++ [r] := by
  cases hmove with
  | fast => exact .inr (.inl ⟨rfl, rfl⟩)
  | resumeEnter htask => exact .inr (.inr ⟨_, _, htask, rfl⟩)
  | semEnter htask => exact absurd htask (hsem _)
  | leave htask ha =>
      exact .inl (State.release_spec (hslots.active_pos_of_body htask)).2.2.2.2
  | reject | enqueue | timer | cancelIgnored | cancelQueue | cancelSem | resumeCancelled
  | resumeTimeout | resumeBlock | semCancelled => exact .inl rfl

/-! ## The deadline -/

/-- The time `n` is no later than the deadline of `r`. -/
def Timed.Within (cfg : Config) (u : Timed) (r : ReqId) (n : ℕ) : Prop :=
  ∃ t, u.arrivedAt[r]? = some t ∧ n ≤ t + cfg.queueTimeout

/-- Those who wait for their event are within their deadline, and those who entered kept it. -/
structure OnTime (cfg : Config) (u : Timed) : Prop where
  arrived : u.arrivedAt.length = u.ctrl.tasks.length
  waiting : ∀ r e, u.ctrl.tasks[r]? = some (.queueWait e .none) → u.Within cfg r u.now
  entered : ∀ r n, (r, n) ∈ u.entries → u.Within cfg r n
  entries : u.entries.map Prod.fst = u.ctrl.admitted

/-- Recording a step keeps the deadlines of those who arrived before it. -/
theorem Timed.Within.record {r : ReqId} {n : ℕ} (h : u.Within cfg r n) :
    (u.record a t).Within cfg r n := by
  obtain ⟨d, hd, hle⟩ := h
  refine ⟨d, ?_, hle⟩
  simp only [Timed.record]
  split
  · rw [List.getElem?_append_left (List.getElem?_eq_some_iff.mp hd).1]
    exact hd
  · exact hd

/-- A request is within its deadline when it arrives. -/
theorem OnTime.within_arrival (h : OnTime cfg u) :
    (u.record .arrive t).Within cfg u.ctrl.tasks.length u.now := by
  refine ⟨u.now, ?_, Nat.le_add_right _ _⟩
  simp [Timed.record, ← h.arrived]

/-- A step of the controller keeps the deadlines. -/
theorem OnTime.record (h : OnTime cfg u) (hmove : Move cfg u.ctrl a t) (hslots : Slots cfg u.ctrl)
    (hsem : ∀ r : ReqId, u.ctrl.tasks[r]? ≠ some .semWait) : OnTime cfg (u.record a t) where
  arrived := by
    show (if a = .arrive then u.arrivedAt ++ [u.now] else u.arrivedAt).length = t.tasks.length
    rw [length_of_move hmove hslots, ← h.arrived]
    split <;> simp
  waiting r e hr := by
    -- who waits has waited since before this step, or arrived in it
    rcases waiting_of_move hmove hslots hr with ⟨e', he'⟩ | ⟨rfl, rfl⟩
    · exact (h.waiting r e' he').record
    · exact h.within_arrival
  entered r n hmem := by
    rcases List.mem_append.mp hmem with hold | hnew
    · exact (h.entered r n hold).record
    · -- who enters now was let in on arrival, or had waited in time
      rcases admitted_of_move hmove hslots hsem with heq | ⟨rfl, heq⟩ | ⟨q, e, hq, heq⟩
      · simp [heq] at hnew
      · obtain ⟨rfl, rfl⟩ : r = u.ctrl.tasks.length ∧ n = u.now := by simpa [heq] using hnew
        exact h.within_arrival
      · obtain ⟨rfl, rfl⟩ : r = q ∧ n = u.now := by simpa [heq] using hnew
        exact (h.waiting r e hq).record
  entries := by
    show (u.entries ++ _).map Prod.fst = t.admitted
    rw [List.map_append, h.entries, List.map_map]
    rcases admitted_of_move hmove hslots hsem with heq | ⟨-, heq⟩ | ⟨q, -, -, heq⟩ <;> simp [heq]

/-- A settled controller has nobody waiting at its deadline, so a tick takes nobody past it. -/
theorem OnTime.tick (h : OnTime cfg u) (hsettled : u.settled cfg = true) :
    OnTime cfg { u with now := u.now + 1 } where
  arrived := h.arrived
  waiting r e hr := by
    obtain ⟨d, hd, hle⟩ := h.waiting r e hr
    refine ⟨d, hd, Nat.lt_of_le_of_ne hle ?_⟩
    intro heq
    have hlt : r < u.ctrl.tasks.length := (List.getElem?_eq_some_iff.mp hr).1
    have hdue : u.timerDue cfg r = true := by simp [Timed.timerDue, hd, heq]
    have hall := List.all_eq_true.mp hsettled r (List.mem_range.mpr hlt)
    -- with the event set the task is runnable, otherwise its timer fires
    cases hevent : e.event with
    | true =>
        have hset : e.granted = true := e.granted_eq_event.trans hevent
        simp [resume, hr, hevent, hset] at hall
    | false => simp [resume, timer, hr, hevent, hdue] at hall
  entered := h.entered
  entries := h.entries

/-- The deadlines are kept in every timed run whose newcomers leave the claimed units alone. -/
theorem TimedReachable.onTime (h : TimedReachable cfg (LeavesUnits Task.isDue) u) :
    OnTime cfg u := by
  have hall := Reach.invariant
    (I := fun u => OnTime cfg u ∧ Reachable cfg (LeavesUnits Task.isDue) u.ctrl) h
    ⟨⟨rfl, by simp [Timed.init, init], by simp [Timed.init], rfl⟩, .init⟩ ?_
  · exact hall.1
  · rintro u b v ⟨hontime, hreach⟩ hguard hstep
    rcases Timed.step_cases hstep with ⟨a, t, rfl, ht, rfl⟩ | ⟨rfl, hsettled, rfl⟩
    · have hcovered := hreach.covered isClaim_isDue fun _ _ hguard => hguard
      exact ⟨hontime.record (move_of_step ht) hreach.slots fun _ =>
        hcovered.ne_semWait hreach.queues, hreach.next hguard ht⟩
    · exact ⟨hontime.tick hsettled, hreach⟩

/-- **The queue timeout is enforced.** In every timed run in which a newcomer takes the fast path
only while more units are free than granted waiters will take: every request that entered its body
did so at most `queue_timeout_seconds` after it arrived, and every request suspended in `acquire()`
waits for its queue event, with a timer that is armed for no earlier than now unless it was
interrupted. -/
theorem queue_timeout_enforced (h : TimedReachable cfg (LeavesUnits Task.isDue) u) :
    u.entries.map Prod.fst = u.ctrl.admitted ∧ (∀ r n, (r, n) ∈ u.entries → u.Within cfg r n) ∧
      ∀ r task, u.ctrl.tasks[r]? = some task → task.isSuspended = true →
        ∃ e i, task = .queueWait e i ∧ (i = .none → u.Within cfg r u.now) := by
  have hontime := h.onTime
  have hreach := h.reachable
  have hcovered := hreach.covered isClaim_isDue fun _ _ hguard => hguard
  refine ⟨hontime.entries, hontime.entered, fun r task htask hsusp => ?_⟩
  cases task with
  | queueWait e i =>
      refine ⟨e, i, rfl, ?_⟩
      rintro rfl
      exact hontime.waiting r e htask
  | semWait => exact absurd htask (hcovered.ne_semWait hreach.queues)
  | body | ended => simp at hsusp

/-- The deadline in a run in which a queued request gets its slot at the last moment. -/
theorem queue_timeout_enforced_at_deadline :
    ∃ u : Timed, u.entries = [(0, 0), (1, 2)] ∧ u.entries.map Prod.fst = u.ctrl.admitted ∧
      (∀ r n, (r, n) ∈ u.entries → u.Within ⟨1, 1, 2, true⟩ r n) ∧
      ∀ r task, u.ctrl.tasks[r]? = some task → task.isSuspended = true →
        ∃ e i, task = .queueWait e i ∧ (i = .none → u.Within ⟨1, 1, 2, true⟩ r u.now) := by
  obtain ⟨u, hreach, hentries⟩ := Reach.exists_of_run (Timed.step ⟨1, 1, 2, true⟩)
    (timedGuard (LeavesUnits Task.isDue)) (Timed.init ⟨1, 1, 2, true⟩)
    [.act .arrive, .act .arrive, .tick, .tick, .act (.finish 0), .act (.resume 1)]
    (fun u => u.entries = [(0, 0), (1, 2)]) (by decide) (by decide)
  exact ⟨u, hentries, queue_timeout_enforced hreach⟩

/-- One slot and a timeout of one. Request 1 is granted the slot at once, but a newcomer takes it: 1
waits on the semaphore past its timeout and enters its body two units of time after it arrived. -/
theorem queue_timeout_not_enforced :
    ¬ ∀ (cfg : Config) (u : Timed), TimedReachable cfg free u →
      ∀ r n, (r, n) ∈ u.entries → u.Within cfg r n := by
  intro hclaim
  obtain ⟨u, hreach, hentries, harrived⟩ := Reach.exists_of_run (Timed.step ⟨1, 1, 1, true⟩)
    (timedGuard free) (Timed.init ⟨1, 1, 1, true⟩)
    [.act .arrive, .act .arrive, .act (.finish 0), .act .arrive, .act (.resume 1), .tick, .tick,
      .act (.finish 2), .act (.resume 1)]
    (fun u => u.entries = [(0, 0), (2, 0), (1, 2)] ∧ u.arrivedAt = [0, 0, 0]) (by decide)
      (by decide)
  obtain ⟨d, hd, hle⟩ := hclaim _ u hreach 1 2 (by simp [hentries])
  obtain rfl : 0 = d := by simpa [harrived] using hd
  exact absurd hle (by decide)

end SynGateway.Core.Admission

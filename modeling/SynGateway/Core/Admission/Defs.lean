import SynGateway.Asyncio.Semaphore
import SynGateway.Common.Transition

/-!
# The admission controller

`app/core/admission.py`: an `asyncio.Semaphore` that limits concurrent execution and an explicit
bounded FIFO queue with one event per waiter. The model is a partial step function on the controller
together with the tasks of all requests that have called `acquire()`.

An action is what one task, timer or caller does between two suspensions:

* `arrive` runs `acquire()` up to its first suspension;
* `timer r` lets the `wait_for` timer of a queued request fire;
* `cancel r` is `task.cancel()` on a request, from outside;
* `resume r` runs a suspended `acquire()` up to its next suspension or its end;
* `finish r` ends the body (it returned or raised) and runs `_release()`.

The bodies of `async with self._lock` contain no `await`, so the lock is never contended and taking
it never suspends. Requests are numbered in the order of their first step, so `r₁ < r₂` says that
`r₁` arrived first; the number also names the request's queue entry, of which it makes at most one.
-/

namespace SynGateway.Core.Admission

open SynGateway.Asyncio SynGateway.Transition

/-- A request, by its place in the order of arrival. -/
abbrev ReqId := ℕ

/-- The constructor arguments, and the one point where the supported Python versions differ.

`interruptsSetEvent` says what `wait_for` does when it is interrupted (by its timer or by a
cancellation) after the event was set and before the waiter resumed. From Python 3.12 on the timeout
scope cancels the waiting task, and the interruption wins; Python 3.11 looks at the finished inner
task first and returns its result. -/
structure Config where
  maxActive : ℕ
  maxQueue : ℕ
  queueTimeout : ℕ
  interruptsSetEvent : Bool
deriving DecidableEq, Repr

/-- `_QueueEntry`: `event` is `event.is_set()`. Both flags are only ever set together. -/
structure QueueEntry where
  event : Bool := false
  granted : Bool := false
  granted_eq_event : granted = event := by rfl
deriving DecidableEq, Repr

/-- `next_entry.granted = True; next_entry.event.set()`. -/
def QueueEntry.grant (_ : QueueEntry) : QueueEntry := { event := true, granted := true }

/-- An interruption of the wait on the queue event that the waiter has not resumed with yet. A
cancellation from outside is never turned into a `TimeoutError`, so it overrides the timer. -/
inductive Interrupt
  | none
  | timeout
  | cancel
deriving DecidableEq, Repr

/-- How a call of `acquire()` ended. -/
inductive Ended
  | finished
  | queueFull
  | queueTimeout
  | cancelled
deriving DecidableEq, Repr

/-- Where the task of a request stands between two steps. -/
inductive Task
  /-- Suspended in `wait_for(entry.event.wait(), ...)`. -/
  | queueWait (entry : QueueEntry) (interrupt : Interrupt)
  /-- Suspended in `await self._sem.acquire()`. -/
  | semWait
  /-- Inside the body of `async with acquire()`. -/
  | body
  | ended (how : Ended)
deriving DecidableEq, Repr

/-- The controller's fields with the tasks of all requests. `queue` names the entries of `_queue` by
their requests, `assertionFailed` records a failed `assert self._active >= 0`, and `admitted` is a
history variable: the requests that entered their body, in that order. -/
structure State where
  sem : Semaphore ReqId
  queue : List ReqId := []
  active : ℤ := 0
  assertionFailed : Bool := false
  tasks : List Task := []
  admitted : List ReqId := []
deriving DecidableEq, Repr

/-- `AdmissionController.__init__`. -/
def init (cfg : Config) : State := { sem := ⟨cfg.maxActive, []⟩ }

inductive Action
  | arrive
  | timer (r : ReqId)
  | cancel (r : ReqId)
  | resume (r : ReqId)
  | finish (r : ReqId)
deriving DecidableEq, Repr

namespace State

def setTask (s : State) (r : ReqId) (t : Task) : State := { s with tasks := s.tasks.set r t }

/-- A new request's task. -/
def push (s : State) (t : Task) : State := { s with tasks := s.tasks ++ [t] }

/-- `self._active += 1` after the semaphore was taken, and into the body. -/
def enter (s : State) (r : ReqId) : State :=
  { s with active := s.active + 1, admitted := s.admitted ++ [r] }

/-- `await self._sem.acquire()` and, when it does not suspend, the entry into the body. `place` puts
the request's next task state where it belongs. -/
def semAcquire (s : State) (r : ReqId) (place : State → Task → State) : State :=
  match s.sem.acquire r with
  | (sem, true) => (place { s with sem } .body).enter r
  | (sem, false) => place { s with sem } .semWait

/-- Set the event of a popped entry. The entry of a request that has already left `acquire()` is set
too, but nobody waits for it. -/
def grant (s : State) (r : ReqId) : State :=
  match s.tasks[r]? with
  | some (.queueWait e i) => s.setTask r (.queueWait e.grant i)
  | _ => s

/-- The part of `_release()` under the lock that grants the slot to the next FIFO waiter. -/
def grantNext (s : State) : State :=
  match s.queue with
  | [] => s
  | next :: rest => { s with queue := rest }.grant next

/-- `_release()`. A failed assertion leaves before the grant and the semaphore release. -/
def release (s : State) : State :=
  let s := { s with active := s.active - 1 }
  if s.active < 0 then { s with assertionFailed := true }
  else
    let s := s.grantNext
    { s with sem := s.sem.release }

end State

/-- `acquire()` up to its first suspension. -/
def acquireStart (cfg : Config) (s : State) : State :=
  let r := s.tasks.length
  if s.sem.locked || !s.queue.isEmpty then
    -- the re-check under the lock sees what the first check saw: nothing has suspended in between
    if !s.sem.locked && s.queue.isEmpty then s.semAcquire r State.push
    else if cfg.maxQueue ≤ s.queue.length then s.push (.ended .queueFull)
    else { s.push (.queueWait {} .none) with queue := s.queue ++ [r] }
  else s.semAcquire r State.push

/-- The task of `r` runs from its suspension point; `none` when it is not runnable. -/
def resume (s : State) (r : ReqId) : Option State :=
  match s.tasks[r]? with
  | some (.queueWait e .none) =>
    if e.event then
      -- `if not entry.granted`: "should not happen, but guard anyway"
      if !e.granted then some (s.setTask r (.ended .queueTimeout))
      else some (s.semAcquire r fun s t => s.setTask r t)
    else none
  | some (.queueWait _ .timeout) =>
    -- `_remove_queued_entry`, then `QueueTimeoutError`
    some { s.setTask r (.ended .queueTimeout) with queue := s.queue.erase r }
  | some (.queueWait _ .cancel) =>
    -- `CancelledError` passes the `except asyncio.TimeoutError`, the entry is not removed
    some (s.setTask r (.ended .cancelled))
  | some .semWait =>
    match s.sem.resume r with
    | some (sem, true) => some (({ s with sem }.setTask r .body).enter r)
    | some (sem, false) => some ({ s with sem }.setTask r (.ended .cancelled))
    | none => none
  | _ => none

/-- `task.cancel()` on the task of `r`. In the body the `CancelledError` runs the `finally` clause.
-/
def cancel (cfg : Config) (s : State) (r : ReqId) : Option State :=
  match s.tasks[r]? with
  | some (.queueWait e i) =>
    if i = .none ∧ e.event ∧ !cfg.interruptsSetEvent then some s
    else some (s.setTask r (.queueWait e .cancel))
  | some .semWait => some { s with sem := s.sem.cancelTask r }
  | some .body => some (s.setTask r (.ended .cancelled)).release
  | _ => none

/-- The timer of `r`'s `wait_for` fires. -/
def timer (cfg : Config) (s : State) (r : ReqId) : Option State :=
  match s.tasks[r]? with
  | some (.queueWait e .none) =>
    if e.event ∧ !cfg.interruptsSetEvent then none
    else some (s.setTask r (.queueWait e .timeout))
  | _ => none

/-- The body of `r` returns or raises. -/
def finish (s : State) (r : ReqId) : Option State :=
  match s.tasks[r]? with
  | some .body => some (s.setTask r (.ended .finished)).release
  | _ => none

/-- One atomic step. -/
def step (cfg : Config) (s : State) : Action → Option State
  | .arrive => some (acquireStart cfg s)
  | .timer r => timer cfg s r
  | .cancel r => cancel cfg s r
  | .resume r => resume s r
  | .finish r => finish s r

/-! ## What the states count -/

@[simp] def Task.isBody : Task → Bool
  | .body => true
  | _ => false

/-- Granted a slot by `_release()` and not resumed since, whatever it will resume with. -/
@[simp] def Task.isGranted : Task → Bool
  | .queueWait e _ => e.granted
  | _ => false

/-- Granted a slot and bound to take it when it resumes. -/
@[simp] def Task.isDue : Task → Bool
  | .queueWait e .none => e.granted
  | _ => false

/-- Queued, or granted and not resumed, with no interruption of the wait. -/
@[simp] def Task.isWaiting : Task → Bool
  | .queueWait _ .none => true
  | _ => false

/-- Suspended in `acquire()`. -/
@[simp] def Task.isSuspended : Task → Bool
  | .queueWait _ _ => true
  | .semWait => true
  | _ => false

namespace State

/-- Requests inside the body of `acquire()`. -/
def inBody (s : State) : ℕ := s.tasks.countP Task.isBody

/-- Granted waiters that have not resumed. -/
def granted (s : State) : ℕ := s.tasks.countP Task.isGranted

/-- Granted waiters that will take their slot when they resume. -/
def due (s : State) : ℕ := s.tasks.countP Task.isDue

/-- Requests suspended in `acquire()`, neither admitted nor failed. -/
def suspended (s : State) : ℕ := s.tasks.countP Task.isSuspended

end State

/-- The states of all runs whose steps meet `guard`. -/
abbrev Reachable (cfg : Config) (guard : State → Action → Prop) : State → Prop :=
  Reach (step cfg) guard (init cfg)

end SynGateway.Core.Admission

import SynGateway.Core.Admission.Handover

/-!
# The order of admission

Requests should enter their bodies in the order in which they arrived. `_queue` keeps that order,
but a request can be overtaken after its grant: a newcomer on the fast path, or a waiter that was
granted later and resumes earlier, takes a slot while it is still on its way.

`NoOvertaking` says of a step that it overtakes nobody in this way. It is enough: in runs without
overtaking everybody who has entered arrived before everybody who still waits, the granted waiters
arrived before the queued ones, and `_queue` is sorted.
-/

namespace SynGateway.Core.Admission

open SynGateway.Asyncio SynGateway.Transition SynGateway.Counting

/-- A newcomer takes the fast path, and a granted waiter resumes, only when no waiter that arrived
earlier is on its way to a slot. -/
def NoOvertaking (s : State) : Action → Prop
  | .arrive => s.sem.locked = false → s.queue = [] → s.due = 0
  | .resume r => s.tasks[r]?.any Task.isDue = true → ∀ q < r, s.tasks[q]?.any Task.isDue = false
  | _ => True

/-- Who waits, and in which order. -/
structure InOrder (s : State) : Prop where
  queue : s.queue.Pairwise (· < ·)
  admitted : s.admitted.Pairwise (· < ·)
  arrived : ∀ r ∈ s.admitted, r < s.tasks.length
  admitted_lt : ∀ r ∈ s.admitted, ∀ q e, s.tasks[q]? = some (.queueWait e .none) → r < q
  granted_lt : ∀ r e, s.tasks[r]? = some (.queueWait e .none) → e.granted = true →
    ∀ q ∈ s.queue, r < q

variable {cfg : Config} {s t : State} {a : Action} {r : ReqId} {old new : Task}

instance NoOvertaking.decidable (s : State) : (a : Action) → Decidable (NoOvertaking s a)
  | .arrive => inferInstanceAs (Decidable (_ → _ → _))
  | .resume r => inferInstanceAs (Decidable (_ → ∀ q < r, _))
  | .timer _ | .cancel _ | .finish _ => inferInstanceAs (Decidable True)

/-- Nobody overtakes, so the newcomers leave the claimed units alone. -/
theorem NoOvertaking.leavesUnits (h : NoOvertaking s a) : LeavesUnits Task.isDue s a := by
  cases a with
  | arrive =>
      intro hfree hempty
      have hdue : s.tasks.countP Task.isDue = 0 := h hfree hempty
      rw [hdue]
      exact (Semaphore.locked_eq_false.mp hfree).1
  | timer | cancel | resume | finish => trivial

/-- In an increasing list the smaller entry comes first. -/
theorem idxOf_lt_idxOf {l : List ReqId} (h : l.Pairwise (· < ·)) {p q : ReqId} (hp : p ∈ l)
    (hq : q ∈ l) (hlt : p < q) : l.idxOf p < l.idxOf q := by
  have hp' := List.idxOf_lt_length_of_mem hp
  have hq' := List.idxOf_lt_length_of_mem hq
  by_contra hnot
  rcases Nat.lt_or_eq_of_le (Nat.le_of_not_lt hnot) with hidx | hidx
  · have hgt := List.pairwise_iff_getElem.mp h _ _ hq' hp' hidx
    rw [List.getElem_idxOf, List.getElem_idxOf] at hgt
    exact Nat.lt_asymm hlt hgt
  · have heq : l[l.idxOf q] = l[l.idxOf p] := by simp only [hidx]
    rw [List.getElem_idxOf, List.getElem_idxOf] at heq
    exact Nat.lt_irrefl p (heq ▸ hlt)

namespace InOrder

/-- A task that changes into one that does not wait. -/
theorem set (h : InOrder s) (htask : s.tasks[r]? = some old) (hnew : ∀ e, new ≠ .queueWait e .none)
    {queue : List ReqId} (hsub : queue.Sublist s.queue) :
    InOrder { s.setTask r new with queue } where
  queue := h.queue.sublist hsub
  admitted := h.admitted
  arrived q hq := by
    simpa using h.arrived q hq
  admitted_lt q hq p e hp := by
    simp only [State.setTask_tasks, getElem?_set_task htask] at hp
    split at hp
    · exact absurd (Option.some.inj hp) (hnew e)
    · exact h.admitted_lt q hq p e hp
  granted_lt p e hp hgranted q hq := by
    simp only [State.setTask_tasks, getElem?_set_task htask] at hp
    split at hp
    · exact absurd (Option.some.inj hp) (hnew e)
    · exact h.granted_lt p e hp hgranted q (hsub.subset hq)

/-- A newcomer that does not wait for its own grant. -/
theorem push (h : InOrder s) (hnew : ∀ e, new ≠ .queueWait e .none) : InOrder (s.push new) where
  queue := h.queue
  admitted := h.admitted
  arrived q hq := by
    rw [State.push_tasks, List.length_append]
    exact Nat.lt_succ_of_lt (h.arrived q hq)
  admitted_lt q hq p e hp := by
    rw [State.push_tasks, getElem?_push_task] at hp
    split at hp
    · exact absurd (Option.some.inj hp) (hnew e)
    · exact h.admitted_lt q hq p e hp
  granted_lt p e hp := by
    rw [State.push_tasks, getElem?_push_task] at hp
    split at hp
    · exact absurd (Option.some.inj hp) (hnew e)
    · exact h.granted_lt p e hp

/-- A newcomer joins the queue behind everybody. -/
theorem enqueue (h : InOrder s) (hqueues : QueuesOk s) :
    InOrder { s.push (.queueWait {} .none) with queue := s.queue ++ [s.tasks.length] } where
  queue := by
    -- the new request is behind everybody in the queue: its index is the largest
    refine List.pairwise_append.mpr ⟨h.queue, List.pairwise_singleton _ _, ?_⟩
    intro q hq p hp
    rw [List.mem_singleton.mp hp]
    exact hqueues.queue.lt_length hq
  admitted := h.admitted
  arrived q hq := by
    rw [State.push_tasks, List.length_append]
    exact Nat.lt_succ_of_lt (h.arrived q hq)
  admitted_lt q hq p e hp := by
    simp only [State.push_tasks, getElem?_push_task] at hp
    split at hp
    · next hlast => exact hlast ▸ h.arrived q hq
    · exact h.admitted_lt q hq p e hp
  granted_lt p e hp hgranted q hq := by
    simp only [State.push_tasks, getElem?_push_task] at hp
    split at hp
    · obtain ⟨rfl, -⟩ := Task.queueWait.inj (Option.some.inj hp)
      simp at hgranted
    · rcases List.mem_append.mp hq with hq | hq
      · exact h.granted_lt p e hp hgranted q hq
      · rw [List.mem_singleton.mp hq]
        exact (List.getElem?_eq_some_iff.mp hp).1

/-- The order of the queue does not depend on the semaphore. -/
theorem withSem (h : InOrder s) (sem : Semaphore ReqId) : InOrder { s with sem } :=
  ⟨h.queue, h.admitted, h.arrived, h.admitted_lt, h.granted_lt⟩

/-- Somebody enters who arrived after those who have entered and before those who still wait. -/
theorem enter (h : InOrder s) (hr : r < s.tasks.length) (hbefore : ∀ q ∈ s.admitted, q < r)
    (hafter : ∀ q e, s.tasks[q]? = some (.queueWait e .none) → r < q) : InOrder (s.enter r) where
  queue := h.queue
  admitted := by
    -- `r` is admitted behind those that arrived before it
    refine List.pairwise_append.mpr ⟨h.admitted, List.pairwise_singleton _ _, ?_⟩
    intro q hq p hp
    rw [List.mem_singleton.mp hp]
    exact hbefore q hq
  arrived q hq := by
    rcases List.mem_append.mp hq with hq | hq
    · exact h.arrived q hq
    · rw [List.mem_singleton.mp hq]
      exact hr
  admitted_lt q hq p e hp := by
    rcases List.mem_append.mp hq with hq | hq
    · exact h.admitted_lt q hq p e hp
    · rw [List.mem_singleton.mp hq]
      exact hafter p e hp
  granted_lt := h.granted_lt

/-- `_release()` grants to the head of the sorted queue. -/
theorem release (h : InOrder s) (hpos : 0 < s.active) : InOrder s.release := by
  rcases State.release_cases hpos with ⟨-, heq⟩ | ⟨next, rest, hq, heq⟩
  · rw [heq]
    exact ⟨h.queue, h.admitted, h.arrived, h.admitted_lt, h.granted_lt⟩
  · have hsub : rest.Sublist s.queue := by
      rw [hq]
      exact List.sublist_cons_self _ _
    -- the granted request is the first of the queue, and the queue is sorted
    have hhead : ∀ q ∈ rest, next < q := by
      have hsorted := h.queue
      rw [hq] at hsorted
      exact (List.pairwise_cons.mp hsorted).1
    rcases State.grant_cases { s with queue := rest } next with ⟨e, i, htask, hgrant⟩ | ⟨-, hgrant⟩
    · have htask : s.tasks[next]? = some (.queueWait e i) := htask
      rw [heq, hgrant]
      refine ⟨h.queue.sublist hsub, h.admitted, fun q hq => ?_, fun q hq p e' hp => ?_,
        fun p e' hp hgranted q hq => ?_⟩
      · simpa using h.arrived q hq
      · simp only [State.setTask_tasks, getElem?_set_task htask] at hp
        split at hp
        · next hpn =>
            obtain ⟨-, rfl⟩ := Task.queueWait.inj (Option.some.inj hp)
            exact hpn ▸ h.admitted_lt q hq next e htask
        · exact h.admitted_lt q hq p e' hp
      · simp only [State.setTask_tasks, getElem?_set_task htask] at hp
        split at hp
        · next hpn => exact hpn ▸ hhead q hq
        · exact h.granted_lt p e' hp hgranted q (hsub.subset hq)
    · rw [heq, hgrant]
      exact ⟨h.queue.sublist hsub, h.admitted, h.arrived, h.admitted_lt,
        fun p e hp hgranted q hq => h.granted_lt p e hp hgranted q (hsub.subset hq)⟩

/-- A request that is admitted at once comes last, if nobody is queued or on the way. -/
theorem fast (h : InOrder s) (hqueues : QueuesOk s) (hempty : s.queue = []) (hdue : s.due = 0)
    (sem : Semaphore ReqId) : InOrder ((State.push { s with sem } .body).enter s.tasks.length) := by
  have hpush : InOrder (State.push { s with sem } .body) := (h.withSem sem).push (by simp)
  apply hpush.enter
  · simp
  · exact fun q hq => h.arrived q hq
  · intro q e hq
    rw [State.push_tasks, getElem?_push_task] at hq
    split at hq
    · simp at hq
    · cases hgranted : e.granted with
      | false =>
          have hmem := hqueues.queue.mem_queue q e .none hq hgranted
          simp [hempty] at hmem
      | true =>
          have hnot := List.countP_eq_zero.mp hdue _ (List.mem_of_getElem? hq)
          exact absurd hgranted hnot

/-- A granted waiter enters in its turn, if nobody who arrived before it is on the way. -/
theorem enterGranted {e : QueueEntry} (h : InOrder s) (hqueues : QueuesOk s)
    (htask : s.tasks[r]? = some (.queueWait e .none)) (hset : e.granted = true)
    (hfirst : ∀ q < r, s.tasks[q]?.any Task.isDue = false) (sem : Semaphore ReqId) :
    InOrder ((State.setTask { s with sem } r .body).enter r) := by
  have hbody : InOrder (State.setTask { s with sem } r .body) :=
    InOrder.set (h.withSem sem) htask (by simp) (List.Sublist.refl _)
  apply hbody.enter
  · simpa using (List.getElem?_eq_some_iff.mp htask).1
  · exact fun q hq => h.admitted_lt q hq r e htask
  · intro q e' hq
    rw [State.setTask_tasks, getElem?_set_task htask] at hq
    split at hq
    · simp at hq
    · next hqr =>
        cases hgranted : e'.granted with
        | false =>
            exact h.granted_lt r e htask hset q (hqueues.queue.mem_queue q e' .none hq hgranted)
        | true =>
            -- somebody else on the way arrived later, or `r` would overtake it
            have hlate : ¬ q < r := by
              intro hlt
              have hnot := hfirst q hlt
              simp [hq, hgranted] at hnot
            exact Nat.lt_of_le_of_ne (Nat.le_of_not_lt hlate) (Ne.symm hqr)

/-- A step without overtaking keeps the order. -/
theorem move (h : InOrder s) (hcovered : Covered Task.isDue s) (hslots : Slots cfg s)
    (hqueues : QueuesOk s) (hguard : NoOvertaking s a) (hmove : Move cfg s a t) : InOrder t := by
  have hself : s.queue.Sublist s.queue := List.Sublist.refl _
  cases hmove with
  | reject => exact h.push (by simp)
  | enqueue => exact h.enqueue hqueues
  -- the guard forbids a fast entry while somebody waits
  | fast hfree hempty => exact h.fast hqueues hempty (hguard hfree hempty) _
  | timer htask => exact h.set htask (by simp) hself
  | cancelIgnored => exact h
  | cancelQueue htask => exact h.set htask (by simp) hself
  | cancelSem htask => exact absurd htask (hcovered.ne_semWait hqueues)
  | @leave r _ how htask ha =>
      have hset : InOrder (s.setTask r (.ended how)) := h.set htask (by simp) hself
      exact hset.release (hslots.active_pos_of_body htask)
  | resumeCancelled htask => exact h.set htask (by simp) hself
  | resumeTimeout htask => exact h.set htask (by simp) List.erase_sublist
  | resumeEnter htask hset hfree =>
      exact h.enterGranted hqueues htask hset (hguard (by simp [htask, hset])) _
  | resumeBlock htask hset hlocked =>
      -- a granted request finds its unit, so it never waits on the semaphore
      rw [hcovered.not_locked isClaim_isDue htask hset] at hlocked
      simp at hlocked
  | semEnter htask => exact absurd htask (hcovered.ne_semWait hqueues)
  | semCancelled htask => exact absurd htask (hcovered.ne_semWait hqueues)

end InOrder

/-- Runs without overtaking keep the order. -/
theorem Reachable.inOrder (h : Reachable cfg NoOvertaking s) : InOrder s := by
  have hall := Reach.invariant
    (I := fun s => InOrder s ∧ Covered Task.isDue s ∧ Slots cfg s ∧ QueuesOk s) h
    ⟨⟨by simp [init], by simp [init], by simp [init], by simp [init], by simp [init]⟩,
      ⟨by simp [init], rfl⟩, Slots.init cfg, QueuesOk.init cfg⟩
    fun s a _ ⟨ho, hc, hs, hq⟩ hguard hstep =>
      have hmove := move_of_step hstep
      ⟨ho.move hc hs hq hguard hmove, hc.move isClaim_isDue hs hq hguard.leavesUnits hmove,
        hs.move hmove, hq.move hs hmove⟩
  exact hall.1

/-- **FIFO admission.** In every run in which no step overtakes a waiter on its way: of two requests
that entered their bodies, the one that arrived first entered first. -/
theorem fifo_admission (h : Reachable cfg NoOvertaking s) {r₁ r₂ : ReqId} (hlt : r₁ < r₂)
    (h₁ : r₁ ∈ s.admitted) (h₂ : r₂ ∈ s.admitted) :
    s.admitted.idxOf r₁ < s.admitted.idxOf r₂ :=
  idxOf_lt_idxOf h.inOrder.admitted h₁ h₂ hlt

/-- The order in a run in which a queued request times out and the two behind it enter. -/
theorem fifo_admission_after_timeout :
    ∃ s : State, s.admitted = [0, 2, 3] ∧ s.admitted.idxOf 2 < s.admitted.idxOf 3 := by
  obtain ⟨s, hreach, hadmitted⟩ := Reach.exists_of_run (step ⟨1, 3, 1, true⟩) NoOvertaking
    (init ⟨1, 3, 1, true⟩)
    [.arrive, .arrive, .arrive, .arrive, .timer 1, .resume 1, .finish 0, .resume 2, .finish 2,
      .resume 3]
    (fun s => s.admitted = [0, 2, 3]) (by decide) (by decide)
  exact ⟨s, hadmitted,
    fifo_admission hreach (by decide) (by simp [hadmitted]) (by simp [hadmitted])⟩

/-- One slot. Request 1 is granted it, request 2 arrives before 1 has resumed and takes it, and 1
enters only after 2 has finished. -/
theorem fifo_admission_fails :
    ¬ ∀ (cfg : Config) (s : State), Reachable cfg free s → ∀ r₁ r₂, r₁ < r₂ → r₁ ∈ s.admitted →
      r₂ ∈ s.admitted → s.admitted.idxOf r₁ < s.admitted.idxOf r₂ := by
  intro hclaim
  obtain ⟨s, hreach, hadmitted⟩ := Reach.exists_of_run (step ⟨1, 1, 1, true⟩) free
    (init ⟨1, 1, 1, true⟩)
    [.arrive, .arrive, .finish 0, .arrive, .resume 1, .finish 2, .resume 1]
    (fun s => s.admitted = [0, 2, 1]) (by decide) (meets_free _ _)
  have hidx := hclaim _ s hreach 1 2 (by decide) (by simp [hadmitted]) (by simp [hadmitted])
  rw [hadmitted] at hidx
  exact absurd hidx (by decide)

end SynGateway.Core.Admission

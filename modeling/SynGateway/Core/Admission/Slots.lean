import SynGateway.Core.Admission.Steps

/-!
# Where the slots of the admission controller are

A slot is free in the semaphore, handed to a semaphore waiter that was woken and has not resumed, or
used by a request in its body; `_active` mirrors the last number. `Slots` ties the three together.
Every step keeps it, cancellations at any suspension point included, so the concurrency bound and
the assertion in `_release()` follow for every run.
-/

namespace SynGateway.Core.Admission

open SynGateway.Asyncio SynGateway.Transition SynGateway.Counting

/-- The slots are conserved, and `_active` counts the bodies. -/
structure Slots (cfg : Config) (s : State) : Prop where
  units_eq : s.sem.units + s.inBody = cfg.maxActive
  active_eq : s.active = s.inBody
  assertion : s.assertionFailed = false

variable {cfg : Config} {s t : State} {a : Action} {r : ReqId}

namespace State

/-- A grant moves nobody into or out of the body. -/
theorem inBody_grant (s : State) (n : ReqId) : (s.grant n).inBody = s.inBody := by
  rcases grant_cases s n with ⟨e, i, htask, heq⟩ | ⟨-, heq⟩
  · rw [heq]
    exact countP_set_of_eq htask rfl
  · rw [heq]

/-- `_release()` with a running body gives one unit back and lowers `_active`. -/
theorem release_spec (h : 0 < s.active) :
    s.release.sem = s.sem.release ∧ s.release.active = s.active - 1 ∧
      s.release.inBody = s.inBody ∧ s.release.assertionFailed = s.assertionFailed ∧
      s.release.admitted = s.admitted := by
  rcases release_cases h with ⟨-, heq⟩ | ⟨next, rest, -, heq⟩
  · rw [heq]
    exact ⟨rfl, rfl, rfl, rfl, rfl⟩
  · obtain ⟨-, -, -, hfailed, hadmitted⟩ := grant_frame { s with queue := rest } next
    have hbody := inBody_grant { s with queue := rest } next
    rw [heq]
    exact ⟨rfl, rfl, hbody, hfailed, hadmitted⟩

end State

/-- The initial controller has all its slots free. -/
theorem Slots.init (cfg : Config) : Slots cfg (init cfg) where
  units_eq := rfl
  active_eq := rfl
  assertion := rfl

/-- While a body runs, also after its task has been marked as ended, `_active` is positive. -/
theorem Slots.active_pos_of_body (h : Slots cfg s) (htask : s.tasks[r]? = some .body)
    {how : Ended} :
    0 < (s.setTask r (.ended how)).active := by
  have hbody : 0 < s.inBody := List.countP_pos_iff.mpr ⟨_, List.mem_of_getElem? htask, rfl⟩
  rw [State.setTask_active, h.active_eq]
  omega

/-- A body that ends gives its slot back, and the assertion holds. -/
theorem Slots.leave (h : Slots cfg s) (htask : s.tasks[r]? = some .body) (how : Ended) :
    Slots cfg (s.setTask r (.ended how)).release := by
  have ⟨hunits, hactive, hassert⟩ := h
  have hbody : (s.setTask r (.ended how)).inBody + 1 = s.inBody := countP_set_of_loss htask rfl rfl
  have hpos : 0 < (s.setTask r (.ended how)).active := h.active_pos_of_body htask
  obtain ⟨hsem, hact, hin, hfailed, -⟩ := State.release_spec hpos
  have hrel := Semaphore.units_release s.sem
  refine ⟨?_, ?_, ?_⟩
  · rw [hsem, hin, State.setTask_sem, hrel]; omega
  · rw [hact, hin, State.setTask_active, hactive]; omega
  · rw [hfailed]; exact hassert

/-- A step that moves no slot. -/
theorem Slots.idle (h : Slots cfg s) (hunits : t.sem.units = s.sem.units)
    (hbody : t.inBody = s.inBody) (hactive : t.active = s.active)
    (hassert : t.assertionFailed = s.assertionFailed) : Slots cfg t where
  units_eq := by rw [hunits, hbody, h.units_eq]
  active_eq := by rw [hactive, hbody, h.active_eq]
  assertion := hassert.trans h.assertion

/-- A step that takes one slot out of the semaphore and into a body. -/
theorem Slots.take (h : Slots cfg s) (hunits : t.sem.units + 1 = s.sem.units)
    (hbody : t.inBody = s.inBody + 1) (hactive : t.active = s.active + 1)
    (hassert : t.assertionFailed = s.assertionFailed) : Slots cfg t where
  units_eq := by have := h.units_eq; omega
  active_eq := by have := h.active_eq; omega
  assertion := hassert.trans h.assertion

/-- Every step keeps the slots accounted for. -/
theorem Slots.move (h : Slots cfg s) (hmove : Move cfg s a t) : Slots cfg t := by
  have hunfold : s.sem.units = s.sem.value + s.sem.handed := rfl
  cases hmove with
  | reject => exact h.idle rfl (by simp [State.inBody]) rfl rfl
  | enqueue => exact h.idle rfl (by simp [State.inBody]) rfl rfl
  | fast hfree hempty =>
      obtain ⟨hvalue, -⟩ := Semaphore.locked_eq_false.mp hfree
      refine h.take ?_ (by simp [State.inBody]) rfl rfl
      show s.sem.value - 1 + s.sem.handed + 1 = _
      omega
  | timer htask => exact h.idle rfl (countP_set_of_eq htask rfl) rfl rfl
  | cancelIgnored => exact h
  | cancelQueue htask =>
      exact h.idle rfl (countP_set_of_eq htask rfl) rfl rfl
  | @cancelSem r htask =>
      obtain ⟨hvalue, hhanded, -, -⟩ := Semaphore.cancelTask_spec s.sem r
      refine h.idle ?_ rfl rfl rfl
      show (s.sem.cancelTask r).value + (s.sem.cancelTask r).handed = _
      omega
  | leave htask ha => exact h.leave htask _
  | resumeCancelled htask =>
      exact h.idle rfl (countP_set_of_eq htask rfl) rfl rfl
  | resumeTimeout htask =>
      exact h.idle rfl (countP_set_of_eq htask rfl) rfl rfl
  | resumeEnter htask hset hfree =>
      obtain ⟨hvalue, -⟩ := Semaphore.locked_eq_false.mp hfree
      refine h.take ?_ (countP_set_of_gain htask rfl rfl) rfl rfl
      show s.sem.value - 1 + s.sem.handed + 1 = _
      omega
  | resumeBlock htask hset hlocked =>
      refine h.idle ?_ (countP_set_of_eq htask rfl) rfl rfl
      simp [Semaphore.units, Semaphore.handed]
  | semEnter htask hres =>
      obtain ⟨hunits, -, -⟩ := Semaphore.resume_spec hres
      exact h.take (by simpa using hunits) (countP_set_of_gain htask rfl rfl) rfl rfl
  | semCancelled htask hres =>
      obtain ⟨hunits, -, -⟩ := Semaphore.resume_spec hres
      exact h.idle (by simpa using hunits) (countP_set_of_eq htask rfl) rfl rfl

/-- The slots are accounted for in every state of every run. -/
theorem Reachable.slots {guard : State → Action → Prop} (h : Reachable cfg guard s) : Slots cfg s :=
  Reach.invariant h (Slots.init cfg) fun _ _ _ hs _ hstep => hs.move (move_of_step hstep)

/-- **Concurrency bound.** Whatever arrives, is granted, times out, is cancelled or ends: at most
`max_active_requests` bodies run, `_active` is their number, the free units, the units handed to
woken semaphore waiters and the running bodies make up `max_active_requests`, and the assertion in
`_release()` never fails. -/
theorem concurrency_bound (h : Reachable cfg free s) :
    s.inBody ≤ cfg.maxActive ∧ s.active = s.inBody ∧
      (s.sem.value + s.sem.handed : ℤ) + s.active = cfg.maxActive ∧ s.assertionFailed = false := by
  obtain ⟨hunits, hactive, hassert⟩ := h.slots
  have hunfold : s.sem.units = s.sem.value + s.sem.handed := rfl
  exact ⟨by omega, hactive, by omega, hassert⟩

/-- The bound after a run in which a woken semaphore waiter is cancelled and passes its unit on. -/
theorem concurrency_bound_of_two_slots :
    ∃ s, run (step ⟨2, 2, 1, true⟩) (init ⟨2, 2, 1, true⟩)
        [.arrive, .arrive, .arrive, .finish 0, .arrive, .resume 2, .finish 1, .cancel 2, .arrive,
          .resume 2] = some s ∧
      s.inBody ≤ 2 ∧ s.active = s.inBody ∧ (s.sem.value + s.sem.handed : ℤ) + s.active = (2 : ℕ) ∧
        s.assertionFailed = false := by
  obtain ⟨s, hs⟩ :=
    Option.isSome_iff_exists.mp (show (run (step ⟨2, 2, 1, true⟩) (init ⟨2, 2, 1, true⟩)
    [.arrive, .arrive, .arrive, .finish 0, .arrive, .resume 2, .finish 1, .cancel 2, .arrive,
      .resume 2]).isSome = true by decide)
  exact ⟨s, hs, concurrency_bound (Reach.init.of_run hs (meets_free _ _))⟩

end SynGateway.Core.Admission

import SynGateway.Common.Transition
import SynGateway.Routing.Registries

/-!
# The health cache

`BackendRegistry.health` of `app/routing/backend_registry.py`, for any number of calls that overlap.
A call reads the clock and returns the stored result, or it probes the backend. When the probe has
answered, the call stores the result with the time that it read before, whatever other calls have
stored meanwhile.

So the cache goes back in time when a probe answers behind one that started later. It never does
exactly if no probe does so (`health_order_iff`).
-/

namespace SynGateway.Routing

open SynGateway.Backends SynGateway.Core SynGateway.Python SynGateway.Transition

/-- What `health` makes of the outcome of `backend.health()`: an `Exception` is caught. -/
def probeResult : Except Exc BackendHealthResult → Except Exc BackendHealthResult
  | .ok result => .ok result
  | .error exc =>
    if exc.isException then
      .ok { state := .unreachable, reachable := false, reason := "health probe raised" }
    else .error exc

namespace Health

/-! ## The calls -/

/-- A probe runs until it has a result, or until an exception passes the `except`. -/
inductive ProbeStatus
  | running
  | done (result : BackendHealthResult)
  | raised

/-- A call that awaits `backend.health()`, with the time it has read before. -/
structure Probe where
  backendId : Str
  now : ℚ
  status : ProbeStatus := .running

/-- The two dictionaries of the cache, the clock, and the probes in the order they started. Which
probe has written an entry is not in the source. -/
structure State where
  clock : ℚ
  healthCache : Str → Option BackendHealthResult := fun _ => none
  healthAt : Str → Option ℚ := fun _ => none
  probes : List Probe := []
  writer : Str → Option ℕ := fun _ => none

/-- How a call goes on behind the check of the cache. -/
inductive CallResult
  | raises (exc : Exc)
  | cached (result : BackendHealthResult)
  | probes

/-- A call begins or a probe ends. -/
inductive Action
  | health (backendId : Str) (force : Bool) (now : ℚ)
  | answer (probe : ℕ) (outcome : Except Exc BackendHealthResult)

variable (registry : BackendRegistry) (healthTtl : ℚ)

/-- `health` up to its `await`. -/
def State.call (s : State) (backendId : Str) (force : Bool) (now : ℚ) : CallResult :=
  match registry.get backendId with
  | .error exc => .raises exc
  | .ok _ =>
    match s.healthCache backendId with
    | none => .probes
    | some cached =>
      if !force && now - (s.healthAt backendId).getD 0 ≤ healthTtl then .cached cached else .probes

/-- A call that probes waits for the answer. -/
def State.begin (s : State) (backendId : Str) (force : Bool) (now : ℚ) : State :=
  match s.call registry healthTtl backendId force now with
  | .probes => { s with clock := now, probes := s.probes ++ [{ backendId, now }] }
  | _ => { s with clock := now }

/-- `health` behind its `await`. -/
def State.finish (s : State) (k : ℕ) (probe : Probe) (outcome : Except Exc BackendHealthResult) :
    State :=
  match probeResult outcome with
  | .ok result => { s with
      healthCache := Function.update s.healthCache probe.backendId (some result)
      healthAt := Function.update s.healthAt probe.backendId (some probe.now)
      probes := s.probes.set k { probe with status := .done result }
      writer := Function.update s.writer probe.backendId (some k) }
  | .error _ => { s with probes := s.probes.set k { probe with status := .raised } }

/-- The clock does not go back, and only a running probe ends. -/
def step (s : State) : Action → Option State
  | .health backendId force now =>
    if s.clock ≤ now then some (s.begin registry healthTtl backendId force now) else none
  | .answer k outcome =>
    match s.probes[k]? with
    | some probe =>
      match probe.status with
      | .running => some (s.finish k probe outcome)
      | _ => none
    | none => none

/-- A registry that has not been asked for health. -/
def State.init (clock : ℚ) : State := { clock }

/-! ## The order of the probes -/

/-- The probe `k` is one of the backend at `now`, and ended with `result`. -/
def Done (probes : List Probe) (k : ℕ) (backendId : Str) (now : ℚ) (result : BackendHealthResult) :
    Prop :=
  ∃ probe, probes[k]? = some probe ∧ probe.backendId = backendId ∧ probe.now = now ∧
    probe.status = .done result

/-- Of the probes of the backend that have a result, `k` started last. -/
structure Newest (probes : List Probe) (backendId : Str) (k : ℕ) (now : ℚ)
    (result : BackendHealthResult) : Prop where
  done : Done probes k backendId now result
  newest : ∀ j now' result', Done probes j backendId now' result' → j ≤ k

/-- The backend that an action is about. -/
def Action.backendId (s : State) : Action → Option Str
  | .health backendId _ _ => some backendId
  | .answer k _ => s.probes[k]?.map (·.backendId)

/-- A step keeps the order of time: no stored time gets smaller, no entry is written by a probe that
started before the one that wrote it, what a call returns from the cache is the result of the last
probe to start of those that have one, which started within the time to live, and the entries of
other backends stay. -/
structure KeepsOrder (s : State) (a : Action) (t : State) : Prop where
  times : ∀ backendId x, s.healthAt backendId = some x → ∃ y, t.healthAt backendId = some y ∧ x ≤ y
  writers : ∀ backendId j, s.writer backendId = some j → ∃ k, t.writer backendId = some k ∧ j ≤ k
  served : ∀ backendId force now result, a = .health backendId force now →
    s.call registry healthTtl backendId force now = .cached result →
    ∃ k x, Newest s.probes backendId k x result ∧ now - x ≤ healthTtl
  others : ∀ backendId, a.backendId s ≠ some backendId →
    t.healthCache backendId = s.healthCache backendId ∧ t.healthAt backendId = s.healthAt backendId

/-- No probe gets its result behind one of the same backend that started later. -/
def InOrder (s : State) : Action → Prop
  | .health _ _ _ => True
  | .answer k outcome => ∀ result, probeResult outcome = .ok result →
    ∀ probe, s.probes[k]? = some probe →
      ∀ j now result', Done s.probes j probe.backendId now result' → j ≤ k

variable {registry healthTtl} {s t : State} {a : Action} {probes : List Probe}
  {probe : Probe} {j k : ℕ} {backendId : Str} {now : ℚ} {result : BackendHealthResult}

/-! ## What a step changes -/

/-- The times at which the probes started. -/
def startTimes (probes : List Probe) : List ℚ := probes.map (·.now)

/-- Ending a probe does not change when it started. -/
theorem startTimes_set (h : probes[k]? = some probe) (status : ProbeStatus) :
    startTimes (probes.set k { probe with status }) = startTimes probes := by
  obtain ⟨hk, rfl⟩ := List.getElem?_eq_some_iff.mp h
  have hk' : k < (startTimes probes).length := by simpa [startTimes] using hk
  have hnow : probes[k].now = (startTimes probes)[k] := (List.getElem_map _).symm
  unfold startTimes at hnow hk' ⊢
  rw [List.map_set]
  change List.set _ k probes[k].now = _
  rw [hnow]
  exact List.set_getElem_self hk'

/-- A probe that has just begun has no result. -/
theorem done_begin (hrunning : probe.status = .running) :
    Done (probes ++ [probe]) k backendId now result ↔ Done probes k backendId now result := by
  constructor
  · rintro ⟨p, hp, hid, hnow, hstatus⟩
    rw [List.getElem?_append] at hp
    split at hp
    · exact ⟨p, hp, hid, hnow, hstatus⟩
    · have hmem := List.mem_of_getElem? hp
      rw [List.mem_singleton.mp hmem, hrunning] at hstatus
      cases hstatus
  · rintro ⟨p, hp, hrest⟩
    exact ⟨p, (List.getElem?_append_left (List.getElem?_eq_some_iff.mp hp).1).trans hp, hrest⟩

/-- The probe that ends is the only one that gets a result. -/
theorem done_set (hprobe : probes[j]? = some probe) (hrunning : probe.status = .running)
    (status : ProbeStatus) :
    Done (probes.set j { probe with status }) k backendId now result ↔
      (k = j ∧ probe.backendId = backendId ∧ probe.now = now ∧ status = .done result) ∨
        Done probes k backendId now result := by
  have hlt : j < probes.length := (List.getElem?_eq_some_iff.mp hprobe).1
  unfold Done
  by_cases hk : k = j
  · subst hk
    rw [List.getElem?_set_self hlt, hprobe]
    simp [hrunning]
  · rw [List.getElem?_set_ne (Ne.symm hk)]
    simp [hk]

/-- Among probes that started in order, the later one has the later time. -/
theorem Done.time_le {x y : ℚ} {result' : BackendHealthResult} {backendId' : Str}
    (hj : Done probes j backendId x result) (hk : Done probes k backendId' y result')
    (hordered : (startTimes probes).Pairwise (· ≤ ·)) (hle : j ≤ k) : x ≤ y := by
  obtain ⟨p, hp, -, rfl, -⟩ := hj
  obtain ⟨q, hq, -, rfl, -⟩ := hk
  rcases hle.eq_or_lt with rfl | hlt
  · rw [hp] at hq
    rw [Option.some.inj hq]
  · obtain ⟨hj, rfl⟩ := List.getElem?_eq_some_iff.mp hp
    obtain ⟨hk, rfl⟩ := List.getElem?_eq_some_iff.mp hq
    have hpair := List.pairwise_iff_getElem.mp hordered j k (by simpa [startTimes] using hj)
      (by simpa [startTimes] using hk) hlt
    simpa [startTimes] using hpair

/-- What a step does: a call that does not probe only moves the clock, one that does adds a probe,
and a probe ends with a result, which is stored, or without one. -/
theorem step_cases (h : step registry healthTtl s a = some t) :
    (∃ backendId force now, a = .health backendId force now ∧ s.clock ≤ now ∧
      (t = { s with clock := now } ∨
        t = { s with clock := now, probes := s.probes ++ [{ backendId, now }] })) ∨
    (∃ k outcome probe, a = .answer k outcome ∧ s.probes[k]? = some probe ∧
      probe.status = .running ∧
      ((∃ result, probeResult outcome = .ok result ∧ t = { s with
          healthCache := Function.update s.healthCache probe.backendId (some result)
          healthAt := Function.update s.healthAt probe.backendId (some probe.now)
          probes := s.probes.set k { probe with status := .done result }
          writer := Function.update s.writer probe.backendId (some k) }) ∨
        (∃ exc, probeResult outcome = .error exc) ∧
          t = { s with probes := s.probes.set k { probe with status := .raised } })) := by
  cases a with
  | health backendId force now =>
      left
      simp only [step] at h
      split at h
      · next hclock =>
          refine ⟨backendId, force, now, rfl, hclock, ?_⟩
          rw [← Option.some.inj h]
          -- a call that needs a probe starts one, any other only moves the clock
          unfold State.begin
          split
          · exact .inr rfl
          · exact .inl rfl
      · cases h
  | answer k outcome =>
      right
      simp only [step] at h
      split at h
      · next probe hprobe =>
          split at h
          · next hrunning =>
              refine ⟨k, outcome, probe, rfl, hprobe, hrunning, ?_⟩
              rw [← Option.some.inj h]
              unfold State.finish
              -- the report is stored under the time at which the probe began
              cases houtcome : probeResult outcome with
              | ok result => exact .inl ⟨result, rfl, rfl⟩
              | error exc => exact .inr ⟨⟨exc, rfl⟩, rfl⟩
          · cases h
      · cases h

/-! ## The invariant -/

/-- The entry of a backend is missing, or it is what the last of its probes has written that started
and has a result. -/
inductive Stored (s : State) (backendId : Str) : Prop
  | missing (hcache : s.healthCache backendId = none) (hat : s.healthAt backendId = none)
      (hwriter : s.writer backendId = none)
      (hnone : ∀ k now result, ¬ Done s.probes k backendId now result)
  | entry {k : ℕ} {now : ℚ} {result : BackendHealthResult}
      (hnewest : Newest s.probes backendId k now result)
      (hcache : s.healthCache backendId = some result) (hat : s.healthAt backendId = some now)
      (hwriter : s.writer backendId = some k)

/-- The invariant of runs in which the probes get their results in order. -/
structure Inv (s : State) : Prop where
  started_le : ∀ x ∈ startTimes s.probes, x ≤ s.clock
  ordered : (startTimes s.probes).Pairwise (· ≤ ·)
  stored : ∀ backendId, Stored s backendId

theorem inv_init (clock : ℚ) : Inv (State.init clock) where
  started_le _ h := absurd h List.not_mem_nil
  ordered := List.Pairwise.nil
  stored _ := .missing rfl rfl rfl fun _ _ _ ⟨_, h, _⟩ => by cases h

/-- The entries are as they were if they are the same and no probe of the backend has got a result.
-/
theorem Stored.frame (h : Stored s backendId)
    (hcache : t.healthCache backendId = s.healthCache backendId)
    (hat : t.healthAt backendId = s.healthAt backendId)
    (hwriter : t.writer backendId = s.writer backendId)
    (hdone : ∀ k now result, Done t.probes k backendId now result ↔
      Done s.probes k backendId now result) :
    Stored t backendId := by
  cases h with
  | missing hcache' hat' hwriter' hnone =>
      exact .missing (hcache.trans hcache') (hat.trans hat') (hwriter.trans hwriter')
        fun k now result h => hnone k now result ((hdone k now result).mp h)
  | entry hnewest hcache' hat' hwriter' =>
      refine .entry ⟨(hdone _ _ _).mpr hnewest.done, fun j x r h => ?_⟩ (hcache.trans hcache')
        (hat.trans hat') (hwriter.trans hwriter')
      exact hnewest.newest j x r ((hdone j x r).mp h)

/-- Every step in order keeps the invariant. -/
theorem Inv.next (h : Inv s) (horder : InOrder s a) (hstep : step registry healthTtl s a = some t) :
    Inv t := by
  rcases step_cases hstep with ⟨backendId, force, now, rfl, hclock, rfl | rfl⟩ |
    ⟨k, outcome, probe, rfl, hprobe, hrunning, ⟨result, hresult, rfl⟩ | ⟨-, rfl⟩⟩
  · exact ⟨fun x hx => (h.started_le x hx).trans hclock, h.ordered,
      fun id => (h.stored id).frame rfl rfl rfl fun _ _ _ => Iff.rfl⟩
  · have htimes : startTimes (s.probes ++ [Probe.mk backendId now .running]) =
        startTimes s.probes ++ [now] := by
      simp [startTimes]
    refine ⟨fun x hx => ?_, ?_,
      fun id => (h.stored id).frame rfl rfl rfl fun k x r => done_begin rfl⟩
    · rw [htimes, List.mem_append, List.mem_singleton] at hx
      rcases hx with hx | rfl
      · exact (h.started_le x hx).trans hclock
      · exact le_refl x
    · rw [htimes, List.pairwise_append]
      refine ⟨h.ordered, List.pairwise_singleton _ _, fun x hx y hy => ?_⟩
      rw [List.mem_singleton.mp hy]
      exact (h.started_le x hx).trans hclock
  · have htimes := startTimes_set hprobe (.done result)
    refine ⟨by rw [htimes]; exact h.started_le, by rw [htimes]; exact h.ordered, fun id => ?_⟩
    by_cases hid : id = probe.backendId
    · -- the entry of the probe's own backend: no later probe of it has a result
      subst hid
      refine .entry ⟨(done_set hprobe hrunning _).mpr (.inl ⟨rfl, rfl, rfl, rfl⟩),
        fun j x r hj => ?_⟩
        (Function.update_self _ _ _) (Function.update_self _ _ _) (Function.update_self _ _ _)
      rcases (done_set hprobe hrunning _).mp hj with ⟨rfl, -⟩ | hj
      · exact le_refl j
      · exact horder result hresult probe hprobe j x r hj
    · refine (h.stored id).frame (Function.update_of_ne hid _ _) (Function.update_of_ne hid _ _)
        (Function.update_of_ne hid _ _) fun j x r => (done_set hprobe hrunning _).trans ?_
      exact or_iff_right fun hnew => hid hnew.2.1.symm
  · have htimes := startTimes_set hprobe .raised
    refine ⟨by rw [htimes]; exact h.started_le, by rw [htimes]; exact h.ordered, fun id => ?_⟩
    refine (h.stored id).frame rfl rfl rfl fun j x r => (done_set hprobe hrunning _).trans ?_
    exact or_iff_right fun hnew => by cases hnew.2.2.2

/-- In a run whose steps are in order the invariant holds. -/
theorem inv_reach {clock : ℚ} (h : Reach (step registry healthTtl) InOrder (State.init clock) s) :
    Inv s :=
  h.invariant (inv_init clock) fun _ _ _ hinv horder hstep => hinv.next horder hstep

/-! ## Time in the cache -/

/-- What is returned from the cache is the last result, and not too old. -/
theorem Inv.served (h : Inv s) {force : Bool}
    (hcall : s.call registry healthTtl backendId force now = .cached result) :
    ∃ k x, Newest s.probes backendId k x result ∧ now - x ≤ healthTtl := by
  unfold State.call at hcall
  split at hcall
  · cases hcall
  · split at hcall
    · cases hcall
    · next cached hcached =>
        split at hcall
        · next hfresh =>
            cases hcall
            cases h.stored backendId with
            | missing hcache _ _ _ =>
                rw [hcache] at hcached
                cases hcached
            -- the stored report is that of the newest probe, by the invariant
            | entry hnewest hcache hat _ =>
                rw [hcache] at hcached
                cases hcached
                rw [hat, Bool.and_eq_true, decide_eq_true_eq] at hfresh
                exact ⟨_, _, hnewest, hfresh.2⟩
        · cases hcall

/-- The entry that a probe in order replaces is that of a probe that started before, so its time is
not later. -/
theorem Inv.replaced (h : Inv s) (hprobe : s.probes[k]? = some probe)
    (hrunning : probe.status = .running) (result : BackendHealthResult)
    (hlast : ∀ j now result', Done s.probes j probe.backendId now result' → j ≤ k) :
    (∀ x, s.healthAt probe.backendId = some x → x ≤ probe.now) ∧
      ∀ j, s.writer probe.backendId = some j → j ≤ k := by
  cases h.stored probe.backendId with
  | missing _ hat hwriter _ =>
      rw [hat, hwriter]
      exact ⟨fun x hx => (by cases hx), fun j hj => (by cases hj)⟩
  | entry hnewest _ hat hwriter =>
      have hle := hlast _ _ _ hnewest.done
      have hdone := (done_set hprobe hrunning (.done result)).mpr (.inl ⟨rfl, rfl, rfl, rfl⟩)
      have hold := (done_set hprobe hrunning (.done result)).mpr (.inr hnewest.done)
      rw [hat, hwriter]
      refine ⟨fun x hx => ?_, fun j hj => ?_⟩
      · cases hx
        exact hold.time_le hdone (by rw [startTimes_set hprobe]; exact h.ordered) hle
      · cases hj
        exact hle

/-- A step that leaves the entries of all backends as they are, or all but that of the probe that
ends. -/
theorem Inv.keepsOrder (h : Inv s) (horder : InOrder s a)
    (hstep : step registry healthTtl s a = some t) :
    KeepsOrder registry healthTtl s a t := by
  have hserved : ∀ backendId force now result, a = .health backendId force now →
      s.call registry healthTtl backendId force now = .cached result →
      ∃ k x, Newest s.probes backendId k x result ∧ now - x ≤ healthTtl :=
    fun _ _ _ _ _ hcall => h.served hcall
  -- a step that writes no entry keeps the order
  have hsame : t.healthAt = s.healthAt → t.writer = s.writer → t.healthCache = s.healthCache →
      KeepsOrder registry healthTtl s a t := by
    intro hat hwriter hcache
    refine ⟨fun id x hx => ⟨x, by rw [hat]; exact hx, le_refl x⟩,
      fun id j hj => ⟨j, by rw [hwriter]; exact hj, le_refl j⟩, hserved, fun id _ => ?_⟩
    rw [hcache, hat]
    exact ⟨rfl, rfl⟩
  rcases step_cases hstep with ⟨backendId, force, now, rfl, hclock, rfl | rfl⟩ |
    ⟨k, outcome, probe, rfl, hprobe, hrunning, ⟨result, hresult, rfl⟩ | ⟨-, rfl⟩⟩
  · exact hsame rfl rfl rfl
  · exact hsame rfl rfl rfl
  · obtain ⟨htimes, hwriters⟩ :=
      h.replaced hprobe hrunning result (horder result hresult probe hprobe)
    refine ⟨fun id x hx => ?_, fun id j hj => ?_, hserved, fun id hid => ?_⟩
    · by_cases heq : id = probe.backendId
      · subst heq
        exact ⟨probe.now, Function.update_self _ _ _, htimes x hx⟩
      · exact ⟨x, (Function.update_of_ne heq _ _).trans hx, le_refl x⟩
    · by_cases heq : id = probe.backendId
      · subst heq
        exact ⟨k, Function.update_self _ _ _, hwriters j hj⟩
      · exact ⟨j, (Function.update_of_ne heq _ _).trans hj, le_refl j⟩
    · -- the other backends keep their entries
      have heq : id ≠ probe.backendId := by
        rintro rfl
        exact hid (by simp [Action.backendId, hprobe])
      exact ⟨Function.update_of_ne heq _ _, Function.update_of_ne heq _ _⟩
  · exact hsame rfl rfl rfl

/-- A probe that gets its result behind a later one replaces what that one has written. -/
theorem Inv.not_keepsOrder (h : Inv s) (horder : ¬ InOrder s a)
    (hstep : step registry healthTtl s a = some t) :
    ¬ KeepsOrder registry healthTtl s a t := by
  intro hkeeps
  rcases step_cases hstep with ⟨_, _, _, rfl, -⟩ |
    ⟨k, outcome, probe, rfl, hprobe, hrunning, ⟨result, hresult, rfl⟩ | ⟨⟨exc, hexc⟩, -⟩⟩
  · exact horder trivial
  · refine horder fun result' hresult' probe' hprobe' j x r hj => ?_
    obtain rfl := Option.some.inj (hprobe.symm.trans hprobe')
    cases h.stored probe.backendId with
    | missing _ _ _ hnone => exact absurd hj (hnone j x r)
    | entry hnewest _ _ hwriter =>
        -- the answer overwrites the entry of a probe that began later
        obtain ⟨k', hk', hle⟩ := hkeeps.writers _ _ hwriter
        change Function.update s.writer probe.backendId (some k) probe.backendId = some k' at hk'
        rw [Function.update_self] at hk'
        obtain rfl := Option.some.inj hk'
        exact (hnewest.newest j x r hj).trans hle
  · exact horder fun result' hresult' => by
      rw [hexc] at hresult'
      cases hresult'

/-- **The health cache keeps the order of time** in a run exactly if no probe of it gets its result
behind one of the same backend that started later. -/
theorem health_order_iff {clock : ℚ} {as : List Action}
    (hrun : run (step registry healthTtl) (State.init clock) as = some t) :
    (∀ s a, Takes (step registry healthTtl) (State.init clock) as s a →
        ∀ t, step registry healthTtl s a = some t → KeepsOrder registry healthTtl s a t) ↔
      ∀ s a, Takes (step registry healthTtl) (State.init clock) as s a → InOrder s a := by
  refine takes_forall_iff hrun (fun s a hreach horder t hstep =>
    ?_) (fun s a t hreach horder hstep hall => ?_)
  · exact (inv_reach hreach).keepsOrder horder hstep
  · exact (inv_reach hreach).not_keepsOrder horder hstep (hall t hstep)

/-! ## Two overlapping calls -/

/-- A registry with one backend. -/
def sampleRegistry : BackendRegistry where
  backends := [(Str.ofString "a", { name := "llama_cpp", capabilities := [], models := .ok [] })]

def sampleResult : BackendHealthResult := { state := .reachable, reachable := true }

/-- Two forced calls at 0 and at 5, whose probes answer in the order `first`, `second`. -/
def overlapping (first second : ℕ) : List Action :=
  [.health (Str.ofString "a") true 0, .health (Str.ofString "a") true 5,
    .answer first (.ok sampleResult), .answer second (.error (.exception "connection refused"))]

/-- The probes answer in the order they started. -/
theorem health_order_iff_overlapping :
    (∀ s a, Takes (step sampleRegistry 5) (State.init 0) (overlapping 0 1) s a →
        ∀ t, step sampleRegistry 5 s a = some t → KeepsOrder sampleRegistry 5 s a t) ↔
      ∀ s a, Takes (step sampleRegistry 5) (State.init 0) (overlapping 0 1) s a → InOrder s a := by
  obtain ⟨t, ht⟩ := Option.isSome_iff_exists.mp
    (show (run (step sampleRegistry 5) (State.init 0) (overlapping 0 1)).isSome = true by decide)
  exact health_order_iff ht

/-- The probe of the first call answers last: its result replaces that of the second, under an
earlier time. -/
theorem health_goes_back :
    ¬ ∀ (registry : BackendRegistry) (healthTtl clock : ℚ) (as : List Action) (t : State),
      run (step registry healthTtl) (State.init clock) as = some t →
      ∀ s a, Takes (step registry healthTtl) (State.init clock) as s a →
        ∀ t, step registry healthTtl s a = some t → KeepsOrder registry healthTtl s a t := by
  intro hall
  let a := Str.ofString "a"
  let s₂ := ((State.init 0).begin sampleRegistry 5 a true 0).begin sampleRegistry 5 a true 5
  let s₃ := s₂.finish 1 ⟨a, 5, .running⟩ (.ok sampleResult)
  let last : Action := .answer 0 (.error (.exception "connection refused"))
  have hstep : step sampleRegistry 5 s₃ last =
      some (s₃.finish 0 ⟨a, 0, .running⟩ (.error (.exception "connection refused"))) := rfl
  have htakes : Takes (step sampleRegistry 5) (State.init 0) (overlapping 1 0) s₃ last :=
    ⟨(overlapping 1 0).dropLast, List.prefix_refl _, rfl⟩
  have hkeeps := hall sampleRegistry 5 0 (overlapping 1 0) _ rfl s₃ last htakes _ hstep
  obtain ⟨y, hy, hle⟩ := hkeeps.times a 5 rfl
  obtain rfl : (0 : ℚ) = y := Option.some.inj hy
  exact absurd hle (by decide)

end Health
end SynGateway.Routing

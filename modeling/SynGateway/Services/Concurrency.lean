import SynGateway.Common.Ledger
import SynGateway.Services.Precheck

/-!
# The daily quotas under concurrency

The chat requests of all keys side by side. A request runs `precheck`, then reads `started_at`,
waits for its slot, calls the backend, and at its end writes its usage record; between any two of
these steps other requests take theirs, and the clocks move.

`precheck` reads the table of the records that are written, so it does not see the requests that are
past their own check and have not written yet. Both quotas hold as long as these are accounted for,
which the ledger of `Common/Ledger.lean` does: what is written is settled, what is under way is
pending. The code has no such ledger. It is enough for two requests to pass together that neither
has written.
-/

namespace SynGateway.Services

open SynGateway.Core.Policy SynGateway.Core.RateLimit SynGateway.Counting SynGateway.Db
  SynGateway.Python SynGateway.Transition

/-! ## Requests and their steps -/

/-- Where a request stands. -/
inductive Phase
  | arrived
  /-- `precheck` has raised. -/
  | refused
  /-- `precheck` has passed, with this reading of the clock. -/
  | checked (checkedAt : ℤ)
  /-- Refused after `precheck`, by the routing checks. -/
  | dropped
  /-- `started_at` is read; the request is waiting for its slot. -/
  | started (startedAt : ℤ)
  /-- The backend has been called. -/
  | called (startedAt : ℤ)
  /-- The record is written, with the tokens that were reported or without. -/
  | recorded (startedAt : ℤ) (reached reported : Bool)
  /-- Ended without a record. -/
  | lost (startedAt : ℤ) (reached : Bool)
deriving DecidableEq, Repr

/-- What a request can do next. -/
inductive Move
  | precheck
  | drop
  | start
  | call
  | record (reported : Bool)
  | lose
deriving DecidableEq, Repr

/-- The phase after a move; `passes` is what `precheck` decides at present. -/
def Phase.next (passes : Bool) (now : ℤ) : Phase → Move → Option Phase
  | .arrived, .precheck => some (if passes then .checked now else .refused)
  | .checked _, .drop => some .dropped
  | .checked _, .start => some (.started now)
  | .started startedAt, .call => some (.called startedAt)
  | .started startedAt, .record false => some (.recorded startedAt false false)
  | .called startedAt, .record reported => some (.recorded startedAt true reported)
  | .started startedAt, .lose => some (.lost startedAt false)
  | .called startedAt, .lose => some (.lost startedAt true)
  | _, _ => none

/-- A request of an API key: the total that its backend call reports, and the other columns of its
record. -/
structure Request where
  apiKeyId : String
  totalTokens : Option ℕ
  row : UsageRecord
  phase : Phase := .arrived

/-- The number that a record keeps of a total. -/
def tokensColumn : Option ℕ → Json
  | none => .null
  | some n => .int n

/-- The record that a request has written. -/
def Request.written (q : Request) : Option UsageRecord :=
  match q.phase with
  | .recorded startedAt _ reported =>
    some { q.row with
      apiKeyId := some q.apiKeyId
      startedAt := startedAt
      totalTokens := if reported then tokensColumn q.totalTokens else .null }
  | _ => none

/-- The service, and the rows of the keys and of their clients. -/
structure Deployment where
  service : UsageService
  windowSeconds : ℚ := 60
  apiKey : String → ApiKey
  client : String → Client
  apiKey_id : ∀ id, (apiKey id).id = id

/-- The usage table, the limiter, the clocks and the requests so far. -/
structure State where
  table : List UsageRecord := []
  limiter : RateLimiter String
  now : ℤ
  monotonic : ℚ := 0
  requests : List Request := []

inductive Action
  | arrive (apiKeyId : String) (totalTokens : Option ℕ) (row : UsageRecord)
  | tick (now : ℤ) (monotonic : ℚ)
  | move (r : ℕ) (m : Move)

namespace Deployment

variable (dep : Deployment)

/-- The policy in force for a key. -/
def policy (id : String) : EffectivePolicy :=
  dep.service.effectivePolicy (dep.apiKey id) (dep.client id)

/-- An empty usage table and a new limiter. -/
def init (now : ℤ) : State := { limiter := .new dep.windowSeconds, now }

/-- What `precheck` decides on a request at present. -/
def passes (s : State) (q : Request) : Bool :=
  dep.service.passes ⟨s.table, s.now, s.monotonic⟩ (dep.apiKey q.apiKeyId) (dep.client q.apiKeyId)
    s.limiter

/-- The limiter after the call that `precheck` makes on it. -/
def limiterAfter (s : State) (q : Request) : RateLimiter String :=
  dep.service.limiterAfter ⟨s.table, s.now, s.monotonic⟩ (dep.apiKey q.apiKeyId)
    (dep.client q.apiKeyId) s.limiter

/-- One step of the gateway. -/
def step (s : State) : Action → Option State
  | .arrive apiKeyId totalTokens row =>
    some { s with requests := s.requests ++ [{ apiKeyId, totalTokens, row }] }
  | .tick now monotonic => some { s with now, monotonic }
  | .move r m => do
    let q ← s.requests[r]?
    let phase ← q.phase.next (dep.passes s q) s.now m
    let q' := { q with phase }
    return { s with
      table := s.table ++ q'.written.toList
      limiter := if m = .precheck then dep.limiterAfter s q else s.limiter
      requests := s.requests.set r q' }

end Deployment

variable {dep : Deployment} {s t : State} {a : Action} {id : String} {d : ℤ}

/-- What a step does to the table, the clock and the requests. -/
theorem step_cases (h : dep.step s a = some t) :
    (∃ q : Request, q.phase = .arrived ∧ t.table = s.table ∧ t.now = s.now ∧
      t.requests = s.requests ++ [q]) ∨
    (∃ now monotonic, a = .tick now monotonic ∧ t.table = s.table ∧ t.now = now ∧
      t.requests = s.requests) ∨
    ∃ r m q phase, a = .move r m ∧ s.requests[r]? = some q ∧
      q.phase.next (dep.passes s q) s.now m = some phase ∧
      t.table = s.table ++ ({ q with phase } : Request).written.toList ∧ t.now = s.now ∧
      t.requests = s.requests.set r { q with phase } := by
  cases a with
  | arrive apiKeyId totalTokens row =>
      obtain rfl := Option.some.inj h
      exact .inl ⟨_, rfl, rfl, rfl, rfl⟩
  | tick now monotonic =>
      obtain rfl := Option.some.inj h
      exact .inr (.inl ⟨now, monotonic, rfl, rfl, rfl, rfl⟩)
  | move r m =>
      obtain ⟨q, hq, h⟩ := Option.bind_eq_some_iff.mp h
      obtain ⟨phase, hphase, h⟩ := Option.bind_eq_some_iff.mp h
      obtain rfl := Option.some.inj h
      exact .inr (.inr ⟨r, m, q, phase, rfl, hq, hphase, rfl, rfl, rfl⟩)

/-- The moves there are. -/
theorem Phase.next_cases {passes : Bool} {now : ℤ} {p p' : Phase} {m : Move}
    (h : p.next passes now m = some p') :
    (p = .arrived ∧ m = .precheck ∧ passes = true ∧ p' = .checked now) ∨
    (p = .arrived ∧ m = .precheck ∧ passes = false ∧ p' = .refused) ∨
    (∃ u, p = .checked u ∧ m = .drop ∧ p' = .dropped) ∨
    (∃ u, p = .checked u ∧ m = .start ∧ p' = .started now) ∨
    (∃ u, p = .started u ∧ m = .call ∧ p' = .called u) ∨
    (∃ u, p = .started u ∧ m = .record false ∧ p' = .recorded u false false) ∨
    (∃ u reported, p = .called u ∧ m = .record reported ∧ p' = .recorded u true reported) ∨
    (∃ u, p = .started u ∧ m = .lose ∧ p' = .lost u false) ∨
    ∃ u, p = .called u ∧ m = .lose ∧ p' = .lost u true := by
  unfold Phase.next at h
  split at h <;> simp_all
  cases passes <;> simp_all

/-! ## What the table says about the requests -/

/-- The record is written, for a request that started on day `d`. -/
def Phase.recordedOn (d : ℤ) : Phase → Bool
  | .recorded startedAt _ _ => day startedAt = d
  | _ => false

/-- Past `precheck` and not ended, for a request that was checked or started on day `d`. -/
def Phase.pendingOn (d : ℤ) : Phase → Bool
  | .checked u | .started u | .called u => day u = d
  | _ => false

/-- Started on day `d`, and the backend was called. -/
def Phase.reachedOn (d : ℤ) : Phase → Bool
  | .called startedAt | .recorded startedAt true _ | .lost startedAt true => day startedAt = d
  | _ => false

/-- The table holds the records of the requests that have written theirs, in some order. -/
def Written (s : State) : Prop :=
  (s.table : Multiset UsageRecord) = (s.requests.filterMap Request.written : Multiset UsageRecord)

/-- Nothing is written before the end of a request. -/
theorem written_eq_none {q : Request} {p : Phase} {passes : Bool} {now : ℤ} {m : Move}
    (h : q.phase.next passes now m = some p) : q.written = none := by
  unfold Request.written
  obtain ⟨hp, -⟩ | ⟨hp, -⟩ | ⟨u, hp, -⟩ | ⟨u, hp, -⟩ | ⟨u, hp, -⟩ | ⟨u, hp, -⟩ | ⟨u, _, hp, -⟩ |
    ⟨u, hp, -⟩ | ⟨u, hp, -⟩ := Phase.next_cases h <;> rw [hp]

/-- A step records at its own time. -/
theorem Written.step (h : Written s) (hstep : dep.step s a = some t) : Written t := by
  unfold Written at h ⊢
  obtain ⟨q, hq, htable, -, hreq⟩ | ⟨_, _, -, htable, -, hreq⟩ | ⟨r, m, q, p, -, hq, hnext,
      htable, -, hreq⟩ :=
    step_cases hstep
  · have hnone : q.written = none := by
      unfold Request.written
      rw [hq]
    rw [htable, hreq, h, List.filterMap_append]
    simp [hnone]
  · rw [htable, hreq, h]
  · have hadd := filterMap_set_add (f := Request.written) hq { q with phase := p }
    rw [written_eq_none hnext] at hadd
    rw [htable, hreq, ← Multiset.coe_add, h, add_comm, ← hadd]
    simp

/-- What is recorded was recorded in the past. -/
theorem written_of_reach {guard : State → Action → Prop} {now : ℤ}
    (h : Reach dep.step guard (dep.init now) s) : Written s :=
  h.invariant rfl fun _ _ _ hwritten _ hstep => hwritten.step hstep

/-- The request count that `precheck` reads is the number of requests that have written. -/
theorem Written.countRequestsToday (h : Written s) :
    countRequestsToday s.table s.now id =
      s.requests.countP fun q => q.apiKeyId = id && q.phase.recordedOn (day s.now) := by
  unfold Services.countRequestsToday
  rw [(Multiset.coe_eq_coe.mp h).countP_eq, List.countP_filterMap]
  refine congrArg Nat.cast (List.countP_congr fun q _ => ?_)
  unfold Request.written Phase.recordedOn
  cases q.phase with
  | recorded u reached reported => simp [isToday_iff]
  | _ => simp

/-! ## The request quota -/

/-- The number of requests of a key that are past `precheck` and have not ended. -/
def State.pendingOn (s : State) (id : String) (d : ℤ) : ℕ :=
  s.requests.countP fun q => q.apiKeyId = id && q.phase.pendingOn d

/-- The number of requests of a key that started on day `d` and have reached the backend. -/
def State.reachedOn (s : State) (id : String) (d : ℤ) : ℕ :=
  s.requests.countP fun q => q.apiKeyId = id && q.phase.reachedOn d

/-- The requests of key `id` leave the request quota intact: one that passes `precheck` finds the
records of the day and the requests under way below the quota, starts on the day of its check, and
writes its record once it has reached the backend. -/
def requestsAccounted (dep : Deployment) (id : String) (s : State) : Action → Bool
  | .move r m =>
    match s.requests[r]? with
    | none => true
    | some q =>
      q.apiKeyId ≠ id ||
        match m, q.phase with
        | .precheck, _ =>
          !dep.passes s q || countRequestsToday s.table s.now id + s.pendingOn id (day s.now) <
            (dep.policy id).requestsPerDay
        | .start, .checked checkedAt => day checkedAt = day s.now
        | .lose, .called _ => false
        | _, _ => true
  | _ => true

/-- The requests of a key on a day, as a ledger of unit costs. -/
def requestLedger (id : String) (d : ℤ) (s : State) : Ledger :=
  Ledger.ofList (Ledger.unitCost fun q : Request => q.apiKeyId = id && q.phase.pendingOn d)
    (Ledger.unitCost fun q : Request => q.apiKeyId = id && q.phase.recordedOn d) s.requests

/-- The ledger of a day counts its recorded requests and those that are pending. -/
theorem total_requestLedger :
    (requestLedger id d s).total =
      (s.requests.countP fun q => q.apiKeyId = id && q.phase.recordedOn d) + s.pendingOn id d :=
  Ledger.total_unitCost ..

/-- **The requests of a key refine a ledger** whose limit is the quota. -/
theorem requestLedger_step (hwritten : Written s)
    (hguard : requestsAccounted dep id s a = true) (hstep : dep.step s a = some t) :
    requestLedger id d t = requestLedger id d s ∨
      ∃ entry, free (requestLedger id d s) entry ∧ Ledger.step (dep.policy id).requestsPerDay.toNat
        (requestLedger id d s) entry = some (requestLedger id d t) := by
  unfold requestLedger
  obtain ⟨q, hq, -, -, hreq⟩ | ⟨_, _, -, -, -, hreq⟩ | ⟨r, m, q, p, rfl, hq, hnext, -, -, hreq⟩ :=
    step_cases hstep
  · rw [hreq]
    refine .inl (Ledger.ofList_append ?_ ?_) <;>
      simp [Ledger.unitCost, hq, Phase.pendingOn, Phase.recordedOn]
  · exact .inl (by rw [hreq])
  rw [hreq]
  apply Ledger.ofList_set_step hq
  · -- only the end of a request writes, and it ends what the request held
    obtain ⟨hp, -, -, rfl⟩ | ⟨hp, -, -, rfl⟩ | ⟨u, hp, -, rfl⟩ | ⟨u, hp, -, rfl⟩ | ⟨u, hp, -, rfl⟩ |
      ⟨u, hp, -, rfl⟩ | ⟨u, _, hp, -, rfl⟩ | ⟨u, hp, -, rfl⟩ | ⟨u, hp, -, rfl⟩ :=
      Phase.next_cases hnext <;>
      simp [Ledger.unitCost, hp, Phase.pendingOn, Phase.recordedOn]
  · intro hheld
    by_cases hid : q.apiKeyId = id
    · unfold requestsAccounted at hguard
      simp only [hq] at hguard
      obtain ⟨hp, rfl, hpasses, rfl⟩ | ⟨hp, -, -, rfl⟩ | ⟨u, hp, -, rfl⟩ | ⟨u, hp, rfl, rfl⟩ |
        ⟨u, hp, -, rfl⟩ | ⟨u, hp, -, rfl⟩ | ⟨u, _, hp, -, rfl⟩ | ⟨u, hp, -, rfl⟩ |
        ⟨u, hp, -, rfl⟩ :=
        Phase.next_cases hnext
      · -- `precheck` passes: the guard says that there is room on the present day
        by_cases hday : day s.now = d
        · right
          refine ⟨by simp [Ledger.unitCost, hp, Phase.pendingOn], ?_⟩
          have htotal := @total_requestLedger s id d
          have hcount := @hwritten.countRequestsToday _ id
          unfold requestLedger at htotal
          rw [htotal]
          simp [hid, hpasses, hcount, hday] at hguard
          omega
        · left
          simp [Ledger.unitCost, Phase.pendingOn, hday]
      · exact .inl (by simp [Ledger.unitCost, Phase.pendingOn])
      · exact .inl (by simp [Ledger.unitCost, Phase.pendingOn])
      · refine absurd ?_ hheld
        simp [hid, hp] at hguard
        simp [Ledger.unitCost, hp, Phase.pendingOn, hguard]
      · exact absurd (by simp [Ledger.unitCost, hp, Phase.pendingOn]) hheld
      all_goals exact .inl (by simp [Ledger.unitCost, Phase.pendingOn])
    · exact .inl (by simp [Ledger.unitCost, hid])

/-- The states of the runs whose steps all account for the requests of key `id`. -/
abbrev RequestsReachable (dep : Deployment) (id : String) (now : ℤ) : State → Prop :=
  Reach dep.step (fun s a => requestsAccounted dep id s a = true) (dep.init now)

/-- The guarded run is a run of the ledger of requests. -/
theorem requestLedger_reach {now : ℤ} (h : RequestsReachable dep id now s) (d : ℤ) :
    Reach (Ledger.step (dep.policy id).requestsPerDay.toNat) free {} (requestLedger id d s) := by
  refine (h.strengthen fun _ => written_of_reach).project rfl ?_
  rintro s a t ⟨hwritten, hguard⟩ hstep
  exact requestLedger_step hwritten hguard hstep

/-- A request of the key that has reached the backend does not end without a record. -/
theorem not_lost {now : ℤ} (h : RequestsReachable dep id now s) :
    ∀ q ∈ s.requests, q.apiKeyId = id → ∀ u, q.phase ≠ .lost u true := by
  refine h.invariant
    (I := fun s => ∀ q ∈ s.requests, q.apiKeyId = id → ∀ u, q.phase ≠ .lost u true)
    (fun q hq => absurd hq List.not_mem_nil) fun s a t hall hguard hstep => ?_
  obtain ⟨q, hq, -, -, hreq⟩ | ⟨_, _, -, -, -, hreq⟩ | ⟨r, m, q, p, rfl, hq, hnext, -, -, hreq⟩ :=
    step_cases hstep
  · rw [hreq]
    intro q' hq' hid u
    rcases List.mem_append.mp hq' with hq' | hq'
    · exact hall q' hq' hid u
    · rw [List.mem_singleton.mp hq', hq]
      exact Phase.noConfusion
  · rwa [hreq]
  · rw [hreq]
    intro q' hq' hid u
    rcases List.mem_or_eq_of_mem_set hq' with hq' | rfl
    · exact hall q' hq' hid u
    · -- the guard excludes the one move that would lose it
      rintro rfl
      unfold requestsAccounted at hguard
      simp only [hq] at hguard
      obtain ⟨_, _, -, h⟩ | ⟨_, _, -, h⟩ | ⟨_, _, _, h⟩ | ⟨_, _, _, h⟩ | ⟨_, _, _, h⟩ |
        ⟨_, _, _, h⟩ | ⟨_, _, _, _, h⟩ | ⟨_, _, _, h⟩ | ⟨u, hp, hm, -⟩ := Phase.next_cases hnext
      all_goals first | exact Phase.noConfusion h | skip
      · cases h
      · subst hm
        simp [hp, show q.apiKeyId = id from hid] at hguard

/-- **The request quota.** While the requests under way are accounted for, no more requests of a key
reach the backend on a day than its quota allows. -/
theorem reachedOn_le_quota (dep : Deployment) (id : String)
    (hquota : 0 < (dep.policy id).requestsPerDay) {now : ℤ} {s : State}
    (h : RequestsReachable dep id now s) (d : ℤ) :
    (s.reachedOn id d : ℤ) ≤ (dep.policy id).requestsPerDay := by
  have htotal := Ledger.total_le_of_unit (by omega) (requestLedger_reach h d) fun c hc =>
    Ledger.le_one_of_unitCost hc
  rw [total_requestLedger] at htotal
  have hle : s.reachedOn id d ≤
      (s.requests.countP fun q => q.apiKeyId = id && q.phase.recordedOn d) + s.pendingOn id d := by
    refine countP_le_add fun q hq hreached => ?_
    simp only [Bool.and_eq_true, decide_eq_true_eq] at hreached ⊢
    obtain ⟨hid, hreached⟩ := hreached
    -- what was reached is recorded or pending: no record is lost in a guarded run
    have hlost := not_lost h q hq hid
    unfold Phase.reachedOn at hreached
    split at hreached
    · next hp => exact .inr ⟨hid, by simpa [Phase.pendingOn, hp] using hreached⟩
    · next hp => exact .inl ⟨hid, by simpa [Phase.recordedOn, hp] using hreached⟩
    · next hp => exact absurd hp (hlost _)
    · cases hreached
  omega

/-- A key whose policy comes from the system's defaults. -/
def defaultsOnly (service : UsageService) : Deployment where
  service := service
  apiKey id := { id, clientId := "c", name := [], keyPrefix := [], keyHash := "" }
  client _ := { id := "c", userId := "u", name := [] }
  apiKey_id _ := rfl

/-- The columns of a record that the quotas do not read. -/
def plainRow : UsageRecord where
  requestId := "r"
  userId := some "u"
  clientId := some "c"
  apiKeyId := none
  model := []
  streaming := false
  startedAt := 0
  completedAt := 0
  status := .completed
  promptTokens := .null
  completionTokens := .null
  totalTokens := .null
  queueWaitMs := none
  errorCode := none
  backendLatencyMs := none
  ttftMs := none
  streamDurationMs := none
  totalDurationMs := none
  backendId := none

/-- Two requests that report one token each, which both run `precheck` before either of them writes
its record. -/
def pairRun : List Action :=
  [.arrive "k" (some 1) plainRow, .arrive "k" (some 1) plainRow, .move 0 .precheck,
    .move 1 .precheck, .move 0 .start, .move 1 .start, .move 0 .call, .move 1 .call]

/-- With a quota of two requests a day, two requests that are past `precheck` together both run to
the backend within it. -/
theorem reachedOn_le_quota_pair :
    ∃ s, RequestsReachable (defaultsOnly { defaultRpd := 2 }) "k" 0 s ∧ s.reachedOn "k" 0 = 2 ∧
      (s.reachedOn "k" 0 : ℤ) ≤ ((defaultsOnly { defaultRpd := 2 }).policy "k").requestsPerDay := by
  obtain ⟨s, hs, htwo⟩ := Reach.exists_of_run (defaultsOnly { defaultRpd := 2 }).step
    (fun s a => requestsAccounted (defaultsOnly { defaultRpd := 2 }) "k" s a = true)
    ((defaultsOnly { defaultRpd := 2 }).init 0) pairRun (fun s => s.reachedOn "k" 0 = 2)
    (by decide) (by decide)
  exact ⟨s, hs, htwo, reachedOn_le_quota _ "k" (by decide) hs 0⟩

/-- Two requests that are past `precheck` together both reach the backend, under a quota of one. -/
theorem reachedOn_exceeds_quota :
    ¬ ∀ (dep : Deployment) (id : String), 0 < (dep.policy id).requestsPerDay →
      ∀ now s, Reach dep.step free (dep.init now) s →
        ∀ d, (s.reachedOn id d : ℤ) ≤ (dep.policy id).requestsPerDay := by
  intro hall
  obtain ⟨s, hs, htwo⟩ := Reach.exists_of_run (defaultsOnly { defaultRpd := 1 }).step free
    ((defaultsOnly { defaultRpd := 1 }).init 0) pairRun (fun s => s.reachedOn "k" 0 = 2)
    (by decide) (meets_free _ _)
  have hle := hall _ "k" (by decide) 0 s hs 0
  rw [htwo] at hle
  revert hle
  decide

/-! ## The token quota -/

/-- Past `precheck` and not ended. -/
def Phase.inFlight : Phase → Bool
  | .checked _ | .started _ | .called _ => true
  | _ => false

/-- What a request of the key that is under way will record at most. -/
def heldTokens (id : String) (q : Request) : Option ℕ :=
  if q.apiKeyId = id ∧ q.phase.inFlight = true then some (q.totalTokens.getD 0) else none

/-- The tokens that a request of the key has recorded on day `d`. -/
def spentTokens (id : String) (d : ℤ) (q : Request) : Option ℕ :=
  match q.phase with
  | .recorded startedAt _ true =>
    if q.apiKeyId = id ∧ day startedAt = d then q.totalTokens else none
  | _ => none

/-- The tokens that the requests of the key under way will record at most. -/
def State.tokensInFlight (s : State) (id : String) : ℕ := (s.requests.filterMap (heldTokens id)).sum

/-- The largest number of tokens recorded for the key on the present day. -/
def State.largestTokensToday (s : State) (id : String) : ℤ :=
  ((s.table.filter fun r => r.isToday s.now id).filterMap UsageRecord.tokenCount).foldr max 0

/-- The clock stays inside the UTC day. -/
def insideDay (s : State) : Action → Bool
  | .tick now _ => day now = day s.now
  | _ => true

/-- The requests of key `id` leave the token quota intact: one that passes `precheck` finds the
tokens recorded today and those of the requests under way below the quota. The clock stays inside
the day. -/
def tokensAccounted (dep : Deployment) (id : String) (s : State) : Action → Bool
  | .tick now monotonic => insideDay s (.tick now monotonic)
  | .move r .precheck =>
    match s.requests[r]? with
    | none => true
    | some q =>
      q.apiKeyId ≠ id || !dep.passes s q ||
        sumTokensToday s.table s.now id + s.tokensInFlight id < (dep.policy id).tokensPerDay
  | _ => true

/-- The tokens of the requests of a key, as a ledger. -/
def tokenLedger (id : String) (d : ℤ) (s : State) : Ledger :=
  Ledger.ofList (heldTokens id) (spentTokens id d) s.requests

/-- What the query of the day finds in the record of one request. -/
theorem tokenCount_written (now : ℤ) (q : Request) :
    ((q.written.filter fun r => r.isToday now id).bind UsageRecord.tokenCount) =
      (spentTokens id (day now) q).map Nat.cast := by
  unfold Request.written spentTokens
  cases q.phase with
  | recorded u reached reported =>
      have htoday : ∀ totalTokens, ({ q.row with
          apiKeyId := some q.apiKeyId, startedAt := u, totalTokens } : UsageRecord).isToday now id =
          decide (q.apiKeyId = id ∧ day u = day now) := by
        intro totalTokens
        rw [Bool.eq_iff_iff, isToday_iff]
        simp
      rw [Option.filter_some, htoday]
      by_cases hcond : q.apiKeyId = id ∧ day u = day now
      · -- a count that is NULL adds nothing to the tokens of the day
        cases reported with
        | true =>
            cases htokens : q.totalTokens <;> simp [hcond, UsageRecord.tokenCount, tokensColumn]
        | false => simp [hcond, UsageRecord.tokenCount]
      · cases reported <;> simp [hcond]
  | _ => rfl

/-- The tokens recorded on the present day are those of the requests that have recorded them. -/
theorem Written.tokensToday (h : Written s) :
    ((s.table.filter fun r => r.isToday s.now id).filterMap UsageRecord.tokenCount).Perm
      ((s.requests.filterMap (spentTokens id (day s.now))).map Nat.cast) := by
  refine (((Multiset.coe_eq_coe.mp h).filter _).filterMap _).trans (List.Perm.of_eq ?_)
  rw [List.filter_filterMap, List.filterMap_filterMap, List.map_filterMap]
  exact List.filterMap_congr fun q _ => tokenCount_written s.now q

/-- The tokens of the day are what its ledger has settled. -/
theorem Written.sumTokensToday (h : Written s) :
    sumTokensToday s.table s.now id = (tokenLedger id (day s.now) s).settled.sum := by
  unfold Services.sumTokensToday tokenLedger Ledger.ofList
  rw [h.tokensToday.sum_eq, Multiset.sum_coe]
  exact (map_list_sum (Nat.castAddMonoidHom ℤ) _).symm

/-- A request that records tokens records those that it held. -/
theorem spentTokens_next {q : Request} {p : Phase} {passes : Bool} {now : ℤ} {m : Move}
    (hnext : q.phase.next passes now m = some p)
    (hspent : spentTokens id d { q with phase := p } ≠ spentTokens id d q) :
    spentTokens id d q = none ∧ spentTokens id d { q with phase := p } = heldTokens id q ∧
      heldTokens id { q with phase := p } = none := by
  obtain ⟨hp, -, -, rfl⟩ | ⟨hp, -, -, rfl⟩ | ⟨u, hp, -, rfl⟩ | ⟨u, hp, -, rfl⟩ | ⟨u, hp, -, rfl⟩ |
    ⟨u, hp, -, rfl⟩ | ⟨u, reported, hp, -, rfl⟩ | ⟨u, hp, -, rfl⟩ | ⟨u, hp, -, rfl⟩ :=
    Phase.next_cases hnext
  case inr.inr.inr.inr.inr.inr.inl =>
    cases reported with
    | false => exact absurd (by simp [spentTokens, hp]) hspent
    | true =>
        cases htokens : q.totalTokens with
        | none => exact absurd (by simp [spentTokens, hp, htokens]) hspent
        | some n =>
            simp only [spentTokens, hp, htokens] at hspent ⊢
            by_cases hcond : q.apiKeyId = id ∧ day u = d
            · simp [heldTokens, Phase.inFlight, hp, hcond, htokens]
            · exact absurd (if_neg hcond) hspent
  -- no other move records any
  all_goals exact absurd (by simp [spentTokens, hp]) hspent

/-- What a request holds changes when it ends, and when it passes `precheck`. -/
theorem heldTokens_next {q : Request} {p : Phase} {passes : Bool} {now : ℤ} {m : Move}
    (hnext : q.phase.next passes now m = some p)
    (hheld : heldTokens id { q with phase := p } ≠ heldTokens id q) :
    heldTokens id { q with phase := p } = none ∨
      heldTokens id q = none ∧ q.apiKeyId = id ∧ m = .precheck ∧ passes = true := by
  by_cases hid : q.apiKeyId = id
  · obtain ⟨hp, rfl, hpasses, rfl⟩ | ⟨hp, -, -, rfl⟩ | ⟨u, hp, -, rfl⟩ | ⟨u, hp, -, rfl⟩ |
      ⟨u, hp, -, rfl⟩ | ⟨u, hp, -, rfl⟩ | ⟨u, _, hp, -, rfl⟩ | ⟨u, hp, -, rfl⟩ | ⟨u, hp, -, rfl⟩ :=
      Phase.next_cases hnext
    · exact .inr ⟨by simp [heldTokens, hp, Phase.inFlight], hid, rfl, hpasses⟩
    · exact .inl (by simp [heldTokens, Phase.inFlight])
    · exact .inl (by simp [heldTokens, Phase.inFlight])
    · exact absurd (by simp [heldTokens, hp, Phase.inFlight]) hheld
    · exact absurd (by simp [heldTokens, hp, Phase.inFlight]) hheld
    all_goals exact .inl (by simp [heldTokens, Phase.inFlight])
  · exact .inl (by simp [heldTokens, hid])

/-- **The tokens of a key refine a ledger** whose limit is the quota. -/
theorem tokenLedger_step (hwritten : Written s) (hday : day s.now = d)
    (hguard : tokensAccounted dep id s a = true) (hstep : dep.step s a = some t) :
    tokenLedger id d t = tokenLedger id d s ∨
      ∃ entry, free (tokenLedger id d s) entry ∧ Ledger.step (dep.policy id).tokensPerDay.toNat
        (tokenLedger id d s) entry = some (tokenLedger id d t) := by
  unfold tokenLedger
  obtain ⟨q, hq, -, -, hreq⟩ | ⟨_, _, -, -, -, hreq⟩ | ⟨r, m, q, p, rfl, hq, hnext, -, -, hreq⟩ :=
    step_cases hstep
  · rw [hreq]
    refine .inl (Ledger.ofList_append ?_ ?_) <;> simp [heldTokens, spentTokens, hq, Phase.inFlight]
  · exact .inl (by rw [hreq])
  rw [hreq]
  refine Ledger.ofList_set_step hq (spentTokens_next hnext) fun hheld => ?_
  obtain hnone | ⟨hnone, hid, rfl, hpasses⟩ := heldTokens_next hnext hheld
  · exact .inl hnone
  · -- `precheck` passes: the guard says that there is room
    refine .inr ⟨hnone, ?_⟩
    unfold tokensAccounted at hguard
    simp only [hq] at hguard
    have hroom : sumTokensToday s.table s.now id + s.tokensInFlight id <
        (dep.policy id).tokensPerDay := by
      simpa [hid, hpasses] using hguard
    have hsum := @hwritten.sumTokensToday _ id
    rw [hday] at hsum
    unfold tokenLedger at hsum
    unfold Ledger.total
    have hheldSum : (Ledger.ofList (heldTokens id) (spentTokens id d) s.requests).pending.sum =
        s.tokensInFlight id := Multiset.sum_coe _
    omega

/-- The states of the runs inside one day whose steps all account for the tokens of key `id`. -/
abbrev TokensReachable (dep : Deployment) (id : String) (now : ℤ) : State → Prop :=
  Reach dep.step (fun s a => tokensAccounted dep id s a = true) (dep.init now)

/-- The clock stays inside the day. -/
theorem day_eq {now : ℤ} (h : TokensReachable dep id now s) : day s.now = day now := by
  refine h.invariant (I := fun s => day s.now = day now) rfl fun s a t hday hguard hstep => ?_
  obtain ⟨_, -, -, hnow, -⟩ | ⟨_, _, rfl, -, hnow, -⟩ | ⟨_, _, _, _, -, -, -, -, hnow, -⟩ :=
    step_cases hstep
  · rwa [hnow]
  · rw [hnow, of_decide_eq_true hguard, hday]
  · rwa [hnow]

/-- The guarded run is a run of the ledger of tokens. -/
theorem tokenLedger_reach {now : ℤ} (h : TokensReachable dep id now s) :
    Reach (Ledger.step (dep.policy id).tokensPerDay.toNat) free {}
    (tokenLedger id (day now) s) := by
  refine (h.strengthen (I := fun s => Written s ∧ day s.now = day now)
    fun _ hs => ⟨written_of_reach hs, day_eq hs⟩).project rfl ?_
  rintro s a t ⟨⟨hwritten, hday⟩, hguard⟩ hstep
  exact tokenLedger_step hwritten hday hguard hstep

theorem foldr_max_nonneg (l : List ℤ) : 0 ≤ l.foldr max 0 := by
  induction l with
  | nil => exact le_rfl
  | cons a l ih => exact le_max_of_le_right ih

theorem le_foldr_max {l : List ℤ} {n : ℤ} (h : n ∈ l) : n ≤ l.foldr max 0 := by
  induction l with
  | nil => cases h
  | cons a l ih =>
      rcases List.mem_cons.mp h with rfl | h
      · exact le_max_left _ _
      · exact le_max_of_le_right (ih h)

/-- **The token quota is overshot by one generation at most.** While the requests under way are
accounted for, the tokens recorded for a key on a day exceed what is below its quota by those of one
request. -/
theorem sumTokens_le_quota (dep : Deployment) (id : String)
    (hquota : 0 < (dep.policy id).tokensPerDay) {now : ℤ} {s : State}
    (h : TokensReachable dep id now s) :
    sumTokensToday s.table s.now id ≤
      (dep.policy id).tokensPerDay - 1 + s.largestTokensToday id := by
  have hwritten := written_of_reach h
  obtain ⟨c, hc, hle⟩ := Ledger.settled_le (tokenLedger_reach h)
  rw [hwritten.sumTokensToday, day_eq h]
  have hlargest : (c : ℤ) ≤ s.largestTokensToday id := by
    rcases hc with rfl | hc
    · exact foldr_max_nonneg _
    · refine le_foldr_max (hwritten.tokensToday.mem_iff.mpr (List.mem_map_of_mem ?_))
      rw [day_eq h]
      exact Multiset.mem_coe.mp hc
  omega

/-- Two requests of one token each, which both run `precheck` before either of them writes its
record. -/
def pairTokenRun : List Action := pairRun ++ [.move 0 (.record true), .move 1 (.record true)]

/-- With a quota of two tokens a day, the two requests record their tokens within the bound, which
is reached. -/
theorem sumTokens_le_quota_pair :
    ∃ s, TokensReachable (defaultsOnly { defaultTpd := 2 }) "k" 0 s ∧
      sumTokensToday s.table s.now "k" = 2 ∧
      sumTokensToday s.table s.now "k" ≤
        ((defaultsOnly { defaultTpd := 2 }).policy "k").tokensPerDay - 1 +
          s.largestTokensToday "k" := by
  obtain ⟨s, hs, htwo⟩ := Reach.exists_of_run (defaultsOnly { defaultTpd := 2 }).step
    (fun s a => tokensAccounted (defaultsOnly { defaultTpd := 2 }) "k" s a = true)
    ((defaultsOnly { defaultTpd := 2 }).init 0) pairTokenRun
    (fun s => sumTokensToday s.table s.now "k" = 2) (by decide) (by decide)
  exact ⟨s, hs, htwo, sumTokens_le_quota _ "k" (by decide) hs⟩

/-- Two requests of one token each that are past `precheck` together record two tokens, under a
quota of one. -/
theorem sumTokens_exceeds_quota :
    ¬ ∀ (dep : Deployment) (id : String), 0 < (dep.policy id).tokensPerDay →
      ∀ now s, Reach dep.step (fun s a => insideDay s a = true) (dep.init now) s →
        sumTokensToday s.table s.now id ≤
          (dep.policy id).tokensPerDay - 1 + s.largestTokensToday id := by
  intro hall
  obtain ⟨s, hs, htwo⟩ := Reach.exists_of_run (defaultsOnly { defaultTpd := 1 }).step
    (fun s a => insideDay s a = true)
    ((defaultsOnly { defaultTpd := 1 }).init 0) pairTokenRun
    (fun s => sumTokensToday s.table s.now "k" = 2 ∧ s.largestTokensToday "k" = 1)
    (by decide) (by decide)
  have hle := hall _ "k" (by decide) 0 s hs
  rw [htwo.1, htwo.2] at hle
  revert hle
  decide

end SynGateway.Services

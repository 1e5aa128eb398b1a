import SynGateway.Services.Precheck

/-!
# What the daily request quota counts

The documentation counts the requests that pass the precheck and reach admission: those that end
completed, failed or cancelled. `_count_requests_today` counts every row, whatever its status, so
the requests that were refused a slot count as well: `quota_as_documented_iff`.
-/

namespace SynGateway.Services

open SynGateway.Core SynGateway.Core.Policy SynGateway.Core.RateLimit SynGateway.Db
  SynGateway.Python

/-! ## The two counts -/

/-- The outcomes of the requests that count as documented. -/
def Outcome.Counts : Outcome → Bool
  | completed => true
  | failed => true
  | cancelled => true
  | timedOut => false
  | rejected => false

/-- The rows of a key in the current UTC day that count as documented. -/
def documentedCount (table : List UsageRecord) (now : ℤ) (apiKeyId : String) : ℤ :=
  table.countP fun r => r.isToday now apiKeyId && r.status.Counts

/-- The rows of a key in the current UTC day of requests that were rejected, or timed out in the
queue. -/
def unservedCount (table : List UsageRecord) (now : ℤ) (apiKeyId : String) : ℤ :=
  table.countP fun r => r.isToday now apiKeyId && !r.status.Counts

variable {service : UsageService} {reading : Reading} {apiKey : ApiKey} {client : Client}
  {limiter : RateLimiter String}

/-- What the code counts is both. -/
theorem countRequestsToday_eq (table : List UsageRecord) (now : ℤ) (apiKeyId : String) :
    countRequestsToday table now apiKeyId =
      documentedCount table now apiKeyId + unservedCount table now apiKeyId := by
  unfold countRequestsToday documentedCount unservedCount
  rw [← Int.natCast_add, Int.natCast_inj]
  induction table with
  | nil => rfl
  | cons r table ih =>
      rw [List.countP_cons, List.countP_cons, List.countP_cons, ih]
      cases r.isToday now apiKeyId <;> cases r.status.Counts <;> simp <;> omega

theorem unservedCount_nonneg (table : List UsageRecord) (now : ℤ) (apiKeyId : String) :
    0 ≤ unservedCount table now apiKeyId := Int.natCast_nonneg _

theorem unservedCount_eq_zero {table : List UsageRecord} {now : ℤ} {apiKeyId : String} :
    unservedCount table now apiKeyId = 0 ↔
      ∀ r ∈ table, r.isToday now apiKeyId = true → r.status.Counts = true := by
  unfold unservedCount
  rw [Int.natCast_eq_zero, List.countP_eq_zero]
  simp

/-! ## The exception -/

/-- `precheck` raises a `RequestQuotaExceededError`. -/
def RaisesRequestQuota (service : UsageService) (reading : Reading) (apiKey : ApiKey)
    (client : Client) (limiter : RateLimiter String) : Prop :=
  ∃ error after, (service.precheck reading apiKey client).run limiter = (.error error, after) ∧
    error.cls = .requestQuotaExceededError

/-- Within the rate limit, `precheck` raises it when the rows of the day have reached the quota. -/
theorem raisesRequestQuota_iff
    (hrate : (limiter.check reading.monotonic (rateKey apiKey)
      (service.effectivePolicy apiKey client).requestsPerMinute).1.allowed = true) :
    RaisesRequestQuota service reading apiKey client limiter ↔
      0 < (service.effectivePolicy apiKey client).requestsPerDay ∧
        (service.effectivePolicy apiKey client).requestsPerDay ≤
          countRequestsToday reading.table reading.now apiKey.id := by
  unfold RaisesRequestQuota UsageService.precheck
  dsimp only
  rw [Exec.run_bind_ok UsageService.checkRate_run, if_neg (by simp [hrate])]
  by_cases hbelow : 0 < (service.effectivePolicy apiKey client).requestsPerDay →
      countRequestsToday reading.table reading.now apiKey.id <
        (service.effectivePolicy apiKey client).requestsPerDay
  · rw [Exec.run_bind_ok (UsageService.checkQuota_of_lt _ _ _ hbelow)]
    refine iff_of_false ?_ fun hreached => not_le.mpr (hbelow hreached.1) hreached.2
    rintro ⟨error, after, hrun, hcls⟩
    -- behind the request quota only the token quota can raise
    by_cases htokens : 0 < (service.effectivePolicy apiKey client).tokensPerDay →
        sumTokensToday reading.table reading.now apiKey.id <
          (service.effectivePolicy apiKey client).tokensPerDay
    · rw [Exec.run_bind_ok (UsageService.checkQuota_of_lt _ _ _ htokens)] at hrun
      cases hrun
    · obtain ⟨error', hquota, hcls'⟩ := UsageService.checkQuota_of_ge
        (service.limiterAfter reading apiKey client limiter) .tokenQuotaExceededError "token"
        "token_quota_exceeded" htokens
      rw [Exec.run_bind_error hquota] at hrun
      obtain ⟨herror, -⟩ := Prod.mk.inj hrun
      rw [Except.error.inj herror, hcls] at hcls'
      cases hcls'
  · obtain ⟨error, hquota, hcls⟩ := UsageService.checkQuota_of_ge
      (service.limiterAfter reading apiKey client limiter) .requestQuotaExceededError "request"
      "request_quota_exceeded" hbelow
    rw [Exec.run_bind_error hquota]
    refine iff_of_true ⟨error, _, rfl, hcls⟩ ?_
    obtain ⟨hpos, hge⟩ := Classical.not_imp.mp hbelow
    exact ⟨hpos, not_lt.mp hge⟩

/-! ## As documented -/

/-- The request quota of a key is enforced as documented. -/
def QuotaAsDocumented (service : UsageService) (reading : Reading) (apiKey : ApiKey)
    (client : Client) (limiter : RateLimiter String) : Prop :=
  RaisesRequestQuota service reading apiKey client limiter ↔
    0 < (service.effectivePolicy apiKey client).requestsPerDay ∧
      (service.effectivePolicy apiKey client).requestsPerDay ≤
        documentedCount reading.table reading.now apiKey.id

/-- **The quota is enforced as documented unless the rows of unserved requests make up the
difference**, and it counts as documented exactly when there are none. Every row of a key counts in
the one day of its `started_at`. -/
theorem quota_as_documented_iff (service : UsageService) (reading : Reading) (apiKey : ApiKey)
    (client : Client) (limiter : RateLimiter String)
    (hrate : (limiter.check reading.monotonic (rateKey apiKey)
      (service.effectivePolicy apiKey client).requestsPerMinute).1.allowed = true) :
    (QuotaAsDocumented service reading apiKey client limiter ↔
      ¬ (0 < (service.effectivePolicy apiKey client).requestsPerDay ∧
        documentedCount reading.table reading.now apiKey.id <
          (service.effectivePolicy apiKey client).requestsPerDay ∧
        (service.effectivePolicy apiKey client).requestsPerDay ≤
          documentedCount reading.table reading.now apiKey.id +
            unservedCount reading.table reading.now apiKey.id)) ∧
    (countRequestsToday reading.table reading.now apiKey.id =
        documentedCount reading.table reading.now apiKey.id ↔
      ∀ r ∈ reading.table, r.isToday reading.now apiKey.id = true → r.status.Counts = true) ∧
    ∀ r ∈ reading.table, r.apiKeyId = some apiKey.id →
      ∀ now, r.isToday now apiKey.id = true ↔ day now = day r.startedAt := by
  have hcount := countRequestsToday_eq reading.table reading.now apiKey.id
  have hunserved := unservedCount_nonneg reading.table reading.now apiKey.id
  refine ⟨?_, ?_, fun r _ hkey now => ?_⟩
  · unfold QuotaAsDocumented
    rw [raisesRequestQuota_iff hrate, hcount]
    generalize (service.effectivePolicy apiKey client).requestsPerDay = quota
    constructor
    -- the served rows are below the quota, all rows together are not
    · rintro hiff ⟨hpos, hbelow, hreached⟩
      exact not_le.mpr hbelow (hiff.mp ⟨hpos, hreached⟩).2
    · intro hnot
      constructor
      · rintro ⟨hpos, hreached⟩
        refine ⟨hpos, ?_⟩
        by_contra hbelow
        exact hnot ⟨hpos, not_le.mp hbelow, hreached⟩
      · rintro ⟨hpos, hreached⟩
        exact ⟨hpos, by omega⟩
  · rw [← unservedCount_eq_zero, hcount]
    omega
  · rw [isToday_iff]
    simp only [hkey, true_and, eq_comm]

/-! ## A rejected request -/

/-- A row of the key `k` that began at midnight. -/
def sampleRow (status : Outcome) : UsageRecord where
  requestId := "r"
  userId := none
  clientId := none
  apiKeyId := some "k"
  model := []
  streaming := false
  startedAt := 0
  completedAt := 0
  status := status
  promptTokens := .null
  completionTokens := .null
  totalTokens := .null
  queueWaitMs := none
  errorCode := none
  backendLatencyMs := none
  ttftMs := none
  streamDurationMs := none
  totalDurationMs := none
  backendId := none

def quotaReading (status : Outcome) :
    Reading := { table := [sampleRow status], now := 0, monotonic := 0 }

def quotaKey : ApiKey :=
  { id := "k", clientId := "c", name := [], keyPrefix := [], keyHash := "",
    requestsPerDay := some 1 }

def quotaClient : Client := { id := "c", userId := "u", name := [] }

/-- One request a day: a completed request uses it up, as documented. -/
theorem quota_as_documented_completed :
    QuotaAsDocumented {} (quotaReading .completed) quotaKey quotaClient (.new 60) :=
  (quota_as_documented_iff {} (quotaReading .completed) quotaKey quotaClient (.new 60) rfl).1.mpr
    (by decide)

/-- A rejected request uses it up as well. -/
theorem quota_counts_rejected :
    ¬ ∀ (service : UsageService) (reading : Reading) (apiKey : ApiKey) (client : Client)
        (limiter : RateLimiter String),
      (limiter.check reading.monotonic (rateKey apiKey)
        (service.effectivePolicy apiKey client).requestsPerMinute).1.allowed = true →
      QuotaAsDocumented service reading apiKey client limiter := by
  intro hall
  have hdocumented := hall {} (quotaReading .rejected) quotaKey quotaClient (.new 60) rfl
  have hraises : RaisesRequestQuota {} (quotaReading .rejected) quotaKey quotaClient (.new 60) :=
    (raisesRequestQuota_iff rfl).mpr (by decide)
  have hcount := (hdocumented.mp hraises).2
  revert hcount
  decide

end SynGateway.Services

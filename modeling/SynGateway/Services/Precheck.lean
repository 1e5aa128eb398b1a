import SynGateway.Core.Policy
import SynGateway.Core.RateLimit
import SynGateway.Python.Exec
import SynGateway.Services.Usage

/-!
# The check before a request

`UsageService.precheck`, with its two queries of the usage table. The rate limiter is the only state
that it changes, and it counts the request before the quotas are looked at. Nothing suspends between
the first query and the return, so a call is one step; what it has read may be out of date as soon
as it returns.
-/

namespace SynGateway.Services

open SynGateway.Core SynGateway.Core.Policy SynGateway.Core.RateLimit SynGateway.Db
  SynGateway.Python

/-! ## Queries of one UTC day -/

def msPerDay : ℤ := 86400000

/-- The UTC day that a moment falls in. -/
def day (t : ℤ) : ℤ := t / msPerDay

/-- `_dt.datetime(now.year, now.month, now.day)`. -/
def dayStart (now : ℤ) : ℤ := now - now % msPerDay

/-- The integer column `total_tokens`, `none` for NULL. -/
def UsageRecord.tokenCount (r : UsageRecord) : Option ℤ :=
  match r.totalTokens with
  | .int n => some n
  | _ => none

/-- The rows of a key that the queries of the current day filter. -/
def UsageRecord.isToday (r : UsageRecord) (now : ℤ) (apiKeyId : String) : Bool :=
  r.apiKeyId = some apiKeyId && dayStart now ≤ r.startedAt && r.startedAt < dayStart now + msPerDay

/-- `_count_requests_today`. -/
def countRequestsToday (table : List UsageRecord) (now : ℤ) (apiKeyId : String) : ℤ :=
  table.countP fun r => r.isToday now apiKeyId

/-- `_sum_tokens_today`. -/
def sumTokensToday (table : List UsageRecord) (now : ℤ) (apiKeyId : String) : ℤ :=
  ((table.filter fun r => r.isToday now apiKeyId).filterMap UsageRecord.tokenCount).sum

/-- The current UTC day is the day of the present moment. -/
theorem isToday_iff {r : UsageRecord} {now : ℤ} {apiKeyId : String} :
    r.isToday now apiKeyId = true ↔ r.apiKeyId = some apiKeyId ∧ day r.startedAt = day now := by
  unfold UsageRecord.isToday dayStart day msPerDay
  simp only [Bool.and_eq_true, decide_eq_true_eq, and_assoc]
  apply and_congr Iff.rfl
  omega

/-! ## `precheck` -/

/-- The defaults of a `UsageService`. -/
structure UsageService where
  defaultRpm : ℤ := 0
  defaultRpd : ℤ := 0
  defaultTpd : ℤ := 0
deriving DecidableEq, Repr

/-- Result of a pre-request quota check. -/
structure QuotaCheckResult where
  allowed : Bool
  rateLimit : Option RateLimitResult
deriving DecidableEq, Repr

/-- What `precheck` finds: the rows of the usage table, and its two clocks. -/
structure Reading where
  table : List UsageRecord
  now : ℤ
  monotonic : ℚ

/-- The limiter's key of an API key. -/
def rateKey (apiKey : ApiKey) : String := "rpm:" ++ apiKey.id

namespace UsageService

/-- `effective_policy`. -/
def effectivePolicy (self : UsageService) (apiKey : ApiKey) (client : Client) : EffectivePolicy :=
  resolvePolicy apiKey client self.defaultRpm self.defaultRpd self.defaultTpd

/-- `await self._rate_limiter.check(key=..., limit=...)`. -/
def checkRate (monotonic : ℚ) (key : String) (limit : ℤ) :
    Exec SynError (RateLimiter String) RateLimitResult :=
  fun limiter => (.ok (limiter.check monotonic key limit).1, (limiter.check monotonic key limit).2)

/-- One daily quota: the error of `cls` if the usage has reached it. -/
def checkQuota (cls : ErrorClass) (what code : String) (used limit : ℤ) :
    Exec SynError (RateLimiter String) Unit :=
  if 0 < limit ∧ used ≥ limit then
    Exec.raise (cls.new (some ("daily " ++ what ++ " quota exceeded (" ++ toString used ++ "/"
      ++ toString limit ++ ")")) (some code) (some 429) none)
  else pure ()

/-- `precheck`: rate limit, daily requests, daily tokens. -/
def precheck (self : UsageService) (reading : Reading) (apiKey : ApiKey) (client : Client) :
    Exec SynError (RateLimiter String) QuotaCheckResult := do
  let policy := self.effectivePolicy apiKey client
  let rateResult ← checkRate reading.monotonic (rateKey apiKey) policy.requestsPerMinute
  if !rateResult.allowed then
    Exec.raise (ErrorClass.rateLimitExceededError.new (some "request rate limit exceeded")
      (some "rate_limit_exceeded") (some 429) none)
  else
    checkQuota .requestQuotaExceededError "request" "request_quota_exceeded"
      (countRequestsToday reading.table reading.now apiKey.id) policy.requestsPerDay
    checkQuota .tokenQuotaExceededError "token" "token_quota_exceeded"
      (sumTokensToday reading.table reading.now apiKey.id) policy.tokensPerDay
    return { allowed := true, rateLimit := some rateResult }

variable {self : UsageService} {reading : Reading} {apiKey : ApiKey} {client : Client}
  {limiter : RateLimiter String}

/-- The three checks that a request must pass. -/
structure Passes (service : UsageService) (reading : Reading) (apiKey : ApiKey) (client : Client)
    (limiter : RateLimiter String) : Prop where
  rate : (limiter.check reading.monotonic (rateKey apiKey)
    (service.effectivePolicy apiKey client).requestsPerMinute).1.allowed = true
  requests : 0 < (service.effectivePolicy apiKey client).requestsPerDay →
    countRequestsToday reading.table reading.now apiKey.id <
      (service.effectivePolicy apiKey client).requestsPerDay
  tokens : 0 < (service.effectivePolicy apiKey client).tokensPerDay →
    sumTokensToday reading.table reading.now apiKey.id <
      (service.effectivePolicy apiKey client).tokensPerDay

/-- A quota check lets a request pass below its limit. -/
theorem checkQuota_of_lt (cls : ErrorClass) (what code : String) {used limit : ℤ}
    (h : 0 < limit → used < limit) :
    (checkQuota cls what code used limit).run limiter = (.ok (), limiter) := by
  unfold checkQuota
  rw [if_neg (by omega)]
  rfl

theorem checkQuota_of_ge (limiter : RateLimiter String) (cls : ErrorClass) (what code : String)
    {used limit : ℤ} (h : ¬ (0 < limit → used < limit)) :
    ∃ error, (checkQuota cls what code used limit).run limiter = (.error error, limiter) ∧
      error.cls = cls := by
  unfold checkQuota
  rw [if_pos (by omega)]
  exact ⟨_, rfl, rfl⟩

/-- The limiter after its call in `precheck`. -/
def limiterAfter (self : UsageService) (reading : Reading) (apiKey : ApiKey) (client : Client)
    (limiter : RateLimiter String) : RateLimiter String :=
  (limiter.check reading.monotonic (rateKey apiKey)
    (self.effectivePolicy apiKey client).requestsPerMinute).2

/-- The rate check charges the limiter and returns its result. -/
theorem checkRate_run : (checkRate reading.monotonic (rateKey apiKey)
    (self.effectivePolicy apiKey client).requestsPerMinute).run limiter =
      (.ok (limiter.check reading.monotonic (rateKey apiKey)
        (self.effectivePolicy apiKey client).requestsPerMinute).1,
        self.limiterAfter reading apiKey client limiter) := rfl

/-- **`precheck` ends normally when the three checks pass.** -/
theorem precheck_of_passes (h : self.Passes reading apiKey client limiter) :
    ∃ result, (self.precheck reading apiKey client).run limiter =
      (.ok result, self.limiterAfter reading apiKey client limiter) := by
  unfold precheck
  dsimp only
  rw [Exec.run_bind_ok checkRate_run, if_neg (by simp [h.rate]),
    Exec.run_bind_ok (checkQuota_of_lt _ _ _ h.requests),
    Exec.run_bind_ok (checkQuota_of_lt _ _ _ h.tokens)]
  exact ⟨_, rfl⟩

/-- Otherwise it raises, and the limiter has seen the call all the same. -/
theorem precheck_of_not_passes (h : ¬ self.Passes reading apiKey client limiter) :
    ∃ error, (self.precheck reading apiKey client).run limiter =
        (.error error, self.limiterAfter reading apiKey client limiter) ∧
      error.cls ∈ [.rateLimitExceededError, .requestQuotaExceededError,
        .tokenQuotaExceededError] := by
  unfold precheck
  dsimp only
  rw [Exec.run_bind_ok checkRate_run]
  by_cases hrate : (limiter.check reading.monotonic (rateKey apiKey)
      (self.effectivePolicy apiKey client).requestsPerMinute).1.allowed = true
  · rw [if_neg (by simp [hrate])]
    by_cases hrequests : 0 < (self.effectivePolicy apiKey client).requestsPerDay →
        countRequestsToday reading.table reading.now apiKey.id <
          (self.effectivePolicy apiKey client).requestsPerDay
    · obtain ⟨error, hrun, hcls⟩ := checkQuota_of_ge
        (self.limiterAfter reading apiKey client limiter)
        .tokenQuotaExceededError "token" "token_quota_exceeded"
        fun htokens => h ⟨hrate, hrequests, htokens⟩
      rw [Exec.run_bind_ok (checkQuota_of_lt _ _ _ hrequests), Exec.run_bind_error hrun]
      exact ⟨error, rfl, by simp [hcls]⟩
    · obtain ⟨error, hrun, hcls⟩ := checkQuota_of_ge
        (self.limiterAfter reading apiKey client limiter)
        .requestQuotaExceededError "request" "request_quota_exceeded" hrequests
      rw [Exec.run_bind_error hrun]
      exact ⟨error, rfl, by simp [hcls]⟩
  · rw [if_pos (by simpa using hrate)]
    exact ⟨_, rfl, by decide⟩

/-- The decision that `precheck` takes. -/
def passes (self : UsageService) (reading : Reading) (apiKey : ApiKey) (client : Client)
    (limiter : RateLimiter String) : Bool :=
  match (self.precheck reading apiKey client).run limiter with
  | (.ok _, _) => true
  | (.error _, _) => false

/-- The executable check says what the relation says. -/
theorem passes_iff :
    self.passes reading apiKey client limiter = true ↔
    self.Passes reading apiKey client limiter := by
  unfold passes
  by_cases h : self.Passes reading apiKey client limiter
  · obtain ⟨result, hrun⟩ := precheck_of_passes h
    simp [hrun, h]
  · obtain ⟨error, hrun, -⟩ := precheck_of_not_passes h
    simp [hrun, h]

end UsageService

end SynGateway.Services

import SynGateway.Core.Errors

/-!
# Usage records

The recording side of `app/services/usage.py`.
-/

namespace SynGateway.Services

open SynGateway.Python

/-- `Outcome`. -/
inductive Outcome
  | completed
  | failed
  | cancelled
  | timedOut
  | rejected
deriving DecidableEq, Repr

/-- The row that `UsageService.record` commits. Times are readings of the wall clock, durations are
in milliseconds, and the token fields hold what the backend reported, `null` for unknown. -/
structure UsageRecord where
  requestId : String
  userId : Option String
  clientId : Option String
  apiKeyId : Option String
  model : Str
  streaming : Bool
  startedAt : ℤ
  completedAt : ℤ
  status : Outcome
  promptTokens : Json
  completionTokens : Json
  totalTokens : Json
  queueWaitMs : Option ℤ
  errorCode : Option String
  backendLatencyMs : Option ℤ
  ttftMs : Option ℤ
  streamDurationMs : Option ℤ
  totalDurationMs : Option ℤ
  backendId : Option String

/-- What a record says about how its request ended. -/
def UsageRecord.accounting (r : UsageRecord) : Outcome × Option String := (r.status, r.errorCode)

end SynGateway.Services

import SynGateway.Db.Models

/-!
# Policy resolution

`app/core/policy.py`: the limits in force for an API key, taken from the key, else from its client,
else from the system.
-/

namespace SynGateway.Core.Policy

open SynGateway.Db

/-- The resolved policy for a request; `0` is unlimited. -/
structure EffectivePolicy where
  requestsPerMinute : ℤ
  requestsPerDay : ℤ
  tokensPerDay : ℤ
deriving DecidableEq, Repr

/-- `_resolve`: key, else client, else default, cut off at `0`. -/
def resolve (keyValue clientValue : Option ℤ) (defaultValue : ℤ) : ℤ :=
  match keyValue with
  | some value => max 0 value
  | none =>
    match clientValue with
    | some value => max 0 value
    | none => max 0 defaultValue

/-- The effective policy for an API key. -/
def resolvePolicy (apiKey : ApiKey) (client : Client)
    (defaultRequestsPerMinute defaultRequestsPerDay defaultTokensPerDay : ℤ) : EffectivePolicy where
  requestsPerMinute :=
    resolve apiKey.requestsPerMinute client.requestsPerMinute defaultRequestsPerMinute
  requestsPerDay := resolve apiKey.requestsPerDay client.requestsPerDay defaultRequestsPerDay
  tokensPerDay := resolve apiKey.tokensPerDay client.tokensPerDay defaultTokensPerDay

end SynGateway.Core.Policy

import Mathlib.Data.Multiset.Defs
import SynGateway.Python.Json
import SynGateway.Python.Text

/-!
# The authenticated principal

`app/core/principal.py`: who is making a request.
-/

namespace SynGateway.Core

open SynGateway.Python

/-- The authenticated identity behind a request. `allowedModels` is `None` for a client without
restrictions; the order of the tuple is that of a query without `ORDER BY`, and is left open. -/
structure AuthenticatedPrincipal where
  userId : String
  userName : Text
  clientId : String
  clientName : Text
  apiKeyId : String
  apiKeyPrefix : Text
  allowedModels : Option (Multiset Str) := none
deriving DecidableEq

/-- Whether this principal may use the given model. -/
def AuthenticatedPrincipal.canUseModel (self : AuthenticatedPrincipal) (modelId : Str) : Bool :=
  match self.allowedModels with
  | none => true
  | some models => modelId ∈ models

end SynGateway.Core

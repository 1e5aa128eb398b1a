import SynGateway.Core.Errors
import SynGateway.Python.Num

/-!
# The backend contract

`app/backends/base.py`, as far as routing and the chat endpoint use it. A backend's answer to
`models()` is one of its fields: the list it discovers, or what it raises.
-/

namespace SynGateway.Backends

open SynGateway.Core SynGateway.Python

/-- `BackendCapability`. -/
inductive BackendCapability
  | health
  | models
  | chatCompletions
  | streaming
  | cancellation
deriving DecidableEq, Repr

/-- The member's value. -/
def BackendCapability.value : BackendCapability → String
  | health => "health"
  | models => "models"
  | chatCompletions => "chat_completions"
  | streaming => "streaming"
  | cancellation => "cancellation"

/-- A model served by a backend. All fields but the id hold what the backend reported. -/
structure BackendModelInfo where
  id : Str
  object : Json := .text "model"
  ownedBy : Json := .text "llamacpp"
  created : Json := .null

/-- `BackendHealthState`. -/
inductive BackendHealthState
  | unknown
  | reachable
  | unreachable
  | timeout
  | invalid
deriving DecidableEq, Repr

/-- What a health probe reports. -/
structure BackendHealthResult where
  state : BackendHealthState
  reachable : Bool
  configured : Bool := true
  reason : String := ""
  elapsedMs : Option ℚ := none
  serverVersion : Option Str := none
  model : Option Str := none
  lastChecked : Option String := none

/-- A backend instance. -/
structure InferenceBackend where
  name : String
  capabilities : List BackendCapability
  models : Except Exc (List BackendModelInfo)

/-- The clauses that turn a typed error of `models()` into a `SynError` with the same code; `what`
is what was attempted. Other exceptions pass. -/
def rewrapModelsError (what : String) (exc : Exc) : Exc :=
  let rewrap (how code : String) : Exc :=
    let detail := match exc with
      | .syn error => error.detail
      | _ => ""
    .syn (ErrorClass.synError.new (some (what ++ how ++ detail)) (some code) (some 502) none)
  if exc.isInstance .backendTimeoutError then rewrap " timed out: " "backend_timeout"
  else if exc.isInstance .backendProtocolError then rewrap " protocol error: "
    "backend_protocol_error"
  else if exc.isInstance .backendInvalidResponseError then
    rewrap " invalid response: " "backend_invalid_response"
  else if exc.isInstance .backendUnavailableError then rewrap " failed: " "backend_unavailable"
  else exc

end SynGateway.Backends

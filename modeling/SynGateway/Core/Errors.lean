import Mathlib.Data.Nat.Notation
import SynGateway.Python.Json

/-!
# Errors and their envelope

`app/core/errors.py`, and the handlers of `app/main.py` that turn a `SynError` into a response.
`Exc` are all exceptions a request handler can meet: the two at its end are no subclasses of
`Exception`.
-/

namespace SynGateway.Core

open SynGateway.Python

/-- The classes of `errors.py`. -/
inductive ErrorClass
  | synError
  | configurationError
  | validationError
  | notFoundError
  | authenticationError
  | invalidApiKeyError
  | revokedApiKeyError
  | expiredApiKeyError
  | modelForbiddenError
  | adminAuthError
  | permissionError
  | backendUnavailableError
  | backendTimeoutError
  | backendInvalidResponseError
  | backendProtocolError
  | queueFullError
  | queueTimeoutError
  | rateLimitExceededError
  | requestQuotaExceededError
  | tokenQuotaExceededError
  | requestBodyTooLargeError
  | modelNotFoundError
  | modelDisabledError
  | backendNotConfiguredError
  | routingConfigError
deriving DecidableEq, Repr

namespace ErrorClass

/-- The class and its bases, up to `SynError`. -/
def mro : ErrorClass → List ErrorClass
  | synError => [synError]
  | invalidApiKeyError => [invalidApiKeyError, authenticationError, synError]
  | revokedApiKeyError => [revokedApiKeyError, authenticationError, synError]
  | expiredApiKeyError => [expiredApiKeyError, authenticationError, synError]
  | backendTimeoutError => [backendTimeoutError, backendUnavailableError, synError]
  | backendInvalidResponseError => [backendInvalidResponseError, backendUnavailableError, synError]
  | backendProtocolError => [backendProtocolError, backendUnavailableError, synError]
  | routingConfigError => [routingConfigError, configurationError, synError]
  | cls => [cls, synError]

/-- The class attribute `code`. -/
def code : ErrorClass → String
  | synError => "syn_error"
  | configurationError => "configuration_error"
  | validationError => "validation_error"
  | notFoundError => "not_found"
  | authenticationError => "authentication_required"
  | invalidApiKeyError => "invalid_api_key"
  | revokedApiKeyError => "invalid_api_key"
  | expiredApiKeyError => "expired_api_key"
  | modelForbiddenError => "model_forbidden"
  | adminAuthError => "admin_auth_required"
  | permissionError => "permission_denied"
  | backendUnavailableError => "backend_unavailable"
  | backendTimeoutError => "backend_timeout"
  | backendInvalidResponseError => "backend_invalid_response"
  | backendProtocolError => "backend_protocol_error"
  | queueFullError => "queue_full"
  | queueTimeoutError => "queue_timeout"
  | rateLimitExceededError => "rate_limit_exceeded"
  | requestQuotaExceededError => "request_quota_exceeded"
  | tokenQuotaExceededError => "token_quota_exceeded"
  | requestBodyTooLargeError => "request_body_too_large"
  | modelNotFoundError => "model_not_found"
  | modelDisabledError => "model_disabled"
  | backendNotConfiguredError => "backend_not_configured"
  | routingConfigError => "routing_config_invalid"

/-- The class attribute `http_status`. -/
def httpStatus : ErrorClass → ℕ
  | synError | configurationError | routingConfigError => 500
  | validationError => 400
  | notFoundError | modelNotFoundError | modelDisabledError => 404
  | authenticationError | invalidApiKeyError | revokedApiKeyError | expiredApiKeyError
  | adminAuthError => 401
  | modelForbiddenError | permissionError => 403
  | backendUnavailableError | backendInvalidResponseError | backendProtocolError
  | backendNotConfiguredError => 502
  | backendTimeoutError => 504
  | queueFullError | rateLimitExceededError | requestQuotaExceededError
  | tokenQuotaExceededError => 429
  | queueTimeoutError => 503
  | requestBodyTooLargeError => 413

/-- The typed errors of a backend call. -/
def isBackend (cls : ErrorClass) : Bool := backendUnavailableError ∈ cls.mro

end ErrorClass

/-- An instance of `SynError` or of a subclass. -/
structure SynError where
  cls : ErrorClass
  detail : String
  code : String
  httpStatus : ℕ
  requestId : Option String
  param : Option String
deriving DecidableEq, Repr

/-- `SynError.__init__` of a class, without a request id. -/
def ErrorClass.new (cls : ErrorClass) (detail code : Option String) (httpStatus : Option ℕ)
    (param : Option String) : SynError where
  cls := cls
  detail := detail.getD "An internal error occurred."
  code := (code.filter (· ≠ "")).getD cls.code
  httpStatus := (httpStatus.filter (· ≠ 0)).getD cls.httpStatus
  requestId := none
  param := param

/-- What can be raised. -/
inductive Exc
  | syn (error : SynError)
  /-- An `Exception` that is no `SynError`. -/
  | exception (message : String)
  /-- `asyncio.CancelledError`. -/
  | cancelledError
  /-- What `aclose()` throws into a generator at its `yield`. -/
  | generatorExit
deriving DecidableEq, Repr

namespace Exc

/-- `isinstance(exc, cls)`. -/
def isInstance (exc : Exc) (cls : ErrorClass) : Bool :=
  match exc with
  | syn error => cls ∈ error.cls.mro
  | _ => false

/-- `isinstance(exc, Exception)`. -/
def isException : Exc → Bool
  | syn _ => true
  | exception _ => true
  | _ => false

/-- `str(exc)`. -/
def text : Exc → String
  | syn error => error.detail
  | exception message => message
  | _ => ""

/-- The class of a typed backend error. -/
def backendClass : Exc → Option ErrorClass
  | syn error => if error.cls.isBackend then some error.cls else none
  | _ => none

end Exc

/-- The classes that the clause for backend errors names. -/
theorem ErrorClass.isBackend_iff {cls : ErrorClass} :
    cls.isBackend = true ↔ cls = .backendTimeoutError ∨ cls = .backendProtocolError ∨
      cls = .backendInvalidResponseError ∨ cls = .backendUnavailableError := by
  cases cls <;> decide

/-- A class below a class of backend errors is one. -/
theorem ErrorClass.isBackend_of_mem_mro {cls cls' : ErrorClass} (h : cls ∈ cls'.mro)
    (hcls : cls.isBackend = true) : cls'.isBackend = true := by
  rcases ErrorClass.isBackend_iff.mp hcls with rfl | rfl | rfl | rfl <;> revert h <;>
    cases cls' <;> decide

/-- The class of a `SynError` is its own, if it is one of the backend. -/
theorem Exc.backendClass_syn (error : SynError) :
    (Exc.syn error).backendClass = if error.cls.isBackend then some error.cls else none := rfl

/-- A `SynError` is an instance of the classes that its own derives from. -/
theorem Exc.isInstance_syn (error : SynError) (cls : ErrorClass) :
    (Exc.syn error).isInstance cls = decide (cls ∈ error.cls.mro) := rfl

/-- What a typed backend error is. -/
theorem Exc.eq_syn_of_backendClass {exc : Exc} {cls : ErrorClass}
    (h : exc.backendClass = some cls) :
    ∃ error, exc = .syn error ∧ error.cls = cls ∧ cls.isBackend = true := by
  cases exc with
  | syn error =>
      rw [Exc.backendClass_syn] at h
      split at h
      · next hbackend =>
          obtain rfl := Option.some.inj h
          exact ⟨error, rfl, rfl, hbackend⟩
      · cases h
  | _ => cases h

/-- Only a typed backend error is an instance of a class of backend errors. -/
theorem Exc.isInstance_eq_false {exc : Exc} {cls : ErrorClass} (h : exc.backendClass = none)
    (hcls : cls.isBackend = true) : exc.isInstance cls = false := by
  cases exc with
  | syn error =>
      apply decide_eq_false
      intro hmem
      rw [Exc.backendClass_syn, if_pos (ErrorClass.isBackend_of_mem_mro hmem hcls)] at h
      cases h
  | _ => rfl

/-! ## The exception handlers -/

/-- A string field that may be `None`. -/
def optionalText (s : Option String) : Json := (s.map Json.text).getD .null

/-- `SynError.to_dict`. -/
def SynError.toDict (error : SynError) : List (Str × Json) :=
  [(Str.ofString "code", .text error.code), (Str.ofString "detail", .text error.detail)]
    ++ (match error.param.filter (· ≠ "") with
      | some param => [(Str.ofString "param", .text param)]
      | none => [])
    ++ (match error.requestId.filter (· ≠ "") with
      | some requestId => [(Str.ofString "request_id", .text requestId)]
      | none => [])

/-- The OpenAI-compatible error format of the paths under `/v1/`. -/
def SynError.envelope (error : SynError) (errorType requestId : String) (param : Option String) :
    List (Str × Json) :=
  [(Str.ofString "error",
      .obj [(Str.ofString "message", .text error.detail), (Str.ofString "type", .text errorType),
        (Str.ofString "param", optionalText param), (Str.ofString "code", .text error.code)]),
    (Str.ofString "request_id", .text requestId)]

/-- `path.startswith("/v1/")`. -/
def isDataPlane (path : Text) : Bool := "/v1/".toList.isPrefixOf path

/-- `syn_error_handler`: the status and the content of the response. -/
def synErrorHandler (path : Text) (requestId : String) (error : SynError) : ℕ × Json :=
  let errorType :=
    if error.httpStatus ∈ [400, 404, 422] then "invalid_request_error" else "server_error"
  let payload :=
    if isDataPlane path then error.envelope errorType requestId error.param
    else
      let payload := error.toDict
      -- `payload.setdefault("request_id", ...)`
      if Str.ofString "request_id" ∈ payload.map Prod.fst then payload
      else payload ++ [(Str.ofString "request_id", .text requestId)]
  (error.httpStatus, .obj payload)

/-- `not_found_handler`. -/
def notFoundHandler (path : Text) (requestId : String) (error : SynError) : ℕ × Json :=
  let payload :=
    if isDataPlane path then error.envelope "invalid_request_error" requestId none else error.toDict
  (404, .obj payload)

/-- The handler of the closest base class that has one. -/
def errorResponse (path : Text) (requestId : String) (error : SynError) : ℕ × Json :=
  if .notFoundError ∈ error.cls.mro then notFoundHandler path requestId error
  else synErrorHandler path requestId error

end SynGateway.Core

import SynGateway.Api.Chat.Encoding
import SynGateway.Backends.Base
import SynGateway.Python.Exec
import SynGateway.Services.Usage

/-!
# Chat completions

`_non_streaming_completion` and `_streaming_completion` of `app/api/chat.py`, from the routed
request to the response, with the usage record that each writes in its `finally` clause.

What is not the program's own comes in as an `Env`: how `acquire()` ends, what the backend returns,
yields or raises, the clock readings, and when the client disconnects. What the request does is the
list of `Event`s in its `Frame`, in order.
-/

namespace SynGateway.Api.Chat

open SynGateway.Backends SynGateway.Core SynGateway.Python SynGateway.Services

/-! ## What a request finds -/

/-- `request.app.state`, as far as it is wired. `recordError` is what opening a session or
committing the record raises, `validationError` what the API schema raises on a response. -/
structure App where
  admission : Bool
  usageService : Bool
  database : Bool
  recordError : Option Exc := none
  validationError : Json → Option Exc := fun _ => none

/-- The arguments of the completion functions; `model` is the one of the internal request. -/
structure Call where
  requestId : String
  apiKeyId : Option String
  clientId : Option String
  userId : Option String
  model : Str
  canonicalModel : Str := []
  backendId : Option String := none
  backend : InferenceBackend := { name := "", capabilities := [], models := .ok [] }

/-- The readings of the clocks, by the variable they are assigned to. They count milliseconds, so
`round((b - a) * 1000)` is `b - a`; `time` is `time.time()`. -/
structure Clock where
  startedAt : ℤ := 0
  completedAt : ℤ := 0
  admissionStarted : ℤ := 0
  admissionCompleted : ℤ := 0
  backendStarted : ℤ := 0
  backendCompleted : ℤ := 0
  firstChunk : ℤ := 0
  streamCompleted : ℤ := 0
  nowMono : ℤ := 0
  time : ℤ := 0

/-- How `admission.acquire()` ends; `waited` is how the queue timeout prints. -/
inductive Acquire
  | admitted
  | queueFull
  | queueTimeout (waited : String)
deriving DecidableEq, Repr

/-- What the backend's stream yields, and what it raises after that, if anything. -/
structure Upstream where
  chunks : List ChatCompletionChunk
  raised : Option Exc := none

/-- `ChatCompletionResponse` of `app/schemas/chat.py`, whose fields are not checked at run time. A
choice is its index, the role and the content of its message, and its finish reason. -/
structure ChatCompletionResponse where
  id : Json
  object : Json
  created : Json
  model : Json
  choices : List (ℕ × Json × Json × Json)
  promptTokens : Json
  completionTokens : Json
  totalTokens : Json
  systemFingerprint : Json

/-- `disconnect` is the number of suspensions that the generator has passed when the client leaves;
the first one is in `acquire()`. -/
structure Env where
  app : App
  call : Call
  clock : Clock := {}
  acquire : Acquire
  upstream : Upstream
  disconnect : Option ℕ := none

/-! ## What a request does -/

/-- What the server sends to the client. -/
inductive Sent
  /-- The status line and the headers of a `StreamingResponse`. -/
  | start (status : ℕ) (mediaType : String) (headers : List (String × String))
  /-- An item of its body. -/
  | chunk (bytes : List UInt8)
  /-- The end of its body. -/
  | done
  /-- A `JSONResponse`. -/
  | json (status : ℕ) (content : Json)
  /-- The plain text response to an exception that no handler takes. -/
  | internalServerError

inductive Event
  /-- `acquire()` is called. -/
  | acquiring
  /-- `acquire()` has entered its body. -/
  | acquired
  /-- The body of `acquire()` was left. -/
  | released
  /-- `chat_completion` or, with `stream`, `stream_chat_completion` of the backend is called. -/
  | called (backend : InferenceBackend) (model : Str) (stream : Bool)
  | sent (what : Sent)
  | recorded (record : UsageRecord)

/-- An activation: the local variables, what the request has done, and how often it was suspended.
-/
structure Frame (V : Type) where
  vars : V
  events : List Event := []
  suspensions : ℕ := 0

/-- A body with local variables `V`. -/
abbrev Body (V α : Type) := Exec Exc (Frame V) α

section

variable {V α : Type}

/-- Assignments. -/
def assign (f : V → V) : Body V Unit := Exec.modify fun s => { s with vars := f s.vars }

def log (event : Event) :
    Body V Unit := Exec.modify fun s => { s with events := s.events ++ [event] }

/-- A suspension. When the client leaves meanwhile, the body is resumed with `exc`. -/
def suspend (env : Env) (exc : Exc) : Body V Unit := do
  let s ← Exec.get
  if env.disconnect = some s.suspensions then Exec.raise exc
  else Exec.modify fun s => { s with suspensions := s.suspensions + 1 }

/-- The exceptions that `AdmissionController.acquire` raises. -/
def Acquire.error : Acquire → Option SynError
  | admitted => none
  | queueFull =>
    some (ErrorClass.queueFullError.new (some "admission queue is full") (some "queue_full")
      (some 429) none)
  | queueTimeout waited =>
    some (ErrorClass.queueTimeoutError.new
      (some ("request waited longer than " ++ waited ++ "s in queue"))
      (some "queue_timeout") (some 503) none)

/-- `async with admission.acquire(): ...`. -/
def withAcquire (env : Env) (body : Body V α) : Body V α := do
  log .acquiring
  suspend env .cancelledError
  match env.acquire.error with
  | some error => Exec.raise (.syn error)
  | none =>
    log .acquired
    Exec.tryFinally body (log .released)

/-- `_get_admission`. -/
def getAdmission (app : App) : Body V Unit :=
  if app.admission then pure ()
  else Exec.raise (.syn (ErrorClass.synError.new (some "admission controller not available")
    (some "admission_not_wired") (some 503) none))

/-- `_get_db_session_for_usage`. -/
def getDbSessionForUsage (app : App) : Body V Unit :=
  if app.database then pure ()
  else Exec.raise (.syn (ErrorClass.synError.new (some "database unavailable for usage tracking")
    (some "usage_unavailable") (some 503) none))

/-- `UsageService.record`. -/
def record (app : App) (row : UsageRecord) : Body V Unit :=
  match app.recordError with
  | some exc => Exec.raise exc
  | none => log (.recorded row)

/-- The recording part of both `finally` clauses. Its exceptions are logged only. -/
def recordUsage (app : App) (row : UsageRecord) : Body V Unit :=
  if app.usageService then
    Exec.tryExcept (do getDbSessionForUsage app; record app row)
      fun exc => if exc.isException then some (pure ()) else none
  else pure ()

end

/-! ## `_non_streaming_completion` -/

/-- The local variables of `_non_streaming_completion`. -/
structure CompletionVars where
  outcome : Outcome := .failed
  errorCode : Option String := none
  internalResp : Option ChatCompletionResponse := none
  admissionCompleted : Option ℤ := none
  backendStarted : Option ℤ := none
  backendCompleted : Option ℤ := none

/-- `backend_completed = time.monotonic(); outcome = Outcome.FAILED; ...; raise SynError(...) from
exc`. -/
def completionFailed (clock : Clock) (code what : String) (exc : Exc) :
    Body CompletionVars Unit := do
  assign fun v =>
    { v with
      backendCompleted := some clock.backendCompleted, outcome := .failed,
      errorCode := some code }
  let detail := match exc with
    | .syn error => error.detail
    | _ => ""
  Exec.raise (.syn (ErrorClass.synError.new (some ("chat completion " ++ what ++ ": " ++ detail))
    (some code) (some 502) none))

/-- The `except` clauses around `backend.chat_completion`. -/
def completionExceptBackend (clock : Clock) (exc : Exc) : Option (Body CompletionVars Unit) :=
  if exc.isInstance .backendTimeoutError then
    some (completionFailed clock "backend_timeout" "timed out" exc)
  else if exc.isInstance .backendProtocolError then
    some (completionFailed clock "backend_protocol_error" "protocol error" exc)
  else if exc.isInstance .backendInvalidResponseError then
    some (completionFailed clock "backend_invalid_response" "invalid response" exc)
  else if exc.isInstance .backendUnavailableError then
    some (completionFailed clock "backend_unavailable" "unavailable" exc)
  else none

/-- `outcome = ...; error_code = exc.code or default; raise`. -/
def completionRefused (outcome : Outcome) (default : String) (exc : Exc) :
    Body CompletionVars Unit := do
  assign fun v => { v with
    outcome := outcome
    errorCode := match exc with
      | .syn error => some (if error.code = "" then default else error.code)
      | _ => some default }
  Exec.raise exc

/-- The `except` clauses around `async with admission.acquire()`. -/
def completionExceptQueue (exc : Exc) : Option (Body CompletionVars Unit) :=
  if exc.isInstance .queueFullError then some (completionRefused .rejected "queue_full" exc)
  else if exc.isInstance .queueTimeoutError then some
    (completionRefused .timedOut "queue_timeout" exc)
  else none

/-- The innermost `try` block: `internal_resp = await backend.chat_completion(internal_req)`. -/
def callBackend (env : Env) (reply : Except Exc ChatCompletionResponse) :
    Body CompletionVars Unit := do
  log (.called env.call.backend env.call.model false)
  suspend env .cancelledError
  match reply with
  | .error exc => Exec.raise exc
  | .ok resp =>
    assign fun v =>
      { v with internalResp := some resp, backendCompleted := some env.clock.backendCompleted
               outcome := .completed }

/-- The `try` block that takes the slot. -/
def completionBody (env : Env) (reply : Except Exc ChatCompletionResponse) :
    Body CompletionVars Unit :=
  withAcquire env do
    assign fun v =>
      { v with admissionCompleted := some env.clock.admissionCompleted
               backendStarted := some env.clock.backendStarted }
    Exec.tryExcept (callBackend env reply) (completionExceptBackend env.clock)

/-- The row that `_non_streaming_completion` records. -/
def completionRecord (env : Env) (v : CompletionVars) : UsageRecord where
  requestId := env.call.requestId
  userId := env.call.userId
  clientId := env.call.clientId
  apiKeyId := env.call.apiKeyId
  model := if env.call.canonicalModel = [] then env.call.model else env.call.canonicalModel
  streaming := false
  startedAt := env.clock.startedAt
  completedAt := env.clock.completedAt
  status := v.outcome
  promptTokens := (v.internalResp.map (·.promptTokens)).getD .null
  completionTokens := (v.internalResp.map (·.completionTokens)).getD .null
  totalTokens := (v.internalResp.map (·.totalTokens)).getD .null
  queueWaitMs := v.admissionCompleted.map (· - env.clock.admissionStarted)
  errorCode := v.errorCode
  backendLatencyMs := do return (← v.backendCompleted) - (← v.backendStarted)
  ttftMs := none
  streamDurationMs := none
  totalDurationMs := some (env.clock.nowMono - env.clock.admissionStarted)
  backendId := env.call.backendId

/-- The response that `_non_streaming_completion` builds, before the API schema checks it. -/
def apiResponse (env : Env) (resp : ChatCompletionResponse) : Json :=
  .obj [(Str.ofString "id",
      if resp.id.truthy then resp.id else .text ("chatcmpl-" ++ toString env.clock.time)),
    (Str.ofString "object", resp.object),
    (Str.ofString "created",
      if resp.created.truthy then resp.created else .int (env.clock.time / 1000)),
    (Str.ofString "model",
      .str (if env.call.canonicalModel = [] then env.call.model else env.call.canonicalModel)),
    (Str.ofString "choices",
      .arr (resp.choices.map fun (index, role, content, finishReason) =>
        .obj [(Str.ofString "index", .int index),
          (Str.ofString "message",
            .obj [(Str.ofString "role", role), (Str.ofString "content", content)]),
          (Str.ofString "finish_reason", finishReason)])),
    (Str.ofString "usage",
      .obj [(Str.ofString "prompt_tokens", resp.promptTokens),
        (Str.ofString "completion_tokens", resp.completionTokens),
        (Str.ofString "total_tokens", resp.totalTokens)]),
    (Str.ofString "system_fingerprint", resp.systemFingerprint)]

/-- The `finally` clause of `_non_streaming_completion`. -/
def completionFinally (env : Env) : Body CompletionVars Unit := do
  let s ← Exec.get
  recordUsage env.app (completionRecord env s.vars)

/-- `_non_streaming_completion`, for a backend whose `chat_completion` ends with `reply`. -/
def nonStreamingCompletion (env : Env) (reply : Except Exc ChatCompletionResponse) :
    Body CompletionVars Json := do
  getAdmission env.app
  Exec.tryFinally (Exec.tryExcept (completionBody env reply) completionExceptQueue)
    (completionFinally env)
  let s ← Exec.get
  match s.vars.internalResp with
  | none => Exec.raise (.exception "'NoneType' object has no attribute 'choices'")
  | some resp =>
    let response := apiResponse env resp
    match env.app.validationError response with
    | some exc => Exec.raise exc
    | none => pure response

/-! ## `_streaming_completion` -/

/-- The local variables of `_streaming_completion` that its generator assigns. -/
structure StreamVars where
  finalOutcome : Outcome := .failed
  finalErrorCode : Option String := none
  completionTokensKnown : Json := .null
  promptTokensKnown : Json := .null
  totalTokensKnown : Json := .null
  streamCompletedNormally : Bool := false
  admissionCompletedTs : Option ℤ := none
  backendStartedTs : Option ℤ := none
  firstChunkTs : Option ℤ := none
  streamCompletedTs : Option ℤ := none

/-- `yield`. A client that leaves while the generator is suspended here closes the generator. -/
def yieldBytes (env : Env) (bytes : List UInt8) : Body StreamVars Unit := do
  log (.sent (.chunk bytes))
  suspend env .generatorExit

/-- `async for chunk in upstream_gen: ...`. -/
def relay (env : Env) : List ChatCompletionChunk → Body StreamVars Unit
  | [] => do
    suspend env .cancelledError
    match env.upstream.raised with
    | some exc => Exec.raise exc
    | none => pure ()
  | chunk :: chunks => do
    suspend env .cancelledError
    assign fun v => { v with firstChunkTs := some (v.firstChunkTs.getD env.clock.firstChunk) }
    match formatSse (relayedDict env.call.canonicalModel chunk) with
    | none => Exec.raise (.exception "'utf-8' codec can't encode: surrogates not allowed")
    | some bytes =>
      yieldBytes env bytes
      relay env chunks

/-- The `try` block of `stream_generator`. -/
def streamBody (env : Env) : Body StreamVars Unit :=
  withAcquire env do
    assign fun v =>
      { v with admissionCompletedTs := some env.clock.admissionCompleted
               backendStartedTs := some env.clock.backendStarted }
    log (.called env.call.backend env.call.model true)
    relay env env.upstream.chunks
    yieldBytes env formatSseDone
    assign fun v =>
      { v with streamCompletedNormally := true, streamCompletedTs := some env.clock.streamCompleted
               finalOutcome := .completed }

/-- `stream_completed_ts = time.monotonic(); final_outcome = outcome`. -/
def stop (clock : Clock) (outcome : Outcome) : Body StreamVars Unit :=
  assign fun v =>
    { v with streamCompletedTs := some clock.streamCompleted, finalOutcome := outcome }

/-- The `except` clause of a typed backend error. -/
def stopFailed (clock : Clock) (code : String) : Body StreamVars Unit := do
  stop clock .failed
  assign fun v => { v with finalErrorCode := some code }

/-- The `except` clauses of `stream_generator`. -/
def streamExcept (clock : Clock) (exc : Exc) : Option (Body StreamVars Unit) :=
  if exc.isInstance .backendTimeoutError then some (stopFailed clock "backend_timeout")
  else if exc.isInstance .backendProtocolError then some (stopFailed clock "backend_protocol_error")
  else if exc.isInstance .backendInvalidResponseError then
    some (stopFailed clock "backend_invalid_response")
  else if exc.isInstance .backendUnavailableError then some (stopFailed clock "backend_unavailable")
  else if exc = .cancelledError then some (do stop clock .cancelled; Exec.raise exc)
  else if exc.isException then some (stop clock .failed)
  else none

/-- The row that `stream_generator` records. -/
def streamRecord (env : Env) (v : StreamVars) : UsageRecord where
  requestId := env.call.requestId
  userId := env.call.userId
  clientId := env.call.clientId
  apiKeyId := env.call.apiKeyId
  model := if env.call.canonicalModel = [] then env.call.model else env.call.canonicalModel
  streaming := true
  startedAt := env.clock.startedAt
  completedAt := env.clock.completedAt
  status := v.finalOutcome
  promptTokens := v.promptTokensKnown
  completionTokens := v.completionTokensKnown
  totalTokens := v.totalTokensKnown
  queueWaitMs := v.admissionCompletedTs.map (· - env.clock.admissionStarted)
  errorCode := v.finalErrorCode
  backendLatencyMs := none
  ttftMs := do return (← v.firstChunkTs) - (← v.backendStartedTs)
  streamDurationMs := do return (← v.streamCompletedTs) - (← v.firstChunkTs)
  -- `stream_completed_ts or time.monotonic()`
  totalDurationMs :=
    some ((v.streamCompletedTs.filter (· ≠ 0)).getD env.clock.nowMono - env.clock.admissionStarted)
  backendId := env.call.backendId

/-- "Detect client disconnect". -/
def detectDisconnect (v : StreamVars) : StreamVars :=
  if !v.streamCompletedNormally && v.finalOutcome = .failed && v.finalErrorCode = none then
    { v with finalOutcome := .cancelled }
  else v

/-- The `finally` clause of `stream_generator`. -/
def streamFinally (env : Env) : Body StreamVars Unit := do
  assign detectDisconnect
  let s ← Exec.get
  recordUsage env.app (streamRecord env s.vars)

/-- `stream_generator`, iterated to its end. -/
def streamGenerator (env : Env) : Body StreamVars Unit :=
  Exec.tryFinally (Exec.tryExcept (streamBody env) (streamExcept env.clock)) (streamFinally env)

/-- `StreamingResponse`. -/
structure StreamingResponse where
  status : ℕ := 200
  mediaType : String
  headers : List (String × String)
  body : Body StreamVars Unit

/-- `_streaming_completion`. -/
def streamingCompletion (env : Env) : Body StreamVars StreamingResponse := do
  getAdmission env.app
  return {
    mediaType := "text/event-stream"
    headers := [("Cache-Control", "no-cache"), ("X-Request-ID", env.call.requestId)]
    body := streamGenerator env }

/-! ## Serving a request -/

/-- The path of the route. -/
def chatPath : Text := "/v1/chat/completions".toList

/-- What the application's exception handlers do. A cancelled request gets no response. -/
def handleException {V : Type} (env : Env) (exc : Exc) : Option (Body V Unit) :=
  match exc with
  | .syn error =>
    let (status, content) := errorResponse chatPath env.call.requestId error
    some (log (.sent (.json status content)))
  | .exception _ => some (log (.sent .internalServerError))
  | _ => none

/-- A non-streaming request. -/
def serveCompletion (env : Env) (reply : Except Exc ChatCompletionResponse) :
    Body CompletionVars Unit :=
  Exec.tryExcept
    (do
      let response ← nonStreamingCompletion env reply
      log (.sent (.json 200 response)))
    (handleException env)

/-- `StreamingResponse.__call__`: the status line goes out before the body is iterated. -/
def StreamingResponse.send (response : StreamingResponse) : Body StreamVars Unit := do
  log (.sent (.start response.status response.mediaType response.headers))
  response.body
  log (.sent .done)

/-- A streaming request. An exception of the body comes after the status line, so no handler can
answer it. -/
def serveStream (env : Env) : Body StreamVars Unit := do
  let response ← Exec.tryExcept (some <$> streamingCompletion env)
    fun exc => (handleException env exc).map fun answer => do answer; return none
  match response with
  | some response => response.send
  | none => pure ()

/-- What a streaming request does. -/
def streamEvents (env : Env) : List Event := ((serveStream env).run { vars := {} }).2.events

/-- What a non-streaming request does. -/
def completionEvents (env : Env) (reply : Except Exc ChatCompletionResponse) : List Event :=
  ((serveCompletion env reply).run { vars := {} }).2.events

/-- The usage records among the events. -/
def records (events : List Event) : List UsageRecord :=
  events.filterMap fun
    | .recorded row => some row
    | _ => none

/-- What the client sees. -/
def clientView (events : List Event) : List Sent :=
  events.filterMap fun
    | .sent what => some what
    | _ => none

end SynGateway.Api.Chat

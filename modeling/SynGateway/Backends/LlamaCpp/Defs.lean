import SynGateway.Api.Chat.Defs
import SynGateway.Core.Sse.Defs
import SynGateway.Python.Interpreter

/-!
# The llama.cpp backend

`chat_completion` and `stream_chat_completion` of `app/backends/llama_cpp.py`. What the server and
the HTTP client do comes in as an answer to the payload that is posted; what `aread()` and
`aclose()` raise is swallowed or not of interest here, so they have no part in it.
-/

namespace SynGateway.Backends.LlamaCpp

open SynGateway.Api.Chat SynGateway.Core SynGateway.Core.Sse SynGateway.Python
  SynGateway.Python.Json

/-! ## The HTTP client -/

/-- The classes of `httpx` below `TransportError`. -/
inductive TransportError
  | transportError
  | timeoutException | connectTimeout | readTimeout | writeTimeout | poolTimeout
  | networkError | connectError | readError | writeError | closeError
  | protocolError | localProtocolError | remoteProtocolError
  | proxyError | unsupportedProtocol
deriving DecidableEq, Repr

namespace TransportError

/-- The class and its bases, up to `TransportError`. -/
def mro : TransportError → List TransportError
  | transportError => [transportError]
  | timeoutException => [timeoutException, transportError]
  | connectTimeout => [connectTimeout, timeoutException, transportError]
  | readTimeout => [readTimeout, timeoutException, transportError]
  | writeTimeout => [writeTimeout, timeoutException, transportError]
  | poolTimeout => [poolTimeout, timeoutException, transportError]
  | networkError => [networkError, transportError]
  | connectError => [connectError, networkError, transportError]
  | readError => [readError, networkError, transportError]
  | writeError => [writeError, networkError, transportError]
  | closeError => [closeError, networkError, transportError]
  | protocolError => [protocolError, transportError]
  | localProtocolError => [localProtocolError, protocolError, transportError]
  | remoteProtocolError => [remoteProtocolError, protocolError, transportError]
  | proxyError => [proxyError, transportError]
  | unsupportedProtocol => [unsupportedProtocol, transportError]

/-- `isinstance(exc, cls)`. -/
def isInstance (exc cls : TransportError) : Bool := cls ∈ exc.mro

/-- `type(exc).__name__`. -/
def name : TransportError → String
  | transportError => "TransportError"
  | timeoutException => "TimeoutException"
  | connectTimeout => "ConnectTimeout"
  | readTimeout => "ReadTimeout"
  | writeTimeout => "WriteTimeout"
  | poolTimeout => "PoolTimeout"
  | networkError => "NetworkError"
  | connectError => "ConnectError"
  | readError => "ReadError"
  | writeError => "WriteError"
  | closeError => "CloseError"
  | protocolError => "ProtocolError"
  | localProtocolError => "LocalProtocolError"
  | remoteProtocolError => "RemoteProtocolError"
  | proxyError => "ProxyError"
  | unsupportedProtocol => "UnsupportedProtocol"

end TransportError

/-- What the backend meets: an exception of the HTTP client, or another one. -/
inductive Raised
  | transport (exc : TransportError)
  | exc (exc : Exc)
deriving DecidableEq, Repr

/-- `_classify_transport_error`. -/
def classifyTransportError (exc : TransportError) : String :=
  if exc.isInstance .connectError || exc.isInstance .connectTimeout then "connection failed"
  else if exc.isInstance .readTimeout || exc.isInstance .writeTimeout then "timed out"
  else if exc.isInstance .protocolError || exc.isInstance .remoteProtocolError then "protocol error"
  else exc.name

/-- A response to `client.post`: its status, what `resp.json()` returns (`none` if it raises), and
the items of `aiter_bytes()` with what it raises after them. -/
structure Response where
  statusCode : ℕ
  json : Option Json := none
  chunks : List (List UInt8) := []
  raised : Option TransportError := none

/-- `client.post(url, json=payload)`. -/
abbrev Post := Json → Except TransportError Response

/-! ## The request -/

/-- `ChatMessage`. -/
structure ChatMessage where
  role : Str
  content : Str

/-- `ChatCompletionRequest`. The numbers are those of the request, as JSON. -/
structure ChatCompletionRequest where
  model : Str
  messages : List ChatMessage := []
  temperature : Json := .null
  topP : Json := .null
  maxTokens : Json := .null
  stop : Json := .null

/-- The payload that both functions build. -/
def payload (request : ChatCompletionRequest) (stream : Bool) : Json :=
  .obj ([(Str.ofString "model", .str request.model),
    (Str.ofString "messages", .arr (request.messages.map fun msg =>
      .obj [(Str.ofString "role", .str msg.role), (Str.ofString "content", .str msg.content)])),
    (Str.ofString "stream", .bool stream)] ++ itemUnlessNone "temperature" request.temperature ++
    itemUnlessNone "top_p" request.topP ++ itemUnlessNone "max_tokens" request.maxTokens ++
    itemUnlessNone "stop" request.stop)

/-- `raise cls(detail, code=code)`. -/
def backendError (cls : ErrorClass) (detail code : String) : Raised :=
  .exc (.syn (cls.new (some detail) (some code) none none))

/-- The clauses around `client.post`. -/
def postError (what timeout : String) (exc : TransportError) : Raised :=
  if exc.isInstance .timeoutException then
    backendError .backendTimeoutError (what ++ " timed out" ++ timeout) "backend_timeout"
  else
    backendError .backendUnavailableError (what ++ " unreachable: " ++ classifyTransportError exc)
      "backend_unavailable"

/-! ## `chat_completion` -/

/-- The loop body over `choices`: the role and the content of the message, and the finish reason. -/
def normalizeChoice (choice : Json) : Except Exc (Json × Json × Json) := do
  let choice ← dictItems choice
  let msgData ← dictItems ((dictGet choice "message").getD (.obj []))
  return ((dictGet msgData "role").getD (.text "assistant"),
    (dictGet msgData "content").getD (.text ""), (dictGet choice "finish_reason").getD .null)

/-- "Normalize the response into Syn-owned typed structures." -/
def normalizeResponse (model : Str) (data : Json) : Except Exc ChatCompletionResponse := do
  let data ← dictItems data
  let rawChoices ← iterate ((dictGet data "choices").getD (.arr []))
  let choices ← rawChoices.mapM normalizeChoice
  let usageData ← dictItems (orElse (dictGet data "usage") (.obj []))
  return {
    id := (dictGet data "id").getD (.text "")
    object := (dictGet data "object").getD (.text "chat.completion")
    created := (dictGet data "created").getD (.int 0)
    model := (dictGet data "model").getD (.str model)
    choices := choices.mapIdx fun index choice => (index, choice)
    promptTokens := (dictGet usageData "prompt_tokens").getD (.int 0)
    completionTokens := (dictGet usageData "completion_tokens").getD (.int 0)
    totalTokens := (dictGet usageData "total_tokens").getD (.int 0)
    systemFingerprint := (dictGet data "system_fingerprint").getD .null }

/-- `chat_completion`. -/
def chatCompletion (post : Post) (request : ChatCompletionRequest) :
    Except Raised ChatCompletionResponse :=
  match post (payload request false) with
  | .error exc => .error (postError "chat completion" "" exc)
  | .ok resp =>
    if resp.statusCode ≠ 200 then
      .error (backendError .backendProtocolError
        ("chat completion returned HTTP " ++ toString resp.statusCode) "backend_protocol_error")
    else
      match resp.json with
      | none => .error
          (backendError .backendInvalidResponseError "invalid JSON from /v1/chat/completions"
          "backend_invalid_response")
      | some data => (normalizeResponse request.model data).mapError .exc

/-! ## `stream_chat_completion` -/

/-- The loop body over `choices`; a choice that is no object is skipped. -/
def normalizeChunkChoice (idx : ℕ) : Json → Option ChatCompletionChunkChoice
  | .obj rawChoice =>
    let rawDelta := match orElse (dictGet rawChoice "delta") (.obj []) with
      | .obj members => members
      | _ => []
    some {
      index := (dictGet rawChoice "index").getD (.int idx)
      delta := { role := (dictGet rawDelta "role").getD .null
                 content := (dictGet rawDelta "content").getD .null }
      finishReason := (dictGet rawChoice "finish_reason").getD .null }
  | _ => none

/-- `_normalize_stream_chunk`; `none` if the payload is no chunk object. -/
def normalizeStreamChunk (i : Interpreter) (payload : Json) (fallbackModel : Str) :
    Except Exc (Option ChatCompletionChunk) :=
  match payload with
  | .obj payload =>
    match dictGet payload "choices" with
    | some (.arr rawChoices) => do
      let created ← i.int ((dictGet payload "created").getD (.int 0))
      return some {
        id := i.str ((dictGet payload "id").getD (.text ""))
        object := i.str ((dictGet payload "object").getD (.text "chat.completion.chunk"))
        created := created
        model := i.str ((dictGet payload "model").getD (.str fallbackModel))
        choices := (rawChoices.mapIdx normalizeChunkChoice).reduceOption
        systemFingerprint := (dictGet payload "system_fingerprint").getD .null }
    | _ => .ok none
  | _ => .ok none

/-- The body of the generator; the state is what it has yielded. -/
abbrev Generator (α : Type) := Exec Raised (List ChatCompletionChunk) α

/-- `yield chunk`. -/
def yieldChunk (chunk : ChatCompletionChunk) :
    Generator Unit := Exec.modify fun chunks => chunks ++ [chunk]

/-- What is raised for an event that is no JSON, by what `json.loads` says of it. -/
def invalidChunk (text : String) : Raised :=
  backendError .backendInvalidResponseError ("invalid JSON in stream chunk: " ++ text)
    "backend_invalid_response"

/-- `async for sse_event in ...`, as far as the events go; the result is whether it was left by
`break`. -/
def streamLoop (i : Interpreter) (model : Str) : List SSEEvent → Generator Bool
  | [] => return false
  | event :: events =>
    if event.isDone then return true
    else if event.data = [] then streamLoop i model events
    else
      match i.loads (Str.ofText event.data) with
      | .error .valueError => Exec.raise (invalidChunk (i.valueErrorText (Str.ofText event.data)))
      | .error .recursionError => Exec.raise (.exc (.exception "maximum recursion depth exceeded"))
      | .ok payload =>
        match normalizeStreamChunk i payload model with
        | .error exc => Exec.raise (.exc exc)
        | .ok none => streamLoop i model events
        | .ok (some chunk) => do
          yieldChunk chunk
          streamLoop i model events

/-- The events of the chunks from a buffer on, without what is flushed at the end. -/
def feedAll (buffer : Text) : List (List UInt8) → List SSEEvent
  | [] => []
  | chunk :: chunks => (feed buffer chunk).1 ++ feedAll (feed buffer chunk).2 chunks

/-- The events of `parse_sse(response.aiter_bytes())`. If the iterator raises, nothing is flushed.
-/
def sseEvents (response : Response) : List SSEEvent :=
  match response.raised with
  | none => parseSse response.chunks
  | some _ => feedAll [] response.chunks

/-- The `try` block around the loop. -/
def streamBody (i : Interpreter) (model : Str) (response : Response) : Generator Unit := do
  let left ← streamLoop i model (sseEvents response)
  if left then return ()
  else
    match response.raised with
    | none => return ()
    | some exc => Exec.raise (.transport exc)

/-- The clauses around the loop. A timeout is a transport error, so the last one is never reached.
-/
def streamExcept : Raised → Option (Generator Unit)
  | .exc exc =>
      if exc.isInstance .backendInvalidResponseError then some (Exec.raise (.exc exc)) else none
  | .transport exc =>
    if exc.isInstance .transportError then
      some (Exec.raise (backendError .backendUnavailableError
        ("stream interrupted: " ++ classifyTransportError exc) "backend_unavailable"))
    else if exc.isInstance .timeoutException then
      some (Exec.raise (backendError .backendTimeoutError
        "streaming chat completion timed out (read)" "backend_timeout"))
    else none

/-- `_stream_chat_completion_impl`. -/
def streamChatCompletionImpl (i : Interpreter) (post : Post) (request : ChatCompletionRequest) :
    Generator Unit :=
  match post (payload request true) with
  | .error exc => Exec.raise (postError "streaming chat completion" " (connect)" exc)
  | .ok response =>
    if response.statusCode ≠ 200 then
      Exec.raise (backendError .backendProtocolError
        ("streaming chat completion returned HTTP " ++ toString response.statusCode)
        "backend_protocol_error")
    else Exec.tryExcept (streamBody i request.model response) streamExcept

/-- `stream_chat_completion`, iterated to its end: what it yields, and how it ends. -/
def streamChatCompletion (i : Interpreter) (post : Post) (request : ChatCompletionRequest) :
    List ChatCompletionChunk × Except Raised Unit :=
  let (result, chunks) := (streamChatCompletionImpl i post request).run []
  (chunks, result)

end SynGateway.Backends.LlamaCpp

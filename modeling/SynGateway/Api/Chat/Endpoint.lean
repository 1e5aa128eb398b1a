import SynGateway.Api.Chat.Trace
import SynGateway.Backends.LlamaCpp.Defs
import SynGateway.Core.Auth
import SynGateway.Routing.Router
import SynGateway.Services.KeyLifecycle
import SynGateway.Services.Precheck

/-!
# The endpoint

`create_chat_completion` of `app/api/chat.py`, with the authentication that it depends on, up to and
including the completion functions. `createChatCompletion_eq_ok` says what a request has passed when
a completion function is called, and `complete_mediation` what follows for the calls of the backend.
-/

namespace SynGateway.Api.Chat

open SynGateway.Backends SynGateway.Core SynGateway.Core.Auth SynGateway.Core.RateLimit
  SynGateway.Db
open SynGateway.Python SynGateway.Routing SynGateway.Services

/-! ## What a request finds -/

/-- `ChatCompletionRequest` of `app/api/chat_schemas.py`: the fields of the internal request, and
`stream`. -/
structure APIChatCompletionRequest extends LlamaCpp.ChatCompletionRequest where
  stream : Bool := false

/-- `request.app.state`. `database` says whether it is wired and connected. -/
structure AppState where
  database : Bool := true
  usageService : Option UsageService
  admission : Bool := true
  router : Option RoutingService := none
  backend : Option InferenceBackend := none

/-- A request, with what it finds outside the program: the hash function, the clocks, the usage
table when it is checked, how `acquire()` ends, and what the backends answer. -/
structure Request where
  requestId : String
  authorization : Option Text
  body : APIChatCompletionRequest
  sha256 : Text → String
  now : ℤ
  commits : Bool := true
  reading : Reading
  clock : Clock := {}
  acquire : Acquire
  disconnect : Option ℕ := none
  recordError : Option Exc := none
  validationError : Json → Option Exc := fun _ => none
  chatCompletion : InferenceBackend → LlamaCpp.ChatCompletionRequest →
    Except Exc ChatCompletionResponse
  streamChatCompletion : InferenceBackend → LlamaCpp.ChatCompletionRequest → Upstream

/-- What the checks read and change. -/
structure Store where
  database : Database
  limiter : RateLimiter String

/-! ## The checks -/

/-- `SynError(detail, code=code, http_status=503)`. -/
def notAvailable (detail code : String) : Exc :=
  .syn (ErrorClass.synError.new (some detail) (some code) (some 503) none)

/-- `_get_backend`. -/
def getBackend (app : AppState) : Except Exc InferenceBackend :=
  match app.backend with
  | none => .error (notAvailable "inference backend not available" "backend_not_wired")
  | some backend => .ok backend

/-- `_get_router`. -/
def getRouter (app : AppState) : Except Exc RoutingService :=
  match app.router with
  | some router => .ok router
  | none =>
    match app.backend with
    | none => .error (notAvailable "routing is not available" "routing_not_wired")
    | some _ => .ok { passthrough := true, getDefaultBackend := some app.backend }

/-- `_check_capability`. -/
def checkCapability (backend : InferenceBackend) (capability : BackendCapability) :
    Except Exc Unit :=
  if capability ∉ backend.capabilities then
    .error (.syn (ErrorClass.synError.new (some ("backend does not support " ++ capability.value))
      (some "capability_not_supported") (some 501) none))
  else .ok ()

/-- `_enforce_model_access`. -/
def enforceModelAccess (principal : AuthenticatedPrincipal) (modelId : Str) : Except Exc Unit :=
  if !principal.canUseModel modelId then .error (modelForbidden modelId) else .ok ()

/-- `if stream and BackendCapability.STREAMING not in capabilities: raise SynError(...)`. -/
def checkStreaming (stream : Bool) (capabilities : List BackendCapability) : Except Exc Unit :=
  if stream = true ∧ .streaming ∉ capabilities then
    .error (.syn (ErrorClass.synError.new (some "streaming is not supported by this backend")
      (some "stream_not_supported") (some 400) (some "stream")))
  else .ok ()

/-- `_get_available_models`, as the list of the ids. -/
def getAvailableModels (backend : InferenceBackend) : Except Exc (List Str) :=
  match backend.models with
  | .error exc => .error (rewrapModelsError "model validation" exc)
  | .ok models => .ok (models.map (·.id))

/-- `_validate_and_normalize_request`. -/
def validateAndNormalizeRequest (apiReq : APIChatCompletionRequest) (availableModels : List Str)
    (principal : AuthenticatedPrincipal) (backendCapabilities : List BackendCapability) :
    Except Exc LlamaCpp.ChatCompletionRequest :=
  if apiReq.model ∉ availableModels then
    .error (.syn (ErrorClass.synError.new (some ("model '" ++ render apiReq.model ++ "' not found"))
      (some "model_not_found") (some 404) (some "model")))
  else do
    enforceModelAccess principal apiReq.model
    checkStreaming apiReq.stream backendCapabilities
    return apiReq.toChatCompletionRequest

/-- What a completion function is called with: the backend, the internal request, and the names of
the model and of the backend that are recorded. -/
structure Target where
  backend : InferenceBackend
  internalReq : LlamaCpp.ChatCompletionRequest
  canonicalModel : Str
  backendId : Option Str

/-- The branch of configured mode. -/
def targetConfigured (routing : RoutingService) (body : APIChatCompletionRequest)
    (principal : AuthenticatedPrincipal) : Except Exc Target := do
  let decision ← routing.route body.model principal
  checkCapability decision.backend .chatCompletions
  checkStreaming body.stream decision.backend.capabilities
  return {
    backend := decision.backend
    internalReq := { body.toChatCompletionRequest with model := decision.backendModel }
    canonicalModel := decision.canonicalModel
    backendId := some decision.backendId }

/-- The branch of passthrough mode. -/
def targetPassthrough (app : AppState) (body : APIChatCompletionRequest)
    (principal : AuthenticatedPrincipal) : Except Exc Target := do
  let backend ← getBackend app
  checkCapability backend .chatCompletions
  let availableModels ← getAvailableModels backend
  let internalReq ← validateAndNormalizeRequest body availableModels principal backend.capabilities
  return { backend, internalReq, canonicalModel := body.model, backendId := none }

/-- Routing, from `_get_router` on. -/
def chooseTarget (app : AppState) (body : APIChatCompletionRequest)
    (principal : AuthenticatedPrincipal) :
    Except Exc Target := do
  let routing ← getRouter app
  if routing.configured then targetConfigured routing body principal
  else targetPassthrough app body principal

/-- What `authenticate_with_orm` finds. -/
def Request.authEnv (r : Request) (app : AppState) : AuthEnv where
  sha256 := r.sha256
  database := app.database
  now := r.now
  commits := r.commits

/-- The dependency `authenticate_with_orm`. -/
def authenticate (app : AppState) (r : Request) :
    Exec Exc Store (AuthenticatedPrincipal × ApiKey × Client) :=
  Exec.zoom Store.database (fun db s => { s with database := db }) id
    (authenticateWithOrm (r.authEnv app) r.authorization)

/-- `if usage_service is not None: ... await usage_service.precheck(...)`. -/
def checkUsage (app : AppState) (r : Request) (apiKey : ApiKey) (client : Client) :
    Exec Exc Store Unit :=
  match app.usageService with
  | none => pure ()
  | some service =>
    if app.database then do
      let _ ← Exec.zoom Store.limiter (fun limiter s => { s with limiter }) Exc.syn
        (service.precheck r.reading apiKey client)
    else Exec.raise (notAvailable "database unavailable for usage tracking" "usage_unavailable")

/-- A request whose completion function is called. -/
structure Dispatch where
  principal : AuthenticatedPrincipal
  apiKey : ApiKey
  client : Client
  target : Target

/-- `create_chat_completion`, up to the call of a completion function. -/
def createChatCompletion (app : AppState) (r : Request) : Exec Exc Store Dispatch := do
  let (principal, apiKey, client) ← authenticate app r
  checkUsage app r apiKey client
  let target ← Exec.lift (chooseTarget app r.body principal)
  return { principal, apiKey, client, target }

/-! ## The request as a whole -/

/-- What the completion functions find. -/
def Request.env (r : Request) (app : AppState) (d : Dispatch) : Env where
  app := {
    admission := app.admission
    usageService := app.usageService.isSome
    database := app.database
    recordError := r.recordError
    validationError := r.validationError }
  call := {
    requestId := r.requestId
    apiKeyId := some d.apiKey.id
    clientId := some d.client.id
    userId := some d.client.userId
    model := d.target.internalReq.model
    canonicalModel := d.target.canonicalModel
    backendId := d.target.backendId.map render
    backend := d.target.backend }
  clock := r.clock
  acquire := r.acquire
  upstream := r.streamChatCompletion d.target.backend d.target.internalReq
  disconnect := r.disconnect

/-- The completion function of the request. -/
def completionOf (app : AppState) (r : Request) (d : Dispatch) : List Event :=
  if r.body.stream then streamEvents (r.env app d)
  else completionEvents (r.env app d) (r.chatCompletion d.target.backend d.target.internalReq)

/-- The answer to an exception of the dependency or of the checks. -/
def refusal (requestId : String) : Exc → List Event
  | .syn error =>
    let (status, content) := errorResponse chatPath requestId error
    [.sent (.json status content)]
  | .exception _ => [.sent .internalServerError]
  | _ => []

/-- What the request does. -/
def chatEvents (app : AppState) (r : Request) (s : Store) : List Event :=
  match ((createChatCompletion app r).run s).1 with
  | .error exc => refusal r.requestId exc
  | .ok d => completionOf app r d

section Events

variable {app : AppState} {r : Request} {s : Store}

/-- A request that is not dispatched is answered with the refusal. -/
theorem chatEvents_of_error {exc : Exc} (h : ((createChatCompletion app r).run s).1 = .error exc) :
    chatEvents app r s = refusal r.requestId exc := by
  unfold chatEvents
  rw [h]

/-- A request that is dispatched is answered by its completion. -/
theorem chatEvents_of_ok {d : Dispatch} (h : ((createChatCompletion app r).run s).1 = .ok d) :
    chatEvents app r s = completionOf app r d := by
  unfold chatEvents
  rw [h]

end Events

/-! ## What the checks let pass -/

section Targets

variable {app : AppState} {body : APIChatCompletionRequest} {principal : AuthenticatedPrincipal}
  {target : Target} {backend : InferenceBackend} {routing : RoutingService}

/-- The check passes for a capability that the backend has. -/
theorem checkCapability_eq_ok {capability : BackendCapability} :
    checkCapability backend capability = .ok () ↔ capability ∈ backend.capabilities := by
  unfold checkCapability
  split_ifs with h <;> simp_all

/-- The check passes for a backend that streams, and for a request that does not. -/
theorem checkStreaming_eq_ok {stream : Bool} {capabilities : List BackendCapability} :
    checkStreaming stream capabilities = .ok () ↔ (stream = true → .streaming ∈ capabilities) := by
  unfold checkStreaming
  split_ifs with h <;> simp_all

/-- The check passes for a model that the principal may use. -/
theorem enforceModelAccess_eq_ok {modelId : Str} :
    enforceModelAccess principal modelId = .ok () ↔ principal.canUseModel modelId = true := by
  unfold enforceModelAccess
  split_ifs with h <;> simp_all

/-- The available models are the identifiers that the backend lists. -/
theorem getAvailableModels_eq_ok {availableModels : List Str} :
    getAvailableModels backend = .ok availableModels ↔
      ∃ models, backend.models = .ok models ∧ availableModels = models.map (·.id) := by
  unfold getAvailableModels
  cases backend.models <;> simp [eq_comm]

/-- What passes the validation: a model that is there and may be used, and a stream only where the
backend streams. -/
theorem validateAndNormalizeRequest_eq_ok {availableModels : List Str}
    {capabilities : List BackendCapability} {internalReq : LlamaCpp.ChatCompletionRequest} :
    validateAndNormalizeRequest body availableModels principal capabilities = .ok internalReq ↔
      body.model ∈ availableModels ∧ principal.canUseModel body.model = true ∧
        (body.stream = true → .streaming ∈ capabilities) ∧
        internalReq = body.toChatCompletionRequest := by
  unfold validateAndNormalizeRequest
  by_cases hlisted : body.model ∈ availableModels
  · rw [if_neg (not_not.mpr hlisted)]
    constructor
    · intro h
      obtain ⟨_, hpermitted, h⟩ := bind_eq_ok.mp h
      obtain ⟨_, hstream, h⟩ := bind_eq_ok.mp h
      exact ⟨hlisted, enforceModelAccess_eq_ok.mp hpermitted, checkStreaming_eq_ok.mp hstream,
        (Except.ok.inj h).symm⟩
    · rintro ⟨-, hpermitted, hstream, rfl⟩
      refine bind_eq_ok.mpr ⟨_, enforceModelAccess_eq_ok.mpr hpermitted, ?_⟩
      exact bind_eq_ok.mpr ⟨_, checkStreaming_eq_ok.mpr hstream, rfl⟩
  · rw [if_pos hlisted]
    simp [hlisted]

/-- The target of configured mode: the routed backend and its name for the model, with the
capabilities that the request needs. -/
structure ConfiguredTarget (routing : RoutingService) (body : APIChatCompletionRequest)
    (principal : AuthenticatedPrincipal) (target : Target) (decision : RouteDecision) : Prop where
  routed : routing.route body.model principal = .ok decision
  chatCompletions : .chatCompletions ∈ decision.backend.capabilities
  streaming : body.stream = true → .streaming ∈ decision.backend.capabilities
  target_eq : target = {
    backend := decision.backend
    internalReq := { body.toChatCompletionRequest with model := decision.backendModel }
    canonicalModel := decision.canonicalModel
    backendId := some decision.backendId }

/-- The target of passthrough mode: a model that the backend discovers, under its own name. -/
structure PassthroughTarget (app : AppState) (body : APIChatCompletionRequest)
    (principal : AuthenticatedPrincipal) (target : Target) (backend : InferenceBackend)
    (discovered : List BackendModelInfo) : Prop where
  wired : app.backend = some backend
  chatCompletions : .chatCompletions ∈ backend.capabilities
  streaming : body.stream = true → .streaming ∈ backend.capabilities
  models : backend.models = .ok discovered
  listed : body.model ∈ discovered.map (·.id)
  permitted : principal.canUseModel body.model = true
  target_eq : target =
    { backend, internalReq := body.toChatCompletionRequest, canonicalModel := body.model,
      backendId := none }

/-- A configured target is chosen in the way the relation says. -/
theorem targetConfigured_eq_ok :
    targetConfigured routing body principal = .ok target ↔
      ∃ decision, ConfiguredTarget routing body principal target decision := by
  unfold targetConfigured
  constructor
  · intro h
    obtain ⟨decision, hroute, h⟩ := bind_eq_ok.mp h
    obtain ⟨_, hchat, h⟩ := bind_eq_ok.mp h
    obtain ⟨_, hstream, h⟩ := bind_eq_ok.mp h
    exact ⟨decision, hroute, checkCapability_eq_ok.mp hchat, checkStreaming_eq_ok.mp hstream,
      (Except.ok.inj h).symm⟩
  · rintro ⟨decision, h⟩
    refine bind_eq_ok.mpr ⟨decision, h.routed, ?_⟩
    refine bind_eq_ok.mpr ⟨_, checkCapability_eq_ok.mpr h.chatCompletions, ?_⟩
    refine bind_eq_ok.mpr ⟨_, checkStreaming_eq_ok.mpr h.streaming, ?_⟩
    rw [h.target_eq]
    rfl

/-- A passthrough target is chosen in the way the relation says. -/
theorem targetPassthrough_eq_ok :
    targetPassthrough app body principal = .ok target ↔
      ∃ backend discovered, PassthroughTarget app body principal target backend discovered := by
  unfold targetPassthrough
  have hbackend : ∀ {backend}, getBackend app = .ok backend ↔ app.backend = some backend := by
    intro backend
    unfold getBackend
    cases app.backend <;> simp
  constructor
  · -- the checks of the source, in their order
    intro h
    obtain ⟨backend, hwired, h⟩ := bind_eq_ok.mp h
    obtain ⟨_, hchat, h⟩ := bind_eq_ok.mp h
    obtain ⟨availableModels, hmodels, h⟩ := bind_eq_ok.mp h
    obtain ⟨internalReq, hvalid, h⟩ := bind_eq_ok.mp h
    obtain ⟨discovered, hdiscovered, rfl⟩ := getAvailableModels_eq_ok.mp hmodels
    obtain ⟨hlisted, hpermitted, hstream, rfl⟩ := validateAndNormalizeRequest_eq_ok.mp hvalid
    exact ⟨backend, discovered, hbackend.mp hwired, checkCapability_eq_ok.mp hchat, hstream,
      hdiscovered, hlisted, hpermitted, (Except.ok.inj h).symm⟩
  · rintro ⟨backend, discovered, h⟩
    refine bind_eq_ok.mpr ⟨backend, hbackend.mpr h.wired, ?_⟩
    refine bind_eq_ok.mpr ⟨_, checkCapability_eq_ok.mpr h.chatCompletions, ?_⟩
    refine bind_eq_ok.mpr ⟨_, getAvailableModels_eq_ok.mpr ⟨discovered, h.models, rfl⟩, ?_⟩
    refine bind_eq_ok.mpr ⟨_, validateAndNormalizeRequest_eq_ok.mpr
      ⟨h.listed, h.permitted, h.streaming, rfl⟩, ?_⟩
    rw [h.target_eq]
    rfl

/-- A router that is not configured, or no router where there is a backend. -/
def AppState.Passthrough (app : AppState) : Prop :=
  (∃ routing, app.router = some routing ∧ routing.configured = false) ∨
    app.router = none ∧ app.backend ≠ none

/-- The router of the application, or one over its default backend. -/
theorem getRouter_eq_ok :
    getRouter app = .ok routing ↔ app.router = some routing ∨
      app.router = none ∧ app.backend ≠ none ∧
        routing = { passthrough := true, getDefaultBackend := some app.backend } := by
  unfold getRouter
  cases app.router with
  | some router => simp
  | none => cases app.backend <;> simp [eq_comm]

/-- The target of a request, in either mode. -/
theorem chooseTarget_eq_ok :
    chooseTarget app body principal = .ok target ↔
      (∃ routing decision, app.router = some routing ∧ routing.configured = true ∧
        ConfiguredTarget routing body principal target decision) ∨
      app.Passthrough ∧
        ∃ backend discovered, PassthroughTarget app body principal target backend discovered := by
  unfold chooseTarget
  rw [bind_eq_ok]
  constructor
  · rintro ⟨routing, hrouting, h⟩
    split at h
    · next hconfigured =>
        rcases getRouter_eq_ok.mp hrouting with hrouter | ⟨-, -, rfl⟩
        · obtain ⟨decision, htarget⟩ := targetConfigured_eq_ok.mp h
          exact .inl ⟨routing, decision, hrouter, hconfigured, htarget⟩
        · cases hconfigured
    · next hconfigured =>
        -- without a router the default backend is asked as in passthrough mode
        refine .inr ⟨?_, targetPassthrough_eq_ok.mp h⟩
        rcases getRouter_eq_ok.mp hrouting with hrouter | ⟨hnone, hbackend, -⟩
        · exact .inl ⟨routing, hrouter, Bool.eq_false_of_not_eq_true hconfigured⟩
        · exact .inr ⟨hnone, hbackend⟩
  · rintro (⟨routing, decision, hrouter, hconfigured, htarget⟩ | ⟨hpassthrough, htarget⟩)
    · refine ⟨routing, getRouter_eq_ok.mpr (.inl hrouter), ?_⟩
      rw [if_pos hconfigured]
      exact targetConfigured_eq_ok.mpr ⟨decision, htarget⟩
    · rcases hpassthrough with ⟨routing, hrouter, hconfigured⟩ | ⟨hnone, hbackend⟩
      · refine ⟨routing, getRouter_eq_ok.mpr (.inl hrouter), ?_⟩
        rw [if_neg (by simp [hconfigured])]
        exact targetPassthrough_eq_ok.mpr htarget
      · refine ⟨_, getRouter_eq_ok.mpr (.inr ⟨hnone, hbackend, rfl⟩), ?_⟩
        exact targetPassthrough_eq_ok.mpr htarget

end Targets

variable {app : AppState} {service : UsageService} {r : Request} {s s' : Store} {d : Dispatch}

/-- What a request has passed when its completion function is called. -/
structure Cleared (app : AppState) (service : UsageService) (r : Request) (s : Store)
    (d : Dispatch) : Prop where
  authenticated :
    Authenticated (r.authEnv app) r.authorization s.database d.principal d.apiKey d.client
  passes : service.Passes r.reading d.apiKey d.client s.limiter
  target : chooseTarget app r.body d.principal = .ok d.target

/-- Authentication succeeds for the key and the client of the header. -/
theorem authenticate_eq_ok {principal : AuthenticatedPrincipal} {apiKey : ApiKey}
    {client : Client} :
    (∃ s', (authenticate app r).run s = (.ok (principal, apiKey, client), s')) ↔
      Authenticated (r.authEnv app) r.authorization s.database principal apiKey client := by
  rw [← authenticateWithOrm_eq_ok]
  unfold authenticate
  simp only [Exec.run_zoom_eq_ok]
  constructor
  · rintro ⟨s', db, hrun, -⟩
    exact ⟨db, hrun⟩
  · rintro ⟨db, hrun⟩
    exact ⟨_, db, hrun, rfl⟩

/-- Authentication does not touch the limiter. -/
theorem authenticate_limiter (app : AppState) (r : Request) :
    Exec.Preserves Store.limiter (authenticate app r) := by
  intro s
  unfold authenticate Exec.Same
  rw [Exec.run_zoom_state]

/-- The limiter after a request whose key is checked. -/
def chargedLimiter (service : UsageService) (r : Request) (apiKey : ApiKey) (client : Client)
    (s : Store) :
    Store :=
  { s with limiter := service.limiterAfter r.reading apiKey client s.limiter }

/-- A request that passes the precheck is counted, and goes on. -/
theorem checkUsage_of_passes {apiKey : ApiKey} {client : Client}
    (hservice : app.usageService = some service) (hdatabase : app.database = true)
    (h : service.Passes r.reading apiKey client s.limiter) :
    (checkUsage app r apiKey client).run s =
    (.ok (), chargedLimiter service r apiKey client s) := by
  obtain ⟨result, hrun⟩ := UsageService.precheck_of_passes h
  unfold checkUsage
  rw [hservice]
  dsimp only
  rw [if_pos hdatabase, Exec.run_bind_ok (Exec.run_zoom_ok hrun)]
  rfl

/-- A request that does not pass the precheck is counted as well, and refused. -/
theorem checkUsage_of_not_passes {apiKey : ApiKey} {client : Client}
    (hservice : app.usageService = some service) (hdatabase : app.database = true)
    (h : ¬ service.Passes r.reading apiKey client s.limiter) :
    ∃ error, (checkUsage app r apiKey client).run s =
      (.error (.syn error), chargedLimiter service r apiKey client s) := by
  obtain ⟨error, hrun, -⟩ := UsageService.precheck_of_not_passes h
  unfold checkUsage
  rw [hservice]
  dsimp only
  rw [if_pos hdatabase, Exec.run_bind_error (Exec.run_zoom_error hrun)]
  exact ⟨error, rfl⟩

/-- **A completion function is called exactly for the requests that pass every check.** -/
theorem createChatCompletion_eq_ok (hservice : app.usageService = some service) :
    ((createChatCompletion app r).run s).1 = .ok d ↔ Cleared app service r s d := by
  have hpair : ∀ {x : Except Exc Dispatch × Store}, x.1 = .ok d ↔ ∃ s', x = (.ok d, s') := by
    intro x
    constructor
    · intro h
      exact ⟨x.2, Prod.ext h rfl⟩
    · rintro ⟨s', rfl⟩
      rfl
  rw [hpair]
  constructor
  · rintro ⟨s', hrun⟩
    obtain ⟨⟨principal, apiKey, client⟩, s₁, hauth, hrest⟩ := Exec.run_bind_eq_ok.mp hrun
    obtain ⟨⟨⟩, s₂, husage, hrest⟩ := Exec.run_bind_eq_ok.mp hrest
    obtain ⟨target, s₃, htarget, hrest⟩ := Exec.run_bind_eq_ok.mp hrest
    have hauthenticated := authenticate_eq_ok.mp ⟨s₁, hauth⟩
    -- the checks were passed, or the request would have been refused here
    have hpasses : service.Passes r.reading apiKey client s₁.limiter := by
      by_contra hnot
      obtain ⟨error, herror⟩ := checkUsage_of_not_passes hservice hauthenticated.1 hnot
      rw [husage] at herror
      cases herror
    have hlimiter : s₁.limiter = s.limiter := (authenticate_limiter app r).ends hauth
    rw [hlimiter] at hpasses
    cases hrest
    exact ⟨hauthenticated, hpasses, (Prod.mk.inj htarget).1⟩
  · rintro ⟨hauthenticated, hpasses, htarget⟩
    obtain ⟨s₁, hauth⟩ := authenticate_eq_ok.mpr hauthenticated
    -- what is charged is the limiter before the request: authentication does not touch it
    have hlimiter : s₁.limiter = s.limiter := (authenticate_limiter app r).ends hauth
    rw [← hlimiter] at hpasses
    refine ⟨chargedLimiter service r d.apiKey d.client s₁, ?_⟩
    unfold createChatCompletion
    rw [Exec.run_bind_ok hauth]
    dsimp only
    rw [Exec.run_bind_ok (checkUsage_of_passes hservice hauthenticated.1 hpasses), htarget]
    rfl

/-- A refused request is answered, and that is all. -/
theorem outside_refusal (requestId : String) (exc : Exc) :
    ∀ e ∈ refusal requestId exc, ∃ what, e = .sent what := by
  intro e he
  cases exc with
  | syn error => exact ⟨_, List.mem_singleton.mp he⟩
  | exception message => exact ⟨_, List.mem_singleton.mp he⟩
  | cancelledError => cases he
  | generatorExit => cases he

/-! ## Mediation -/

/-- The model that configured mode sends for a request: the routing decision's, for an enabled model
that is permitted to the principal. -/
def ConfiguredModel (app : AppState) (requested : Str) (principal : AuthenticatedPrincipal)
    (backend : InferenceBackend) (model : Str) : Prop :=
  ∃ routing decision registry entry, app.router = some routing ∧ routing.configured = true ∧
    routing.route requested principal = .ok decision ∧
    backend = decision.backend ∧ model = decision.backendModel ∧
    routing.modelRegistry = some registry ∧ registry.resolve requested = .ok entry ∧
    decision.canonicalModel = entry.id ∧ entry.enabled = true ∧
    principal.canUseModel decision.canonicalModel = true

/-- The model that passthrough mode sends: the requested one, discovered and permitted. -/
def PassthroughModel (app : AppState) (requested : Str) (principal : AuthenticatedPrincipal)
    (backend : InferenceBackend) (model : Str) : Prop :=
  app.Passthrough ∧ ∃ discovered, app.backend = some backend ∧ backend.models = .ok discovered ∧
    requested ∈ discovered.map (·.id) ∧ model = requested ∧ principal.canUseModel requested = true

/-- The gates before a call of the backend. -/
structure Mediated (app : AppState) (service : UsageService) (r : Request) (s : Store)
    (principal : AuthenticatedPrincipal) (apiKey : ApiKey) (client : Client)
    (backend : InferenceBackend) (model : Str) : Prop where
  authenticated : Authenticated (r.authEnv app) r.authorization s.database principal apiKey client
  passes : service.Passes r.reading apiKey client s.limiter
  routed : ConfiguredModel app r.body.model principal backend model ∨
    PassthroughModel app r.body.model principal backend model
  chatCompletions : .chatCompletions ∈ backend.capabilities
  streaming : r.body.stream = true → .streaming ∈ backend.capabilities

/-- What a cleared request calls has passed the gates. -/
theorem Cleared.mediated (h : Cleared app service r s d) :
    Mediated app service r s d.principal d.apiKey d.client d.target.backend
    d.target.internalReq.model := by
  rcases chooseTarget_eq_ok.mp h.target with
    ⟨routing, decision, hrouter, hconfigured, htarget⟩ |
      ⟨hpassthrough, backend, discovered, htarget⟩
  · obtain ⟨registry, backends, hregistry, -, hroute⟩ :=
      (route_configured_eq_ok hconfigured).mp htarget.routed
    obtain ⟨entry, backend, hresolve, henabled, hpermitted, -, hdecision⟩ :=
      routeConfigured_eq_ok.mp hroute
    -- the policy was asked about the canonical id, which is that of the entry
    have hcanonical : decision.canonicalModel = entry.id := by rw [hdecision]
    rw [htarget.target_eq]
    exact {
      authenticated := h.authenticated
      passes := h.passes
      routed := .inl ⟨routing, decision, registry, entry, hrouter, hconfigured,
        htarget.routed, rfl, rfl, hregistry, hresolve, hcanonical, henabled,
        hcanonical ▸ hpermitted⟩
      chatCompletions := htarget.chatCompletions
      streaming := htarget.streaming }
  · rw [htarget.target_eq]
    exact {
      authenticated := h.authenticated
      passes := h.passes
      routed := .inr ⟨hpassthrough, discovered, htarget.wired, htarget.models, htarget.listed, rfl,
        htarget.permitted⟩
      chatCompletions := htarget.chatCompletions
      streaming := htarget.streaming }

/-- Each completion leaves a trace of the documented form. -/
theorem traced_completionOf (app : AppState) (r : Request) (d : Dispatch) :
    Traced (r.env app d) r.body.stream (completionOf app r d) := by
  unfold completionOf
  cases r.body.stream with
  | true => exact traced_streamEvents _
  | false => exact traced_completionEvents _ _

/-- **Complete mediation.** A call of the backend is made while the slot is held, by a request that
has passed every gate, and for the model that its gate gave. A request that does not pass them all
never calls `acquire()` and writes no usage record. -/
theorem complete_mediation (hservice : app.usageService = some service) (r : Request) (s : Store) :
    (∀ before backend model stream after,
      chatEvents app r s = before ++ .called backend model stream :: after →
      (.acquired ∈ before ∧ .released ∉ before) ∧ stream = r.body.stream ∧
        ∃ principal apiKey client, Mediated app service r s principal apiKey client backend model) ∧
    ((¬ ∃ principal apiKey client backend model,
        Mediated app service r s principal apiKey client backend model) →
      .acquiring ∉ chatEvents app r s ∧ records (chatEvents app r s) = []) := by
  unfold chatEvents
  cases hrun : ((createChatCompletion app r).run s).1 with
  | error exc =>
      -- a request that is refused only gets its error response
      have hsent := outside_refusal r.requestId exc
      refine ⟨fun before backend model stream after hsplit => ?_, fun _ => ⟨fun hmem => ?_, ?_⟩⟩
      · obtain ⟨what, hwhat⟩ := hsent _ (hsplit ▸ List.mem_append_right before List.mem_cons_self)
        cases hwhat
      · obtain ⟨what, hwhat⟩ := hsent _ hmem
        cases hwhat
      · apply List.filterMap_eq_nil_iff.mpr
        intro e he
        obtain ⟨what, rfl⟩ := hsent e he
        rfl
  | ok d =>
      have hmediated := ((createChatCompletion_eq_ok hservice).mp hrun).mediated
      refine ⟨fun before backend model stream after hsplit => ?_, fun hnone => ?_⟩
      · obtain ⟨hheld, rfl, rfl, hstream⟩ := (traced_completionOf app r d).called hsplit
        exact ⟨hheld, hstream, _, _, _, hmediated⟩
      · exact absurd ⟨_, _, _, _, _, hmediated⟩ hnone

/-! ## A request -/

/-- A key, under its token. -/
def sampleKey : ApiKey where
  id := "k"
  clientId := "c"
  name := []
  keyPrefix := []
  keyHash := String.ofList (KeyLifecycle.sampleDraw 'a' KeyLifecycle.isAlphanum_a).token

/-- The key of a client without restrictions. -/
def sampleStore : Store where
  database := {
    users := [{ id := "u", name := [] }]
    clients := [{ id := "c", userId := "u", name := [] }]
    apiKeys := [sampleKey] }
  limiter := RateLimiter.new 60

/-- A gateway with one configured model. -/
def sampleApp : AppState where
  usageService := some {}
  router := some (configuredService sampleRegistry sampleBackends)

/-- A request for the alias of the model, at a backend that times out. -/
def sampleRequest (stream : Bool) : Request where
  requestId := "r"
  authorization := some (bearer (KeyLifecycle.sampleDraw 'a' KeyLifecycle.isAlphanum_a).token)
  body := { model := Str.ofString "x", stream }
  sha256 := String.ofList
  now := 0
  reading := { table := [], now := 0, monotonic := 0 }
  acquire := .admitted
  chatCompletion _ _ := .error (.syn (ErrorClass.backendTimeoutError.new none none none none))
  streamChatCompletion _ _ := { chunks := [] }

/-- What the request is cleared for. -/
def sampleDispatch : Dispatch where
  principal := principalOf sampleStore.database sampleKey { id := "c", userId := "u", name := [] }
    { id := "u", name := [] }
  apiKey := { sampleKey with lastUsedAt := some 0 }
  client := { id := "c", userId := "u", name := [] }
  target := {
    backend := sampleBackendInstance "model"
    internalReq := { model := Str.ofString "a.gguf" }
    canonicalModel := Str.ofString "a"
    backendId := some (Str.ofString "b") }

/-- The sample request passes every check. -/
theorem cleared_sampleDispatch (stream : Bool) :
    Cleared sampleApp {} (sampleRequest stream) sampleStore sampleDispatch where
  authenticated := by
    refine ⟨rfl, (KeyLifecycle.sampleDraw 'a' KeyLifecycle.isAlphanum_a).token, _, _, ?_,
      ⟨?_, rfl, rfl⟩, rfl, rfl, rfl, rfl⟩
    · exact (extractBearerToken_bearer (ApiKeys.not_space_token _)).mpr
        ⟨rfl, rfl, ApiKeys.isValidFormat_token _⟩
    · exact List.filter_eq_self.mpr fun k hk => by
        rw [List.mem_singleton.mp hk]
        exact decide_eq_true rfl
  passes := ⟨rfl, fun h => absurd h (by decide), fun h => absurd h (by decide)⟩
  target := by cases stream <;> rfl

/-- The sample request is answered by its completion. -/
theorem chatEvents_sampleRequest (stream : Bool) :
    chatEvents sampleApp (sampleRequest stream) sampleStore =
      completionOf sampleApp (sampleRequest stream) sampleDispatch := by
  exact chatEvents_of_ok ((createChatCompletion_eq_ok rfl).mpr (cleared_sampleDispatch stream))

/-- The alias is sent to the backend under the backend's own name, with the slot held. -/
theorem complete_mediation_alias :
    ∃ before after, chatEvents sampleApp (sampleRequest false) sampleStore =
        before ++ .called (sampleBackendInstance "model") (Str.ofString "a.gguf") false :: after ∧
      (.acquired ∈ before ∧ .released ∉ before) ∧
      ∃ principal apiKey client, Mediated sampleApp {}
        (sampleRequest false) sampleStore principal apiKey client
        (sampleBackendInstance "model") (Str.ofString "a.gguf") := by
  have hevents : chatEvents sampleApp (sampleRequest false) sampleStore =
      [.acquiring, .acquired] ++
        .called (sampleBackendInstance "model") (Str.ofString "a.gguf") false ::
          (completionOf sampleApp (sampleRequest false) sampleDispatch).drop 3 :=
    (chatEvents_sampleRequest false).trans rfl
  obtain ⟨hheld, -, hmediated⟩ :=
    (complete_mediation rfl (sampleRequest false) sampleStore).1 _ _ _ _ _ hevents
  exact ⟨_, _, hevents, hheld, hmediated⟩

end SynGateway.Api.Chat

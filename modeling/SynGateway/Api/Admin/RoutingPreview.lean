import SynGateway.Api.Chat.Endpoint
import SynGateway.Api.Health
import SynGateway.Routing.Renaming

/-!
# The preview of a routing decision

`routing_preview` of `app/api/admin.py`. The preview asks the router as an unrestricted caller,
while a chat request goes through checks of its own, which in passthrough mode are other code.
`routingPreview_agrees` says that they come to the same: what is previewed is what any caller gets
who may use the model. The preview takes the health of the backend from the cache
(`routingPreview_reachable`), and tells nothing of the names by which backends know the models
(`routingPreview_hides`).
-/

namespace SynGateway.Api.Admin

open SynGateway.Api.Chat SynGateway.Api.Health SynGateway.Backends SynGateway.Backends.LlamaCpp
  SynGateway.Core
open SynGateway.Python SynGateway.Routing

/-! ## The endpoint -/

/-- `RoutingPreviewRequest`. -/
structure RoutingPreviewRequest where
  model : Str
  bounds : 1 ≤ model.length ∧ model.length ≤ 255

/-- `RoutingPreviewResponse`. -/
structure RoutingPreviewResponse where
  requestedModel : Str
  canonicalModel : Str
  backendId : Str
  reason : String
  backendReachable : Bool

/-- The `ValidationError` of the schema library. -/
def previewInvalid : Raised := .exc (.exception "validation error for RoutingPreviewResponse")

/-- `RoutingPreviewResponse(...)`. -/
def RoutingPreviewResponse.new (v : Validators) (requestedModel canonicalModel backendId : Str)
    (reason : String) (backendReachable : Bool) : Except Raised RoutingPreviewResponse :=
  if v.str requestedModel && v.str canonicalModel && v.str backendId then
    .ok { requestedModel, canonicalModel, backendId, reason, backendReachable }
  else .error previewInvalid

/-- "Build a dummy principal for preview (does not enforce access)." -/
def previewPrincipal : AuthenticatedPrincipal where
  userId := "preview"
  userName := "preview".toList
  clientId := "preview"
  clientName := "preview".toList
  apiKeyId := "preview"
  apiKeyPrefix := "preview".toList
  allowedModels := none

/-- `raise SynError("routing service not available", code="routing_not_wired", http_status=503)`. -/
def routingNotWired : Raised :=
  .exc (.syn (ErrorClass.synError.new (some "routing service not available")
    (some "routing_not_wired") (some 503) none))

/-- `raise SynError(f"routing preview failed: {exc}", ...)`; `str` is that of the exception. -/
def previewFailed (str : Exc → String) (exc : Exc) : Raised :=
  .exc (.syn (ErrorClass.synError.new (some ("routing preview failed: " ++ str exc))
    (some "routing_preview_failed") (some 400) none))

/-- `try: decision = await routing_svc.route(...) except Exception as exc: ...`. -/
def previewRoute (str : Exc → String) (routing : RoutingService) (model : Str) :
    Except Raised RouteDecision :=
  match routing.route model previewPrincipal with
  | .ok decision => .ok decision
  | .error exc => .error (if exc.isException then previewFailed str exc else .exc exc)

/-- "Check backend reachability (cached, non-blocking)." -/
def backendReachable (app : Health.App) (routing : RoutingService) (backendId : Str) (now : ℚ) :
    Exec Raised Cache Bool :=
  match routing.backendRegistry with
  | none => pure true
  | some registry =>
    Exec.tryExcept (do
      let health ← registryHealth registry app.healthTtl app.servers backendId false now
      return health.reachable)
    fun raised => if raised.isException then some (pure false) else none

/-- `routing_preview`. -/
def routingPreview (v : Validators) (str : Exc → String) (app : Health.App)
    (body : RoutingPreviewRequest) (now : ℚ) :
    Exec Raised Cache RoutingPreviewResponse :=
  match app.router with
  | none => Exec.raise routingNotWired
  | some routing => do
    let decision ← Exec.lift (previewRoute str routing body.model)
    let reachable ← backendReachable app routing decision.backendId now
    Exec.lift (RoutingPreviewResponse.new v decision.requestedModel decision.canonicalModel
      decision.backendId decision.reason reachable)

/-! ## What is previewed -/

variable {v : Validators} {str : Exc → String} {app : Health.App} {chat : AppState}
  {routing : RoutingService} {body : APIChatCompletionRequest} {principal : AuthenticatedPrincipal}
  {target : Target} {decision : RouteDecision} {cache : Cache} {now : ℚ}
  {request : RoutingPreviewRequest}

/-- The target that the chat endpoint makes of a decision. -/
def targetOf (routing : RoutingService) (decision : RouteDecision)
    (body : APIChatCompletionRequest) : Target where
  backend := decision.backend
  internalReq := { body.toChatCompletionRequest with model := decision.backendModel }
  canonicalModel := decision.canonicalModel
  backendId := if routing.configured then some decision.backendId else none

/-- The backend can do what the request asks for. -/
def Capable (decision : RouteDecision) (body : APIChatCompletionRequest) : Prop :=
  .chatCompletions ∈ decision.backend.capabilities ∧
    (body.stream = true → .streaming ∈ decision.backend.capabilities)

/-- In configured mode the chat endpoint asks the router as well. -/
theorem targetConfigured_iff_route (hconfigured : routing.configured = true) :
    targetConfigured routing body principal = .ok target ↔
      ∃ decision, routing.route body.model previewPrincipal = .ok decision ∧
        principal.canUseModel decision.canonicalModel = true ∧ Capable decision body ∧
        target = targetOf routing decision body := by
  rw [targetConfigured_eq_ok]
  unfold targetOf Capable
  simp only [hconfigured, if_true]
  constructor
  · rintro ⟨decision, hroute, hchat, hstream, rfl⟩
    obtain ⟨registry, backends, hregistry, hbackends, hroute⟩ :=
      (route_configured_eq_ok hconfigured).mp hroute
    obtain ⟨entry, backend, hresolve, henabled, hpermitted, hget, rfl⟩ :=
      routeConfigured_eq_ok.mp hroute
    -- the preview asks for nobody's permission, and the principal has it
    refine ⟨_, (route_configured_eq_ok hconfigured).mpr ⟨registry, backends, hregistry, hbackends,
      ?_⟩, hpermitted, ⟨hchat, hstream⟩, rfl⟩
    exact routeConfigured_eq_ok.mpr ⟨entry, backend, hresolve, henabled, rfl, hget, rfl⟩
  · rintro ⟨decision, hroute, hpermitted, ⟨hchat, hstream⟩, rfl⟩
    obtain ⟨registry, backends, hregistry, hbackends, hroute⟩ :=
      (route_configured_eq_ok hconfigured).mp hroute
    obtain ⟨entry, backend, hresolve, henabled, -, hget, rfl⟩ := routeConfigured_eq_ok.mp hroute
    refine ⟨_, (route_configured_eq_ok hconfigured).mpr ⟨registry, backends, hregistry, hbackends,
      ?_⟩, hchat, hstream, rfl⟩
    exact routeConfigured_eq_ok.mpr ⟨entry, backend, hresolve, henabled, hpermitted, hget, rfl⟩

/-- In passthrough mode it looks the model up itself. -/
theorem targetPassthrough_iff_route (hpassthrough : routing.passthrough = true)
    (hwired : routing.getDefaultBackend = some chat.backend) :
    targetPassthrough chat body principal = .ok target ↔
      ∃ decision, routing.route body.model previewPrincipal = .ok decision ∧
        principal.canUseModel decision.canonicalModel = true ∧ Capable decision body ∧
        target = targetOf routing decision body := by
  have hroute : ∀ decision, routing.route body.model previewPrincipal = .ok decision ↔
      routing.routePassthrough body.model previewPrincipal = .ok decision := by
    intro decision
    unfold RoutingService.route
    rw [if_pos hpassthrough]
  have hbackend : ∀ backend, routing.requireDefaultBackend = .ok backend ↔
      chat.backend = some backend := by
    intro backend
    unfold RoutingService.requireDefaultBackend
    rw [hwired]
    cases chat.backend <;> simp
  have hnone : routing.configured = false := by
    unfold RoutingService.configured
    rw [hpassthrough]
    rfl
  -- the preview and the chat endpoint read the same backend
  simp only [hroute, targetPassthrough_eq_ok, routePassthrough_eq_ok, hbackend]
  unfold targetOf Capable
  simp only [hnone, Bool.false_eq_true, if_false]
  constructor
  · rintro ⟨backend, discovered, h⟩
    exact ⟨_, ⟨backend, discovered, h.wired, h.models, h.listed, rfl, rfl⟩, h.permitted,
      ⟨h.chatCompletions, h.streaming⟩, h.target_eq⟩
  · rintro ⟨decision, ⟨backend, discovered, hwired, hmodels, hlisted, -, rfl⟩, hpermitted,
      ⟨hchat, hstream⟩, htarget⟩
    exact ⟨backend, discovered, hwired, hchat, hstream, hmodels, hlisted, hpermitted, htarget⟩

/-- The chat endpoint serves what the router decides for an unrestricted caller, to those who may
use it. -/
theorem chooseTarget_iff_route (hrouter : chat.router = some routing)
    (hwired : routing.passthrough = true → routing.getDefaultBackend = some chat.backend) :
    chooseTarget chat body principal = .ok target ↔
      ∃ decision, routing.route body.model previewPrincipal = .ok decision ∧
        principal.canUseModel decision.canonicalModel = true ∧ Capable decision body ∧
        target = targetOf routing decision body := by
  have hget : getRouter chat = .ok routing := getRouter_eq_ok.mpr (.inl hrouter)
  unfold chooseTarget
  rw [hget]
  change (if routing.configured then targetConfigured routing body principal
    else targetPassthrough chat body principal) = .ok target ↔ _
  by_cases hconfigured : routing.configured = true
  · rw [if_pos hconfigured]
    exact targetConfigured_iff_route hconfigured
  · have hpassthrough : routing.passthrough = true := by
      simpa [RoutingService.configured] using hconfigured
    rw [if_neg hconfigured]
    exact targetPassthrough_iff_route hpassthrough (hwired hpassthrough)

/-- The answer holds what the router has decided. -/
theorem routingPreview_cases (v : Validators) (str : Exc → String)
    (request : RoutingPreviewRequest) (now : ℚ) (cache : Cache)
    (hrouter : app.router = some routing) :
    (∃ decision reachable t, routing.route request.model previewPrincipal = .ok decision ∧
      (backendReachable app routing decision.backendId now).run cache = (.ok reachable, t) ∧
      (routingPreview v str app request now).run cache =
        (RoutingPreviewResponse.new v decision.requestedModel decision.canonicalModel
          decision.backendId decision.reason reachable, t)) ∨
    (∃ exc, routing.route request.model previewPrincipal = .error exc ∧
      (routingPreview v str app request now).run cache =
        (.error (if exc.isException then previewFailed str exc else .exc exc), cache)) ∨
    ∃ decision raised t, routing.route request.model previewPrincipal = .ok decision ∧
      (backendReachable app routing decision.backendId now).run cache = (.error raised, t) ∧
      (routingPreview v str app request now).run cache = (.error raised, t) := by
  unfold routingPreview previewRoute
  rw [hrouter]
  dsimp only
  cases hroute : routing.route request.model previewPrincipal with
  | error exc => exact .inr (.inl ⟨exc, rfl, Exec.run_bind_error Exec.run_lift⟩)
  | ok decision =>
      rw [Exec.run_bind_ok Exec.run_lift]
      rcases hreach :
        (backendReachable app routing decision.backendId now).run cache with ⟨raised | reachable, t⟩
      · exact .inr (.inr ⟨decision, raised, t, rfl, hreach, Exec.run_bind_error hreach⟩)
      · refine .inl ⟨decision, reachable, t, rfl, hreach, ?_⟩
        rw [Exec.run_bind_ok hreach, Exec.run_lift]

/-- Only what is no `Exception` gets past the clause around the probe. -/
theorem not_isException_of_backendReachable {backendId : Str} {raised : Raised} {t : Cache}
    (h : (backendReachable app routing backendId now).run cache = (.error raised, t)) :
    raised.isException = false := by
  unfold backendReachable at h
  split at h
  · cases h
  · next registry hregistry =>
      rcases hbody : (do
          let health ← registryHealth registry app.healthTtl app.servers backendId false now
          return health.reachable : Exec Raised Cache Bool).run cache with ⟨e | reachable, u⟩
      · -- every `Exception` is caught and read as unreachable
        cases hexc : e.isException with
        | true =>
            rw [Exec.run_tryExcept_caught hbody (if_pos hexc)] at h
            cases h
        | false =>
            rw [Exec.run_tryExcept_uncaught hbody (if_neg (by simp [hexc]))] at h
            cases h
            exact hexc
      · rw [Exec.run_tryExcept_ok hbody] at h
        cases h

/-- A response that validates has the fields that it was built from. -/
theorem RoutingPreviewResponse.new_eq_ok {requestedModel canonicalModel backendId : Str}
    {reason : String} {reachable : Bool} {response : RoutingPreviewResponse}
    (h : RoutingPreviewResponse.new v requestedModel canonicalModel backendId reason reachable =
      .ok response) :
    response =
      { requestedModel, canonicalModel, backendId, reason, backendReachable := reachable } := by
  unfold RoutingPreviewResponse.new at h
  split at h
  · exact (Except.ok.inj h).symm
  · cases h

/-- A response that does not validate is an internal error. -/
theorem previewInvalid_of_new {requestedModel canonicalModel backendId : Str} {reason : String}
    {reachable : Bool} {raised : Raised}
    (h : RoutingPreviewResponse.new v requestedModel canonicalModel backendId reason reachable =
      .error raised) :
    raised = previewInvalid := by
  unfold RoutingPreviewResponse.new at h
  split at h
  · cases h
  · exact (Except.error.inj h).symm

/-- A decision names the model that was asked for. -/
theorem requestedModel_of_route {model : Str} (h : routing.route model principal = .ok decision) :
    decision.requestedModel = model := by
  by_cases hconfigured : routing.configured = true
  · obtain ⟨registry, backends, -, -, hroute⟩ := (route_configured_eq_ok hconfigured).mp h
    obtain ⟨entry, backend, -, -, -, -, rfl⟩ := routeConfigured_eq_ok.mp hroute
    rfl
  · have hpassthrough : routing.passthrough = true := by
      simpa [RoutingService.configured] using hconfigured
    unfold RoutingService.route at h
    rw [if_pos hpassthrough] at h
    obtain ⟨backend, discovered, -, -, -, -, rfl⟩ := routePassthrough_eq_ok.mp h
    rfl

/-- **What is previewed is what every caller gets.** If the preview answers, there are one backend
and one name of the model, such that a chat request for the model is served to whoever may use the
canonical model that is shown, by that backend under that name, and to nobody else; it has only to
be one that the backend can do. If the preview fails, nobody is served. It does not answer if a task
is cancelled, or the schema refuses a name. In passthrough mode both ask the backend for its models;
what that gives is taken to be the same for the preview and for the chat request. -/
theorem routingPreview_agrees (v : Validators) (str : Exc → String) (app : Health.App)
    (chat : AppState) (hrouter : app.router = some routing) (hchat : chat.router = some routing)
    (hwired : routing.passthrough = true → routing.getDefaultBackend = some chat.backend)
    (request : RoutingPreviewRequest) (now : ℚ) (cache : Cache) :
    match ((routingPreview v str app request now).run cache).1 with
    | .ok response => response.requestedModel = request.model ∧ ∃ backend backendModel,
        ∀ (body : APIChatCompletionRequest) principal target, body.model = request.model →
          (chooseTarget chat body principal = .ok target ↔
            principal.canUseModel response.canonicalModel = true ∧
            (.chatCompletions ∈ backend.capabilities ∧
              (body.stream = true → .streaming ∈ backend.capabilities)) ∧
            target = {
              backend, internalReq := { body.toChatCompletionRequest with model := backendModel }
              canonicalModel := response.canonicalModel
              backendId := if routing.configured then some response.backendId else none })
    | .error raised => raised.isException = false ∨ raised = previewInvalid ∨
        (∃ exc, raised = previewFailed str exc) ∧
          ∀ (body : APIChatCompletionRequest) principal target, body.model = request.model →
          chooseTarget chat body principal ≠ .ok target := by
  -- a chat request with this model takes the same decision
  have hserved : ∀ (body : APIChatCompletionRequest) principal target,
      chooseTarget chat body principal = .ok target ↔
      ∃ decision, routing.route body.model previewPrincipal = .ok decision ∧
        principal.canUseModel decision.canonicalModel = true ∧ Capable decision body ∧
        target = targetOf routing decision body :=
    fun _ _ _ => chooseTarget_iff_route hchat hwired
  rcases routingPreview_cases v str request now cache hrouter with
    ⟨decision, reachable, t, hroute, -, hrun⟩ | ⟨exc, hroute, hrun⟩ | ⟨decision, raised, t, -,
      hreach, hrun⟩
  · rw [hrun]
    cases hnew :
      RoutingPreviewResponse.new v decision.requestedModel decision.canonicalModel
      decision.backendId
      decision.reason reachable with
    | ok response =>
        obtain rfl := RoutingPreviewResponse.new_eq_ok hnew
        refine ⟨requestedModel_of_route hroute, decision.backend, decision.backendModel,
          fun body principal target hbody => ?_⟩
        rw [hserved, hbody]
        constructor
        · rintro ⟨decision', hroute', hcan, hcapable, htarget⟩
          obtain rfl := Except.ok.inj (hroute.symm.trans hroute')
          exact ⟨hcan, hcapable, htarget⟩
        · rintro ⟨hcan, hcapable, htarget⟩
          exact ⟨decision, hroute, hcan, hcapable, htarget⟩
    | error raised => exact .inr (.inl (previewInvalid_of_new hnew))
  · rw [hrun]
    cases hexc : exc.isException with
    | false => exact .inl hexc
    | true =>
        refine .inr (.inr ⟨⟨exc, rfl⟩, fun body principal target hbody hok => ?_⟩)
        obtain ⟨decision, hroute', -⟩ := (hserved body principal target).mp hok
        -- a request that is served would have been routed
        rw [hbody, hroute] at hroute'
        cases hroute'
  · rw [hrun]
    exact .inl (not_isException_of_backendReachable hreach)

/-- The sample configuration, with a server that is well until the time 3. -/
def previewApp : Health.App :=
  { Health.sampleApp with router := some (configuredService sampleRegistry sampleBackends) }

/-- The alias of the model. -/
def previewRequest : RoutingPreviewRequest := ⟨Str.ofString "x", by decide⟩

/-- The alias is previewed, and served as it is previewed. -/
theorem routingPreview_agrees_alias :
    ∃ response t,
      (routingPreview sampleSchema (fun _ => "") previewApp previewRequest 1).run {} =
        (.ok response, t) ∧
      response.requestedModel = previewRequest.model ∧ ∃ backend backendModel,
        ∀ (body : APIChatCompletionRequest) principal target, body.model = previewRequest.model →
          (chooseTarget sampleApp body principal = .ok target ↔
            principal.canUseModel response.canonicalModel = true ∧
            (.chatCompletions ∈ backend.capabilities ∧
              (body.stream = true → .streaming ∈ backend.capabilities)) ∧
            target = {
              backend, internalReq := { body.toChatCompletionRequest with model := backendModel }
              canonicalModel := response.canonicalModel
              backendId := some response.backendId }) := by
  have hagrees := routingPreview_agrees sampleSchema (fun _ => "") previewApp sampleApp rfl rfl
    nofun previewRequest 1 {}
  have hanswers :
      ((routingPreview sampleSchema (fun _ => "") previewApp previewRequest 1).run
        {}).1.toOption.isSome = true := by
    decide +kernel
  rcases hrun : (routingPreview sampleSchema (fun _ => "") previewApp previewRequest 1).run {} with
    ⟨raised | response, t⟩
  · rw [hrun] at hanswers
    cases hanswers
  · rw [hrun] at hagrees
    exact ⟨response, t, rfl, hagrees⟩

/-- A backend that is found is registered. -/
theorem mem_ids_of_get {registry : BackendRegistry} {backendId : Str} {backend : InferenceBackend}
    (h : registry.get backendId = .ok backend) : backendId ∈ registry.ids := by
  unfold BackendRegistry.get at h
  split at h
  · next found hfound =>
      obtain ⟨before, after, hsplit, -⟩ := List.lookup_eq_some_iff.mp hfound
      unfold BackendRegistry.ids
      rw [hsplit]
      simp
  · cases h

/-- The probe of a registered backend is not caught: the cache answers, or the backend does. -/
theorem backendReachable_run {registry : BackendRegistry} {backendId : Str}
    (hregistry : routing.backendRegistry = some registry) (hmem : backendId ∈ registry.ids)
    (hstored : Stored app.servers (fun _ => now) cache) {reachable : Bool} {t : Cache}
    (h : (backendReachable app routing backendId now).run cache = (.ok reachable, t)) :
    ∃ report, Current app.servers app.healthTtl now backendId report ∧
    reachable = report.reachable := by
  have hcall :=
    ensures_registryHealth registry app.healthTtl app.servers backendId false fun _ => now
  unfold backendReachable at h
  rw [hregistry] at h
  dsimp only at h
  rcases hcall.cases hstored with ⟨report, u, hrun, -, hcurrent⟩ | ⟨raised, u, hrun, -, hraised⟩
  · have hbody : (do
        let health ← registryHealth registry app.healthTtl app.servers backendId false now
        return health.reachable : Exec Raised Cache Bool).run cache = (.ok report.reachable, u) :=
      Exec.run_bind_ok hrun
    rw [Exec.run_tryExcept_ok hbody] at h
    exact ⟨report, hcurrent, (Except.ok.inj (Prod.mk.inj h).1).symm⟩
  · rw [Exec.run_tryExcept_uncaught (Exec.run_bind_error hrun)
      (if_neg (by rw [hraised hmem]; decide))] at h
    cases h

/-- **The preview says how the backend was.** Behind any calls that have used the cache: the backend
that is shown is registered, and it is shown as reachable exactly if its server was well at a time
within the time to live. -/
theorem routingPreview_reachable (v : Validators) (str : Exc → String) (app : Health.App)
    {registry : BackendRegistry} {i : Interpreter} {repr : Str → Str} {baseUrl : Str → Str}
    {exchange : Str → ℚ → Exchange} (hrouter : app.router = some routing)
    (hconfigured : routing.configured = true) (hregistry : routing.backendRegistry = some registry)
    (hservers : app.servers = llamaServers i repr baseUrl exchange) {clock : ℚ} {s : Health.State}
    (h : Health.Reachable registry app.healthTtl app.servers clock s)
    (request : RoutingPreviewRequest) (now : ℚ) (hnow : s.clock ≤ now) :
    ∀ response t, (routingPreview v str app request now).run s.cache = (.ok response, t) →
      response.backendId ∈ registry.ids ∧ ∃ x ≤ now, (x = now ∨ now - x ≤ app.healthTtl) ∧
        (response.backendReachable = true ↔ (exchange response.backendId x).Healthy) := by
  intro response t hok
  rcases routingPreview_cases v str request now s.cache hrouter with
    ⟨decision, reachable, u, hroute, hreach, hrun⟩ | ⟨exc, -, hrun⟩ |
      ⟨decision, raised, u, -, -, hrun⟩
  · rw [hrun] at hok
    obtain rfl := RoutingPreviewResponse.new_eq_ok (Prod.mk.inj hok).1
    obtain ⟨models, backends, -, hbackends, hroute⟩ :=
      (route_configured_eq_ok hconfigured).mp hroute
    obtain rfl := Option.some.inj (hregistry.symm.trans hbackends)
    obtain ⟨entry, backend, -, -, -, hget, rfl⟩ := routeConfigured_eq_ok.mp hroute
    have hmem := mem_ids_of_get hget
    -- the registry answers from a probe of this backend that is recent enough
    obtain ⟨report, ⟨x, hle, hrecent, hprobe⟩, rfl⟩ :=
      backendReachable_run hregistry hmem (h.stored.mono fun _ => hnow) hreach
    rw [hservers] at hprobe
    exact ⟨hmem, x, hle, hrecent, (report_of_llamaServers hprobe).1⟩
  · rw [hrun] at hok
    cases hok
  · rw [hrun] at hok
    cases hok

/-- A configuration of one model, under a name of the backend. -/
def namedConfig (backendModel : String) : List (Str × Json) :=
  sampleConfig [(Str.ofString "backend_model", .text backendModel) :: sampleModel "x" [.text "y"]]

/-- Before anyone has asked for its health, the backend of the alias is probed. -/
theorem routingPreview_reachable_alias :
    ∃ response t,
      (routingPreview sampleSchema (fun _ => "") previewApp previewRequest 1).run {} =
        (.ok response, t) ∧
      response.backendId ∈ sampleBackends.ids ∧ ∃ x ≤ (1 : ℚ), (x = 1 ∨ 1 - x ≤ 5) ∧
        (response.backendReachable = true ↔ (sampleExchange response.backendId x).Healthy) := by
  have hanswers :
      ((routingPreview sampleSchema (fun _ => "") previewApp previewRequest 1).run
        {}).1.toOption.isSome = true := by
    decide +kernel
  rcases hrun : (routingPreview sampleSchema (fun _ => "") previewApp previewRequest 1).run {} with
    ⟨raised | response, t⟩
  · rw [hrun] at hanswers
    cases hanswers
  · have hinit :
        Health.Reachable sampleBackends previewApp.healthTtl previewApp.servers 0 { clock := 0 } :=
      .init
    have hreachable := routingPreview_reachable sampleSchema (fun _ => "") previewApp rfl rfl rfl
      rfl hinit previewRequest 1 (by decide) response t hrun
    exact ⟨response, t, rfl, hreachable⟩

/-- **The preview hides the names of the backends.** Two configurations that differ in the names by
which the backends know the models are previewed alike: the same answer or the same error, and the
same use of the cache. -/
theorem routingPreview_hides {py : Builtins} {build : BackendConfig → InferenceBackend}
    {raw raw' : List (Str × Json)} {config config' : ParsedRoutingConfig}
    (hparse : parseRoutingConfig py raw = .ok config)
    (hparse' : parseRoutingConfig py raw' = .ok config') (hrenamed : Renamed config config')
    {defaultBackend : Option InferenceBackend} {routing routing' : RoutingService}
    {backends backends' : Option BackendRegistry}
    (hbuild : buildRouting py build defaultBackend (some raw) = .ok (routing, backends))
    (hbuild' : buildRouting py build defaultBackend (some raw') = .ok (routing', backends'))
    (v : Validators) (str : Exc → String) (app : Health.App) (request : RoutingPreviewRequest)
    (now : ℚ) (cache : Cache) :
    (routingPreview v str { app with router := some routing } request now).run cache =
      (routingPreview v str { app with router := some routing' } request now).run cache := by
  have hroute : Alike RouteDecision.Renames (routing.route request.model previewPrincipal)
      (routing'.route request.model previewPrincipal) :=
    alike_route hparse hparse' hrenamed hbuild hbuild' request.model
  have hregistry : routing.backendRegistry = routing'.backendRegistry := by
    obtain ⟨registry, -, -, hok⟩ := buildRouting_eq_ok build hparse defaultBackend
    obtain ⟨registry', -, -, hok'⟩ := buildRouting_eq_ok build hparse' defaultBackend
    obtain rfl := (Prod.mk.inj (Except.ok.inj (hbuild.symm.trans hok))).1
    obtain rfl := (Prod.mk.inj (Except.ok.inj (hbuild'.symm.trans hok'))).1
    rw [hrenamed.backends]
    rfl
  -- the answer is made of what the two decisions share
  unfold routingPreview previewRoute backendReachable
  dsimp only
  rw [← hregistry]
  revert hroute
  generalize routing.route request.model previewPrincipal = a,
    routing'.route request.model previewPrincipal = b
  intro hroute
  cases hroute with
  | error exc => rfl
  | ok hrenames =>
      rw [hrenames]
      rfl

/-- One model under two names. -/
theorem routingPreview_hides_rename :
    ∃ routing routing', routing.configured = true ∧ routing'.configured = true ∧
      (routingPreview sampleSchema (fun _ => "")
          { previewApp with router := some routing } previewRequest 1).run {} =
        (routingPreview sampleSchema (fun _ => "")
          { previewApp with router := some routing' } previewRequest 1).run {} := by
  let config (backendModel : String) : ParsedRoutingConfig :=
    { backends := [⟨Str.ofString "a", .llamaCpp, Str.ofString "http://x"⟩]
      models := [⟨Str.ofString "x", Str.ofString "a", Str.ofString backendModel, true,
        [Str.ofString "y"], []⟩] }
  have hparse : parseRoutingConfig sampleBuiltins (namedConfig "m.gguf") = .ok (config "m.gguf") :=
    rfl
  have hparse' : parseRoutingConfig sampleBuiltins (namedConfig "n.gguf") = .ok (config "n.gguf") :=
    rfl
  obtain ⟨_, -, -, hbuild⟩ :=
    buildRouting_eq_ok (fun _ => sampleBackendInstance "model") hparse none
  obtain ⟨_, -, -, hbuild'⟩ :=
    buildRouting_eq_ok (fun _ => sampleBackendInstance "model") hparse' none
  exact ⟨_, _, rfl, rfl,
    routingPreview_hides hparse hparse' ⟨rfl, .cons rfl .nil⟩ hbuild hbuild' sampleSchema
    (fun _ => "") previewApp previewRequest 1 {}⟩

end SynGateway.Api.Admin

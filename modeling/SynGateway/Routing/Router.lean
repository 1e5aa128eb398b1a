import SynGateway.Core.Principal
import SynGateway.Python.Exec
import SynGateway.Routing.Registries

/-!
# The routing service

`RoutingService` of `app/routing/router.py`, in both its modes: driven by the registries, or passing
every model through to the default backend.

`list_models` and `route` look at the same facts in different orders. `route_iff_listed` says that
they agree whenever `list_models` returns. In passthrough mode it need not: it builds a `ModelInfo`
of every visible model, and `ModelInfo` takes the object type `"model"` only, while `route` reads
the id alone.
-/

namespace SynGateway.Routing

open SynGateway.Backends SynGateway.Core SynGateway.Python

/-! ## Listing -/

/-- `ModelInfo` of `app/api/chat_schemas.py`. -/
structure ModelInfo where
  id : Str
  object : Str
  ownedBy : Str
  created : Option ℤ
deriving DecidableEq

/-- What the schema library takes for a `str`, and the integer it reads in a value. -/
structure Validators where
  str : Str → Bool
  int : Json → Option ℤ

/-- The `ValidationError` of the schema library. -/
def validationError : Exc := .exception "validation error for ModelInfo"

/-- `ModelInfo(id=..., object=..., owned_by=..., created=...)`. -/
def ModelInfo.new (v : Validators) (id : Str) (object ownedBy created : Json) :
    Except Exc ModelInfo :=
  match object, ownedBy with
  | .str object, .str ownedBy =>
    if v.str id ∧ object = Str.ofString "model" ∧ v.str ownedBy then
      match created with
      | .null => .ok { id, object, ownedBy, created := none }
      | created =>
        match v.int created with
        | some n => .ok { id, object, ownedBy, created := some n }
        | none => .error validationError
    else .error validationError
  | _, _ => .error validationError

/-- The result of a routing decision. -/
structure RouteDecision where
  requestedModel : Str
  canonicalModel : Str
  backendId : Str
  backendModel : Str
  reason : String
  backend : InferenceBackend

/-- `getDefaultBackend` is `None` where no function is wired, and `some none` where it returns
`None`. -/
structure RoutingService where
  modelRegistry : Option ModelRegistry := none
  backendRegistry : Option BackendRegistry := none
  passthrough : Bool := false
  getDefaultBackend : Option (Option InferenceBackend) := none

/-- `raise BackendNotConfiguredError(detail, code="backend_not_configured")`. -/
def backendNotConfigured (detail : String) : Exc :=
  .syn (ErrorClass.backendNotConfiguredError.new (some detail)
    (some "backend_not_configured") none none)

/-- `raise ModelForbiddenError(...)`. -/
def modelForbidden (modelId : Str) : Exc :=
  .syn (ErrorClass.modelForbiddenError.new
    (some ("principal is not permitted to use model '" ++ render modelId ++ "'"))
      (some "model_forbidden")
    (some 403) (some "model"))

namespace RoutingService

/-- True when driven by an explicit routing config. -/
def configured (self : RoutingService) : Bool := !self.passthrough

/-- `_require_default_backend`. -/
def requireDefaultBackend (self : RoutingService) : Except Exc InferenceBackend :=
  match self.getDefaultBackend with
  | none => .error
      (backendNotConfigured "no default backend configured (passthrough mode unavailable)")
  | some none => .error (backendNotConfigured "default backend is not available")
  | some (some backend) => .ok backend

/-- The models visible to the principal. -/
def listModels (v : Validators) (self : RoutingService) (principal : AuthenticatedPrincipal) :
    Except Exc (List ModelInfo) :=
  if self.passthrough then do
    let backend ← self.requireDefaultBackend
    match backend.models with
    | .error exc => .error (rewrapModelsError "model discovery" exc)
    | .ok discovered =>
      (discovered.filter fun m => principal.canUseModel m.id).mapM fun m =>
        ModelInfo.new v m.id m.object m.ownedBy m.created
  else
    match self.modelRegistry with
    | none => .error (.exception "AssertionError")
    | some registry =>
      (registry.listEnabled.filter fun entry => principal.canUseModel entry.id).mapM fun entry =>
        ModelInfo.new v entry.id (.text "model") (.text "syn") .null

/-! ## Routing -/

/-- `try: discovered = await backend.models() except Exception: discovered = []`. -/
def discover (backend : InferenceBackend) : Except Exc (List BackendModelInfo) :=
  match backend.models with
  | .ok discovered => .ok discovered
  | .error exc => if exc.isException then .ok [] else .error exc

/-- `route` in passthrough mode. -/
def routePassthrough (self : RoutingService) (requestedModel : Str)
    (principal : AuthenticatedPrincipal) : Except Exc RouteDecision := do
  let backend ← self.requireDefaultBackend
  let discovered ← discover backend
  if requestedModel ∉ discovered.map (·.id) then
    .error (modelNotFound ("model '" ++ render requestedModel ++ "' not found"))
  else if !principal.canUseModel requestedModel then .error (modelForbidden requestedModel)
  else
    return { requestedModel, canonicalModel := requestedModel, backendId := Str.ofString "default",
             backendModel := requestedModel, reason := "passthrough", backend }

/-- `route` in configured mode. -/
def routeConfigured (registry : ModelRegistry) (backends : BackendRegistry) (requestedModel : Str)
    (principal : AuthenticatedPrincipal) : Except Exc RouteDecision := do
  let entry ← registry.resolve requestedModel
  if !entry.enabled then
    .error (.syn (ErrorClass.modelDisabledError.new
      (some ("model '" ++ render entry.id ++ "' is disabled")) (some "model_disabled") none none))
  else if !principal.canUseModel entry.id then .error (modelForbidden entry.id)
  else
    let backend ← backends.get entry.backendId
    return {
      requestedModel
      canonicalModel := entry.id
      backendId := entry.backendId
      backendModel := entry.backendModel
      reason := if requestedModel ≠ entry.id then "alias_match" else "canonical_match"
      backend }

/-- Resolve a requested model to a backend. -/
def route (self : RoutingService) (requestedModel : Str) (principal : AuthenticatedPrincipal) :
    Except Exc RouteDecision :=
  if self.passthrough then self.routePassthrough requestedModel principal
  else
    match self.modelRegistry, self.backendRegistry with
    | some registry, some backends => routeConfigured registry backends requestedModel principal
    | _, _ => .error (.exception "AssertionError")

end RoutingService

/-! ## What `route` accepts -/

variable {v : Validators} {registry : ModelRegistry} {backends : BackendRegistry} {r : Str}
  {principal : AuthenticatedPrincipal} {decision : RouteDecision} {self : RoutingService}

/-- A decision of configured mode: the entry that the request resolves to, enabled and permitted. -/
theorem routeConfigured_eq_ok :
    RoutingService.routeConfigured registry backends r principal = .ok decision ↔
      ∃ entry backend, registry.resolve r = .ok entry ∧ entry.enabled = true ∧
        principal.canUseModel entry.id = true ∧ backends.get entry.backendId = .ok backend ∧
        decision = {
          requestedModel := r, canonicalModel := entry.id, backendId := entry.backendId,
          backendModel := entry.backendModel,
          reason := if r ≠ entry.id then "alias_match" else "canonical_match", backend } := by
  unfold RoutingService.routeConfigured
  rw [bind_eq_ok]
  constructor
  · rintro ⟨entry, hresolve, h⟩
    split at h
    · cases h
    · split at h
      · cases h
      · next henabled hpermitted =>
          -- enabled and permitted, so only the backend is still looked up
          obtain ⟨backend, hbackend, h⟩ := bind_eq_ok.mp h
          cases h
          exact ⟨entry, backend, hresolve, by simpa using henabled, by simpa using hpermitted,
            hbackend, rfl⟩
  · rintro ⟨entry, backend, hresolve, henabled, hpermitted, hbackend, rfl⟩
    refine ⟨entry, hresolve, ?_⟩
    rw [if_neg (by simp [henabled]), if_neg (by simp [hpermitted]), hbackend]
    rfl

/-- What a configured service routes is an enabled model of its registry. -/
theorem route_configured_eq_ok (hconfigured : self.configured = true) :
    self.route r principal = .ok decision ↔
      ∃ registry backends, self.modelRegistry = some registry ∧
        self.backendRegistry = some backends ∧
        RoutingService.routeConfigured registry backends r principal = .ok decision := by
  have hpassthrough : self.passthrough = false := by
    simpa [RoutingService.configured] using hconfigured
  unfold RoutingService.route
  rw [if_neg (by simp [hpassthrough])]
  cases self.modelRegistry <;> cases self.backendRegistry <;> simp

/-- A decision of passthrough mode: the request itself, discovered and permitted. -/
theorem routePassthrough_eq_ok :
    self.routePassthrough r principal = .ok decision ↔
      ∃ backend discovered, self.requireDefaultBackend = .ok backend ∧
        backend.models = .ok discovered ∧
        r ∈ discovered.map (·.id) ∧ principal.canUseModel r = true ∧
        decision = {
          requestedModel := r, canonicalModel := r, backendId := Str.ofString "default",
          backendModel := r, reason := "passthrough", backend } := by
  unfold RoutingService.routePassthrough
  rw [bind_eq_ok]
  constructor
  · rintro ⟨backend, hbackend, h⟩
    obtain ⟨discovered, hdiscovered, h⟩ := bind_eq_ok.mp h
    split at h
    · cases h
    · split at h
      · cases h
      · next hmem hpermitted =>
          cases h
          have hmem : r ∈ discovered.map (·.id) := not_not.mp hmem
          unfold RoutingService.discover at hdiscovered
          split at hdiscovered
          · next heq =>
              cases hdiscovered
              exact ⟨backend, discovered, hbackend, heq, hmem, by simpa using hpermitted, rfl⟩
          · -- after an error the list is empty
            split at hdiscovered
            · cases hdiscovered
              exact absurd hmem List.not_mem_nil
            · cases hdiscovered
  · rintro ⟨backend, discovered, hbackend, hdiscovered, hmem, hpermitted, rfl⟩
    refine ⟨backend, hbackend, ?_⟩
    have hdiscover : RoutingService.discover backend = .ok discovered := by
      unfold RoutingService.discover
      rw [hdiscovered]
    refine bind_eq_ok.mpr ⟨discovered, hdiscover, ?_⟩
    rw [if_neg (not_not.mpr hmem), if_neg (by simp [hpermitted])]
    rfl

/-! ## What `listModels` returns -/

/-- The schema takes the entry. -/
def Fits (v : Validators) (id : Str) (object ownedBy created : Json) : Prop :=
  ∃ info, ModelInfo.new v id object ownedBy created = .ok info

theorem fits_model {id ownedBy : Str} (hid : v.str id = true) (howned : v.str ownedBy = true) :
    Fits v id (.text "model") (.str ownedBy) .null := by
  refine ⟨{ id, object := Str.ofString "model", ownedBy, created := none }, ?_⟩
  unfold ModelInfo.new Json.text
  simp [hid, howned]

/-- The schema takes one object type only. -/
theorem object_of_fits {id object : Str} {ownedBy created : Json}
    (h : Fits v id (.str object) ownedBy created) : object = Str.ofString "model" := by
  obtain ⟨info, h⟩ := h
  unfold ModelInfo.new at h
  cases ownedBy with
  | str ownedBy =>
      dsimp only at h
      split at h
      · next hcond => exact hcond.2.1
      · cases h
  | _ => cases h

/-- The schema keeps the id. -/
theorem id_of_new {id : Str} {object ownedBy created : Json} {info : ModelInfo}
    (h : ModelInfo.new v id object ownedBy created = .ok info) : info.id = id := by
  unfold ModelInfo.new at h
  split at h
  · split at h
    · split at h
      · cases h
        rfl
      · split at h <;> cases h
        rfl
    · cases h
  · cases h

/-- Building the entries one by one succeeds when all of them fit, and keeps the ids. -/
theorem mapM_new {α : Type} (items : List α) (id : α → Str) (object ownedBy created : α → Json) :
    ((∃ infos, items.mapM (fun a => ModelInfo.new v (id a) (object a) (ownedBy a) (created a)) =
        .ok infos) ↔
      ∀ a ∈ items, Fits v (id a) (object a) (ownedBy a) (created a)) ∧
    ∀ infos, items.mapM (fun a => ModelInfo.new v (id a) (object a) (ownedBy a) (created a)) =
      .ok infos →
      infos.map (·.id) = items.map id := by
  induction items with
  | nil =>
      refine ⟨⟨fun _ _ h => absurd h List.not_mem_nil, fun _ => ⟨[], rfl⟩⟩, fun infos h => ?_⟩
      cases h
      rfl
  | cons a items ih =>
      obtain ⟨hiff, hids⟩ := ih
      refine ⟨?_, fun infos h => ?_⟩
      · -- the list validates when each of its entries does
        rw [List.forall_mem_cons, ← hiff]
        constructor
        · rintro ⟨infos, h⟩
          rw [List.mapM_cons] at h
          obtain ⟨info, hinfo, h⟩ := bind_eq_ok.mp h
          obtain ⟨rest, hrest, -⟩ := bind_eq_ok.mp h
          exact ⟨⟨info, hinfo⟩, rest, hrest⟩
        · rintro ⟨⟨info, hinfo⟩, ⟨rest, hrest⟩⟩
          refine ⟨info :: rest, ?_⟩
          rw [List.mapM_cons]
          exact bind_eq_ok.mpr ⟨info, hinfo, bind_eq_ok.mpr ⟨rest, hrest, rfl⟩⟩
      · rw [List.mapM_cons] at h
        obtain ⟨info, hinfo, h⟩ := bind_eq_ok.mp h
        obtain ⟨rest, hrest, h⟩ := bind_eq_ok.mp h
        cases h
        rw [List.map_cons, List.map_cons, id_of_new hinfo, hids rest hrest]

/-- The configured service on a registry of models and one of backends. -/
def configuredService (registry : ModelRegistry) (backends : BackendRegistry) : RoutingService where
  modelRegistry := some registry
  backendRegistry := some backends

/-- The passthrough service on a backend that discovers a fixed list. -/
def passthroughService (backend : InferenceBackend) : RoutingService where
  passthrough := true
  getDefaultBackend := some (some backend)

/-- The enabled models that the principal may use. -/
def visibleEntries (registry : ModelRegistry) (principal : AuthenticatedPrincipal) :
    List ModelEntry :=
  registry.listEnabled.filter fun entry => principal.canUseModel entry.id

theorem mem_visibleEntries {entry : ModelEntry} :
    entry ∈ visibleEntries registry principal ↔
      entry ∈ registry.listAll ∧ entry.enabled = true ∧ principal.canUseModel entry.id = true := by
  unfold visibleEntries ModelRegistry.listEnabled
  rw [List.mem_filter, List.mem_filter, and_assoc]

/-- What the configured service lists are the ids of the visible models. -/
theorem ids_listModels_configured {infos : List ModelInfo}
    (h : (configuredService registry backends).listModels v principal = .ok infos) :
    infos.map (·.id) = (visibleEntries registry principal).map (·.id) :=
  (mapM_new (visibleEntries registry principal) _ _ _ _).2 infos h

/-- The configured service routes exactly the requests for visible models. -/
theorem route_configured_iff
    (hbackends : ∀ entry ∈ registry.listAll, backends.has entry.backendId = true) :
    (∃ decision, (configuredService registry backends).route r principal = .ok decision) ↔
      ∃ entry, registry.resolve r = .ok entry ∧ entry ∈ visibleEntries registry principal := by
  change (∃ decision, RoutingService.routeConfigured registry backends r principal = .ok decision) ↔
    _
  simp only [routeConfigured_eq_ok, mem_visibleEntries]
  constructor
  · rintro ⟨_, entry, _, hresolve, henabled, hpermitted, -, -⟩
    exact ⟨entry, hresolve, ModelRegistry.mem_listAll_of_resolve hresolve, henabled, hpermitted⟩
  · rintro ⟨entry, hresolve, hmem, henabled, hpermitted⟩
    obtain ⟨backend, hbackend⟩ := Option.isSome_iff_exists.mp (hbackends entry hmem)
    refine ⟨_, entry, backend, hresolve, henabled, hpermitted, ?_, rfl⟩
    unfold BackendRegistry.get
    rw [hbackend]

/-- The passthrough service routes exactly the requests for discovered models that are permitted. -/
theorem route_passthrough_iff {backend : InferenceBackend} {discovered : List BackendModelInfo}
    (hdiscovered : backend.models = .ok discovered) :
    (∃ decision, (passthroughService backend).route r principal = .ok decision) ↔
      r ∈ discovered.map (·.id) ∧ principal.canUseModel r = true := by
  change (∃ decision, (passthroughService backend).routePassthrough r principal = .ok decision) ↔ _
  simp only [routePassthrough_eq_ok]
  constructor
  · rintro ⟨_, backend', discovered', hbackend, hmodels, hmem, hpermitted, -⟩
    cases hbackend
    cases hdiscovered.symm.trans hmodels
    exact ⟨hmem, hpermitted⟩
  · rintro ⟨hmem, hpermitted⟩
    exact ⟨_, backend, discovered, rfl, hdiscovered, hmem, hpermitted, rfl⟩

/-- The passthrough service lists the discovered models that are permitted, if the schema takes
them. -/
theorem listModels_passthrough {backend : InferenceBackend} {discovered : List BackendModelInfo}
    (hdiscovered : backend.models = .ok discovered) :
    (passthroughService backend).listModels v principal =
      (discovered.filter fun m => principal.canUseModel m.id).mapM fun m =>
        ModelInfo.new v m.id m.object m.ownedBy m.created := by
  change (match backend.models with | .error exc => _ | .ok discovered => _) = _
  rw [hdiscovered]

theorem listModels_passthrough_iff {backend : InferenceBackend} {discovered : List BackendModelInfo}
    (hdiscovered : backend.models = .ok discovered) :
    (∃ infos, (passthroughService backend).listModels v principal = .ok infos) ↔
      ∀ m ∈ discovered, principal.canUseModel m.id = true →
      Fits v m.id m.object m.ownedBy m.created := by
  rw [listModels_passthrough hdiscovered, (mapM_new _ _ _ _ _).1]
  simp only [List.mem_filter, and_imp]

/-- Two registered models with one id are the same. -/
theorem eq_of_id_eq {entry entry' : ModelEntry} (h : entry ∈ registry.listAll)
    (h' : entry' ∈ registry.listAll) (heq : entry.id = entry'.id) : entry = entry' := by
  have hresolve := ModelRegistry.resolve_id h
  rw [heq, ModelRegistry.resolve_id h'] at hresolve
  exact (Except.ok.inj hresolve).symm

/-- **Routing agrees with the listing, and an alias opens nothing.** In both modes the requests that
are routed are those for the ids that `listModels` returns, if it returns. It does in configured
mode when the schema takes the visible ids, and in passthrough mode when it takes the visible
models. A decision is the one for the canonical id, and a policy without that id refuses every name
of the model. -/
theorem route_iff_listed (v : Validators) (principal : AuthenticatedPrincipal) (r : Str) :
    (∀ (registry : ModelRegistry) (backends : BackendRegistry),
      (∀ entry ∈ registry.listAll, backends.has entry.backendId = true) →
      let service := configuredService registry backends
      ((∃ infos, service.listModels v principal = .ok infos) ↔
        ∀ entry ∈ visibleEntries registry principal,
          Fits v entry.id (.text "model") (.text "syn") .null) ∧
      (∀ infos, service.listModels v principal = .ok infos →
        ((∃ decision, service.route r principal = .ok decision) ↔
          ∃ entry, registry.resolve r = .ok entry ∧ entry.id ∈ infos.map (·.id))) ∧
      (∀ decision entry, service.route r principal = .ok decision → registry.resolve r = .ok entry →
        ∃ canonical, service.route entry.id principal = .ok canonical ∧
          decision.canonicalModel = canonical.canonicalModel ∧
          decision.backendId = canonical.backendId ∧
            decision.backendModel = canonical.backendModel ∧
          decision.backend = canonical.backend) ∧
      ∀ entry models, registry.resolve r = .ok entry → principal.allowedModels = some models →
        entry.id ∉ models → ∀ decision, service.route r principal ≠ .ok decision) ∧
    ∀ (backend : InferenceBackend) (discovered : List BackendModelInfo),
      backend.models = .ok discovered →
      let service := passthroughService backend
      ((∃ infos, service.listModels v principal = .ok infos) ↔
        ∀ m ∈ discovered, principal.canUseModel m.id = true →
          Fits v m.id m.object m.ownedBy m.created) ∧
      ((∃ decision, service.route r principal = .ok decision) ↔
        r ∈ discovered.map (·.id) ∧ principal.canUseModel r = true) ∧
      ∀ infos, service.listModels v principal = .ok infos →
        ((∃ decision, service.route r principal = .ok decision) ↔ r ∈ infos.map (·.id)) := by
  refine ⟨fun registry backends hbackends => ⟨?_, fun infos hinfos => ?_, ?_, ?_⟩,
    fun backend discovered hdiscovered => ?_⟩
  · exact (mapM_new (visibleEntries registry principal) _ _ _ _).1
  · rw [route_configured_iff hbackends, ids_listModels_configured hinfos]
    constructor
    · rintro ⟨entry, hresolve, hmem⟩
      exact ⟨entry, hresolve, List.mem_map_of_mem hmem⟩
    · rintro ⟨entry, hresolve, hmem⟩
      obtain ⟨entry', hmem', heq⟩ := List.mem_map.mp hmem
      -- Only ids are compared, and they tell the entries apart.
      have hsame := eq_of_id_eq (mem_visibleEntries.mp hmem').1
        (ModelRegistry.mem_listAll_of_resolve hresolve) heq
      exact ⟨entry, hresolve, hsame ▸ hmem'⟩
  · intro decision entry hroute hresolve
    obtain ⟨entry', backend, hresolve', henabled, hpermitted, hbackend, rfl⟩ :=
      routeConfigured_eq_ok.mp hroute
    cases hresolve.symm.trans hresolve'
    refine ⟨_, routeConfigured_eq_ok.mpr ⟨entry, backend,
      ModelRegistry.resolve_id (ModelRegistry.mem_listAll_of_resolve hresolve), henabled,
        hpermitted,
      hbackend, rfl⟩, rfl, rfl, rfl, rfl⟩
  · intro entry models hresolve hmodels hnot decision hroute
    obtain ⟨entry', _, hresolve', -, hpermitted, -, -⟩ := routeConfigured_eq_ok.mp hroute
    cases hresolve.symm.trans hresolve'
    unfold AuthenticatedPrincipal.canUseModel at hpermitted
    rw [hmodels] at hpermitted
    exact hnot (of_decide_eq_true hpermitted)
  · have hroute := @route_passthrough_iff r principal _ _ hdiscovered
    refine ⟨listModels_passthrough_iff hdiscovered, hroute, fun infos hinfos => ?_⟩
    rw [listModels_passthrough hdiscovered] at hinfos
    rw [hroute, (mapM_new _ _ _ _ _).2 infos hinfos]
    simp only [List.mem_map, List.mem_filter]
    constructor
    · rintro ⟨⟨m, hm, rfl⟩, hpermitted⟩
      exact ⟨m, ⟨hm, hpermitted⟩, rfl⟩
    · rintro ⟨m, ⟨hm, hpermitted⟩, rfl⟩
      exact ⟨⟨m, hm, rfl⟩, hpermitted⟩

/-! ## Two services -/

/-- Strings without surrogates, and integers. -/
def sampleValidators : Validators where
  str s := s.Scalar
  int
    | .int n => some n
    | _ => none

/-- A principal whose client may use the models with these ids. -/
def samplePrincipal (models : List String) : AuthenticatedPrincipal where
  userId := "u"
  userName := []
  clientId := "c"
  clientName := []
  apiKeyId := "k"
  apiKeyPrefix := []
  allowedModels := some (models.map Str.ofString : List Str)

/-- A backend that discovers one model, whose object type is `object`. -/
def sampleBackendInstance (object : String) : InferenceBackend where
  name := "llama_cpp"
  capabilities := [.chatCompletions, .streaming]
  models := .ok [{ id := Str.ofString "m", object := .text object }]

/-- The model `a` with the alias `x`. -/
def sampleEntry : ModelEntry where
  id := Str.ofString "a"
  backendId := Str.ofString "b"
  backendModel := Str.ofString "a.gguf"
  aliases := [Str.ofString "x"]

def sampleRegistry : ModelRegistry :=
  match ModelRegistry.new render [sampleEntry] with
  | .ok registry => registry
  | .error _ => .empty

def sampleBackends : BackendRegistry :=
  BackendRegistry.register { backends := [] } (Str.ofString "b") (sampleBackendInstance "model")

/-- The alias is routed for the policy that names the model, and not for the one that names the
alias. -/
theorem route_iff_listed_alias :
    (∃ decision, (configuredService sampleRegistry sampleBackends).route (Str.ofString "x")
      (samplePrincipal ["a"]) = .ok decision) ∧
    (∀ decision, (configuredService sampleRegistry sampleBackends).route (Str.ofString "x")
      (samplePrincipal ["x"]) ≠ .ok decision) ∧
    ∃ decision, (passthroughService (sampleBackendInstance "model")).route (Str.ofString "m")
      (samplePrincipal ["m"]) = .ok decision := by
  have honly : ∀ entry ∈ sampleRegistry.listAll, entry = sampleEntry := fun entry hmem =>
    List.mem_singleton.mp (show entry ∈ [sampleEntry] from hmem)
  have hbackends : ∀ entry ∈ sampleRegistry.listAll, sampleBackends.has entry.backendId = true := by
    intro entry hmem
    rw [honly entry hmem]
    rfl
  have hresolve : sampleRegistry.resolve (Str.ofString "x") = .ok sampleEntry := rfl
  have hvalid : ∀ text, sampleValidators.str (Str.ofString text) = true := by
    intro text
    unfold sampleValidators
    simp
  have hallowed := (route_iff_listed sampleValidators (samplePrincipal ["a"])
    (Str.ofString "x")).1 sampleRegistry sampleBackends hbackends
  have hrefused := (route_iff_listed sampleValidators (samplePrincipal ["x"])
    (Str.ofString "x")).1 sampleRegistry sampleBackends hbackends
  have hpassed := (route_iff_listed sampleValidators (samplePrincipal ["m"])
    (Str.ofString "m")).2 (sampleBackendInstance "model") _ rfl
  obtain ⟨infos, hinfos⟩ := hallowed.1.mpr fun entry hentry => by
    rw [honly entry (mem_visibleEntries.mp hentry).1]
    exact fits_model (hvalid _) (hvalid _)
  have hlisted : sampleEntry.id ∈ infos.map (·.id) := by
    rw [ids_listModels_configured hinfos]
    exact List.mem_map_of_mem (mem_visibleEntries.mpr ⟨List.mem_cons_self, rfl, by decide⟩)
  exact ⟨(hallowed.2.1 infos hinfos).mpr ⟨sampleEntry, hresolve, hlisted⟩,
    hrefused.2.2.2 sampleEntry _ hresolve rfl (by decide), hpassed.2.1.mpr (by decide)⟩

/-- A discovered model whose object type is not `"model"` is routed, while the listing raises. -/
theorem route_not_listed :
    ¬ ∀ (v : Validators) (principal : AuthenticatedPrincipal) (r : Str) (backend : InferenceBackend)
        (discovered : List BackendModelInfo), backend.models = .ok discovered →
      ((∃ decision, (passthroughService backend).route r principal = .ok decision) ↔
        ∃ infos, (passthroughService backend).listModels v principal = .ok infos ∧
          r ∈ infos.map (·.id)) := by
  intro hall
  obtain ⟨infos, hinfos, -⟩ := (hall sampleValidators (samplePrincipal ["m"]) (Str.ofString "m")
    (sampleBackendInstance "other") [{ id := Str.ofString "m", object := .text "other" }] rfl).mp
    ((route_passthrough_iff rfl).mpr (by decide))
  have hfits := (listModels_passthrough_iff rfl).mp ⟨infos, hinfos⟩ _ List.mem_cons_self (by decide)
  have hobject := object_of_fits hfits
  revert hobject
  decide

end SynGateway.Routing

import SynGateway.Routing.Config
import SynGateway.Routing.Router

/-!
# Building the routing service

`build_routing` of `app/routing/__init__.py`: from a raw configuration to the two registries and the
service on them.

What `parse_routing_config` accepts leaves the later layers nothing to reject
(`accepted_config_routes`). `Sound` is what it establishes of any raw configuration, well typed or
not, and each defensive error is dead because of one of its fields.
-/

namespace SynGateway.Routing

open SynGateway.Backends SynGateway.Core SynGateway.Python SynGateway.Python.Json

/-! ## The build -/

/-- `ModelEntry(id=m.id, ...)`. -/
def ModelConfig.entry (m : ModelConfig) : ModelEntry where
  id := m.id
  backendId := m.backendId
  backendModel := m.backendModel
  enabled := m.enabled
  aliases := m.aliases
  metadata := m.metadata

/-- The loop that registers the backends; `build` stands for `build_backend` and `open`. -/
def registerBackends (build : BackendConfig → InferenceBackend) (backends : List BackendConfig) :
    BackendRegistry :=
  backends.foldl (fun registry bc => registry.register bc.id (build bc)) { backends := [] }

/-- `build_routing`, for the raw configuration that was loaded, if any. -/
def buildRouting (py : Builtins) (build : BackendConfig → InferenceBackend)
    (defaultBackend : Option InferenceBackend) (raw : Option (List (Str × Json))) :
    Except Exc (RoutingService × Option BackendRegistry) :=
  match raw with
  | none => .ok ({ passthrough := true, getDefaultBackend := some defaultBackend }, none)
  | some raw => do
    let parsed ← parseRoutingConfig py raw
    let backendRegistry := registerBackends build parsed.backends
    let modelRegistry ← ModelRegistry.new (fun s => py.repr (.str s))
      (parsed.models.map ModelConfig.entry)
    return ({ modelRegistry := some modelRegistry, backendRegistry := some backendRegistry },
      some backendRegistry)

/-! ## What an accepted configuration satisfies -/

variable {py : Builtins}

theorem nonEmptyStr_ne {value : Option Json} {detail : String} {s : Str}
    (h : nonEmptyStr value detail = .ok s) : s ≠ [] := (nonEmptyStr_eq_ok.mp h).2

/-- What the loop over `backends` establishes. -/
theorem parseBackends_fresh {i : ℕ} {seenIds : List Str} {items : List Json}
    {backends : List BackendConfig} (h : parseBackends py i seenIds items = .ok backends) :
    (∀ bc ∈ backends, bc.id ∉ seenIds) ∧ (backends.map (·.id)).Nodup := by
  induction items generalizing i seenIds backends with
  | nil =>
      cases h
      exact ⟨fun bc hbc => absurd hbc List.not_mem_nil, List.nodup_nil⟩
  | cons item items ih =>
      obtain ⟨bc, hbc, h⟩ := bind_eq_ok.mp h
      obtain ⟨rest, hrest, h⟩ := bind_eq_ok.mp h
      cases h
      obtain ⟨hfresh, hnodup⟩ := ih hrest
      have hid : bc.id ∉ seenIds := by
        cases item with
        | obj b =>
            -- the checks of one backend, in the order of the source
            obtain ⟨bid, -, hbc⟩ := bind_eq_ok.mp hbc
            obtain ⟨_, hseen, hbc⟩ := bind_eq_ok.mp hbc
            obtain ⟨btype, -, hbc⟩ := bind_eq_ok.mp hbc
            obtain ⟨baseUrl, -, hbc⟩ := bind_eq_ok.mp hbc
            cases hbc
            exact of_decide_eq_true (require_eq_ok.mp hseen)
        | _ => cases hbc
      refine ⟨List.forall_mem_cons.mpr ⟨hid,
        fun c hc => List.not_mem_of_not_mem_cons (hfresh c hc)⟩, ?_⟩
      refine List.nodup_cons.mpr ⟨fun hmem => ?_, hnodup⟩
      obtain ⟨c, hc, heq⟩ := List.mem_map.mp hmem
      exact List.ne_of_not_mem_cons (hfresh c hc) heq

/-- What the loop over the aliases of a model establishes. -/
theorem parseAliases_fresh {mid : Str} {seenModelIds seenAliases : List Str} {items : List Json}
    {aliases : List Str} (h : parseAliases py mid seenModelIds seenAliases items = .ok aliases) :
    (∀ a ∈ aliases, a ∉ seenAliases) ∧ aliases.Nodup := by
  induction items generalizing seenAliases aliases with
  | nil =>
      cases h
      exact ⟨fun a ha => absurd ha List.not_mem_nil, List.nodup_nil⟩
  | cons item items ih =>
      obtain ⟨a, -, h⟩ := bind_eq_ok.mp h
      obtain ⟨_, -, h⟩ := bind_eq_ok.mp h
      obtain ⟨_, hseen, h⟩ := bind_eq_ok.mp h
      obtain ⟨rest, hrest, h⟩ := bind_eq_ok.mp h
      cases h
      obtain ⟨hfresh, hnodup⟩ := ih hrest
      refine ⟨List.forall_mem_cons.mpr ⟨of_decide_eq_true (require_eq_ok.mp hseen), fun c hc =>
        List.not_mem_of_not_mem_cons (hfresh c hc)⟩, List.nodup_cons.mpr ⟨fun hmem => ?_, hnodup⟩⟩
      exact List.ne_of_not_mem_cons (hfresh a hmem) rfl

/-- The references of a model lead to what was read, and its names are new; its id is not empty. -/
structure ModelFresh (backendIds seenModelIds seenAliases : List Str) (m : ModelConfig) : Prop where
  backend_known : m.backendId ∈ backendIds
  id_ne : m.id ≠ []
  id_fresh : m.id ∉ seenModelIds
  aliases_fresh : ∀ a ∈ m.aliases, a ∉ seenAliases
  aliases_nodup : m.aliases.Nodup

theorem parseModel_fresh {i : ℕ} {backendIds seenModelIds seenAliases : List Str} {item : Json}
    {m : ModelConfig} (h : parseModel py i backendIds seenModelIds seenAliases item = .ok m) :
    ModelFresh backendIds seenModelIds seenAliases m := by
  cases item with
  | obj members =>
      obtain ⟨mid, hmid, h⟩ := bind_eq_ok.mp h
      obtain ⟨_, hfresh, h⟩ := bind_eq_ok.mp h
      obtain ⟨backendId, -, h⟩ := bind_eq_ok.mp h
      obtain ⟨_, hknown, h⟩ := bind_eq_ok.mp h
      obtain ⟨backendModel, -, h⟩ := bind_eq_ok.mp h
      dsimp only at h
      split at h
      · obtain ⟨aliases, haliases, h⟩ := bind_eq_ok.mp h
        obtain ⟨metadata, -, h⟩ := bind_eq_ok.mp h
        cases h
        -- the aliases are compared with the ids and aliases before this model
        obtain ⟨hnew, hnodup⟩ := parseAliases_fresh haliases
        exact ⟨of_decide_eq_true (require_eq_ok.mp hknown), nonEmptyStr_ne hmid,
          of_decide_eq_true (require_eq_ok.mp hfresh), hnew, hnodup⟩
      · cases h
  | _ => cases h

/-- What the loop over `models` establishes, after the ids and aliases it has seen. -/
structure ModelsFresh (backendIds seenModelIds seenAliases : List Str) (models : List ModelConfig) :
    Prop where
  each : ∀ m ∈ models, ModelFresh backendIds seenModelIds seenAliases m
  ids_nodup : (models.map (·.id)).Nodup
  aliases_nodup : (models.flatMap (·.aliases)).Nodup

theorem parseModels_fresh {i : ℕ} {backendIds seenModelIds seenAliases : List Str}
    {items : List Json} {models : List ModelConfig}
    (h : parseModels py i backendIds seenModelIds seenAliases items = .ok models) :
    ModelsFresh backendIds seenModelIds seenAliases models := by
  induction items generalizing i seenModelIds seenAliases models with
  | nil =>
      cases h
      exact ⟨fun m hm => absurd hm List.not_mem_nil, List.nodup_nil, List.nodup_nil⟩
  | cons item items ih =>
      obtain ⟨m, hm, h⟩ := bind_eq_ok.mp h
      obtain ⟨rest, hrest, h⟩ := bind_eq_ok.mp h
      cases h
      have hhead := parseModel_fresh hm
      have htail := ih hrest
      refine ⟨List.forall_mem_cons.mpr ⟨hhead, fun c hc => ?_⟩, ?_, ?_⟩
      · obtain ⟨hknown, hne, hid, haliases, hnodup⟩ := htail.each c hc
        exact ⟨hknown, hne, List.not_mem_of_not_mem_cons hid,
          -- the later models were checked against this one as well
          fun a ha hmem => haliases a ha (List.mem_append_right _ hmem), hnodup⟩
      · refine List.nodup_cons.mpr ⟨fun hmem => ?_, htail.ids_nodup⟩
        obtain ⟨c, hc, heq⟩ := List.mem_map.mp hmem
        exact List.ne_of_not_mem_cons (htail.each c hc).id_fresh heq
      · rw [List.flatMap_cons]
        refine List.nodup_append.mpr ⟨hhead.aliases_nodup, htail.aliases_nodup, ?_⟩
        rintro a ha _ hb rfl
        obtain ⟨c, hc, hac⟩ := List.mem_flatMap.mp hb
        exact (htail.each c hc).aliases_fresh a hac (List.mem_append_left _ ha)

/-- The names of an accepted configuration are distinct, no model id is empty, and its references
lead to backends. -/
structure Sound (config : ParsedRoutingConfig) : Prop where
  backendIds_nodup : (config.backends.map (·.id)).Nodup
  modelIds_nodup : (config.models.map (·.id)).Nodup
  aliases_nodup : (config.models.flatMap (·.aliases)).Nodup
  modelId_ne : ∀ m ∈ config.models, m.id ≠ []
  backend_known : ∀ m ∈ config.models, m.backendId ∈ config.backends.map (·.id)

/-- **Whatever the parser accepts is sound.** -/
theorem sound_of_parse {raw : List (Str × Json)} {config : ParsedRoutingConfig}
    (h : parseRoutingConfig py raw = .ok config) : Sound config := by
  unfold parseRoutingConfig at h
  split at h
  · split at h
    · obtain ⟨backends, hbackends, h⟩ := bind_eq_ok.mp h
      obtain ⟨models, hmodels, h⟩ := bind_eq_ok.mp h
      cases h
      have hfresh := parseModels_fresh hmodels
      exact ⟨(parseBackends_fresh hbackends).2, hfresh.ids_nodup, hfresh.aliases_nodup,
        fun m hm => (hfresh.each m hm).id_ne, fun m hm => (hfresh.each m hm).backend_known⟩
    · cases h
  · cases h

/-- An accepted configuration has a backend. -/
theorem backends_ne_of_parse {raw : List (Str × Json)} {config : ParsedRoutingConfig}
    (h : parseRoutingConfig py raw = .ok config) : config.backends ≠ [] := by
  unfold parseRoutingConfig at h
  split at h
  · split at h
    · obtain ⟨backends, hbackends, h⟩ := bind_eq_ok.mp h
      obtain ⟨models, -, h⟩ := bind_eq_ok.mp h
      cases h
      obtain ⟨bc, -, hbackends⟩ := bind_eq_ok.mp hbackends
      obtain ⟨rest, -, hbackends⟩ := bind_eq_ok.mp hbackends
      cases hbackends
      exact List.cons_ne_nil bc rest
    · cases h
  · cases h

/-! ## The registries of distinct names -/

section Registries

variable (repr : Str → String)

theorem addAliases_eq_ok {byAlias : List (Str × Str)} (id : Str) {aliases : List Str}
    (hnodup : aliases.Nodup) (hfresh : ∀ a ∈ aliases, a ∉ byAlias.map Prod.fst) :
    ModelRegistry.addAliases repr byAlias id aliases = .ok
    (byAlias ++ aliases.map fun a => (a, id)) := by
  induction aliases generalizing byAlias with
  | nil =>
      rw [List.map_nil, List.append_nil]
      rfl
  | cons a aliases ih =>
      obtain ⟨hnew, hnodup⟩ := List.nodup_cons.mp hnodup
      obtain ⟨ha, haliases⟩ := List.forall_mem_cons.mp hfresh
      rw [ModelRegistry.addAliases, if_neg ha, ih hnodup, List.append_assoc, List.map_cons]
      · rfl
      · intro c hc
        rw [List.map_append, List.mem_append, not_or]
        refine ⟨haliases c hc, fun hmem => ?_⟩
        obtain rfl : c = a := List.mem_singleton.mp hmem
        exact hnew hc

/-- An entry with new names is added. -/
theorem addEntry_eq_ok {self : ModelRegistry} {entry : ModelEntry}
    (hid : entry.id ∉ self.byId.map Prod.fst) (hnodup : entry.aliases.Nodup)
    (hfresh : ∀ a ∈ entry.aliases, a ∉ self.byAlias.map Prod.fst) :
    ∃ registry, ModelRegistry.addEntry repr self entry = .ok registry ∧
      registry.byId = self.byId ++ [(entry.id, entry)] ∧
      registry.byAlias = self.byAlias ++ entry.aliases.map fun a => (a, entry.id) := by
  have haliases := addAliases_eq_ok repr entry.id hnodup hfresh
  unfold ModelRegistry.addEntry
  rw [dif_neg hid]
  split
  · next exc herror =>
      rw [haliases] at herror
      cases herror
  · next byAlias hok =>
      rw [haliases] at hok
      cases hok
      exact ⟨_, rfl, rfl, rfl⟩

/-- The items of `byId` for some entries. -/
def idItems (entries : List ModelEntry) : List (Str × ModelEntry) := entries.map fun e => (e.id, e)

/-- The items of `byAlias` for some entries. -/
def aliasItems (entries : List ModelEntry) : List (Str × Str) :=
  entries.flatMap fun e => e.aliases.map fun a => (a, e.id)

/-- The constructor takes entries with distinct names, and stores them in order. -/
theorem foldlM_addEntry_eq_ok (entries : List ModelEntry) (self : ModelRegistry)
    (hids : (entries.map (·.id)).Nodup) (haliases : (entries.flatMap (·.aliases)).Nodup)
    (hid : ∀ e ∈ entries, e.id ∉ self.byId.map Prod.fst)
    (hfresh : ∀ e ∈ entries, ∀ a ∈ e.aliases, a ∉ self.byAlias.map Prod.fst) :
    ∃ registry, entries.foldlM (ModelRegistry.addEntry repr) self = .ok registry ∧
      registry.byId = self.byId ++ idItems entries ∧
      registry.byAlias = self.byAlias ++ aliasItems entries := by
  induction entries generalizing self with
  | nil => exact ⟨self, rfl, (List.append_nil _).symm, (List.append_nil _).symm⟩
  | cons entry entries ih =>
      obtain ⟨hnew, hids⟩ := List.nodup_cons.mp hids
      rw [List.flatMap_cons, List.nodup_append] at haliases
      obtain ⟨hnodup, hrest, hdisjoint⟩ := haliases
      obtain ⟨hid, hids'⟩ := List.forall_mem_cons.mp hid
      obtain ⟨hfresh, hfresh'⟩ := List.forall_mem_cons.mp hfresh
      obtain ⟨next, hadd, hbyId, hbyAlias⟩ := addEntry_eq_ok repr hid hnodup hfresh
      -- the later entries are new to the registry with this entry as well
      obtain ⟨registry, hfold, hitems, haliasItems⟩ := ih next hids hrest
        (by
          intro e he hmem
          rw [hbyId, List.map_append, List.mem_append] at hmem
          rcases hmem with hmem | hmem
          · exact hids' e he hmem
          · exact hnew (List.mem_map.mpr ⟨e, he, List.mem_singleton.mp hmem⟩))
        (by
          intro e he a ha hmem
          rw [hbyAlias, List.map_append, List.mem_append, List.map_map] at hmem
          rcases hmem with hmem | hmem
          · exact hfresh' e he a ha hmem
          · obtain ⟨b, hb, rfl⟩ := List.mem_map.mp hmem
            exact hdisjoint b hb b (List.mem_flatMap.mpr ⟨e, he, ha⟩) rfl)
      refine ⟨registry, ?_, ?_, ?_⟩
      · rw [List.foldlM_cons, hadd]
        exact hfold
      · rw [hitems, hbyId, List.append_assoc]
        rfl
      · rw [haliasItems, hbyAlias, List.append_assoc]
        rfl

/-- The backend that was registered under an id, the ids being distinct. -/
theorem lookup_registerBackends {build : BackendConfig → InferenceBackend}
    {backends : List BackendConfig} (hnodup : (backends.map (·.id)).Nodup) {bc : BackendConfig}
    (hbc : bc ∈ backends) :
    (registerBackends build backends).backends.lookup bc.id = some (build bc) := by
  have hfold : ∀ (backends : List BackendConfig) (registry : BackendRegistry),
      (backends.map (·.id)).Nodup →
      (∀ bc ∈ backends, (backends.foldl (fun registry bc => registry.register bc.id (build bc))
        registry).backends.lookup bc.id = some (build bc)) ∧
      ∀ id, id ∉ backends.map (·.id) → (backends.foldl (fun registry bc =>
        registry.register bc.id (build bc)) registry).backends.lookup id =
            registry.backends.lookup id := by
    intro backends
    induction backends with
    | nil => exact fun registry _ => ⟨fun bc hbc => absurd hbc List.not_mem_nil, fun _ _ => rfl⟩
    | cons c backends ih =>
        intro registry hnodup
        obtain ⟨hnew, hnodup⟩ := List.nodup_cons.mp hnodup
        obtain ⟨hmem, hother⟩ := ih (registry.register c.id (build c)) hnodup
        refine ⟨List.forall_mem_cons.mpr ⟨?_, hmem⟩, fun id hid => ?_⟩
        · -- no later registration replaces this one: the ids are distinct
          rw [List.foldl_cons, hother c.id hnew]
          exact lookup_setItem_self _ _ _
        · rw [List.map_cons, List.mem_cons, not_or] at hid
          rw [List.foldl_cons, hother id hid.2]
          exact lookup_setItem_of_ne hid.1
  exact (hfold backends { backends := [] } hnodup).1 bc hbc

end Registries

/-! ## No dangling reference -/

variable {raw : List (Str × Json)} {config : ParsedRoutingConfig}
    {build : BackendConfig → InferenceBackend}

/-- The build of a sound configuration raises nothing: the checks of the constructor are dead. -/
theorem buildRouting_eq_ok (build : BackendConfig → InferenceBackend)
    (h : parseRoutingConfig py raw = .ok config) (defaultBackend : Option InferenceBackend) :
    ∃ registry, registry.byId = idItems (config.models.map ModelConfig.entry) ∧
      registry.byAlias = aliasItems (config.models.map ModelConfig.entry) ∧
      buildRouting py build defaultBackend (some raw) =
        .ok (configuredService registry (registerBackends build config.backends),
          some (registerBackends build config.backends)) := by
  have hsound := sound_of_parse h
  obtain ⟨registry, hfold, hitems, haliasItems⟩ := foldlM_addEntry_eq_ok (fun s => py.repr (.str s))
    (config.models.map ModelConfig.entry) ModelRegistry.empty
    (by rw [List.map_map]; exact hsound.modelIds_nodup)
    (by rw [List.flatMap_map]; exact hsound.aliases_nodup)
    (fun _ _ => List.not_mem_nil) (fun _ _ _ _ => List.not_mem_nil)
  refine ⟨registry, hitems, haliasItems, ?_⟩
  exact bind_eq_ok.mpr ⟨config, h, bind_eq_ok.mpr ⟨registry, hfold, rfl⟩⟩

/-- A request that resolves to nothing is not found: no alias of a registry leads nowhere. -/
theorem resolve_error {registry : ModelRegistry} {r : Str} {exc : Exc}
    (h : registry.resolve r = .error exc) : ∃ detail, exc = modelNotFound detail := by
  unfold ModelRegistry.resolve at h
  split at h
  · cases h
  · split at h
    · cases h
      exact ⟨_, rfl⟩
    · next canonical halias =>
        split at h
        · cases h
        · next hnone =>
            -- an alias leads to an id of the registry, so the second lookup cannot fail
            have hknown := registry.alias_known _ (mem_of_lookup halias)
            obtain ⟨item, hitem, heq⟩ := List.mem_map.mp hknown
            have hfound : registry.byId.lookup item.1 = some item.2 :=
              lookup_of_mem registry.ids_nodup hitem
            rw [heq, hnone] at hfound
            cases hfound

/-- What a decision takes from a model of the configuration. -/
structure Targets (config : ParsedRoutingConfig) (build : BackendConfig → InferenceBackend)
    (m : ModelConfig) (decision : RouteDecision) : Prop where
  registered : m ∈ config.models
  canonical : decision.canonicalModel = m.id
  backendId : decision.backendId = m.backendId
  backendModel : decision.backendModel = m.backendModel
  backend : ∃ bc ∈ config.backends, bc.id = m.backendId ∧ decision.backend = build bc

/-- A registry filled from a configuration lists its models. -/
theorem listAll_of_byId {registry : ModelRegistry}
    (h : registry.byId = idItems (config.models.map ModelConfig.entry)) :
    registry.listAll = config.models.map ModelConfig.entry := by
  unfold ModelRegistry.listAll
  rw [h, idItems, List.map_map]
  exact List.map_id _

section Requests

variable {registry : ModelRegistry} {r : Str} {principal : AuthenticatedPrincipal}

/-- A request that resolves to nothing is refused as not found. -/
theorem route_of_unknown (backends : BackendRegistry) (principal : AuthenticatedPrincipal)
    {exc : Exc} (hresolve : registry.resolve r = .error exc) :
    ∃ error, (configuredService registry backends).route r principal = .error (.syn error) ∧
      error.cls = .modelNotFoundError := by
  obtain ⟨detail, rfl⟩ := resolve_error hresolve
  have hrefused : (configuredService registry backends).route r principal =
      .error (modelNotFound detail) := by
    change RoutingService.routeConfigured registry backends r principal = _
    unfold RoutingService.routeConfigured
    rw [hresolve]
    rfl
  exact ⟨_, hrefused, rfl⟩

/-- A request that resolves to a disabled model is refused as disabled. -/
theorem route_of_disabled (backends : BackendRegistry) (principal : AuthenticatedPrincipal)
    {entry : ModelEntry} (hresolve : registry.resolve r = .ok entry)
    (hdisabled : entry.enabled = false) :
    ∃ error, (configuredService registry backends).route r principal = .error (.syn error) ∧
      error.cls = .modelDisabledError := by
  change ∃ error, RoutingService.routeConfigured registry backends r principal =
    .error (.syn error) ∧ _
  unfold RoutingService.routeConfigured
  rw [hresolve]
  exact ⟨_, if_pos (by rw [hdisabled]; rfl), rfl⟩

/-- A request that resolves to an enabled model is routed to the backend that was built for the
model. -/
theorem route_of_enabled (build : BackendConfig → InferenceBackend)
    (h : parseRoutingConfig py raw = .ok config) (hunrestricted : principal.allowedModels = none)
    {m : ModelConfig} (hm : m ∈ config.models) (hresolve : registry.resolve r = .ok m.entry)
    (henabled : m.enabled = true) :
    ∃ decision,
      (configuredService registry (registerBackends build config.backends)).route r principal =
        .ok decision ∧
      Targets config build m decision := by
  have hsound := sound_of_parse h
  obtain ⟨bc, hbc, hid⟩ := List.mem_map.mp (hsound.backend_known m hm)
  have hpermitted : principal.canUseModel m.entry.id = true := by
    unfold AuthenticatedPrincipal.canUseModel
    rw [hunrestricted]
  have hget : (registerBackends build config.backends).get m.entry.backendId = .ok (build bc) := by
    unfold BackendRegistry.get
    rw [show m.entry.backendId = bc.id from hid.symm,
      lookup_registerBackends hsound.backendIds_nodup hbc]
  refine ⟨_, routeConfigured_eq_ok.mpr ⟨m.entry, build bc, hresolve, henabled, hpermitted,
    hget, rfl⟩, ?_⟩
  exact { registered := hm, canonical := rfl, backendId := rfl, backendModel := rfl
          backend := ⟨bc, hbc, hid, rfl⟩ }

end Requests

/-- **An accepted configuration never dangles.** It is built without an error. Every request is then
routed to one of its models, on the backend that was built for that model, or the model is unknown
or disabled; and every enabled model is routed under its own id. -/
theorem accepted_config_routes (h : parseRoutingConfig py raw = .ok config)
    (build : BackendConfig → InferenceBackend) (defaultBackend : Option InferenceBackend)
    (principal : AuthenticatedPrincipal) (hunrestricted : principal.allowedModels = none) :
    ∃ service backends, buildRouting py build defaultBackend (some raw) = .ok
      (service, some backends) ∧
      service.configured = true ∧
      (∀ r, (∃ decision m, service.route r principal = .ok decision ∧
          Targets config build m decision) ∨
        ∃ error, service.route r principal = .error (.syn error) ∧
          (error.cls = .modelNotFoundError ∨ error.cls = .modelDisabledError)) ∧
      ∀ m ∈ config.models, m.enabled = true →
        ∃ decision, service.route m.id principal = .ok decision ∧
        Targets config build m decision := by
  obtain ⟨registry, hitems, -, hbuild⟩ := buildRouting_eq_ok build h defaultBackend
  have hlist := listAll_of_byId hitems
  refine ⟨_, _, hbuild, rfl, fun r => ?_, fun m hm henabled => ?_⟩
  · cases hresolve : registry.resolve r with
    | error exc =>
        obtain ⟨error, hrefused, hcls⟩ := route_of_unknown _ principal hresolve
        exact .inr ⟨error, hrefused, .inl hcls⟩
    | ok entry =>
        -- what is resolved is one of the configured models, and only a disabled one is refused
        have hmem := ModelRegistry.mem_listAll_of_resolve hresolve
        rw [hlist] at hmem
        obtain ⟨m, hm, rfl⟩ := List.mem_map.mp hmem
        cases henabled : m.enabled with
        | true =>
            obtain ⟨decision, hok, htargets⟩ :=
              route_of_enabled build h hunrestricted hm hresolve henabled
            exact .inl ⟨decision, m, hok, htargets⟩
        | false =>
            obtain ⟨error, hrefused, hcls⟩ := route_of_disabled _ principal hresolve henabled
            exact .inr ⟨error, hrefused, .inr hcls⟩
  · have hregistered : m.entry ∈ registry.listAll := by
      rw [hlist]
      exact List.mem_map_of_mem hm
    exact route_of_enabled build h hunrestricted hm (ModelRegistry.resolve_id hregistered) henabled

/-- The configuration of one model with an alias is built, and the model is routed. -/
theorem accepted_config_routes_alias :
    ∃ service backends decision, buildRouting sampleBuiltins
        (fun _ => sampleBackendInstance "model") none
        (some (sampleConfig [sampleModel "x" [.text "y"]])) = .ok (service, some backends) ∧
      service.route (Str.ofString "x") { samplePrincipal [] with allowedModels := none } =
        .ok decision ∧
      decision.backendId = Str.ofString "a" := by
  have hparse : parseRoutingConfig sampleBuiltins (sampleConfig [sampleModel "x" [.text "y"]]) =
      .ok { backends := [⟨Str.ofString "a", .llamaCpp, Str.ofString "http://x"⟩]
            models := [⟨Str.ofString "x", Str.ofString "a", Str.ofString "x", true,
                [Str.ofString "y"], []⟩] } :=
    rfl
  obtain ⟨service, backends, hbuild, -, -, henabled⟩ := accepted_config_routes hparse
    (fun _ => sampleBackendInstance "model") none
      { samplePrincipal [] with allowedModels := none } rfl
  obtain ⟨decision, hroute, htargets⟩ := henabled _ (List.mem_singleton_self _) rfl
  exact ⟨service, backends, decision, hbuild, hroute, htargets.backendId⟩

end SynGateway.Routing

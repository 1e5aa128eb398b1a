import SynGateway.Python.TwoRuns
import SynGateway.Routing.Build

/-!
# Configurations that differ in the backends' names

Two configurations that differ in the `backend_model` of their models, and what is built from them.
Every request is decided alike on both, up to the name that is sent to the backend (`alike_route`).
-/

namespace SynGateway.Routing

open SynGateway.Backends SynGateway.Core SynGateway.Python SynGateway.Python.Json

variable {py : Builtins} {build : BackendConfig → InferenceBackend}
    {principal : AuthenticatedPrincipal}

/-- The same model, under another name of the backend. -/
def ModelConfig.Renames (m m' : ModelConfig) :
    Prop := m' = { m with backendModel := m'.backendModel }

/-- The same configuration, with other names of the backends for its models. -/
structure Renamed (config config' : ParsedRoutingConfig) : Prop where
  backends : config.backends = config'.backends
  models : List.Forall₂ ModelConfig.Renames config.models config'.models

/-- The same entry, under another name of the backend. -/
def ModelEntry.Renames (e e' : ModelEntry) : Prop := e' = { e with backendModel := e'.backendModel }

/-- The same decision, with another name for the backend. -/
def RouteDecision.Renames (d d' : RouteDecision) :
    Prop := d' = { d with backendModel := d'.backendModel }

section Entries

variable {entries entries' : List ModelEntry}

theorem aliasItems_renamed (h : List.Forall₂ ModelEntry.Renames entries entries') :
    aliasItems entries = aliasItems entries' := by
  induction h with
  | nil => rfl
  | cons h _ ih =>
      rw [aliasItems, aliasItems, List.flatMap_cons, List.flatMap_cons, h]
      exact congrArg _ ih

theorem lookup_idItems_renamed (h : List.Forall₂ ModelEntry.Renames entries entries') (key : Str) :
    Option.Rel ModelEntry.Renames ((idItems entries).lookup key)
    ((idItems entries').lookup key) := by
  induction h with
  | nil => exact .none
  | @cons entry entry' _ _ h _ ih =>
      have hid : entry'.id = entry.id := by rw [h]
      change Option.Rel _ (List.lookup key ((entry.id, entry) :: _))
        (List.lookup key ((entry'.id, entry') :: _))
      rw [List.lookup_cons, List.lookup_cons, hid]
      split
      · exact .some h
      · exact ih

end Entries

/-- Registries of such entries resolve a request to the same entry. -/
theorem alike_resolve {entries entries' : List ModelEntry} {registry registry' : ModelRegistry}
    (h : List.Forall₂ ModelEntry.Renames entries entries')
    (hid : registry.byId = idItems entries) (hid' : registry'.byId = idItems entries')
    (halias : registry.byAlias = aliasItems entries)
    (halias' : registry'.byAlias = aliasItems entries') (requested : Str) :
    Alike ModelEntry.Renames (registry.resolve requested) (registry'.resolve requested) := by
  have hfound := lookup_idItems_renamed h
  unfold ModelRegistry.resolve
  rw [hid, hid', halias, halias', ← aliasItems_renamed h]
  -- the id is looked up, or else the id that the alias leads to
  have hentry := hfound requested
  revert hentry
  generalize (idItems entries).lookup requested = a, (idItems entries').lookup requested = b
  intro hentry
  cases hentry with
  | some h => exact .ok h
  | none =>
      cases (aliasItems entries).lookup requested with
      | none => exact .error _
      | some canonical =>
          have hentry := hfound canonical
          revert hentry
          dsimp only
          generalize (idItems entries).lookup canonical = a, (idItems entries').lookup canonical = b
          intro hentry
          cases hentry with
          | some h => exact .ok h
          | none => exact .error _

/-- Configured services on such registries, with the same backends, decide alike. -/
theorem alike_routeConfigured {registry registry' : ModelRegistry}
    {backends : BackendRegistry} {r : Str}
    (h : Alike ModelEntry.Renames (registry.resolve r) (registry'.resolve r)) :
    Alike RouteDecision.Renames (RoutingService.routeConfigured registry backends r principal)
      (RoutingService.routeConfigured registry' backends r principal) := by
  refine h.bind fun entry entry' hentry => ?_
  rw [hentry]
  dsimp only
  split
  · exact .error _
  · split
    · exact .error _
    · refine (Alike.refl (fun _ => rfl) _).bind fun backend _ hbackend => ?_
      rw [← hbackend]
      exact .ok rfl

/-- **The names of the backends have no part in routing.** The services that are built from two such
configurations decide every request alike, but for the name that is sent to the backend. -/
theorem alike_route {raw raw' : List (Str × Json)} {config config' : ParsedRoutingConfig}
    (hparse : parseRoutingConfig py raw = .ok config)
    (hparse' : parseRoutingConfig py raw' = .ok config') (hrenamed : Renamed config config')
    {defaultBackend : Option InferenceBackend} {routing routing' : RoutingService}
    {backends backends' : Option BackendRegistry}
    (hbuild : buildRouting py build defaultBackend (some raw) = .ok (routing, backends))
    (hbuild' : buildRouting py build defaultBackend (some raw') = .ok (routing', backends'))
    (r : Str) :
    Alike RouteDecision.Renames (routing.route r principal) (routing'.route r principal) := by
  obtain ⟨registry, hid, halias, hok⟩ := buildRouting_eq_ok build hparse defaultBackend
  obtain ⟨registry', hid', halias', hok'⟩ := buildRouting_eq_ok build hparse' defaultBackend
  obtain rfl := (Prod.mk.inj (Except.ok.inj (hbuild.symm.trans hok))).1
  obtain rfl := (Prod.mk.inj (Except.ok.inj (hbuild'.symm.trans hok'))).1
  have hentries : List.Forall₂ ModelEntry.Renames (config.models.map ModelConfig.entry)
      (config'.models.map ModelConfig.entry) := by
    rw [List.forall₂_map_left_iff, List.forall₂_map_right_iff]
    refine hrenamed.models.imp fun m m' h => ?_
    rw [ModelEntry.Renames, h]
    rfl
  rw [← hrenamed.backends]
  exact alike_routeConfigured (alike_resolve hentries hid hid' halias halias' r)

/-- What an accepted configuration routes has a name. -/
theorem canonicalModel_ne {raw : List (Str × Json)} {config : ParsedRoutingConfig}
    (hparse : parseRoutingConfig py raw = .ok config) {defaultBackend : Option InferenceBackend}
    {routing : RoutingService} {backends : Option BackendRegistry}
    (hbuild : buildRouting py build defaultBackend (some raw) = .ok (routing, backends)) {r : Str}
    {decision : RouteDecision} (hroute : routing.route r principal = .ok decision) :
    decision.canonicalModel ≠ [] := by
  obtain ⟨registry, hid, -, hok⟩ := buildRouting_eq_ok build hparse defaultBackend
  obtain rfl := (Prod.mk.inj (Except.ok.inj (hbuild.symm.trans hok))).1
  obtain ⟨entry, backend, hresolve, -, -, -, rfl⟩ := routeConfigured_eq_ok.mp hroute
  have hmem := ModelRegistry.mem_listAll_of_resolve hresolve
  rw [ModelRegistry.listAll, hid, idItems, List.map_map, List.mem_map] at hmem
  obtain ⟨_, hentry, rfl⟩ := hmem
  obtain ⟨m, hm, rfl⟩ := List.mem_map.mp hentry
  exact (sound_of_parse hparse).modelId_ne m hm

end SynGateway.Routing

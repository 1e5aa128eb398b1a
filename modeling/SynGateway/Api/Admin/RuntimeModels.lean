import SynGateway.Routing.BackendHealth
import SynGateway.Routing.Router

/-!
# The models endpoint

`get_models` of `app/api/admin.py`, with the functions that discover what a backend runs and derive
a status from it. The status and the name that are shown for a model come from separate code; they
agree, the name is the basename of a model that the backend reports, and it is that of the
configured model where the backend reports it (`runtime_models_faithful`).
-/

namespace SynGateway.Api.Admin

open SynGateway.Backends SynGateway.Core SynGateway.Python SynGateway.Python.CodePoint
  SynGateway.Routing

/-! ## The endpoint -/

/-- What `get_models` and `_discover_backend_runtime` do to a name: behind a test for a separator,
`name.replace("\\", "/").rsplit("/", 1)[-1]`. -/
def sanitized (name : Str) : Str :=
  if ofChar '\\' ∈ name ∨ ofChar '/' ∈ name then
    (name.map fun p => if p = ofChar '\\' then ofChar '/' else p).rtakeWhile (· ≠ ofChar '/')
  else name

/-- The outcomes of `backend.health()`, by the ids of the backends, and the times of the
discoveries. -/
structure Probes where
  health : Str → Except Exc BackendHealthResult
  checkedAt : Str → String

/-- The dictionary that `_discover_backend_runtime` returns. The defaults are those of a backend
that `get_models` has not discovered, but for the error. -/
structure BackendRuntime where
  reachable : Bool := false
  serverVersion : Option Str := none
  runtimeModels : List Str := []
  lastChecked : Option String := none
  error : Option String := none

/-- `try: ... except Exception as exc: result["error"] = f"{what}: {exc}"; return result`. -/
def failed (result : BackendRuntime) (what : String) (exc : Exc) : Except Exc BackendRuntime :=
  if exc.isException then .ok { result with error := some (what ++ ": " ++ exc.text) }
  else .error exc

/-- `backend_registry.health(backend_id, force=True)`. -/
def forcedHealth (registry : BackendRegistry) (probes : Probes) (backendId : Str) :
    Except Exc BackendHealthResult := do
  let _ ← registry.get backendId
  probeResult (probes.health backendId)

/-- `_discover_backend_runtime`. -/
def discoverBackendRuntime (registry : BackendRegistry) (probes : Probes) (backendId : Str) :
    Except Exc BackendRuntime :=
  let result : BackendRuntime := { lastChecked := some (probes.checkedAt backendId) }
  match registry.get backendId with
  | .error exc => failed result "backend not configured" exc
  | .ok backend =>
    match forcedHealth registry probes backendId with
    | .error exc => failed result "health probe failed" exc
    | .ok health =>
      if health.reachable then
        let result := { result with reachable := true, serverVersion := health.serverVersion }
        match backend.models with
        | .error exc => failed result "model discovery failed" exc
        | .ok discovered =>
          .ok { result with runtimeModels := (discovered.map (sanitized ·.id)).filter (· ≠ []) }
      else
        .ok { result with
          error := some (if health.reason ≠ "" then health.reason else "unreachable") }

/-- The values of `runtime_status`. -/
inductive RuntimeStatus
  | online
  | offline
  | noModel
  | error
deriving DecidableEq, Repr

/-- `_derive_runtime_status`. -/
def deriveRuntimeStatus (backendReachable : Bool) (runtimeModels : List Str)
    (error : Option String) :
    RuntimeStatus :=
  if error.getD "" ≠ "" ∧ backendReachable = false then .offline
  else if error.getD "" ≠ "" then .error
  else if backendReachable = false then .offline
  else if runtimeModels = [] then .noModel
  else .online

/-- The name that `get_models` shows for a model. -/
def runtimeModelName (entry : ModelEntry) (backendReachable : Bool) (runtimeModels : List Str) :
    Option Str :=
  if backendReachable && runtimeModels ≠ [] then
    match runtimeModels with
    | [name] => some name
    | names =>
      let configuredBasename := sanitized entry.backendModel
      match names.find? fun m => m = configuredBasename || m = entry.backendModel with
      | some m => some m
      | none => names.head?
  else none

/-- `ModelListOut`. -/
structure ModelListOut where
  id : Str
  backendId : Str
  enabled : Bool
  aliases : List Str
  backendReachable : Bool
  runtimeLoaded : Bool
  runtimeModel : Option Str
  runtimeStatus : RuntimeStatus

/-- `ModelsListOut`. -/
structure ModelsListOut where
  configured : Bool
  models : List ModelListOut

/-- The `ValidationError` of the schema library, for a `str` that it does not take. -/
def modelListError : Exc := .exception "validation error for ModelListOut"

/-- The check of the strings of a `ModelListOut`. -/
def ModelListOut.validated (v : Validators) (model : ModelListOut) : Except Exc ModelListOut :=
  if v.str model.id && v.str model.backendId && model.aliases.all v.str &&
    model.runtimeModel.all v.str then
    .ok model
  else .error modelListError

/-- The loop body of `get_models`, with what has been discovered, by the ids of the backends. -/
def modelOut (v : Validators) (backendRuntime : List (Str × BackendRuntime)) (entry : ModelEntry) :
    Except Exc ModelListOut :=
  let rt := (backendRuntime.lookup entry.backendId).getD { error := some "backend not configured" }
  let status := deriveRuntimeStatus rt.reachable rt.runtimeModels rt.error
  ModelListOut.validated v {
    id := entry.id
    backendId := entry.backendId
    enabled := entry.enabled
    aliases := entry.aliases
    backendReachable := rt.reachable
    runtimeLoaded := status = .online
    runtimeModel := runtimeModelName entry rt.reachable rt.runtimeModels
    runtimeStatus := status }

/-- The first loop of `get_models`. -/
def discoverAll (backends : Option BackendRegistry) (probes : Probes) :
    Except Exc (List (Str × BackendRuntime)) :=
  match backends with
  | none => .ok []
  | some registry => registry.ids.mapM fun backendId => do
    let runtime ← discoverBackendRuntime registry probes backendId
    return (backendId, runtime)

/-- `get_models`. -/
def getModels (v : Validators) (router : Option RoutingService) (probes : Probes) :
    Except Exc ModelsListOut :=
  match router with
  | none => .ok { configured := false, models := [] }
  | some router =>
    if !router.configured then .ok { configured := false, models := [] }
    else
      match router.modelRegistry with
      | none => .ok { configured := false, models := [] }
      | some registry => do
        let backendRuntime ← discoverAll router.backendRegistry probes
        let models ← registry.listAll.mapM (modelOut v backendRuntime)
        return { configured := true, models }

/-! ## Basenames -/

def isSeparator (p : CodePoint) : Bool := p = ofChar '/' || p = ofChar '\\'

/-- What is behind the last separator. -/
def basename (name : Str) : Str := name.rtakeWhile (!isSeparator ·)

/-- The base name of a base name is itself. -/
theorem basename_basename (name : Str) : basename (basename name) = basename name :=
  List.rtakeWhile_idempotent _ _

/-- No separator is left in a base name. -/
theorem isSeparator_of_mem_basename {name : Str} {p : CodePoint} (h : p ∈ basename name) :
    isSeparator p = false := by
  simpa using List.mem_rtakeWhile_imp h

/-- The loop over both separators takes the base name. -/
theorem sanitized_eq_basename (name : Str) : sanitized name = basename name := by
  -- the loop first turns one separator into the other
  let unify (p : CodePoint) : CodePoint := if p = ofChar '\\' then ofChar '/' else p
  have hunify : (fun p => decide (unify p ≠ ofChar '/')) = fun p => !isSeparator p := by
    funext p
    by_cases hback : p = ofChar '\\'
    · simp [unify, isSeparator, hback]
    · simp [unify, isSeparator, hback]
  unfold sanitized
  split
  · have hmap : (name.map unify).rtakeWhile (· ≠ ofChar '/') = (basename name).map unify := by
      unfold basename List.rtakeWhile
      rw [← List.map_reverse, List.takeWhile_map, ← List.map_reverse, ← hunify]
      rfl
    -- behind the last separator there is none left to turn
    have hid : ∀ p ∈ basename name, unify p = p := by
      intro p hp
      have hne : p ≠ ofChar '\\' := by
        rintro rfl
        exact absurd (isSeparator_of_mem_basename hp) (by decide)
      exact if_neg hne
    exact hmap.trans (List.map_congr_left hid |>.trans (List.map_id _))
  · next hnone =>
      rw [not_or] at hnone
      refine (List.rtakeWhile_eq_self_iff.mpr fun p hp => ?_).symm
      have hback : p ≠ ofChar '\\' := fun heq => hnone.1 (heq ▸ hp)
      have hslash : p ≠ ofChar '/' := fun heq => hnone.2 (heq ▸ hp)
      simp [isSeparator, hback, hslash]

/-! ## What is discovered -/

/-- The probe of the backend has reached it, and its discovery has succeeded with these ids. -/
inductive Discovers (backends : Option BackendRegistry) (probes : Probes) (backendId : Str)
    (ids : List Str) : Prop
  | intro {registry : BackendRegistry} {backend : InferenceBackend} {health : BackendHealthResult}
      {discovered : List BackendModelInfo} (hregistry : backends = some registry)
      (hbackend : registry.get backendId = .ok backend)
      (hhealth : probes.health backendId = .ok health) (hreachable : health.reachable = true)
      (hmodels : backend.models = .ok discovered) (hids : ids = discovered.map (·.id))

/-- The basenames that name something. -/
def discoveredNames (ids : List Str) : List Str := (ids.map basename).filter (· ≠ [])

/-- The discovered names are the base names that are not empty. -/
theorem mem_discoveredNames {ids : List Str} {name : Str} :
    name ∈ discoveredNames ids ↔ (∃ id ∈ ids, basename id = name) ∧ name ≠ [] := by
  simp [discoveredNames]

/-- Either the names of the discovery and no error, or no names and an error. -/
inductive Runtime (backends : Option BackendRegistry) (probes : Probes) (backendId : Str)
    (rt : BackendRuntime) : Prop
  | found {ids : List Str} (hdiscovers : Discovers backends probes backendId ids)
      (hreachable : rt.reachable = true) (herror : rt.error = none)
      (hmodels : rt.runtimeModels = discoveredNames ids)
  | missed (hmissed : ∀ ids, ¬ Discovers backends probes backendId ids)
      (herror : rt.error.getD "" ≠ "") (hmodels : rt.runtimeModels = [])

variable {backends : Option BackendRegistry} {registry : BackendRegistry} {probes : Probes}
  {backendId : Str} {rt : BackendRuntime} {ids : List Str}

/-- A backend discovers one list of identifiers. -/
theorem Discovers.unique {ids' : List Str} (h : Discovers backends probes backendId ids)
    (h' : Discovers backends probes backendId ids') : ids = ids' := by
  obtain ⟨rfl, hbackend, -, -, hmodels, rfl⟩ := h
  obtain ⟨hregistry, hbackend', -, -, hmodels', rfl⟩ := h'
  cases hregistry
  rw [hbackend] at hbackend'
  cases hbackend'
  rw [hmodels] at hmodels'
  cases hmodels'
  rfl

/-- Of a configured backend. -/
theorem discovers_iff {backend : InferenceBackend}
    (hbackend : registry.get backendId = .ok backend) :
    Discovers (some registry) probes backendId ids ↔
      ∃ health discovered, probes.health backendId = .ok health ∧
      health.reachable = true ∧ backend.models = .ok discovered ∧ ids = discovered.map (·.id) := by
  constructor
  · rintro ⟨hregistry, hbackend', hhealth, hreachable, hmodels, hids⟩
    cases hregistry
    rw [hbackend] at hbackend'
    cases hbackend'
    exact ⟨_, _, hhealth, hreachable, hmodels, hids⟩
  · rintro ⟨health, discovered, hhealth, hreachable, hmodels, hids⟩
    exact .intro rfl hbackend hhealth hreachable hmodels hids

/-- A backend that is not registered discovers nothing. -/
theorem not_discovers_of_error {exc : Exc} (h : registry.get backendId = .error exc) :
    ¬ Discovers (some registry) probes backendId ids := by
  rintro ⟨hregistry, hbackend, -⟩
  cases hregistry
  rw [h] at hbackend
  cases hbackend

/-- A failed probe leaves its text as the error. -/
theorem failed_eq_ok {result : BackendRuntime} {what : String} {exc : Exc}
    (h : failed result what exc = .ok rt) :
    rt = { result with error := some (what ++ ": " ++ exc.text) } := by
  unfold failed at h
  split at h
  · exact (Except.ok.inj h).symm
  · cases h

/-- The text of a failed probe is never empty. -/
theorem message_ne (what text : String) : (some (what ++ ": " ++ text)).getD "" ≠ "" := by
  intro h
  have hlength := congrArg String.length h
  simp only [Option.getD_some, String.length_append] at hlength
  exact absurd hlength (by simp)

/-- A result that is reachable is that of the probe. -/
theorem eq_ok_of_probeResult {outcome : Except Exc BackendHealthResult}
    {health : BackendHealthResult} (h : probeResult outcome = .ok health)
    (hreachable : health.reachable = true) : outcome = .ok health := by
  cases outcome with
  | ok result => exact h
  | error exc =>
      simp only [probeResult] at h
      split at h
      · obtain rfl := Except.ok.inj h
        cases hreachable
      · cases h

/-- What `_discover_backend_runtime` returns, along its five returns. -/
theorem runtime_of_discover (h : discoverBackendRuntime registry probes backendId = .ok rt) :
    Runtime (some registry) probes backendId rt := by
  unfold discoverBackendRuntime at h
  dsimp only at h
  cases hbackend : registry.get backendId with
  | error exc =>
      rw [hbackend] at h
      obtain rfl := failed_eq_ok h
      exact .missed (fun ids => not_discovers_of_error hbackend) (message_ne _ _) rfl
  | ok backend =>
      have hforced : forcedHealth registry probes backendId =
          probeResult (probes.health backendId) := by
        rw [forcedHealth, hbackend]
        rfl
      rw [hbackend, hforced] at h
      dsimp only at h
      cases hresult : probeResult (probes.health backendId) with
      | error exc =>
          rw [hresult] at h
          obtain rfl := failed_eq_ok h
          refine .missed (fun ids hids => ?_) (message_ne _ _) rfl
          -- an answer would have come from a probe that ended well
          obtain ⟨health, -, hhealth, -⟩ := (discovers_iff hbackend).mp hids
          rw [hhealth] at hresult
          cases hresult
      | ok health =>
          rw [hresult] at h
          dsimp only at h
          split at h
          · next hreachable =>
              have hhealth := eq_ok_of_probeResult hresult hreachable
              cases hmodels : backend.models with
              | error exc =>
                  rw [hmodels] at h
                  obtain rfl := failed_eq_ok h
                  refine .missed (fun ids hids => ?_) (message_ne _ _) rfl
                  obtain ⟨_, _, -, -, hmodels', -⟩ := (discovers_iff hbackend).mp hids
                  rw [hmodels] at hmodels'
                  cases hmodels'
              | ok discovered =>
                  -- the backend is reached and lists its models: this is what is discovered
                  rw [hmodels] at h
                  obtain rfl := Except.ok.inj h
                  refine .found ((discovers_iff hbackend).mpr
                    ⟨health, discovered, hhealth, hreachable, hmodels, rfl⟩) rfl rfl ?_
                  simp only [discoveredNames, List.map_map, sanitized_eq_basename]
                  rfl
          · next hreachable =>
              obtain rfl := Except.ok.inj h
              refine .missed (fun ids hids => ?_)
                (by dsimp only [Option.getD_some]; split <;> simp_all) rfl
              obtain ⟨health', -, hhealth, hreachable', -⟩ := (discovers_iff hbackend).mp hids
              rw [hhealth] at hresult
              cases hresult
              exact hreachable hreachable'

/-! ## What is shown -/

/-- One of the names is shown if there are any, and that of the configured model if it is among
them. -/
structure Shows (names : List Str) (entry : ModelEntry) (shown : Option Str) : Prop where
  ne_none_iff : shown ≠ none ↔ names ≠ []
  mem : ∀ name, shown = some name → name ∈ names
  configured : basename entry.backendModel ∈ names → shown = some (basename entry.backendModel)

/-- A discovered name is shown, and the configured one before the others. -/
theorem shows_some {names : List Str} {entry : ModelEntry} {name : Str} (hmem : name ∈ names)
    (hconfigured : basename entry.backendModel ∈ names → name = basename entry.backendModel) :
    Shows names entry (some name) where
  ne_none_iff := iff_of_true (Option.some_ne_none name) (List.ne_nil_of_mem hmem)
  mem _ heq := Option.some.inj heq ▸ hmem
  configured h := congrArg some (hconfigured h)

/-- `_runtime_model_name` shows the configured name when it is discovered. -/
theorem shows_runtimeModelName (entry : ModelEntry) {names : List Str}
    (hnames : ∀ name ∈ names, basename name = name) :
    Shows names entry (runtimeModelName entry true names) := by
  unfold runtimeModelName
  simp only [ne_eq, Bool.true_and, decide_not, Bool.not_eq_true', decide_eq_false_iff_not,
    sanitized_eq_basename]
  split
  · next hne =>
      split
      · next name =>
          exact shows_some (List.mem_singleton_self _) fun h => (List.mem_singleton.mp h).symm
      · split
        · next m hm =>
            have hmem := List.mem_of_find?_eq_some hm
            refine shows_some hmem fun _ => ?_
            -- a name that is the configured one as it stands is a basename, so it is that of the
            -- configured one
            have hfound := List.find?_some hm
            rw [Bool.or_eq_true, decide_eq_true_eq, decide_eq_true_eq] at hfound
            rcases hfound with heq | heq
            · exact heq
            · rw [← heq, hnames m hmem]
        · next hnone =>
            obtain ⟨name, rest, rfl⟩ := List.exists_cons_of_ne_nil hne
            refine shows_some List.mem_cons_self fun hmem => ?_
            have hnot := List.find?_eq_none.mp hnone _ hmem
            simp at hnot
  · next hnil =>
      rw [not_not] at hnil
      subst hnil
      exact ⟨by simp, (fun _ h => by cases h), fun h => absurd h List.not_mem_nil⟩

/-- A discovered name is a base name. -/
theorem basename_of_mem_discoveredNames {name : Str} (h : name ∈ discoveredNames ids) :
    basename name = name := by
  obtain ⟨⟨id, -, rfl⟩, -⟩ := mem_discoveredNames.mp h
  exact basename_basename id

/-- A model as it is shown. Name and status agree, and tell whether the discovery has found a name;
the name is the basename of a discovered id, and that of the configured model if that is among them.
-/
structure RuntimeShown (backends : Option BackendRegistry) (probes : Probes) (entry : ModelEntry)
    (model : ModelListOut) : Prop where
  id : model.id = entry.id
  backendId : model.backendId = entry.backendId
  enabled : model.enabled = entry.enabled
  aliases : model.aliases = entry.aliases
  loaded_iff : model.runtimeLoaded = true ↔ model.runtimeStatus = .online
  shown_iff : model.runtimeModel ≠ none ↔ model.runtimeStatus = .online
  online_iff : model.runtimeStatus = .online ↔
    ∃ ids, Discovers backends probes entry.backendId ids ∧ ∃ id ∈ ids, basename id ≠ []
  discovered : ∀ name, model.runtimeModel = some name →
    ∃ ids, Discovers backends probes entry.backendId ids ∧ ∃ id ∈ ids, basename id = name
  no_separator : ∀ name, model.runtimeModel = some name → ofChar '/' ∉ name ∧ ofChar '\\' ∉ name
  configured : ∀ ids, Discovers backends probes entry.backendId ids →
    basename entry.backendModel ∈ discoveredNames ids →
    model.runtimeModel = some (basename entry.backendModel)

/-- Neither separator stands in a base name. -/
theorem separators_notMem_basename (name : Str) :
    ofChar '/' ∉ basename name ∧ ofChar '\\' ∉ basename name :=
  ⟨fun h => absurd (isSeparator_of_mem_basename h) (by decide),
    fun h => absurd (isSeparator_of_mem_basename h) (by decide)⟩

/-- Something is discovered when some base name is not empty. -/
theorem discoveredNames_ne_nil_iff : discoveredNames ids ≠ [] ↔ ∃ id ∈ ids, basename id ≠ [] := by
  rw [← List.length_pos_iff_ne_nil, List.length_pos_iff_exists_mem]
  simp only [mem_discoveredNames]
  constructor
  · rintro ⟨_, ⟨id, hid, rfl⟩, hne⟩
    exact ⟨id, hid, hne⟩
  · rintro ⟨id, hid, hne⟩
    exact ⟨_, ⟨id, hid, rfl⟩, hne⟩

/-- The names that status and name are read off: those that were discovered, or none. -/
theorem Runtime.names {entry : ModelEntry} (h : Runtime backends probes entry.backendId rt) :
    ∃ names, (∀ ids, Discovers backends probes entry.backendId ids → names = discoveredNames ids) ∧
      (∀ name ∈ names, ∃ ids, Discovers backends probes entry.backendId ids ∧
        name ∈ discoveredNames ids) ∧
      (deriveRuntimeStatus rt.reachable rt.runtimeModels rt.error = .online ↔ names ≠ []) ∧
      Shows names entry (runtimeModelName entry rt.reachable rt.runtimeModels) := by
  cases h with
  | missed hmissed herror hmodels =>
      -- a probe that missed leaves its error, so the backend is not online
      have hstatus : deriveRuntimeStatus rt.reachable rt.runtimeModels rt.error ≠ .online := by
        simp only [deriveRuntimeStatus]
        split_ifs <;> simp
      have hname : runtimeModelName entry rt.reachable rt.runtimeModels = none := by
        rw [hmodels]
        simp [runtimeModelName]
      refine ⟨[], fun ids hids => absurd hids (hmissed ids),
        fun _ hmem => absurd hmem List.not_mem_nil, iff_of_false hstatus (not_not_intro rfl), ?_⟩
      rw [hname]
      exact ⟨by simp, fun _ hshown => (by cases hshown), fun hmem => absurd hmem List.not_mem_nil⟩
  | @found ids hdiscovers hreachable herror hmodels =>
      -- a backend that was asked is online unless it has no model
      have hstatus : deriveRuntimeStatus rt.reachable rt.runtimeModels rt.error =
          if discoveredNames ids = [] then .noModel else .online := by
        simp [deriveRuntimeStatus, hreachable, herror, hmodels]
      refine ⟨discoveredNames ids, fun ids' hids' => by rw [hdiscovers.unique hids'],
        fun name hname => ⟨ids, hdiscovers, hname⟩, ?_, ?_⟩
      · rw [hstatus]
        split_ifs with hnil <;> simp [hnil]
      · rw [hreachable, hmodels]
        exact shows_runtimeModelName entry fun name hname => basename_of_mem_discoveredNames hname

/-- What is shown from what has been discovered. -/
theorem Runtime.shown {entry : ModelEntry} (h : Runtime backends probes entry.backendId rt) :
    let status := deriveRuntimeStatus rt.reachable rt.runtimeModels rt.error
    RuntimeShown backends probes entry {
      id := entry.id
      backendId := entry.backendId
      enabled := entry.enabled
      aliases := entry.aliases
      backendReachable := rt.reachable
      runtimeLoaded := status = .online
      runtimeModel := runtimeModelName entry rt.reachable rt.runtimeModels
      runtimeStatus := status } := by
  intro status
  obtain ⟨names, hall, hfrom, honline, hshows⟩ := h.names
  -- a backend shows a name exactly when it discovered one that is not empty
  have hdiscovered : names ≠ [] ↔ ∃ ids, Discovers backends probes entry.backendId ids ∧
      ∃ id ∈ ids, basename id ≠ [] := by
    constructor
    · intro hne
      obtain ⟨name, hname⟩ := List.exists_mem_of_ne_nil names hne
      obtain ⟨ids, hids, hmem⟩ := hfrom name hname
      exact ⟨ids, hids, discoveredNames_ne_nil_iff.mp (List.ne_nil_of_mem hmem)⟩
    · rintro ⟨ids, hids, hid⟩
      rw [hall ids hids]
      exact discoveredNames_ne_nil_iff.mpr hid
  exact {
    id := rfl
    backendId := rfl
    enabled := rfl
    aliases := rfl
    loaded_iff := decide_eq_true_iff
    shown_iff := hshows.ne_none_iff.trans honline.symm
    online_iff := honline.trans hdiscovered
    discovered := fun name hshown => by
      obtain ⟨ids, hids, hname⟩ := hfrom name (hshows.mem name hshown)
      exact ⟨ids, hids, (mem_discoveredNames.mp hname).1⟩
    no_separator := fun name hshown => by
      obtain ⟨ids, -, hname⟩ := hfrom name (hshows.mem name hshown)
      rw [← basename_of_mem_discoveredNames hname]
      exact separators_notMem_basename name
    configured := fun ids hids hconfigured => hshows.configured (hall ids hids ▸ hconfigured) }

/-- What the first loop has for a backend: what has been discovered of it, if it is one of the
registry. -/
theorem lookup_discoverAll {ids : List Str} {runtime : List (Str × BackendRuntime)}
    (h : List.Forall₂ (fun backendId item => (do
      let runtime ← discoverBackendRuntime registry probes backendId
      return (backendId, runtime) : Except Exc (Str × BackendRuntime)) = .ok item) ids runtime)
      (backendId : Str) :
    (∃ rt, runtime.lookup backendId = some rt ∧
        discoverBackendRuntime registry probes backendId = .ok rt) ∨
      runtime.lookup backendId = none ∧ backendId ∉ ids := by
  induction h with
  | nil => exact .inr ⟨rfl, List.not_mem_nil⟩
  | @cons id item ids runtime hitem _ ih =>
      obtain ⟨rt, hrt, heq⟩ := bind_eq_ok.mp hitem
      cases heq
      rw [List.lookup_cons]
      by_cases hid : backendId = id
      · subst hid
        rw [beq_self_eq_true]
        exact .inl ⟨rt, rfl, hrt⟩
      · rw [beq_false_of_ne hid]
        rcases ih with hfound | ⟨hnone, hnot⟩
        · exact .inl hfound
        · exact .inr ⟨hnone, fun hmem => (List.mem_cons.mp hmem).elim hid hnot⟩

/-- The registry raises for a backend that it does not have. -/
theorem exists_error_of_notMem (h : backendId ∉ registry.ids) :
    ∃ exc, registry.get backendId = .error exc := by
  have hlookup : registry.backends.lookup backendId = none := by
    rw [List.lookup_eq_none_iff]
    intro item hitem
    rw [bne_iff_ne]
    rintro rfl
    exact h (List.mem_map_of_mem hitem)
  exact ⟨_, by rw [BackendRegistry.get, hlookup]⟩

/-- The runtime of a backend, as it is found in what has been discovered. -/
theorem runtime_of_discoverAll {runtime : List (Str × BackendRuntime)}
    (h : discoverAll backends probes = .ok runtime) (backendId : Str) :
    Runtime backends probes backendId
      ((runtime.lookup backendId).getD { error := some "backend not configured" }) := by
  cases backends with
  | none =>
      cases h
      refine .missed (fun ids hids => ?_) (show (some "backend not configured").getD "" ≠
        "" by decide) rfl
      cases hids
      contradiction
  | some registry =>
      rcases lookup_discoverAll (forall₂_of_mapM h) backendId with ⟨rt, hlookup, hrt⟩ |
        ⟨hlookup, hnot⟩
      · rw [hlookup]
        exact runtime_of_discover hrt
      · rw [hlookup]
        obtain ⟨exc, hexc⟩ := exists_error_of_notMem hnot
        exact .missed (fun _ => not_discovers_of_error hexc) (by decide) rfl

/-- An entry is shown with what its backend runs. -/
theorem shown_of_modelOut {v : Validators} {backendRuntime : List (Str × BackendRuntime)}
    {entry : ModelEntry} {model : ModelListOut} (hruntime : Runtime backends probes entry.backendId
      ((backendRuntime.lookup entry.backendId).getD { error := some "backend not configured" }))
    (h : modelOut v backendRuntime entry = .ok model) :
        RuntimeShown backends probes entry model := by
  unfold modelOut ModelListOut.validated at h
  dsimp only at h
  split at h
  · obtain rfl := Except.ok.inj h
    exact hruntime.shown
  · cases h

/-! ## What the endpoint answers -/

/-- The endpoint lists the models of this registry: that of a service in configured mode. -/
structure Lists (router : Option RoutingService) (service : RoutingService)
    (registry : ModelRegistry) : Prop where
  routed : router = some service
  configured : service.configured = true
  registered : service.modelRegistry = some registry

/-- Why the endpoint does not answer: the probe or the discovery of a configured backend has been
cancelled, or the schema library refuses a text of a model, one that is configured or one that is
discovered. -/
inductive Unanswered (v : Validators) (service : RoutingService) (registry : ModelRegistry)
    (probes : Probes) :
    Exc → Prop
  | probe {backends : BackendRegistry} {backendId : Str} {exc : Exc}
      (hbackends : service.backendRegistry = some backends) (hid : backendId ∈ backends.ids)
      (hhealth : probes.health backendId = .error exc) (hexc : exc.isException = false) :
      Unanswered v service registry probes exc
  | discovery {backends : BackendRegistry} {backendId : Str} {backend : InferenceBackend}
      {exc : Exc} (hbackends : service.backendRegistry = some backends)
      (hbackend : backends.get backendId = .ok backend) (hmodels : backend.models = .error exc)
      (hexc : exc.isException = false) :
      Unanswered v service registry probes exc
  | configuredText {entry : ModelEntry} {text : Str} (hentry : entry ∈ registry.listAll)
      (htext : text ∈ entry.id :: entry.backendId :: entry.aliases)
      (hrefused : v.str text = false) :
      Unanswered v service registry probes modelListError
  | discoveredName {entry : ModelEntry} {ids : List Str} {name : Str}
      (hentry : entry ∈ registry.listAll)
      (hids : Discovers service.backendRegistry probes entry.backendId ids)
      (hname : name ∈ discoveredNames ids) (hrefused : v.str name = false) :
      Unanswered v service registry probes modelListError

variable {service : RoutingService} {models : ModelRegistry} {v : Validators}

/-- What a failed step lets out is no `Exception`. -/
theorem failed_eq_error {result : BackendRuntime} {what : String} {exc exc' : Exc}
    (h : failed result what exc = .error exc') : exc = exc' ∧ exc'.isException = false := by
  unfold failed at h
  split at h
  · cases h
  · next hexc =>
      cases h
      exact ⟨rfl, Bool.eq_false_iff.mpr hexc⟩

/-- A probe that lets an exception out has been cancelled. -/
theorem error_of_probeResult {outcome : Except Exc BackendHealthResult} {exc : Exc}
    (h : probeResult outcome = .error exc) : outcome = .error exc ∧ exc.isException = false := by
  cases outcome with
  | ok result => cases h
  | error exc' =>
      simp only [probeResult] at h
      split at h
      · cases h
      · next hexc =>
          cases h
          exact ⟨rfl, Bool.eq_false_iff.mpr hexc⟩

/-- A backend whose lookup fails is not one of the registry, and that is caught. -/
theorem get_error_isException {exc : Exc} (h : registry.get backendId = .error exc) :
    exc.isException = true := by
  unfold BackendRegistry.get at h
  split at h
  · cases h
  · cases h
    rfl

/-- The discovery of a backend of the registry. -/
theorem raisesOnly_discoverBackendRuntime (hbackends : service.backendRegistry = some registry)
    (hid : backendId ∈ registry.ids) :
    RaisesOnly (Unanswered v service models probes)
    (discoverBackendRuntime registry probes backendId) := by
  intro exc h
  unfold discoverBackendRuntime at h
  dsimp only at h
  cases hbackend : registry.get backendId with
  | error exc' =>
      rw [hbackend] at h
      obtain ⟨rfl, hexc⟩ := failed_eq_error h
      rw [get_error_isException hbackend] at hexc
      -- the registry raises a `SynError`, which is an `Exception` and caught
      cases hexc
  | ok backend =>
      have hforced : forcedHealth registry probes backendId =
          probeResult (probes.health backendId) := by
        rw [forcedHealth, hbackend]
        rfl
      rw [hbackend, hforced] at h
      dsimp only at h
      cases hresult : probeResult (probes.health backendId) with
      | error exc' =>
          rw [hresult] at h
          obtain ⟨rfl, hexc⟩ := failed_eq_error h
          exact .probe hbackends hid (error_of_probeResult hresult).1 hexc
      | ok health =>
          rw [hresult] at h
          dsimp only at h
          split at h
          · cases hmodels : backend.models with
            | error exc' =>
                rw [hmodels] at h
                obtain ⟨rfl, hexc⟩ := failed_eq_error h
                exact .discovery hbackends hbackend hmodels hexc
            | ok discovered =>
                rw [hmodels] at h
                cases h
          · cases h

/-- The first loop. -/
theorem raisesOnly_discoverAll :
    RaisesOnly (Unanswered v service models probes)
    (discoverAll service.backendRegistry probes) := by
  unfold discoverAll
  split
  · exact .ok _
  · next registry hbackends =>
      exact .mapM fun id hid =>
        (raisesOnly_discoverBackendRuntime hbackends hid).bind fun _ => .ok _

/-- The second loop, on an entry whose backend has this runtime. -/
theorem raisesOnly_modelOut {backendRuntime : List (Str × BackendRuntime)} {entry : ModelEntry}
    (hentry : entry ∈ models.listAll)
      (hruntime : Runtime service.backendRegistry probes entry.backendId
      ((backendRuntime.lookup entry.backendId).getD { error := some "backend not configured" })) :
    RaisesOnly (Unanswered v service models probes) (modelOut v backendRuntime entry) := by
  intro exc h
  obtain ⟨names, -, hfrom, -, hshows⟩ := hruntime.names
  unfold modelOut ModelListOut.validated at h
  dsimp only at h
  split at h
  · cases h
  · next hrefused =>
      cases h
      simp only [Bool.and_eq_true, not_and_or, Bool.not_eq_true, List.all_eq_false,
        Option.all_eq_false] at hrefused
      -- the field that does not validate is a text of the configuration or a discovered name
      rcases hrefused with ((hid | hbackendId) | ⟨name, hname, hrefused⟩) | hname
      · exact .configuredText hentry List.mem_cons_self hid
      · exact .configuredText hentry (List.mem_cons_of_mem _ List.mem_cons_self) hbackendId
      · exact .configuredText hentry (List.mem_cons_of_mem _ (List.mem_cons_of_mem _ hname))
          (by simpa using hrefused)
      · obtain ⟨name, hshown, hrefused⟩ := hname
        obtain ⟨ids, hids, hmem⟩ := hfrom name (hshows.mem name hshown)
        exact .discoveredName hentry hids hmem (by simpa using hrefused)

/-- **The runtime that is shown is the one that is discovered.** A configured service with a
registry has every model of the registry listed, in its order, with the name and the status that its
backend's probe and discovery give; any other service has none. Without an answer a probe or a
discovery has been cancelled, or a text refused. -/
theorem runtime_models_faithful (v : Validators) (router : Option RoutingService)
    (probes : Probes) :
    match getModels v router probes with
    | .error exc =>
      ∃ service registry, Lists router service registry ∧ Unanswered v service registry probes exc
    | .ok out =>
      (∀ service registry, Lists router service registry → out.configured = true ∧
        List.Forall₂ (RuntimeShown service.backendRegistry probes) registry.listAll out.models) ∧
      ((∀ service registry, ¬ Lists router service registry) → out.configured = false ∧
          out.models = []) := by
  -- without a router, a configuration or a model registry nothing is listed
  have hother : (∀ service registry, ¬ Lists router service registry) →
      getModels v router probes = .ok { configured := false, models := [] } := by
    intro hnot
    unfold getModels
    split
    · rfl
    · next service =>
        split
        · rfl
        · next hconfigured =>
            split
            · rfl
            · next registry hregistry =>
                exact absurd ⟨rfl, by simpa using hconfigured, hregistry⟩ (hnot service registry)
  by_cases hlists : ∃ service registry, Lists router service registry
  · obtain ⟨service, registry, hlisted⟩ := hlists
    obtain ⟨rfl, hconfigured, hregistry⟩ := id hlisted
    have hrun : getModels v (some service) probes = (do
        let backendRuntime ← discoverAll service.backendRegistry probes
        let models ← registry.listAll.mapM (modelOut v backendRuntime)
        return { configured := true, models }) := by
      unfold getModels
      dsimp only
      rw [hconfigured, hregistry]
      rfl
    have hraises :
        RaisesOnly (Unanswered v service registry probes) (getModels v (some service) probes) := by
      rw [hrun]
      refine (raisesOnly_bind_iff raisesOnly_discoverAll).mpr fun backendRuntime hruntime => ?_
      refine RaisesOnly.bind (.mapM fun entry hentry => ?_) fun _ => .ok _
      exact raisesOnly_modelOut hentry (runtime_of_discoverAll hruntime entry.backendId)
    cases h : getModels v (some service) probes with
    | error exc => exact ⟨service, registry, hlisted, hraises exc h⟩
    | ok out =>
        refine ⟨?_, fun hnot => absurd hlisted (hnot service registry)⟩
        rintro service' registry' ⟨hservice, -, hregistry'⟩
        cases hservice
        rw [hregistry] at hregistry'
        -- the registry of the statement is the one that the endpoint read
        cases hregistry'
        rw [hrun] at h
        obtain ⟨backendRuntime, hruntime, h⟩ := bind_eq_ok.mp h
        obtain ⟨models, hmodels, h⟩ := bind_eq_ok.mp h
        cases h
        refine ⟨rfl, (forall₂_of_mapM hmodels).imp fun entry model hout => ?_⟩
        exact shown_of_modelOut (runtime_of_discoverAll hruntime entry.backendId) hout
  · have hnot : ∀ service registry, ¬ Lists router service registry :=
      fun service registry h => hlists ⟨service, registry, h⟩
    rw [hother hnot]
    exact ⟨fun service registry h => absurd h (hnot service registry), fun _ => ⟨rfl, rfl⟩⟩

/-- A backend that reports the model under the path of its file. -/
def reportingBackend : InferenceBackend where
  name := "llama_cpp"
  capabilities := [.chatCompletions]
  models := .ok [{ id := Str.ofString "other" }, { id := Str.ofString "/srv/models/a.gguf" }]

/-- The configured model is shown, though another one is reported first, and without the path. -/
theorem runtime_models_faithful_path :
    let service :=
      configuredService sampleRegistry { backends := [(Str.ofString "b", reportingBackend)] }
    let probes : Probes :=
      { health := fun _ => .ok { state := .reachable, reachable := true },
        checkedAt := fun _ => "now" }
    ∃ out,
      getModels { sampleValidators with str := fun _ => true } (some service) probes = .ok out ∧
      out.models.map (·.runtimeModel) = [some (Str.ofString "a.gguf")] ∧
      List.Forall₂ (RuntimeShown service.backendRegistry probes) sampleRegistry.listAll
          out.models := by
  intro service probes
  have hrun : ∃ out,
      getModels { sampleValidators with str := fun _ => true } (some service) probes = .ok out ∧
      out.models.map (·.runtimeModel) = [some (Str.ofString "a.gguf")] := ⟨_, rfl, rfl⟩
  obtain ⟨out, hout, hshown⟩ := hrun
  have hfaithful :=
    runtime_models_faithful { sampleValidators with str := fun _ => true } (some service) probes
  rw [hout] at hfaithful
  exact ⟨out, hout, hshown, (hfaithful.1 service sampleRegistry ⟨rfl, rfl, rfl⟩).2⟩

end SynGateway.Api.Admin

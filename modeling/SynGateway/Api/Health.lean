import SynGateway.Api.Admin.RuntimeModels
import SynGateway.Backends.LlamaCpp.Health
import SynGateway.Common.Transition
import SynGateway.Python.Triples

/-!
# The health endpoints

`app/api/health.py`, over the cached probes of the backend registry. What a backend does is a
function of the time at which a probe of it begins, so that what an endpoint says can be compared
with what was the case.

`liveness_faithful` is about a call of `/health` behind any other calls that use the cache: what it
says of the backends was true of each of them at a time within the time to live. It does not answer
at all where a server reports a version that is no text, or a name that the schema refuses, and
`/health/ready` does not then either.
-/

namespace SynGateway.Api.Health

open SynGateway.Backends SynGateway.Backends.LlamaCpp SynGateway.Core SynGateway.Python
  SynGateway.Python.CodePoint SynGateway.Routing SynGateway.Transition

/-! ## The cache of the registry -/

/-- The two dictionaries of the cache. -/
structure Cache where
  healthCache : Str → Option HealthReport := fun _ => none
  healthAt : Str → Option ℚ := fun _ => none

/-- `self._health_cache[backend_id] = result; self._health_at[backend_id] = now`. -/
def Cache.store (self : Cache) (backendId : Str) (result : HealthReport) (now : ℚ) : Cache where
  healthCache := Function.update self.healthCache backendId (some result)
  healthAt := Function.update self.healthAt backendId (some now)

/-- What `backend.health()` ends with, by the id of the backend and the time at which it is called.
-/
abbrev Servers := Str → ℚ → Except Raised HealthReport

/-- `try: result = await backend.health() except Exception: ...`. -/
def probeReport : Except Raised HealthReport → Except Raised HealthReport
  | .ok report => .ok report
  | .error raised =>
    if raised.isException then
      .ok { state := .unreachable, reachable := false, reason := Str.ofString "health probe raised"
            reachable_iff := by simp }
    else .error raised

/-- `BackendRegistry.health`, called at the time `now`. -/
def registryHealth (registry : BackendRegistry) (healthTtl : ℚ) (servers : Servers)
    (backendId : Str) (force : Bool) (now : ℚ) : Exec Raised Cache HealthReport := do
  let _ ← Exec.lift ((registry.get backendId).mapError .exc)
  let self ← Exec.get
  let probe : Exec Raised Cache HealthReport := do
    let result ← Exec.lift (probeReport (servers backendId now))
    Exec.modify fun self => self.store backendId result now
    return result
  match self.healthCache backendId with
  | none => probe
  | some cached =>
    if !force && now - (self.healthAt backendId).getD 0 ≤ healthTtl then return cached else probe

/-- `health_map`, which comes to each backend at a time of its own. -/
def healthMap (registry : BackendRegistry) (healthTtl : ℚ) (servers : Servers) (force : Bool)
    (now : Str → ℚ) : Exec Raised Cache (List (Str × HealthReport)) :=
  registry.ids.mapM fun backendId => do
    let report ← registryHealth registry healthTtl servers backendId force (now backendId)
    return (backendId, report)

/-! ## The endpoints -/

/-- `BackendHealth`. -/
structure BackendHealth where
  configured : Bool := true
  reachable : Bool := false
  state : String := "unknown"
  reason : Str := Str.ofString "no health probe has run yet"
  serverVersion : Option Str := none
  model : Option Str := none

/-- The `ValidationError` of the schema library. -/
def validationError : Raised := .exc (.exception "validation error for BackendHealth")

/-- What the schema takes for an `Optional[str]`. -/
def optionalStr (v : Validators) : Json → Option (Option Str)
  | .null => some none
  | .str s => if v.str s then some (some s) else none
  | _ => none

/-- `BackendHealth(...)`. -/
def BackendHealth.new (v : Validators) (configured reachable : Bool) (state : String) (reason : Str)
    (serverVersion : Json) (model : Option Str) : Except Raised BackendHealth :=
  match optionalStr v serverVersion with
  | none => .error validationError
  | some serverVersion =>
    if v.str reason && model.all v.str then
      .ok { configured, reachable, state, reason, serverVersion, model }
    else .error validationError

/-- The three branches on what the backends report: the state, the reason and what is said to be
reachable. -/
def overall (healthMap : List (Str × HealthReport)) : Bool × String × Str :=
  let allReachable := healthMap.all fun item => item.2.reachable
  let anyReachable := healthMap.any fun item => item.2.reachable
  let count := Str.ofText (Nat.toDigits 10 healthMap.length)
  if allReachable then
    (true, "healthy", Str.ofString "all " ++ count ++ Str.ofString " backends reachable")
  else if anyReachable then
    (true, "degraded", Str.ofString "unreachable backends: " ++ (Str.ofString ", ").intercalate
      ((healthMap.filter fun item => !item.2.reachable).map Prod.fst))
  else (false, "unhealthy", Str.ofString "all " ++ count ++ Str.ofString " backends unreachable")

/-- "Report aggregate health". -/
def aggregate (v : Validators) (healthMap : List (Str × HealthReport)) :
    Except Raised BackendHealth :=
  let (reachable, state, reason) := overall healthMap
  match healthMap.find? fun item => item.2.reachable with
  | some (_, h) => BackendHealth.new v true reachable state reason h.serverVersion h.model
  | none => BackendHealth.new v true reachable state reason .null none

/-- What the application holds: its router, the default backend's probe, and the outcome of `SELECT
1`, which is `none` where no database is open. -/
structure App where
  router : Option RoutingService
  healthTtl : ℚ := 5
  servers : Servers
  backend : Option (ℚ → Except Raised HealthReport) := none
  database : Option (Except Exc Unit)
  appVersion : Str
  environment : String

/-- `_backend_health`, at the times `now` for the backends of the registry and `at` for the default
one. `typeName` is `type(exc).__name__`. -/
def backendHealth (v : Validators) (typeName : Raised → Str) (app : App) (now : Str → ℚ)
    (start : ℚ) :
    Exec Raised Cache BackendHealth :=
  let passthrough : Exec Raised Cache BackendHealth :=
    Exec.lift <| match app.backend with
      | none => BackendHealth.new v true false "unknown"
          (Str.ofString "backend not wired during startup") .null none
      | some probe =>
        match probe start with
        | .error raised =>
          if raised.isException then
            BackendHealth.new v true false "unreachable" (Str.ofString "health probe raised: " ++
              typeName raised) .null none
          else .error raised
        | .ok result =>
          BackendHealth.new v true result.reachable (stateValue result.state) result.reason
            result.serverVersion result.model
  match app.router with
  | none => passthrough
  | some router =>
    match router.configured, router.backendRegistry with
    | true, some registry => do
      let reports ← healthMap registry app.healthTtl app.servers false now
      Exec.lift (aggregate v reports)
    | _, _ => passthrough

/-- `HealthResponse`. -/
structure HealthResponse where
  status : String := "ok"
  service : String := "syn"
  version : Str
  environment : String
  backend : BackendHealth
  requestId : Option String

/-- `liveness`, the endpoint `/health`. -/
def liveness (v : Validators) (typeName : Raised → Str) (app : App) (now : Str → ℚ) (start : ℚ)
    (requestId : Option String) : Exec Raised Cache HealthResponse := do
  let backend ← backendHealth v typeName app now start
  return { version := app.appVersion, environment := app.environment, backend, requestId }

/-- `ReadinessResponse`, with the status code it is sent under. -/
structure ReadinessResponse where
  statusCode : ℕ
  status : String
  database : String
  backend : BackendHealth
  requestId : Option String

/-- `SELECT 1`, and what is made of an `Exception`. -/
def databaseOk : Option (Except Exc Unit) → Except Raised Bool
  | none => .ok false
  | some (.ok ()) => .ok true
  | some (.error exc) => if exc.isException then .ok false else .error (.exc exc)

/-- `readiness`, the endpoint `/health/ready`. -/
def readiness (v : Validators) (typeName : Raised → Str) (app : App) (now : Str → ℚ) (start : ℚ)
    (requestId : Option String) : Exec Raised Cache ReadinessResponse := do
  let databaseOk ← Exec.lift (databaseOk app.database)
  let backend ← backendHealth v typeName app now start
  return {
    statusCode := if databaseOk then 200 else 503
    status := if databaseOk then "ready" else "not_ready"
    database := if databaseOk then "ok" else "error"
    backend, requestId }

/-! ## What the cache knows -/

/-- A report of the backend that the endpoint may give at the time `now`: it comes from a probe that
began at that time, or at most the time to live before. -/
def Current (servers : Servers) (healthTtl : ℚ) (now : ℚ) (backendId : Str)
    (report : HealthReport) : Prop :=
  ∃ x ≤ now, (x = now ∨ now - x ≤ healthTtl) ∧ probeReport (servers backendId x) = .ok report

/-- Every entry holds what a probe reported that began at the time stored with it, and not after
`bound`. -/
def Stored (servers : Servers) (bound : Str → ℚ) (self : Cache) : Prop :=
  ∀ backendId report, self.healthCache backendId = some report →
    ∃ x ≤ bound backendId, self.healthAt backendId = some x ∧
      probeReport (servers backendId x) = .ok report

variable {registry : BackendRegistry} {healthTtl : ℚ} {servers : Servers} {backendId : Str}
  {force : Bool} {now : Str → ℚ} {v : Validators} {m : List (Str × HealthReport)} {raised : Raised}

/-- What a probe lets through is no `Exception`. -/
theorem probeReport_eq_error {outcome : Except Raised HealthReport}
    (h : probeReport outcome = .error raised) : raised.isException = false := by
  unfold probeReport at h
  split at h
  · cases h
  · split at h
    · cases h
    · next hexc =>
        cases h
        simpa using hexc

/-- A stored report is found with its time. -/
theorem Cache.store_self (self : Cache) (backendId : Str) (report : HealthReport) (x : ℚ) :
    (self.store backendId report x).healthCache backendId = some report ∧
      (self.store backendId report x).healthAt backendId = some x :=
  ⟨Function.update_self .., Function.update_self ..⟩

/-- A stored report leaves those of the other backends. -/
theorem Cache.store_other (self : Cache) {id : Str} (h : id ≠ backendId)
    (report : HealthReport) (x : ℚ) :
    (self.store backendId report x).healthCache id = self.healthCache id ∧
      (self.store backendId report x).healthAt id = self.healthAt id :=
  ⟨Function.update_of_ne h .., Function.update_of_ne h ..⟩

/-- What a probe reports is stored with the time at which it began. -/
theorem Stored.store {self : Cache} {report : HealthReport} (h : Stored servers now self)
    (hprobe : probeReport (servers backendId (now backendId)) = .ok report) :
    Stored servers now (self.store backendId report (now backendId)) := by
  intro id r hr
  by_cases hid : id = backendId
  · subst hid
    obtain ⟨hcache, hat⟩ := self.store_self id report (now id)
    rw [hcache] at hr
    obtain rfl := Option.some.inj hr
    exact ⟨now id, le_rfl, hat, hprobe⟩
  · obtain ⟨hcache, hat⟩ := self.store_other hid report (now backendId)
    rw [hcache] at hr
    rw [hat]
    exact h id r hr

/-- A registered id leads to a backend. -/
theorem exists_get_of_mem {item : Str × InferenceBackend} (h : item ∈ registry.backends) :
    ∃ backend, registry.get item.1 = .ok backend := by
  unfold BackendRegistry.get
  cases hlookup : registry.backends.lookup item.1 with
  | some backend => exact ⟨backend, rfl⟩
  | none => simpa using List.lookup_eq_none_iff.mp hlookup item h

/-- **A call for the health of a backend** reports what is current, and stores what a probe has
reported. -/
theorem ensures_registryHealth (registry : BackendRegistry) (healthTtl : ℚ) (servers : Servers)
    (backendId : Str) (force : Bool) (now : Str → ℚ) :
    Exec.Ensures (Stored servers now)
      (registryHealth registry healthTtl servers backendId force (now backendId))
      (fun report s => Stored servers now s ∧
        Current servers healthTtl (now backendId) backendId report)
      fun raised s => Stored servers now s ∧
      (backendId ∈ registry.ids → raised.isException = false) := by
  have hprobe : Exec.Ensures (Stored servers now)
      (do
        let result ← Exec.lift (probeReport (servers backendId (now backendId)))
        Exec.modify fun self => self.store backendId result (now backendId)
        return result : Exec Raised Cache HealthReport)
      (fun report s => Stored servers now s ∧
        Current servers healthTtl (now backendId) backendId report)
      fun raised s => Stored servers now s ∧
          (backendId ∈ registry.ids → raised.isException = false) := by
    refine Exec.Ensures.bind (Exec.Ensures.lift
      (Q := fun report s => Stored servers now s ∧
        probeReport (servers backendId (now backendId)) = .ok report)
      (fun report s hreport hs => ⟨hs, hreport⟩)
      fun raised s hraised hs => ⟨hs, fun _ => probeReport_eq_error hraised⟩) fun report => ?_
    refine Exec.Ensures.bind (Q := fun _ s => Stored servers now s ∧
      probeReport (servers backendId (now backendId)) = .ok report)
      (Exec.Ensures.modify fun s hs => ⟨hs.1.store hs.2, hs.2⟩) fun _ => ?_
    exact Exec.Ensures.pure fun s hs => ⟨hs.1, now backendId, le_rfl, .inl rfl, hs.2⟩
  unfold registryHealth
  refine Exec.Ensures.bind (Exec.Ensures.lift (Q := fun _ s => Stored servers now s)
    (fun _ s _ hs => hs) fun raised s hraised hs => ⟨hs, fun hmem => ?_⟩) fun _ => ?_
  · -- a registered backend is found
    obtain ⟨item, hitem, rfl⟩ := List.mem_map.mp hmem
    obtain ⟨backend, hbackend⟩ := exists_get_of_mem hitem
    rw [hbackend] at hraised
    cases hraised
  refine Exec.Ensures.get_bind fun self hself => ?_
  dsimp only
  have hsame : ∀ s, s = self → Stored servers now s := fun s hs => hs ▸ hself
  split
  · exact hprobe.mono hsame (fun _ _ h => h) fun _ _ h => h
  · next cached hcached =>
      split
      · next hfresh =>
          refine Exec.Ensures.pure fun s hs => ⟨hs ▸ hself, ?_⟩
          obtain ⟨x, hle, hat, hreport⟩ := hself backendId cached hcached
          rw [hat] at hfresh
          refine ⟨x, hle, .inr ?_, hreport⟩
          simpa using (Bool.and_eq_true_iff.mp hfresh).2
      · exact hprobe.mono hsame (fun _ _ h => h) fun _ _ h => h

/-! ## The calls of the gateway -/

/-- The cache, and the time of the last call. -/
structure State where
  cache : Cache := {}
  clock : ℚ

/-- Some caller asks for the health of a backend. -/
structure Call where
  backendId : Str
  force : Bool
  now : ℚ

/-- One call after the other, at times that do not go back. -/
def step (registry : BackendRegistry) (healthTtl : ℚ) (servers : Servers)
    (s : State) (call : Call) : Option State :=
  if s.clock ≤ call.now then
    some {
      cache := ((registryHealth registry healthTtl servers call.backendId call.force call.now).run
        s.cache).2
      clock := call.now }
  else none

/-- The states that the calls lead to. -/
abbrev Reachable (registry : BackendRegistry) (healthTtl : ℚ) (servers : Servers) (clock : ℚ) :
    State → Prop :=
  Reach (step registry healthTtl servers) free { clock }

/-- Later on, what is stored is still from before. -/
theorem Stored.mono {bound bound' : Str → ℚ} {self : Cache} (h : Stored servers bound self)
    (hle : ∀ id, bound id ≤ bound' id) : Stored servers bound' self := by
  intro id report hreport
  obtain ⟨x, hx, hat, hprobe⟩ := h id report hreport
  exact ⟨x, hx.trans (hle id), hat, hprobe⟩

/-- The cache holds what probes have reported before. -/
theorem Reachable.stored {clock : ℚ} {s : State}
    (h : Reachable registry healthTtl servers clock s) :
    Stored servers (fun _ => s.clock) s.cache := by
  refine Reach.invariant (I := fun s => Stored servers (fun _ => s.clock) s.cache) h
    (fun _ _ hnone => nomatch hnone) fun s call t hs _ hstep => ?_
  obtain ⟨hclock, heq⟩ := Option.ite_none_right_eq_some.mp hstep
  obtain rfl := Option.some.inj heq
  have hcall := ensures_registryHealth registry healthTtl servers call.backendId call.force
    (fun _ => call.now) s.cache (hs.mono fun _ => hclock)
  rcases hrun :
    (registryHealth registry healthTtl servers call.backendId call.force call.now).run s.cache with
    ⟨raised | report, cache⟩
  · rw [hrun] at hcall
    exact hcall.1
  · rw [hrun] at hcall
    exact hcall.1

/-- Pairs that belong to some ids. -/
theorem ids_of_forall₂ {ids : List Str} {p : Str × HealthReport → Prop}
    (h : List.Forall₂ (fun id item => item.1 = id ∧ p item) ids m) :
    m.map Prod.fst = ids ∧ ∀ item ∈ m, p item := by
  induction h with
  | nil => exact ⟨rfl, fun _ hmem => absurd hmem List.not_mem_nil⟩
  | cons hitem _ ih =>
      obtain ⟨rfl, hp⟩ := hitem
      exact ⟨by rw [List.map_cons, ih.1], List.forall_mem_cons.mpr ⟨hp, ih.2⟩⟩

/-- `health_map` reports of every backend once, in the order they are registered in, and what is
current. -/
theorem ensures_healthMap (registry : BackendRegistry) (healthTtl : ℚ) (servers : Servers)
    (force : Bool) (now : Str → ℚ) :
    Exec.Ensures (Stored servers now) (healthMap registry healthTtl servers force now)
      (fun m _ => m.map Prod.fst = registry.ids ∧
        ∀ item ∈ m, Current servers healthTtl (now item.1) item.1 item.2)
      fun raised _ => raised.isException = false := by
  unfold healthMap
  refine Exec.Ensures.mono (Exec.Ensures.mapM fun id hid => ?_) (fun _ h => h)
    (fun m s h => ids_of_forall₂ h.2) fun _ _ h => h
  have hcall := ensures_registryHealth registry healthTtl servers id force now
  refine Exec.Ensures.bind (hcall.mono (fun _ h => h) (fun _ _ h => h) fun raised s h => h.2 hid)
    fun report => ?_
  exact Exec.Ensures.pure fun s hs => ⟨hs.1, rfl, hs.2⟩

/-! ## What is made of the reports -/

/-- What `/health` says about backends that are well or not. -/
structure Says {ι : Type} (name : ι → Str) (well : ι → Prop) (backends : List ι)
    (backend : BackendHealth) : Prop where
  healthy : backend.state = "healthy" ↔ ∀ b ∈ backends, well b
  degraded : backend.state = "degraded" ↔ (∃ b ∈ backends, well b) ∧ ∃ b ∈ backends, ¬ well b
  unhealthy : backend.state = "unhealthy" ↔ backends ≠ [] ∧ ∀ b ∈ backends, ¬ well b
  reachable : backend.reachable = true ↔ backends = [] ∨ ∃ b ∈ backends, well b
  named : backend.state = "degraded" → ∃ names, backend.reason =
    Str.ofString "unreachable backends: " ++ (Str.ofString ", ").intercalate names ∧
    ∀ id, id ∈ names ↔ ∃ b ∈ backends, name b = id ∧ ¬ well b

/-- The reports that the endpoint cannot show: the one that it takes the version and the name from
holds a version that is no text, or a text that the schema refuses; or the schema refuses an id. -/
def Refused (v : Validators) (m : List (Str × HealthReport)) : Prop :=
  (∃ item, m.find? (fun item => item.2.reachable) = some item ∧
    (optionalStr v item.2.serverVersion = none ∨ item.2.model.all v.str = false)) ∨
  v.str (overall m).2.2 = false

/-- The health response shows the fields that validate, or does not validate. -/
theorem BackendHealth.new_spec (v : Validators) (configured reachable : Bool) (state : String)
    (reason : Str) (serverVersion : Json) (model : Option Str) :
    match BackendHealth.new v configured reachable state reason serverVersion model with
    | .ok backend => backend.reachable = reachable ∧ backend.state = state ∧
        backend.reason = reason ∧
        backend.model = model ∧ (optionalStr v serverVersion).isSome = true ∧ v.str reason = true ∧
        model.all v.str = true
    | .error raised => raised = validationError ∧
        (optionalStr v serverVersion = none ∨ v.str reason = false ∨ model.all v.str = false) := by
  unfold BackendHealth.new
  cases hversion : optionalStr v serverVersion with
  | none => exact ⟨rfl, .inl rfl⟩
  | some version =>
      dsimp only
      by_cases hstr : (v.str reason && model.all v.str) = true
      · rw [if_pos hstr]
        obtain ⟨hreason, hmodel⟩ := Bool.and_eq_true_iff.mp hstr
        exact ⟨rfl, rfl, rfl, rfl, rfl, hreason, hmodel⟩
      · rw [if_neg hstr]
        refine ⟨rfl, .inr ?_⟩
        rwa [Bool.and_eq_true, not_and_or, Bool.not_eq_true, Bool.not_eq_true] at hstr

/-- The three branches are about all, some and none of the backends. -/
theorem says_overall {backend : BackendHealth} (hreachable : backend.reachable = (overall m).1)
    (hstate : backend.state = (overall m).2.1) (hreason : backend.reason = (overall m).2.2) :
    Says Prod.fst (fun item : Str × HealthReport => item.2.reachable = true) m backend := by
  unfold overall at hreachable hstate hreason
  -- all well, one well, none well: the three states
  by_cases hall : (m.all fun item => item.2.reachable) = true
  · have hwell := List.all_eq_true.mp hall
    simp only [hall, if_true] at hreachable hstate hreason
    refine ⟨by simpa [hstate] using hwell, ?_, ?_, ?_, by simp [hstate]⟩
    · simp only [hstate, String.reduceEq, false_iff, not_and, not_exists, not_not]
      exact fun _ item hitem => hwell item hitem
    · simp only [hstate, String.reduceEq, false_iff, not_and]
      intro hne hnone
      obtain ⟨item, hitem⟩ := List.exists_mem_of_ne_nil m hne
      exact hnone item hitem (hwell item hitem)
    · simp only [hreachable, true_iff]
      rcases m with - | ⟨item, m⟩
      · exact .inl rfl
      · exact .inr ⟨item, List.mem_cons_self, hwell item List.mem_cons_self⟩
  · have hsome : ∃ item ∈ m, ¬ item.2.reachable = true := by
      simpa using hall
    simp only [hall, Bool.false_eq_true, if_false] at hreachable hstate hreason
    by_cases hany : (m.any fun item => item.2.reachable) = true
    · have hwell : ∃ item ∈ m, item.2.reachable = true := List.any_eq_true.mp hany
      simp only [hany, if_true] at hreachable hstate hreason
      refine ⟨?_, ?_, ?_, ?_, fun _ => ⟨_, hreason, ?_⟩⟩
      · simpa [hstate] using hsome
      · simp only [hstate, true_iff]
        exact ⟨hwell, hsome⟩
      · simp only [hstate, String.reduceEq, false_iff, not_and, not_forall, not_not]
        -- one backend is well, so not all are unreachable
        obtain ⟨item, hitem, hitemWell⟩ := hwell
        exact fun _ => ⟨item, hitem, hitemWell⟩
      · simp only [hreachable, true_iff]
        exact .inr hwell
      · intro id
        simp [and_comm, and_assoc]
    · have hnone : ∀ item ∈ m, ¬ item.2.reachable = true := by
        simpa using hany
      obtain ⟨item, hitem, hitemNot⟩ := hsome
      simp only [hany, Bool.false_eq_true, if_false] at hreachable hstate hreason
      refine ⟨?_, ?_, ?_, ?_, by simp [hstate]⟩
      · simp only [hstate, String.reduceEq, false_iff, not_forall]
        exact ⟨item, hitem, hitemNot⟩
      · simp only [hstate, String.reduceEq, false_iff]
        rintro ⟨⟨item, hmem, hwell⟩, -⟩
        exact hnone item hmem hwell
      · simp only [hstate, true_iff]
        exact ⟨List.ne_nil_of_mem hitem, hnone⟩
      · simp only [hreachable, Bool.false_eq_true, false_iff, not_or, not_exists]
        exact ⟨List.ne_nil_of_mem hitem, fun item ⟨hmem, hwell⟩ => hnone item hmem hwell⟩

/-- **What the endpoint makes of the reports**, and when it makes nothing of them. -/
theorem aggregate_spec (v : Validators) (m : List (Str × HealthReport)) :
    match aggregate v m with
    | .ok backend =>
        Says Prod.fst (fun item : Str × HealthReport => item.2.reachable = true) m backend ∧
        (∀ name, backend.model = some name → ∃ item ∈ m, item.2.model = some name) ∧ ¬ Refused v m
    | .error raised => raised = validationError ∧ Refused v m := by
  unfold aggregate
  cases hfind : m.find? fun item => item.2.reachable with
  | none =>
      -- nobody is reachable: the response has neither version nor model
      have hnew :=
        BackendHealth.new_spec v true (overall m).1 (overall m).2.1 (overall m).2.2 .null none
      dsimp only
      cases hbackend :
        BackendHealth.new v true (overall m).1 (overall m).2.1 (overall m).2.2 .null none with
      | ok backend =>
          rw [hbackend] at hnew
          obtain ⟨hreachable, hstate, hreason, hmodel, -, hstr, -⟩ := hnew
          refine ⟨says_overall hreachable hstate hreason, by simp [hmodel], ?_⟩
          rintro (⟨item, hitem, -⟩ | hrefused)
          · rw [hfind] at hitem
            cases hitem
          · rw [hstr] at hrefused
            cases hrefused
      | error raised =>
          rw [hbackend] at hnew
          obtain ⟨hraised, hversion | hreason | hmodel⟩ := hnew
          · cases hversion
          · exact ⟨hraised, .inr hreason⟩
          · cases hmodel
  | some item =>
      obtain ⟨id, h⟩ := item
      have hnew :=
        BackendHealth.new_spec v true (overall m).1 (overall m).2.1 (overall m).2.2 h.serverVersion
        h.model
      dsimp only
      cases hbackend :
        BackendHealth.new v true (overall m).1 (overall m).2.1 (overall m).2.2 h.serverVersion
        h.model with
      | ok backend =>
          rw [hbackend] at hnew
          obtain ⟨hreachable, hstate, hreason, hmodel, hversion, hstr, hstrModel⟩ := hnew
          -- version and model are those of the first backend that is reachable
          refine ⟨says_overall hreachable hstate hreason, fun name hname => ?_, ?_⟩
          · exact ⟨(id, h), List.mem_of_find?_eq_some hfind, hmodel ▸ hname⟩
          · rintro (⟨item, hitem, hrefused⟩ | hrefused)
            · rw [hfind] at hitem
              obtain rfl := Option.some.inj hitem
              rcases hrefused with hrefused | hrefused
              · rw [hrefused] at hversion
                cases hversion
              · rw [hstrModel] at hrefused
                cases hrefused
            · rw [hstr] at hrefused
              cases hrefused
      | error raised =>
          rw [hbackend] at hnew
          obtain ⟨hraised, hversion | hreason | hmodel⟩ := hnew
          · exact ⟨hraised, .inl ⟨_, hfind, .inl hversion⟩⟩
          · exact ⟨hraised, .inr hreason⟩
          · exact ⟨hraised, .inl ⟨_, hfind, .inr hmodel⟩⟩

/-! ## The backends of the gateway -/

/-- The backends are llama.cpp servers: what a probe meets that begins at some time. -/
def llamaServers (i : Interpreter) (repr : Str → Str) (baseUrl : Str → Str)
    (exchange : Str → ℚ → Exchange) :
    Servers :=
  fun id x => ((LlamaCpp.health i repr (baseUrl id) (exchange id x)).run {}).1

variable {i : Interpreter} {repr : Str → Str} {baseUrl : Str → Str} {exchange : Str → ℚ → Exchange}

/-- `_sanitize_model_name` shows what the models endpoint shows. -/
theorem sanitizeModelName_some (raw : Str) :
    sanitizeModelName (some raw) =
      if Admin.basename raw = [] then none else some (Admin.basename raw) := by
  unfold sanitizeModelName
  rw [← Admin.sanitized_eq_basename]
  by_cases hraw : raw = []
  · subst hraw
    rfl
  · exact if_neg hraw

/-- The name of a file: there is one, and it has no separator. -/
def BaseName (name : Str) : Prop := name ≠ [] ∧ ofChar '/' ∉ name ∧ ofChar '\\' ∉ name

/-- A name that a probe reports tells nothing of the path. -/
theorem baseName_of_sanitize {raw name : Str} (h : sanitizeModelName (some raw) = some name) :
    BaseName name := by
  rw [sanitizeModelName_some] at h
  split at h
  · cases h
  · next hne =>
      obtain rfl := Option.some.inj h
      exact ⟨hne, Admin.separators_notMem_basename raw⟩

/-- What a backend reports, or is taken to report, of its server. -/
theorem report_of_llamaServers {id : Str} {x : ℚ} {report : HealthReport}
    (h : probeReport (llamaServers i repr baseUrl exchange id x) = .ok report) :
    (report.reachable = true ↔ (exchange id x).Healthy) ∧ ∀ name, report.model = some name →
    BaseName name := by
  unfold llamaServers at h
  rcases health_spec i repr (baseUrl id) (exchange id x) with ⟨raised, hraises, hrun⟩ |
    ⟨r, hreports, -, hrun⟩
  · rw [hrun] at h
    unfold probeReport at h
    dsimp only at h
    split at h
    · next hexc =>
        cases h
        refine ⟨iff_of_false Bool.false_ne_true ?_, by simp⟩
        -- an `Exception` that is read as unreachable: the server was not healthy
        rcases hraises with ⟨hraised, -⟩ | ⟨-, -, hnot⟩
        · exact not_healthy_of_error hraised
        · rw [hnot] at hexc
          cases hexc
    · cases h
  · rw [hrun] at h
    cases h
    refine ⟨hreports.reachable, fun name hname => ?_⟩
    obtain ⟨-, first, rest, -, hsanitize⟩ := (hreports.model name).mp hname
    exact baseName_of_sanitize hsanitize

/-! ## What `/health` says -/

/-- The application routes by a configuration, with this registry of backends. -/
def App.RoutesTo (app : App) (registry : BackendRegistry) : Prop :=
  ∃ router, app.router = some router ∧ router.configured = true ∧ router.backendRegistry =
    some registry

/-- A run of probes, one of each backend: none began after the endpoint came to the backend, nor
more than the time to live before. -/
def Recent (healthTtl : ℚ) (now : Str → ℚ) (ids : List Str) (probed : List (Str × ℚ)) : Prop :=
  probed.map Prod.fst = ids ∧
    ∀ p ∈ probed, p.2 ≤ now p.1 ∧ (p.2 = now p.1 ∨ now p.1 - p.2 ≤ healthTtl)

/-- Lists whose items have the same truth values. -/
theorem forall_mem_iff_of_forall₂ {α β : Type} {P : α → Prop} {Q : β → Prop} {l : List α}
    {l' : List β} (h : List.Forall₂ (fun a b => P a ↔ Q b) l l') :
    (∀ a ∈ l, P a) ↔ ∀ b ∈ l', Q b := by
  induction h with
  | nil => simp
  | cons hab _ ih => rw [List.forall_mem_cons, List.forall_mem_cons, hab, ih]

/-- What is said of some backends is said of others, if they have the same names and are as well. -/
theorem Says.congr {ι κ : Type} {name : ι → Str} {name' : κ → Str} {well : ι → Prop}
    {well' : κ → Prop} {l : List ι} {l' : List κ} {backend : BackendHealth}
    (h : Says name well l backend)
    (hsame : List.Forall₂ (fun a b => name a = name' b ∧ (well a ↔ well' b)) l l') :
    Says name' well' l' backend := by
  have hall := forall_mem_iff_of_forall₂ (hsame.imp fun _ _ h => h.2)
  have hnone := forall_mem_iff_of_forall₂ (P := fun a => ¬ well a) (Q := fun b => ¬ well' b)
    (hsame.imp fun _ _ h => not_congr h.2)
  -- the other statements are those about all, negated
  have hany : (∃ a ∈ l, well a) ↔ ∃ b ∈ l', well' b := by
    simpa using not_congr hnone
  have hsome : (∃ a ∈ l, ¬ well a) ↔ ∃ b ∈ l', ¬ well' b := by
    simpa using not_congr hall
  have hnil : l = [] ↔ l' = [] := by
    rw [← List.length_eq_zero_iff, ← List.length_eq_zero_iff, hsame.length_eq]
  have hnamed : ∀ id, (∃ a ∈ l, name a = id ∧ ¬ well a) ↔ ∃ b ∈ l', name' b = id ∧ ¬ well' b := by
    intro id
    have hnot := forall_mem_iff_of_forall₂ (P := fun a => ¬ (name a = id ∧ ¬ well a))
      (Q := fun b => ¬ (name' b = id ∧ ¬ well' b))
      (hsame.imp fun _ _ h => not_congr (and_congr (by rw [h.1]) (not_congr h.2)))
    simpa using not_congr hnot
  refine ⟨h.healthy.trans hall, h.degraded.trans (and_congr hany hsome),
    h.unhealthy.trans (and_congr (not_congr hnil) hnone),
      h.reachable.trans (or_congr hnil hany), ?_⟩
  intro hdegraded
  obtain ⟨names, hreason, hmem⟩ := h.named hdegraded
  exact ⟨names, hreason, fun id => (hmem id).trans (hnamed id)⟩

/-- Reports that are current come from probes that are recent, and say how the servers were. -/
theorem exists_recent
    (h : ∀ item ∈ m,
      Current (llamaServers i repr baseUrl exchange) healthTtl (now item.1) item.1 item.2) :
    ∃ probed, Recent healthTtl now (m.map Prod.fst) probed ∧
      List.Forall₂ (fun (item : Str × HealthReport) (p : Str × ℚ) => item.1 = p.1 ∧
        (item.2.reachable = true ↔ (exchange p.1 p.2).Healthy)) m probed := by
  induction m with
  | nil => exact ⟨[], ⟨rfl, by simp⟩, .nil⟩
  | cons item m ih =>
      obtain ⟨⟨x, hle, hrecent, hprobe⟩, hrest⟩ := List.forall_mem_cons.mp h
      obtain ⟨probed, ⟨hids, hprobed⟩, hsame⟩ := ih hrest
      refine ⟨(item.1, x) :: probed, ⟨by rw [List.map_cons, List.map_cons, hids], ?_⟩,
        .cons ⟨rfl, ?_⟩ hsame⟩
      · exact List.forall_mem_cons.mpr ⟨⟨hle, hrecent⟩, hprobed⟩
      · exact (report_of_llamaServers hprobe).1

/-- The health of the backends, where the application routes by a configuration. -/
theorem backendHealth_configured {app : App} (h : app.RoutesTo registry) (typeName : Raised → Str)
    (start : ℚ) :
    backendHealth v typeName app now start =
      healthMap registry app.healthTtl app.servers false now >>= fun reports =>
      Exec.lift (aggregate v reports) := by
  obtain ⟨router, hrouter, hconfigured, hregistry⟩ := h
  unfold backendHealth
  rw [hrouter]
  dsimp only
  rw [hconfigured, hregistry]

/-- **`/health` says what was the case.** Behind any calls that have used the cache: if it answers,
there are probes of all backends, one of each and none older than the time to live, and the backends
were as it says when these began; a name of a model that it shows has no path. It does not answer if
a probe was cancelled, or if the schema refuses what a server has reported. -/
theorem liveness_faithful (v : Validators) (typeName : Raised → Str) (app : App) {clock : ℚ}
    {s : State} (hroutes : app.RoutesTo registry)
    (hservers : app.servers = llamaServers i repr baseUrl exchange)
    (h : Reachable registry app.healthTtl app.servers clock s) (hnow : ∀ id, s.clock ≤ now id)
    (start : ℚ) (requestId : Option String) :
    match (liveness v typeName app now start requestId).run s.cache with
    | (.ok response, _) => ∃ probed, Recent app.healthTtl now registry.ids probed ∧
        Says Prod.fst (fun p : Str × ℚ => (exchange p.1 p.2).Healthy) probed response.backend ∧
        ∀ name, response.backend.model = some name → BaseName name
    | (.error raised, _) => raised.isException = false ∨
        raised = validationError ∧ ∃ m : List (Str × HealthReport), m.map Prod.fst = registry.ids ∧
          (∀ item ∈ m, Current app.servers app.healthTtl (now item.1) item.1 item.2) ∧
              Refused v m := by
  have hmap := ensures_healthMap registry app.healthTtl app.servers false now
  rcases hmap.cases (h.stored.mono hnow) with ⟨m, t, hrun, hids, hcurrent⟩ |
    ⟨raised, t, hrun, hraised⟩
  · have hback : (backendHealth v typeName app now start).run s.cache = (aggregate v m, t) := by
      rw [backendHealth_configured hroutes, Exec.run_bind_ok hrun, Exec.run_lift]
    have haggregate := aggregate_spec v m
    unfold liveness
    cases hresult : aggregate v m with
    | ok backend =>
        rw [hresult] at hback haggregate
        obtain ⟨hsaid, hmodel, -⟩ := haggregate
        rw [Exec.run_bind_ok hback, Exec.run_pure]
        rw [hservers] at hcurrent
        -- each report of the map was made by a probe within the time to live
        obtain ⟨probed, hrecent, hsame⟩ := exists_recent hcurrent
        refine ⟨probed, hids ▸ hrecent, hsaid.congr hsame, fun name hname => ?_⟩
        obtain ⟨item, hitem, hitemModel⟩ := hmodel name hname
        obtain ⟨x, -, -, hprobe⟩ := hcurrent item hitem
        exact (report_of_llamaServers hprobe).2 name hitemModel
    | error raised =>
        rw [hresult] at hback haggregate
        rw [Exec.run_bind_error hback]
        obtain ⟨hraised, hrefused⟩ := haggregate
        exact .inr ⟨hraised, m, hids, hcurrent, hrefused⟩
  · have hback : (backendHealth v typeName app now start).run s.cache = (.error raised, t) := by
      rw [backendHealth_configured hroutes, Exec.run_bind_error hrun]
    unfold liveness
    rw [Exec.run_bind_error hback]
    exact .inl hraised

/-- A server that is well until the time 3, and is then down. -/
def sampleExchange (_ : Str) (x : ℚ) : Exchange where
  health :=
    if x ≤ 3 then
      .ok { statusCode := 200, json := some (.obj [(Str.ofString "status", .text "ok")]) }
    else .error (.transport .connectError)
  models := .ok { statusCode := 404 }
  elapsedMs := 0
  utcnow := ""

/-- A gateway with one such server. -/
def sampleApp : App where
  router := some { backendRegistry := some Routing.Health.sampleRegistry }
  servers := llamaServers ⟨fun _ => [], fun _ => 0, fun _ => [], fun _ => none, fun _ => false,
    fun _ => ""⟩ id (fun _ => []) sampleExchange
  database := none
  appVersion := []
  environment := "development"

/-- A schema that takes every text. -/
def sampleSchema : Validators where
  str _ := true
  int _ := none

/-- The cache behind a call at the time 1. -/
def sampleCache : Cache :=
  ((registryHealth Routing.Health.sampleRegistry 5 sampleApp.servers (Str.ofString "a") true 1).run
    {}).2

/-- Asked at the time 4, behind a call at the time 1: the gateway says how the server was within 5
seconds. -/
theorem liveness_faithful_cached :
    ∃ cache response t, Reachable Routing.Health.sampleRegistry 5 sampleApp.servers 0 ⟨cache, 1⟩ ∧
      (liveness sampleSchema (fun _ => []) sampleApp (fun _ => 4) 4 none).run cache =
      (.ok response, t) ∧
      response.backend.reachable = true ∧
      ∃ probed, Recent 5 (fun _ => 4) Routing.Health.sampleRegistry.ids probed ∧
        Says Prod.fst
        (fun p : Str × ℚ => (sampleExchange p.1 p.2).Healthy) probed response.backend ∧
        ∀ name, response.backend.model = some name → BaseName name := by
  obtain ⟨cache, hcache⟩ : ∃ cache, cache = sampleCache := ⟨_, rfl⟩
  have hreach : Reachable Routing.Health.sampleRegistry 5 sampleApp.servers 0 ⟨cache, 1⟩ :=
    hcache ▸ Reach.init.next (a := ⟨Str.ofString "a", true, 1⟩) trivial (if_pos (by decide))
  have hreachable : ((backendHealth sampleSchema (fun _ => []) sampleApp (fun _ => 4) 4).run
      cache).1.toOption.map (·.reachable) = some true := by
    rw [hcache, backendHealth_configured ⟨_, rfl, rfl, rfl⟩]
    decide +kernel
  have hfaithful :=
    liveness_faithful sampleSchema (fun _ => []) sampleApp ⟨_, rfl, rfl, rfl⟩ rfl hreach
    (fun _ => (by decide : (1 : ℚ) ≤ 4)) 4 none
  unfold liveness at hfaithful
  rcases hback : (backendHealth sampleSchema (fun _ => []) sampleApp (fun _ => 4) 4).run cache with
    ⟨raised | backend, t⟩
  · rw [hback] at hreachable
    cases hreachable
  · rw [hback] at hreachable
    rw [Exec.run_bind_ok hback] at hfaithful
    exact ⟨cache, _, t, hreach, Exec.run_bind_ok hback, Option.some.inj hreachable, hfaithful⟩

/-- **Readiness is that of the database.** `/health/ready` reports what `/health` would report of
the backends, and answers only where that does; but its status is that of the database, whatever the
backends are like. -/
theorem readiness_eq (v : Validators) (typeName : Raised → Str) (app : App) (now : Str → ℚ)
    (start : ℚ) (requestId : Option String) (cache : Cache) :
    (readiness v typeName app now start requestId).run cache =
      match databaseOk app.database, (liveness v typeName app now start requestId).run cache with
      | .error raised, _ => (.error raised, cache)
      | .ok _, (.error raised, t) => (.error raised, t)
      | .ok ok, (.ok response, t) => (.ok {
          statusCode := if ok then 200 else 503
          status := if ok then "ready" else "not_ready"
          database := if ok then "ok" else "error"
          backend := response.backend, requestId }, t) := by
  unfold readiness liveness
  cases hdatabase : databaseOk app.database with
  | error raised => rw [Exec.run_bind_error (by rw [Exec.run_lift])]
  | ok ok =>
      rw [Exec.run_bind_ok (by rw [Exec.run_lift])]
      rcases hback : (backendHealth v typeName app now start).run cache with ⟨raised | backend, t⟩
      · rw [Exec.run_bind_error hback, Exec.run_bind_error hback]
      · rw [Exec.run_bind_ok hback, Exec.run_bind_ok hback]
        rfl

/-! ## The calls among others -/

/-- What the registry's cache keeps of a report, where the version is a text. -/
def result (report : HealthReport) : BackendHealthResult where
  state := report.state
  reachable := report.reachable
  reason := render report.reason
  elapsedMs := report.elapsedMs
  serverVersion := match report.serverVersion with
    | .str version => some version
    | _ => none
  model := report.model
  lastChecked := report.lastChecked

/-- What a caller of the backend meets. -/
def toExc : Raised → Exc
  | .transport exc => .exception exc.name
  | .exc exc => exc

/-- The outcome of a probe. -/
def outcome (probe : Except Raised HealthReport) : Except Exc BackendHealthResult :=
  (probe.map result).mapError toExc

/-- The outcome of a probe and its report say the same. -/
theorem probeResult_outcome (probe : Except Raised HealthReport) :
    probeResult (outcome probe) = outcome (probeReport probe) := by
  cases probe with
  | ok report => rfl
  | error raised =>
      cases raised with
      | transport exc => rfl
      | exc exc => cases exc <;> rfl

/-- The cache is that of the machine in which calls overlap. -/
structure Simulates (cache : Cache) (s : Routing.Health.State) : Prop where
  healthCache : ∀ id, s.healthCache id = (cache.healthCache id).map result
  healthAt : ∀ id, s.healthAt id = cache.healthAt id

variable {cache : Cache} {u : Routing.Health.State} {x : ℚ}

/-- The machine stores what the registry stores. -/
theorem Simulates.store (h : Simulates cache u) {t : Routing.Health.State} {report : HealthReport}
    (hcache : t.healthCache = Function.update u.healthCache backendId (some (result report)))
    (hat : t.healthAt = Function.update u.healthAt backendId (some x)) :
    Simulates (cache.store backendId report x) t where
  healthCache id := by
    rw [hcache]
    by_cases hid : id = backendId
    · subst hid
      rw [Function.update_self, (cache.store_self id report x).1]
      rfl
    · rw [Function.update_of_ne hid, (cache.store_other hid report x).1, h.healthCache]
  healthAt id := by
    rw [hat]
    by_cases hid : id = backendId
    · subst hid
      rw [Function.update_self, (cache.store_self id report x).2]
    · rw [Function.update_of_ne hid, (cache.store_other hid report x).2, h.healthAt]

/-- A probe that nothing overlaps: the call begins, and is answered. -/
theorem exists_run_of_probe (servers : Servers) (h : Simulates cache u) (hclock : u.clock ≤ x)
    (hcall : u.call registry healthTtl backendId force x = .probes) :
    ∃ actions t, run (Routing.Health.step registry healthTtl) u actions = some t ∧ t.clock = x ∧
      match probeReport (servers backendId x) with
      | .ok report => Simulates (cache.store backendId report x) t
      | .error _ => Simulates cache t := by
  have hbegin : Routing.Health.step registry healthTtl u (.health backendId force x) =
      some { u with clock := x, probes := u.probes ++ [{ backendId, now := x }] } := by
    simp [Routing.Health.step, hclock, Routing.Health.State.begin, hcall]
  have hprobe : (u.probes ++ [({ backendId, now := x } : Routing.Health.Probe)])[u.probes.length]? =
      some { backendId, now := x } := List.getElem?_concat_length
  have hanswer : Routing.Health.step registry healthTtl
      { u with clock := x, probes := u.probes ++ [{ backendId, now := x }] }
      (.answer u.probes.length (outcome (servers backendId x))) =
        some (Routing.Health.State.finish
          { u with clock := x, probes := u.probes ++ [{ backendId, now := x }] } u.probes.length
          { backendId, now := x } (outcome (servers backendId x))) := by
    simp only [Routing.Health.step, hprobe]
  -- a probe without another call in between is a begin and its answer
  refine ⟨[.health backendId force x, .answer u.probes.length (outcome (servers backendId x))], _,
    by rw [run_cons, hbegin, Option.bind_some, run_cons, hanswer, Option.bind_some, run_nil], ?_⟩
  unfold Routing.Health.State.finish
  rw [probeResult_outcome]
  cases probeReport (servers backendId x) with
  | ok report => exact ⟨rfl, h.store rfl rfl⟩
  | error raised => exact ⟨rfl, h.healthCache, h.healthAt⟩

/-- A call that nothing overlaps is a run of the machine in which calls overlap, from every state of
it that has the same cache; it leaves the same cache. -/
theorem registryHealth_simulated (registry : BackendRegistry) (healthTtl : ℚ) (servers : Servers)
    (backendId : Str) (force : Bool) (h : Simulates cache u) (hclock : u.clock ≤ x) :
    ∃ actions t, run (Routing.Health.step registry healthTtl) u actions = some t ∧ t.clock = x ∧
      Simulates ((registryHealth registry healthTtl servers backendId force x).run cache).2 t := by
  have hquiet : u.call registry healthTtl backendId force x ≠ .probes →
      ∃ actions t, run (Routing.Health.step registry healthTtl) u actions = some t ∧ t.clock = x ∧
        Simulates cache t := by
    intro hcall
    refine ⟨[.health backendId force x], { u with clock := x }, ?_, rfl, h.healthCache, h.healthAt⟩
    simp only [run_cons, run_nil, Routing.Health.step, hclock, if_true, Option.bind_some,
      Routing.Health.State.begin]
  have hprobes := fun hcall : u.call registry healthTtl backendId force x = .probes =>
    exists_run_of_probe servers h hclock hcall
  unfold registryHealth
  cases hget : registry.get backendId with
  | error exc =>
      obtain ⟨actions, t, hrun, hclock, hsim⟩ := hquiet (by simp [Routing.Health.State.call, hget])
      exact ⟨actions, t, hrun, hclock, hsim⟩
  | ok backend =>
      have hprobe : ∀ hcall : u.call registry healthTtl backendId force x = .probes,
          ∃ actions t, run (Routing.Health.step registry healthTtl) u actions = some t ∧
            t.clock = x ∧
            Simulates ((do
              let result ← Exec.lift (probeReport (servers backendId x))
              Exec.modify fun self => self.store backendId result x
              return result : Exec Raised Cache HealthReport).run cache).2 t := by
        intro hcall
        obtain ⟨actions, t, hrun, hclock, hsim⟩ := hprobes hcall
        refine ⟨actions, t, hrun, hclock, ?_⟩
        cases hreport : probeReport (servers backendId x) with
        | ok report =>
            rw [hreport] at hsim
            exact hsim
        | error raised =>
            rw [hreport] at hsim
            exact hsim
      rw [Exec.run_bind_ok
        (Exec.run_lift
        (x := (Except.ok backend : Except Exc InferenceBackend).mapError Raised.exc)),
        Exec.run_get_bind]
      have hentry := h.healthCache backendId
      dsimp only
      split
      · next hnone =>
          rw [hnone, Option.map_none] at hentry
          exact hprobe (by simp [Routing.Health.State.call, hget, hentry])
      · next cached hcached =>
          rw [hcached, Option.map_some] at hentry
          split
          · next hfresh =>
              refine hquiet ?_
              unfold Routing.Health.State.call
              simp only [hget, hentry, h.healthAt]
              rw [if_pos hfresh]
              simp
          · next hstale =>
              refine hprobe ?_
              unfold Routing.Health.State.call
              simp only [hget, hentry, h.healthAt]
              exact if_neg hstale

/-- **Calls that nothing overlaps are runs of the machine in which calls overlap.** Whatever calls
come one after the other, that machine has a run from its start that leaves the same cache, at the
same time. -/
theorem exists_run_of_reachable {clock : ℚ} {s : State}
    (h : Reachable registry healthTtl servers clock s) :
    ∃ actions t, run (Routing.Health.step registry healthTtl)
      (Routing.Health.State.init clock) actions = some t ∧
      t.clock = s.clock ∧ Simulates s.cache t := by
  refine Reach.invariant (I := fun s => ∃ actions t,
    run (Routing.Health.step registry healthTtl)
      (Routing.Health.State.init clock) actions = some t ∧
      t.clock = s.clock ∧ Simulates s.cache t) h
    ⟨[], _, run_nil .., rfl, fun _ => rfl, fun _ => rfl⟩ fun s call s' ⟨actions, u, hrun, hat,
      hsim⟩ _ hstep => ?_
  obtain ⟨hclock, heq⟩ := Option.ite_none_right_eq_some.mp hstep
  obtain rfl := Option.some.inj heq
  obtain ⟨more, t, hmore, ht, hsim'⟩ :=
    registryHealth_simulated registry healthTtl servers call.backendId
    call.force hsim (hat.trans_le hclock)
  exact ⟨actions ++ more, t, by rw [run_append, hrun, Option.bind_some, hmore], ht, hsim'⟩

/-- A forced call, and another at once. -/
theorem exists_run_of_reachable_twoCalls :
    ∃ s actions t, Reachable Routing.Health.sampleRegistry 5 sampleApp.servers 0 s ∧
      run (Routing.Health.step Routing.Health.sampleRegistry 5)
      (Routing.Health.State.init 0) actions = some t ∧
      t.clock = s.clock ∧ Simulates s.cache t := by
  have hfirst : Reachable Routing.Health.sampleRegistry 5 sampleApp.servers 0 _ :=
    Reach.init.next (a := ⟨Str.ofString "a", true, 1⟩) trivial (if_pos (by decide))
  have hreach : Reachable Routing.Health.sampleRegistry 5 sampleApp.servers 0 _ :=
    hfirst.next (a := ⟨Str.ofString "a", false, 1⟩) trivial (if_pos (by decide))
  obtain ⟨actions, t, hrun⟩ := exists_run_of_reachable hreach
  exact ⟨_, actions, t, hreach, hrun⟩

end SynGateway.Api.Health

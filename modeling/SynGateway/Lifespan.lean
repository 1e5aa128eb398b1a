import SynGateway.Core.Admission.Defs
import SynGateway.Db.Session
import SynGateway.Python.JsonLoads
import SynGateway.Routing.Build

/-!
# The lifespan of the application

`lifespan` of `app/main.py`, with the loop of `build_routing` that opens the configured backends,
and the HTTP client of `LlamaCppBackend`. The process keeps the clients, and a log of the calls of
`open()` and `close()`.

The startup only opens, and the one `finally` clause behind it closes only the default backend. So
every backend that was opened is closed exactly if the startup fails before it opens any, or opens
the default backend and has no routing configuration (`closesOpened_iff`).
-/

namespace SynGateway.Lifespan

open SynGateway.Backends SynGateway.Core SynGateway.Python SynGateway.Routing
open SynGateway.Db.Session (Database)

/-! ## The process -/

/-- `Environment`. -/
inductive Environment
  | development
  | testing
  | production
deriving DecidableEq, Repr

/-- The timeouts of the HTTP clients, in seconds. -/
structure Timeouts where
  timeout : ℚ
  connectTimeout : ℚ
  healthTimeout : ℚ

/-- The settings that the startup reads; `_validate_max_active` has checked the limit. -/
structure Settings where
  environment : Environment
  databaseUrl : Text
  backendType : BackendType
  backendBaseUrl : Str
  backendTimeouts : Timeouts
  routingConfigPath : Text
  maxActiveRequests : ℤ
  maxActive_pos : 0 < maxActiveRequests

/-- `LlamaCppBackend`, but for its `_client`. The number tells the instances apart. -/
structure LlamaCppBackend where
  number : ℕ
  baseUrl : Str
  timeouts : Timeouts

/-- A call of `open()` or `close()`, by the number of its backend. -/
inductive Call
  | opened (backend : ℕ)
  | closed (backend : ℕ)
deriving DecidableEq, Repr

/-- How many backends were created, their `_client`s, and `app.state.database`. The log of the calls
is not in the source. -/
structure Process (Client Engine : Type) where
  created : ℕ := 0
  clients : ℕ → Option Client := fun _ => none
  database : Option (Database Engine) := none
  calls : List Call := []

/-- What the startup leaves in `app.state`. The usage and the observability service are left out:
their constructors only assign. -/
structure AppState where
  backend : LlamaCppBackend
  router : RoutingService
  backendRegistry : Option BackendRegistry
  admission : Admission.State

/-- What the lifespan calls outside: the database engine, the file system, the HTTP library, and the
server that runs the application at the `yield`. `readText` is `none` for a path that does not
exist, `loadsLimit` what a guard of the interpreter raises, and `models` what the server at an
address answers. -/
structure Outside (Client Engine : Type) where
  createEngine : Text → List (String × Bool) → Except Exc Engine
  createAll : Option Engine → Except Exc Unit
  readText : Text → Except Exc (Option Text)
  float : Numeral → Text
  loadsLimit : Str → Option Exc
  decodeError : Str → String
  builtins : Builtins
  asyncClient : LlamaCppBackend → Except Exc Client
  aclose : Client → Except Exc Unit
  models : Str → Except Exc (List BackendModelInfo)
  serve : AppState → Except Exc Unit

variable {Client Engine : Type} (out : Outside Client Engine)

/-- A body of the process. -/
abbrev Step (Client Engine α : Type) := Exec Exc (Process Client Engine) α

/-! ## A backend -/

/-- `base_url.rstrip("/")`. -/
def rstripSlash (baseUrl : Str) : Str := baseUrl.rdropWhile (· = CodePoint.ofChar '/')

/-- `build_backend`: `LlamaCppBackend` is registered for the only type there is. -/
def buildBackend (type : BackendType) (baseUrl : Str) (timeouts : Timeouts) :
    Step Client Engine LlamaCppBackend := do
  let s ← Exec.get
  Exec.modify fun s => { s with created := s.created + 1 }
  match type with
  | .llamaCpp => return { number := s.created, baseUrl := rstripSlash baseUrl, timeouts }

namespace LlamaCppBackend

variable (self : LlamaCppBackend)

/-- `self._client = client`. -/
def setClient (client : Option Client) : Step Client Engine Unit :=
  Exec.modify fun s => { s with clients := Function.update s.clients self.number client }

/-- `_ensure_client`. -/
def ensureClient : Step Client Engine Unit := do
  let s ← Exec.get
  if (s.clients self.number).isNone then
    let client ← Exec.lift (out.asyncClient self)
    self.setClient (some client)

/-- `open`. -/
def «open» : Step Client Engine Unit := do
  Exec.modify fun s => { s with calls := s.calls ++ [.opened self.number] }
  self.ensureClient out

/-- `close`. -/
def close : Step Client Engine Unit := do
  Exec.modify fun s => { s with calls := s.calls ++ [.closed self.number] }
  let s ← Exec.get
  match s.clients self.number with
  | none => pure ()
  | some client =>
    Exec.lift (out.aclose client)
    self.setClient none

end LlamaCppBackend

/-- The instance at an address, as routing uses it. -/
def instanceAt (baseUrl : Str) : InferenceBackend where
  name := "llama_cpp"
  capabilities := [.health, .models, .chatCompletions, .streaming]
  models := out.models baseUrl

/-! ## The startup -/

/-- `load_routing_config`. -/
def loadRoutingConfig (path : Text) : Except Exc (Option (List (Str × Json))) := do
  match ← out.readText path with
  | none => return none
  | some text =>
    let text := strip text
    if text = [] then return none
    match out.loadsLimit (Str.ofText text) with
    | some exc => .error exc
    | none =>
      match loads out.float (Str.ofText text) with
      | none => reject ("routing config is not valid JSON: " ++ out.decodeError (Str.ofText text))
      | some (.obj data) => return some data
      | some _ => reject "routing config must be a JSON object"

/-- The loop over `parsed.backends`. -/
def openBackends (timeouts : Timeouts) (backendRegistry : BackendRegistry) :
    List BackendConfig → Step Client Engine BackendRegistry
  | [] => return backendRegistry
  | bc :: rest => do
    let backend ← buildBackend bc.type bc.baseUrl timeouts
    backend.open out
    openBackends timeouts (backendRegistry.register bc.id (instanceAt out backend.baseUrl)) rest

/-- `build_routing`. -/
def buildRouting (settings : Settings) (defaultBackend : LlamaCppBackend) :
    Step Client Engine (RoutingService × Option BackendRegistry) := do
  match ← Exec.lift (loadRoutingConfig out settings.routingConfigPath) with
  | none =>
    let backend := instanceAt out defaultBackend.baseUrl
    return ({ passthrough := true, getDefaultBackend := some (some backend) }, none)
  | some raw =>
    let parsed ← Exec.lift (parseRoutingConfig out.builtins raw)
    let backendRegistry ← openBackends out settings.backendTimeouts
      { backends := [] } parsed.backends
    let modelRegistry ← Exec.lift
      (ModelRegistry.new (fun s => out.builtins.repr (.str s))
        (parsed.models.map ModelConfig.entry))
    return ({ modelRegistry := some modelRegistry, backendRegistry := some backendRegistry },
      some backendRegistry)

/-- `AdmissionController(...)`, whose semaphore takes no negative value. -/
def newAdmissionController (maxActiveRequests : ℤ) : Except Exc Admission.State :=
  if maxActiveRequests < 0 then .error (.exception "Semaphore initial value must be >= 0")
  else .ok { sem := ⟨maxActiveRequests.toNat, []⟩ }

/-- The database of the startup, with its tables unless the environment is production. -/
def openDatabase (settings : Settings) : Except Exc (Database Engine) := do
  let (db, _) ← (Database.new settings.databaseUrl).connect out.createEngine
  if settings.environment ∈ [.development, .testing] then out.createAll db.engine
  return db

/-- The part of the startup behind the default backend. -/
def startServices (settings : Settings) (backend : LlamaCppBackend) :
    Step Client Engine AppState := do
  let (router, backendRegistry) ← buildRouting out settings backend
  let admission ← Exec.lift (newAdmissionController settings.maxActiveRequests)
  return { backend, router, backendRegistry, admission }

/-- The lifespan up to its `try`. -/
def startup (settings : Settings) : Step Client Engine AppState := do
  let db ← Exec.lift (openDatabase out settings)
  Exec.modify fun s => { s with database := some db }
  let backend ← buildBackend settings.backendType settings.backendBaseUrl settings.backendTimeouts
  backend.open out
  startServices out settings backend

/-- The `finally` clause. -/
def shutdown (app : AppState) : Step Client Engine Unit := do
  app.backend.close out
  Exec.modify fun s => { s with database := s.database.map fun db => db.dispose.1 }

/-- `lifespan`. -/
def lifespan (settings : Settings) : Step Client Engine Unit := do
  let app ← startup out settings
  Exec.tryFinally (Exec.lift (out.serve app)) (shutdown out app)

/-- The calls of a lifespan, in order, on a process without backends. -/
def callsOf (settings : Settings) : List Call := ((lifespan out settings).run {}).2.calls

/-! ## The calls of the startup -/

variable {out} {settings : Settings} {α : Type}

/-- The body may open backends and closes none. -/
abbrev Opens (x : Step Client Engine α) : Prop :=
  Exec.Moves (Exec.Grows Process.calls fun call => ∃ n, call = .opened n) x

/-- A backend takes the next number when it is built. -/
theorem run_buildBackend (type : BackendType) (baseUrl : Str) (timeouts : Timeouts)
    (s : Process Client Engine) :
    (buildBackend type baseUrl timeouts).run s =
      (.ok ⟨s.created, rstripSlash baseUrl, timeouts⟩, { s with created := s.created + 1 }) := by
  cases type
  rfl

/-- Nothing is opened or closed when a backend is built. -/
theorem opens_buildBackend (type : BackendType) (baseUrl : Str) (timeouts : Timeouts) :
    Opens (buildBackend type baseUrl timeouts : Step Client Engine LlamaCppBackend) := by
  intro s
  rw [run_buildBackend]
  exact Exec.Same.grows rfl

namespace LlamaCppBackend

variable {self : LlamaCppBackend} {s : Process Client Engine}

/-- The client is created without a call of the backend. -/
theorem preserves_ensureClient :
    Exec.Preserves Process.calls (self.ensureClient out : Step Client Engine Unit) := by
  refine Exec.Moves.get.bind fun s => ?_
  split
  · exact (Exec.Moves.lift _).bind fun _ => Exec.Moves.modify fun _ => rfl
  · exact Exec.Moves.pure _

/-- `open` is recorded under the number of the backend. -/
theorem calls_open : ((self.open out).run s).2.calls = s.calls ++ [.opened self.number] := by
  unfold «open»
  rw [Exec.run_modify_bind]
  exact preserves_ensureClient _

/-- `open` closes nothing. -/
theorem opens_open : Opens (self.open out : Step Client Engine Unit) := fun _ =>
  ⟨[.opened self.number], calls_open, fun _ hmem => ⟨_, List.mem_singleton.mp hmem⟩⟩

/-- `close` is recorded under the number of the backend. -/
theorem calls_close : ((self.close out).run s).2.calls = s.calls ++ [.closed self.number] := by
  unfold close
  rw [Exec.run_modify_bind, Exec.run_get_bind]
  have hrest : ∀ client : Option Client, Exec.Preserves Process.calls
      (match client with
        | none => pure ()
        | some client => do
          Exec.lift (out.aclose client)
          self.setClient none : Step Client Engine Unit) := by
    intro client
    cases client with
    | none => exact Exec.Moves.pure _
    | some client => exact (Exec.Moves.lift _).bind fun _ => Exec.Moves.modify fun _ => rfl
  exact hrest _ _

/-- A backend without a client gets one, unless the HTTP library raises. -/
theorem run_open (h : s.clients self.number = none) :
    (self.open out).run s =
      match out.asyncClient self with
      | .error exc => (.error exc, { s with calls := s.calls ++ [.opened self.number] })
      | .ok client =>
        (.ok (), { s with
          clients := Function.update s.clients self.number (some client)
          calls := s.calls ++ [.opened self.number] }) := by
  unfold «open» ensureClient
  rw [Exec.run_modify_bind, Exec.run_get_bind, if_pos (by rw [h]; rfl)]
  cases hclient : out.asyncClient self with
  | error exc => exact Exec.run_bind_error rfl
  | ok client => exact Exec.run_bind_ok rfl

end LlamaCppBackend

/-- The backends are opened one by one, and none is closed. -/
theorem opens_openBackends (timeouts : Timeouts) (backendRegistry : BackendRegistry)
    (backends : List BackendConfig) :
    Opens (openBackends out timeouts backendRegistry backends) := by
  induction backends generalizing backendRegistry with
  | nil => exact Exec.Moves.pure _
  | cons bc backends ih =>
      refine (opens_buildBackend _ _ _).bind fun backend => ?_
      exact LlamaCppBackend.opens_open.bind fun _ => ih _

/-- The first backend of the loop is opened, whatever becomes of the others. -/
theorem opened_openBackends {timeouts : Timeouts} {backendRegistry : BackendRegistry}
    {backends : List BackendConfig} (hne : backends ≠ []) {s t : Process Client Engine}
    {r : Except Exc BackendRegistry}
    (h : (openBackends out timeouts backendRegistry backends).run s = (r, t)) :
    .opened s.created ∈ t.calls := by
  cases backends with
  | nil => exact absurd rfl hne
  | cons bc backends =>
      obtain rfl : _ = t := congrArg Prod.snd h
      unfold openBackends
      rw [Exec.run_bind_ok (run_buildBackend bc.type bc.baseUrl timeouts s)]
      apply Exec.Grows.mem_bind (p := fun call => ∃ n, call = .opened n) fun _ =>
        opens_openBackends _ _ _
      rw [LlamaCppBackend.calls_open]
      exact List.mem_append_right _ (List.mem_singleton_self _)

/-- Nothing is closed while the routing is built. -/
theorem opens_buildRouting (defaultBackend : LlamaCppBackend) :
    Opens (buildRouting out settings defaultBackend) := by
  refine (Exec.Moves.lift _).bind fun raw => ?_
  cases raw with
  | none => exact Exec.Moves.pure _
  | some raw =>
      refine (Exec.Moves.lift _).bind fun parsed => ?_
      refine (opens_openBackends _ _ _).bind fun backendRegistry => ?_
      exact (Exec.Moves.lift _).bind fun _ => Exec.Moves.pure _

/-- A lifespan that gets through `build_routing` has no routing configuration, or it has opened the
next backend. -/
theorem opened_of_buildRouting {defaultBackend : LlamaCppBackend} {s t : Process Client Engine}
    {r : RoutingService × Option BackendRegistry}
    (h : (buildRouting out settings defaultBackend).run s = (.ok r, t)) :
    loadRoutingConfig out settings.routingConfigPath = .ok none ∨ .opened s.created ∈ t.calls := by
  obtain ⟨raw, hload, h⟩ := Exec.run_lift_bind_eq_ok.mp h
  cases raw with
  | none => exact .inl hload
  | some raw =>
      right
      obtain ⟨parsed, hparse, h⟩ := Exec.run_lift_bind_eq_ok.mp h
      obtain ⟨backendRegistry, u, hrun, h⟩ := Exec.run_bind_eq_ok.mp h
      obtain ⟨modelRegistry, -, h⟩ := Exec.run_lift_bind_eq_ok.mp h
      obtain ⟨-, rfl⟩ := Prod.mk.inj h
      exact opened_openBackends (backends_ne_of_parse hparse) hrun

/-! ## The routing of the startup -/

/-- The instance that `build_backend` makes for a backend of the configuration. -/
def instanceOf (out : Outside Client Engine) (bc : BackendConfig) : InferenceBackend :=
  instanceAt out (rstripSlash bc.baseUrl)

/-- The loop registers what it opens. -/
theorem openBackends_eq_ok {timeouts : Timeouts} {backendRegistry r : BackendRegistry}
    {backends : List BackendConfig} {s t : Process Client Engine}
    (h : (openBackends out timeouts backendRegistry backends).run s = (.ok r, t)) :
    backends.foldl
      (fun registry bc => registry.register bc.id (instanceOf out bc)) backendRegistry =
      r := by
  induction backends generalizing backendRegistry s with
  | nil => exact Except.ok.inj (Prod.mk.inj h).1
  | cons bc backends ih =>
      obtain ⟨backend, u, hbuild, h⟩ := Exec.run_bind_eq_ok.mp h
      rw [run_buildBackend] at hbuild
      cases hbuild
      obtain ⟨_, _, -, h⟩ := Exec.run_bind_eq_ok.mp h
      exact ih h

/-- The service of a startup is the one that routing builds from the configuration that was loaded.
-/
theorem buildRouting_refines {backend : LlamaCppBackend} {s t : Process Client Engine}
    {r : RoutingService × Option BackendRegistry}
    (h : (buildRouting out settings backend).run s = (.ok r, t)) :
    ∃ raw, loadRoutingConfig out settings.routingConfigPath = .ok raw ∧
      Routing.buildRouting out.builtins (instanceOf out)
        (some (instanceAt out backend.baseUrl)) raw =
        .ok r := by
  obtain ⟨raw, hload, h⟩ := Exec.run_lift_bind_eq_ok.mp h
  refine ⟨raw, hload, ?_⟩
  cases raw with
  | none => exact (Prod.mk.inj h).1
  | some raw =>
      obtain ⟨parsed, hparse, h⟩ := Exec.run_lift_bind_eq_ok.mp h
      obtain ⟨backendRegistry, u, hopen, h⟩ := Exec.run_bind_eq_ok.mp h
      obtain ⟨modelRegistry, hmodels, h⟩ := Exec.run_lift_bind_eq_ok.mp h
      refine bind_eq_ok.mpr ⟨parsed, hparse, bind_eq_ok.mpr ⟨modelRegistry, hmodels, ?_⟩⟩
      rw [registerBackends, openBackends_eq_ok hopen]
      exact (Prod.mk.inj h).1

/-! ## The condition -/

/-- The engine can be created, and the tables where the startup creates them. -/
def DatabaseReady (out : Outside Client Engine) (settings : Settings) : Prop :=
  ∃ engine, out.createEngine settings.databaseUrl
      (if "sqlite".toList.isPrefixOf settings.databaseUrl then [("check_same_thread", false)]
        else []) =
        .ok engine ∧
    (settings.environment ∈ [.development, .testing] → out.createAll (some engine) = .ok ())

/-- The database is opened exactly when it is ready. -/
theorem openDatabase_eq_ok_iff :
    (∃ db, openDatabase out settings = .ok db) ↔ DatabaseReady out settings := by
  unfold openDatabase DatabaseReady
  constructor
  · rintro ⟨db, h⟩
    obtain ⟨⟨db', lines⟩, hconnect, h⟩ := bind_eq_ok.mp h
    obtain ⟨engine, hengine, hconnect⟩ := bind_eq_ok.mp hconnect
    cases hconnect
    refine ⟨engine, hengine, fun henvironment => ?_⟩
    dsimp only at h
    rw [if_pos henvironment] at h
    -- in development the tables are created, which may fail too
    obtain ⟨_, htables, -⟩ := bind_eq_ok.mp h
    exact htables
  · rintro ⟨engine, hengine, htables⟩
    refine ⟨⟨settings.databaseUrl, some engine, some engine⟩,
      bind_eq_ok.mpr ⟨_, bind_eq_ok.mpr ⟨engine, hengine, rfl⟩, ?_⟩⟩
    dsimp only
    split
    · next henvironment => exact bind_eq_ok.mpr ⟨(), htables henvironment, rfl⟩
    · rfl

/-- The routing configuration does not exist, or it is blank. -/
def NoRoutingConfig (out : Outside Client Engine) (settings : Settings) : Prop :=
  out.readText settings.routingConfigPath = .ok none ∨
    ∃ text, out.readText settings.routingConfigPath = .ok (some text) ∧ strip text = []

/-- No routing configuration is loaded exactly when there is none. -/
theorem loadRoutingConfig_eq_none :
    loadRoutingConfig out settings.routingConfigPath = .ok none ↔ NoRoutingConfig out settings := by
  unfold loadRoutingConfig NoRoutingConfig
  rw [bind_eq_ok]
  constructor
  · rintro ⟨read, hread, h⟩
    cases read with
    | none => exact .inl hread
    | some text =>
        refine .inr ⟨text, hread, ?_⟩
        -- a text that is not blank is parsed, and never ends as `None`
        by_contra hne
        dsimp only at h
        rw [if_neg hne] at h
        split at h
        · cases h
        · split at h <;> cases h
  · rintro (hread | ⟨text, hread, hblank⟩)
    · exact ⟨none, hread, rfl⟩
    · exact ⟨some text, hread, if_pos hblank⟩

/-- The backend that `lifespan` builds itself. -/
def defaultBackend (settings : Settings) : LlamaCppBackend where
  number := 0
  baseUrl := rstripSlash settings.backendBaseUrl
  timeouts := settings.backendTimeouts

/-! ## The calls of a lifespan -/

/-- The process before the default backend is opened. -/
def beforeOpen (db : Database Engine) : Process Client Engine :=
  { created := 1, database := some db }

/-- The process behind a call of `open()` of the default backend that returned. -/
def afterOpen (db : Database Engine) (client : Client) : Process Client Engine where
  created := 1
  clients := Function.update (fun _ => none) 0 (some client)
  database := some db
  calls := [.opened 0]

variable {db : Database Engine} {client : Client} {exc : Exc} {app : AppState}
    {t : Process Client Engine}

/-- With a database the startup opens the default backend, and goes on. -/
theorem startup_of_ready (h : openDatabase out settings = .ok db) :
    (startup out settings).run {} = ((defaultBackend settings).open out >>= fun _ =>
      startServices out settings (defaultBackend settings)).run (beforeOpen db) := by
  unfold startup
  rw [h, Exec.run_bind_ok Exec.run_lift, Exec.run_modify_bind,
    Exec.run_bind_ok (run_buildBackend _ _ _ _)]
  rfl

/-- A default backend that cannot be opened ends the startup. -/
theorem startup_of_openError (hdb : openDatabase out settings = .ok db)
    (hclient : out.asyncClient (defaultBackend settings) = .error exc) :
    (startup out settings).run {} = (.error exc, { beforeOpen db with calls := [.opened 0] }) := by
  rw [startup_of_ready hdb]
  apply Exec.run_bind_error
  rw [LlamaCppBackend.run_open rfl, hclient]
  rfl

/-- With the default backend open the startup goes on with the services. -/
theorem startup_of_open (hdb : openDatabase out settings = .ok db)
    (hclient : out.asyncClient (defaultBackend settings) = .ok client) :
    (startup out settings).run {} =
      (startServices out settings (defaultBackend settings)).run (afterOpen db client) := by
  rw [startup_of_ready hdb]
  apply Exec.run_bind_ok
  rw [LlamaCppBackend.run_open rfl, hclient]
  rfl

/-- The services close no backend. -/
theorem opens_startServices (backend : LlamaCppBackend) :
    Opens (startServices out settings backend) :=
  (opens_buildRouting backend).bind fun _ => (Exec.Moves.lift _).bind fun _ => Exec.Moves.pure _

/-- The check of the semaphore is dead. -/
theorem newAdmissionController_eq_ok (settings : Settings) :
    newAdmissionController settings.maxActiveRequests =
      .ok { sem := ⟨settings.maxActiveRequests.toNat, []⟩ } :=
  if_neg settings.maxActive_pos.le.not_gt

/-- Without a configuration nothing behind the default backend fails. -/
theorem startServices_of_noConfig {backend : LlamaCppBackend} (h : NoRoutingConfig out settings)
    (s : Process Client Engine) :
    ∃ app, (startServices out settings backend).run s = (.ok app, s) ∧ app.backend = backend := by
  let router : RoutingService :=
    { passthrough := true, getDefaultBackend := some (some (instanceAt out backend.baseUrl)) }
  refine ⟨⟨backend, router, none, { sem := ⟨settings.maxActiveRequests.toNat, []⟩ }⟩, ?_, rfl⟩
  unfold startServices buildRouting
  rw [loadRoutingConfig_eq_none.mpr h, newAdmissionController_eq_ok]
  rfl

/-- A startup that returns has no routing configuration, or it has opened a backend of it. -/
theorem opened_of_startServices {backend : LlamaCppBackend} {s : Process Client Engine}
    (h : (startServices out settings backend).run s = (.ok app, t)) :
    app.backend = backend ∧ (NoRoutingConfig out settings ∨ .opened s.created ∈ t.calls) := by
  obtain ⟨⟨router, backendRegistry⟩, u, hrouting, h⟩ := Exec.run_bind_eq_ok.mp h
  obtain ⟨admission, -, h⟩ := Exec.run_lift_bind_eq_ok.mp h
  obtain ⟨happ, rfl⟩ := Prod.mk.inj h
  cases happ
  refine ⟨rfl, (opened_of_buildRouting hrouting).imp_left loadRoutingConfig_eq_none.mp⟩

/-- Where the startup raises there is no shutdown. -/
theorem callsOf_of_error (h : (startup out settings).run {} = (.error exc, t)) :
    callsOf out settings = t.calls := by
  unfold callsOf lifespan
  rw [Exec.run_bind_error h]

/-- The shutdown closes the default backend, and no other. -/
theorem calls_shutdown {s : Process Client Engine} :
    ((shutdown out app).run s).2.calls = s.calls ++ [.closed app.backend.number] := by
  refine (Exec.view_bind Process.calls ?_ s).trans LlamaCppBackend.calls_close
  exact fun _ => Exec.Moves.modify fun _ => rfl

/-- Whichever way the application ends, the lifespan closes its backend. -/
theorem callsOf_of_ok (h : (startup out settings).run {} = (.ok app, t)) :
    callsOf out settings = t.calls ++ [.closed app.backend.number] := by
  unfold callsOf lifespan
  rw [Exec.run_bind_ok h, Exec.run_tryFinally_state]
  exact calls_shutdown

/-! ## Every opened backend is closed -/

/-- Each backend whose `open()` was called has had its `close()` called. -/
def ClosesOpened (calls : List Call) : Prop := ∀ n, .opened n ∈ calls → .closed n ∈ calls

/-- With the default backend open, what is opened is closed only if there is nothing more to open.
-/
theorem closesOpened_of_open (hdb : openDatabase out settings = .ok db)
    (hclient : out.asyncClient (defaultBackend settings) = .ok client) :
    ClosesOpened (callsOf out settings) ↔ NoRoutingConfig out settings := by
  have hstartup := startup_of_open hdb hclient
  constructor
  · intro hcloses
    rcases hrun : (startServices out settings (defaultBackend settings)).run (afterOpen db client)
      with ⟨exc | app, t⟩
    all_goals
      have hopens := (opens_startServices _).ends hrun
      have hclosed : ∀ n, .closed n ∉ t.calls := by
        intro n hmem
        simpa [afterOpen] using hopens.mem_or hmem
    · -- the startup has failed behind the default backend
      rw [callsOf_of_error (hstartup.trans hrun)] at hcloses
      exact absurd (hcloses 0 (hopens.mem (List.mem_singleton_self _))) (hclosed 0)
    · obtain ⟨hbackend, hnone | hopen⟩ := opened_of_startServices hrun
      · exact hnone
      · -- the first backend of the configuration has number 1, and number 0 is closed
        rw [callsOf_of_ok (hstartup.trans hrun), hbackend] at hcloses
        have hmem := hcloses 1 (List.mem_append_left _ hopen)
        simp [hclosed, defaultBackend] at hmem
  · intro hnone
    obtain ⟨app, hrun, hbackend⟩ := startServices_of_noConfig hnone (afterOpen db client)
    rw [callsOf_of_ok (hstartup.trans hrun), hbackend]
    intro n hopen
    simpa [afterOpen, defaultBackend] using hopen

/-- Every opened backend is closed exactly if none is opened, or the default backend alone, and it
opens. -/
theorem closesOpened_iff (out : Outside Client Engine) (settings : Settings) :
    ClosesOpened (callsOf out settings) ↔
      ¬ DatabaseReady out settings ∨
        (NoRoutingConfig out settings ∧
          ∃ client, out.asyncClient (defaultBackend settings) = .ok client) := by
  cases hdb : openDatabase out settings with
  | error exc =>
      -- nothing was opened before the database failed
      have hnot : ¬ DatabaseReady out settings := by
        rw [← openDatabase_eq_ok_iff, hdb]
        rintro ⟨db, h⟩
        cases h
      have hrun : (startup out settings).run {} = (.error exc, {}) :=
        Exec.run_bind_error (by rw [hdb]; rfl)
      rw [callsOf_of_error hrun]
      exact iff_of_true (fun n h => absurd h List.not_mem_nil) (.inl hnot)
  | ok db =>
      have hready : DatabaseReady out settings := openDatabase_eq_ok_iff.mp ⟨db, hdb⟩
      rw [or_iff_right (not_not_intro hready)]
      cases hclient : out.asyncClient (defaultBackend settings) with
      | error exc =>
          rw [callsOf_of_error (startup_of_openError hdb hclient)]
          refine iff_of_false (fun hcloses => ?_) fun ⟨_, _, h⟩ => nomatch h
          -- the default backend was opened, and nothing closes it
          simpa using hcloses 0 (List.mem_singleton_self _)
      | ok client =>
          rw [and_iff_left ⟨client, rfl⟩]
          exact closesOpened_of_open hdb hclient

/-- A routing configuration with one backend and one model. -/
def sampleText : Text :=
  ("\x7b\"backends\": [\x7b\"id\": \"a\", \"base_url\": \"http://a\"\x7d], " ++
    "\"models\": [\x7b\"id\": \"m\", \"backend_id\": \"a\"\x7d]\x7d").toList

/-- Everything outside works, and the application ends normally. -/
def sampleOutside : Outside Unit Unit where
  createEngine _ _ := .ok ()
  createAll _ := .ok ()
  readText _ := .ok (some sampleText)
  float _ := []
  loadsLimit _ := none
  decodeError _ := ""
  builtins := sampleBuiltins
  asyncClient _ := .ok ()
  aclose _ := .ok ()
  models _ := .ok []
  serve _ := .ok ()

def sampleSettings : Settings where
  environment := .production
  databaseUrl := "sqlite:///./data/syn.db".toList
  backendType := .llamaCpp
  backendBaseUrl := Str.ofString "http://127.0.0.1:8080"
  backendTimeouts := ⟨120, 10, 5⟩
  routingConfigPath := "config/routing.json".toList
  maxActiveRequests := 1
  maxActive_pos := by decide

/-- One configured backend stays open behind a normal shutdown. -/
theorem backend_stays_open :
    ¬ ∀ (out : Outside Unit Unit) (settings : Settings), ClosesOpened (callsOf out settings) := by
  intro hall
  have hcalls : callsOf sampleOutside sampleSettings = [.opened 0, .opened 1, .closed 0] := by
    decide +kernel
  have hclosed := hall sampleOutside sampleSettings 1 (by rw [hcalls]; decide)
  rw [hcalls] at hclosed
  exact absurd hclosed (by decide)

end SynGateway.Lifespan

import Mathlib.Data.List.Destutter
import SynGateway.Backends.LlamaCpp.Defs

/-!
# The health probe of the llama.cpp backend

`health`, `models` and `runtime_model_info` of `app/backends/llama_cpp.py`. A probe asks the server
twice: for its health, and, when that is good, for its models. What the client does with the two
requests comes in as an `Exchange`, which may be anything but the answer of a server: the client
also raises.

`health_reports` says that nothing that the server does makes a probe raise, and when it is reported
as reachable. `log_foldl_record` is about any number of probes: the log tells the changes of the
state, and nothing else.
-/

namespace SynGateway.Backends.LlamaCpp

open SynGateway.Core SynGateway.Python SynGateway.Python.CodePoint SynGateway.Python.Json

/-- What a call of `health()` meets: how its two requests end, and its readings of the clocks. -/
structure Exchange where
  health : Except Raised Response
  models : Except Raised Response
  elapsedMs : ℚ
  utcnow : String

/-- `isinstance(exc, Exception)`. -/
def Raised.isException : Raised → Bool
  | .transport _ => true
  | .exc e => e.isException

/-! ## `models` -/

/-- The loop body over `data`; an item that is no object, or has no id, is skipped. -/
def modelInfo (i : Interpreter) : Json → Option BackendModelInfo
  | .obj item =>
    match dictGet item "id" with
    | none => none
    | some id =>
      if !id.truthy then none
      else some {
        id := i.str id
        object := orElse (dictGet item "object") (.text "model")
        ownedBy := orElse (dictGet item "owned_by") (.text "llamacpp")
        created := (dictGet item "created").getD .null }
  | _ => none

/-- `models`. -/
def models (i : Interpreter) (answer : Except Raised Response) :
    Except Raised (List BackendModelInfo) :=
  match answer with
  | .error (.transport exc) => .error (postError "model discovery" "" exc)
  | .error raised => .error raised
  | .ok resp =>
    if resp.statusCode ≠ 200 then
      .error (backendError .backendProtocolError
        ("model discovery returned HTTP " ++ toString resp.statusCode) "backend_protocol_error")
    else
      match resp.json with
      | none => .error (backendError .backendInvalidResponseError "invalid JSON from /v1/models"
          "backend_invalid_response")
      | some payload =>
        let data := match payload with
          | .obj members => dictGet members "data"
          | _ => none
        match data with
        | some (.arr data) => .ok (data.filterMap (modelInfo i))
        | _ => .error (backendError .backendInvalidResponseError
            "unexpected shape from /v1/models (no data array)" "backend_invalid_response")

/-! ## `runtime_model_info` -/

/-- `_sanitize_model_name`. -/
def sanitizeModelName : Option Str → Option Str
  | none => none
  | some raw =>
    if raw = [] then none
    else
      let raw := if ofChar '\\' ∈ raw ∨ ofChar '/' ∈ raw then
          (raw.map fun p => if p = ofChar '\\' then ofChar '/' else p).rtakeWhile (· ≠ ofChar '/')
        else raw
      if raw = [] then none else some raw

/-- The dictionary that `runtime_model_info` returns, if it is not empty. -/
structure RuntimeModelInfo where
  runtimeModel : Option Str
  created : Option Json

/-- `runtime_model_info`. -/
def runtimeModelInfo (i : Interpreter) (answer : Except Raised Response) :
    Except Raised (Option RuntimeModelInfo) :=
  match models i answer with
  | .error raised => if raised.isException then .ok none else .error raised
  | .ok [] => .ok none
  | .ok (first :: _) => .ok (some {
      runtimeModel := sanitizeModelName (some first.id)
      created := match first.created with
        | .null => none
        | created => some created })

/-! ## `health` -/

/-- A `BackendHealthResult` as a probe builds it. The version holds what the server reported. -/
structure HealthReport where
  state : BackendHealthState
  reachable : Bool
  reason : Str
  elapsedMs : Option ℚ := none
  serverVersion : Json := .null
  model : Option Str := none
  lastChecked : Option String := none
  reachable_iff : reachable = true ↔ state = .reachable

inductive LogLevel
  | info
  | warning
deriving DecidableEq, Repr

/-- A record of the logger `syn.backend.llama_cpp`. -/
structure LogRecord where
  level : LogLevel
  message : Str

/-- What the probes of a backend share: `_last_state`, and what has been logged. -/
structure HealthState where
  lastState : Option BackendHealthState := none
  log : List LogRecord := []

/-- The member's value. -/
def stateValue : BackendHealthState → String
  | .unknown => "unknown"
  | .reachable => "reachable"
  | .unreachable => "unreachable"
  | .timeout => "timeout"
  | .invalid => "invalid"

/-- What is logged when the state has changed to that of the report. -/
def changeRecord (baseUrl : Str) (report : HealthReport) : LogRecord :=
  if report.state = .reachable then
    { level := .info
      message := Str.ofString "backend health recovered (" ++ baseUrl ++ Str.ofString ")" }
  else
    { level := .warning
      message := Str.ofString ("backend health=" ++ stateValue report.state ++ " reason=") ++
        report.reason ++ Str.ofString " (" ++ baseUrl ++ Str.ofString ")" }

/-- "Log only on *state transitions* to avoid noisy repeated health polls." -/
def HealthState.record (baseUrl : Str) (self : HealthState) (report : HealthReport) : HealthState :=
  let prev := self.lastState
  if prev ≠ some report.state then
    let log :=
      if report.state = .reachable then
        if prev ≠ none ∧ prev ≠ some .reachable then self.log ++ [changeRecord baseUrl report]
          else self.log
      else if prev ≠ none then self.log ++ [changeRecord baseUrl report]
      else self.log
    { lastState := some report.state, log }
  else self

/-- `_record_health`. -/
def recordHealth (baseUrl : Str) (x : Exchange) (state : BackendHealthState) (reason : Str)
    (serverVersion : Json := .null) (model : Option Str := none) :
    Exec Raised HealthState HealthReport := do
  let result : HealthReport := {
    state
    reachable := state = .reachable
    reason
    elapsedMs := some x.elapsedMs
    serverVersion
    model
    lastChecked := some x.utcnow
    reachable_iff := decide_eq_true_iff }
  Exec.modify fun self => self.record baseUrl result
  return result

/-- `try: info = await self.runtime_model_info() ... except Exception: runtime_model = None`. -/
def runtimeModel (i : Interpreter) (answer : Except Raised Response) : Except Raised (Option Str) :=
  match runtimeModelInfo i answer with
  | .ok info => .ok (info.bind (·.runtimeModel))
  | .error raised => if raised.isException then .ok none else .error raised

/-- `payload.get("status") == "ok"`. -/
def statusIsOk (members : List (Str × Json)) : Bool :=
  match dictGet members "status" with
  | some (.str status) => status = Str.ofString "ok"
  | _ => false

/-- `health`; `repr` is Python's. -/
def health (i : Interpreter) (repr : Str → Str) (baseUrl : Str) (x : Exchange) :
    Exec Raised HealthState HealthReport :=
  match x.health with
  | .error (.transport exc) =>
    if exc.isInstance .timeoutException then
      recordHealth baseUrl x .timeout (Str.ofString "health probe timed out")
    else
      recordHealth baseUrl x .unreachable
        (Str.ofString ("unreachable: " ++ classifyTransportError exc))
  | .error raised => Exec.raise raised
  | .ok resp =>
    if resp.statusCode = 503 then
      recordHealth baseUrl x .unreachable (Str.ofString "server alive but model not ready (503)")
    else if resp.statusCode ≠ 200 then
      recordHealth baseUrl x .unreachable
        (Str.ofString ("unexpected health status " ++ toString resp.statusCode))
    else
      match resp.json with
      | none => recordHealth baseUrl x .invalid (Str.ofString "invalid JSON from health endpoint")
      | some payload =>
        let unexpected (label : Json) : Exec Raised HealthState HealthReport :=
          recordHealth baseUrl x .invalid
            (Str.ofString "unexpected health payload: " ++ repr ((i.str label).take 80))
        match payload with
        | .obj members =>
          if statusIsOk members then do
            let model ← Exec.lift (runtimeModel i x.models)
            recordHealth baseUrl x .reachable (Str.ofString "healthy")
              ((dictGet members "version").getD .null) model
          else unexpected ((dictGet members "status").getD .null)
        | payload => unexpected payload

/-! ## What a probe reports -/

variable {i : Interpreter} {repr : Str → Str} {baseUrl : Str} {x : Exchange} {s : HealthState}
  {report : HealthReport} {raised : Raised}

/-- The server says that it is well. -/
def Exchange.Healthy (x : Exchange) : Prop :=
  ∃ resp members, x.health = .ok resp ∧ resp.statusCode = 200 ∧ resp.json = some (.obj members) ∧
    statusIsOk members = true

/-- What the report of a probe says about the server. -/
structure Reports (i : Interpreter) (x : Exchange) (report : HealthReport) : Prop where
  reachable : report.reachable = true ↔ x.Healthy
  timeout : report.state = .timeout ↔
    ∃ exc, x.health = .error (.transport exc) ∧ exc.isInstance .timeoutException = true
  invalid : report.state = .invalid ↔ (∃ resp, x.health = .ok resp ∧ resp.statusCode = 200) ∧
    ¬ x.Healthy
  known : report.state ≠ .unknown
  model : ∀ name, report.model = some name ↔
    x.Healthy ∧ ∃ first rest, models i x.models = .ok (first :: rest) ∧
      sanitizeModelName (some first.id) = some name

/-- A probe that ends without a report: the client raised no error of the transport where the server
was asked for its health, or, behind a good answer, no `Exception` where it was asked for its
models. -/
def Raises (x : Exchange) (raised : Raised) : Prop :=
  (x.health = .error raised ∧ ∀ exc, raised ≠ .transport exc) ∨
    x.Healthy ∧ x.models = .error raised ∧ raised.isException = false

/-- `models` raises what the client raised, or a typed error. -/
theorem models_eq_error {answer : Except Raised Response} (h : models i answer = .error raised)
    (hexc : raised.isException = false) : answer = .error raised := by
  -- every way to fail but the client's own exception gives a `SynError`
  unfold models at h
  split at h
  · next exc =>
      unfold postError at h
      split at h <;> (cases h; cases hexc)
  · cases h
    rfl
  · split at h
    · cases h
      cases hexc
    · split at h
      · cases h
        cases hexc
      · dsimp only at h
        split at h
        · cases h
        · cases h
          cases hexc

/-- `models` passes on what is no error of the transport. -/
theorem models_error (hexc : raised.isException = false) :
    models i (.error raised) = .error raised := by
  cases raised with
  | transport exc => cases hexc
  | exc e => rfl

/-- The discovery of a probe: a name that it shows is that of the first model, and it raises only
what is no `Exception`. -/
theorem runtimeModel_spec (answer : Except Raised Response) :
    (∃ raised, runtimeModel i answer = .error raised ∧ answer = .error raised ∧
      raised.isException = false) ∨
    ∃ model, runtimeModel i answer = .ok model ∧
      (∀ raised, answer = .error raised → raised.isException = true) ∧
      ∀ name, model = some name ↔ ∃ first rest, models i answer = .ok (first :: rest) ∧
        sanitizeModelName (some first.id) = some name := by
  unfold runtimeModel runtimeModelInfo
  cases hmodels : models i answer with
  | error raised =>
      cases hexc : raised.isException with
      | false =>
          -- `except Exception` does not catch it, so it passes
          refine .inl ⟨raised, ?_, models_eq_error hmodels hexc, hexc⟩
          simp [hexc]
      | true =>
          refine .inr ⟨none, by simp [hexc], ?_, by simp⟩
          rintro raised' rfl
          by_contra hnot
          rw [models_error (Bool.eq_false_iff.mpr hnot)] at hmodels
          cases hmodels
          exact hnot hexc
  | ok discovered =>
      have hanswer : ∀ raised, answer = .error raised → raised.isException = true := by
        rintro raised rfl
        by_contra hnot
        rw [models_error (Bool.eq_false_iff.mpr hnot)] at hmodels
        cases hmodels
      cases discovered with
      | nil => exact .inr ⟨none, rfl, hanswer, by simp⟩
      | cons first rest => exact .inr ⟨sanitizeModelName (some first.id), rfl, hanswer, by simp⟩

/-- A report of a server that is not well, in the state `state`. -/
theorem reports_of_not_healthy {state : BackendHealthState} (hnot : ¬ x.Healthy)
    (hstate : report.state = state) (hmodel : report.model = none) (hreachable : state ≠ .reachable)
    (hknown : state ≠ .unknown)
    (htimeout : state = .timeout ↔
      ∃ exc, x.health = .error (.transport exc) ∧ exc.isInstance .timeoutException = true)
    (hinvalid : state = .invalid ↔ ∃ resp, x.health = .ok resp ∧ resp.statusCode = 200) :
    Reports i x report where
  reachable := iff_of_false (fun h => hreachable (hstate ▸ report.reachable_iff.mp h)) hnot
  timeout := hstate ▸ htimeout
  invalid := by
    rw [hstate, hinvalid]
    exact (and_iff_left hnot).symm
  known := hstate ▸ hknown
  model name := by simp [hmodel, hnot]

/-- `_record_health` reports what it is called with, and logs it. -/
theorem recordHealth_run (baseUrl : Str) (x : Exchange) (state : BackendHealthState) (reason : Str)
    (version : Json) (model : Option Str) :
    ∃ report : HealthReport, report.state = state ∧ report.model = model ∧
      report.serverVersion = version ∧
      ∀ s, (recordHealth baseUrl x state reason version model).run s =
        (.ok report, s.record baseUrl report) :=
  ⟨_, rfl, rfl, rfl, fun _ => rfl⟩

/-- A server that cannot be asked is not healthy. -/
theorem not_healthy_of_error (h : x.health = .error raised) : ¬ x.Healthy := by
  rintro ⟨resp, members, hresp, -⟩
  rw [h] at hresp
  cases hresp

/-- What the server does is never a reason to raise. -/
theorem not_raises_of_not_healthy (hnot : ¬ x.Healthy)
    (hexc : ∀ raised, x.health = .error raised → ∃ exc, raised = .transport exc) :
    ∀ raised, ¬ Raises x raised := by
  rintro raised (⟨hraised, hne⟩ | ⟨hhealthy, -⟩)
  · obtain ⟨exc, rfl⟩ := hexc raised hraised
    exact hne exc rfl
  · exact hnot hhealthy

/-- A probe whose server is not well ends with a report of the state that the branch names. -/
theorem report_of_not_healthy {state : BackendHealthState} {reason : Str} (hnot : ¬ x.Healthy)
    (hexc : ∀ raised, x.health = .error raised → ∃ exc, raised = .transport exc)
    (hreachable : state ≠ .reachable) (hknown : state ≠ .unknown)
    (htimeout : state = .timeout ↔
      ∃ exc, x.health = .error (.transport exc) ∧ exc.isInstance .timeoutException = true)
    (hinvalid : state = .invalid ↔ ∃ resp, x.health = .ok resp ∧ resp.statusCode = 200) :
    ∃ report, Reports i x report ∧ (∀ raised, ¬ Raises x raised) ∧
      ∀ s, (recordHealth baseUrl x state reason).run s = (.ok report, s.record baseUrl report) := by
  obtain ⟨report, hstate, hmodel, -, hrun⟩ := recordHealth_run baseUrl x state reason .null none
  exact ⟨report, reports_of_not_healthy hnot hstate hmodel hreachable hknown htimeout hinvalid,
    not_raises_of_not_healthy hnot hexc, hrun⟩

/-- A server that is well is asked for its models. -/
theorem health_of_healthy (i : Interpreter) (repr : Str → Str) (baseUrl : Str) (h : x.Healthy) :
    ∃ version, health i repr baseUrl x = Exec.lift (runtimeModel i x.models) >>= fun model =>
      recordHealth baseUrl x .reachable (Str.ofString "healthy") version model := by
  obtain ⟨resp, members, hresp, hstatus, hjson, hok⟩ := h
  refine ⟨(dictGet members "version").getD .null, ?_⟩
  unfold health
  simp only [hresp, hstatus, hjson, hok, if_true]
  rfl

/-- A probe reports what the server does, or raises what the client has raised. -/
theorem health_spec (i : Interpreter) (repr : Str → Str) (baseUrl : Str) (x : Exchange) :
    (∃ raised, Raises x raised ∧ ∀ s, (health i repr baseUrl x).run s = (.error raised, s)) ∨
    ∃ report, Reports i x report ∧ (∀ raised, ¬ Raises x raised) ∧
      ∀ s, (health i repr baseUrl x).run s = (.ok report, s.record baseUrl report) := by
  by_cases hhealthy : x.Healthy
  · obtain ⟨version, hhealth⟩ := health_of_healthy i repr baseUrl hhealthy
    rw [hhealth]
    -- a good answer: only the model is still asked for
    rcases runtimeModel_spec (i := i) x.models with ⟨raised, hmodel, hanswer, hexc⟩ |
      ⟨model, hmodel, hanswer, hname⟩
    · exact .inl ⟨raised, .inr ⟨hhealthy, hanswer, hexc⟩,
        fun s => Exec.run_bind_error (by rw [Exec.run_lift, hmodel])⟩
    · obtain ⟨report, hstate, hshown, -, hrun⟩ :=
        recordHealth_run baseUrl x .reachable (Str.ofString "healthy") version model
      refine .inr ⟨report, ?_, ?_, fun s => ?_⟩
      · obtain ⟨resp, members, hresp, hrest⟩ := id hhealthy
        refine ⟨iff_of_true (report.reachable_iff.mpr hstate) hhealthy, ?_, ?_, ?_, fun name => ?_⟩
        · simp [hstate, hresp]
        · simp [hstate, hhealthy]
        · simp [hstate]
        · rw [hshown, hname]
          exact (and_iff_right hhealthy).symm
      · rintro raised (⟨hraised, -⟩ | ⟨-, hmodels, hexc⟩)
        · exact not_healthy_of_error hraised hhealthy
        · rw [hanswer raised hmodels] at hexc
          cases hexc
      · rw [Exec.run_bind_ok (by rw [Exec.run_lift, hmodel])]
        exact hrun s
  · unfold health
    split
    · next exc hx =>
        have hexc : ∀ raised, x.health = .error raised → ∃ exc, raised = .transport exc := by
          intro raised hraised
          rw [hx] at hraised
          exact ⟨exc, (Except.error.inj hraised).symm⟩
        split
        · next htimeout =>
            exact .inr (report_of_not_healthy hhealthy hexc (by decide) (by decide)
              (iff_of_true rfl ⟨exc, hx, htimeout⟩) (by simp [hx]))
        · next htimeout =>
            refine .inr (report_of_not_healthy hhealthy hexc (by decide) (by decide)
              (iff_of_false (by decide) ?_) (by simp [hx]))
            rintro ⟨exc', hexc', htrue⟩
            rw [hx] at hexc'
            cases hexc'
            exact htimeout htrue
    · next raised hne hx =>
        refine .inl ⟨raised, .inl ⟨hx, ?_⟩, fun s => rfl⟩
        rintro exc rfl
        exact hne exc rfl
    · next resp hx =>
        have hexc : ∀ raised, x.health = .error raised → ∃ exc, raised = .transport exc := by
          simp [hx]
        -- the remaining branches, each with its own reason
        have hunreachable : ∀ reason, resp.statusCode ≠ 200 →
            ∃ report, Reports i x report ∧ (∀ raised, ¬ Raises x raised) ∧
              ∀ s, (recordHealth baseUrl x .unreachable reason).run s =
                (.ok report, s.record baseUrl report) := fun reason hstatus =>
          report_of_not_healthy hhealthy hexc (by decide) (by decide) (by simp [hx])
            (by simpa [hx] using hstatus)
        have hinvalid : ∀ reason, resp.statusCode = 200 →
            ∃ report, Reports i x report ∧ (∀ raised, ¬ Raises x raised) ∧
              ∀ s, (recordHealth baseUrl x .invalid reason).run s =
                (.ok report, s.record baseUrl report) := fun reason hstatus =>
          report_of_not_healthy hhealthy hexc (by decide) (by decide) (by simp [hx])
            (by simpa [hx] using hstatus)
        split
        · next hstatus => exact .inr (hunreachable _ (by omega))
        · split
          · next hstatus => exact .inr (hunreachable _ hstatus)
          · next hstatus =>
              have hstatus : resp.statusCode = 200 := not_not.mp hstatus
              split
              · exact .inr (hinvalid _ hstatus)
              · next payload hjson =>
                  dsimp only
                  split
                  · next members =>
                      have hok : ¬ statusIsOk members = true := fun hok =>
                        hhealthy ⟨resp, members, hx, hstatus, hjson, hok⟩
                      rw [if_neg hok]
                      exact .inr (hinvalid _ hstatus)
                  · exact .inr (hinvalid _ hstatus)

/-- Two reports tell of different states. -/
abbrev Changes (a b : HealthReport) : Prop := a.state ≠ b.state

/-- The reports of some probes, in the order in which they return. -/
def reports (i : Interpreter) (repr : Str → Str) (baseUrl : Str) (xs : List Exchange) :
    List HealthReport :=
  xs.filterMap fun x => ((health i repr baseUrl x).run {}).1.toOption

/-- What the probes leave. -/
def probeAll (i : Interpreter) (repr : Str → Str) (baseUrl : Str) (s : HealthState)
    (xs : List Exchange) :
    HealthState :=
  xs.foldl (fun s x => ((health i repr baseUrl x).run s).2) s

/-- The probes record their reports. -/
theorem probeAll_eq (xs : List Exchange) :
    probeAll i repr baseUrl s xs = (reports i repr baseUrl xs).foldl
    (HealthState.record baseUrl) s := by
  unfold probeAll reports
  induction xs generalizing s with
  | nil => rfl
  | cons x xs ih =>
      rw [List.foldl_cons, List.filterMap_cons, ih]
      rcases health_spec i repr baseUrl x with ⟨raised, -, hrun⟩ | ⟨report, -, -, hrun⟩
      · rw [hrun, hrun]
        rfl
      · rw [hrun, hrun]
        rfl

/-- The first entry is never a repetition. -/
theorem destutter'_eq_cons {α : Type*} (R : α → α → Prop) [DecidableRel R] (a : α) (l : List α) :
    ∃ tail, l.destutter' R a = a :: tail := by
  induction l with
  | nil => exact ⟨[], rfl⟩
  | cons b l ih =>
      rw [List.destutter'_cons]
      split
      · exact ⟨_, rfl⟩
      · exact ih

/-- Once a state is known, each change is logged, and what repeats the state is not. -/
theorem log_foldl_record (rs : List HealthReport) {last : HealthReport}
    (h : s.lastState = some last.state) :
    (rs.foldl (HealthState.record baseUrl) s).log =
      s.log ++ ((rs.destutter' Changes last).tail).map (changeRecord baseUrl) := by
  induction rs generalizing s last with
  | nil => simp
  | cons r rs ih =>
      rw [List.foldl_cons, List.destutter'_cons]
      by_cases hchange : last.state = r.state
      · -- no change of state, so `_record_health` writes no line
        have hsame : s.record baseUrl r = s := by
          unfold HealthState.record
          simp [h, hchange]
        rw [if_neg (not_not.mpr hchange), hsame]
        exact ih h
      · have hlogged : s.record baseUrl r =
            { lastState := some r.state, log := s.log ++ [changeRecord baseUrl r] } := by
          unfold HealthState.record
          simp only [h, ne_eq, Option.some.injEq, hchange, not_false_eq_true, if_true, reduceCtorEq,
            true_and]
          split
          · next hstate =>
              rw [if_pos fun hlast => hchange (hlast.trans hstate.symm)]
          · rfl
        obtain ⟨tail, htail⟩ := destutter'_eq_cons Changes r rs
        rw [if_pos hchange, hlogged, ih rfl, htail]
        simp

/-- **The log tells the changes of the health, and nothing else.** Whatever some probes meet,
however many they are and in whatever order they return: take the reports that they end with, leave
out those that repeat the state before them, and the first one. Of each that is left there is one
record, and there are no others. -/
theorem health_log_eq_changes (i : Interpreter) (repr : Str → Str) (baseUrl : Str)
    (xs : List Exchange) :
    (probeAll i repr baseUrl {} xs).log =
      (((reports i repr baseUrl xs).destutter Changes).tail).map (changeRecord baseUrl) := by
  rw [probeAll_eq]
  cases reports i repr baseUrl xs with
  | nil => rfl
  | cons r rs =>
      have hfirst : HealthState.record baseUrl {} r = { lastState := some r.state } := by
        unfold HealthState.record
        simp
      rw [List.foldl_cons, hfirst, List.destutter_cons', log_foldl_record rs rfl]
      exact List.nil_append _

end SynGateway.Backends.LlamaCpp

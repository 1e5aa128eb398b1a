import SynGateway.Api.Chat.Delivery
import SynGateway.Services.Observability

/-!
# The recorded token usage

What the upstream reports about the tokens of a request, and what its usage record says. The
streaming path has three variables for the counts and never assigns them, so its records say NULL
whatever the chunks report. The non-streaming path takes missing counts for zero, so its records
never say NULL. The records are faithful exactly when neither happens (`usage_faithful_iff`), and
then the summaries and the token quota are.
-/

namespace SynGateway.Api.Chat

open SynGateway.Backends SynGateway.Backends.LlamaCpp SynGateway.Core SynGateway.Core.Sse
open SynGateway.Python SynGateway.Python.Json SynGateway.Services

/-! ## What the upstream reports -/

/-- A report of the usage: none, three integer counts, or something else. -/
inductive Reported
  | nothing
  | counts (prompt completion total : ℤ)
  | other
deriving DecidableEq, Repr

namespace Reported

/-- The report in a body or in a chunk. -/
def ofJson : Json → Reported
  | .obj members =>
    match orElse (dictGet members "usage") .null with
    | .null => nothing
    | .obj usage =>
      match dictGet usage "prompt_tokens", dictGet usage "completion_tokens",
        dictGet usage "total_tokens" with
      | some (.int prompt), some (.int completion), some (.int total) =>
          counts prompt completion total
      | _, _, _ => other
    | _ => other
  | _ => nothing

/-- The report of a stream, so far and with one more chunk: the last counts win. -/
def next : Reported → Reported → Reported
  | _, counts prompt completion total => counts prompt completion total
  | nothing, other => other
  | sofar, _ => sofar

/-- The tokens that the upstream reported in all. -/
def total : Reported → ℤ
  | counts _ _ total => total
  | _ => 0

end Reported

/-- The JSON values in the events of a stream, up to `[DONE]`. -/
def streamedValues (i : Interpreter) (response : LlamaCpp.Response) : List Json :=
  ((sseEvents response).takeWhile fun event => !event.isDone).filterMap fun event =>
    (i.loads (Str.ofText event.data)).toOption

/-- A request to a llama.cpp backend. -/
structure ChatRun where
  env : Env
  interpreter : Interpreter
  post : Post
  request : LlamaCpp.ChatCompletionRequest
  stream : Bool

namespace ChatRun

/-- What the request does. -/
def events (run : ChatRun) : List Event :=
  if run.stream then
    streamEvents { run.env with
      upstream := upstreamOf (streamChatCompletion run.interpreter run.post run.request) }
  else completionEvents run.env ((chatCompletion run.post run.request).mapError toExc)

/-- What the upstream has reported in its answer. -/
def reported (run : ChatRun) : Reported :=
  match run.post (payload run.request run.stream) with
  | .error _ => .nothing
  | .ok response =>
    if run.stream then
      ((streamedValues run.interpreter response).map Reported.ofJson).foldl Reported.next .nothing
    else
      match response.json with
      | none => .nothing
      | some data => Reported.ofJson data

/-- The request is recorded as completed, with this row. -/
def Completed (run : ChatRun) (row : UsageRecord) :
    Prop := row ∈ records run.events ∧ row.status = .completed

/-- The report is one that the path does not lose: a stream without counts, or another answer with a
report. -/
def Kept (run : ChatRun) : Prop :=
  match run.stream, run.reported with
  | true, .counts _ _ _ => False
  | false, .nothing => False
  | _, _ => True

end ChatRun

/-- The row says what was reported: the counts, or three NULLs. -/
def Reported.RecordedIn (row : UsageRecord) : Reported → Prop
  | .nothing => row.promptTokens = .null ∧ row.completionTokens = .null ∧ row.totalTokens = .null
  | .counts prompt completion total =>
    row.promptTokens = .int prompt ∧ row.completionTokens = .int completion ∧
      row.totalTokens = .int total
  | .other => True

/-! ## The streaming path -/

/-- The token variables, and what was recorded. -/
def known (s : Frame StreamVars) : (Json × Json × Json) × List UsageRecord :=
  ((s.vars.promptTokensKnown, s.vars.completionTokensKnown, s.vars.totalTokensKnown), recordsOf s)

variable {env : Env}

/-- An event that is no record leaves the token variables. -/
theorem known_log {event : Event} (h : records [event] = []) :
    Exec.Preserves known (log event : Body StreamVars Unit) :=
  Exec.Moves.modify fun s => Prod.ext rfl (preserves_log (V := StreamVars) h s)

/-- No step of the relay touches the token variables. -/
theorem known_closed : RelayClosed (Exec.Same known) where
  suspended _ := rfl
  sent s _ := known_log rfl s
  chunkSeen _ _ := rfl

/-- The `try` block of `stream_generator` assigns no token variable. -/
theorem known_streamBody (env : Env) : Exec.Preserves known (streamBody env) := by
  unfold streamBody withAcquire
  refine (known_log rfl).bind fun _ => ?_
  refine (moves_suspend known_closed.suspended).bind fun _ => ?_
  split
  · exact Exec.Moves.raise _
  · refine (known_log rfl).bind fun _ => Exec.Moves.tryFinally ?_ (known_log rfl)
    refine Exec.Moves.bind (Exec.Moves.modify fun _ => rfl) fun _ => ?_
    refine (known_log rfl).bind fun _ => ?_
    refine (moves_relay known_closed _).bind fun _ => ?_
    exact (moves_yieldBytes known_closed _).bind fun _ => Exec.Moves.modify fun _ => rfl

/-- Nor do its `except` clauses. -/
theorem known_streamExcept {clock : Clock} {exc : Exc} {clause : Body StreamVars Unit}
    (h : clause ∈ streamExcept clock exc) : Exec.Preserves known clause :=
  moves_streamExcept (fun _ => Exec.Moves.modify fun _ => rfl)
    (fun _ => Exec.Moves.modify fun _ => rfl) h

/-- The detection of a disconnect leaves the token variables. -/
theorem detectDisconnect_tokens (v : StreamVars) :
    (detectDisconnect v).promptTokensKnown = v.promptTokensKnown ∧
      (detectDisconnect v).completionTokensKnown = v.completionTokensKnown ∧
      (detectDisconnect v).totalTokensKnown = v.totalTokensKnown := by
  unfold detectDisconnect
  split <;> exact ⟨rfl, rfl, rfl⟩

/-- A streaming request records no token counts. -/
theorem streamEvents_tokens {row : UsageRecord} (h : row ∈ records (streamEvents env)) :
    row.promptTokens = .null ∧ row.completionTokens = .null ∧ row.totalTokens = .null := by
  by_cases hadmission : env.app.admission = true
  · rw [records_streamEvents hadmission, recordsOf] at h
    -- no statement of the `try` block or its clauses assigns the counts
    have hknown : Exec.Preserves known (Exec.tryExcept (streamBody env) (streamExcept env.clock)) :=
      (known_streamBody env).tryExcept fun _ _ h => known_streamExcept h
    unfold streamGenerator streamFinally at h
    rw [Exec.run_tryFinally_state] at h
    obtain ⟨htokens, hrecords⟩ := Prod.mk.inj (hknown (started env))
    revert h htokens hrecords
    generalize ((Exec.tryExcept (streamBody env) (streamExcept env.clock)).run (started env)).2 = s
    intro h htokens hrecords
    obtain ⟨hprompt, hrest⟩ := Prod.mk.inj htokens
    obtain ⟨hcompletion, htotal⟩ := Prod.mk.inj hrest
    -- the one row is the one that `finally` writes
    have hrow : row = streamRecord env (detectDisconnect s.vars) := by
      unfold assign at h
      rw [Exec.run_modify_bind, Exec.run_get_bind, run_recordUsage, records_append] at h
      rw [recordsOf] at hrecords
      dsimp only at h
      rw [hrecords] at h
      split at h
      · exact List.mem_singleton.mp h
      · cases h
    obtain ⟨hprompt', hcompletion', htotal'⟩ := detectDisconnect_tokens s.vars
    rw [hrow]
    exact ⟨hprompt'.trans hprompt, hcompletion'.trans hcompletion, htotal'.trans htotal⟩
  · rw [streamEvents_not_wired env hadmission] at h
    cases h

/-! ## The non-streaming path -/

/-- A completed request records the counts of the backend's response. -/
theorem completionEvents_tokens {reply : Except Exc ChatCompletionResponse} {row : UsageRecord}
    (hrow : row ∈ records (completionEvents env reply)) (hstatus : row.status = .completed) :
    ∃ resp, reply = .ok resp ∧ row.promptTokens = resp.promptTokens ∧
      row.completionTokens = resp.completionTokens ∧ row.totalTokens = resp.totalTokens := by
  rw [records_completionEvents] at hrow
  change row ∈ records (completion env reply).2.events at hrow
  by_cases hadmission : env.app.admission = true
  · rcases completion_ends env reply hadmission with
      ⟨resp, v, rfl, -, -, hresp, hrecords, -⟩ | ⟨v, -, houtcome, hrecords, -⟩
    · rw [hrecords] at hrow
      split at hrow
      · obtain rfl := List.mem_singleton.mp hrow
        -- the row is made of the response that the variables hold
        refine ⟨resp, rfl, ?_⟩
        unfold completionRecord
        rw [hresp]
        exact ⟨rfl, rfl, rfl⟩
      · cases hrow
    · rw [hrecords] at hrow
      split at hrow
      · obtain rfl := List.mem_singleton.mp hrow
        -- without a reply the row is no completed one
        exact absurd hstatus houtcome
      · cases hrow
  · obtain ⟨exc, hraises⟩ := completion_not_wired _ reply hadmission
    rw [hraises] at hrow
    cases hrow

/-- What `chat_completion` returns is the body of a response with status 200, normalized. -/
theorem chatCompletion_eq_ok {post : Post} {request : LlamaCpp.ChatCompletionRequest}
    {resp : ChatCompletionResponse} (h : chatCompletion post request = .ok resp) :
    ∃ response data, post (payload request false) = .ok response ∧ response.json = some data ∧
      normalizeResponse request.model data = .ok resp := by
  unfold chatCompletion at h
  split at h
  · cases h
  · next response hpost =>
      split at h
      · cases h
      · split at h
        · cases h
        · next data hjson =>
            exact ⟨response, data, hpost, hjson, mapError_eq_ok.mp h⟩

/-- The counts of a normalized response: what the usage object of the body holds for them, and zero
for what it does not hold. -/
theorem normalizeResponse_counts {model : Str} {data : Json} {resp : ChatCompletionResponse}
    (h : normalizeResponse model data = .ok resp) :
    ∃ members usage, data = .obj members ∧ dictItems (orElse (dictGet members "usage") (.obj [])) =
      .ok usage ∧
      resp.promptTokens = (dictGet usage "prompt_tokens").getD (.int 0) ∧
      resp.completionTokens = (dictGet usage "completion_tokens").getD (.int 0) ∧
      resp.totalTokens = (dictGet usage "total_tokens").getD (.int 0) := by
  obtain ⟨members, hmembers, h⟩ := bind_eq_ok.mp h
  obtain ⟨rawChoices, -, h⟩ := bind_eq_ok.mp h
  obtain ⟨choices, -, h⟩ := bind_eq_ok.mp h
  obtain ⟨usage, husage, h⟩ := bind_eq_ok.mp h
  obtain rfl := Except.ok.inj h
  cases data with
  | obj members' =>
      obtain rfl := Except.ok.inj hmembers
      exact ⟨_, usage, rfl, husage, rfl, rfl, rfl⟩
  | _ => cases hmembers

/-- `data.get("usage") or {}` is empty for want of a report, or it is the report. -/
theorem usage_or (members : List (Str × Json)) {usage : List (Str × Json)}
    (h : dictItems (orElse (dictGet members "usage") (.obj [])) = .ok usage) :
    (orElse (dictGet members "usage") .null = .null ∧ usage = []) ∨
      orElse (dictGet members "usage") .null = .obj usage := by
  revert h
  unfold orElse
  cases dictGet members "usage" with
  | none =>
      intro h
      obtain rfl := Except.ok.inj h
      exact .inl ⟨rfl, rfl⟩
  | some value =>
      intro h
      dsimp only at h ⊢
      by_cases htruthy : value.truthy = true
      · rw [if_pos htruthy] at h ⊢
        cases value with
        | obj usage' =>
            obtain rfl := Except.ok.inj h
            exact .inr rfl
        -- a usage that is truthy and no object is refused by `dict`
        | _ => cases h
      · rw [if_neg htruthy] at h ⊢
        obtain rfl := Except.ok.inj h
        exact .inl ⟨rfl, rfl⟩

/-- What a completed request without `stream` records: the counts that were reported, but zero
instead of nothing. -/
theorem normalized_counts {model : Str} {data : Json} {resp : ChatCompletionResponse}
    (h : normalizeResponse model data = .ok resp) :
    match Reported.ofJson data with
    | .nothing => resp.promptTokens = .int 0
    | .counts prompt completion total =>
      resp.promptTokens = .int prompt ∧ resp.completionTokens = .int completion ∧
        resp.totalTokens = .int total
    | .other => True := by
  obtain ⟨members, usage, rfl, husage, hprompt, hcompletion, htotal⟩ := normalizeResponse_counts h
  rw [hprompt, hcompletion, htotal]
  unfold Reported.ofJson
  dsimp only
  rcases usage_or members husage with ⟨hnone, rfl⟩ | hsome
  · rw [hnone]
    rfl
  · rw [hsome]
    dsimp only
    split
    · next hno =>
        split at hno <;> cases hno
    · next hcounts =>
        split at hcounts
        · -- three integers: they are recorded as they are
          next hp hc ht =>
            obtain ⟨rfl, rfl, rfl⟩ := Reported.counts.inj hcounts
            rw [hp, hc, ht]
            exact ⟨rfl, rfl, rfl⟩
        · cases hcounts
    · trivial

/-! ## One request -/

/-- The row of a completed request says what was reported exactly when the path does not lose it. -/
theorem ChatRun.recordedIn_iff {run : ChatRun} {row : UsageRecord} (h : run.Completed row) :
    run.reported.RecordedIn row ↔ run.Kept := by
  obtain ⟨hrow, hstatus⟩ := h
  cases hstream : run.stream with
  | true =>
      unfold events at hrow
      rw [if_pos hstream] at hrow
      -- a stream: NULL is right only where nothing was reported
      have htokens := streamEvents_tokens hrow
      unfold Kept
      rw [hstream]
      cases run.reported with
      | nothing => exact iff_of_true htokens trivial
      | counts prompt completion total =>
          refine iff_of_false (fun hcounts => ?_) id
          have hne := htokens.1.symm.trans hcounts.1
          cases hne
      | other => exact Iff.rfl
  | false =>
      unfold events at hrow
      rw [if_neg (by simp [hstream])] at hrow
      obtain ⟨resp, hreply, hprompt, hcompletion, htotal⟩ := completionEvents_tokens hrow hstatus
      obtain ⟨response, data, hpost, hjson, hnormalize⟩ :=
        chatCompletion_eq_ok (mapError_eq_ok.mp hreply)
      have hreported : run.reported = Reported.ofJson data := by
        unfold reported
        rw [hstream, hpost]
        dsimp only
        rw [if_neg Bool.false_ne_true, hjson]
      -- no stream: the counts of the body, or zeros
      have hcounts := normalized_counts hnormalize
      unfold Kept
      rw [hstream, hreported]
      revert hcounts
      cases Reported.ofJson data with
      | nothing =>
          intro hzero
          refine iff_of_false (fun hnull => ?_) id
          have hne := hnull.1.symm.trans (hprompt.trans hzero)
          cases hne
      | counts prompt completion total =>
          rintro ⟨hp, hc, ht⟩
          exact iff_of_true ⟨hprompt.trans hp, hcompletion.trans hc, htotal.trans ht⟩ trivial
      | other => exact fun _ => Iff.rfl

/-! ## The figures of many requests -/

section Figures

variable {row : UsageRecord} {r : Reported}

/-- A row that says what was reported is one of unknown usage when nothing was. -/
theorem Reported.RecordedIn.unknownUsage (h : r.RecordedIn row) (hr : r ≠ .other) :
    row.unknownUsage = decide (r = .nothing) := by
  unfold UsageRecord.unknownUsage
  cases r with
  | nothing =>
      obtain ⟨hprompt, -, -⟩ := h
      rw [hprompt]
      rfl
  | counts prompt completion total =>
      obtain ⟨hprompt, hcompletion, htotal⟩ := h
      rw [hprompt, hcompletion, htotal]
      rfl
  | other => exact absurd rfl hr

/-- The tokens of a faithful row are those that were reported. -/
theorem Reported.RecordedIn.tokenCount (h : r.RecordedIn row) (hr : r ≠ .other) :
    row.tokenCount.getD 0 = r.total := by
  unfold UsageRecord.tokenCount
  cases r with
  | nothing =>
      rw [h.2.2]
      rfl
  | counts prompt completion total =>
      rw [h.2.2]
      rfl
  | other => exact absurd rfl hr

/-- The sum of a column counts NULL for nothing. -/
theorem sum_filterMap_getD {α : Type} (f : α → Option ℤ) (l : List α) :
    (l.filterMap f).sum = (l.map fun a => (f a).getD 0).sum := by
  induction l with
  | nil => rfl
  | cons a l ih =>
      rw [List.map_cons, List.sum_cons, ← ih]
      cases hf : f a with
      | none =>
          rw [List.filterMap_cons_none hf]
          exact (zero_add _).symm
      | some n =>
          rw [List.filterMap_cons_some hf, List.sum_cons]
          rfl

variable {runs : List (ChatRun × UsageRecord)}

/-- The rows that `summarize` looks at. -/
def summarized (now : ℤ) (apiKeyId clientId : Option String) (since until' : Option ℤ)
    (row : UsageRecord) : Bool :=
  since.getD (dayStart now) ≤ row.startedAt && row.startedAt <
    until'.getD (dayStart now + msPerDay) && row.ofKeyOrClient apiKeyId clientId

/-- The requests of unknown usage are those without a report. -/
theorem countP_unknownUsage
    (h : ∀ p ∈ runs, p.1.reported.RecordedIn p.2) (hr : ∀ p ∈ runs, p.1.reported ≠ .other)
    (now : ℤ) (apiKeyId clientId : Option String) (since until' : Option ℤ) :
    (UsageService.summarize now (runs.map Prod.snd) apiKeyId clientId since
        until').requestsWithUnknownUsage =
      runs.countP fun p =>
        summarized now apiKeyId clientId since until' p.2 && p.1.reported = .nothing := by
  unfold UsageService.summarize rowsBetween
  dsimp only
  rw [List.filter_filter, List.countP_filter, List.countP_map]
  apply List.countP_congr
  intro p hp
  have hunknown := (h p hp).unknownUsage (hr p hp)
  simp only [Function.comp_apply, summarized, hunknown]
  rw [Bool.and_comm, Bool.and_comm (UsageRecord.ofKeyOrClient _ _ _)]

/-- The tokens of a day are those that were reported on it. -/
theorem sumTokensToday_eq
    (h : ∀ p ∈ runs, p.1.reported.RecordedIn p.2) (hr : ∀ p ∈ runs, p.1.reported ≠ .other)
    (now : ℤ) (apiKeyId : String) :
    sumTokensToday (runs.map Prod.snd) now apiKeyId =
      ((runs.filter fun p => p.2.isToday now apiKeyId).map fun p => p.1.reported.total).sum := by
  unfold sumTokensToday
  rw [sum_filterMap_getD, List.filter_map, List.map_map]
  congr 1
  apply List.map_congr_left
  intro p hp
  have hmem := List.mem_of_mem_filter hp
  exact (h p hmem).tokenCount (hr p hmem)

end Figures

/-! ## Faithful usage -/

/-- The usage of completed requests is recorded faithfully: every row says what was reported.
Consequently the requests of unknown usage are those without a report, and the tokens of a day are
those that were reported, with `stream` or without. -/
def FaithfulUsage (runs : List (ChatRun × UsageRecord)) : Prop :=
  (∀ p ∈ runs, p.1.reported.RecordedIn p.2) ∧
  ((∀ p ∈ runs, p.1.reported ≠ .other) →
    (∀ now apiKeyId clientId since until',
      (UsageService.summarize now (runs.map Prod.snd) apiKeyId clientId since
        until').requestsWithUnknownUsage =
        runs.countP fun p =>
          summarized now apiKeyId clientId since until' p.2 && p.1.reported = .nothing) ∧
    ∀ now apiKeyId, sumTokensToday (runs.map Prod.snd) now apiKeyId =
      ((runs.filter fun p => p.2.isToday now apiKeyId).map fun p => p.1.reported.total).sum)

/-- **Faithful token usage.** The usage of completed requests is recorded faithfully exactly when no
stream reported counts, and every other answer reported something. -/
theorem usage_faithful_iff (runs : List (ChatRun × UsageRecord))
    (hruns : ∀ p ∈ runs, p.1.Completed p.2) :
    FaithfulUsage runs ↔ ∀ p ∈ runs, p.1.Kept := by
  constructor
  · rintro ⟨hrows, -⟩ p hp
    exact (ChatRun.recordedIn_iff (hruns p hp)).mp (hrows p hp)
  · intro hkept
    have hrows : ∀ p ∈ runs, p.1.reported.RecordedIn p.2 :=
      fun p hp => (ChatRun.recordedIn_iff (hruns p hp)).mpr (hkept p hp)
    exact ⟨hrows, fun hr => ⟨countP_unknownUsage hrows hr, sumTokensToday_eq hrows hr⟩⟩

/-! ## A stream that reports its usage -/

section Transmission

variable {i : Interpreter}

/-- The values in a transmission are the payloads of its chunks. -/
theorem streamedValues_transmission (t : Transmission i) :
    streamedValues i t.response = t.chunks.map (·.payload) := by
  obtain ⟨rest, hevents⟩ := t.sseEvents_eq
  have hchunk : ∀ u : UpstreamChunk i, u.event.event.isDone = false ∧
      i.loads (Str.ofText u.event.event.data) = .ok u.payload := by
    intro u
    obtain ⟨id, hid⟩ := u.shape.id
    have hloads := (Interpreter.loads_eq_ok u.loads).trans (congrArg some (eq_obj_of_dictGet hid))
    exact ⟨(not_isDone_of_loads hloads).1, u.loads⟩
  have hbefore : ∀ event ∈ t.chunks.map (fun u => u.event.event), (!event.isDone) = true := by
    rw [List.forall_mem_map]
    intro u _
    rw [(hchunk u).1]
    rfl
  -- what stands before the sentinel are the chunks, each with its own payload
  unfold streamedValues
  rw [hevents, List.takeWhile_append_of_pos hbefore,
    List.takeWhile_cons_of_neg (by simp [t.isDone_sentinel]), List.append_nil, List.filterMap_map]
  induction t.chunks with
  | nil => rfl
  | cons u chunks ih =>
      rw [List.map_cons, ← ih]
      apply List.filterMap_cons_some
      rw [Function.comp_apply, (hchunk u).2]
      rfl

/-- A transmission is recorded as a completed request. -/
theorem completed_transmission (hi : i.Lawful) (env : Env) (t : Transmission i)
    (request : LlamaCpp.ChatCompletionRequest) (hadmission : env.app.admission = true)
    (happ : env.app.Records) (hmodel : env.call.canonicalModel ≠ [])
    (hscalar : env.call.canonicalModel.Scalar) :
    ∃ row ∈ records (streamEvents (relayEnv env t request)), row.status = .completed := by
  obtain ⟨chunks, hupstream, hdicts⟩ := relayEnv_upstream env t request hmodel
  have hordinary : (relayEnv env t request).Ordinary := by
    refine ⟨rfl, ?_, ?_⟩
    · rw [hupstream]
      -- the chunks of a transmission hold no surrogate, so they are encoded
      intro chunk hchunk
      have hmem :=
        List.mem_map_of_mem (f := fun c => Json.obj (relayedDict env.call.canonicalModel c)) hchunk
      rw [hdicts] at hmem
      obtain ⟨u, -, hdict⟩ := List.mem_map.mp hmem
      have hdictScalar := scalar_chunkDict (i := i) hi hscalar u.scalar
      rw [hdict] at hdictScalar
      exact hdictScalar
    · rw [hupstream]
      intro exc hexc
      cases hexc
  obtain ⟨r, -, hstay, hrecords⟩ := stream_accounting (relayEnv env t request) hadmission
  have hstays : ¬ (relayEnv env t request).Disconnected := by
    -- the client of a transmission stays to its end
    rintro ⟨k, hk, -⟩
    cases hk
  have hrecs : (relayEnv env t request).app.Records := happ
  rw [hstay hstays, classify_ordinary hordinary, hupstream, if_pos hrecs] at hrecords
  obtain ⟨row, hrow, haccounting⟩ := List.map_eq_singleton_iff.mp hrecords
  exact ⟨row, hrow ▸ List.mem_singleton_self row, (Prod.mk.inj haccounting).1⟩

end Transmission

/-- A reply of the backend is recorded as a completed request. -/
theorem completed_reply {env : Env} (resp : ChatCompletionResponse) (hserved : env.Served)
    (happ : env.app.Records) :
    ∃ row ∈ records (completionEvents env (.ok resp)), row.status = .completed := by
  rw [records_completionEvents]
  change ∃ row ∈ records (completion env (.ok resp)).2.events, _
  rcases completion_ends env (.ok resp) hserved.admission with
    ⟨_, v, -, -, houtcome, -, hrecords, -⟩ | ⟨v, hnone, -⟩
  · rw [hrecords, if_pos happ]
    exact ⟨_, List.mem_singleton_self _, houtcome⟩
  · exact absurd ⟨hserved.awaited, resp, rfl⟩ hnone

/-- Three, five, and eight in all. -/
def usageMember : Str × Json := (Str.ofString "usage", .obj [(Str.ofString "prompt_tokens", .int 3),
  (Str.ofString "completion_tokens", .int 5), (Str.ofString "total_tokens", .int 8)])

/-- The last chunk of a stream, as OpenAI-compatible servers report the usage. -/
def usagePayload : Json := .obj [(Str.ofString "id", .text "a"), (Str.ofString "created", .int 1),
  (Str.ofString "choices", .arr []), usageMember]

def usageChunk : UpstreamChunk sampleInterpreter :=
  .ofPayload sampleInterpreter [] usagePayload (List.forall_mem_nil _)
    ⟨by decide, trivial, trivial, trivial, ⟨by decide, trivial, trivial, trivial, trivial⟩, trivial⟩
    (by simp [usagePayload, usageMember, Json.Scalar, ScalarMembers, ScalarItems, Json.text])
    { id := ⟨_, rfl⟩
      created := ⟨_, rfl⟩
      choices := ⟨_, rfl, List.forall_mem_nil _⟩ } rfl

/-- A stream with this chunk, and `[DONE]`. -/
def usageStream : ChatRun where
  env := sampleEnv
  interpreter := sampleInterpreter
  post _ := .ok (Transmission.ofChunks [usageChunk]).response
  request := { model := Str.ofString "m" }
  stream := true

/-- A reply with these members. -/
def replyWith (members : List (Str × Json)) : ChatRun where
  env := sampleEnv
  interpreter := sampleInterpreter
  post _ := .ok { statusCode := 200, json := some (.obj members) }
  request := { model := Str.ofString "m" }
  stream := false

/-- The sample stream is completed. -/
theorem completed_usageStream : ∃ row, usageStream.Completed row :=
  completed_transmission lawful_sampleInterpreter sampleEnv (Transmission.ofChunks [usageChunk])
    usageStream.request rfl ⟨rfl, rfl, rfl⟩ (List.cons_ne_nil _ _) (Str.scalar_ofString _)

/-- The sample stream reports its counts. -/
theorem reported_usageStream : usageStream.reported = .counts 3 5 8 := by
  have hvalues : usageStream.reported =
      ((streamedValues sampleInterpreter (Transmission.ofChunks [usageChunk]).response).map
        Reported.ofJson).foldl Reported.next .nothing := rfl
  rw [hvalues, streamedValues_transmission]
  rfl

/-- A reply that can be normalized is completed. -/
theorem completed_replyWith (members : List (Str × Json)) {resp : ChatCompletionResponse}
    (h : normalizeResponse (Str.ofString "m") (.obj members) = .ok resp) :
    ∃ row, (replyWith members).Completed row := by
  have hreply : chatCompletion (replyWith members).post (replyWith members).request = .ok resp :=
    (congrArg (Except.mapError Raised.exc) h)
  have hevents : (replyWith members).events = completionEvents sampleEnv (.ok resp) := by
    unfold ChatRun.events
    rw [if_neg (show ¬ (replyWith members).stream = true from Bool.false_ne_true), hreply]
    rfl
  unfold ChatRun.Completed
  rw [hevents]
  exact completed_reply resp served_sampleEnv ⟨rfl, rfl, rfl⟩

/-- The usage of a reply is recorded. -/
theorem usage_faithful_iff_reply :
    ∃ row, (replyWith [usageMember]).Completed row ∧ FaithfulUsage
    [(replyWith [usageMember], row)] := by
  obtain ⟨row, hrow⟩ := completed_replyWith [usageMember] rfl
  refine ⟨row, hrow, (usage_faithful_iff _ (List.forall_mem_singleton.mpr hrow)).mpr ?_⟩
  exact List.forall_mem_singleton.mpr trivial

/-- The usage of a stream is lost, and a reply without usage is recorded with zero tokens. -/
theorem usage_unfaithful :
    (∃ row, usageStream.Completed row ∧ ¬ FaithfulUsage [(usageStream, row)]) ∧
      ∃ row, (replyWith []).Completed row ∧ ¬ FaithfulUsage [(replyWith [], row)] := by
  have hlost : ∀ {run : ChatRun} {row : UsageRecord}, run.Completed row → ¬ run.Kept →
      ¬ FaithfulUsage [(run, row)] := by
    intro run row hrow hkept hfaithful
    exact hkept ((ChatRun.recordedIn_iff hrow).mp (hfaithful.1 _ (List.mem_singleton_self _)))
  constructor
  · obtain ⟨row, hrow⟩ := completed_usageStream
    refine ⟨row, hrow, hlost hrow ?_⟩
    unfold ChatRun.Kept
    rw [reported_usageStream]
    exact id
  · obtain ⟨row, hrow⟩ := completed_replyWith [] rfl
    exact ⟨row, hrow, hlost hrow id⟩

end SynGateway.Api.Chat

import SynGateway.Api.Chat.Endpoint
import SynGateway.Api.Chat.TokenUsage

/-!
# The row of a request

What a chat request writes into the usage table, from its arrival at a completion function to its
end. It is one row, or none where the record is not taken (`Served.length_rows`). `Served.outcome`
says how the request ended, from what it found alone; `Served.names_of_mem` says what each column of
the row is, for every way that the request may end.
-/

namespace SynGateway.Api.Chat

open SynGateway.Backends SynGateway.Core SynGateway.Python SynGateway.Routing SynGateway.Services

/-! ## What a request writes -/

/-- A chat request that got to its completion function. -/
structure Served where
  request : Request
  dispatch : Dispatch

namespace Served

variable (app : AppState) (p : Served)

/-- What its completion function finds. -/
def env : Env := p.request.env app p.dispatch

/-- What the backend answers it without `stream`. -/
def reply : Except Exc ChatCompletionResponse :=
  p.request.chatCompletion p.dispatch.target.backend p.dispatch.target.internalReq

/-- The rows that it writes. -/
def rows : List UsageRecord := records (completionOf app p.request p.dispatch)

/-- It gets to recording its usage, and the database takes the row. -/
def Recorded : Prop := app.admission = true ∧ (p.env app).app.Records

instance : Decidable (p.Recorded app) := inferInstanceAs (Decidable (_ ∧ _))

end Served

instance (env : Env) : Decidable env.Awaited :=
  decidable_of_iff (env.acquire = .admitted ∧ env.disconnect ≠ some 0 ∧ env.disconnect ≠ some 1)
    ⟨fun ⟨h, h₀, h₁⟩ => ⟨h, h₀, h₁⟩, fun ⟨h, h₀, h₁⟩ => ⟨h, h₀, h₁⟩⟩

namespace Served

variable (app : AppState) (p : Served)

/-- The response of the backend that it waited for. A stream has none. -/
def response : Option ChatCompletionResponse :=
  if p.request.body.stream = false ∧ (p.env app).Awaited then (p.reply).toOption else none

/-- It started on the UTC day of `now`. -/
def startedOn (now : ℤ) (p : Served) : Bool := day p.request.clock.startedAt = day now

/-- It came to its normal end: the response was there, or the stream was through before the client
left. -/
def completes : Bool :=
  if p.request.body.stream then
    !((p.env app).disconnect.any (· < (p.env app).suspensions)) && (streamEnd (p.env app)).isOk
  else (p.response app).isSome

/-- How it ended, and with which error code. A stream whose client left before its end counts as
cancelled; one whose client stayed has completed, or has failed with a typed backend error, or
counts as cancelled too: a queue that is full or times out, any other exception, and a chunk that
cannot be encoded leave it without a code. What ends a request without `stream` is told apart by
`completionOutcome`. -/
def outcome : Outcome × Option String :=
  if p.request.body.stream then
    if (p.env app).disconnect.any (· < (p.env app).suspensions) then (.cancelled, none)
    else classify (streamEnd (p.env app))
  else completionOutcome (p.env app) p.reply

/-- What the row says of its request. The counts are those of the response, which is `none` for a
stream. -/
structure Names (row : UsageRecord) : Prop where
  requestId : row.requestId = p.request.requestId
  apiKeyId : row.apiKeyId = some p.dispatch.apiKey.id
  clientId : row.clientId = some p.dispatch.client.id
  userId : row.userId = some p.dispatch.client.userId
  model : row.model =
    if p.dispatch.target.canonicalModel = [] then p.dispatch.target.internalReq.model
    else p.dispatch.target.canonicalModel
  backendId : row.backendId = p.dispatch.target.backendId.map render
  streaming : row.streaming = p.request.body.stream
  startedAt : row.startedAt = p.request.clock.startedAt
  outcome : row.accounting = p.outcome app
  promptTokens : row.promptTokens = ((p.response app).map (·.promptTokens)).getD .null
  completionTokens : row.completionTokens = ((p.response app).map (·.completionTokens)).getD .null
  totalTokens : row.totalTokens = ((p.response app).map (·.totalTokens)).getD .null

end Served

variable {app : AppState} {p : Served} {row : UsageRecord} {env : Env}

/-- `_non_streaming_completion` records what its variables say at the end: the response if it was
awaited, and none otherwise, and the outcome. -/
theorem completion_row (env : Env) (reply : Except Exc ChatCompletionResponse)
    (hadmission : env.app.admission = true) :
    ∃ v, records (completionEvents env reply) =
        (if env.app.Records then [completionRecord env v] else []) ∧
      v.internalResp = (if env.Awaited then reply.toOption else none) ∧
      v.accounting = completionOutcome env reply := by
  have hstart : PendingAt 0 { vars := {} } := ⟨⟨fun h => Outcome.noConfusion h, rfl, rfl⟩, rfl⟩
  obtain ⟨t, ht, hnothing, haccounting⟩ :=
    completion_settled env reply (s := { vars := {} }) rfl rfl rfl
  -- what follows the `try` statement records nothing more
  have hrecords : records (completionEvents env reply) =
      recordsOf ((completionFinally env).run t).2 := by
    rw [records_completionEvents, ← ht]
    unfold nonStreamingCompletion getAdmission
    rw [if_pos hadmission, Exec.run_pure_bind]
    refine (Exec.view_bind recordsOf (fun _ => Exec.Moves.get.bind fun s => ?_) _).trans ?_
    · split
      · exact Exec.Moves.raise _
      · dsimp only
        split
        · exact Exec.Moves.raise _
        · exact Exec.Moves.pure _
    · rw [Exec.run_tryFinally_state]
  refine ⟨t.vars, ?_, ?_, haccounting⟩
  · rw [hrecords]
    unfold completionFinally recordsOf
    rw [Exec.run_get_bind, run_recordUsage, records_append, hnothing]
    split <;> rfl
  · rcases (ensures_completionTry env reply).cases hstart with
      ⟨_, s, hrun, hawaited, resp, hreply, hanswered⟩ | ⟨exc, s, hrun, hpending, hnone⟩
    · rw [hrun] at ht
      obtain rfl : s = t := ht
      rw [hanswered.internalResp, if_pos hawaited, hreply]
      rfl
    · rw [hrun] at ht
      obtain rfl : s = t := ht
      rw [hpending.internalResp]
      split
      · next hawaited =>
          cases hreply : reply with
          | ok resp => exact absurd ⟨hawaited, resp, hreply⟩ hnone
          | error exc => rfl
      · rfl

/-- `stream_generator` records what its variables say at the end. -/
theorem stream_row (env : Env) (hadmission : env.app.admission = true) :
    ∃ v, records (streamEvents env) = (if env.app.Records then [streamRecord env v] else []) := by
  have hknown : Exec.Preserves known (Exec.tryExcept (streamBody env) (streamExcept env.clock)) :=
    (known_streamBody env).tryExcept fun _ _ h => known_streamExcept h
  have hrecords :
      records ((Exec.tryExcept (streamBody env) (streamExcept env.clock)).run
      (started env)).2.events = [] :=
    (Prod.mk.inj (hknown (started env))).2
  rw [records_streamEvents hadmission]
  unfold streamGenerator streamFinally assign recordsOf
  rw [Exec.run_tryFinally_state, Exec.run_modify_bind, Exec.run_get_bind, run_recordUsage,
    records_append]
  dsimp only
  rw [hrecords]
  refine ⟨detectDisconnect
    ((Exec.tryExcept (streamBody env) (streamExcept env.clock)).run (started env)).2.vars, ?_⟩
  split <;> rfl

/-- What ends with an exception is not recorded as completed. -/
theorem classify_completed {r : Except Exc Unit} : (classify r).1 = .completed ↔ r = .ok () := by
  cases r with
  | ok _ => exact iff_of_true rfl rfl
  | error exc =>
      unfold classify
      refine iff_of_false ?_ nofun
      dsimp only
      split <;> exact fun h => Outcome.noConfusion h

/-- The client leaves at a suspension that the body reaches. -/
theorem disconnected_iff : env.Disconnected ↔ env.disconnect.any (· < env.suspensions) = true := by
  unfold Env.Disconnected
  rw [Option.any_eq_true]
  simp

/-- What the row of a stream says of how it ended. -/
theorem stream_outcome (hadmission : env.app.admission = true)
    (h : row ∈ records (streamEvents env)) :
    row.accounting = if env.disconnect.any (· < env.suspensions) then (.cancelled, none)
      else classify (streamEnd env) := by
  obtain ⟨r, hleaves, hstays, hrecords⟩ := stream_accounting env hadmission
  have haccounting : row.accounting = classify r := by
    have hmem := List.mem_map_of_mem (f := UsageRecord.accounting) h
    rw [hrecords] at hmem
    split at hmem
    · exact List.mem_singleton.mp hmem
    · cases hmem
  rw [haccounting]
  by_cases hdisconnected : env.Disconnected
  · rw [if_pos (disconnected_iff.mp hdisconnected), classify_interrupted (hleaves hdisconnected)]
  · rw [if_neg fun hany => hdisconnected (disconnected_iff.mpr hany), hstays hdisconnected]

/-- A request without `stream` completes exactly if a response is awaited and received. -/
theorem completionOutcome_completed {reply : Except Exc ChatCompletionResponse} :
    (completionOutcome env reply).1 = .completed ↔
      (if env.Awaited then reply.toOption else none).isSome = true := by
  -- no exception is recorded as a completed request
  have hrefused : ∀ exc, (classifyRaised exc).1 ≠ .completed := by
    intro exc
    unfold classifyRaised classifyRefusal
    split
    · exact fun h => Outcome.noConfusion h
    · dsimp only
      split_ifs <;> exact fun h => Outcome.noConfusion h
  unfold completionOutcome
  by_cases hawaited : env.Awaited
  · rw [if_pos hawaited, if_neg hawaited.staysQueued, hawaited.admitted]
    dsimp only
    rw [if_neg hawaited.staysCalled]
    cases reply with
    | ok resp => exact iff_of_true rfl rfl
    | error exc => exact iff_of_false (hrefused exc) Bool.false_ne_true
  · rw [if_neg hawaited]
    refine iff_of_false ?_ Bool.false_ne_true
    split
    · exact fun h => Outcome.noConfusion h
    · next hqueued =>
        split
        · exact fun h => Outcome.noConfusion h
        · exact fun h => Outcome.noConfusion h
        · next hadmitted =>
            -- admitted and not awaited: the client left while the backend was at work
            have hleaves : env.disconnect = some 1 := by
              by_contra hcalled
              exact hawaited ⟨hadmitted, hqueued, hcalled⟩
            rw [if_pos hleaves]
            exact fun h => Outcome.noConfusion h

namespace Served

/-- It counts as completed exactly if it came to its normal end. -/
theorem completes_iff (app : AppState) (p : Served) :
    p.completes app = true ↔ (p.outcome app).1 = .completed := by
  unfold completes outcome
  cases hstream : p.request.body.stream with
  | true =>
      rw [if_pos rfl, if_pos rfl, Bool.and_eq_true, Bool.not_eq_true']
      split
      · next hleaves =>
          exact iff_of_false (fun h => by simp [hleaves] at h) fun h => Outcome.noConfusion h
      · next hstays =>
          rw [classify_completed]
          refine (and_iff_right (Bool.not_eq_true _ ▸ hstays)).trans ?_
          cases streamEnd (p.env app) with
          | ok _ => exact iff_of_true rfl rfl
          | error exc => exact iff_of_false Bool.false_ne_true nofun
  | false =>
      rw [if_neg Bool.false_ne_true, if_neg Bool.false_ne_true, completionOutcome_completed]
      unfold response
      simp [hstream]

end Served

namespace Served

/-- The rows of a streaming request are those of its stream. -/
theorem rows_stream (h : p.request.body.stream = true) :
    p.rows app = records (streamEvents (p.env app)) := by
  unfold rows completionOf
  rw [if_pos h]
  rfl

/-- The rows of any other request are those of its completion. -/
theorem rows_completion (h : p.request.body.stream = false) :
    p.rows app = records (completionEvents (p.env app) p.reply) := by
  unfold rows completionOf
  rw [if_neg (by simp [h])]
  rfl

/-- Without an admission controller a request records nothing. -/
theorem rows_of_not_wired (h : ¬ (p.env app).app.admission = true) : p.rows app = [] := by
  cases hstream : p.request.body.stream with
  | true =>
      rw [rows_stream hstream, streamEvents_not_wired (p.env app) h]
      rfl
  | false =>
      obtain ⟨exc, hraises⟩ := completion_not_wired (p.env app) p.reply h
      rw [rows_completion hstream, records_completionEvents]
      exact congrArg (fun ends : Except Exc Json × Frame CompletionVars => recordsOf ends.2) hraises

/-- **The row of a request** names whom it was served for, and what it came to. -/
theorem names_of_mem (h : row ∈ p.rows app) : p.Names app row := by
  by_cases hadmission : (p.env app).app.admission = true
  · cases hstream : p.request.body.stream with
    | true =>
        rw [rows_stream hstream] at h
        have hnone : p.response app = none := if_neg (by simp [hstream])
        obtain ⟨hprompt, hcompletion, htotal⟩ := streamEvents_tokens h
        have houtcome : row.accounting = p.outcome app := by
          rw [stream_outcome hadmission h]
          exact (if_pos hstream).symm
        obtain ⟨v, hrows⟩ := stream_row (p.env app) hadmission
        have hrow : row = streamRecord (p.env app) v := by
          rw [hrows] at h
          split at h
          · exact List.mem_singleton.mp h
          · cases h
        subst hrow
        refine ⟨rfl, rfl, rfl, rfl, rfl, rfl, hstream.symm, rfl, houtcome, ?_, ?_, ?_⟩
        · rw [hnone]
          exact hprompt
        · rw [hnone]
          exact hcompletion
        · rw [hnone]
          exact htotal
    | false =>
        rw [rows_completion hstream] at h
        obtain ⟨v, hrows, hresponse, haccounting⟩ := completion_row (p.env app) p.reply hadmission
        have hsame : v.internalResp = p.response app := by
          rw [hresponse]
          unfold response
          simp [hstream]
        have hrow : row = completionRecord (p.env app) v := by
          rw [hrows] at h
          split at h
          · exact List.mem_singleton.mp h
          · cases h
        subst hrow
        have houtcome : (completionRecord (p.env app) v).accounting = p.outcome app := by
          unfold outcome
          rw [if_neg (by simp [hstream])]
          exact haccounting
        refine ⟨rfl, rfl, rfl, rfl, rfl, rfl, hstream.symm, rfl, houtcome, ?_, ?_, ?_⟩
        · rw [← hsame]
          rfl
        · rw [← hsame]
          rfl
        · rw [← hsame]
          rfl
  · rw [rows_of_not_wired hadmission] at h
    cases h

/-- A request that gets to recording its usage writes one row, any other none. -/
theorem length_rows (app : AppState) (p : Served) :
    (p.rows app).length = if p.Recorded app then 1 else 0 := by
  by_cases hadmission : (p.env app).app.admission = true
  · have hrecorded : p.Recorded app ↔ (p.env app).app.Records := and_iff_right hadmission
    simp only [hrecorded]
    cases hstream : p.request.body.stream with
    | true =>
        obtain ⟨v, hrows⟩ := stream_row (p.env app) hadmission
        rw [rows_stream hstream, hrows]
        split <;> rfl
    | false =>
        obtain ⟨v, hrows, -⟩ := completion_row (p.env app) p.reply hadmission
        rw [rows_completion hstream, hrows]
        split <;> rfl
  · rw [rows_of_not_wired hadmission, if_neg fun h => hadmission h.1]
    rfl

/-- The rows of one request, as those of a list of requests. -/
theorem names_rows (app : AppState) (p : Served) :
    List.Forall₂ (Names app) ([p].filter fun p => p.Recorded app) (p.rows app) := by
  have hlength := p.length_rows app
  have hnames : ∀ row ∈ p.rows app, p.Names app row := fun _ => p.names_of_mem
  by_cases hrecorded : p.Recorded app
  · rw [if_pos hrecorded] at hlength
    obtain ⟨row, hrow⟩ := List.length_eq_one_iff.mp hlength
    rw [hrow] at hnames ⊢
    rw [List.filter_cons_of_pos (by simpa using hrecorded), List.filter_nil]
    exact .cons (hnames row List.mem_cons_self) .nil
  · rw [if_neg hrecorded] at hlength
    rw [List.length_eq_zero_iff.mp hlength, List.filter_cons_of_neg (by simpa using hrecorded),
      List.filter_nil]
    exact .nil

end Served

end SynGateway.Api.Chat

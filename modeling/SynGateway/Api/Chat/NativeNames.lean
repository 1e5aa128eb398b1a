import SynGateway.Api.Chat.Endpoint
import SynGateway.Api.Chat.Relay
import SynGateway.Backends.LlamaCpp.ModelField
import SynGateway.Routing.Renaming

/-!
# Backend-native names

In configured mode the backend's name for a model goes to the backend, and nowhere else: two runs
that differ in it, and in the `model` fields of what the backend answers, look the same to the
client and to the usage table (`native_names_hidden`).

The proof puts the two runs side by side, from `acquire()` to the usage record, and then from the
configuration to the events of the request.
-/

namespace SynGateway.Api.Chat

open SynGateway.Backends SynGateway.Backends.LlamaCpp SynGateway.Core SynGateway.Core.Sse
  SynGateway.Python
open SynGateway.Python.Json SynGateway.Routing SynGateway.Services

variable {V W : Type} {env : Env} {i : Interpreter}

/-! ## The llama.cpp backend -/

/-- What the handler meets. The backend lets no transport error out; `contained_iff` says what it
does let out. -/
def toExc : LlamaCpp.Raised → Exc
  | .exc exc => exc
  | .transport exc => .exception exc.name

/-- The request at llama.cpp backends, each with the HTTP client of its own. -/
def Request.answeredBy (r : Request) (i : Interpreter) (post : InferenceBackend → LlamaCpp.Post) :
    Request where
  requestId := r.requestId
  authorization := r.authorization
  body := r.body
  sha256 := r.sha256
  now := r.now
  commits := r.commits
  reading := r.reading
  clock := r.clock
  acquire := r.acquire
  disconnect := r.disconnect
  recordError := r.recordError
  validationError := r.validationError
  chatCompletion backend request := (LlamaCpp.chatCompletion (post backend) request).mapError toExc
  streamChatCompletion backend request :=
    upstreamOf (LlamaCpp.streamChatCompletion i (post backend) request)

/-! ## What shows of an activation -/

/-- The local variables related by `R`, and the same for the client and the usage table. -/
structure Looks (R : V → W → Prop) (s : Frame V) (t : Frame W) : Prop where
  vars : R s.vars t.vars
  sent : clientView s.events = clientView t.events
  recorded : records s.events = records t.events
  suspensions : s.suspensions = t.suspensions

section Looks

variable {R : V → W → Prop}

/-- An event that looks the same in both runs. -/
theorem agree_log {e e' : Event} (hsent : clientView [e] = clientView [e'])
    (hrecorded : records [e] = records [e']) :
    Exec.Agree (Looks R) Eq (log e : Body V Unit) (log e' : Body W Unit) := by
  refine .modify fun s t hst => { hst with sent := ?_, recorded := ?_ }
  · unfold clientView at hsent ⊢
    rw [List.filterMap_append, List.filterMap_append, hsent]
    exact congrArg (· ++ _) hst.sent
  · unfold records at hrecorded ⊢
    rw [List.filterMap_append, List.filterMap_append, hrecorded]
    exact congrArg (· ++ _) hst.recorded

/-- An assignment that keeps the relation of the variables agrees. -/
theorem agree_assign {f : V → V} {g : W → W} (h : ∀ v w, R v w → R (f v) (g w)) :
    Exec.Agree (Looks R) Eq (assign f) (assign g) :=
  .modify fun _ _ hst => { hst with vars := h _ _ hst.vars }

/-- The same assignment in both runs. -/
theorem agree_assign_same (f : V → V) : Exec.Agree (Looks Eq) Eq (assign f) (assign f) :=
  agree_assign fun _ _ h => congrArg f h

end Looks

/-- The same request under another name of the backend, and with what the backend answers to that.
-/
def Env.renamed (env : Env) (model : Str) (upstream : Upstream) : Env :=
  { env with call := { env.call with model }, upstream }

/-- `canonical_model or ...`, where there is one. -/
theorem ite_canonicalModel (hcanonical : env.call.canonicalModel ≠ []) (other : Str) :
    (if env.call.canonicalModel = [] then other else env.call.canonicalModel) =
    env.call.canonicalModel :=
  if_neg hcanonical

section Completion

variable {R : V → W → Prop} {model : Str} {upstream : Upstream}

/-- The client leaves both runs at the same suspension. -/
theorem agree_suspend (exc : Exc) :
    Exec.Agree (Looks R) Eq (suspend env exc : Body V Unit)
      (suspend (env.renamed model upstream) exc : Body W Unit) := by
  intro s t hst
  unfold suspend
  rw [Exec.run_get_bind, Exec.run_get_bind, hst.suspensions]
  have hif : Exec.Agree (Looks R) Eq
      (if env.disconnect = some t.suspensions then Exec.raise exc
        else Exec.modify fun s : Frame V => { s with suspensions := s.suspensions + 1 })
      (if env.disconnect = some t.suspensions then Exec.raise exc
        else Exec.modify fun t : Frame W => { t with suspensions := t.suspensions + 1 }) :=
    .ite (.raise exc) (.modify fun s t hst => { hst with suspensions := by rw [hst.suspensions] })
  exact hif s t hst

/-- The call of the backend, under either name, shows to no one. -/
theorem agree_called (stream : Bool) :
    Exec.Agree (Looks R) Eq (log (.called env.call.backend env.call.model stream) : Body V Unit)
      (log (.called (env.renamed model upstream).call.backend
          (env.renamed model upstream).call.model stream) :
        Body W Unit) :=
  agree_log rfl rfl

/-- Both runs get the slot, or neither. -/
theorem agree_withAcquire {E : Exc → Exc → Prop} [Std.Refl E] {body : Body V Unit}
    {body' : Body W Unit} (h : Exec.AgreeUpTo E (Looks R) Eq body body') :
    Exec.AgreeUpTo E (Looks R) Eq (withAcquire env body)
    (withAcquire (env.renamed model upstream) body') := by
  unfold withAcquire
  refine .seq (.of_agree (agree_log rfl rfl)) (.seq (.of_agree (agree_suspend _)) ?_)
  have hacquire : (env.renamed model upstream).acquire = env.acquire := rfl
  rw [hacquire]
  split
  · exact .of_agree (.raise _)
  · exact .seq (.of_agree (agree_log rfl rfl)) (.tryFinally h (.of_agree (agree_log rfl rfl)))

/-- The same row is recorded in both runs. -/
theorem agree_recordUsage (app : App) (row : UsageRecord) :
    Exec.Agree (Looks R) Eq (recordUsage app row : Body V Unit)
    (recordUsage app row : Body W Unit) := by
  unfold recordUsage
  refine .ite (.tryExcept ?_ fun exc => ?_) (.pure rfl)
  · refine .seq (.ite (.pure rfl) (.raise _)) ?_
    unfold record
    split
    · exact .raise _
    · exact agree_log rfl rfl
  · split_ifs
    · exact .some (.pure rfl)
    · exact .none

end Completion

/-! ## `stream_generator` in both runs -/

/-- The same exception, or two typed backend errors of one class. -/
def SameClause (exc exc' : Exc) : Prop :=
  exc = exc' ∨ ∃ cls, exc.backendClass = some cls ∧ exc'.backendClass = some cls

instance : Std.Refl SameClause := ⟨fun _ => .inl rfl⟩

/-- Streams whose chunks differ in their models at most, and their exceptions in what they say. -/
structure UpstreamButModel (upstream upstream' : Upstream) : Prop where
  chunks : List.Forall₂ ChunkButModel upstream.chunks upstream'.chunks
  raised : Option.Rel SameClause upstream.raised upstream'.raised

/-- What `stream_generator` gets of two streams that differ so. -/
theorem upstreamButModel_upstreamOf
    {result result' : List ChatCompletionChunk × Except LlamaCpp.Raised Unit}
    (hchunks : List.Forall₂ ChunkButModel result.1 result'.1)
    (hends : AlikeUpTo RaisedButText Eq result.2 result'.2) :
    UpstreamButModel (upstreamOf result) (upstreamOf result') where
  chunks := hchunks
  raised := by
    unfold upstreamOf
    dsimp only
    revert hends
    generalize result.2 = ends, result'.2 = ends'
    intro hends
    cases hends with
    | ok _ => exact .none
    | error h =>
        -- the exceptions may differ in the text of what could not be parsed, within one class
        rcases h with rfl | ⟨text, text', rfl, rfl⟩
        · split
          · exact .none
          · exact .some (.inl rfl)
          · exact .some (.inl rfl)
        · exact .some (.inr ⟨.backendInvalidResponseError, rfl, rfl⟩)

/-- The canonical model takes the place of either. -/
theorem relayedDict_congr {canonicalModel : Str} (hcanonical : canonicalModel ≠ [])
    {c c' : ChatCompletionChunk} (h : ChunkButModel c c') :
    relayedDict canonicalModel c = relayedDict canonicalModel c' := by
  have hmodel : ∀ c : ChatCompletionChunk,
      relayedDict canonicalModel c = relayedDict canonicalModel { c with model := [] } := by
    intro c
    rw [relayedDict_eq hcanonical, relayedDict_eq hcanonical]
  rw [hmodel c, hmodel c']
  exact congrArg _ h

section Streaming

variable {model : Str} {upstream : Upstream}

/-- The same bytes are sent in both runs. -/
theorem agree_yieldBytes (bytes : List UInt8) :
    Exec.Agree (Looks Eq) Eq (yieldBytes env bytes)
    (yieldBytes (env.renamed model upstream) bytes) := by
  unfold yieldBytes
  exact .seq (agree_log rfl rfl) (agree_suspend _)

/-- The relay loop ends in both runs with what the stream ends with. -/
theorem agree_relay (hcanonical : env.call.canonicalModel ≠ [])
    (hraised : Option.Rel SameClause env.upstream.raised upstream.raised)
    {chunks chunks' : List ChatCompletionChunk} (h : List.Forall₂ ChunkButModel chunks chunks') :
    Exec.AgreeUpTo SameClause (Looks Eq) Eq (relay env chunks)
    (relay (env.renamed model upstream) chunks') := by
  induction h with
  | nil =>
      unfold relay
      refine .seq (.of_agree (agree_suspend _)) ?_
      have hend : Option.Rel SameClause env.upstream.raised
        (env.renamed model upstream).upstream.raised := hraised
      revert hend
      generalize env.upstream.raised = raised,
        (env.renamed model upstream).upstream.raised = raised'
      intro hend
      cases hend with
      | none => exact .pure rfl
      | some hexc => exact .raise hexc
  | @cons chunk chunk' chunks chunks' hchunk _ ih =>
      unfold relay
      have hseen : Exec.Agree (Looks Eq) Eq
          (assign fun v : StreamVars =>
            { v with firstChunkTs := some (v.firstChunkTs.getD env.clock.firstChunk) })
          (assign fun v => { v with
            firstChunkTs :=
                some (v.firstChunkTs.getD (env.renamed model upstream).clock.firstChunk) }) :=
        agree_assign_same _
      refine .seq (.of_agree (agree_suspend _)) (.seq (.of_agree hseen) ?_)
      have hdict : relayedDict (env.renamed model upstream).call.canonicalModel chunk' =
          relayedDict env.call.canonicalModel chunk := (relayedDict_congr hcanonical hchunk).symm
      -- the chunk is rewritten to the canonical model before it is encoded, so both runs send one
      -- text
      rw [hdict]
      split
      · exact .raise (.inl rfl)
      · exact .seq (.of_agree (agree_yieldBytes _)) ih

/-- The clauses of `stream_generator` assign and raise, and go by the class of an exception. -/
theorem agree_streamExcept (clock : Clock) {exc exc' : Exc} (h : SameClause exc exc') :
    Option.Rel (Exec.AgreeUpTo Eq (Looks (V := StreamVars) Eq) Eq) (streamExcept clock exc)
        (streamExcept clock exc') ∧ (streamExcept clock exc = none → exc = exc') := by
  have hstop : ∀ outcome, Exec.Agree (Looks Eq) Eq (stop clock outcome) (stop clock outcome) :=
    fun _ => agree_assign_same _
  have hfailed : ∀ code, Exec.Agree (Looks Eq) Eq (stopFailed clock code) (stopFailed clock code) :=
    fun _ => .seq (hstop _) (agree_assign_same _)
  -- one exception on both sides, or two of one class, which have one clause
  rcases h with rfl | ⟨cls, hcls, hcls'⟩
  · refine ⟨?_, fun _ => rfl⟩
    cases hcls : exc.backendClass with
    | some cls =>
        rw [streamExcept_backend clock hcls]
        exact .some (.of_agree (hfailed _))
    | none =>
        rw [streamExcept_other clock hcls]
        split_ifs
        · exact .some (.of_agree (.seq (hstop _) (.raise _)))
        · exact .some (.of_agree (hstop _))
        · exact .none
  · rw [streamExcept_backend clock hcls, streamExcept_backend clock hcls']
    exact ⟨.some (.of_agree (hfailed _)), nofun⟩

/-- The row of a stream does not mention the name of the backend's model. -/
theorem streamRecord_renamed (hcanonical : env.call.canonicalModel ≠ []) (v : StreamVars) :
    streamRecord (env.renamed model upstream) v = streamRecord env v := by
  unfold streamRecord Env.renamed
  rw [ite_canonicalModel hcanonical, ite_canonicalModel hcanonical]

/-- Two upstreams that differ in the model field give the same stream. -/
theorem agree_streamGenerator (hcanonical : env.call.canonicalModel ≠ [])
    (h : UpstreamButModel env.upstream upstream) :
    Exec.Agree (Looks Eq) Eq (streamGenerator env)
    (streamGenerator (env.renamed model upstream)) := by
  have hbody : Exec.AgreeUpTo SameClause (Looks Eq) Eq (streamBody env)
      (streamBody (env.renamed model upstream)) := by
    refine agree_withAcquire
      (.seq (.of_agree (agree_assign_same _)) (.seq (.of_agree (agree_called true)) ?_))
    refine .seq (agree_relay hcanonical h.raised h.chunks) ?_
    exact .of_agree (.seq (agree_yieldBytes _) (agree_assign_same _))
  -- behind the clauses nothing is left of what differs between the exceptions
  refine .tryFinally
    (Exec.agree_iff.mpr (hbody.tryExcept fun _ _ => agree_streamExcept env.clock)) ?_
  · refine .seq (agree_assign_same _) (Exec.Agree.get.bind fun s t hst => ?_)
    rw [streamRecord_renamed hcanonical, hst.vars]
    exact agree_recordUsage _ _

/-- A streaming request looks the same in both runs. -/
theorem looks_streamEvents (hcanonical : env.call.canonicalModel ≠ [])
    (h : UpstreamButModel env.upstream upstream) :
    clientView (streamEvents env) = clientView (streamEvents (env.renamed model upstream)) ∧
      records (streamEvents env) = records (streamEvents (env.renamed model upstream)) := by
  by_cases hadmission : env.app.admission = true
  · have hserve : Exec.Agree (Looks Eq) Eq (streamGenerator env >>= fun _ => log (.sent .done))
        (streamGenerator (env.renamed model upstream) >>= fun _ => log (.sent .done)) :=
      .seq (agree_streamGenerator hcanonical h) (agree_log rfl rfl)
    have hlooks := (hserve (started env) (started env) ⟨rfl, rfl, rfl, rfl⟩).2
    unfold streamEvents
    rw [run_serveStream env hadmission, run_serveStream (env.renamed model upstream) hadmission]
    exact ⟨hlooks.sent, hlooks.recorded⟩
  · rw [streamEvents_not_wired env hadmission,
      streamEvents_not_wired (env.renamed model upstream) hadmission]
    exact ⟨rfl, rfl⟩

end Streaming

/-! ## `_non_streaming_completion` in both runs -/

/-- Variables that differ in the model of the response at most. -/
structure VarsButModel (v w : CompletionVars) : Prop where
  internalResp : Option.Rel ResponseButModel v.internalResp w.internalResp
  others : { v with internalResp := none } = { w with internalResp := none }

/-- An assignment to the other variables. -/
theorem agree_update {f : CompletionVars → CompletionVars}
    (hresp : ∀ v, (f v).internalResp = v.internalResp)
    (hothers : ∀ v, { f v with internalResp := none } = f { v with internalResp := none }) :
    Exec.Agree (Looks VarsButModel) Eq (assign f) (assign f) := by
  refine agree_assign fun v w h => ⟨?_, ?_⟩
  · rw [hresp, hresp]
    exact h.internalResp
  · rw [hothers, hothers, h.others]

section NonStreaming

variable {model : Str} {upstream : Upstream}

/-- The clauses around the call of the backend. -/
theorem agree_completionExceptBackend (clock : Clock) (exc : Exc) :
    Option.Rel (Exec.Agree (Looks VarsButModel) Eq) (completionExceptBackend clock exc)
      (completionExceptBackend clock exc) := by
  cases hcls : exc.backendClass with
  | some cls =>
      obtain ⟨what, hclause⟩ := completionExceptBackend_backend clock hcls
      rw [hclause]
      exact .some (.seq (agree_update (fun _ => rfl) fun _ => rfl) (.raise _))
  | none =>
      rw [completionExceptBackend_other clock hcls]
      exact .none

/-- The clauses around `acquire()`. -/
theorem agree_completionExceptQueue (exc : Exc) :
    Option.Rel (Exec.Agree (Looks VarsButModel) Eq) (completionExceptQueue exc)
    (completionExceptQueue exc) := by
  have hrefused : ∀ outcome default, Exec.Agree (Looks VarsButModel) Eq
      (completionRefused outcome default exc) (completionRefused outcome default exc) := by
    intro outcome default
    exact .seq (agree_update (fun _ => rfl) fun _ => rfl) (.raise exc)
  unfold completionExceptQueue
  split_ifs
  · exact .some (hrefused _ _)
  · exact .some (hrefused _ _)
  · exact .none

/-- Two replies that differ in the model field are handled alike. -/
theorem agree_completionBody {reply reply' : Except Exc ChatCompletionResponse}
    (h : Alike ResponseButModel reply reply') :
    Exec.Agree (Looks VarsButModel) Eq (completionBody env reply)
      (completionBody (env.renamed model upstream) reply') := by
  refine Exec.agree_iff.mpr
    (agree_withAcquire (Exec.agree_iff.mp (.seq (agree_update (fun _ => rfl) fun _ => rfl)
    (.tryExcept ?_ (agree_completionExceptBackend env.clock)))))
  refine .seq (agree_called false) (.seq (agree_suspend _) ?_)
  cases h with
  | error exc => exact .raise exc
  | ok hresp =>
      refine agree_assign fun v w hvw => ⟨.some hresp, ?_⟩
      exact congrArg (fun u : CompletionVars =>
        { u with backendCompleted := some env.clock.backendCompleted, outcome := .completed })
          hvw.others

/-- The row of a completion does not mention the name of the backend's model. -/
theorem completionRecord_renamed (hcanonical : env.call.canonicalModel ≠ []) {v w : CompletionVars}
    (h : VarsButModel v w) :
    completionRecord (env.renamed model upstream) w = completionRecord env v := by
  have htokens : ∀ part : ChatCompletionResponse → Json,
      (∀ r, part r = part { r with model := .null }) →
      (w.internalResp.map part).getD .null = (v.internalResp.map part).getD .null := by
    intro part hpart
    have hinternal := h.internalResp
    revert hinternal
    generalize v.internalResp = resp, w.internalResp = resp'
    intro hinternal
    cases hinternal with
    | none => rfl
    | @some r r' hresp =>
        -- the token counts do not read the model field
        calc part r' = part { r' with model := .null } := hpart r'
          _ = part { r with model := .null } := congrArg part hresp.symm
          _ = part r := (hpart r).symm
  have hothers : ∀ {α : Type} (part : CompletionVars → α),
      (∀ v, part v = part { v with internalResp := none }) → part w = part v := by
    intro α part hpart
    rw [hpart, ← h.others, ← hpart]
  unfold completionRecord Env.renamed
  rw [ite_canonicalModel hcanonical, ite_canonicalModel hcanonical,
    htokens (·.promptTokens) fun _ => rfl, htokens (·.completionTokens) fun _ => rfl,
    htokens (·.totalTokens) fun _ => rfl, hothers (·.outcome) fun _ => rfl,
    hothers (·.errorCode) fun _ => rfl, hothers (·.admissionCompleted) fun _ => rfl,
    hothers (·.backendCompleted) fun _ => rfl, hothers (·.backendStarted) fun _ => rfl]

/-- The response names the canonical model, whatever the backend said. -/
theorem apiResponse_renamed (hcanonical : env.call.canonicalModel ≠ [])
    {resp resp' : ChatCompletionResponse} (h : ResponseButModel resp resp') :
    apiResponse (env.renamed model upstream) resp' = apiResponse env resp := by
  have hresp : ∀ r : ChatCompletionResponse, apiResponse env r =
      apiResponse env { r with model := .null } :=
    fun _ => rfl
  calc apiResponse (env.renamed model upstream) resp'
      = apiResponse env resp' := by
        unfold apiResponse Env.renamed
        rw [ite_canonicalModel hcanonical, ite_canonicalModel hcanonical]
    _ = apiResponse env { resp with model := .null } := by rw [hresp resp', h]
    _ = apiResponse env resp := (hresp resp).symm

/-- A non-streaming request looks the same in both runs. -/
theorem looks_completionEvents (hcanonical : env.call.canonicalModel ≠ [])
    {reply reply' : Except Exc ChatCompletionResponse} (h : Alike ResponseButModel reply reply') :
    clientView (completionEvents env reply)
        = clientView (completionEvents (env.renamed model upstream) reply') ∧
      records (completionEvents env reply)
        = records (completionEvents (env.renamed model upstream) reply') := by
  have hbody : Exec.Agree (Looks VarsButModel) Eq (nonStreamingCompletion env reply)
      (nonStreamingCompletion (env.renamed model upstream) reply') := by
    refine .seq (.ite (.pure rfl) (.raise _)) ?_
    refine .seq (.tryFinally (.tryExcept (agree_completionBody h) agree_completionExceptQueue) ?_)
      (Exec.Agree.get.bind fun s t hst => ?_)
    · refine Exec.Agree.get.bind fun s t hst => ?_
      rw [completionRecord_renamed hcanonical hst.vars]
      exact agree_recordUsage _ _
    -- the response is built of the canonical model, whatever the backend's was
    · have hinternal := hst.vars.internalResp
      revert hinternal
      generalize s.vars.internalResp = resp, t.vars.internalResp = resp'
      intro hinternal
      cases hinternal with
      | none => exact .raise _
      | some hresp =>
          dsimp only
          rw [apiResponse_renamed hcanonical hresp]
          have happ : (env.renamed model upstream).app = env.app := rfl
          rw [happ]
          cases env.app.validationError _ with
          | some exc => exact .raise exc
          | none => exact .pure rfl
  have hhandle : ∀ exc, Option.Rel (Exec.Agree (Looks VarsButModel) Eq) (handleException env exc)
      (handleException (env.renamed model upstream) exc) := by
    intro exc
    cases exc with
    | syn error => exact .some (agree_log rfl rfl)
    | exception message => exact .some (agree_log rfl rfl)
    | cancelledError => exact .none
    | generatorExit => exact .none
  have hserve : Exec.Agree (Looks VarsButModel) Eq (serveCompletion env reply)
      (serveCompletion (env.renamed model upstream) reply') := by
    refine .tryExcept (hbody.bind fun response _ hresponse => ?_) hhandle
    rw [hresponse]
    exact agree_log rfl rfl
  have hlooks := (hserve { vars := {} } { vars := {} } ⟨⟨.none, rfl⟩, rfl, rfl, rfl⟩).2
  exact ⟨hlooks.sent, hlooks.recorded⟩

end NonStreaming

/-! ## The names that show -/

/-- What is sent to the client names the canonical model, where it names one: the chunks and the
response do, `[DONE]` and the errors do not. -/
def Sent.Named (canonical : Str) : Sent → Prop
  | .chunk bytes => bytes = formatSseDone ∨ ∃ payload, formatSse payload = some bytes ∧
      dictGet payload "model" = some (.str canonical)
  | .json _ content => ∃ members, content = .obj members ∧
      (dictGet members "model" = some (.str canonical) ∨ dictGet members "model" = none)
  | _ => True

/-- What is sent and what is recorded name the canonical model. -/
def Event.Named (canonical : Str) : Event → Prop
  | .sent what => what.Named canonical
  | .recorded row => row.model = canonical
  | _ => True

/-- An error response has no model field. -/
theorem named_errorResponse (canonical : Str) (requestId : String) (error : SynError) :
    (Sent.json (errorResponse chatPath requestId error).1
        (errorResponse chatPath requestId error).2).Named
      canonical := by
  unfold errorResponse
  split_ifs
  · exact ⟨_, rfl, .inr rfl⟩
  · exact ⟨_, rfl, .inr rfl⟩

section Named

variable {canonical : Str}

/-- What is sent for an exception has no model field. -/
theorem named_handleException {exc : Exc} {answer : Body V Unit}
    (h : answer ∈ handleException env exc) :
    Exec.Moves (Adds (Only (Event.Named canonical))) answer := by
  cases exc with
  | syn error =>
      obtain rfl := Option.some.inj h
      exact adds_log (only_singleton (named_errorResponse _ _ _))
  | exception message =>
      obtain rfl := Option.some.inj h
      exact adds_log (only_singleton trivial)
  | cancelledError => cases h
  | generatorExit => cases h

/-- Taking the slot sends and records nothing. -/
theorem named_withAcquire {body : Body V Unit}
    (h : Exec.Moves (Adds (Only (Event.Named canonical))) body) :
    Exec.Moves (Adds (Only (Event.Named canonical))) (withAcquire env body) := by
  refine (adds_log (only_singleton trivial)).bind fun _ =>
    (adds_suspend only_nil _).bind fun _ => ?_
  split
  · exact Exec.Moves.raise _
  · exact (adds_log (only_singleton trivial)).bind fun _ =>
      h.tryFinally (adds_log (only_singleton trivial))

/-- The relay loop sends every chunk under the canonical name. -/
theorem named_relay (hcanonical : env.call.canonicalModel ≠ [])
    (chunks : List ChatCompletionChunk) :
    Exec.Moves (Adds (Only (Event.Named env.call.canonicalModel))) (relay env chunks) := by
  induction chunks with
  | nil =>
      refine (adds_suspend only_nil _).bind fun _ => ?_
      split
      · exact Exec.Moves.raise _
      · exact Exec.Moves.pure ()
  | cons chunk chunks ih =>
      refine (adds_suspend only_nil _).bind fun _ => (adds_assign only_nil _).bind fun _ => ?_
      split
      · exact Exec.Moves.raise _
      · next bytes hbytes =>
          -- the rewriting puts the canonical model last, so a lookup finds it
          have hmodel : dictGet (relayedDict env.call.canonicalModel chunk) "model" =
              some (.str env.call.canonicalModel) := by
            rw [relayedDict_eq hcanonical]
            rfl
          have hsent : Event.Named env.call.canonicalModel (.sent (.chunk bytes)) :=
            .inr ⟨_, hbytes, hmodel⟩
          exact ((adds_log (only_singleton hsent)).bind fun _ => adds_suspend only_nil _).bind
            fun _ => ih

/-- Every event of a stream names the canonical model. -/
theorem named_streamEvents (hcanonical : env.call.canonicalModel ≠ []) :
    Only (Event.Named env.call.canonicalModel) (streamEvents env) := by
  by_cases hadmission : env.app.admission = true
  · have hdone : Event.Named env.call.canonicalModel (.sent (.chunk formatSseDone)) := .inl rfl
    have hgenerator :
        Exec.Moves (Adds (Only (Event.Named env.call.canonicalModel))) (streamGenerator env) := by
      refine Exec.Moves.tryFinally (.tryExcept (named_withAcquire ?_) fun _ _ h =>
        only_streamExcept h) ?_
      · refine (adds_assign only_nil _).bind fun _ =>
          (adds_log (only_singleton trivial)).bind fun _ => ?_
        refine (named_relay hcanonical _).bind fun _ => ?_
        refine ((adds_log (only_singleton hdone)).bind fun _ => adds_suspend only_nil _).bind
          fun _ => ?_
        exact adds_assign only_nil _
      · refine (adds_assign only_nil _).bind fun _ => Exec.Moves.get.bind fun s => ?_
        have hrow : Event.Named env.call.canonicalModel (.recorded (streamRecord env s.vars)) :=
          if_neg hcanonical
        exact only_recordUsage hrow _
    have hserve : Exec.Moves (Adds (Only (Event.Named env.call.canonicalModel)))
        (streamGenerator env >>= fun _ => log (.sent .done)) :=
      hgenerator.bind fun _ => adds_log (only_singleton trivial)
    obtain ⟨es, hes, honly⟩ := hserve (started env)
    unfold streamEvents
    rw [run_serveStream env hadmission, hes]
    exact (only_singleton trivial).append honly
  -- an error names no model
  · have hanswer := named_errorResponse env.call.canonicalModel env.call.requestId
      (ErrorClass.synError.new (some "admission controller not available")
        (some "admission_not_wired") (some 503) none)
    rw [streamEvents_not_wired env hadmission]
    unfold notWired
    revert hanswer
    generalize errorResponse chatPath env.call.requestId _ = answer
    exact fun hanswer => only_singleton hanswer

/-- What `_non_streaming_completion` returns is the response that it builds. -/
theorem nonStreamingCompletion_eq_ok {reply : Except Exc ChatCompletionResponse}
    {s t : Frame CompletionVars} {response : Json}
    (h : (nonStreamingCompletion env reply).run s = (.ok response, t)) :
    ∃ resp, response = apiResponse env resp := by
  obtain ⟨_, _, -, h⟩ := Exec.run_bind_eq_ok.mp h
  obtain ⟨_, _, -, h⟩ := Exec.run_bind_eq_ok.mp h
  rw [Exec.run_get_bind] at h
  split at h
  · cases h
  · next resp _ =>
      dsimp only at h
      split at h
      · cases h
      · cases h
        exact ⟨resp, rfl⟩

/-- Every event of a completion names the canonical model. -/
theorem named_completionEvents (hcanonical : env.call.canonicalModel ≠ [])
    (reply : Except Exc ChatCompletionResponse) :
    Only (Event.Named env.call.canonicalModel) (completionEvents env reply) := by
  have hbody : Exec.Moves (Adds (Only (Event.Named env.call.canonicalModel)))
      (completionBody env reply) := by
    refine named_withAcquire ((adds_assign only_nil _).bind fun _ =>
      .tryExcept ?_ fun _ _ h => only_completionExceptBackend h)
    refine (adds_log (only_singleton trivial)).bind fun _ =>
      (adds_suspend only_nil _).bind fun _ => ?_
    cases reply with
    | error exc => exact Exec.Moves.raise exc
    | ok resp => exact adds_assign only_nil _
  have hcompletion : Exec.Moves (Adds (Only (Event.Named env.call.canonicalModel)))
      (nonStreamingCompletion env reply) := by
    have hwired : Exec.Moves (Adds (Only (Event.Named env.call.canonicalModel)))
        (getAdmission env.app : Body CompletionVars Unit) := by
      unfold getAdmission
      split_ifs
      · exact Exec.Moves.pure ()
      · exact Exec.Moves.raise _
    refine hwired.bind fun _ =>
      Exec.Moves.bind (.tryFinally (.tryExcept hbody fun _ _ h => only_completionExceptQueue h) ?_)
      fun _ => ?_
    · refine Exec.Moves.get.bind fun s => ?_
      have hrow : Event.Named env.call.canonicalModel (.recorded (completionRecord env s.vars)) :=
        if_neg hcanonical
      exact only_recordUsage hrow _
    · refine Exec.Moves.get.bind fun s => ?_
      split
      · exact Exec.Moves.raise _
      · dsimp only
        split
        · exact Exec.Moves.raise _
        · exact Exec.Moves.pure _
  have hserve : Exec.Moves (Adds (Only (Event.Named env.call.canonicalModel)))
      (serveCompletion env reply) := by
    refine Exec.Moves.tryExcept (hcompletion.bind_run fun s response t hrun => ?_)
      fun _ _ h => named_handleException h
    -- what is returned is a response that was built here
    obtain ⟨resp, rfl⟩ := nonStreamingCompletion_eq_ok hrun
    have hmodel :
        Event.Named env.call.canonicalModel (.sent (.json 200 (apiResponse env resp))) := by
      refine ⟨_, rfl, .inl ?_⟩
      change some (Json.str (if env.call.canonicalModel = [] then _ else _)) = _
      rw [if_neg hcanonical]
    exact adds_log (only_singleton hmodel) t
  obtain ⟨es, hes, honly⟩ := hserve { vars := {} }
  unfold completionEvents
  rw [hes]
  exact honly

end Named

/-! ## The request in both runs -/

/-- The same target, under another name of the backend. -/
def Target.Renames (t t' : Target) : Prop :=
  t' = { t with internalReq := { t.internalReq with model := t'.internalReq.model } }

/-- The same dispatch, under another name of the backend. -/
structure Dispatch.Renames (d d' : Dispatch) : Prop where
  principal : d.principal = d'.principal
  apiKey : d.apiKey = d'.apiKey
  client : d.client = d'.client
  target : d.target.Renames d'.target

section Request

variable {app : AppState} {r : Request} {s : Store} {routing routing' : RoutingService}

/-- The application, with a router. -/
def AppState.routed (app : AppState) (routing : RoutingService) : AppState :=
  { app with router := some routing }

/-- Decisions that differ in the backend's name give targets that do. -/
theorem alike_targetConfigured {body : APIChatCompletionRequest}
    {principal : AuthenticatedPrincipal}
    (h : Alike RouteDecision.Renames (routing.route body.model principal)
      (routing'.route body.model principal)) :
    Alike Target.Renames (targetConfigured routing body principal)
    (targetConfigured routing' body principal) := by
  refine h.bind fun decision decision' hdecision => ?_
  rw [hdecision]
  refine (Alike.refl (fun _ => rfl) _).bind fun _ _ _ => ?_
  exact (Alike.refl (fun _ => rfl) _).bind fun _ _ _ => .ok rfl

/-- The checks end alike in both runs. -/
theorem agree_createChatCompletion (hconfigured : routing.configured = true)
    (hconfigured' : routing'.configured = true)
    (hroute : ∀ principal, Alike RouteDecision.Renames (routing.route r.body.model principal)
      (routing'.route r.body.model principal)) :
    Exec.Agree Eq Dispatch.Renames (createChatCompletion (app.routed routing) r)
      (createChatCompletion (app.routed routing') r) := by
  have hchoose : ∀ {routing : RoutingService}, routing.configured = true → ∀ principal,
      chooseTarget (app.routed routing) r.body principal =
          targetConfigured routing r.body principal :=
    fun hconfigured _ => if_pos hconfigured
  refine (Exec.Agree.refl (authenticate app r)).bind fun checked checked' hchecked => ?_
  subst hchecked
  refine (Exec.Agree.refl (checkUsage app r checked.2.1 checked.2.2)).bind fun _ _ _ => ?_
  rw [hchoose hconfigured, hchoose hconfigured']
  refine (Exec.Agree.lift (alike_targetConfigured (hroute checked.1))).bind
    fun target target' htarget => ?_
  exact .pure ⟨rfl, rfl, rfl, htarget⟩

/-- The target of a dispatched request is the one that is chosen for its principal. -/
theorem chooseTarget_of_run {d : Dispatch} (h : ((createChatCompletion app r).run s).1 = .ok d) :
    chooseTarget app r.body d.principal = .ok d.target := by
  rcases hrun : (createChatCompletion app r).run s with ⟨result, t⟩
  rw [hrun] at h
  dsimp only at h
  subst h
  obtain ⟨checked, _, -, hrest⟩ := Exec.run_bind_eq_ok.mp hrun
  obtain ⟨_, _, -, hrest⟩ := Exec.run_bind_eq_ok.mp hrest
  obtain ⟨target, _, htarget, hrest⟩ := Exec.run_bind_eq_ok.mp hrest
  cases hrest
  exact (Prod.mk.inj htarget).1

/-- What a configured service routes the request to. -/
theorem decision_of_run {d : Dispatch} (hconfigured : routing.configured = true)
    (h : ((createChatCompletion (app.routed routing) r).run s).1 = .ok d) :
    ∃ decision, ConfiguredTarget routing r.body d.principal d.target decision := by
  rcases chooseTarget_eq_ok.mp (chooseTarget_of_run h) with
    ⟨_, decision, hrouter, -, htarget⟩ | ⟨⟨_, hrouter, hpassthrough⟩ | ⟨hnone, -⟩, -⟩
  · cases hrouter
    exact ⟨decision, htarget⟩
  · cases hrouter
    rw [hconfigured] at hpassthrough
    cases hpassthrough
  · cases hnone

/-- The completion function, on what the checks let pass in both runs. -/
theorem looks_completionOf {post post' : InferenceBackend → Post} {d d' : Dispatch}
    (hd : d.Renames d') (hcanonical : d.target.canonicalModel ≠ [])
    (h : Alike (AnswerButModel i)
        (post d.target.backend (payload d.target.internalReq r.body.stream))
      (post' d'.target.backend (payload d'.target.internalReq r.body.stream))) :
    clientView (completionOf (app.routed routing) (r.answeredBy i post) d)
        = clientView (completionOf (app.routed routing') (r.answeredBy i post') d') ∧
      records (completionOf (app.routed routing) (r.answeredBy i post) d)
        = records (completionOf (app.routed routing') (r.answeredBy i post') d') := by
  -- the environment of the second run is that of the first, renamed
  have henv : (r.answeredBy i post').env (app.routed routing') d' =
      ((r.answeredBy i post).env (app.routed routing) d).renamed d'.target.internalReq.model
        (upstreamOf (streamChatCompletion i (post' d'.target.backend) d'.target.internalReq)) := by
    unfold Request.env Env.renamed
    rw [hd.apiKey, hd.client, hd.target]
    rfl
  have hbody : (r.answeredBy i post).body = r.body ∧ (r.answeredBy i post').body = r.body :=
    ⟨rfl, rfl⟩
  unfold completionOf
  rw [henv, hbody.1, hbody.2]
  cases hstream : r.body.stream with
  | true =>
      rw [hstream] at h
      obtain ⟨hchunks, hend⟩ := alike_streamChatCompletion h
      exact looks_streamEvents hcanonical (upstreamButModel_upstreamOf hchunks hend)
  | false =>
      rw [hstream] at h
      refine looks_completionEvents hcanonical ?_
      have hreply := alike_chatCompletion h
      change Alike _ ((chatCompletion (post d.target.backend) d.target.internalReq).mapError toExc)
        ((chatCompletion (post' d'.target.backend) d'.target.internalReq).mapError toExc)
      revert hreply
      generalize chatCompletion (post d.target.backend) d.target.internalReq = reply,
        chatCompletion (post' d'.target.backend) d'.target.internalReq = reply'
      intro hreply
      cases hreply with
      | ok hresp => exact .ok hresp
      | error raised => exact .error _

/-- Every event of a dispatched request names the canonical model. -/
theorem named_completionOf {d : Dispatch} (hcanonical : d.target.canonicalModel ≠ []) :
    Only (Event.Named d.target.canonicalModel) (completionOf app r d) := by
  unfold completionOf
  split_ifs
  · exact named_streamEvents (show (r.env app d).call.canonicalModel ≠ [] from hcanonical)
  · exact named_completionEvents (show (r.env app d).call.canonicalModel ≠ [] from hcanonical) _

end Request

/-- The completion request that configured mode makes of a decision. -/
def internalRequest (body : APIChatCompletionRequest) (decision : RouteDecision) :
    LlamaCpp.ChatCompletionRequest :=
  { body.toChatCompletionRequest with model := decision.backendModel }

/-- To the request under its two names, the backends answer the same but for the `model` fields. -/
def AnswersButModel (i : Interpreter) (body : APIChatCompletionRequest)
    (routing routing' : RoutingService) (post post' : InferenceBackend → Post) : Prop :=
  ∀ principal decision decision', routing.route body.model principal = .ok decision →
    routing'.route body.model principal = .ok decision' →
    Alike (AnswerButModel i)
      (post decision.backend (payload (internalRequest body decision) body.stream))
      (post' decision'.backend (payload (internalRequest body decision') body.stream))

/-- **Backend-native names never reach a client.** Two runs of a request, on configurations that
differ in the backends' names for the models and with backends whose answers differ in their `model`
fields, send the client the same and record the same usage; and every model that is named there is
the routing decision's canonical model. -/
theorem native_names_hidden {py : Builtins} {build : BackendConfig → InferenceBackend}
    {defaultBackend : Option InferenceBackend} {raw raw' : List (Str × Json)}
    {config config' : ParsedRoutingConfig} {routing routing' : RoutingService}
    {backends backends' : Option BackendRegistry}
    (hparse : parseRoutingConfig py raw = .ok config)
    (hparse' : parseRoutingConfig py raw' = .ok config') (hrenamed : Renamed config config')
    (hbuild : buildRouting py build defaultBackend (some raw) = .ok (routing, backends))
    (hbuild' : buildRouting py build defaultBackend (some raw') = .ok (routing', backends'))
    (app : AppState) (r : Request) (s : Store) {post post' : InferenceBackend → Post}
    (hanswers : AnswersButModel i r.body routing routing' post post') :
    let events := chatEvents (app.routed routing) (r.answeredBy i post) s
    let events' := chatEvents (app.routed routing') (r.answeredBy i post') s
    clientView events = clientView events' ∧ records events = records events' ∧
      ∀ d, ((createChatCompletion (app.routed routing) r).run s).1 = .ok d →
        ∃ decision, routing.route r.body.model d.principal = .ok decision ∧
          ∀ e ∈ events, e.Named decision.canonicalModel := by
  have hconfigured : ∀ {raw config routing backends}, parseRoutingConfig py raw = .ok config →
      buildRouting py build defaultBackend (some raw) = .ok (routing, backends) →
      routing.configured = true := by
    intro raw config routing backends hparse hbuild
    obtain ⟨_, -, -, hok⟩ := buildRouting_eq_ok build hparse defaultBackend
    obtain rfl := (Prod.mk.inj (Except.ok.inj (hbuild.symm.trans hok))).1
    rfl
  -- everything up to the dispatch: the two runs are refused alike, or dispatched alike
  have hagree : Alike Dispatch.Renames ((createChatCompletion (app.routed routing) r).run s).1
      ((createChatCompletion (app.routed routing') r).run s).1 :=
    (agree_createChatCompletion (hconfigured hparse hbuild) (hconfigured hparse' hbuild')
      (fun _ => alike_route hparse hparse' hrenamed hbuild hbuild' r.body.model) s s rfl).1
  have hrefused : ∀ (app : AppState) (post : InferenceBackend → Post) (exc : Exc),
      ((createChatCompletion app r).run s).1 = .error exc →
      chatEvents app (r.answeredBy i post) s = refusal r.requestId exc :=
        fun _ _ _ h => chatEvents_of_error h
  have hserved : ∀ (app : AppState) (post : InferenceBackend → Post) (d : Dispatch),
      ((createChatCompletion app r).run s).1 = .ok d →
      chatEvents app (r.answeredBy i post) s = completionOf app (r.answeredBy i post) d :=
    fun _ _ _ h => chatEvents_of_ok h
  dsimp only
  rcases hrun : ((createChatCompletion (app.routed routing) r).run s).1 with exc | d <;>
    rcases hrun' : ((createChatCompletion (app.routed routing') r).run s).1 with exc' | d' <;>
    rw [hrun, hrun'] at hagree
  · cases hagree
    rw [hrefused _ _ _ hrun, hrefused _ _ _ hrun']
    exact ⟨rfl, rfl, fun d h => nomatch h⟩
  · cases hagree
  · cases hagree
  -- both are dispatched, so the completion functions are compared
  · obtain ⟨decision, htarget⟩ := decision_of_run (hconfigured hparse hbuild) hrun
    obtain ⟨decision', htarget'⟩ := decision_of_run (hconfigured hparse' hbuild') hrun'
    rw [hserved _ _ _ hrun, hserved _ _ _ hrun']
    cases hagree with
    | ok hd =>
        have hcanonical : d.target.canonicalModel ≠ [] := by
          rw [htarget.target_eq]
          exact canonicalModel_ne hparse hbuild htarget.routed
        have hpost : Alike (AnswerButModel i)
            (post d.target.backend (payload d.target.internalReq r.body.stream))
            (post' d'.target.backend (payload d'.target.internalReq r.body.stream)) := by
          rw [htarget.target_eq, htarget'.target_eq]
          exact hanswers _ _ _ htarget.routed (hd.principal ▸ htarget'.routed)
        obtain ⟨hview, hrecords⟩ := looks_completionOf hd hcanonical hpost
        refine ⟨hview, hrecords, fun d hd => ?_⟩
        obtain rfl := Except.ok.inj hd
        refine ⟨decision, htarget.routed, ?_⟩
        have hname : decision.canonicalModel = d.target.canonicalModel := by rw [htarget.target_eq]
        rw [hname]
        exact named_completionOf hcanonical

/-- A configuration of one model, under a name of the backend. -/
def sampleNamed (backendModel : String) : List (Str × Json) :=
  sampleConfig [(Str.ofString "backend_model", .text backendModel) :: sampleModel "x" [.text "y"]]

/-- A server that answers with these members. -/
def sampleAnswer (members : List (Str × Json)) : InferenceBackend → Post :=
  fun _ _ => .ok { statusCode := 200, json := some (.obj members) }

/-- One run has the backend's name in the response, the other has another name for it and no
`model`. -/
theorem native_names_hidden_absent :
    let i : Interpreter := ⟨fun _ => [], fun _ => 0, fun _ => [], fun _ => none, fun _ => false,
      fun _ => "Expecting value: line 1 column 1 (char 0)"⟩
    ∃ routing routing', routing.configured = true ∧ routing'.configured = true ∧
      clientView (chatEvents (sampleApp.routed routing)
          ((sampleRequest false).answeredBy i
            (sampleAnswer [(Str.ofString "model", .text "m.gguf")])) sampleStore) =
        clientView (chatEvents (sampleApp.routed routing')
          ((sampleRequest false).answeredBy i (sampleAnswer [])) sampleStore) := by
  intro i
  let config (backendModel : String) : ParsedRoutingConfig :=
    { backends := [⟨Str.ofString "a", .llamaCpp, Str.ofString "http://x"⟩]
      models := [⟨Str.ofString "x", Str.ofString "a", Str.ofString backendModel, true,
        [Str.ofString "y"], []⟩] }
  have hparse : parseRoutingConfig sampleBuiltins (sampleNamed "m.gguf") = .ok (config "m.gguf") :=
    rfl
  have hparse' : parseRoutingConfig sampleBuiltins (sampleNamed "n.gguf") = .ok (config "n.gguf") :=
    rfl
  obtain ⟨_, -, -, hbuild⟩ :=
    buildRouting_eq_ok (fun _ => sampleBackendInstance "model") hparse none
  obtain ⟨_, -, -, hbuild'⟩ :=
    buildRouting_eq_ok (fun _ => sampleBackendInstance "model") hparse' none
  have hmembers : MembersButModel [(Str.ofString "model", .text "m.gguf")] [] := by
    intro key hkey
    have hne : Str.ofString key ≠ Str.ofString "model" := fun h => hkey (Str.ofString_injective h)
    rw [dictGet, List.lookup_cons, beq_eq_false_iff_ne.mpr hne]
    rfl
  have hanswers : ∀ routing routing', AnswersButModel i (sampleRequest false).body routing routing'
      (sampleAnswer [(Str.ofString "model", .text "m.gguf")]) (sampleAnswer []) :=
    fun _ _ _ _ _ _ _ => .ok ⟨rfl, .some (.obj hmembers), .nil, rfl⟩
  exact ⟨_, _, rfl, rfl,
    (native_names_hidden hparse hparse' ⟨rfl, .cons rfl .nil⟩ hbuild hbuild' sampleApp
    (sampleRequest false) sampleStore (hanswers _ _)).1⟩

end SynGateway.Api.Chat

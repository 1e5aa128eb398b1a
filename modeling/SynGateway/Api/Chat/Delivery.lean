import SynGateway.Api.Chat.NativeNames
import SynGateway.Python.Triples

/-!
# Completed and delivered

`_non_streaming_completion` records its outcome in the `finally` clause, before it builds the
response to the client. The schema of `app/api/chat_schemas.py` checks that response, and is
stricter than the backend that the figures come from. So a request can be recorded as completed
whose response was refused: `completed_iff_delivered`.
-/

namespace SynGateway.Api.Chat

open SynGateway.Backends SynGateway.Core SynGateway.Python SynGateway.Python.Json SynGateway.Routing
open SynGateway.Services

/-! ## The response schema -/

namespace ChatSchemas

/-- A field without a default. -/
def required (members : List (Str × Json)) (name : String) (check : Json → Bool) : Bool :=
  match dictGet members name with
  | some value => check value
  | none => false

/-- A field with a default, which passes its own check. -/
def defaulted (members : List (Str × Json)) (name : String) (check : Json → Bool) : Bool :=
  match dictGet members name with
  | some value => check value
  | none => true

/-- `str`. -/
def isStr (v : Validators) : Json → Bool
  | .str s => v.str s
  | _ => false

/-- `int`. -/
def isInt (v : Validators) (value : Json) : Bool := (v.int value).isSome

/-- `Optional[...]`. -/
def optional (check : Json → Bool) : Json → Bool
  | .null => true
  | value => check value

/-- `Literal[...]`, of one string. -/
def literal (text : String) : Json → Bool
  | .str s => s = Str.ofString text
  | _ => false

/-- `list[...]`. -/
def listOf (check : Json → Bool) : Json → Bool
  | .arr items => items.all check
  | _ => false

/-- `ChatMessageResponse`. -/
def chatMessageResponse (v : Validators) : Json → Bool
  | .obj fields => defaulted fields "role" (literal "assistant") &&
      required fields "content" (isStr v)
  | _ => false

/-- `ChatCompletionChoice`. -/
def chatCompletionChoice (v : Validators) : Json → Bool
  | .obj fields => required fields "index" (isInt v) &&
    required fields "message" (chatMessageResponse v) &&
    defaulted fields "finish_reason" (optional (isStr v))
  | _ => false

/-- `ChatCompletionUsage`. -/
def chatCompletionUsage (v : Validators) : Json → Bool
  | .obj fields => required fields "prompt_tokens" (isInt v) &&
    required fields "completion_tokens" (isInt v) && required fields "total_tokens" (isInt v)
  | _ => false

/-- `ChatCompletionResponse`. -/
def chatCompletionResponse (v : Validators) : Json → Bool
  | .obj fields => required fields "id" (isStr v) &&
    defaulted fields "object" (literal "chat.completion") && required fields "created" (isInt v) &&
    required fields "model" (isStr v) &&
      required fields "choices" (listOf (chatCompletionChoice v)) &&
    required fields "usage" (chatCompletionUsage v) &&
    defaulted fields "system_fingerprint" (optional (isStr v))
  | _ => false

/-- The `ValidationError` on a response, if any. -/
def responseError (v : Validators) (response : Json) : Option Exc :=
  if chatCompletionResponse v response then none
  else some (.exception "validation error for ChatCompletionResponse")

/-- A text is a valid string. -/
theorem isStr_text {v : Validators} (hstr : ∀ text, v.str (Str.ofText text) = true)
    (text : String) :
    isStr v (.text text) = true := hstr _

/-- A literal validates its own text only. -/
theorem literal_iff {text : String} {value : Json} :
    literal text value = true ↔ value = .text text := by
  unfold Json.text
  cases value <;> simp [literal]

/-- An optional field may be `None`. -/
theorem optional_iff {check : Json → Bool} {value : Json} :
    optional check value = true ↔ value = .null ∨ check value = true := by
  cases value <;> simp [optional]

end ChatSchemas

open ChatSchemas

variable {v : Validators} {env : Env} {reply : Except Exc ChatCompletionResponse}

/-- What the schema library documents: a string of characters is a `str`, and an integer an `int`.
-/
structure Lawful (v : Validators) : Prop where
  str : ∀ text, v.str (Str.ofText text) = true
  int : ∀ n, v.int (.int n) = some n

/-- The gateway with this schema. -/
def Env.validating (v : Validators) (env : Env) : Env :=
  { env with app := { env.app with validationError := responseError v } }

/-- The name of the model in the response and in the record. -/
def Env.reportedModel (env : Env) : Str :=
  if env.call.canonicalModel = [] then env.call.model else env.call.canonicalModel

/-- A choice of the backend's response, as the API admits it. -/
structure DeliverableChoice (v : Validators) (role content finishReason : Json) : Prop where
  role : role = .text "assistant"
  content : isStr v content = true
  finishReason : finishReason = .null ∨ isStr v finishReason = true

/-- A response of the backend, as the API admits it. -/
structure Deliverable (v : Validators) (env : Env) (resp : ChatCompletionResponse) : Prop where
  id : resp.id.truthy = true → isStr v resp.id = true
  object : resp.object = .text "chat.completion"
  created : resp.created.truthy = true → isInt v resp.created = true
  model : v.str env.reportedModel = true
  choices : ∀ index role content finishReason, (index, role, content, finishReason) ∈ resp.choices →
    DeliverableChoice v role content finishReason
  promptTokens : isInt v resp.promptTokens = true
  completionTokens : isInt v resp.completionTokens = true
  totalTokens : isInt v resp.totalTokens = true
  systemFingerprint : resp.systemFingerprint = .null ∨ isStr v resp.systemFingerprint = true

/-- A choice of the reply validates exactly when its role, content and reason can be delivered. -/
theorem chatCompletionChoice_iff (hv : Lawful v) (index : ℕ) (role content finishReason : Json) :
    chatCompletionChoice v (.obj [(Str.ofString "index", .int index),
        (Str.ofString "message",
          .obj [(Str.ofString "role", role), (Str.ofString "content", content)]),
        (Str.ofString "finish_reason", finishReason)]) = true ↔
      DeliverableChoice v role content finishReason := by
  have hfields : chatCompletionChoice v (.obj [(Str.ofString "index", .int index),
        (Str.ofString "message",
          .obj [(Str.ofString "role", role), (Str.ofString "content", content)]),
        (Str.ofString "finish_reason", finishReason)]) =
      (isInt v (.int index) && (literal "assistant" role && isStr v content) &&
        optional (isStr v) finishReason) := rfl
  rw [hfields]
  simp only [Bool.and_eq_true, literal_iff, optional_iff]
  constructor
  · rintro ⟨⟨_, hrole, hcontent⟩, hfinish⟩
    exact ⟨hrole, hcontent, hfinish⟩
  · rintro ⟨hrole, hcontent, hfinish⟩
    exact ⟨⟨by rw [isInt, hv.int]; rfl, hrole, hcontent⟩, hfinish⟩

/-- The schema takes the response that is built from a reply exactly when the reply is deliverable.
-/
theorem chatCompletionResponse_iff (hv : Lawful v) (resp : ChatCompletionResponse) :
    chatCompletionResponse v (apiResponse env resp) = true ↔ Deliverable v env resp := by
  have hfields : chatCompletionResponse v (apiResponse env resp) =
      (isStr v (if resp.id.truthy then resp.id
        else .text ("chatcmpl-" ++ toString env.clock.time)) &&
        literal "chat.completion" resp.object &&
        isInt v (if resp.created.truthy then resp.created else .int (env.clock.time / 1000)) &&
        v.str env.reportedModel &&
        (resp.choices.map fun choice =>
          Json.obj [(Str.ofString "index", .int choice.1),
            (Str.ofString "message",
              .obj [(Str.ofString "role", choice.2.1), (Str.ofString "content", choice.2.2.1)]),
            (Str.ofString "finish_reason", choice.2.2.2)]).all (chatCompletionChoice v) &&
        (isInt v resp.promptTokens && isInt v resp.completionTokens && isInt v resp.totalTokens) &&
        optional (isStr v) resp.systemFingerprint) := rfl
  -- an id or a time that is falsy is replaced by one that validates
  have hid : isStr v (if resp.id.truthy then resp.id
      else .text ("chatcmpl-" ++ toString env.clock.time))
      = true ↔ (resp.id.truthy = true → isStr v resp.id = true) := by
    split
    · next htruthy => simp [htruthy]
    · next hfalsy => simp [hfalsy, isStr_text hv.str]
  have hcreated :
      isInt v (if resp.created.truthy then resp.created else .int (env.clock.time / 1000))
      = true ↔ (resp.created.truthy = true → isInt v resp.created = true) := by
    split
    · next htruthy => simp [htruthy]
    · next hfalsy => simp [hfalsy, isInt, hv.int]
  rw [hfields]
  simp only [Bool.and_eq_true, literal_iff, optional_iff, List.all_map, List.all_eq_true,
    Prod.forall, Function.comp_apply, chatCompletionChoice_iff hv, hid, hcreated]
  constructor
  · rintro ⟨⟨⟨⟨⟨⟨hid, hobject⟩, hcreated⟩, hmodel⟩, hchoices⟩, ⟨hprompt, hcompletion⟩, htotal⟩,
      hfingerprint⟩
    exact ⟨hid, hobject, hcreated, hmodel, hchoices, hprompt, hcompletion, htotal, hfingerprint⟩
  · rintro ⟨hid, hobject, hcreated, hmodel, hchoices, hprompt, hcompletion, htotal, hfingerprint⟩
    exact ⟨⟨⟨⟨⟨⟨hid, hobject⟩, hcreated⟩, hmodel⟩, hchoices⟩, ⟨hprompt, hcompletion⟩, htotal⟩,
      hfingerprint⟩

/-! ## How the `try` block ends -/

/-- The reply is awaited to its end: the slot is granted, and the client stays for it. -/
structure Env.Awaited (env : Env) : Prop where
  admitted : env.acquire = .admitted
  staysQueued : env.disconnect ≠ some 0
  staysCalled : env.disconnect ≠ some 1

/-- Nothing is completed or recorded yet. -/
structure Pending (s : Frame CompletionVars) : Prop where
  outcome : s.vars.outcome ≠ .completed
  internalResp : s.vars.internalResp = none
  records : records s.events = []

/-- The reply was received, and nothing is recorded yet. -/
structure Answered (resp : ChatCompletionResponse) (s : Frame CompletionVars) : Prop where
  outcome : s.vars.outcome = .completed
  internalResp : s.vars.internalResp = some resp
  records : records s.events = []

/-- An event that is no record leaves a request pending. -/
theorem Pending.logged {s : Frame CompletionVars} {event : Event} (h : Pending s)
    (hevent : Chat.records [event] = []) :
    Pending { s with events := s.events ++ [event] } where
  outcome := h.outcome
  internalResp := h.internalResp
  records := by rw [records_append, h.records, hevent]; rfl

/-- An event that is no record leaves a request answered. -/
theorem Answered.logged {s : Frame CompletionVars} {event : Event} {resp : ChatCompletionResponse}
    (h : Answered resp s) (hevent : Chat.records [event] = []) :
    Answered resp { s with events := s.events ++ [event] } where
  outcome := h.outcome
  internalResp := h.internalResp
  records := by rw [records_append, h.records, hevent]; rfl

/-- Pending, before the suspension of this number. -/
def PendingAt (k : ℕ) (s : Frame CompletionVars) : Prop := Pending s ∧ s.suspensions = k

/-- A suspension passes, unless this is where the client leaves. -/
theorem ensures_suspend (exc : Exc) (k : ℕ) :
    Exec.Ensures (PendingAt k) (suspend env exc)
      (fun _ s => PendingAt (k + 1) s ∧ env.disconnect ≠ some k)
      fun _ s => Pending s ∧ env.disconnect = some k := by
  rintro s ⟨hpending, rfl⟩
  unfold suspend
  rw [Exec.run_get_bind]
  by_cases hleaves : env.disconnect = some s.suspensions
  · rw [if_pos hleaves]
    exact ⟨hpending, hleaves⟩
  · rw [if_neg hleaves]
    exact ⟨⟨⟨hpending.outcome, hpending.internalResp, hpending.records⟩, rfl⟩, hleaves⟩

/-- The call of the backend receives the reply, or nothing. -/
theorem ensures_callBackend (env : Env) (reply : Except Exc ChatCompletionResponse) :
    Exec.Ensures (PendingAt 1) (callBackend env reply)
      (fun _ s => env.disconnect ≠ some 1 ∧ ∃ resp, reply = .ok resp ∧ Answered resp s)
      fun _ s => Pending s ∧ ¬ (env.disconnect ≠ some 1 ∧ ∃ resp, reply = .ok resp) := by
  refine Exec.Ensures.bind (Q := fun _ => PendingAt 1) ?_ fun _ => ?_
  · exact Exec.Ensures.modify fun s h => ⟨h.1.logged rfl, h.2⟩
  -- while the backend works the client may leave, and then nothing is completed
  refine (ensures_suspend .cancelledError 1).bind_mono ?_ fun _ => ?_
  · rintro _ s ⟨hpending, hleaves⟩
    exact ⟨hpending, fun h => h.1 hleaves⟩
  · cases reply with
    | error exc =>
        apply Exec.Ensures.raise
        rintro s ⟨⟨hpending, -⟩, -⟩
        refine ⟨hpending, ?_⟩
        rintro ⟨-, resp, hreply⟩
        cases hreply
    | ok resp =>
        apply Exec.Ensures.modify
        rintro s ⟨⟨hpending, -⟩, hstays⟩
        exact ⟨hstays, resp, rfl, rfl, rfl, hpending.records⟩

/-- The clauses around the call keep a pending request pending, and raise. -/
theorem ensures_completionExceptBackend {clock : Clock} {exc : Exc}
    {clause : Body CompletionVars Unit} (h : clause ∈ completionExceptBackend clock exc) :
    Exec.Ensures Pending clause (fun _ _ => False) fun _ => Pending := by
  cases hcls : exc.backendClass with
  | some cls =>
      obtain ⟨what, hclause⟩ := completionExceptBackend_backend clock hcls
      rw [hclause] at h
      obtain rfl := Option.some.inj h
      refine Exec.Ensures.bind (Q := fun _ => Pending) ?_ fun _ => ?_
      · refine Exec.Ensures.modify fun s hs => ⟨?_, hs.internalResp, hs.records⟩
        exact fun heq => Outcome.noConfusion heq
      · exact Exec.Ensures.raise fun s hs => hs
  | none =>
      rw [completionExceptBackend_other clock hcls] at h
      cases h

/-- The clauses around the admission queue, likewise. -/
theorem ensures_completionExceptQueue {exc : Exc} {clause : Body CompletionVars Unit}
    (h : clause ∈ completionExceptQueue exc) :
    Exec.Ensures Pending clause (fun _ _ => False) fun _ => Pending := by
  have hrefused : ∀ (outcome : Outcome) (default : String), outcome ≠ .completed →
      Exec.Ensures Pending (completionRefused outcome default exc) (fun _ _ => False)
        fun _ => Pending := by
    intro outcome default hne
    refine Exec.Ensures.bind (Q := fun _ => Pending) ?_ fun _ => ?_
    · exact Exec.Ensures.modify fun s hs => ⟨hne, hs.internalResp, hs.records⟩
    · exact Exec.Ensures.raise fun s hs => hs
  unfold completionExceptQueue at h
  split_ifs at h
  · obtain rfl := Option.some.inj h
    exact hrefused _ _ fun heq => Outcome.noConfusion heq
  · obtain rfl := Option.some.inj h
    exact hrefused _ _ fun heq => Outcome.noConfusion heq
  · cases h

/-- The call inside `acquire()`, with its clauses. -/
theorem ensures_admitted (env : Env) (reply : Except Exc ChatCompletionResponse) :
    Exec.Ensures (PendingAt 1)
      (Exec.tryExcept (callBackend env reply) (completionExceptBackend env.clock))
      (fun _ s => env.disconnect ≠ some 1 ∧ ∃ resp, reply = .ok resp ∧ Answered resp s)
      fun _ s => Pending s ∧ ¬ (env.disconnect ≠ some 1 ∧ ∃ resp, reply = .ok resp) := by
  refine (ensures_callBackend env reply).tryExcept (fun exc clause h => ?_) fun _ _ _ h => h
  exact (ensures_completionExceptBackend h).frame.mono (fun _ hs => hs)
    (fun _ _ hpost => hpost.1.elim) fun _ _ hpost => hpost

/-- The body of the `try` block runs through exactly when a reply is awaited and received. -/
theorem ensures_completionBody (env : Env) (reply : Except Exc ChatCompletionResponse) :
    Exec.Ensures (PendingAt 0) (completionBody env reply)
      (fun _ s => env.Awaited ∧ ∃ resp, reply = .ok resp ∧ Answered resp s)
      fun _ s => Pending s ∧ ¬ (env.Awaited ∧ ∃ resp, reply = .ok resp) := by
  unfold completionBody withAcquire log
  refine Exec.Ensures.bind (Q := fun _ => PendingAt 0) ?_ fun _ => ?_
  · exact Exec.Ensures.modify fun s h => ⟨h.1.logged rfl, h.2⟩
  refine (ensures_suspend .cancelledError 0).bind_mono ?_ fun _ => ?_
  · rintro _ s ⟨hpending, hleaves⟩
    exact ⟨hpending, fun h => h.1.staysQueued hleaves⟩
  cases hacquire : env.acquire.error with
  | some error =>
      apply Exec.Ensures.raise
      rintro s ⟨⟨hpending, -⟩, -⟩
      refine ⟨hpending, fun h => ?_⟩
      rw [h.1.admitted] at hacquire
      cases hacquire
  | none =>
      have hadmitted : env.acquire = .admitted := by
        revert hacquire
        cases env.acquire <;> first | exact fun _ => rfl | exact fun h => nomatch h
      rintro s ⟨hpending, hstays⟩
      -- the slot is there and the client too, so only the call decides
      have hawaited : env.Awaited ↔ env.disconnect ≠ some 1 :=
        ⟨fun h => h.staysCalled, fun h => ⟨hadmitted, hstays, h⟩⟩
      rw [hawaited]
      refine Exec.Ensures.bind (Q := fun _ => PendingAt 1) ?_ (fun _ => ?_) s hpending
      · exact Exec.Ensures.modify fun s h => ⟨h.1.logged rfl, h.2⟩
      refine (Exec.Ensures.bind (Q := fun _ => PendingAt 1) ?_ fun _ =>
        ensures_admitted env reply).tryFinally
        (fun _ => rfl) ?_ ?_
      · exact Exec.Ensures.modify fun s h => ⟨⟨h.1.outcome, h.1.internalResp, h.1.records⟩, h.2⟩
      · rintro _ s ⟨hstays, resp, hreply, hanswered⟩
        exact ⟨hstays, resp, hreply, hanswered.logged rfl⟩
      · rintro _ s ⟨hpending, hnone⟩
        exact ⟨hpending.logged rfl, hnone⟩

/-- The clauses change nothing about that. -/
theorem ensures_completionTry (env : Env) (reply : Except Exc ChatCompletionResponse) :
    Exec.Ensures (PendingAt 0) (Exec.tryExcept (completionBody env reply) completionExceptQueue)
      (fun _ s => env.Awaited ∧ ∃ resp, reply = .ok resp ∧ Answered resp s)
      fun _ s => Pending s ∧ ¬ (env.Awaited ∧ ∃ resp, reply = .ok resp) := by
  refine (ensures_completionBody env reply).tryExcept (fun exc clause h => ?_) fun _ _ _ h => h
  exact (ensures_completionExceptQueue h).frame.mono (fun _ hs => hs)
    (fun _ _ hpost => hpost.1.elim) fun _ _ hpost => hpost

/-! ## The record and the response -/

/-- The recording ends without an exception: what it raises is caught. -/
def App.Logs (app : App) : Prop :=
  app.usageService = true → app.database = true → ∀ exc ∈ app.recordError, exc.isException = true

/-- The recording returns exactly when whatever it raises is caught. -/
theorem run_recordUsage_ok {V : Type} (app : App) (row : UsageRecord) (s : Frame V) :
    ((recordUsage app row).run s).1 = .ok () ↔ app.Logs := by
  have hrun : (do getDbSessionForUsage app; record app row : Body V Unit).run s =
      if app.database = true then
        app.recordError.elim (.ok (), { s with events := s.events ++ [.recorded row] }) fun exc =>
          (.error exc, s)
      else (.error (.syn (ErrorClass.synError.new (some "database unavailable for usage tracking")
        (some "usage_unavailable") (some 503) none)), s) := by
    unfold getDbSessionForUsage record
    cases app.recordError <;> split <;> rfl
  unfold recordUsage App.Logs
  -- an exception of the recording is caught if it is an `Exception`
  by_cases hservice : app.usageService = true
  · rw [if_pos hservice]
    by_cases hdatabase : app.database = true
    · rw [if_pos hdatabase] at hrun
      cases herror : app.recordError with
      | none =>
          rw [herror] at hrun
          rw [Exec.run_tryExcept_ok hrun]
          exact iff_of_true rfl fun _ _ exc hexc => nomatch hexc
      | some exc =>
          rw [herror] at hrun
          by_cases hcaught : exc.isException = true
          · rw [Exec.run_tryExcept_caught hrun (if_pos hcaught)]
            refine iff_of_true rfl fun _ _ exc' hexc => ?_
            rwa [← Option.some.inj hexc]
          · rw [Exec.run_tryExcept_uncaught hrun (if_neg hcaught)]
            exact iff_of_false (fun h => nomatch h) fun h => hcaught (h hservice hdatabase exc rfl)
    · rw [if_neg hdatabase] at hrun
      rw [Exec.run_tryExcept_caught hrun (if_pos rfl)]
      exact iff_of_true rfl fun _ h => absurd h hdatabase
  · rw [if_neg hservice]
    exact iff_of_true rfl fun h => absurd h hservice

/-- A database that takes the row leaves nothing to catch. -/
theorem App.Records.logs {app : App} (h : app.Records) : app.Logs := by
  intro _ _ exc hexc
  rw [h.2.2] at hexc
  cases hexc

/-- `_non_streaming_completion`, called. -/
def completion (env : Env) (reply : Except Exc ChatCompletionResponse) :
    Except Exc Json × Frame CompletionVars :=
  (nonStreamingCompletion env reply).run { vars := {} }

/-- The `finally` block changes no variable. -/
theorem completionFinally_vars (env : Env) (s : Frame CompletionVars) :
    ((completionFinally env).run s).2.vars = s.vars := by
  unfold completionFinally
  rw [Exec.run_get_bind, run_recordUsage]

/-- The `finally` block returns when the usage record does. -/
theorem completionFinally_ok (env : Env) (s : Frame CompletionVars) :
    ((completionFinally env).run s).1 = .ok () ↔ env.app.Logs := by
  unfold completionFinally
  rw [Exec.run_get_bind]
  exact run_recordUsage_ok _ _ _

/-- How `_non_streaming_completion` ends, and what it has recorded. With a reply it has recorded a
completed request, and returns the response if the schema takes it; otherwise it raises, and the
record says so. -/
theorem completion_ends (env : Env) (reply : Except Exc ChatCompletionResponse)
    (hadmission : env.app.admission = true) :
    (∃ resp v, reply = .ok resp ∧ env.Awaited ∧ v.outcome = .completed ∧
        v.internalResp = some resp ∧
      records (completion env reply).2.events =
        (if env.app.Records then [completionRecord env v] else []) ∧
      ((∃ response, (completion env reply).1 = .ok response) ↔
        env.app.Logs ∧ env.app.validationError (apiResponse env resp) = none)) ∨
    ∃ v, ¬ (env.Awaited ∧ ∃ resp, reply = .ok resp) ∧ v.outcome ≠ .completed ∧
      records (completion env reply).2.events =
        (if env.app.Records then [completionRecord env v] else []) ∧
      ¬ ∃ response, (completion env reply).1 = .ok response := by
  unfold completion nonStreamingCompletion getAdmission
  rw [if_pos hadmission, Exec.run_pure_bind]
  have hstart : PendingAt 0 { vars := {} } := ⟨⟨fun h => Outcome.noConfusion h, rfl, rfl⟩, rfl⟩
  -- the `finally` clause records what the variables say by then
  have hrecorded : ∀ s : Frame CompletionVars, records s.events = [] →
      records ((completionFinally env).run s).2.events =
        if env.app.Records then [completionRecord env s.vars] else [] := by
    intro s hs
    unfold completionFinally
    rw [Exec.run_get_bind, run_recordUsage, records_append, hs]
    split <;> rfl
  -- the `try` statement ends with a reply, or raises
  rcases (ensures_completionTry env reply).cases hstart with
    ⟨_, s, hrun, hawaited, resp, hreply, hanswered⟩ | ⟨exc, s, hrun, hpending, hnone⟩
  · left
    refine ⟨resp, s.vars, hreply, hawaited, hanswered.outcome, hanswered.internalResp, ?_⟩
    have hrecords := hrecorded s hanswered.records
    have hvars := completionFinally_vars env s
    have hlogs := completionFinally_ok env s
    rcases hclean : (completionFinally env).run s with ⟨e | _, t⟩
    -- the recording itself raises, and its exception replaces the response
    · rw [hclean] at hrecords hlogs
      rw [Exec.run_bind_error (Exec.run_tryFinally_error hrun hclean)]
      refine ⟨hrecords, iff_of_false (by rintro ⟨_, h⟩; cases h) fun h => ?_⟩
      cases hlogs.mpr h.1
    · rw [hclean] at hrecords hlogs hvars
      rw [Exec.run_bind_ok (Exec.run_tryFinally hrun hclean), Exec.run_get_bind, hvars,
        hanswered.internalResp]
      dsimp only
      cases hschema : env.app.validationError (apiResponse env resp) with
      | none => exact ⟨hrecords, iff_of_true ⟨_, rfl⟩ ⟨hlogs.mp rfl, rfl⟩⟩
      | some exc =>
          refine ⟨hrecords, iff_of_false (by rintro ⟨_, h⟩; cases h) fun h => ?_⟩
          cases h.2
  · right
    refine ⟨s.vars, hnone, hpending.outcome, ?_⟩
    have hrecords := hrecorded s hpending.records
    rcases hclean : (completionFinally env).run s with ⟨e | _, t⟩
    · rw [hclean] at hrecords
      rw [Exec.run_bind_error (Exec.run_tryFinally_error hrun hclean)]
      exact ⟨hrecords, by rintro ⟨_, h⟩; cases h⟩
    · rw [hclean] at hrecords
      rw [Exec.run_bind_error (Exec.run_tryFinally hrun hclean)]
      exact ⟨hrecords, by rintro ⟨_, h⟩; cases h⟩

/-- Without an admission controller nothing is recorded. -/
theorem completion_not_wired (env : Env) (reply : Except Exc ChatCompletionResponse)
    (hadmission : ¬ env.app.admission = true) :
    ∃ exc, completion env reply = (.error exc, { vars := {} }) := by
  unfold completion nonStreamingCompletion getAdmission
  rw [if_neg hadmission]
  exact ⟨_, rfl⟩

/-! ## Completed means delivered -/

/-- A completed request is recorded exactly when the handler returns a response. -/
def CompletedMeansDelivered (env : Env) (reply : Except Exc ChatCompletionResponse) : Prop :=
  (∃ row ∈ records (completion env reply).2.events, row.status = .completed) ↔
    ∃ response, (completion env reply).1 = .ok response

/-- The request gets as far as a reply: the controller is wired, the reply is awaited, and the
recording raises nothing that is not caught. -/
structure Env.Served (env : Env) : Prop where
  admission : env.app.admission = true
  awaited : env.Awaited
  logs : env.app.Logs

/-- For any reply of the backend, completed means delivered exactly when a usage record is written
of the deliverable responses, and only of these. -/
theorem completedMeansDelivered_iff (hv : Lawful v) (env : Env)
    (reply : Except Exc ChatCompletionResponse) :
    CompletedMeansDelivered (env.validating v) reply ↔
      ∀ resp, reply = .ok resp → env.Served → (env.app.Records ↔ Deliverable v env resp) := by
  have hrecorded : ∀ vars, records (completion (env.validating v) reply).2.events =
      (if env.app.Records then [completionRecord (env.validating v) vars] else []) →
      ((∃ row ∈ records (completion (env.validating v) reply).2.events, row.status = .completed) ↔
        env.app.Records ∧ vars.outcome = .completed) := by
    intro vars hrecords
    rw [hrecords]
    split
    · next happ => simp [happ, completionRecord]
    · next happ => simp [happ]
  unfold CompletedMeansDelivered
  by_cases hadmission : env.app.admission = true
  · rcases completion_ends (env.validating v) reply hadmission with
      ⟨resp, vars, rfl, hawaited, houtcome, -, hrecords, hreturns⟩ |
        ⟨vars, hnone, houtcome, hrecords, hraises⟩
    -- a reply has come in, and only the schema can still refuse it
    · have hschema :
          (env.validating v).app.validationError (apiResponse (env.validating v) resp) = none ↔
          Deliverable v env resp := by
        change (if chatCompletionResponse v (apiResponse env resp) = true then none
          else some _) = none ↔ _
        rw [← chatCompletionResponse_iff hv, ite_eq_left_iff]
        simp
      rw [hrecorded vars hrecords, hreturns, hschema, and_iff_left houtcome]
      have hlogs : (env.validating v).app.Logs ↔ env.app.Logs := Iff.rfl
      rw [hlogs]
      constructor
      · intro h resp' heq hserved
        obtain rfl := Except.ok.inj heq
        exact h.trans (and_iff_right hserved.logs)
      · intro h
        by_cases happ : env.app.Logs
        · rw [and_iff_right happ]
          exact h resp rfl ⟨hadmission,
            ⟨hawaited.admitted, hawaited.staysQueued, hawaited.staysCalled⟩, happ⟩
        · exact iff_of_false (fun hrecs => happ hrecs.logs) fun hret => happ hret.1
    -- nothing is completed and nothing is returned
    · rw [hrecorded vars hrecords]
      refine iff_of_true (iff_of_false (fun h => houtcome h.2) hraises) fun resp heq hserved => ?_
      have hawaited := hserved.awaited
      exact absurd ⟨⟨hawaited.admitted, hawaited.staysQueued, hawaited.staysCalled⟩, resp,
        heq⟩ hnone
  · obtain ⟨exc, hraises⟩ := completion_not_wired (env.validating v) reply hadmission
    rw [hraises]
    refine iff_of_true (iff_of_false ?_ ?_) fun resp _ hserved =>
      absurd hserved.admission hadmission
    · rintro ⟨row, hrow, -⟩
      cases hrow
    · rintro ⟨response, h⟩
      cases h

/-- **Completed means delivered**, of what llama.cpp answers, exactly when the usage is recorded of
the responses that the API admits and only of these. So where usage is recorded, a response that the
API does not admit passes for completed, and the client gets an error. -/
theorem completed_iff_delivered (hv : Lawful v) (env : Env) (post : LlamaCpp.Post)
    (request : LlamaCpp.ChatCompletionRequest) :
    CompletedMeansDelivered (env.validating v)
      ((LlamaCpp.chatCompletion post request).mapError toExc) ↔
      ∀ resp, LlamaCpp.chatCompletion post request = .ok resp → env.Served →
        (env.app.Records ↔ Deliverable v env resp) := by
  rw [completedMeansDelivered_iff hv]
  simp only [mapError_eq_ok]

/-! ## A reply without text -/

/-- The sample validators do what pydantic documents. -/
theorem lawful_sampleValidators : Lawful sampleValidators where
  str text := by simp [sampleValidators]
  int _ := rfl

/-- A request that is admitted and stays, in a gateway that records usage. -/
def sampleEnv : Env where
  app := { admission := true, usageService := true, database := true }
  call := { requestId := "r", apiKeyId := some "k", clientId := some "c", userId := some "u"
            model := Str.ofString "m", canonicalModel := Str.ofString "m" }
  acquire := .admitted
  upstream := { chunks := [] }

/-- A server that answers with one choice, whose message has this content. -/
def contentPost (content : Json) : LlamaCpp.Post := fun _ =>
  .ok { statusCode := 200
        json := some (.obj [(Str.ofString "choices",
          .arr [.obj [(Str.ofString "message", .obj [(Str.ofString "content", content)])]])]) }

/-- What the backend makes of the answer. -/
def contentReply (content : Json) : ChatCompletionResponse where
  id := .text ""
  object := .text "chat.completion"
  created := .int 0
  model := .str (Str.ofString "m")
  choices := [(0, .text "assistant", content, .null)]
  promptTokens := .int 0
  completionTokens := .int 0
  totalTokens := .int 0
  systemFingerprint := .null

/-- The reply of the sample server, as the backend hands it on. -/
theorem chatCompletion_contentPost (content : Json) :
    LlamaCpp.chatCompletion (contentPost content) { model := Str.ofString "m" } =
      .ok (contentReply content) := rfl

/-- The sample request is served. -/
theorem served_sampleEnv : sampleEnv.Served where
  admission := rfl
  awaited := ⟨rfl, fun h => (nomatch h), fun h => (nomatch h)⟩
  logs := fun _ _ _ h => (nomatch h)

/-- A reply with a text as its content can be delivered. -/
theorem deliverable_contentReply (text : String) :
    Deliverable sampleValidators sampleEnv (contentReply (.text text)) := by
  have hstr := isStr_text lawful_sampleValidators.str
  have hmodel : sampleValidators.str (Str.ofString "m") = true :=
    lawful_sampleValidators.str "m".toList
  refine ⟨fun _ => hstr "", rfl, fun _ => rfl, hmodel, ?_, rfl, rfl, rfl, .inl rfl⟩
  intro index role content finishReason hmem
  obtain ⟨-, hrole, hcontent, hfinish⟩ : index = 0 ∧ role = .text "assistant" ∧
      content = .text text ∧
      finishReason = .null := by
    simpa only [contentReply, List.mem_singleton, Prod.mk.injEq] using hmem
  exact ⟨hrole, hcontent ▸ hstr text, .inl hfinish⟩

/-- A reply with text is delivered. -/
theorem completed_iff_delivered_text :
    CompletedMeansDelivered (sampleEnv.validating sampleValidators)
      ((LlamaCpp.chatCompletion (contentPost (.text "hi")) { model := Str.ofString "m" }).mapError
        toExc) := by
  refine (completed_iff_delivered lawful_sampleValidators _ _ _).mpr fun resp hresp _ => ?_
  rw [chatCompletion_contentPost] at hresp
  obtain rfl := Except.ok.inj hresp
  exact iff_of_true ⟨rfl, rfl, rfl⟩ (deliverable_contentReply "hi")

/-- A reply whose message has no text, as of a tool call: it is recorded as completed, and the
handler raises. -/
theorem completed_undelivered :
    ¬ CompletedMeansDelivered (sampleEnv.validating sampleValidators)
      ((LlamaCpp.chatCompletion (contentPost .null) { model := Str.ofString "m" }).mapError
        toExc) := by
  rw [chatCompletion_contentPost]
  change ¬ CompletedMeansDelivered _ (.ok (contentReply .null))
  rw [completedMeansDelivered_iff lawful_sampleValidators]
  intro hall
  have hdeliverable := (hall _ rfl served_sampleEnv).mp ⟨rfl, rfl, rfl⟩
  have hcontent := (hdeliverable.choices 0 _ _ _ (List.mem_singleton.mpr rfl)).content
  cases hcontent

end SynGateway.Api.Chat

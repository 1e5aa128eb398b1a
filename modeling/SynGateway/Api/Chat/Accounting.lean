import SynGateway.Api.Chat.Streaming

/-!
# Accounting

The usage records of the two paths for the same cause. `completionOutcome` is what the non-streaming
path records, however its request ends (`completion_settled`), and for a client that stays that is
what is documented (`completion_accounting`). The streaming path does so for a client that leaves,
for a normal end and for a typed backend error, and records everything else as a cancellation
(`accounting_agrees_iff`).
-/

namespace SynGateway.Api.Chat

open SynGateway.Core SynGateway.Python SynGateway.Services

variable {V : Type} {env : Env}

/-- The documented outcome and error code of a request whose client stays, by how `acquire()` ended
and what the backend raised, if anything. -/
def documented (acquire : Acquire) (raised : Option Exc) : Outcome × Option String :=
  match acquire with
  | .queueFull => (.rejected, some "queue_full")
  | .queueTimeout _ => (.timedOut, some "queue_timeout")
  | .admitted =>
    match raised with
    | none => (.completed, none)
    | some exc => (.failed, exc.backendClass.map ErrorClass.code)

/-! ## The non-streaming path -/

/-- What `chat_completion` ends with: `resp`, unless the backend raises. -/
def replyOf (raised : Option Exc) (resp : ChatCompletionResponse) :
    Except Exc ChatCompletionResponse :=
  match raised with
  | none => .ok resp
  | some exc => .error exc

/-- The backend raises no error of the admission queue. -/
def NoQueueError (raised : Option Exc) : Prop :=
  ∀ exc ∈ raised, exc.isInstance .queueFullError = false ∧ exc.isInstance .queueTimeoutError = false

/-- An error of the backend is recorded under its code. -/
theorem completionExceptBackend_backend (clock : Clock) {exc : Exc} {cls : ErrorClass}
    (h : exc.backendClass = some cls) :
    ∃ what, completionExceptBackend clock exc = some
    (completionFailed clock cls.code what exc) := by
  obtain ⟨error, rfl, hcls, hbackend⟩ := Exc.eq_syn_of_backendClass h
  unfold completionExceptBackend
  simp only [Exc.isInstance_syn, hcls]
  rcases ErrorClass.isBackend_iff.mp hbackend with rfl | rfl | rfl | rfl <;> exact ⟨_, rfl⟩

/-- The clause for backend errors catches nothing else. -/
theorem completionExceptBackend_other (clock : Clock) {exc : Exc} (h : exc.backendClass = none) :
    completionExceptBackend clock exc = none := by
  unfold completionExceptBackend
  simp only [Exc.isInstance_eq_false h, ErrorClass.isBackend_iff, true_or, or_true,
    Bool.false_eq_true, if_false]

/-- The clause for queue errors catches nothing else. -/
theorem completionExceptQueue_other {exc : Exc} (hfull : exc.isInstance .queueFullError = false)
    (htimeout : exc.isInstance .queueTimeoutError = false) : completionExceptQueue exc = none := by
  unfold completionExceptQueue
  rw [if_neg (by simp [hfull]), if_neg (by simp [htimeout])]

/-- The code of an exception, or a default where it has none. -/
def codeOr (default : String) : Exc → String
  | .syn error => if error.code = "" then default else error.code
  | _ => default

/-- The accounting behind the clauses around the admission queue, where it was `kept` before them:
they account for their own errors only. -/
def classifyRefusal (kept : Outcome × Option String) : Except Exc Unit → Outcome × Option String
  | .ok _ => kept
  | .error exc =>
    if exc.isInstance .queueFullError then (.rejected, some (codeOr "queue_full" exc))
    else if exc.isInstance .queueTimeoutError then (.timedOut, some (codeOr "queue_timeout" exc))
    else kept

/-- What an exception of the backend is recorded as. The clauses around the admission queue are
around the call of the backend too, so an error of the queue that the backend raises passes for a
refusal. -/
def classifyRaised (exc : Exc) : Outcome × Option String :=
  match exc.backendClass with
  | some cls => (.failed, some cls.code)
  | none => classifyRefusal (.failed, none) (.error exc)

/-- What is recorded for a request without `stream`. A client that leaves while the request waits
for its slot or for the reply cancels it; no clause takes that, so the outcome is the one of the
start. -/
def completionOutcome (env : Env) (reply : Except Exc ChatCompletionResponse) :
    Outcome × Option String :=
  if env.disconnect = some 0 then (.failed, none)
  else
    match env.acquire with
    | .queueFull => (.rejected, some "queue_full")
    | .queueTimeout _ => (.timedOut, some "queue_timeout")
    | .admitted =>
      if env.disconnect = some 1 then (.failed, none)
      else
        match reply with
        | .ok _ => (.completed, none)
        | .error exc => classifyRaised exc

/-- A typed backend error is no error of the admission queue. -/
theorem noQueueError_of_backendClass {exc : Exc} {cls : ErrorClass}
    (h : exc.backendClass = some cls) :
    exc.isInstance .queueFullError = false ∧ exc.isInstance .queueTimeoutError = false := by
  obtain ⟨error, rfl, herror, hbackend⟩ := Exc.eq_syn_of_backendClass h
  rw [Exc.isInstance_syn, Exc.isInstance_syn, herror]
  rcases ErrorClass.isBackend_iff.mp hbackend with rfl | rfl | rfl | rfl <;> exact ⟨rfl, rfl⟩

/-- A client that stays leaves at no suspension. -/
theorem Env.stays (hstay : env.disconnect = none) (k : ℕ) : env.disconnect ≠ some k := by
  rw [hstay]
  exact (Option.some_ne_none k).symm

/-- Where the backend raises no error of the queue, the path records what is documented for a client
that stays. -/
theorem completionOutcome_documented (raised : Option Exc) (resp : ChatCompletionResponse)
    (hstay : env.disconnect = none) (hqueue : NoQueueError raised) :
    completionOutcome env (replyOf raised resp) = documented env.acquire raised := by
  unfold completionOutcome documented
  rw [if_neg (Env.stays hstay 0), if_neg (Env.stays hstay 1)]
  cases env.acquire with
  | queueFull => rfl
  | queueTimeout waited => rfl
  | admitted =>
      cases raised with
      | none => rfl
      | some exc =>
          obtain ⟨hfull, htimeout⟩ := hqueue exc rfl
          change classifyRaised exc = (.failed, exc.backendClass.map ErrorClass.code)
          unfold classifyRaised classifyRefusal
          dsimp only
          rw [hfull, htimeout]
          cases exc.backendClass <;> rfl

/-- A suspension passes, unless this is where the client leaves. -/
theorem run_suspend_stay (exc : Exc) (s : Frame V) (hstay : env.disconnect ≠ some s.suspensions) :
    (suspend env exc).run s = (.ok (), { s with suspensions := s.suspensions + 1 }) := by
  unfold suspend
  rw [Exec.run_get_bind, if_neg hstay, Exec.run_modify]

/-- Where the client leaves, the body is resumed with the exception. -/
theorem run_suspend_leave (exc : Exc) (s : Frame V) (hleave : env.disconnect = some s.suspensions) :
    (suspend env exc).run s = (.error exc, s) := by
  unfold suspend
  rw [Exec.run_get_bind, if_pos hleave, Exec.run_raise]

/-- A request that is admitted runs its body with the slot, and gives the slot back. -/
theorem run_withAcquire_admitted {body : Body V Unit} {s t : Frame V} {r : Except Exc Unit}
    (hstay : env.disconnect ≠ some s.suspensions) (hacquire : env.acquire.error = none)
    (hbody : body.run { s with
      events := s.events ++ [.acquiring] ++ [.acquired], suspensions :=
  s.suspensions + 1 } = (r, t)) :
    (withAcquire env body).run s = (r, { t with events := t.events ++ [.released] }) := by
  have hwait :=
    run_suspend_stay (V := V) .cancelledError { s with events := s.events ++ [.acquiring] } hstay
  unfold withAcquire log
  rw [Exec.run_modify_bind, Exec.run_bind_ok hwait, hacquire]
  dsimp only
  rw [Exec.run_modify_bind]
  exact Exec.run_tryFinally hbody rfl

/-- A request that is refused does not run its body. -/
theorem run_withAcquire_refused {body : Body V Unit} {s : Frame V} {error : SynError}
    (hstay : env.disconnect ≠ some s.suspensions) (hacquire : env.acquire.error = some error) :
    (withAcquire env body).run s = (.error (.syn error),
      { s with events := s.events ++ [.acquiring], suspensions := s.suspensions + 1 }) := by
  have hwait :=
    run_suspend_stay (V := V) .cancelledError { s with events := s.events ++ [.acquiring] } hstay
  unfold withAcquire log
  rw [Exec.run_modify_bind, Exec.run_bind_ok hwait, hacquire]
  rfl

/-- A request whose client leaves while it waits for its slot does not run its body either. -/
theorem run_withAcquire_left {body : Body V Unit} {s : Frame V}
    (hleave : env.disconnect = some s.suspensions) :
    (withAcquire env body).run s =
      (.error .cancelledError, { s with events := s.events ++ [.acquiring] }) := by
  unfold withAcquire log
  rw [Exec.run_modify_bind]
  exact Exec.run_bind_error (run_suspend_leave _ _ hleave)

/-- The outcome and the error code that the local variables hold. -/
def CompletionVars.accounting (v : CompletionVars) : Outcome × Option String :=
  (v.outcome, v.errorCode)

/-- The clauses around the admission queue change the accounting and nothing else. -/
theorem run_completionExceptQueue {x : Body CompletionVars Unit} {s t : Frame CompletionVars}
    {r : Except Exc Unit} (hrun : x.run s = (r, t)) :
    ∃ u, ((Exec.tryExcept x completionExceptQueue).run s).2 = u ∧ u.events = t.events ∧
      u.vars.accounting = classifyRefusal t.vars.accounting r := by
  cases r with
  | ok _ =>
      rw [Exec.run_tryExcept_ok hrun]
      exact ⟨t, rfl, rfl, rfl⟩
  | error exc =>
      have hclause : completionExceptQueue exc =
          if exc.isInstance .queueFullError then some (completionRefused .rejected "queue_full" exc)
          else if exc.isInstance .queueTimeoutError then some
            (completionRefused .timedOut "queue_timeout" exc)
          else none := rfl
      unfold classifyRefusal
      dsimp only
      -- only an error of the queue has a clause here; every other one passes
      split_ifs at hclause ⊢
      · rw [Exec.run_tryExcept_caught hrun hclause]
        cases exc <;> exact ⟨_, rfl, rfl, rfl⟩
      · rw [Exec.run_tryExcept_caught hrun hclause]
        cases exc <;> exact ⟨_, rfl, rfl, rfl⟩
      · rw [Exec.run_tryExcept_uncaught hrun hclause]
        exact ⟨t, rfl, rfl, rfl⟩

/-- How the call to the backend ends, behind its `except` clauses. -/
theorem run_backend_settled (env : Env) (reply : Except Exc ChatCompletionResponse)
    {s : Frame CompletionVars} (hcalled : s.suspensions = 1)
    (hstart : s.vars.accounting = (.failed, none)) :
    ∃ r t, (Exec.tryExcept (callBackend env reply) (completionExceptBackend env.clock)).run
      s = (r, t) ∧
      records t.events = records s.events ∧
      classifyRefusal t.vars.accounting r =
        if env.disconnect = some 1 then (.failed, none)
        else match reply with
          | .ok _ => (.completed, none)
          | .error exc => classifyRaised exc := by
  let s₁ : Frame CompletionVars :=
    { s with events := s.events ++ [.called env.call.backend env.call.model false] }
  have hlogged : records s₁.events = records s.events := by
    rw [records_append]
    exact List.append_nil _
  by_cases hleave : env.disconnect = some 1
  · have hwait := run_suspend_leave (V := CompletionVars) .cancelledError s₁ (hcalled ▸ hleave)
    have hcall : (callBackend env reply).run s = (.error .cancelledError, s₁) :=
      Exec.run_modify_bind.trans (Exec.run_bind_error hwait)
    refine ⟨_, s₁, Exec.run_tryExcept_uncaught hcall (completionExceptBackend_other env.clock rfl),
      hlogged, ?_⟩
    rw [if_pos hleave]
    exact hstart
  rw [if_neg hleave]
  have hwait := run_suspend_stay (V := CompletionVars) .cancelledError s₁ (hcalled ▸ hleave)
  cases reply with
  | ok resp =>
      have hcall : ∃ t, (callBackend env (.ok resp)).run s = (.ok (), t) ∧
          records t.events = records s.events ∧
              t.vars.accounting = (.completed, s.vars.errorCode) :=
        ⟨_, Exec.run_modify_bind.trans (Exec.run_bind_ok hwait), hlogged, rfl⟩
      obtain ⟨t, hrun, hevents, haccounting⟩ := hcall
      refine ⟨_, t, Exec.run_tryExcept_ok hrun, hevents, ?_⟩
      rw [(Prod.mk.inj hstart).2] at haccounting
      exact haccounting
  | error exc =>
      have hcall : (callBackend env (.error exc)).run s
          = (.error exc, { s₁ with suspensions := s.suspensions + 1 }) :=
        Exec.run_modify_bind.trans (Exec.run_bind_ok hwait)
      change ∃ r t, _ ∧ _ ∧ _ = classifyRaised exc
      unfold classifyRaised
      -- Only the `BackendError` clauses are inside the slot; the queue's clauses are outside it.
      cases hcls : exc.backendClass with
      | some cls =>
          obtain ⟨what, hclause⟩ := completionExceptBackend_backend env.clock hcls
          exact ⟨_, _, (Exec.run_tryExcept_caught hcall hclause).trans rfl, hlogged, rfl⟩
      | none =>
          have hclause := completionExceptBackend_other env.clock hcls
          refine ⟨_, _, Exec.run_tryExcept_uncaught hcall hclause, hlogged, ?_⟩
          rw [← hstart]

/-- When the `except` clauses of `_non_streaming_completion` are through, nothing is recorded yet,
and the variables hold what will be. -/
theorem completion_settled (env : Env) (reply : Except Exc ChatCompletionResponse)
    {s : Frame CompletionVars} (hfresh : s.suspensions = 0)
    (hstart : s.vars.accounting = (.failed, none)) (hrecords : records s.events = []) :
    ∃ t, ((Exec.tryExcept (completionBody env reply) completionExceptQueue).run s).2 = t ∧
      records t.events = [] ∧ t.vars.accounting = completionOutcome env reply := by
  have hacquiring : records (s.events ++ [.acquiring]) = [] := by rw [records_append, hrecords]; rfl
  unfold completionOutcome
  by_cases hleave : env.disconnect = some 0
  · -- the client leaves while the request waits, so nothing was settled
    obtain ⟨t, ht, hevents, haccounting⟩ := run_completionExceptQueue
      (show (completionBody env reply).run s = _ from run_withAcquire_left (hfresh ▸ hleave))
    rw [if_pos hleave]
    exact ⟨t, ht, hevents ▸ hacquiring, haccounting.trans hstart⟩
  rw [if_neg hleave]
  have hrefused : ∀ error, env.acquire.error = some error →
      (completionBody env reply).run s = (.error (.syn error),
        { s with events := s.events ++ [.acquiring], suspensions := s.suspensions + 1 }) :=
    fun error herror => run_withAcquire_refused (hfresh ▸ hleave) herror
  cases hacquire : env.acquire with
  | queueFull =>
      rw [hacquire] at hrefused
      obtain ⟨t, ht, hevents, haccounting⟩ := run_completionExceptQueue (hrefused _ rfl)
      exact ⟨t, ht, hevents ▸ hacquiring, haccounting⟩
  | queueTimeout waited =>
      rw [hacquire] at hrefused
      obtain ⟨t, ht, hevents, haccounting⟩ := run_completionExceptQueue (hrefused _ rfl)
      exact ⟨t, ht, hevents ▸ hacquiring, haccounting⟩
  | admitted =>
      have hnone : env.acquire.error = none := by rw [hacquire]; rfl
      have hacquired : records (s.events ++ [.acquiring] ++ [.acquired]) = [] := by
        rw [records_append, hacquiring]
        rfl
      obtain ⟨r, t, hrun, ht, hends⟩ :=
        run_backend_settled env reply
          (s := { s with
            vars := { s.vars with
              admissionCompleted := some env.clock.admissionCompleted
              backendStarted := some env.clock.backendStarted }
            events := s.events ++ [.acquiring] ++ [.acquired]
            suspensions := s.suspensions + 1 }) (congrArg (· + 1) hfresh) hstart
      have hbody : (completionBody env reply).run s
          = (r, { t with events := t.events ++ [.released] }) :=
        run_withAcquire_admitted (hfresh ▸ hleave) hnone hrun
      have hleft : records (t.events ++ [.released]) = [] := by
        rw [records_append, ht, hacquired]
        rfl
      obtain ⟨u, hu, hevents, haccounting⟩ := run_completionExceptQueue hbody
      exact ⟨u, hu, hevents ▸ hleft, haccounting.trans hends⟩

/-- The records so far. -/
def recordsOf (s : Frame V) : List UsageRecord := records s.events

/-- An event that is no record leaves the records. -/
theorem preserves_log {event : Event} (h : records [event] = []) :
    Exec.Preserves recordsOf (log event : Body V Unit) := by
  refine Exec.Moves.modify fun s => ?_
  unfold Exec.Same recordsOf
  rw [records_append, h, List.append_nil]

/-- The exception handlers record nothing. -/
theorem preserves_handleException {exc : Exc} {answer : Body V Unit}
    (h : answer ∈ handleException env exc) : Exec.Preserves recordsOf answer := by
  cases exc with
  | syn error =>
      obtain rfl := Option.some.inj h
      exact preserves_log rfl
  | exception message =>
      obtain rfl := Option.some.inj h
      exact preserves_log rfl
  | cancelledError => cases h
  | generatorExit => cases h

/-- Serving the response records nothing further. -/
theorem records_completionEvents (env : Env) (reply : Except Exc ChatCompletionResponse) :
    records (completionEvents env reply) =
      recordsOf ((nonStreamingCompletion env reply).run { vars := {} }).2 := by
  refine (Exec.view_tryExcept recordsOf ?_ _).trans ?_
  · exact fun exc answer h => preserves_handleException h
  · exact Exec.view_bind recordsOf (fun _ => preserves_log rfl) _

/-- **The non-streaming path.** A client that stays gets one record, if usage is recorded, and it
accounts for the request as documented. -/
theorem completion_accounting (env : Env) (resp : ChatCompletionResponse)
    (hstay : env.disconnect = none) (hadmission : env.app.admission = true)
    (hqueue : NoQueueError env.upstream.raised) :
    (records (completionEvents env (replyOf env.upstream.raised resp))).map UsageRecord.accounting
      = if env.app.Records then [documented env.acquire env.upstream.raised] else [] := by
  obtain ⟨t, ht, hrecords, haccounting⟩ :=
    completion_settled env (replyOf env.upstream.raised resp) (s := { vars := {} }) rfl rfl rfl
  rw [completionOutcome_documented env.upstream.raised resp hstay hqueue] at haccounting
  have hrun : recordsOf ((nonStreamingCompletion env (replyOf env.upstream.raised resp)).run
        { vars := {} }).2
      = recordsOf ((completionFinally env).run t).2 := by
    unfold nonStreamingCompletion getAdmission
    rw [if_pos hadmission, Exec.run_pure_bind]
    -- the checks before the `try` statement record nothing
    refine (Exec.view_bind recordsOf ?_ _).trans ?_
    · intro _
      refine Exec.Moves.get.bind fun s => ?_
      split
      · exact Exec.Moves.raise _
      · dsimp only
        split
        · exact Exec.Moves.raise _
        · exact Exec.Moves.pure _
    · rw [Exec.run_tryFinally_state, ht]
  rw [records_completionEvents, hrun]
  -- the one row is the one that the `finally` clause writes
  unfold completionFinally
  rw [Exec.run_get_bind, run_recordUsage, recordsOf, records_append, hrecords, List.nil_append]
  split
  · exact congrArg (fun a => [a]) haccounting
  · rfl

/-! ## The streaming path -/

/-- The client leaves before the generator is through. -/
def Env.Disconnected (env : Env) : Prop := ∃ k, env.disconnect = some k ∧ k < env.suspensions

/-- The end of the response records nothing further. -/
theorem records_streamEvents (hadmission : env.app.admission = true) :
    records (streamEvents env) = recordsOf ((streamGenerator env).run (started env)).2 := by
  unfold streamEvents
  rw [run_serveStream env hadmission]
  exact Exec.view_bind recordsOf (fun _ => preserves_log rfl) _

/-- A streaming request records one row, if usage is recorded: a cancellation when the client
leaves, and otherwise what its `try` block ends with. -/
theorem stream_accounting (env : Env) (hadmission : env.app.admission = true) :
    ∃ r, (env.Disconnected → Interrupted r) ∧ (¬ env.Disconnected → r = streamEnd env) ∧
      (records (streamEvents env)).map UsageRecord.accounting
        = if env.app.Records then [classify r] else [] := by
  have hleaves : LeavesWithin env (started env) env.suspensions ↔ env.Disconnected := by
    unfold LeavesWithin Env.Disconnected
    simp [started]
  obtain ⟨hleave, hstay⟩ := streamBody_suspends env (started env)
  obtain ⟨row, hrow, hrecords⟩ := streamGenerator_records env (s := started env) rfl
  rw [hleaves] at hleave hstay
  refine ⟨_, hleave, fun h => (hstay h).1, ?_⟩
  rw [records_streamEvents hadmission, recordsOf, hrecords, ← hrow]
  split <;> rfl

/-- A stream that the client interrupts is cancelled. -/
theorem classify_interrupted {r : Except Exc Unit} (h : Interrupted r) :
    classify r = (.cancelled, none) := by
  rcases h with rfl | rfl <;> rfl

/-- The relay loop of chunks that can all be encoded ends as the upstream does. -/
theorem relayEnd_encodable {chunks : List ChatCompletionChunk}
    (h : ∀ chunk ∈ chunks, chunk.Encodable env.call.canonicalModel) :
    relayEnd env chunks = relayEnd env [] := by
  induction chunks with
  | nil => rfl
  | cons chunk chunks ih =>
      obtain ⟨hchunk, hchunks⟩ := List.forall_mem_cons.mp h
      exact (if_pos (formatSse_isSome_iff.mpr hchunk)).trans (ih hchunks)

/-- The relay loop ends with an `Exception` at a chunk that cannot be encoded. -/
theorem relayEnd_not_encodable {chunks : List ChatCompletionChunk}
    (h : ¬ ∀ chunk ∈ chunks, chunk.Encodable env.call.canonicalModel) :
    ∃ message, relayEnd env chunks = .error (.exception message) := by
  induction chunks with
  | nil => exact absurd (fun _ hmem => nomatch hmem) h
  | cons chunk chunks ih =>
      unfold relayEnd
      split
      · next hsome =>
          refine ih fun hchunks => h ?_
          exact List.forall_mem_cons.mpr ⟨formatSse_isSome_iff.mp hsome, hchunks⟩
      · exact ⟨_, rfl⟩

/-- The causes that the streaming path accounts for as documented while the client stays. -/
def Env.Ordinary (env : Env) : Prop :=
  env.acquire = .admitted ∧
    (∀ chunk ∈ env.upstream.chunks, chunk.Encodable env.call.canonicalModel) ∧
    ∀ exc ∈ env.upstream.raised, exc.backendClass.isSome

/-- What the streaming path settles on for the other causes is a cancellation. -/
theorem classify_not_ordinary (h : ¬ env.Ordinary) :
    classify (streamEnd env) = (.cancelled, none) := by
  unfold Env.Ordinary at h
  unfold streamEnd
  cases hacquire : env.acquire with
  | queueFull => rfl
  | queueTimeout waited => rfl
  | admitted =>
      change classify (relayEnd env env.upstream.chunks) = _
      by_cases hchunks : ∀ chunk ∈ env.upstream.chunks, chunk.Encodable env.call.canonicalModel
      · -- the chunks can be encoded, so an exception of the upstream ends the stream
        rw [relayEnd_encodable hchunks]
        unfold relayEnd
        cases hraised : env.upstream.raised with
        | none => exact absurd ⟨hacquire, hchunks, by simp [hraised]⟩ h
        | some exc =>
            cases hcls : exc.backendClass with
            | none => exact classify_other hcls
            | some cls => exact absurd ⟨hacquire, hchunks, by simp [hraised, hcls]⟩ h
      · obtain ⟨message, hend⟩ := relayEnd_not_encodable hchunks
        rw [hend]
        rfl

/-- An ordinary stream that ends by itself is classified as documented. -/
theorem classify_ordinary (h : env.Ordinary) :
    classify (streamEnd env) = documented env.acquire env.upstream.raised := by
  obtain ⟨hacquire, hchunks, hraised⟩ := h
  unfold streamEnd
  rw [hacquire]
  change classify (relayEnd env env.upstream.chunks) = _
  rw [relayEnd_encodable hchunks]
  unfold relayEnd
  cases hexc : env.upstream.raised with
  | none => rfl
  | some exc =>
      obtain ⟨cls, hcls⟩ := Option.isSome_iff_exists.mp (hraised exc hexc)
      have hdoc : documented .admitted (some exc) =
        (.failed, exc.backendClass.map ErrorClass.code) := rfl
      rw [hdoc, hcls]
      exact classify_backend hcls

/-- No documented cause is a cancellation. -/
theorem documented_ne_cancelled (acquire : Acquire) (raised : Option Exc) :
    documented acquire raised ≠ (.cancelled, none) := by
  cases acquire <;> cases raised <;> exact fun h => Outcome.noConfusion (Prod.mk.inj h).1

/-- The backend of an ordinary stream raises no error of the queue. -/
theorem Env.Ordinary.noQueueError (h : env.Ordinary) : NoQueueError env.upstream.raised := by
  intro exc hexc
  obtain ⟨cls, hcls⟩ := Option.isSome_iff_exists.mp (h.2.2 exc hexc)
  exact noQueueError_of_backendClass hcls

/-! ## The agreement -/

/-- The streaming path writes exactly one record, which says `CANCELLED` when the client has left
before the generator was through, and otherwise what is documented for the cause and what
`_non_streaming_completion` records for it. -/
def AccountingAgrees (env : Env) (resp : ChatCompletionResponse) : Prop :=
  ∃ row, records (streamEvents env) = [row] ∧
    (env.Disconnected → row.accounting = (.cancelled, none)) ∧
    (¬ env.Disconnected →
      row.accounting = documented env.acquire env.upstream.raised ∧
      (records (completionEvents { env with disconnect := none }
        (replyOf env.upstream.raised resp))).map UsageRecord.accounting = [row.accounting])

/-- **Accounting.** Where usage is recorded at all, the two paths agree exactly when the client
leaves or the cause is an ordinary one: on an error of the admission queue, on any other exception
and on a chunk that cannot be encoded, the streaming path records a cancellation. -/
theorem accounting_agrees_iff (env : Env) (resp : ChatCompletionResponse) :
    AccountingAgrees env resp ↔
      env.app.admission = true ∧ env.app.Records ∧ (env.Disconnected ∨ env.Ordinary) := by
  constructor
  · rintro ⟨row, hrow, hleave, hstay⟩
    by_cases hadmission : env.app.admission = true
    · obtain ⟨r, _, hr, hrecords⟩ := stream_accounting _ hadmission
      rw [hrow] at hrecords
      by_cases happ : env.app.Records
      · refine ⟨hadmission, happ, ?_⟩
        -- neither left nor ordinary: the class is that of a disconnect, which no request documents
        by_contra hneither
        obtain ⟨hdis, hord⟩ := not_or.mp hneither
        have hclass : row.accounting = classify r := by
          rw [if_pos happ] at hrecords
          exact List.singleton_inj.mp hrecords
        rw [hr hdis, classify_not_ordinary hord, (hstay hdis).1] at hclass
        exact documented_ne_cancelled _ _ hclass
      · rw [if_neg happ] at hrecords
        cases hrecords
    · rw [streamEvents_not_wired env hadmission] at hrow
      cases hrow
  · rintro ⟨hadmission, happ, hcause⟩
    obtain ⟨r, hleave, hstay, hrecords⟩ := stream_accounting _ hadmission
    rw [if_pos happ] at hrecords
    obtain ⟨row, hrow, hclass⟩ := List.map_eq_singleton_iff.mp hrecords
    refine ⟨row, hrow, fun hdis => ?_, fun hdis => ?_⟩
    · rw [hclass, classify_interrupted (hleave hdis)]
    · have hord := hcause.resolve_left hdis
      have hdoc : row.accounting = documented env.acquire env.upstream.raised := by
        rw [hclass, hstay hdis, classify_ordinary hord]
      refine ⟨hdoc, ?_⟩
      -- the same request without `stream`, with a client that stays
      have hcompletion := completion_accounting { env with disconnect := none } resp
        rfl hadmission hord.noQueueError
      rw [if_pos happ] at hcompletion
      rw [hcompletion, hdoc]

/-- A full queue, a wired gateway, and a client that stays: the streaming request is recorded as
cancelled without an error code, the same request without `stream` as rejected. -/
theorem accounting_disagrees :
    let env : Env :=
      { app := { admission := true, usageService := true, database := true }
        call :=
          { requestId := "r", apiKeyId := none, clientId := none, userId := none, model := [] }
        acquire := .queueFull
        upstream := { chunks := [] } }
    let resp : ChatCompletionResponse :=
      ⟨.null, .null, .null, .null, [], .null, .null, .null, .null⟩
    (records (streamEvents env)).map UsageRecord.accounting = [(.cancelled, none)] ∧
      (records (completionEvents env (.ok resp))).map UsageRecord.accounting
        = [(.rejected, some "queue_full")] ∧
      ¬ AccountingAgrees env resp := by
  intro env resp
  have hstream : (records (streamEvents env)).map UsageRecord.accounting = [(.cancelled, none)] :=
    rfl
  refine ⟨hstream, rfl, ?_⟩
  rintro ⟨row, hrow, _, hstay⟩
  rw [hrow, List.map_singleton, List.singleton_inj] at hstream
  have hdocumented := (hstay (by rintro ⟨k, hk, _⟩; cases hk)).1
  rw [hstream] at hdocumented
  exact absurd hdocumented (by decide)

end SynGateway.Api.Chat

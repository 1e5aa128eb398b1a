import SynGateway.Api.Chat.Defs

/-!
# How a stream ends

The run of `stream_generator`. `Suspends` counts the suspensions of a body and says what it ends
with if the client stays; `streamBody_suspends` gives both for the `try` block. `Ledger` is what the
`except` and `finally` clauses go by: `ledger_streamBody` follows it through the `try` block, and
`streamGenerator_records` reads off the usage record.
-/

namespace SynGateway.Api.Chat

open SynGateway.Core SynGateway.Python SynGateway.Services

variable {V α β : Type} {env : Env}

/-! ## Suspensions -/

/-- The client leaves at one of the next `n` suspensions. -/
def LeavesWithin (env : Env) (s : Frame V) (n : ℕ) : Prop :=
  ∃ k, env.disconnect = some k ∧ s.suspensions ≤ k ∧ k < s.suspensions + n

/-- What a body ends with that the client interrupts. -/
def Interrupted (r : Except Exc α) : Prop := r = .error .cancelledError ∨ r = .error .generatorExit

/-- The type of the result does not matter for an interruption. -/
theorem Interrupted.error {exc : Exc} (h : Interrupted (.error exc : Except Exc α)) :
    Interrupted (.error exc : Except Exc β) := by
  rcases h with heq | heq
  · exact .inl (congrArg _ (Except.error.inj heq))
  · exact .inr (congrArg _ (Except.error.inj heq))

/-- A body that returns is not interrupted. -/
theorem not_interrupted_ok {a : α} : ¬ Interrupted (.ok a) := by
  rintro (heq | heq) <;> cases heq

/-- The body has `n` suspensions and ends with `r`, unless the client leaves at one of them. -/
def Suspends (env : Env) (n : ℕ) (r : Except Exc α) (x : Body V α) : Prop := ∀ s,
  (LeavesWithin env s n → Interrupted (x.run s).1) ∧
  (¬ LeavesWithin env s n → (x.run s).1 = r ∧ (x.run s).2.suspensions = s.suspensions + n)

namespace Suspends

variable {n m : ℕ} {r : Except Exc β} {x : Body V α} {exc : Exc}

/-- Nobody leaves within no suspension. -/
theorem not_leavesWithin_zero {s : Frame V} : ¬ LeavesWithin env s 0 := by
  rintro ⟨k, _, hle, hlt⟩
  omega

/-- A body that runs through and is not suspended. -/
theorem of_run {a : Except Exc α} (h : ∀ s : Frame V, (x.run s).1 = a ∧
    (x.run s).2.suspensions = s.suspensions) : Suspends env 0 a x :=
  fun s => ⟨fun hleave => absurd hleave not_leavesWithin_zero, fun _ => h s⟩

/-- An assignment has no suspension. -/
theorem assign (f : V → V) : Suspends env 0 (.ok ()) (assign f) := of_run fun _ => ⟨rfl, rfl⟩

/-- A log entry has no suspension. -/
theorem log (event : Event) : Suspends (V := V) env 0 (.ok ()) (log event) :=
  of_run fun _ => ⟨rfl, rfl⟩

/-- A `raise` has no suspension. -/
theorem raise (exc : Exc) : Suspends (V := V) env 0 (.error exc) (Exec.raise exc : Body V α) :=
  of_run fun _ => ⟨rfl, rfl⟩

/-- A suspension that a client who leaves resumes with `exc`. -/
theorem suspend (hexc : exc = .cancelledError ∨ exc = .generatorExit) :
    Suspends (V := V) env 1 (.ok ()) (suspend env exc) := by
  intro s
  unfold Chat.suspend
  rw [Exec.run_get_bind]
  constructor
  · -- the client leaves here, and the exception is one of the two that say so
    rintro ⟨k, hk, hle, hlt⟩
    have hk' : k = s.suspensions := by omega
    rw [if_pos (hk'.symm ▸ hk), Exec.run_raise]
    rcases hexc with rfl | rfl
    · exact .inl rfl
    · exact .inr rfl
  · intro hstay
    have hne : env.disconnect ≠ some s.suspensions := by
      intro heq
      exact hstay ⟨_, heq, Nat.le_refl _, Nat.lt_succ_self _⟩
    rw [if_neg hne, Exec.run_modify]
    exact ⟨rfl, rfl⟩

/-- The suspensions of two bodies, one after the other. -/
theorem bind_ok {a : α} {f : α → Body V β} (hx : Suspends env n (.ok a) x)
    (hf : Suspends env m r (f a)) : Suspends env (n + m) r (x >>= f) := by
  intro s
  by_cases hleave : LeavesWithin env s n
  · obtain ⟨k, hk, hle, hlt⟩ := id hleave
    have hboth : LeavesWithin env s (n + m) := ⟨k, hk, hle, by omega⟩
    refine ⟨fun _ => ?_, fun hstay => absurd hboth hstay⟩
    have hrun := (hx s).1 hleave
    rcases hres : x.run s with ⟨e | b, s'⟩
    · rw [Exec.run_bind_error hres]
      rw [hres] at hrun
      exact hrun.error
    · rw [hres] at hrun
      exact absurd hrun not_interrupted_ok
  · obtain ⟨hok, hsusp⟩ := (hx s).2 hleave
    rcases hres : x.run s with ⟨res, s'⟩
    rw [hres] at hok hsusp
    obtain rfl : res = .ok a := hok
    -- past the first `n` suspensions, the client leaves within the other `m` or not at all
    have hiff : LeavesWithin env s (n + m) ↔ LeavesWithin env s' m := by
      unfold LeavesWithin
      have hsusp : s'.suspensions = s.suspensions + n := hsusp
      constructor
      · rintro ⟨k, hk, hle, hlt⟩
        have hpast : ¬ k < s.suspensions + n := fun hk' => hleave ⟨k, hk, hle, hk'⟩
        exact ⟨k, hk, by omega, by omega⟩
      · rintro ⟨k, hk, hle, hlt⟩
        exact ⟨k, hk, by omega, by omega⟩
    rw [Exec.run_bind_ok hres, hiff]
    refine ⟨(hf s').1, fun hstay => ?_⟩
    obtain ⟨hres', hsusp'⟩ := (hf s').2 hstay
    exact ⟨hres', by rw [hsusp', hsusp, Nat.add_assoc]⟩

/-- A first part that is not suspended. -/
theorem bind_run {a : α} {f : α → Body V β} (hx : Suspends env 0 (.ok a) x)
    (hf : Suspends env m r (f a)) : Suspends env m r (x >>= f) := by
  have h := hx.bind_ok hf
  rwa [Nat.zero_add] at h

/-- What follows an exception is not reached. -/
theorem bind_error {f : α → Body V β} (hx : Suspends env n (.error exc) x) :
    Suspends env n (.error exc) (x >>= f) := by
  intro s
  rcases hres : x.run s with ⟨e | b, s'⟩
  · rw [Exec.run_bind_error hres]
    have hs := hx s
    rw [hres] at hs
    refine ⟨fun hleave => (hs.1 hleave).error, fun hstay => ?_⟩
    exact ⟨congrArg _ (Except.error.inj (hs.2 hstay).1), (hs.2 hstay).2⟩
  · have hs := hx s
    rw [hres] at hs
    by_cases hleave : LeavesWithin env s n
    · exact absurd (hs.1 hleave) not_interrupted_ok
    · cases (hs.2 hleave).1

/-- A clean-up that runs through keeps what the body ended with. -/
theorem tryFinally {a : Except Exc α} {cleanup : Body V Unit} (hx : Suspends env n a x)
    (hclean : Suspends env 0 (.ok ()) cleanup) : Suspends env n a (Exec.tryFinally x cleanup) := by
  intro s
  rcases hres : x.run s with ⟨res, s'⟩
  obtain ⟨hok, hsusp⟩ := (hclean s').2 not_leavesWithin_zero
  rcases hrun : cleanup.run s' with ⟨res', t⟩
  rw [hrun] at hok hsusp
  obtain rfl : res' = .ok () := hok
  have hs := hx s
  rw [hres] at hs
  rw [Exec.run_tryFinally hres hrun]
  exact ⟨hs.1, fun hstay => ⟨(hs.2 hstay).1, hsusp.trans (hs.2 hstay).2⟩⟩

end Suspends

/-- A `yield` is one suspension. -/
theorem yieldBytes_suspends (bytes : List UInt8) :
    Suspends env 1 (.ok ()) (yieldBytes env bytes) := by
  unfold yieldBytes
  refine (Suspends.log _).bind_run ?_
  exact Suspends.suspend (.inr rfl)

/-- The suspensions of the relay loop when the client stays. -/
def relaySuspensions (canonicalModel : Str) : List ChatCompletionChunk → ℕ
  | [] => 1
  | chunk :: chunks =>
    if (formatSse (relayedDict canonicalModel chunk)).isSome then
      1 + (1 + relaySuspensions canonicalModel chunks)
    else 1

/-- What the relay loop ends with when the client stays. -/
def relayEnd (env : Env) : List ChatCompletionChunk → Except Exc Unit
  | [] =>
    match env.upstream.raised with
    | some exc => .error exc
    | none => .ok ()
  | chunk :: chunks =>
    if (formatSse (relayedDict env.call.canonicalModel chunk)).isSome then relayEnd env chunks
    else .error (.exception "'utf-8' codec can't encode: surrogates not allowed")

/-- The relay loop: two suspensions for every chunk, one for what follows the last. -/
theorem relay_suspends (env : Env) (chunks : List ChatCompletionChunk) :
    Suspends env (relaySuspensions env.call.canonicalModel chunks) (relayEnd env chunks)
      (relay env chunks) := by
  have hwait : Suspends env 1 (.ok ()) (suspend env .cancelledError : Body StreamVars Unit) :=
    .suspend (.inl rfl)
  induction chunks with
  | nil =>
      unfold relay relayEnd
      refine hwait.bind_ok (m := 0) ?_
      rcases env.upstream.raised with _ | exc
      · exact Suspends.of_run fun _ => ⟨rfl, rfl⟩
      · exact Suspends.raise exc
  | cons chunk chunks ih =>
      unfold relay relayEnd relaySuspensions
      cases hbytes : formatSse (relayedDict env.call.canonicalModel chunk) with
      | none =>
          refine hwait.bind_ok (m := 0) ?_
          -- a chunk that cannot be encoded ends the relay before its `yield`
          refine (Suspends.assign _).bind_run ?_
          exact Suspends.raise _
      | some bytes =>
          refine hwait.bind_ok ?_
          refine (Suspends.assign _).bind_run ?_
          refine (yieldBytes_suspends bytes).bind_ok ?_
          exact ih

/-- What the `try` block of `stream_generator` ends with when the client stays. -/
def streamEnd (env : Env) : Except Exc Unit :=
  match env.acquire.error with
  | some error => .error (.syn error)
  | none => relayEnd env env.upstream.chunks

/-- The suspensions of `stream_generator` when the client stays: in `acquire()`, in the relay loop,
and at the sentinel. -/
def Env.suspensions (env : Env) : ℕ :=
  match env.acquire.error with
  | some _ => 1
  | none =>
    1 + (relaySuspensions env.call.canonicalModel env.upstream.chunks
      + match relayEnd env env.upstream.chunks with
        | .ok _ => 1
        | .error _ => 0)

/-- The body of a stream has its suspensions, and ends as its upstream says. -/
theorem streamBody_suspends (env : Env) :
    Suspends env env.suspensions (streamEnd env) (streamBody env) := by
  have hwait : Suspends env 1 (.ok ()) (suspend env .cancelledError : Body StreamVars Unit) :=
    .suspend (.inl rfl)
  unfold streamBody withAcquire streamEnd Env.suspensions
  refine (Suspends.log _).bind_run ?_
  cases env.acquire.error with
  | some error => exact hwait.bind_ok (m := 0) (Suspends.raise _)
  | none =>
      refine hwait.bind_ok ?_
      refine (Suspends.log _).bind_run ?_
      refine Suspends.tryFinally ?_ (Suspends.log _)
      refine (Suspends.assign _).bind_run ?_
      refine (Suspends.log _).bind_run ?_
      have hrelay := relay_suspends env env.upstream.chunks
      cases hend : relayEnd env env.upstream.chunks with
      -- an upstream that fails is not followed by `[DONE]`
      | error exc => exact (hend ▸ hrelay).bind_error
      | ok _ =>
          refine (hend ▸ hrelay).bind_ok ?_
          refine (yieldBytes_suspends _).bind_ok (m := 0) ?_
          exact Suspends.assign _

/-! ## What the relay loop can do -/

section Closed

variable {R : Frame StreamVars → Frame StreamVars → Prop}

/-- The relation holds across everything that the relay loop does between two states. -/
structure RelayClosed (R : Frame StreamVars → Frame StreamVars → Prop) : Prop where
  suspended : ∀ s, R s { s with suspensions := s.suspensions + 1 }
  sent : ∀ s bytes, R s { s with events := s.events ++ [.sent (.chunk bytes)] }
  chunkSeen : ∀ s ts, R s { s with vars := { s.vars with firstChunkTs := ts } }

variable [Std.Refl R]

/-- A suspension counts itself and may raise. -/
theorem moves_suspend {exc : Exc} (h : ∀ s, R s { s with suspensions := s.suspensions + 1 }) :
    Exec.Moves R (suspend env exc) := by
  unfold suspend
  intro s
  rw [Exec.run_get_bind]
  split
  · exact Exec.Moves.raise exc s
  · exact h s

variable [IsTrans (Frame StreamVars) R]

/-- A `yield` sends the bytes or is interrupted. -/
theorem moves_yieldBytes (h : RelayClosed R) (bytes : List UInt8) :
    Exec.Moves R (yieldBytes env bytes) := by
  unfold yieldBytes
  exact Exec.Moves.bind (fun s => h.sent s bytes) fun _ => moves_suspend h.suspended

/-- The relay loop, wherever it ends. -/
theorem moves_relay (h : RelayClosed R) (chunks : List ChatCompletionChunk) :
    Exec.Moves R (relay env chunks) := by
  induction chunks with
  | nil =>
      unfold relay
      refine (moves_suspend h.suspended).bind fun _ => ?_
      split
      · exact Exec.Moves.raise _
      · exact Exec.Moves.pure ()
  | cons chunk chunks ih =>
      unfold relay
      refine (moves_suspend h.suspended).bind fun _ => ?_
      refine Exec.Moves.bind (fun s => h.chunkSeen s _) fun _ => ?_
      split
      · exact Exec.Moves.raise _
      · exact (moves_yieldBytes h _).bind fun _ => ih

end Closed

/-! ## The ledger -/

/-- What the `except` and `finally` clauses of `stream_generator` go by, and what was recorded. -/
structure Ledger where
  outcome : Outcome
  errorCode : Option String
  completedNormally : Bool
  records : List UsageRecord

def ledger (s : Frame StreamVars) : Ledger where
  outcome := s.vars.finalOutcome
  errorCode := s.vars.finalErrorCode
  completedNormally := s.vars.streamCompletedNormally
  records := records s.events

/-- What a normal end of the stream makes of it. -/
def Ledger.complete (l : Ledger) :
    Ledger := { l with outcome := .completed, completedNormally := true }

/-- The records of joined events are those of the parts. -/
theorem records_append (events events' : List Event) :
    records (events ++ events') = records events ++ records events' := List.filterMap_append ..

/-- An event that is no record leaves the ledger. -/
theorem ledger_log {event : Event} (h : records [event] = []) :
    Exec.Preserves ledger (log event : Body StreamVars Unit) := by
  refine Exec.Moves.modify fun s => ?_
  unfold Exec.Same ledger
  rw [records_append, h, List.append_nil]

/-- No step of the relay touches the ledger. -/
theorem ledger_closed : RelayClosed (Exec.Same ledger) where
  suspended _ := rfl
  sent s _ := ledger_log rfl s
  chunkSeen _ _ := rfl

/-- The `try` block enters the normal end in the ledger, and nothing before it. -/
theorem ledger_streamBody (env : Env) : Exec.Commits ledger Ledger.complete (streamBody env) := by
  unfold streamBody withAcquire
  refine Exec.Commits.bind (ledger_log rfl) fun _ => ?_
  refine Exec.Commits.bind (moves_suspend ledger_closed.suspended) fun _ => ?_
  split
  · exact Exec.Commits.raise _
  · refine Exec.Commits.bind (ledger_log rfl) fun _ => ?_
    refine Exec.Commits.tryFinally ?_ (fun _ => rfl) (ledger_log rfl)
    refine Exec.Commits.bind (Exec.Moves.modify fun _ => rfl) fun _ => ?_
    refine Exec.Commits.bind (ledger_log rfl) fun _ => ?_
    refine Exec.Commits.bind (moves_relay ledger_closed _) fun _ => ?_
    refine Exec.Commits.bind (moves_yieldBytes ledger_closed _) fun _ => ?_
    exact Exec.Commits.modify fun _ => rfl

/-! ## The usage record -/

/-- Usage is recorded: the service and the database are wired, and the database takes the row. -/
def App.Records (app : App) : Prop :=
  app.usageService = true ∧ app.database = true ∧ app.recordError = none

instance (app : App) : Decidable app.Records := inferInstanceAs (Decidable (_ ∧ _ ∧ _))

/-- What the recording does before its exceptions are caught. -/
theorem run_record (app : App) (row : UsageRecord) (s : Frame V) :
    (app.database = true ∧ app.recordError = none ∧
      (do getDbSessionForUsage app; record app row : Body V Unit).run s
        = (.ok (), { s with events := s.events ++ [.recorded row] })) ∨
    ∃ exc, ¬ (app.database = true ∧ app.recordError = none) ∧
      (do getDbSessionForUsage app; record app row : Body V Unit).run s = (.error exc, s) := by
  unfold getDbSessionForUsage record
  cases hdatabase : app.database with
  | false => exact .inr ⟨_, by simp, rfl⟩
  | true =>
      cases herror : app.recordError with
      | none => exact .inl ⟨rfl, rfl, rfl⟩
      | some exc => exact .inr ⟨exc, by simp, rfl⟩

/-- The recording writes its row, or nothing, and touches nothing else. -/
theorem run_recordUsage (app : App) (row : UsageRecord) (s : Frame V) :
    ((recordUsage app row).run s).2
      = { s with events := s.events ++ if app.Records then [.recorded row] else [] } := by
  unfold recordUsage
  by_cases hservice : app.usageService = true
  · rw [if_pos hservice]
    rcases run_record app row s with ⟨hdb, herr, hrun⟩ | ⟨exc, hfail, hrun⟩
    · rw [if_pos ⟨hservice, hdb, herr⟩, Exec.run_tryExcept_ok hrun]
    · rw [if_neg fun h => hfail h.2, List.append_nil]
      by_cases hcaught : exc.isException = true
      · rw [Exec.run_tryExcept_caught hrun (if_pos hcaught), Exec.run_pure]
      · rw [Exec.run_tryExcept_uncaught hrun (if_neg hcaught)]
  · rw [if_neg hservice, if_neg fun h => hservice h.1, List.append_nil, Exec.run_pure]

/-- The outcome and the error code that `stream_generator` settles on when its `try` block ended
with `r`: whatever is neither a normal end nor a typed backend error passes for a cancellation. -/
def classify : Except Exc Unit → Outcome × Option String
  | .ok _ => (.completed, none)
  | .error exc =>
    match exc.backendClass with
    | some cls => (.failed, some cls.code)
    | none => (.cancelled, none)

/-- An error of the backend is a failure under its code. -/
theorem classify_backend {exc : Exc} {cls : ErrorClass} (h : exc.backendClass = some cls) :
    classify (.error exc) = (.failed, some cls.code) := by
  simp only [classify, h]

/-- Any other exception counts as a cancellation. -/
theorem classify_other {exc : Exc} (h : exc.backendClass = none) :
    classify (.error exc) = (.cancelled, none) := by
  simp only [classify, h]

/-- The clause that takes a typed backend error is the one with the error's own code. -/
theorem streamExcept_backend (clock : Clock) {exc : Exc} {cls : ErrorClass}
    (h : exc.backendClass = some cls) :
    streamExcept clock exc = some (stopFailed clock cls.code) := by
  obtain ⟨error, rfl, hcls, hbackend⟩ := Exc.eq_syn_of_backendClass h
  unfold streamExcept
  simp only [Exc.isInstance_syn, hcls]
  rcases ErrorClass.isBackend_iff.mp hbackend with rfl | rfl | rfl | rfl <;> rfl

/-- No clause of a backend error takes any other exception. -/
theorem streamExcept_other (clock : Clock) {exc : Exc} (h : exc.backendClass = none) :
    streamExcept clock exc
      = if exc = .cancelledError then some (do stop clock .cancelled; Exec.raise exc)
        else if exc.isException then some (stop clock .failed)
        else none := by
  unfold streamExcept
  simp only [Exc.isInstance_eq_false h, ErrorClass.isBackend_iff, true_or, or_true,
    Bool.false_eq_true, if_false]

/-- The clauses assign two variables, and raise. -/
theorem moves_streamExcept {R : Frame StreamVars → Frame StreamVars → Prop} [Std.Refl R]
    [IsTrans (Frame StreamVars) R] {clock : Clock} {exc : Exc} {clause : Body StreamVars Unit}
    (hstop : ∀ outcome, Exec.Moves R (stop clock outcome))
    (hcode : ∀ code,
      Exec.Moves R (assign fun v : StreamVars => { v with finalErrorCode := some code }))
    (h : clause ∈ streamExcept clock exc) : Exec.Moves R clause := by
  cases hcls : exc.backendClass with
  | some cls =>
      rw [streamExcept_backend clock hcls] at h
      obtain rfl := Option.some.inj h
      exact (hstop _).bind fun _ => hcode _
  | none =>
      rw [streamExcept_other clock hcls] at h
      split_ifs at h
      · obtain rfl := Option.some.inj h
        exact (hstop _).bind fun _ => Exec.Moves.raise exc
      · obtain rfl := Option.some.inj h
        exact hstop _
      · cases h

/-- The ledger of a request that has not begun. -/
def Ledger.start : Ledger := ⟨.failed, none, false, []⟩

/-- A failure without a code is taken for a disconnect. -/
theorem detectDisconnect_failed {v : StreamVars} (hnormal : v.streamCompletedNormally = false)
    (houtcome : v.finalOutcome = .failed) (hcode : v.finalErrorCode = none) :
    detectDisconnect v = { v with finalOutcome := .cancelled } := by
  unfold detectDisconnect
  rw [hnormal, houtcome, hcode]
  rfl

/-- An outcome that was set stays as it is. -/
theorem detectDisconnect_settled {v : StreamVars}
    (h : v.finalOutcome ≠ .failed ∨ v.finalErrorCode ≠ none) : detectDisconnect v = v := by
  unfold detectDisconnect
  rw [if_neg]
  rintro hall
  simp only [Bool.and_eq_true, decide_eq_true_eq] at hall
  rcases h with h | h
  · exact h hall.1.2
  · exact h hall.2

/-- When the `except` clauses are through, nothing is recorded yet, and the `finally` clause settles
on what the `try` block ended with. -/
theorem settled {s s' : Frame StreamVars} {r : Except Exc Unit} (hstart : ledger s = .start)
    (hrun : (streamBody env).run s = (r, s')) :
    ∃ t, ((Exec.tryExcept (streamBody env) (streamExcept env.clock)).run s).2 = t ∧
      records t.events = [] ∧ (streamRecord env (detectDisconnect t.vars)).accounting =
      classify r := by
  have hledger := ledger_streamBody env s
  rw [hrun, hstart] at hledger
  rcases r with exc | _
  · have hkept : ledger s' = .start := hledger
    obtain ⟨houtcome, hcode, hnormal, hrecords⟩ := Ledger.mk.inj hkept
    cases hcls : exc.backendClass with
    | some cls =>
        rw [Exec.run_tryExcept_caught hrun (streamExcept_backend env.clock hcls),
          classify_backend hcls]
        refine ⟨_, rfl, hrecords, ?_⟩
        rw [detectDisconnect_settled (.inr (Option.some_ne_none _))]
        rfl
    | none =>
        have hclauses := streamExcept_other env.clock hcls
        rw [classify_other hcls]
        by_cases hcancelled : exc = .cancelledError
        · rw [if_pos hcancelled] at hclauses
          rw [Exec.run_tryExcept_caught hrun hclauses]
          refine ⟨_, rfl, hrecords, ?_⟩
          rw [detectDisconnect_settled (.inl Outcome.noConfusion)]
          exact Prod.ext rfl hcode
        · rw [if_neg hcancelled] at hclauses
          by_cases hexception : exc.isException = true
          · rw [if_pos hexception] at hclauses
            rw [Exec.run_tryExcept_caught hrun hclauses]
            refine ⟨_, rfl, hrecords, ?_⟩
            let v := ((stop env.clock .failed).run s').2.vars
            rw [detectDisconnect_failed (v := v) hnormal rfl hcode]
            exact Prod.ext rfl hcode
          -- A `BaseException` passes every clause: the variables are those of the start.
          · rw [if_neg hexception] at hclauses
            rw [Exec.run_tryExcept_uncaught hrun hclauses]
            refine ⟨_, rfl, hrecords, ?_⟩
            rw [detectDisconnect_failed hnormal houtcome hcode]
            exact Prod.ext rfl hcode
  · have hcomplete : ledger s' = Ledger.start.complete := hledger
    obtain ⟨houtcome, hcode, _, hrecords⟩ := Ledger.mk.inj hcomplete
    rw [Exec.run_tryExcept_ok hrun]
    refine ⟨_, rfl, hrecords, ?_⟩
    rw [detectDisconnect_settled (.inl (by rw [houtcome]; decide))]
    exact Prod.ext houtcome hcode

/-- `stream_generator` records one row, if any, and the row says what the `try` block ended with. -/
theorem streamGenerator_records (env : Env) {s : Frame StreamVars} (hstart : ledger s = .start) :
    ∃ row : UsageRecord, row.accounting = classify ((streamBody env).run s).1 ∧
      records ((streamGenerator env).run s).2.events = if env.app.Records then [row] else [] := by
  rcases hrun : (streamBody env).run s with ⟨r, s'⟩
  obtain ⟨t, hclauses, hrecords, hrow⟩ := settled hstart hrun
  refine ⟨_, hrow, ?_⟩
  unfold streamGenerator streamFinally
  rw [Exec.run_tryFinally_state, hclauses]
  unfold assign
  rw [Exec.run_modify_bind, Exec.run_get_bind, run_recordUsage, records_append, hrecords]
  split <;> rfl

/-! ## Serving the stream -/

/-- A streaming request when its body begins to be iterated. -/
def started (env : Env) : Frame StreamVars where
  vars := {}
  events := [.sent (.start 200 "text/event-stream"
    [("Cache-Control", "no-cache"), ("X-Request-ID", env.call.requestId)])]

/-- The response to a request that finds no admission controller. -/
def notWired (env : Env) : List Event :=
  let (status, content) := errorResponse chatPath env.call.requestId
    (ErrorClass.synError.new (some "admission controller not available")
      (some "admission_not_wired") (some 503) none)
  [.sent (.json status content)]

/-- A stream without an admission controller is answered with a 503. -/
theorem streamEvents_not_wired (env : Env) (hadmission : ¬ env.app.admission = true) :
    streamEvents env = notWired env := by
  unfold streamEvents serveStream streamingCompletion getAdmission
  rw [if_neg hadmission]
  rfl

/-- The response is built and its status line sent before anything of the generator runs. -/
theorem run_serveStream (env : Env) (hadmission : env.app.admission = true) :
    (serveStream env).run { vars := {} }
      = (streamGenerator env >>= fun _ => log (.sent .done)).run (started env) := by
  unfold serveStream streamingCompletion getAdmission
  rw [if_pos hadmission]
  rfl

end SynGateway.Api.Chat

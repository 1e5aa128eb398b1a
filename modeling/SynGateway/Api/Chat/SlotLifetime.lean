import SynGateway.Api.Chat.Accounting
import SynGateway.Core.Admission.Steps

/-!
# The slot and the status line

`_streaming_completion` documents that the slot is acquired before the `StreamingResponse` is
created. The response is created with a generator that has not begun to run, so the `200` goes out
before `acquire()` is called: `slot_before_success_iff`.
-/

namespace SynGateway.Api.Chat

open SynGateway.Core SynGateway.Core.Admission SynGateway.Python SynGateway.Services
open SynGateway.Transition

variable {V α : Type} {env : Env}

/-! ## A call of `acquire()` in a state of the controller -/

/-- How the `acquire()` of a task has ended, unless it was cancelled or has not ended. -/
def acquireOf (waited : String) : Task → Option Acquire
  | .body => some .admitted
  | .ended .finished => some .admitted
  | .ended .queueFull => some .queueFull
  | .ended .queueTimeout => some (.queueTimeout waited)
  | _ => none

/-- How `acquire()` ends for a request that arrives in state `s` when the controller goes on with
`acts`. -/
def acquireAfter (cfg : Config) (waited : String) (s : State) (acts : List Action) :
    Option Acquire := do
  let s' ← run (step cfg) (acquireStart cfg s) acts
  let task ← s'.tasks[s.tasks.length]?
  acquireOf waited task

/-- A request that arrives in some state of the controller, what the controller does from there, and
how its `acquire()` ends. -/
structure Arrival (cfg : Config) where
  state : State
  waited : String
  acts : List Action
  result : Acquire
  ended : acquireAfter cfg waited state acts = some result

/-- The result of `acquire` is what the task is left with after the run. -/
theorem acquireAfter_of_run {cfg : Config} {waited : String} {s t : State} {acts : List Action}
    {task : Task} {result : Acquire} (hrun : run (step cfg) (acquireStart cfg s) acts = some t)
    (htask : t.tasks[s.tasks.length]? = some task) (hresult : acquireOf waited task = some result) :
    acquireAfter cfg waited s acts = some result := by
  unfold acquireAfter
  rw [hrun]
  change (t.tasks[s.tasks.length]?).bind (acquireOf waited) = _
  rw [htask]
  exact hresult

/-- The timer of a queued request fires before anything grants it a slot. -/
theorem run_timeout (cfg : Config) {s : State} {r : ReqId} {e : QueueEntry}
    (htask : s.tasks[r]? = some (.queueWait e .none)) (hset : e.event = false) :
    ∃ t, run (step cfg) s [.timer r, .resume r] = some t ∧
      t.tasks[r]? = some (.ended .queueTimeout) := by
  obtain ⟨hr, _⟩ := List.getElem?_eq_some_iff.mp htask
  have htimer : step cfg s (.timer r) = some (s.setTask r (.queueWait e .timeout)) := by
    simp [step, timer, htask, hset]
  have hwaits : (s.setTask r (.queueWait e .timeout)).tasks[r]? = some (.queueWait e .timeout) :=
    List.getElem?_set_self hr
  have hresume : step cfg (s.setTask r (.queueWait e .timeout)) (.resume r)
      = some { (s.setTask r (.queueWait e .timeout)).setTask r (.ended .queueTimeout) with
          queue := s.queue.erase r } := by
    simp only [step, resume, hwaits]
    rfl
  refine ⟨{ (s.setTask r (.queueWait e .timeout)).setTask r (.ended .queueTimeout) with
    queue := s.queue.erase r }, ?_, ?_⟩
  · rw [run_cons, htimer, Option.bind_some, run_cons, hresume]
    rfl
  · exact List.getElem?_set_self (by simpa [State.setTask] using hr)

/-- From every state of the controller an arriving request can come to an end of its `acquire()`: it
is refused or admitted at once, or its timer fires. -/
theorem exists_arrival (cfg : Config) (waited : String) (s : State) :
    ∃ arrival : Arrival cfg, arrival.state = s := by
  have hmove : Move cfg s .arrive (acquireStart cfg s) := move_of_step rfl
  have hlast : ∀ task : Task, (s.tasks ++ [task])[s.tasks.length]? = some task := by simp
  have hof : ∀ (acts : List Action) {t : State} {task : Task} {result : Acquire},
      run (step cfg) (acquireStart cfg s) acts = some t →
      t.tasks[s.tasks.length]? = some task → acquireOf waited task = some result →
      ∃ arrival : Arrival cfg, arrival.state = s := by
    intro acts t task result hrun htask hresult
    exact ⟨⟨s, waited, acts, result, acquireAfter_of_run hrun htask hresult⟩, rfl⟩
  generalize acquireStart cfg s = t at hmove hof
  cases hmove with
  | reject hbusy hfull => exact hof [] rfl (hlast _) rfl
  | fast hfree hempty => exact hof [] rfl (hlast _) rfl
  | enqueue hbusy hroom =>
      have hqueued := hlast (.queueWait {} .none)
      obtain ⟨t, hrun, htask⟩ := run_timeout cfg
        (s := { s.push (.queueWait {} .none) with queue := s.queue ++ [s.tasks.length] })
          hqueued rfl
      exact hof _ hrun htask rfl
  | leave htask ha => rcases ha with ⟨ha, _⟩ | ⟨ha, _⟩ <;> cases ha

/-! ## The events only grow -/

/-- What a request has done stays done. -/
def EventsGrow (s t : Frame V) : Prop := s.events <+: t.events

instance : Std.Refl (EventsGrow (V := V)) := ⟨fun _ => List.prefix_rfl⟩

instance : IsTrans (Frame V) EventsGrow := ⟨fun _ _ _ => List.IsPrefix.trans⟩

/-- The log appends. -/
theorem grow_log (event : Event) : Exec.Moves EventsGrow (log event : Body V Unit) :=
  Exec.Moves.modify fun _ => List.prefix_append ..

/-- An assignment leaves the events. -/
theorem grow_assign (f : V → V) : Exec.Moves EventsGrow (assign f) :=
  Exec.Moves.modify fun _ => List.prefix_rfl

/-- Each step of the relay leaves what was done. -/
theorem grow_closed : RelayClosed EventsGrow where
  suspended _ := List.prefix_rfl
  sent _ _ := List.prefix_append ..
  chunkSeen _ _ := List.prefix_rfl

/-- The body of a stream takes back no event. -/
theorem grow_streamBody : Exec.Moves EventsGrow (streamBody env) := by
  unfold streamBody withAcquire
  refine (grow_log _).bind fun _ => (moves_suspend grow_closed.suspended).bind fun _ => ?_
  split
  · exact Exec.Moves.raise _
  · refine (grow_log _).bind fun _ => Exec.Moves.tryFinally ?_ (grow_log _)
    refine (grow_assign _).bind fun _ => (grow_log _).bind fun _ => ?_
    refine (moves_relay grow_closed _).bind fun _ => ?_
    refine (moves_yieldBytes grow_closed _).bind fun _ => ?_
    exact grow_assign _

/-- Neither do its `except` clauses. -/
theorem grow_streamExcept {clock : Clock} {exc : Exc} {clause : Body StreamVars Unit}
    (h : clause ∈ streamExcept clock exc) : Exec.Moves EventsGrow clause :=
  moves_streamExcept (fun _ => grow_assign _) (fun _ => grow_assign _) h

/-- The generator as a whole takes back no event. -/
theorem grow_streamGenerator : Exec.Moves EventsGrow (streamGenerator env) := by
  unfold streamGenerator streamFinally
  apply Exec.Moves.tryFinally
  · exact grow_streamBody.tryExcept fun _ _ h => grow_streamExcept h
  · refine (grow_assign _).bind fun _ => Exec.Moves.get.bind fun s t => ?_
    unfold EventsGrow
    rw [run_recordUsage]
    exact List.prefix_append ..

/-- A streaming request begins with the status line of a success. -/
theorem streamEvents_started (env : Env) (hadmission : env.app.admission = true) :
    (started env).events <+: streamEvents env := by
  unfold streamEvents
  rw [run_serveStream env hadmission]
  exact (grow_streamGenerator.bind fun _ => grow_log _) (started env)

/-! ## No success without a slot -/

/-- The status of a response. -/
def Event.status : Event → Option ℕ
  | sent (.start status _ _) => some status
  | sent (.json status _) => some status
  | sent .internalServerError => some 500
  | _ => none

/-- A `200` is sent only after `acquire()` has succeeded. -/
def SuccessAfterSlot (events : List Event) : Prop :=
  ∀ before event after, events = before ++ event :: after → event.status = some 200 →
    .acquired ∈ before

/-- A streaming request is answered with a success only when it has a slot, and a refusal reaches
the client as it does without `stream`. -/
def SlotBeforeSuccess (env : Env) (resp : ChatCompletionResponse) : Prop :=
  SuccessAfterSlot (streamEvents env) ∧
    (env.acquire ≠ .admitted → ¬ env.Disconnected →
      clientView (streamEvents env)
        = clientView (completionEvents { env with disconnect := none }
          (replyOf env.upstream.raised resp)))

/-- Without an admission controller the answer is a 503. -/
theorem notWired_eq (env : Env) : ∃ content, notWired env = [.sent (.json 503 content)] := ⟨_, rfl⟩

/-- A completion without an admission controller is answered so. -/
theorem completionEvents_not_wired (env : Env) (hadmission : ¬ env.app.admission = true)
    (reply : Except Exc ChatCompletionResponse) : completionEvents env reply = notWired env := by
  unfold completionEvents serveCompletion nonStreamingCompletion getAdmission
  rw [if_neg hadmission]
  rfl

/-- **The slot.** Whatever state of the controller a request arrives in and however its `acquire()`
ends, a streaming request is never answered as documented; it is when no controller is wired, for
then the handler fails before there is a response. -/
theorem slot_before_success_iff {cfg : Config} (arrival : Arrival cfg) (env : Env)
    (resp : ChatCompletionResponse) :
    SlotBeforeSuccess { env with acquire := arrival.result } resp ↔ ¬ env.app.admission = true := by
  constructor
  · rintro ⟨hsuccess, _⟩ hadmission
    obtain ⟨after, hafter⟩ := streamEvents_started { env with acquire := arrival.result }
      hadmission
    -- the status line goes out before the generator runs, so no slot is held yet
    have hslot := hsuccess [] _ after hafter.symm rfl
    cases hslot
  · intro hadmission
    unfold SlotBeforeSuccess
    rw [streamEvents_not_wired { env with acquire := arrival.result } hadmission,
      completionEvents_not_wired
        { env with acquire := arrival.result, disconnect := none } hadmission]
    refine ⟨?_, fun _ _ => rfl⟩
    intro before event after hsplit hstatus
    obtain ⟨content, hcontent⟩ := notWired_eq { env with acquire := arrival.result }
    rw [hcontent] at hsplit
    -- the one event is the 503, which is no success
    rcases List.cons_eq_append_iff.mp hsplit with ⟨_, hevent⟩ | ⟨rest, _, hnil⟩
    · obtain rfl := (List.cons.inj hevent).1
      cases hstatus
    · simp at hnil

/-- One slot, no queue, and the slot is taken: the next streaming request gets an empty `200`, the
next request without `stream` the `429`. -/
theorem success_without_slot :
    let cfg : Config :=
      { maxActive := 1, maxQueue := 0, queueTimeout := 30, interruptsSetEvent := true }
    let env : Env :=
      { app := { admission := true, usageService := true, database := true }
        call :=
          { requestId := "r", apiKeyId := none, clientId := none, userId := none, model := [] }
        acquire := .queueFull
        upstream := { chunks := [] } }
    let resp : ChatCompletionResponse :=
      ⟨.null, .null, .null, .null, [], .null, .null, .null, .null⟩
    acquireAfter cfg "30.0" (acquireStart cfg (Admission.init cfg)) [] = some env.acquire ∧
      clientView (streamEvents env)
        = [.start 200 "text/event-stream" [("Cache-Control", "no-cache"), ("X-Request-ID", "r")],
          .done] ∧
      (∃ content, clientView (completionEvents env (.ok resp)) = [.json 429 content]) ∧
      ¬ SlotBeforeSuccess env resp := by
  intro cfg env resp
  have hstream : clientView (streamEvents env)
      = [.start 200 "text/event-stream" [("Cache-Control", "no-cache"), ("X-Request-ID", "r")],
        .done] := rfl
  have hcompletion : ∃ content, clientView (completionEvents env (.ok resp)) =
      [.json 429 content] :=
    ⟨_, rfl⟩
  refine ⟨by decide, hstream, hcompletion, ?_⟩
  rintro ⟨_, hview⟩
  obtain ⟨content, hcontent⟩ := hcompletion
  have hsame := hview Acquire.noConfusion (by rintro ⟨k, hk, _⟩; cases hk)
  rw [hstream] at hsame
  have hlength := congrArg List.length (hsame.trans hcontent)
  exact Nat.succ_ne_self 1 hlength

end SynGateway.Api.Chat

import SynGateway.Backends.LlamaCpp.Defs

/-!
# Which errors leave the backend

`app/backends/base.py` promises that a call ends normally or raises one of four typed errors. What
they should be is said here as an `Ending`, for each behaviour of the server and of the HTTP client.

The code keeps this promise but for three kinds of behaviour: a body of `chat_completion` that is
JSON but not of the expected shape, a chunk whose `created` is no number, and a timeout behind the
response headers, which the clause for transport errors takes first (`contained_iff`).
-/

namespace SynGateway.Backends.LlamaCpp

open SynGateway.Api.Chat SynGateway.Core SynGateway.Core.Sse SynGateway.Python
  SynGateway.Python.Json

/-! ## The promise -/

/-- How a call should end. -/
inductive Ending
  | normal
  | typed (cls : ErrorClass)
deriving DecidableEq, Repr

/-- The call ends so. -/
def Ends {α : Type} (result : Except Raised α) : Ending → Prop
  | .normal => ∃ a, result = .ok a
  | .typed cls => ∃ error, result = .error (.exc (.syn error)) ∧ error.cls = cls

/-- The error for an exception of the HTTP client. -/
def transportClass (exc : TransportError) : ErrorClass :=
  if exc.isInstance .timeoutException then .backendTimeoutError else .backendUnavailableError

/-- A choice with the shape that is expected. -/
def normalizableChoice : Json → Bool
  | .obj choice =>
    match dictGet choice "message" with
    | none | some (.obj _) => true
    | _ => false
  | _ => false

/-- Choices from which a response can be made. Nothing at all is as good as an empty list. -/
def normalizableChoices : Option Json → Bool
  | none => true
  | some (.arr items) => items.all normalizableChoice
  | some (.str s) => s = []
  | some (.obj members) => members.isEmpty
  | _ => false

def normalizableUsage : Option Json → Bool
  | none | some (.obj _) => true
  | some usage => !usage.truthy

/-- A body from which a response can be made. -/
def normalizable : Json → Bool
  | .obj data => normalizableChoices (dictGet data "choices") &&
      normalizableUsage (dictGet data "usage")
  | _ => false

/-- How `chat_completion` should end. -/
def completionEnding (reply : Except TransportError Response) : Ending :=
  match reply with
  | .error exc => .typed (transportClass exc)
  | .ok resp =>
    if resp.statusCode ≠ 200 then .typed .backendProtocolError
    else if resp.json.any normalizable then .normal
    else .typed .backendInvalidResponseError

/-- The payload is a chunk object. -/
def isChunkObject : Json → Bool
  | .obj members =>
    match dictGet members "choices" with
    | some (.arr _) => true
    | _ => false
  | _ => false

/-- `int(payload.get("created", 0))` goes through. -/
def hasCreated (i : Interpreter) : Json → Bool
  | .obj members => (i.int ((dictGet members "created").getD (.int 0))).isOk
  | _ => true

/-- The stream goes on behind the event: it is not `[DONE]`, and what it holds can be normalized or
is to be skipped. -/
def goesOn (i : Interpreter) (event : SSEEvent) : Bool :=
  !event.isDone && (event.data = [] ||
    match i.loads (Str.ofText event.data) with
    | .error _ => false
    | .ok payload => !isChunkObject payload || hasCreated i payload)

/-- The first event behind which the stream does not go on. -/
def stop (i : Interpreter) (response : Response) : Option SSEEvent :=
  (sseEvents response).find? fun event => !goesOn i event

/-- The chunk that an event holds. -/
def chunkOf (i : Interpreter) (model : Str) (event : SSEEvent) : Option ChatCompletionChunk :=
  if event.data = [] then none
  else
    match i.loads (Str.ofText event.data) with
    | .error _ => none
    | .ok payload =>
      match normalizeStreamChunk i payload model with
      | .error _ => none
      | .ok chunk => chunk

/-- How `stream_chat_completion` should end. -/
def streamEnding (i : Interpreter) (reply : Except TransportError Response) : Ending :=
  match reply with
  | .error exc => .typed (transportClass exc)
  | .ok response =>
    if response.statusCode ≠ 200 then .typed .backendProtocolError
    else
      match stop i response with
      | some event => if event.isDone then .normal else .typed .backendInvalidResponseError
      | none =>
        match response.raised with
        | none => .normal
        | some exc => .typed (transportClass exc)

/-- What `stream_chat_completion` should yield. -/
def streamResults (i : Interpreter) (model : Str) (reply : Except TransportError Response) :
    List ChatCompletionChunk :=
  match reply with
  | .error _ => []
  | .ok response =>
    if response.statusCode ≠ 200 then []
    else ((sseEvents response).takeWhile (goesOn i)).filterMap (chunkOf i model)

/-! ## When the code keeps it -/

/-- The body, if it is JSON, has the expected shape. -/
def CompletionContained (reply : Except TransportError Response) : Prop :=
  match reply with
  | .error _ => True
  | .ok resp => resp.statusCode = 200 → ∀ data ∈ resp.json, normalizable data = true

/-- The stream is read up to `[DONE]` or to an event that is no JSON, or to its end, with no
timeout. -/
def StreamContained (i : Interpreter) (reply : Except TransportError Response) : Prop :=
  match reply with
  | .error _ => True
  | .ok response => response.statusCode = 200 →
    match stop i response with
    | some event => event.isDone = true ∨ i.loads (Str.ofText event.data) = .error .valueError
    | none => ∀ exc ∈ response.raised, exc.isInstance .timeoutException = false

variable {i : Interpreter} {model : Str}

/-! ## `chat_completion` -/

/-- What is raised is no `SynError`. -/
def Plain {α : Type} (x : Except Exc α) :
    Prop := ∀ exc, x = .error exc → ∃ message, exc = .exception message

/-- `dict` raises errors of the language only. -/
theorem plain_dictItems (value : Json) : Plain (dictItems value) := by
  cases value <;> rintro _ ⟨⟩ <;> exact ⟨_, rfl⟩

/-- Iteration raises errors of the language only. -/
theorem plain_iterate (value : Json) : Plain (iterate value) := by
  cases value <;> rintro _ ⟨⟩ <;> exact ⟨_, rfl⟩

/-- The normalization of a choice raises errors of the language only. -/
theorem plain_normalizeChoice (choice : Json) : Plain (normalizeChoice choice) :=
  RaisesOnly.bind (plain_dictItems _) fun _ => RaisesOnly.bind (plain_dictItems _) fun _ => .ok _

/-- The shape errors of a body are plain exceptions. -/
theorem plain_normalizeResponse (model : Str) (data : Json) :
    Plain (normalizeResponse model data) :=
  RaisesOnly.bind (plain_dictItems _) fun _ => RaisesOnly.bind (plain_iterate _) fun _ =>
    RaisesOnly.bind (.mapM fun choice _ => plain_normalizeChoice choice) fun _ =>
      RaisesOnly.bind (plain_dictItems _) fun _ => .ok _

/-- `int` raises errors of the language only. -/
theorem plain_int (value : Json) : Plain (i.int value) := by
  unfold Interpreter.int
  split
  · exact RaisesOnly.ok _
  · exact RaisesOnly.ok _
  · split_ifs
    · rintro _ ⟨⟩
      exact ⟨_, rfl⟩
    · rintro _ ⟨⟩
      exact ⟨_, rfl⟩
    · exact RaisesOnly.ok _
  · split_ifs
    · rintro _ ⟨⟩
      exact ⟨_, rfl⟩
    · split
      · exact RaisesOnly.ok _
      · rintro _ ⟨⟩
        exact ⟨_, rfl⟩
  · rintro _ ⟨⟩
    exact ⟨_, rfl⟩

/-- The body returns. -/
def Returns {α : Type} (x : Except Exc α) : Prop := ∃ a, x = .ok a

/-- Two bodies return when the first does, and the second on its result. -/
theorem returns_bind {α β : Type} {x : Except Exc α} {f : α → Except Exc β} :
    Returns (x >>= f) ↔ ∃ a, x = .ok a ∧ Returns (f a) := by
  unfold Returns
  simp only [bind_eq_ok]
  constructor
  · rintro ⟨b, a, hx, hf⟩
    exact ⟨a, hx, b, hf⟩
  · rintro ⟨a, hx, b, hf⟩
    exact ⟨b, a, hx, hf⟩

/-- A loop returns when every turn does. -/
theorem returns_mapM {α β : Type} {f : α → Except Exc β} {l : List α} :
    Returns (l.mapM f) ↔ ∀ a ∈ l, Returns (f a) := by
  induction l with
  | nil => simp [Returns, pure, Except.pure]
  | cons a l ih =>
      rw [List.mapM_cons, returns_bind, List.forall_mem_cons, ← ih]
      constructor
      · rintro ⟨b, hb, hrest⟩
        obtain ⟨bs, hbs, -⟩ := returns_bind.mp hrest
        exact ⟨⟨b, hb⟩, bs, hbs⟩
      · rintro ⟨⟨b, hb⟩, bs, hbs⟩
        exact ⟨b, hb, returns_bind.mpr ⟨bs, hbs, _, rfl⟩⟩

/-- A choice is normalized exactly when the test says so. -/
theorem returns_normalizeChoice {choice : Json} :
    Returns (normalizeChoice choice) ↔ normalizableChoice choice = true := by
  unfold normalizeChoice
  rw [returns_bind]
  cases choice with
  | obj members =>
      have hdict : dictItems (.obj members) = .ok members := rfl
      simp only [hdict, Except.ok.injEq, exists_eq_left', returns_bind]
      unfold normalizableChoice
      dsimp only
      cases dictGet members "message" with
      | none => simp [dictItems, Returns, pure, Except.pure]
      | some message => cases message <;> simp [dictItems, Returns, pure, Except.pure]
  | _ => simp [dictItems, normalizableChoice]

/-- Items that are no objects make no choices. -/
theorem returns_mapM_str {α : Type} {f : α → Str} {l : List α} :
    Returns ((l.map fun a => Json.str (f a)).mapM normalizeChoice) ↔ l = [] := by
  rw [returns_mapM]
  cases l with
  | nil => simp
  | cons a l => simp [returns_normalizeChoice, normalizableChoice]

/-- The choices are normalized exactly when the test says so. -/
theorem returns_choices {choices : Option Json} :
    (∃ raw, iterate (choices.getD (.arr [])) = .ok raw ∧ Returns (raw.mapM normalizeChoice)) ↔
      normalizableChoices choices = true := by
  cases choices with
  | none => simp [iterate, normalizableChoices, returns_mapM]
  | some choices =>
      cases choices with
      | arr items => simp [iterate, normalizableChoices, returns_mapM, returns_normalizeChoice]
      | str s =>
          have hchars := returns_mapM_str (f := fun p : CodePoint => [p]) (l := s)
          simp [iterate, normalizableChoices, hchars, -List.mapM_map]
      | obj members =>
          have hkeys := returns_mapM_str (f := fun m : Str × Json => m.1) (l := members)
          simp [iterate, normalizableChoices, hkeys, -List.mapM_map]
      | _ => simp [iterate, normalizableChoices]

/-- The usage is normalized exactly when the test says so. -/
theorem returns_usage {usage : Option Json} :
    Returns (dictItems (orElse usage (.obj []))) ↔ normalizableUsage usage = true := by
  cases usage with
  | none => simp [orElse, dictItems, Returns, normalizableUsage]
  | some usage =>
      by_cases htruthy : usage.truthy = true
      · cases usage <;> simp [orElse, dictItems, Returns, normalizableUsage, htruthy]
      · cases usage <;> simp_all [orElse, dictItems, Returns, normalizableUsage]

/-- A response is made exactly from the bodies that have the shape. -/
theorem returns_normalizeResponse (model : Str) {data : Json} :
    Returns (normalizeResponse model data) ↔ normalizable data = true := by
  unfold normalizeResponse
  rw [returns_bind]
  cases data with
  | obj members =>
      have hdict : dictItems (.obj members) = .ok members := rfl
      -- choices and usage are read one after the other, and either may raise
      simp only [hdict, Except.ok.injEq, exists_eq_left']
      unfold normalizable
      rw [Bool.and_eq_true, ← returns_choices, ← returns_usage, returns_bind]
      constructor
      · rintro ⟨raw, hraw, hrest⟩
        obtain ⟨choices, hchoices, hrest⟩ := returns_bind.mp hrest
        obtain ⟨usage, husage, -⟩ := returns_bind.mp hrest
        exact ⟨⟨raw, hraw, choices, hchoices⟩, usage, husage⟩
      · rintro ⟨⟨raw, hraw, choices, hchoices⟩, usage, husage⟩
        exact ⟨raw, hraw,
          returns_bind.mpr ⟨choices, hchoices, returns_bind.mpr ⟨usage, husage, _, rfl⟩⟩⟩
  | _ => simp [dictItems, normalizable]

/-- What the clauses around `client.post` raise. -/
theorem ends_postError {α : Type} (what timeout : String) (exc : TransportError) :
    Ends (.error (postError what timeout exc) : Except Raised α) (.typed (transportClass exc)) := by
  unfold postError transportClass
  split_ifs
  · exact ⟨_, rfl, rfl⟩
  · exact ⟨_, rfl, rfl⟩

/-- A completion ends as documented exactly when its reply is contained. -/
theorem chatCompletion_ends_iff (post : Post) (request : ChatCompletionRequest) :
    Ends (chatCompletion post request) (completionEnding (post (payload request false))) ↔
      CompletionContained (post (payload request false)) := by
  unfold chatCompletion completionEnding CompletionContained
  cases post (payload request false) with
  | error exc => exact iff_of_true (ends_postError _ _ exc) trivial
  | ok resp =>
      dsimp only
      by_cases hstatus : resp.statusCode = 200
      · rw [if_neg (not_not_intro hstatus), if_neg (not_not_intro hstatus)]
        cases resp.json with
        | none => exact iff_of_true ⟨_, rfl, rfl⟩ fun _ _ => nofun
        | some data =>
            have hcontained : (resp.statusCode = 200 → ∀ d ∈ some data, normalizable d = true) ↔
                normalizable data = true := by simp [hstatus]
            rw [hcontained, Option.any_some]
            dsimp only
            constructor
            · intro hends
              by_contra hshape
              rw [if_neg hshape] at hends
              obtain ⟨error, herror, -⟩ := hends
              -- what is raised on such a body is no `SynError`
              cases hresult : normalizeResponse request.model data with
              | ok response =>
                  rw [hresult] at herror
                  cases herror
              | error exc =>
                  obtain ⟨message, rfl⟩ := plain_normalizeResponse request.model data exc hresult
                  rw [hresult] at herror
                  cases herror
            · intro hshape
              obtain ⟨response, hresponse⟩ := (returns_normalizeResponse request.model).mpr hshape
              rw [if_pos hshape]
              exact ⟨response, by rw [hresponse]; rfl⟩
      · rw [if_pos hstatus, if_pos hstatus]
        exact iff_of_true ⟨_, rfl, rfl⟩ fun h => absurd h hstatus

/-! ## `stream_chat_completion` -/

/-- What the loop ends with at the event that it stops at. -/
def loopResult (i : Interpreter) (model : Str) : Option SSEEvent → Except Raised Bool
  | none => .ok false
  | some event =>
    if event.isDone then .ok true
    else
      match i.loads (Str.ofText event.data) with
      | .error .valueError => .error (invalidChunk (i.valueErrorText (Str.ofText event.data)))
      | .error .recursionError => .error (.exc (.exception "maximum recursion depth exceeded"))
      | .ok payload =>
        match normalizeStreamChunk i payload model with
        | .error exc => .error (.exc exc)
        | .ok _ => .ok false

/-- To return is to end with `ok`. -/
theorem returns_iff_isOk {α : Type} {x : Except Exc α} : Returns x ↔ x.isOk = true := by
  cases x <;> simp [Returns, Except.isOk, Except.toBool]

/-- All that a chunk object still needs to make a chunk is that `int` accepts its `created`. -/
theorem normalizeStreamChunk_eq_map (model : Str) {payload : Json}
    (hchunk : isChunkObject payload = true) :
    ∃ (created : Except Exc ℤ) (chunk : ℤ → ChatCompletionChunk),
      hasCreated i payload = created.isOk ∧
      normalizeStreamChunk i payload model = created.map fun n => some (chunk n) := by
  unfold isChunkObject at hchunk
  split at hchunk
  · next members =>
      split at hchunk
      · next items hchoices =>
          unfold normalizeStreamChunk hasCreated
          dsimp only
          rw [hchoices]
          exact ⟨_, _, rfl, rfl⟩
      · cases hchunk
  · cases hchunk

/-- What is no chunk object is skipped. -/
theorem normalizeStreamChunk_eq_none {payload : Json} (hchunk : isChunkObject payload = false) :
    normalizeStreamChunk i payload model = .ok none := by
  unfold isChunkObject at hchunk
  unfold normalizeStreamChunk
  split
  · next members =>
      dsimp only at hchunk
      split
      · next items hchoices =>
          rw [hchoices] at hchunk
          cases hchunk
      · rfl
  · rfl

/-- A payload is normalized or skipped, unless it is a chunk object whose `created` is no number. -/
theorem returns_normalizeStreamChunk (model : Str) {payload : Json} :
    Returns (normalizeStreamChunk i payload model) ↔
      (!isChunkObject payload || hasCreated i payload) = true := by
  cases hchunk : isChunkObject payload with
  | false => exact iff_of_true ⟨none, normalizeStreamChunk_eq_none hchunk⟩ rfl
  | true =>
      obtain ⟨created, chunk, hcreated, hnormalize⟩ := normalizeStreamChunk_eq_map model hchunk
      rw [Bool.not_true, Bool.false_or, hcreated, ← returns_iff_isOk, hnormalize]
      cases created <;> simp [Returns, Except.map]

/-- A chunk object is not normalized for a plain exception, the one of `int`. -/
theorem plain_normalizeStreamChunk (payload : Json) :
    Plain (normalizeStreamChunk i payload model) := by
  unfold normalizeStreamChunk
  split
  · split
    · exact RaisesOnly.bind (plain_int _) fun _ => .ok _
    · exact RaisesOnly.ok _
  · exact RaisesOnly.ok _

/-- The payload of an event that the loop stops at is not normalized. -/
theorem normalizeStreamChunk_of_stop (model : Str) {event : SSEEvent} {payload : Json}
    (hstop : goesOn i event = false) (hdone : event.isDone = false)
    (hloads : i.loads (Str.ofText event.data) = .ok payload) :
    ∃ exc, normalizeStreamChunk i payload model = .error exc := by
  cases hnormalize : normalizeStreamChunk i payload model with
  | error exc => exact ⟨exc, rfl⟩
  | ok chunk =>
      have hread := (returns_normalizeStreamChunk model).mp ⟨chunk, hnormalize⟩
      simp [goesOn, hdone, hloads, hread] at hstop

/-- An event that the loop goes on behind yields its chunk, if it holds one. -/
theorem streamLoop_of_goesOn {event : SSEEvent} (hgoes : goesOn i event = true)
    (events : List SSEEvent) (chunks : List ChatCompletionChunk) :
    (streamLoop i model (event :: events)).run chunks =
      (streamLoop i model events).run (chunks ++ (chunkOf i model event).toList) := by
  unfold goesOn at hgoes
  rw [Bool.and_eq_true, Bool.not_eq_true', Bool.or_eq_true, decide_eq_true_eq] at hgoes
  obtain ⟨hdone, hdata⟩ := hgoes
  rw [streamLoop, hdone, if_neg Bool.false_ne_true]
  unfold chunkOf
  by_cases hempty : event.data = []
  · rw [if_pos hempty, if_pos hempty, Option.toList_none, List.append_nil]
  · have hread := hdata.resolve_left hempty
    rw [if_neg hempty, if_neg hempty]
    cases hloads : i.loads (Str.ofText event.data) with
    | error error =>
        rw [hloads] at hread
        cases hread
    | ok payload =>
        rw [hloads] at hread
        obtain ⟨chunk, hchunk⟩ := (returns_normalizeStreamChunk model).mpr hread
        dsimp only
        rw [hchunk]
        -- A payload without a list of choices yields nothing, and the loop goes on.
        cases chunk with
        | none => exact congrArg _ (List.append_nil chunks).symm
        | some chunk => rfl

/-- The loop ends at the first other event: `[DONE]`, or data that raises. -/
theorem streamLoop_of_stop {event : SSEEvent} (hstop : goesOn i event = false)
    (events : List SSEEvent) (chunks : List ChatCompletionChunk) :
    (streamLoop i model (event :: events)).run chunks = (loopResult i model (some event),
      chunks) := by
  rw [streamLoop, loopResult]
  cases hdone : event.isDone with
  | true => rfl
  | false =>
      have hempty : event.data ≠ [] := fun hempty => by simp [goesOn, hdone, hempty] at hstop
      rw [if_neg Bool.false_ne_true, if_neg hempty]
      cases hloads : i.loads (Str.ofText event.data) with
      | error error => cases error <;> rfl
      | ok payload =>
          obtain ⟨exc, hnormalize⟩ := normalizeStreamChunk_of_stop model hstop hdone hloads
          dsimp only
          rw [hnormalize]
          rfl

/-- The loop yields the chunks of the events before the one that it stops at. -/
theorem streamLoop_run (i : Interpreter) (model : Str) (events : List SSEEvent)
    (chunks : List ChatCompletionChunk) :
    (streamLoop i model events).run chunks =
      (loopResult i model (events.find? fun event => !goesOn i event),
        chunks ++ (events.takeWhile (goesOn i)).filterMap (chunkOf i model)) := by
  induction events generalizing chunks with
  | nil => exact Prod.ext rfl (List.append_nil chunks).symm
  | cons event events ih =>
      cases hgoes : goesOn i event with
      | true =>
          rw [streamLoop_of_goesOn hgoes, ih, List.find?_cons_of_neg (by simp [hgoes]),
            List.takeWhile_cons_of_pos hgoes, List.append_assoc]
          cases hchunk : chunkOf i model event with
          | none => rw [List.filterMap_cons_none hchunk, Option.toList_none, List.nil_append]
          | some chunk =>
              rw [List.filterMap_cons_some hchunk, Option.toList_some, List.singleton_append]
      | false =>
          rw [streamLoop_of_stop hgoes, List.find?_cons_of_pos (by simp [hgoes]),
            List.takeWhile_cons_of_neg (by simp [hgoes]), List.filterMap_nil, List.append_nil]

/-- What the `try` block around the loop ends with. -/
def bodyResult (i : Interpreter) (model : Str) (response : Response) : Except Raised Unit := do
  let left ← loopResult i model (stop i response)
  if left then return ()
  else
    match response.raised with
    | none => return ()
    | some exc => .error (.transport exc)

/-- The body yields the chunks of the events up to the first that ends it. -/
theorem streamBody_run (response : Response) (chunks : List ChatCompletionChunk) :
    (streamBody i model response).run chunks =
      (bodyResult i model response,
        chunks ++ ((sseEvents response).takeWhile (goesOn i)).filterMap (chunkOf i model)) := by
  have hloop := streamLoop_run i model (sseEvents response) chunks
  unfold streamBody bodyResult stop
  cases hresult : loopResult i model ((sseEvents response).find? fun event => !goesOn i event) with
  | error e =>
      rw [hresult] at hloop
      rw [Exec.run_bind_error hloop]
      rfl
  | ok left =>
      rw [hresult] at hloop
      rw [Exec.run_bind_ok hloop]
      cases left with
      | true => rfl
      | false => cases response.raised <;> rfl

/-- What the clauses around the loop make of an exception. -/
def handled (raised : Raised) : Raised :=
  match raised with
  | .exc exc => .exc exc
  | .transport exc => backendError .backendUnavailableError
      ("stream interrupted: " ++ classifyTransportError exc) "backend_unavailable"

/-- Every exception of the HTTP client is a transport error, so the clause for timeouts is never
reached. -/
theorem isInstance_transportError (exc : TransportError) :
    exc.isInstance .transportError = true := by
  cases exc <;> rfl

/-- The clauses around the loop leave what has been yielded alone. -/
theorem tryExcept_run {body : Generator Unit} {chunks chunks' : List ChatCompletionChunk}
    {result : Except Raised Unit} (hbody : body.run chunks = (result, chunks')) :
    (Exec.tryExcept body streamExcept).run chunks = (result.mapError handled, chunks') := by
  cases result with
  | ok a => exact Exec.run_tryExcept_ok hbody
  | error raised =>
      cases raised with
      | transport exc =>
          rw [Exec.run_tryExcept_caught hbody (if_pos (isInstance_transportError exc))]
          rfl
      | exc exc =>
          by_cases hinvalid : exc.isInstance .backendInvalidResponseError = true
          · rw [Exec.run_tryExcept_caught hbody (if_pos hinvalid)]
            rfl
          · rw [Exec.run_tryExcept_uncaught hbody (if_neg hinvalid)]
            rfl

/-- A stream of status 200 yields these chunks, its errors handled. -/
theorem streamChatCompletion_of_ok {post : Post} {request : ChatCompletionRequest}
    {response : Response} (hreply : post (payload request true) = .ok response)
    (hstatus : response.statusCode = 200) :
    streamChatCompletion i post request =
      (((sseEvents response).takeWhile (goesOn i)).filterMap (chunkOf i request.model),
        (bodyResult i request.model response).mapError handled) := by
  unfold streamChatCompletion streamChatCompletionImpl
  rw [hreply]
  dsimp only
  rw [if_neg (not_not_intro hstatus), tryExcept_run (streamBody_run response []), List.nil_append]

/-- The stream yields the chunks of the events that it goes on behind, whatever comes then. -/
theorem streamChatCompletion_yields (post : Post) (request : ChatCompletionRequest) :
    (streamChatCompletion i post request).1 =
      streamResults i request.model (post (payload request true)) := by
  unfold streamResults
  cases hreply : post (payload request true) with
  | error exc =>
      unfold streamChatCompletion streamChatCompletionImpl
      rw [hreply]
      rfl
  | ok response =>
      dsimp only
      by_cases hstatus : response.statusCode = 200
      · rw [streamChatCompletion_of_ok hreply hstatus, if_neg (not_not_intro hstatus)]
      · unfold streamChatCompletion streamChatCompletionImpl
        rw [hreply, if_pos hstatus]
        dsimp only
        rw [if_pos hstatus]
        rfl

/-- The clause for transport errors gives the promised error unless it takes a timeout. -/
theorem ends_handled_iff (exc : TransportError) :
    Ends (.error (handled (.transport exc)) : Except Raised Unit) (.typed (transportClass exc)) ↔
      exc.isInstance .timeoutException = false := by
  unfold transportClass
  cases htimeout : exc.isInstance .timeoutException with
  | false => exact iff_of_true ⟨_, rfl, rfl⟩ rfl
  | true =>
      refine iff_of_false ?_ nofun
      rintro ⟨error, herror, hcls⟩
      cases herror
      cases hcls

/-- An event that the loop stops at, other than `[DONE]`, ends it as promised exactly if it is no
JSON. -/
theorem loopResult_of_stop (model : Str) {event : SSEEvent} (hstop : goesOn i event = false)
    (hdone : event.isDone = false) :
    ∃ raised, loopResult i model (some event) = .error raised ∧
      (Ends (.error (handled raised) : Except Raised Unit) (.typed .backendInvalidResponseError) ↔
        i.loads (Str.ofText event.data) = .error .valueError) := by
  unfold loopResult
  dsimp only
  rw [hdone, if_neg Bool.false_ne_true]
  cases hloads : i.loads (Str.ofText event.data) with
  | error error =>
      cases error with
      | valueError => exact ⟨_, rfl, iff_of_true ⟨_, rfl, rfl⟩ rfl⟩
      | recursionError =>
          refine ⟨_, rfl, iff_of_false ?_ nofun⟩
          -- a `RecursionError` of the parser is no `ValueError`, and passes the clause
          rintro ⟨error, herror, -⟩
          cases herror
  | ok payload =>
      dsimp only
      obtain ⟨exc, hnormalize⟩ := normalizeStreamChunk_of_stop model hstop hdone hloads
      -- the payload was read, so what raises is its normalization, and no `SynError`
      obtain ⟨message, rfl⟩ := plain_normalizeStreamChunk payload exc hnormalize
      rw [hnormalize]
      refine ⟨_, rfl, iff_of_false ?_ nofun⟩
      rintro ⟨error, herror, -⟩
      cases herror

/-- A stream ends as documented exactly when its reply is contained. -/
theorem streamChatCompletion_ends_iff (post : Post) (request : ChatCompletionRequest) :
    Ends (streamChatCompletion i post request).2 (streamEnding i (post (payload request true))) ↔
      StreamContained i (post (payload request true)) := by
  unfold streamEnding StreamContained
  cases hreply : post (payload request true) with
  | error exc =>
      unfold streamChatCompletion streamChatCompletionImpl
      rw [hreply]
      exact iff_of_true (ends_postError _ _ exc) trivial
  | ok response =>
      dsimp only
      by_cases hstatus : response.statusCode = 200
      · rw [streamChatCompletion_of_ok hreply hstatus, if_neg (not_not_intro hstatus),
          imp_iff_right hstatus]
        unfold bodyResult
        -- No event stops the loop: the response itself ends the stream.
        cases hstop : stop i response with
        | none =>
            cases response.raised with
            | none => exact iff_of_true ⟨(), rfl⟩ fun _ => nofun
            | some exc =>
                have hforall : (∀ e ∈ some exc, e.isInstance .timeoutException = false) ↔
                    exc.isInstance .timeoutException = false := by simp
                rw [hforall]
                exact ends_handled_iff exc
        | some event =>
            have hgoes : goesOn i event = false := by simpa using List.find?_some hstop
            dsimp only
            cases hdone : event.isDone with
            | true =>
                have hbreak : loopResult i request.model (some event) = .ok true := by
                  simp only [loopResult, hdone, if_pos]
                rw [hbreak]
                exact iff_of_true ⟨(), rfl⟩ (.inl rfl)
            | false =>
                obtain ⟨raised, hraised, hends⟩ := loopResult_of_stop request.model hgoes hdone
                rw [hraised, if_neg Bool.false_ne_true, or_iff_right Bool.false_ne_true, ← hends]
                rfl
      · unfold streamChatCompletion streamChatCompletionImpl
        rw [hreply, if_pos hstatus]
        dsimp only
        rw [if_pos hstatus]
        exact iff_of_true ⟨_, rfl, rfl⟩ fun h => absurd h hstatus

/-! ## Both calls -/

/-- Both calls end as promised, and the stream has yielded what it should, exactly if what the
server and the HTTP client do is of the kinds that are contained. -/
theorem contained_iff (i : Interpreter) (post : Post) (request : ChatCompletionRequest) :
    (Ends (chatCompletion post request) (completionEnding (post (payload request false))) ↔
      CompletionContained (post (payload request false))) ∧
    ((streamChatCompletion i post request).1 =
          streamResults i request.model (post (payload request true)) ∧
        Ends (streamChatCompletion i post request).2
        (streamEnding i (post (payload request true))) ↔
      StreamContained i (post (payload request true))) := by
  refine ⟨chatCompletion_ends_iff post request, ?_⟩
  rw [and_iff_right (streamChatCompletion_yields post request)]
  exact streamChatCompletion_ends_iff post request

/-- A body that is a JSON list leads to a plain exception, and a timeout in the middle of a stream
to the error for a backend that is unreachable. -/
theorem not_contained :
    let i : Interpreter := ⟨fun _ => [], fun _ => 0, fun _ => [], fun _ => none, fun _ => false,
      fun _ => "Expecting value: line 1 column 1 (char 0)"⟩
    let request : ChatCompletionRequest := { model := Str.ofString "m" }
    let listBody : Post := fun _ => .ok { statusCode := 200, json := some (.arr []) }
    let timeout : Post := fun _ => .ok { statusCode := 200, raised := some .readTimeout }
    ¬ Ends (chatCompletion listBody request) (completionEnding (listBody (payload request false))) ∧
      ¬ Ends (streamChatCompletion i timeout request).2
        (streamEnding i (timeout (payload request true))) := by
  constructor
  · -- the promised error is the one for an invalid response, an `AttributeError` is raised
    rintro ⟨error, herror, -⟩
    cases herror
  · -- here it is the one for a timeout, against the one for an unreachable backend
    rintro ⟨error, herror, hcls⟩
    cases herror
    cases hcls

end SynGateway.Backends.LlamaCpp

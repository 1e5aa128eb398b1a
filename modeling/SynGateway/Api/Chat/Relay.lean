import SynGateway.Api.Chat.Accounting
import SynGateway.Api.Chat.ChunkViews
import SynGateway.Core.Sse.DataEvents

/-!
# The relay of a stream

From the bytes of the server to the bytes that the client gets: `parse_sse`, the loop of
`_stream_chat_completion_impl` up to `[DONE]`, the relay loop of `stream_generator`, and
`_format_sse`. A `Transmission` is what the server sends, in whatever pieces it arrives; a client
that reads the answer with `parse_sse` and `json.loads` sees the same chunks and one `[DONE]`
(`relay_faithful`).
-/

namespace SynGateway.Api.Chat

open SynGateway.Backends SynGateway.Core.Sse SynGateway.Python SynGateway.Utf8

/-! ## What the server sends -/

/-- A data event that holds a chunk object. -/
structure UpstreamChunk (i : Interpreter) where
  event : DataEvent
  payload : Json
  loads : i.loads (Str.ofText event.data) = .ok payload
  shape : ChunkShape payload
  scalar : payload.Scalar

/-- The chunks, `[DONE]`, and any further bytes, cut between characters. -/
structure Transmission (i : Interpreter) where
  chunks : List (UpstreamChunk i)
  sentinel : DataEvent
  junk : List UInt8 := []
  pieces : List (List UInt8)
  isDone : sentinel.data = "[DONE]".toList
  flatten : pieces.flatten =
    encode ((chunks.map UpstreamChunk.event ++ [sentinel]).flatMap DataEvent.text) ++ junk
  cuts : CutsBetweenCharacters
    (encode ((chunks.map UpstreamChunk.event ++ [sentinel]).flatMap DataEvent.text)) pieces

/-- The response of the server. -/
def Transmission.response {i : Interpreter} (t : Transmission i) : LlamaCpp.Response where
  statusCode := 200
  chunks := t.pieces

/-- What `stream_generator` gets from `stream_chat_completion`. -/
def upstreamOf (result : List ChatCompletionChunk × Except LlamaCpp.Raised Unit) : Upstream where
  chunks := result.1
  raised :=
    match result.2 with
    | .ok _ => none
    | .error (.exc exc) => some exc
    | .error (.transport exc) => some (.exception exc.name)

/-- A request that is admitted, whose client stays, and for which the server sends this. -/
def relayEnv {i : Interpreter} (env : Env) (t : Transmission i)
    (request : LlamaCpp.ChatCompletionRequest) : Env :=
  { env with
    acquire := .admitted
    disconnect := none
    upstream := upstreamOf (LlamaCpp.streamChatCompletion i (fun _ => .ok t.response) request) }

/-! ## What the client reads -/

/-- The items of the body of the response. -/
def bodyItems (events : List Event) : List (List UInt8) :=
  events.filterMap fun
    | .sent (.chunk bytes) => some bytes
    | _ => none

/-- What the client makes of an event. -/
inductive Received
  | chunk (view : ChunkView)
  | done
  | invalid

/-- `json.loads(event.data)`, unless the event is `[DONE]`. -/
def receive (float : Numeral → Text) (event : SSEEvent) : Received :=
  if event.isDone then .done
  else
    match loads float (Str.ofText event.data) with
    | some payload => .chunk (chunkView payload)
    | none => .invalid

variable {i : Interpreter} {env : Env} {canonicalModel : Str}

/-! ## The backend -/

/-- The text of an object is not empty, and is no `[DONE]`. -/
theorem not_isDone_of_loads {float : Numeral → Text} {event : SSEEvent} {object : List (Str × Json)}
    (hloads : loads float (Str.ofText event.data) = some (.obj object)) :
    event.isDone = false ∧ event.data ≠ [] := by
  obtain ⟨rest, hstrip⟩ := strip_of_loads_obj hloads
  constructor
  · unfold SSEEvent.isDone
    rw [hstrip]
    rfl
  · intro hnil
    rw [hnil] at hstrip
    cases hstrip

/-- The chunk of an event of the server comes back as `chunkDict`. -/
theorem chunkOf_upstream (u : UpstreamChunk i) (model : Str) (hmodel : canonicalModel ≠ []) :
    LlamaCpp.goesOn i u.event.event = true ∧ ∃ c, LlamaCpp.chunkOf i model u.event.event = some c ∧
      Json.obj (relayedDict canonicalModel c) = chunkDict i canonicalModel u.payload := by
  obtain ⟨c, hnormalize, hdict⟩ := normalizeStreamChunk_of_shape i u.shape model hmodel
  have hloads : i.loads (Str.ofText u.event.event.data) = .ok u.payload := u.loads
  obtain ⟨id, hid⟩ := u.shape.id
  -- what can be loaded is neither the sentinel nor empty
  obtain ⟨hdone, hdata⟩ :=
    not_isDone_of_loads
      ((Interpreter.loads_eq_ok hloads).trans (congrArg some (eq_obj_of_dictGet hid)))
  have hreturns := (LlamaCpp.returns_normalizeStreamChunk model).mp ⟨_, hnormalize⟩
  refine ⟨?_, c, ?_, hdict⟩
  · unfold LlamaCpp.goesOn
    rw [hdone, hloads]
    dsimp only
    rw [hreturns, Bool.or_true]
    rfl
  · unfold LlamaCpp.chunkOf
    rw [if_neg hdata, hloads]
    dsimp only
    rw [hnormalize]

/-- What a filter keeps altogether is mapped as without it. -/
theorem map_filterMap_of {α β γ : Type*} {f : α → Option β} {g : β → γ} {h : α → γ} {l : List α}
    (hf : ∀ a ∈ l, ∃ b, f a = some b ∧ g b = h a) : (l.filterMap f).map g = l.map h := by
  induction l with
  | nil => rfl
  | cons a l ih =>
      obtain ⟨⟨b, hb, hg⟩, hrest⟩ := List.forall_mem_cons.mp hf
      rw [List.filterMap_cons_some hb, List.map_cons, List.map_cons, hg, ih hrest]

/-- The events of the response begin with those that the server has sent. -/
theorem Transmission.sseEvents_eq (t : Transmission i) : ∃ rest,
    LlamaCpp.sseEvents t.response = t.chunks.map (fun u => u.event.event) ++
    t.sentinel.event :: rest := by
  obtain ⟨rest, hparse, -⟩ := parseSse_dataEvents t.flatten t.cuts
  have hsse : LlamaCpp.sseEvents t.response = parseSse t.pieces := rfl
  refine ⟨rest, ?_⟩
  rw [hsse, hparse, List.map_append, List.map_map, List.append_assoc]
  rfl

/-- The sentinel is read as the end of the stream. -/
theorem Transmission.isDone_sentinel (t : Transmission i) : t.sentinel.event.isDone = true := by
  unfold DataEvent.event SSEEvent.isDone
  rw [t.isDone]
  rfl

/-- `stream_chat_completion` yields the chunks up to `[DONE]`, and ends. -/
theorem streamChatCompletion_transmission (t : Transmission i)
    (request : LlamaCpp.ChatCompletionRequest) (hmodel : canonicalModel ≠ []) :
    ∃ chunks, LlamaCpp.streamChatCompletion i (fun _ => .ok t.response) request = (chunks, .ok ()) ∧
      chunks.map (fun c => Json.obj (relayedDict canonicalModel c)) =
        t.chunks.map fun u => chunkDict i canonicalModel u.payload := by
  obtain ⟨rest, hevents⟩ := t.sseEvents_eq
  have hgoes : ∀ event ∈ t.chunks.map (fun u => u.event.event), LlamaCpp.goesOn i event = true := by
    rw [List.forall_mem_map]
    exact fun u _ => (chunkOf_upstream u [] hmodel).1
  have hdone := t.isDone_sentinel
  have hstops : LlamaCpp.goesOn i t.sentinel.event = false := by
    unfold LlamaCpp.goesOn
    rw [hdone]
    rfl
  -- the chunks are what stands before the sentinel
  have htake : (LlamaCpp.sseEvents t.response).takeWhile (LlamaCpp.goesOn i) =
      t.chunks.map fun u => u.event.event := by
    rw [hevents, List.takeWhile_append_of_pos hgoes, List.takeWhile_cons_of_neg (by simp [hstops]),
      List.append_nil]
  have hstop : LlamaCpp.stop i t.response = some t.sentinel.event := by
    unfold LlamaCpp.stop
    rw [hevents, List.find?_append, List.find?_eq_none.mpr (by simpa using hgoes), Option.none_or,
      List.find?_cons_of_pos (by simp [hstops])]
  have hresult : LlamaCpp.bodyResult i request.model t.response = .ok () := by
    unfold LlamaCpp.bodyResult LlamaCpp.loopResult
    rw [hstop]
    dsimp only
    rw [if_pos hdone]
    rfl
  have hstatus : t.response.statusCode = 200 := rfl
  refine ⟨(t.chunks.map fun u => u.event.event).filterMap (LlamaCpp.chunkOf i request.model), ?_,
    ?_⟩
  · rw [LlamaCpp.streamChatCompletion_of_ok rfl hstatus, htake, hresult]
    rfl
  · rw [List.filterMap_map]
    exact map_filterMap_of fun u _ => (chunkOf_upstream u request.model hmodel).2

/-- What the generator gets from the backend for a transmission. -/
theorem relayEnv_upstream (env : Env) (t : Transmission i)
    (request : LlamaCpp.ChatCompletionRequest) (hmodel : canonicalModel ≠ []) :
    ∃ chunks, (relayEnv env t request).upstream = { chunks := chunks, raised := none } ∧
      chunks.map (fun c => Json.obj (relayedDict canonicalModel c)) =
        t.chunks.map fun u => chunkDict i canonicalModel u.payload := by
  obtain ⟨chunks, hresult, hdicts⟩ := streamChatCompletion_transmission t request hmodel
  refine ⟨chunks, ?_, hdicts⟩
  unfold relayEnv
  rw [hresult]
  rfl

/-! ## The generator -/

/-- The items of the body come in the order of the events. -/
theorem bodyItems_append (events events' : List Event) :
    bodyItems (events ++ events') = bodyItems events ++ bodyItems events' :=
  List.filterMap_append ..

/-- Bytes that a client receives who stays. -/
theorem run_yieldBytes_stay (hstay : env.disconnect = none) (bytes : List UInt8)
    (s : Frame StreamVars) :
    (yieldBytes env bytes).run s = (.ok (),
      { s with
        events := s.events ++ [.sent (.chunk bytes)],
        suspensions := s.suspensions + 1 }) := by
  unfold yieldBytes log
  rw [Exec.run_modify_bind, run_suspend_stay _ _ (Env.stays hstay _)]

/-- The relay loop sends an item for every chunk, in order. -/
theorem run_relay {chunks : List ChatCompletionChunk} {bytes : List (List UInt8)}
    (hstay : env.disconnect = none) (hraised : env.upstream.raised = none)
    (hformat : chunks.map (fun c => formatSse (relayedDict env.call.canonicalModel c)) =
      bytes.map some) (s : Frame StreamVars) :
    ∃ t, (relay env chunks).run s = (.ok (), t) ∧ bodyItems t.events = bodyItems s.events ++
    bytes := by
  induction chunks generalizing bytes s with
  | nil =>
      obtain rfl : bytes = [] := List.map_eq_nil_iff.mp hformat.symm
      unfold relay
      rw [Exec.run_bind_ok (run_suspend_stay _ _ (Env.stays hstay _)), hraised]
      exact ⟨_, rfl, (List.append_nil _).symm⟩
  | cons chunk chunks ih =>
      obtain ⟨item, bytes, rfl, hitem, hrest⟩ := List.map_eq_cons_iff.mp hformat.symm
      have hbytes : formatSse (relayedDict env.call.canonicalModel chunk) = some item := hitem.symm
      unfold relay assign
      rw [Exec.run_bind_ok (run_suspend_stay _ _ (Env.stays hstay _)), Exec.run_modify_bind, hbytes]
      dsimp only
      rw [Exec.run_bind_ok (run_yieldBytes_stay hstay _ _)]
      -- the bytes of one chunk are sent whole, before those of the next
      obtain ⟨t, hrun, ht⟩ := ih hrest.symm _
      refine ⟨t, hrun, ?_⟩
      rw [ht, bodyItems_append, List.append_assoc]
      rfl

/-- An admitted stream sends the items of its chunks and `[DONE]`. -/
theorem run_streamBody {bytes : List (List UInt8)} (hstay : env.disconnect = none)
    (hacquire : env.acquire.error = none) (hraised : env.upstream.raised = none)
    (hformat : env.upstream.chunks.map (fun c =>
        formatSse (relayedDict env.call.canonicalModel c)) =
      bytes.map some) (s : Frame StreamVars) :
    ∃ t, (streamBody env).run s = (.ok (), t) ∧
      bodyItems t.events = bodyItems s.events ++ (bytes ++ [formatSseDone]) := by
  let s₁ : Frame StreamVars :=
    { s with
      vars := { s.vars with
        admissionCompletedTs := some env.clock.admissionCompleted
        backendStartedTs := some env.clock.backendStarted }
      events := s.events ++ [.acquiring] ++ [.acquired] ++
        [.called env.call.backend env.call.model true]
      suspensions := s.suspensions + 1 }
  obtain ⟨t, hrelay, ht⟩ := run_relay hstay hraised hformat s₁
  let t₁ : Frame StreamVars :=
    { t with
      vars := { t.vars with
        streamCompletedNormally := true
        streamCompletedTs := some env.clock.streamCompleted
        finalOutcome := .completed }
      events := t.events ++ [.sent (.chunk formatSseDone)]
      suspensions := t.suspensions + 1 }
  refine ⟨{ t₁ with events := t₁.events ++ [.released] },
    run_withAcquire_admitted (Env.stays hstay _) hacquire ?_, ?_⟩
  · -- between the acquisition and the call nothing is sent
    unfold assign
    rw [Exec.run_modify_bind]
    unfold log
    rw [Exec.run_modify_bind, Exec.run_bind_ok hrelay,
      Exec.run_bind_ok (run_yieldBytes_stay hstay formatSseDone t)]
    rfl
  · have hitems : bodyItems s₁.events = bodyItems s.events := by
      rw [bodyItems_append, bodyItems_append, bodyItems_append]
      simp only [bodyItems, List.filterMap_cons_none, List.filterMap_nil, List.append_nil]
    rw [bodyItems_append, bodyItems_append, ht, hitems, List.append_assoc, List.append_assoc]
    rfl

/-- An event that is no item of the body. -/
theorem bodyItems_log {event : Event} (h : bodyItems [event] = []) :
    Exec.Preserves (fun s : Frame StreamVars => bodyItems s.events) (log event) := by
  refine Exec.Moves.modify fun s => ?_
  unfold Exec.Same
  dsimp only
  rw [bodyItems_append, h, List.append_nil]

/-- The items of the whole response. -/
theorem bodyItems_streamEvents (env : Env) {bytes : List (List UInt8)}
    (hadmission : env.app.admission = true) (hstay : env.disconnect = none)
    (hacquire : env.acquire.error = none) (hraised : env.upstream.raised = none)
    (hformat : env.upstream.chunks.map (fun c =>
        formatSse (relayedDict env.call.canonicalModel c)) =
      bytes.map some) :
    bodyItems (streamEvents env) = bytes ++ [formatSseDone] := by
  obtain ⟨t, hrun, hitems⟩ := run_streamBody hstay hacquire hraised hformat (started env)
  unfold streamEvents
  rw [run_serveStream env hadmission,
    Exec.view_bind (fun s : Frame StreamVars => bodyItems s.events) (fun _ => bodyItems_log rfl)]
  unfold streamGenerator
  rw [Exec.run_tryFinally_state, Exec.run_tryExcept_ok hrun]
  unfold streamFinally assign
  rw [Exec.run_modify_bind, Exec.run_get_bind, run_recordUsage, bodyItems_append, hitems]
  have hstarted : bodyItems (started env).events = [] := rfl
  rw [hstarted, List.nil_append]
  split_ifs
  · exact List.append_nil _
  · exact List.append_nil _

/-! ## What the client reads -/

/-- An object without surrogates is sent as its text. -/
theorem formatSse_eq {payload : List (Str × Json)} (hscalar : (Json.obj payload).Scalar) :
    formatSse payload =
      some (encode ("data: ".toList ++ (dumps (.obj payload)).toText ++ "\n\n".toList)) := by
  have htext : Str.ofText (dumps (.obj payload)).toText = dumps (.obj payload) :=
    Str.ofText_toText ((scalar_dumps _).mpr hscalar)
  unfold formatSse
  rw [← Str.encode_ofText, Str.ofText_append, Str.ofText_append, htext]
  rfl

/-- The text of a value without surrogates has no control characters. -/
theorem not_mem_dumps {float : Numeral → Text} {j : Json} (hformed : j.WellFormed float)
    (hscalar : j.Scalar) {c : Char} (hc : c.toNat < 0x20) : c ∉ (dumps j).toText := by
  intro hmem
  have hpoint : CodePoint.ofChar c ∈ dumps j := by
    rw [← Str.ofText_toText ((scalar_dumps j).mpr hscalar)]
    exact List.mem_map_of_mem hmem
  have hprintable : 0x20 ≤ c.toNat := printable_dumps j hformed _ hpoint
  omega

section Client

variable (hi : i.Lawful) (hmodel : canonicalModel.Scalar)

/-- A chunk of the upstream is sent as a well-formed object. -/
theorem UpstreamChunk.wellFormed (hi : i.Lawful) (canonicalModel : Str) (u : UpstreamChunk i) :
    (chunkDict i canonicalModel u.payload).WellFormed i.float :=
  wellFormed_chunkDict canonicalModel u.shape
    (wellFormed_of_loads hi.floatsPrint (Interpreter.loads_eq_ok u.loads))

/-- The event that is sent for a chunk. -/
def UpstreamChunk.relayed (hi : i.Lawful) (hmodel : canonicalModel.Scalar) (u : UpstreamChunk i) :
    DataEvent where
  noise := []
  data := (dumps (chunkDict i canonicalModel u.payload)).toText
  isNoise := List.forall_mem_nil _
  noNewline :=
    not_mem_dumps (u.wellFormed hi canonicalModel) (scalar_chunkDict hi hmodel u.scalar) (by decide)
  noReturn := not_mem_dumps (u.wellFormed hi canonicalModel) (scalar_chunkDict hi hmodel u.scalar)
    (by decide)

/-- What is sent for the chunk. -/
theorem formatSse_chunkDict (u : UpstreamChunk i) :
    formatSse (members (chunkDict i canonicalModel u.payload)) =
      some (encode (u.relayed hi hmodel).text) :=
  formatSse_eq (scalar_chunkDict hi hmodel u.scalar)

/-- The client gets the view of the chunk from it. -/
theorem receive_relayed (u : UpstreamChunk i) :
    receive i.float (u.relayed hi hmodel).event =
      .chunk { chunkView u.payload with model := some (.str canonicalModel) } := by
  have hloads : loads i.float (Str.ofText (u.relayed hi hmodel).event.data) =
      some (chunkDict i canonicalModel u.payload) := by
    have htext : Str.ofText (u.relayed hi hmodel).event.data =
        dumps (chunkDict i canonicalModel u.payload) :=
      Str.ofText_toText ((scalar_dumps _).mpr (scalar_chunkDict hi hmodel u.scalar))
    rw [htext]
    exact loads_dumps i.float (u.wellFormed hi canonicalModel)
  unfold receive
  rw [(not_isDone_of_loads hloads).1, hloads, if_neg Bool.false_ne_true]
  dsimp only
  rw [chunkView_chunkDict i canonicalModel u.shape]

end Client

/-- `[DONE]` as it is sent. -/
def doneEvent : DataEvent where
  noise := []
  data := "[DONE]".toList
  isNoise := List.forall_mem_nil _
  noNewline := by decide
  noReturn := by decide

/-- The chunk of a payload, sent as its text behind some comments. -/
def UpstreamChunk.ofPayload (i : Interpreter) (noise : List Text) (payload : Json)
    (hnoise : ∀ line ∈ noise, IsNoise line) (hformed : payload.WellFormed i.float)
    (hscalar : payload.Scalar) (hshape : ChunkShape payload)
    (hlimit : i.loadsLimit (dumps payload) = none) : UpstreamChunk i where
  event := {
    noise := noise
    data := (dumps payload).toText
    isNoise := hnoise
    noNewline := not_mem_dumps hformed hscalar (by decide)
    noReturn := not_mem_dumps hformed hscalar (by decide) }
  payload := payload
  loads := by
    dsimp only
    rw [Str.ofText_toText ((scalar_dumps _).mpr hscalar), Interpreter.loads, hlimit,
      loads_dumps i.float hformed]
  shape := hshape
  scalar := hscalar

/-- The chunks and `[DONE]`, in one piece. -/
def Transmission.ofChunks {i : Interpreter} (chunks : List (UpstreamChunk i)) : Transmission i where
  chunks := chunks
  sentinel := doneEvent
  pieces := [encode ((chunks.map UpstreamChunk.event ++ [doneEvent]).flatMap DataEvent.text)]
  isDone := rfl
  flatten := by simp
  cuts := cuts_singleton _

/-- The bytes that the client gets are those of the chunks with the canonical model, and of
`[DONE]`. -/
theorem bodyItems_relay (hi : i.Lawful) (env : Env) (t : Transmission i)
    (request : LlamaCpp.ChatCompletionRequest) (hadmission : env.app.admission = true)
    (hmodel : env.call.canonicalModel ≠ []) (hscalar : env.call.canonicalModel.Scalar) :
    (bodyItems (streamEvents (relayEnv env t request))).flatten =
      encode ((t.chunks.map (UpstreamChunk.relayed hi hscalar) ++ [doneEvent]).flatMap
        DataEvent.text) := by
  obtain ⟨chunks, hupstream, hdicts⟩ := relayEnv_upstream env t request hmodel
  have hformat : (relayEnv env t request).upstream.chunks.map
      (fun c => formatSse (relayedDict env.call.canonicalModel c)) =
        (t.chunks.map fun u => encode (u.relayed hi hscalar).text).map some := by
    have hsent := congrArg (List.map fun j => formatSse (members j)) hdicts
    rw [List.map_map, List.map_map] at hsent
    rw [hupstream, List.map_map]
    refine hsent.trans (List.map_congr_left fun u _ => ?_)
    exact formatSse_chunkDict hi hscalar u
  have hitems := bodyItems_streamEvents (relayEnv env t request) hadmission rfl rfl
    (by rw [hupstream]) hformat
  rw [hitems, encode, List.flatMap_assoc, List.flatten_append, ← List.flatMap_def,
    List.flatMap_append, List.flatMap_map]
  rfl

/-- **The relay is faithful.** However the bytes of the server are cut between characters, and
however those of the answer are, the client reads the chunks that the server has sent, in order,
with the canonical model, and then one `[DONE]` and nothing else. -/
theorem relay_faithful (hi : i.Lawful) (env : Env) (t : Transmission i)
    (request : LlamaCpp.ChatCompletionRequest) (hadmission : env.app.admission = true)
    (hmodel : env.call.canonicalModel ≠ []) (hscalar : env.call.canonicalModel.Scalar)
    {pieces : List (List UInt8)}
    (hflatten : pieces.flatten = (bodyItems (streamEvents (relayEnv env t request))).flatten)
    (hcuts : CutsBetweenCharacters pieces.flatten pieces) :
    (parseSse pieces).map (receive i.float) =
      t.chunks.map (fun u =>
        .chunk { chunkView u.payload with model := some (.str env.call.canonicalModel) }) ++
      [.done] := by
  rw [bodyItems_relay hi env t request hadmission hmodel hscalar] at hflatten
  rw [hflatten] at hcuts
  obtain ⟨rest, hparse, hrest⟩ :=
    parseSse_dataEvents (hflatten.trans (List.append_nil _).symm) hcuts
  rw [hparse, hrest rfl, List.append_nil, List.map_append, List.map_append, List.map_map,
    List.map_map]
  congr 1
  exact List.map_congr_left fun u _ => receive_relayed hi hscalar u

/-- An interpreter for texts without floats. -/
def sampleInterpreter :
      Interpreter := ⟨fun _ => "NaN".toList, fun _ => 0, fun _ => [], fun _ => none, fun _ => false,
      fun _ => "Expecting value: line 1 column 1 (char 0)"⟩

/-- The sample interpreter does what the standard library documents. -/
theorem lawful_sampleInterpreter : sampleInterpreter.Lawful :=
  ⟨fun _ _ _ _ _ => .inl rfl, fun _ _ => Str.scalar_nil⟩

/-- A chunk with one choice, behind a comment, in one piece. -/
theorem relay_faithful_hello :
    let i : Interpreter := ⟨fun _ => "NaN".toList, fun _ => 0, fun _ => [], fun _ => none,
        fun _ => false,
      fun _ => "Expecting value: line 1 column 1 (char 0)"⟩
    let env : Env :=
      { app := { admission := true, usageService := true, database := true }
        call := { requestId := "r", apiKeyId := none, clientId := none, userId := none, model := []
                  canonicalModel := Str.ofString "m" }
        acquire := .admitted
        upstream := { chunks := [] } }
    let request : LlamaCpp.ChatCompletionRequest := { model := Str.ofString "m" }
    let payload : Json := .obj [(Str.ofString "id", .text "a"), (Str.ofString "created", .int 1),
      (Str.ofString "choices", .arr [.obj [(Str.ofString "index", .int 0),
        (Str.ofString "delta", .obj [(Str.ofString "content", .text "hello")]),
        (Str.ofString "finish_reason", .null)]])]
    ∃ t : Transmission i, t.chunks.map (·.payload) = [payload] ∧
      (parseSse [(bodyItems (streamEvents (relayEnv env t request))).flatten]).map
        (receive i.float) =
        [.chunk { chunkView payload with model := some (.text "m") }, .done] := by
  intro i env request payload
  have hi : i.Lawful := ⟨fun _ _ _ _ _ => .inl rfl, fun _ _ => Str.scalar_nil⟩
  have hformed : payload.WellFormed i.float := by
    have hkeys : (["id", "created", "choices"].map Str.ofString).Nodup := by decide
    have hchoice : (["index", "delta", "finish_reason"].map Str.ofString).Nodup := by decide
    exact ⟨hkeys, trivial, trivial,
      ⟨⟨hchoice, trivial, ⟨List.nodup_singleton _, trivial, trivial⟩, trivial, trivial⟩,
        trivial⟩, trivial⟩
  have hscalar : payload.Scalar := by
    simp [payload, Json.Scalar, ScalarMembers, ScalarItems, Json.text]
  have hshape : ChunkShape payload :=
    { id := ⟨_, rfl⟩
      created := ⟨_, rfl⟩
      choices := ⟨_, rfl, List.forall_mem_singleton.mpr
        { index := ⟨_, rfl⟩
          delta := ⟨_, rfl, fun v hv => (nomatch hv), fun v hv => ⟨_, (Option.some.inj hv).symm⟩⟩
          finishReason := fun v hv => .inl (Option.some.inj hv).symm }⟩ }
  let u : UpstreamChunk i :=
    .ofPayload i [": ping".toList] payload (by simp [IsNoise]) hformed hscalar hshape rfl
  let t : Transmission i := .ofChunks [u]
  have hmodel : env.call.canonicalModel ≠ [] := List.cons_ne_nil _ _
  have hmodel' : env.call.canonicalModel.Scalar := Str.scalar_ofString _
  have htext := bodyItems_relay hi env t request rfl hmodel hmodel'
  refine ⟨t, rfl, ?_⟩
  refine relay_faithful hi env t request rfl hmodel hmodel' List.flatten_singleton ?_
  rw [htext, List.flatten_singleton]
  exact cuts_singleton _

end SynGateway.Api.Chat

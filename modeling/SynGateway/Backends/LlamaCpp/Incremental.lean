import Mathlib.Data.Seq.Basic
import SynGateway.Backends.LlamaCpp.Containment
import SynGateway.Core.Sse.Refinement
import SynGateway.Python.JsonRoundTrip

/-!
# Whether the stream is incremental

The body of the server arrives piece by piece, perhaps without end. `_stream_chat_completion_impl`
awaits `client.post`, which returns when the body has been read, so that nothing can be yielded
before. Hence a chunk can be yielded when its event has arrived only if the body is complete by then
(`incremental_iff`).
-/

namespace SynGateway.Backends.LlamaCpp

open SynGateway.Api.Chat SynGateway.Core.Sse SynGateway.EventStream SynGateway.Python
  SynGateway.Utf8

/-- The pieces of a body, in the order in which they arrive. -/
abbrev Schedule := Stream'.Seq (List UInt8)

/-- The bytes of the first `n` pieces. -/
def received (schedule : Schedule) (n : ℕ) : List UInt8 := (schedule.take n).flatten

/-- What `client.post` has returned when `n` pieces have arrived: nothing before the whole body has
been read. Then `aiter_bytes()` has it as one item, if any. -/
def posted (schedule : Schedule) (n : ℕ) : Option Response :=
  match schedule.get? n with
  | some _ => none
  | none => some {
      statusCode := 200
      chunks := if received schedule n = [] then [] else [received schedule n] }

/-- What the generator can yield when `n` pieces have arrived. -/
def produced (i : Interpreter) (request : ChatCompletionRequest) (schedule : Schedule) (n : ℕ) :
    List ChatCompletionChunk :=
  match posted schedule n with
  | none => []
  | some response => (streamChatCompletion i (fun _ => .ok response) request).1

/-! ## The law -/

/-- The event holds a JSON object with a list of choices. -/
def holdsChunk (i : Interpreter) (event : SSEEvent) : Bool :=
  match i.loads (Str.ofText event.data) with
  | .error _ => false
  | .ok payload => isChunkObject payload

/-- Such an event has a `created` that `int` accepts. -/
def holdsCreated (i : Interpreter) (event : SSEEvent) : Bool :=
  match i.loads (Str.ofText event.data) with
  | .error _ => false
  | .ok payload => hasCreated i payload

/-- The data events at the front that hold chunk objects, up to `[DONE]`. -/
def leadingChunks (i : Interpreter) (events : List SSEEvent) : List SSEEvent :=
  (events.filter fun event => event.data ≠ []).takeWhile fun event =>
    !event.isDone && holdsChunk i event

/-- The chunk events at the front of the bytes that are complete. -/
def chunkEvents (i : Interpreter) (bytes : List UInt8) : List SSEEvent :=
  leadingChunks i ((completeEvents id (decode bytes)).map eventOf)

/-- When `n` pieces have arrived, the chunks of the first `k` events in them can be yielded. -/
def IncrementalAt (i : Interpreter) (request : ChatCompletionRequest) (schedule : Schedule)
    (n : ℕ) : Prop :=
  ∀ k ≤ (chunkEvents i (received schedule n)).length,
    ((produced i request schedule n).take k).map some =
      ((chunkEvents i (received schedule n)).take k).map (chunkOf i request.model)

variable {i : Interpreter} {request : ChatCompletionRequest} {schedule : Schedule} {n : ℕ}

/-! ## One event -/

/-- An event without data is no sentinel. -/
theorem not_isDone_of_nil {event : SSEEvent} (h : event.data = []) : event.isDone = false := by
  unfold SSEEvent.isDone
  rw [h]
  rfl

/-- The stream goes on behind a chunk event whose `created` is accepted. -/
theorem goesOn_of_holdsCreated {event : SSEEvent} (hdone : event.isDone = false)
    (hcreated : holdsCreated i event = true) : goesOn i event = true := by
  unfold holdsCreated at hcreated
  unfold goesOn
  rw [hdone]
  cases hloads : i.loads (Str.ofText event.data) with
  | error error =>
      rw [hloads] at hcreated
      cases hcreated
  | ok payload =>
      rw [hloads] at hcreated
      dsimp only at hcreated ⊢
      simp [hcreated]

/-- A chunk event has a chunk exactly if its `created` is accepted. -/
theorem isSome_chunkOf (model : Str) {event : SSEEvent} (hdata : event.data ≠ [])
    (hchunk : holdsChunk i event = true) :
    (chunkOf i model event).isSome = holdsCreated i event := by
  unfold holdsChunk at hchunk
  unfold holdsCreated chunkOf
  rw [if_neg hdata]
  cases hloads : i.loads (Str.ofText event.data) with
  | error error => rfl
  | ok payload =>
      rw [hloads] at hchunk
      obtain ⟨created, chunk, hcreated, hnormalize⟩ := normalizeStreamChunk_eq_map model hchunk
      dsimp only
      rw [hcreated, hnormalize]
      cases created <;> rfl

/-! ## The chunks of complete events -/

/-- An event without data adds no chunk event. -/
theorem leadingChunks_cons_of_nil {event : SSEEvent} {events : List SSEEvent}
    (h : event.data = []) :
    leadingChunks i (event :: events) = leadingChunks i events := by
  unfold leadingChunks
  rw [List.filter_cons_of_neg (by simp [h])]

/-- The leading chunks go on behind an event that holds one. -/
theorem leadingChunks_cons_of_ne {event : SSEEvent} {events : List SSEEvent} (h : event.data ≠ []) :
    leadingChunks i (event :: events) =
      if !event.isDone && holdsChunk i event then event :: leadingChunks i events else [] := by
  unfold leadingChunks
  rw [List.filter_cons_of_pos (by simp [h]), List.takeWhile_cons]

/-- Chunk events have data. -/
theorem of_mem_leadingChunks {event : SSEEvent} {events : List SSEEvent}
    (h : event ∈ leadingChunks i events) :
    event.data ≠ [] ∧ event.isDone = false ∧ holdsChunk i event = true := by
  have hdata := (List.takeWhile_sublist _).subset h
  have hholds := List.mem_takeWhile_imp h
  rw [List.mem_filter, decide_eq_true_eq] at hdata
  rw [Bool.and_eq_true, Bool.not_eq_true'] at hholds
  exact ⟨hdata.2, hholds⟩

/-- If the chunk events at the front have what it takes, the stream begins with their chunks. -/
theorem leadingChunks_prefix_chunks (model : Str) {events : List SSEEvent} (rest : List SSEEvent)
    (hcreated : ∀ event ∈ leadingChunks i events, holdsCreated i event = true) :
    (leadingChunks i events).map (chunkOf i model) <+:
      (((events ++ rest).takeWhile (goesOn i)).filterMap (chunkOf i model)).map some := by
  induction events with
  | nil => exact List.nil_prefix
  | cons event events ih =>
      rw [List.cons_append]
      by_cases hdata : event.data = []
      · -- an event without data neither ends the loop nor yields a chunk
        rw [leadingChunks_cons_of_nil hdata] at hcreated ⊢
        have hgoes : goesOn i event = true := by
          unfold goesOn
          simp [not_isDone_of_nil hdata, hdata]
        have hnone : chunkOf i model event = none := if_pos hdata
        rw [List.takeWhile_cons_of_pos hgoes, List.filterMap_cons_none hnone]
        exact ih hcreated
      · rw [leadingChunks_cons_of_ne hdata] at hcreated ⊢
        split at hcreated
        · next hholds =>
            rw [if_pos hholds]
            rw [Bool.and_eq_true, Bool.not_eq_true'] at hholds
            -- a leading chunk that can be made goes on in both readings
            obtain ⟨hhead, hrest⟩ := List.forall_mem_cons.mp hcreated
            have hsome := isSome_chunkOf model hdata hholds.2
            rw [hhead] at hsome
            obtain ⟨chunk, hchunk⟩ := Option.isSome_iff_exists.mp hsome
            rw [List.takeWhile_cons_of_pos (goesOn_of_holdsCreated hholds.1 hhead),
              List.filterMap_cons_some hchunk, List.map_cons, List.map_cons, hchunk]
            exact (List.prefix_cons_inj _).mpr (ih hrest)
        · next hholds =>
            rw [if_neg hholds]
            exact List.nil_prefix

/-! ## The whole stream -/

/-- The complete events of a body are the first that `parse_sse` yields of it. -/
theorem complete_prefix_parseSse (body : List UInt8) :
    (completeEvents id (decode body)).map eventOf <+: parseSse
    (if body = [] then [] else [body]) := by
  have hdecode : (if body = [] then [] else [body]).flatMap decode = decode body := by
    split
    · next hempty =>
        rw [hempty]
        rfl
    · exact List.flatMap_singleton decode body
  rw [parseSse_eq, hdecode]
  exact (completeEvents_prefix_events _).map eventOf

/-- Before the body is complete nothing is yielded. -/
theorem produced_of_not_terminated (h : ¬ schedule.TerminatedAt n) :
    produced i request schedule n = [] := by
  obtain ⟨piece, hpiece⟩ := Option.ne_none_iff_exists'.mp h
  unfold produced posted
  rw [hpiece]

/-- Then the stream yields what there is in it. -/
theorem produced_of_terminated (h : schedule.TerminatedAt n) :
    produced i request schedule n =
      (((parseSse (if received schedule n = [] then [] else [received schedule n])).takeWhile
        (goesOn i)).filterMap (chunkOf i request.model)) := by
  have hposted : schedule.get? n = none := h
  unfold produced posted
  rw [hposted]
  dsimp only
  rw [streamChatCompletion_of_ok rfl (by rfl)]
  rfl

/-- **The stream is not incremental.** At each moment it obeys the law exactly if no chunk event is
complete yet, or the body is and all these events have a `created` that `int` accepts. -/
theorem incremental_iff (i : Interpreter) (request : ChatCompletionRequest) (schedule : Schedule) :
    (∀ n, IncrementalAt i request schedule n) ↔
      ∀ n, chunkEvents i (received schedule n) = [] ∨
        schedule.TerminatedAt n ∧ ∀ event ∈ chunkEvents i (received schedule n),
        holdsCreated i event = true := by
  refine forall_congr' fun n => ?_
  constructor
  · intro hlaw
    have hall := hlaw _ le_rfl
    rw [List.take_length] at hall
    by_cases hnone : chunkEvents i (received schedule n) = []
    · exact .inl hnone
    · refine .inr ⟨?_, fun event hevent => ?_⟩
      · by_contra hmore
        rw [produced_of_not_terminated hmore, List.take_nil, List.map_nil] at hall
        exact hnone (List.map_eq_nil_iff.mp hall.symm)
      · -- the event has a chunk, since the one that was yielded is the event's
        have hmem := List.mem_map_of_mem (f := chunkOf i request.model) hevent
        rw [← hall] at hmem
        obtain ⟨chunk, -, hchunk⟩ := List.mem_map.mp hmem
        obtain ⟨hdata, -, hholds⟩ := of_mem_leadingChunks hevent
        rw [← isSome_chunkOf request.model hdata hholds, ← hchunk]
        rfl
  · intro hcond k hk
    rcases hcond with hnone | ⟨hterminated, hcreated⟩
    · obtain rfl : k = 0 := by simpa [hnone] using hk
      simp
    · obtain ⟨rest, hrest⟩ := complete_prefix_parseSse (received schedule n)
      have hprefix := leadingChunks_prefix_chunks request.model rest hcreated
      rw [hrest, ← produced_of_terminated hterminated] at hprefix
      obtain ⟨later, hlater⟩ := hprefix
      rw [List.map_take, List.map_take, ← hlater]
      exact List.take_append_of_le_length (by rwa [List.length_map])

/-- A chunk event has arrived, and `[DONE]` has not: the law fails. -/
theorem not_incremental :
    let i : Interpreter := ⟨fun _ => [], fun _ => 0, fun _ => [], fun _ => none, fun _ => false,
      fun _ => "Expecting value: line 1 column 1 (char 0)"⟩
    let schedule : Schedule := Stream'.Seq.ofList
      [encode "data: \x7b\"choices\": []\x7d\n\n".toList, encode "data: [DONE]\n\n".toList]
    ¬ ∀ n, IncrementalAt i { model := Str.ofString "m" } schedule n := by
  intro i schedule hlaw
  let chunk : Json := .obj [(Str.ofString "choices", .arr [])]
  let event : SSEEvent := { data := "\x7b\"choices\": []\x7d".toList }
  have hchunk : holdsChunk i event = true := by
    have hloads : i.loads (Str.ofText event.data) = .ok chunk := by
      have htext : Str.ofText event.data = dumps chunk := by decide
      have hformed : chunk.WellFormed i.float := by
        simp [chunk, Json.WellFormed, WellFormedMembers, WellFormedItems]
      unfold Interpreter.loads
      rw [htext, loads_dumps i.float hformed]
    unfold holdsChunk
    rw [hloads]
    rfl
  have hevents : chunkEvents i (received schedule 1) = [event] := by
    have hreceived : received schedule 1 = encode "data: \x7b\"choices\": []\x7d\n\n".toList := by
      rfl
    have hcomplete : (completeEvents id "data: \x7b\"choices\": []\x7d\n\n".toList).map eventOf =
        [event] := by
      decide
    unfold chunkEvents
    rw [hreceived, decode_encode, hcomplete, leadingChunks_cons_of_ne (by decide), hchunk]
    rfl
  have hone := hlaw 1 1 (by rw [hevents]; rfl)
  rw [hevents] at hone
  cases hone

end SynGateway.Backends.LlamaCpp

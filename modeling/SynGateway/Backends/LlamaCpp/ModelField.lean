import SynGateway.Backends.LlamaCpp.Defs
import SynGateway.Python.TwoRuns

/-!
# The `model` field of an answer

Two answers of a llama.cpp server that differ in the `model` field of the body, or of the chunks of
the stream, and what the backend makes of them: results that differ in their `model` at most. The
request may name another model as well. The text of an exception may quote where a chunk could not
be read, so two streams end with the same exception up to that text.
-/

namespace SynGateway.Backends.LlamaCpp

open SynGateway.Api.Chat SynGateway.Core SynGateway.Core.Sse SynGateway.Python
  SynGateway.Python.Json

variable {i : Interpreter}

/-! ## Answers that differ in their model -/

/-- The members but `model` are the same. -/
def MembersButModel (ms ms' : List (Str × Json)) :
    Prop := ∀ key ≠ "model", dictGet ms key = dictGet ms' key

/-- The same value, or two objects that differ in the member `model`, present or absent. -/
inductive ButModel : Json → Json → Prop
  | same (j : Json) : ButModel j j
  | obj {ms ms' : List (Str × Json)} (h : MembersButModel ms ms') : ButModel (.obj ms) (.obj ms')

/-- Responses that differ in `model` at most. -/
def ResponseButModel (r r' : ChatCompletionResponse) : Prop :=
  { r with model := .null } = { r' with model := .null }

/-- Chunks that differ in `model` at most. -/
def ChunkButModel (c c' : ChatCompletionChunk) :
    Prop := { c with model := [] } = { c' with model := [] }

/-- Events of a stream whose payloads differ in `model` at most. -/
structure EventButModel (i : Interpreter) (e e' : SSEEvent) : Prop where
  isDone : e.isDone = e'.isDone
  empty : e.data = [] ↔ e'.data = []
  loads : Alike ButModel (i.loads (Str.ofText e.data)) (i.loads (Str.ofText e'.data))

/-- Answers of a server that differ in the `model` fields of the body, or of the chunks, at most. -/
structure AnswerButModel (i : Interpreter) (resp resp' : Response) : Prop where
  statusCode : resp.statusCode = resp'.statusCode
  json : Option.Rel ButModel resp.json resp'.json
  events : List.Forall₂ (EventButModel i) (sseEvents resp) (sseEvents resp')
  raised : resp.raised = resp'.raised

/-- Objects that differ in the model field have members that do. -/
theorem alike_dictItems {data data' : Json} (h : ButModel data data') :
    Alike MembersButModel (dictItems data) (dictItems data') := by
  cases h with
  | same j => exact Alike.refl (fun _ _ _ => rfl) _
  | obj h => exact .ok h

/-- The normalizer of `chat_completion` carries the model along. -/
theorem alike_normalizeResponse {model model' : Str} {data data' : Json} (h : ButModel data data') :
    Alike ResponseButModel (normalizeResponse model data) (normalizeResponse model' data') := by
  refine (alike_dictItems h).bind fun ms ms' hms => ?_
  rw [hms "choices" (by decide), hms "usage" (by decide)]
  refine (Alike.refl (fun _ => rfl) _).bind fun rawChoices _ hraw => ?_
  subst hraw
  refine (Alike.refl (fun _ => rfl) _).bind fun choices _ hchoices => ?_
  subst hchoices
  refine (Alike.refl (fun _ => rfl) _).bind fun usageData _ husage => ?_
  subst husage
  refine .ok ?_
  rw [hms "id" (by decide), hms "object" (by decide), hms "created" (by decide),
    hms "system_fingerprint" (by decide)]
  rfl

/-- The normalizer of a stream chunk carries the model along. -/
theorem alike_normalizeStreamChunk {model model' : Str} {payload payload' : Json}
    (h : ButModel payload payload') :
    Alike (Option.Rel ChunkButModel) (normalizeStreamChunk i payload model)
      (normalizeStreamChunk i payload' model') := by
  have hobj : ∀ {ms ms' : List (Str × Json)}, MembersButModel ms ms' →
      Alike (Option.Rel ChunkButModel) (normalizeStreamChunk i (.obj ms) model)
        (normalizeStreamChunk i (.obj ms') model') := by
    intro ms ms' hms
    unfold normalizeStreamChunk
    dsimp only
    -- the members that are read are all but the model
    rw [hms "choices" (by decide)]
    split
    · rw [hms "created" (by decide)]
      refine (Alike.refl (fun _ => rfl) _).bind fun created _ hcreated => ?_
      subst hcreated
      refine .ok (.some ?_)
      rw [hms "id" (by decide), hms "object" (by decide), hms "system_fingerprint" (by decide)]
      rfl
    · exact .ok .none
  cases h with
  | obj h => exact hobj h
  | same =>
      cases payload with
      | obj ms => exact hobj fun _ _ => rfl
      | _ => exact .ok .none

/-- `chat_completion` on two such answers. -/
theorem alike_chatCompletion {post post' : Post} {request request' : ChatCompletionRequest}
    (h : Alike (AnswerButModel i) (post (payload request false)) (post' (payload request' false))) :
    Alike ResponseButModel (chatCompletion post request) (chatCompletion post' request') := by
  unfold chatCompletion
  revert h
  -- the two answers are related, so one case split serves both
  generalize post (payload request false) = answer, post' (payload request' false) = answer'
  intro h
  cases h with
  | error exc => exact .error _
  | ok hresp =>
      dsimp only
      rw [hresp.statusCode]
      split_ifs
      · exact .error _
      · have hjson := hresp.json
        revert hjson
        generalize Response.json _ = data, Response.json _ = data'
        intro hjson
        cases hjson with
        | none => exact .error _
        | some hdata =>
            have hnormal : Alike ResponseButModel (normalizeResponse request.model _)
                (normalizeResponse request'.model _) := alike_normalizeResponse hdata
            dsimp only
            revert hnormal
            generalize normalizeResponse request.model _ = x, normalizeResponse request'.model _ = y
            intro hnormal
            cases hnormal with
            | ok hr => exact .ok hr
            | error exc => exact .error _

/-! ## Streams that differ in their models -/

/-- The same exception, or that of a chunk that is no JSON, whatever is said of the chunk. -/
def RaisedButText (raised raised' : Raised) : Prop :=
  raised = raised' ∨ ∃ text text', raised = invalidChunk text ∧ raised' = invalidChunk text'

instance : Std.Refl RaisedButText := ⟨fun _ => .inl rfl⟩

/-- The loop over the events yields alike chunks, and ends alike. -/
theorem agree_streamLoop {model model' : Str} {events events' : List SSEEvent}
    (h : List.Forall₂ (EventButModel i) events events') :
    Exec.AgreeUpTo RaisedButText (List.Forall₂ ChunkButModel) Eq (streamLoop i model events)
      (streamLoop i model' events') := by
  induction h with
  | nil => exact .pure rfl
  | @cons event event' _ _ hevent _ ih =>
      unfold streamLoop
      rw [hevent.isDone]
      refine .ite (.pure rfl) ?_
      by_cases hempty : event.data = []
      · rw [if_pos hempty, if_pos (hevent.empty.mp hempty)]
        exact ih
      · rw [if_neg hempty, if_neg (mt hevent.empty.mpr hempty)]
        have hloads := hevent.loads
        -- The two payloads are generalized together, so that one case split serves both runs.
        revert hloads
        generalize i.loads (Str.ofText event.data) = x, i.loads (Str.ofText event'.data) = y
        intro hloads
        cases hloads with
        | error error =>
            cases error with
            | valueError => exact .raise (.inr ⟨_, _, rfl, rfl⟩)
            | recursionError => exact .raise (.inl rfl)
        | ok hpayload =>
            have hchunk :
                Alike _ (normalizeStreamChunk i _ model) (normalizeStreamChunk i _ model') :=
              alike_normalizeStreamChunk hpayload
            dsimp only
            revert hchunk
            generalize normalizeStreamChunk i _ model = x, normalizeStreamChunk i _ model' = y
            intro hchunk
            cases hchunk with
            | error exc => exact .raise (.inl rfl)
            | ok hchunk =>
                cases hchunk with
                | none => exact ih
                | some hchunk =>
                    have hyield :
                        Exec.Agree (List.Forall₂ ChunkButModel) Eq (yieldChunk _) (yieldChunk _) :=
                      .modify fun _ _ hchunks => List.rel_append hchunks (.cons hchunk .nil)
                    exact (Exec.AgreeUpTo.of_agree hyield).bind fun _ _ _ => ih

/-- The body of the `try` block. -/
theorem agree_streamBody {model model' : Str} {resp resp' : Response}
    (h : AnswerButModel i resp resp') :
    Exec.AgreeUpTo RaisedButText (List.Forall₂ ChunkButModel) Eq (streamBody i model resp)
      (streamBody i model' resp') := by
  refine (agree_streamLoop h.events).bind fun left _ hleft => ?_
  subst hleft
  refine .ite (.pure rfl) ?_
  rw [h.raised]
  cases resp'.raised with
  | none => exact .pure rfl
  | some exc => exact .raise (.inl rfl)

/-- The clauses around the loop do nothing but raise. -/
theorem agree_streamExcept {raised raised' : Raised} (h : RaisedButText raised raised') :
    Option.Rel (Exec.AgreeUpTo RaisedButText (List.Forall₂ ChunkButModel) Eq) (streamExcept raised)
      (streamExcept raised') := by
  rcases h with rfl | ⟨text, text', rfl, rfl⟩
  · unfold streamExcept
    split
    · split_ifs
      · exact .some (.raise (.inl rfl))
      · exact .none
    · split_ifs
      · exact .some (.raise (.inl rfl))
      · exact .some (.raise (.inl rfl))
      · exact .none
  -- the clause of the typed error raises it again
  · exact .some (.raise (.inr ⟨text, text', rfl, rfl⟩))

/-- The streams of `stream_chat_completion` on two such answers. -/
theorem alike_streamChatCompletion {post post' : Post} {request request' : ChatCompletionRequest}
    (h : Alike (AnswerButModel i) (post (payload request true)) (post' (payload request' true))) :
    List.Forall₂ ChunkButModel (streamChatCompletion i post request).1
        (streamChatCompletion i post' request').1 ∧
      AlikeUpTo RaisedButText Eq (streamChatCompletion i post request).2
        (streamChatCompletion i post' request').2 := by
  have hagree : Exec.AgreeUpTo RaisedButText (List.Forall₂ ChunkButModel) Eq
      (streamChatCompletionImpl i post request) (streamChatCompletionImpl i post' request') := by
    unfold streamChatCompletionImpl
    revert h
    generalize post (payload request true) = answer, post' (payload request' true) = answer'
    intro h
    cases h with
    | error exc => exact .raise (.inl rfl)
    | ok hresp =>
        dsimp only
        rw [hresp.statusCode]
        refine .ite (.raise (.inl rfl))
          (.tryExcept (agree_streamBody hresp) fun raised raised' h => ?_)
        exact ⟨agree_streamExcept h, fun _ => h⟩
  -- the chunks of a run are its state, which begins with none
  obtain ⟨hends, hchunks⟩ := hagree [] [] .nil
  exact ⟨hchunks, hends⟩

end SynGateway.Backends.LlamaCpp

import SynGateway.Python.Json

/-!
# Stream chunks and their encoding

The streaming types of `app/schemas/chat.py`, and `_chunk_to_api_dict`, `_format_sse` and
`_format_sse_done` of `app/api/chat.py`. The annotations of the schemas are not checked at run time:
the fields that `_normalize_stream_chunk` copies from the upstream payload are arbitrary JSON
values, `None` being `null`.
-/

namespace SynGateway.Api.Chat

open SynGateway.Python

/-- `ChatCompletionDelta`. -/
structure ChatCompletionDelta where
  role : Json := .null
  content : Json := .null

/-- `ChatCompletionChunkChoice`. -/
structure ChatCompletionChunkChoice where
  index : Json
  delta : ChatCompletionDelta
  finishReason : Json := .null

/-- `ChatCompletionChunk`. -/
structure ChatCompletionChunk where
  id : Str
  object : Str
  created : ℤ
  model : Str
  choices : List ChatCompletionChunkChoice
  systemFingerprint : Json := .null

/-- `if value is not None: d[key] = value`, on a key that is not in `d`. -/
def itemUnlessNone (key : String) : Json → List (Str × Json)
  | .null => []
  | value => [(Str.ofString key, value)]

/-- An element of the `choices` of `_chunk_to_api_dict`. -/
def ChatCompletionChunkChoice.toApiDict (c : ChatCompletionChunkChoice) : Json :=
  .obj [(Str.ofString "index", c.index),
    (Str.ofString "delta",
      .obj (itemUnlessNone "role" c.delta.role ++ itemUnlessNone "content" c.delta.content)),
    (Str.ofString "finish_reason", c.finishReason)]

/-- `_chunk_to_api_dict`. -/
def chunkToApiDict (chunk : ChatCompletionChunk) : List (Str × Json) :=
  [(Str.ofString "id", .str chunk.id),
    (Str.ofString "object",
      .str (if chunk.object = [] then Str.ofString "chat.completion.chunk" else chunk.object)),
    (Str.ofString "created", .int chunk.created),
    (Str.ofString "model", .str chunk.model),
    (Str.ofString "choices", .arr (chunk.choices.map ChatCompletionChunkChoice.toApiDict))]
    ++ (if chunk.systemFingerprint.truthy then
        [(Str.ofString "system_fingerprint", chunk.systemFingerprint)]
      else [])

/-- `_format_sse`; `none` is the `UnicodeEncodeError`. -/
def formatSse (payload : List (Str × Json)) : Option (List UInt8) :=
  (Str.ofString "data: " ++ dumps (.obj payload) ++ Str.ofString "\n\n").encode

/-- `_format_sse_done`. -/
def formatSseDone : List UInt8 := Utf8.encode "data: [DONE]\n\n".toList

/-- The payload that is relayed for a chunk: its `model` is replaced by the canonical one, if any.
-/
def relayedDict (canonicalModel : Str) (chunk : ChatCompletionChunk) : List (Str × Json) :=
  let chunkDict := chunkToApiDict chunk
  if canonicalModel = [] then chunkDict
  else setItem chunkDict (Str.ofString "model") (.str canonicalModel)

/-- Nothing that is relayed for the chunk holds a surrogate. -/
def ChatCompletionChunk.Encodable (canonicalModel : Str) (chunk : ChatCompletionChunk) : Prop :=
  ScalarMembers (relayedDict canonicalModel chunk)

/-- A payload can be sent when no string in it holds a surrogate. -/
theorem formatSse_isSome_iff {payload : List (Str × Json)} :
    (formatSse payload).isSome ↔ ScalarMembers payload := by
  rw [formatSse, Str.encode_isSome_iff, Str.scalar_append, Str.scalar_append, scalar_dumps]
  simp [Json.Scalar]

end SynGateway.Api.Chat

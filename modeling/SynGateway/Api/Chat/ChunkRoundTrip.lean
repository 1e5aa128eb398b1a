import SynGateway.Api.Chat.Relay

/-!
# The encoder on decoded chunks

`json.loads` keeps an unpaired surrogate that is escaped in its text as a code point of its own, and
`_normalize_stream_chunk` copies the strings of the server's chunk. `_format_sse` prints with
`ensure_ascii` off and encodes in UTF-8, which has no bytes for a surrogate: such a chunk ends a
stream that was being relayed. Every other one is encoded, and the client reads the same deltas
(`encodes_iff`).
-/

namespace SynGateway.Api.Chat

open SynGateway.Backends SynGateway.Core.Sse SynGateway.Python SynGateway.Python.Json
  SynGateway.Utf8

/-! ## Deltas -/

/-- The items of the delta of a choice; what is no object counts as empty. -/
def deltaItems (choice : List (Str × Json)) : List (Str × Json) :=
  members (orElse (dictGet choice "delta") (.obj []))

/-- The role and the content of a choice, `null` for what is missing. What is no object is no
choice. -/
def choiceDelta : Json → Option (Json × Json)
  | .obj choice =>
    some ((dictGet (deltaItems choice) "role").getD .null,
      (dictGet (deltaItems choice) "content").getD .null)
  | _ => none

/-- The delta content of a chunk object. -/
def deltas (chunk : Json) : List (Json × Json) :=
  (items ((dictGet (members chunk) "choices").getD .null)).filterMap choiceDelta

/-- The chunk of this payload can be sent, with its own model or a canonical one, and the client
reads the deltas of the payload from it. -/
structure Encodes (i : Interpreter) (payload : Json) (chunk : ChatCompletionChunk) : Prop where
  delivered : ∃ bytes event relayed, formatSse (chunkToApiDict chunk) = some bytes ∧
    parseSse [bytes] = [event] ∧ loads i.float (Str.ofText event.data) = some relayed ∧
    deltas relayed = deltas payload
  relays : ∀ canonicalModel : Str, canonicalModel.Scalar →
    (formatSse (relayedDict canonicalModel chunk)).isSome

/-! ## Surrogates -/

/-- `str` of what is no `str` shows strings by their `repr`, which escapes surrogates. -/
def ReprEscapes (i : Interpreter) : Prop := ∀ value, (∀ s, value ≠ .str s) → (i.strOf value).Scalar

/-- No surrogate stands in what is relayed of a choice. -/
structure PlainChoice (choice : List (Str × Json)) : Prop where
  index : ∀ value, dictGet choice "index" = some value → value.Scalar
  role : ∀ value, dictGet (deltaItems choice) "role" = some value → value.Scalar
  content : ∀ value, dictGet (deltaItems choice) "content" = some value → value.Scalar
  finishReason : ∀ value, dictGet choice "finish_reason" = some value → value.Scalar

/-- No surrogate stands in what is relayed of a chunk object: its strings, those of its choices, and
those of a fingerprint that is truthy. -/
structure PlainChunk (payload : List (Str × Json)) (fallbackModel : Str) : Prop where
  id : ∀ s, dictGet payload "id" = some (.str s) → s.Scalar
  object : ∀ s, dictGet payload "object" = some (.str s) → s.Scalar
  model : ∀ s, (dictGet payload "model").getD (.str fallbackModel) = .str s → s.Scalar
  choices : ∀ choices, dictGet payload "choices" = some (.arr choices) →
    ∀ choice, .obj choice ∈ choices → PlainChoice choice
  systemFingerprint : ∀ value, dictGet payload "system_fingerprint" = some value →
    value.truthy = true → value.Scalar

variable {i : Interpreter} {float : Numeral → Text}

/-! ## The chunk that is relayed -/

/-- The delta of a choice that was relayed is the one that it was built from. -/
theorem choiceDelta_toApiDict (c : ChatCompletionChunkChoice) :
    choiceDelta c.toApiDict = some (c.delta.role, c.delta.content) := by
  obtain ⟨index, ⟨role, content⟩, finishReason⟩ := c
  cases role <;> cases content <;> rfl

/-- The deltas of the relayed object are those of the chunk. -/
theorem deltas_chunkToApiDict (chunk : ChatCompletionChunk) :
    deltas (.obj (chunkToApiDict chunk)) = chunk.choices.map fun c =>
    (c.delta.role, c.delta.content) := by
  have hdeltas : deltas (.obj (chunkToApiDict chunk)) =
      (chunk.choices.map ChatCompletionChunkChoice.toApiDict).filterMap choiceDelta := rfl
  rw [hdeltas, List.filterMap_map, ← List.filterMap_eq_map]
  congr 1
  funext c
  exact choiceDelta_toApiDict c

/-- A choice of well-formed values is sent as a well-formed object. -/
theorem wellFormed_toApiDict {c : ChatCompletionChunkChoice} (hindex : c.index.WellFormed float)
    (hrole : c.delta.role.WellFormed float) (hcontent : c.delta.content.WellFormed float)
    (hreason : c.finishReason.WellFormed float) : c.toApiDict.WellFormed float :=
  wellFormed_choiceObject hindex (wellFormed_delta hrole hcontent) hreason

/-- A chunk of well-formed choices is sent as a well-formed object. -/
theorem wellFormed_chunkToApiDict {chunk : ChatCompletionChunk}
    (hchoices : ∀ c ∈ chunk.choices, c.toApiDict.WellFormed float)
    (hfingerprint : chunk.systemFingerprint.WellFormed float) :
    (Json.obj (chunkToApiDict chunk)).WellFormed float :=
  wellFormed_chunkObject trivial trivial trivial trivial
    (List.forall_mem_map.mpr hchoices) hfingerprint

/-- The surrogates of a choice that is sent are those of its fields. -/
theorem scalar_toApiDict_iff (c : ChatCompletionChunkChoice) :
    c.toApiDict.Scalar ↔ c.index.Scalar ∧ (c.delta.role.Scalar ∧ c.delta.content.Scalar) ∧
      c.finishReason.Scalar := by
  rw [← scalar_delta_iff]
  exact scalar_choiceObject_iff

/-- What must hold no surrogate for the chunk to be sent. -/
theorem scalar_chunkToApiDict_iff (chunk : ChatCompletionChunk) :
    ScalarMembers (chunkToApiDict chunk) ↔ chunk.id.Scalar ∧ chunk.object.Scalar ∧
      chunk.model.Scalar ∧
      (∀ c ∈ chunk.choices, c.toApiDict.Scalar) ∧
      (chunk.systemFingerprint.truthy = true → chunk.systemFingerprint.Scalar) := by
  have hobject : Str.Scalar (if chunk.object = [] then Str.ofString "chat.completion.chunk"
      else chunk.object) ↔
      chunk.object.Scalar := by
    by_cases hempty : chunk.object = []
    · rw [if_pos hempty, hempty]
      exact iff_of_true (Str.scalar_ofString _) Str.scalar_nil
    · rw [if_neg hempty]
  refine Iff.trans scalar_chunkObject_iff ?_
  rw [List.forall_mem_map]
  exact ⟨fun ⟨hid, hobj, _, hrest⟩ => ⟨hid, hobject.mp hobj, hrest⟩,
    fun ⟨hid, hobj, hrest⟩ => ⟨hid, hobject.mpr hobj, trivial, hrest⟩⟩

/-! ## The chunk that is normalized -/

/-- The choice that is made of an object. -/
def choiceOf (idx : ℕ) (choice : List (Str × Json)) : ChatCompletionChunkChoice where
  index := (dictGet choice "index").getD (.int idx)
  delta := {
    role := (dictGet (deltaItems choice) "role").getD .null
    content := (dictGet (deltaItems choice) "content").getD .null }
  finishReason := (dictGet choice "finish_reason").getD .null

/-- Every choice that is an object is normalized. -/
theorem normalizeChunkChoice_obj (idx : ℕ) (choice : List (Str × Json)) :
    LlamaCpp.normalizeChunkChoice idx (.obj choice) = some (choiceOf idx choice) := by
  unfold LlamaCpp.normalizeChunkChoice choiceOf deltaItems members
  rfl

/-- Normalization keeps the delta of a choice. -/
theorem normalizeChunkChoice_map (idx : ℕ) (choice : Json) :
    (LlamaCpp.normalizeChunkChoice idx choice).map (fun c => (c.delta.role, c.delta.content)) =
      choiceDelta choice := by
  cases choice with
  | obj choice =>
      rw [normalizeChunkChoice_obj]
      rfl
  | _ => rfl

/-- The choices of the chunk are those of the objects in the list. -/
theorem forall_choices_iff {raw : List Json} {p : ChatCompletionChunkChoice → Prop} :
    (∀ c ∈ (raw.mapIdx LlamaCpp.normalizeChunkChoice).reduceOption, p c) ↔
      ∀ (idx : ℕ) (h : idx < raw.length) choice, raw[idx] = .obj choice →
      p (choiceOf idx choice) := by
  constructor
  · intro hall idx h choice hchoice
    refine hall _ (List.reduceOption_mem_iff.mpr (List.mem_mapIdx.mpr ⟨idx, h, ?_⟩))
    rw [hchoice, normalizeChunkChoice_obj]
  · intro hall c hc
    obtain ⟨idx, h, hnormalize⟩ := List.mem_mapIdx.mp (List.reduceOption_mem_iff.mp hc)
    cases hchoice : raw[idx] with
    | obj choice =>
        rw [hchoice, normalizeChunkChoice_obj] at hnormalize
        obtain rfl := Option.some.inj hnormalize
        exact hall idx h choice hchoice
    | _ =>
        rw [hchoice] at hnormalize
        cases hnormalize

/-- What a normalized chunk holds. -/
theorem normalizeStreamChunk_eq_some {payload : Json} {fallbackModel : Str}
    {chunk : ChatCompletionChunk}
    (h : LlamaCpp.normalizeStreamChunk i payload fallbackModel = .ok (some chunk)) :
    ∃ m raw created, payload = .obj m ∧ dictGet m "choices" = some (.arr raw) ∧ chunk = {
      id := i.str ((dictGet m "id").getD (.text ""))
      object := i.str ((dictGet m "object").getD (.text "chat.completion.chunk"))
      created := created
      model := i.str ((dictGet m "model").getD (.str fallbackModel))
      choices := (raw.mapIdx LlamaCpp.normalizeChunkChoice).reduceOption
      systemFingerprint := (dictGet m "system_fingerprint").getD .null } := by
  unfold LlamaCpp.normalizeStreamChunk at h
  split at h
  · next m =>
      split at h
      · next raw hraw =>
          obtain ⟨created, -, hchunk⟩ := bind_eq_ok.mp h
          cases hchunk
          exact ⟨m, raw, created, rfl, hraw, rfl⟩
      · cases h
  · cases h

/-! ## What comes from the payload -/

/-- A default without surrogates leaves those of the field. -/
theorem scalar_getD_iff {value : Option Json} {default : Json} (h : default.Scalar) :
    (value.getD default).Scalar ↔ ∀ v, value = some v → v.Scalar := by
  cases value with
  | none => exact iff_of_true h nofun
  | some v => simp

/-- Only a string with a surrogate is printed with one. -/
theorem scalar_str_iff (hrepr : ReprEscapes i) (value : Json) :
    (i.str value).Scalar ↔ ∀ s, value = .str s → s.Scalar := by
  cases value with
  | str s => exact ⟨fun h _ heq => Json.str.inj heq ▸ h, fun h => h s rfl⟩
  | _ => exact iff_of_true (hrepr _ nofun) nofun

/-- A literal default leaves the surrogates of the field. -/
theorem str_getD_iff {value : Option Json} {text : String} :
    (∀ s, value.getD (.text text) = .str s → s.Scalar) ↔ ∀ s, value = some (.str s) → s.Scalar := by
  cases value with
  | none => exact iff_of_true (fun s h => Json.str.inj h ▸ Str.scalar_ofString text) nofun
  | some v => simp

/-- What is sent of a choice is free of surrogates when what is relayed of it is. -/
theorem scalar_choiceOf_iff (idx : ℕ) (choice : List (Str × Json)) :
    (choiceOf idx choice).toApiDict.Scalar ↔ PlainChoice choice := by
  rw [scalar_toApiDict_iff]
  unfold choiceOf
  dsimp only
  have hnull : ∀ value : Option Json, (value.getD .null).Scalar ↔ ∀ v, value = some v → v.Scalar :=
    fun _ => scalar_getD_iff trivial
  have hindex : ∀ value : Option Json, (value.getD (.int idx)).Scalar ↔ ∀ v, value = some v →
      v.Scalar :=
    fun _ => scalar_getD_iff trivial
  rw [hindex, hnull, hnull, hnull]
  constructor
  · rintro ⟨hindex, ⟨hrole, hcontent⟩, hreason⟩
    exact ⟨hindex, hrole, hcontent, hreason⟩
  · rintro ⟨hindex, hrole, hcontent, hreason⟩
    exact ⟨hindex, ⟨hrole, hcontent⟩, hreason⟩

/-- **What must hold no surrogate**, in terms of the payload. -/
theorem scalar_normalized_iff (hrepr : ReprEscapes i) {m : List (Str × Json)} {fallbackModel : Str}
    {chunk : ChatCompletionChunk}
    (h : LlamaCpp.normalizeStreamChunk i (.obj m) fallbackModel = .ok (some chunk)) :
    ScalarMembers (chunkToApiDict chunk) ↔ PlainChunk m fallbackModel := by
  obtain ⟨_, raw, created, heq, hraw, rfl⟩ := normalizeStreamChunk_eq_some h
  cases heq
  -- entries of `choices` that are no objects are dropped by both sides
  have hchoices : (∀ c ∈ (raw.mapIdx LlamaCpp.normalizeChunkChoice).reduceOption,
      c.toApiDict.Scalar) ↔
      ∀ choice, .obj choice ∈ raw → PlainChoice choice := by
    rw [forall_choices_iff]
    simp only [scalar_choiceOf_iff]
    constructor
    · intro hall choice hmem
      obtain ⟨idx, h, hchoice⟩ := List.getElem_of_mem hmem
      exact hall idx h choice hchoice
    · exact fun hall idx h choice hchoice => hall choice (hchoice ▸ List.getElem_mem h)
  have hfingerprint : (((dictGet m "system_fingerprint").getD .null).truthy = true →
      ((dictGet m "system_fingerprint").getD .null).Scalar) ↔
        ∀ v, dictGet m "system_fingerprint" = some v → v.truthy = true → v.Scalar := by
    cases dictGet m "system_fingerprint" with
    | none => exact iff_of_true (fun _ => trivial) nofun
    | some v => simp
  rw [scalar_chunkToApiDict_iff]
  dsimp only
  rw [scalar_str_iff hrepr, scalar_str_iff hrepr, scalar_str_iff hrepr, str_getD_iff,
    str_getD_iff, hchoices, hfingerprint]
  constructor
  · rintro ⟨hid, hobject, hmodel, hplain, hprint⟩
    refine ⟨hid, hobject, hmodel, fun choices heq => ?_, hprint⟩
    cases hraw.symm.trans heq
    exact hplain
  · rintro ⟨hid, hobject, hmodel, hplain, hprint⟩
    exact ⟨hid, hobject, hmodel, hplain raw hraw, hprint⟩

/-- The values of a decoded payload print so that they are read back, and so does the relayed
object. -/
theorem wellFormed_normalized {m : List (Str × Json)} {fallbackModel : Str}
    {chunk : ChatCompletionChunk} (hformed : (Json.obj m).WellFormed float)
    (h : LlamaCpp.normalizeStreamChunk i (.obj m) fallbackModel = .ok (some chunk)) :
    (Json.obj (chunkToApiDict chunk)).WellFormed float := by
  obtain ⟨_, raw, created, heq, hraw, rfl⟩ := normalizeStreamChunk_eq_some h
  cases heq
  have hitems : WellFormedItems float raw :=
    wellFormedMembers_iff.mp hformed.2 _ (mem_of_dictGet hraw)
  refine wellFormed_chunkToApiDict ?_ (wellFormed_getD "system_fingerprint" hformed)
  rw [forall_choices_iff]
  intro idx hidx choice hchoice
  have hobject : (Json.obj choice).WellFormed float :=
    hchoice ▸ wellFormedItems_iff.mp hitems _ (List.getElem_mem hidx)
  have hdelta : (orElse (dictGet choice "delta") (.obj [])).WellFormed float := by
    unfold orElse
    split
    · next v hv =>
        split
        · exact wellFormedMembers_iff.mp hobject.2 _ (mem_of_dictGet hv)
        · exact ⟨List.nodup_nil, trivial⟩
    · exact ⟨List.nodup_nil, trivial⟩
  have hindex : ((dictGet choice "index").getD (.int idx)).WellFormed float := by
    cases hv : dictGet choice "index" with
    | none => trivial
    | some v => exact wellFormedMembers_iff.mp hobject.2 _ (mem_of_dictGet hv)
  exact wellFormed_toApiDict hindex (wellFormed_getD "role" hdelta)
    (wellFormed_getD "content" hdelta) (wellFormed_getD "finish_reason" hobject)

/-- The relayed object has the deltas of the payload. -/
theorem deltas_normalized {m : List (Str × Json)} {fallbackModel : Str}
    {chunk : ChatCompletionChunk}
    (h : LlamaCpp.normalizeStreamChunk i (.obj m) fallbackModel = .ok (some chunk)) :
    deltas (.obj (chunkToApiDict chunk)) = deltas (.obj m) := by
  obtain ⟨_, raw, created, heq, hraw, rfl⟩ := normalizeStreamChunk_eq_some h
  cases heq
  rw [deltas_chunkToApiDict]
  unfold deltas
  dsimp only [members]
  rw [hraw, map_reduceOption_mapIdx fun idx choice _ => normalizeChunkChoice_map idx choice]
  rfl

/-! ## Sending and reading -/

/-- An object without surrogates is sent as one event, and read back from it. -/
theorem read_formatSse {payload : List (Str × Json)} (hformed : (Json.obj payload).WellFormed float)
    (hscalar : (Json.obj payload).Scalar) :
    ∃ bytes event, formatSse payload = some bytes ∧ parseSse [bytes] = [event] ∧
      loads float (Str.ofText event.data) = some (.obj payload) := by
  let sent : DataEvent := {
    noise := []
    data := (dumps (.obj payload)).toText
    isNoise := List.forall_mem_nil _
    noNewline := not_mem_dumps hformed hscalar (by decide)
    noReturn := not_mem_dumps hformed hscalar (by decide) }
  have hbytes : [encode sent.text].flatten = encode ([sent].flatMap DataEvent.text) ++ [] := by simp
  have hcuts :
      CutsBetweenCharacters (encode ([sent].flatMap DataEvent.text)) [encode sent.text] := by
    rw [List.flatMap_singleton]
    exact cuts_singleton _
  obtain ⟨rest, hparse, hrest⟩ := parseSse_dataEvents hbytes hcuts
  rw [hrest rfl] at hparse
  refine ⟨_, sent.event, formatSse_eq hscalar, hparse, ?_⟩
  have htext : Str.ofText sent.event.data = dumps (.obj payload) :=
    Str.ofText_toText ((scalar_dumps _).mpr hscalar)
  rw [htext]
  exact loads_dumps float hformed

/-- A canonical model replaces the one of the chunk. -/
theorem scalar_relayedDict {canonicalModel : Str} {chunk : ChatCompletionChunk}
    (hscalar : ScalarMembers (chunkToApiDict chunk)) (hmodel : canonicalModel.Scalar) :
    ScalarMembers (relayedDict canonicalModel chunk) := by
  by_cases hempty : canonicalModel = []
  · unfold relayedDict
    rw [if_pos hempty]
    exact hscalar
  · have hdict : relayedDict canonicalModel chunk =
        chunkToApiDict { chunk with model := canonicalModel } :=
      relayedDict_eq hempty chunk
    obtain ⟨hid, hobject, -, hchoices, hfingerprint⟩ := (scalar_chunkToApiDict_iff chunk).mp hscalar
    rw [hdict]
    exact (scalar_chunkToApiDict_iff _).mpr ⟨hid, hobject, hmodel, hchoices, hfingerprint⟩

/-- **The encoder on decoded chunks.** A chunk that is made of a decoded payload is sent, and the
client reads its deltas, exactly if no surrogate stands in what is relayed of the payload. -/
theorem encodes_iff (hi : i.Lawful) (hrepr : ReprEscapes i) {text fallbackModel : Str}
    {payload : List (Str × Json)} {chunk : ChatCompletionChunk}
    (hloads : i.loads text = .ok (.obj payload))
    (hnormalize : LlamaCpp.normalizeStreamChunk i (.obj payload) fallbackModel = .ok (some chunk)) :
    Encodes i (.obj payload) chunk ↔ PlainChunk payload fallbackModel := by
  rw [← scalar_normalized_iff hrepr hnormalize]
  constructor
  · rintro ⟨⟨bytes, -, -, hformat, -⟩, -⟩
    exact formatSse_isSome_iff.mp (hformat ▸ rfl)
  · intro hscalar
    have hformed := wellFormed_of_loads hi.floatsPrint (Interpreter.loads_eq_ok hloads)
    obtain ⟨bytes, event, hformat, hparse, hread⟩ :=
      read_formatSse (wellFormed_normalized hformed hnormalize) hscalar
    refine ⟨⟨bytes, event, _, hformat, hparse, hread, deltas_normalized hnormalize⟩,
      fun model hmodel => ?_⟩
    exact formatSse_isSome_iff.mpr (scalar_relayedDict hscalar hmodel)

/-! ## A surrogate -/

open CodePoint (ofChar)

/-- A chunk object whose content is written so. -/
def contentText (content : String) : Str :=
  Str.ofString "\x7b\"choices\": [\x7b\"delta\": \x7b\"content\": \"" ++
    (Str.ofString content ++ Str.ofString "\"\x7d\x7d]\x7d")

def contentPayload (content : Str) : List (Str × Json) :=
  [(Str.ofString "choices",
    .arr [.obj [(Str.ofString "delta", .obj [(Str.ofString "content", .str content)])]])]

/-- An object of one item. -/
theorem scanOnce_member (float : Numeral → Text) (key : Str) {s rest : Str} {p : CodePoint}
    {value : Json} (hp : Starts p)
    (h : ∃ n, scanOnce float n (p :: s) = some (value, ofChar '\x7d' :: rest)) :
    ∃ n, scanOnce float n (ofChar '\x7b' :: (quote key ++ Str.ofString ": " ++ p :: s)) =
      some (.obj [(key, value)], rest) := by
  have hmembers : ∃ n, scanMembers float n [] (quote key ++ Str.ofString ": " ++ p :: s) =
      some (.obj [(key, value)], rest) := scanMembers_last float (skipSpace_of_starts hp s) h
  rw [quote_colon] at hmembers ⊢
  exact scanOnce_obj float hmembers

/-- The text is read as the content that its string stands for. -/
theorem loads_contentText (float : Numeral → Text) {content : String} {s : Str}
    (h : ∀ rest, scanString (Str.ofString content ++ ofChar '"' :: rest) = some (s, rest)) :
    loads float (contentText content) = some (.obj (contentPayload s)) := by
  let rest : Str := [ofChar '\x7d', ofChar '\x7d', ofChar ']', ofChar '\x7d']
  have htext :
      contentText content = ofChar '\x7b' :: (quote (Str.ofString "choices") ++ Str.ofString ": " ++
      ofChar '[' :: ofChar '\x7b' :: (quote (Str.ofString "delta") ++ Str.ofString ": " ++
        ofChar '\x7b' :: (quote (Str.ofString "content") ++ Str.ofString ": " ++ ofChar '"' ::
          (Str.ofString content ++ ofChar '"' :: rest)))) := rfl
  have hcontent :
      ∃ n, scanOnce float n (ofChar '"' :: (Str.ofString content ++ ofChar '"' :: rest)) =
      some (.str s, rest) :=
    ⟨1, (scanOnce_eq_some float).mpr ⟨_, _, rfl, .inl ⟨rfl, s, h _, rfl⟩⟩⟩
  have hdelta := scanOnce_member float (Str.ofString "content") (by decide) hcontent
  have hchoice := scanOnce_member float (Str.ofString "delta") (by decide) hdelta
  have hchoices := scanOnce_arr float (by decide) (scanItems_last float hchoice)
  obtain ⟨n, hscan⟩ := scanOnce_member float (Str.ofString "choices") (by decide) hchoices
  rw [htext]
  exact (loads_eq_some float).mpr ⟨n, [], hscan, rfl⟩

/-- A chunk with a content is normalized. -/
theorem normalized_contentPayload (s : Str) : ∃ chunk,
    LlamaCpp.normalizeStreamChunk sampleInterpreter (.obj (contentPayload s)) (Str.ofString "m") =
    .ok (some chunk) :=
  ⟨_, rfl⟩

/-- The sample interpreter reads the chunk that carries the content. -/
theorem loads_sampleInterpreter {content : String} {s : Str}
    (h : ∀ rest, scanString (Str.ofString content ++ ofChar '"' :: rest) = some (s, rest)) :
    sampleInterpreter.loads (contentText content) = .ok (.obj (contentPayload s)) := by
  unfold Interpreter.loads
  rw [loads_contentText _ h]
  rfl

/-- The sample interpreter escapes everything in a representation. -/
theorem reprEscapes_sampleInterpreter : ReprEscapes sampleInterpreter := fun _ _ => Str.scalar_nil

/-- A content without surrogates is a plain chunk. -/
theorem plainChunk_contentPayload {s : Str} (hs : s.Scalar) :
    PlainChunk (contentPayload s) (Str.ofString "m") where
  id t h := nomatch (show (none : Option Json) = some (.str t) from h)
  object t h := nomatch (show (none : Option Json) = some (.str t) from h)
  model t h :=
    Json.str.inj (show Json.str (Str.ofString "m") = .str t from h) ▸ Str.scalar_ofString "m"
  choices choices hchoices choice hmem := by
    cases hchoices
    cases List.mem_singleton.mp hmem
    exact {
      index := fun v h => nomatch (show (none : Option Json) = some v from h)
      role := fun v h => nomatch (show (none : Option Json) = some v from h)
      content := fun v h => Option.some.inj (show some (Json.str s) = some v from h) ▸ hs
      finishReason := fun v h => nomatch (show (none : Option Json) = some v from h) }
  systemFingerprint v h := nomatch (show (none : Option Json) = some v from h)

/-- An accented letter comes through. -/
theorem encodes_iff_accent :
    sampleInterpreter.loads (contentText "é") = .ok
      (.obj (contentPayload (Str.ofString "é"))) ∧ ∃ chunk,
      LlamaCpp.normalizeStreamChunk sampleInterpreter (.obj (contentPayload (Str.ofString "é")))
        (Str.ofString "m") =
        .ok (some chunk) ∧ Encodes sampleInterpreter
        (.obj (contentPayload (Str.ofString "é"))) chunk := by
  have hloads : sampleInterpreter.loads (contentText "é") =
      .ok (.obj (contentPayload (Str.ofString "é"))) :=
    loads_sampleInterpreter fun rest => scanString_quote (Str.ofString "é") rest
  obtain ⟨chunk, hchunk⟩ := normalized_contentPayload (Str.ofString "é")
  have hencodes := encodes_iff lawful_sampleInterpreter reprEscapes_sampleInterpreter hloads hchunk
  exact ⟨hloads, chunk, hchunk, hencodes.mpr (plainChunk_contentPayload (Str.scalar_ofString _))⟩

/-- The content `"\ud800"` is a lone surrogate, and its chunk is not sent. -/
theorem not_encodes : ¬ ∀ (i : Interpreter) (text fallbackModel : Str) (payload : List (Str × Json))
    (chunk : ChatCompletionChunk), i.Lawful → ReprEscapes i → i.loads text = .ok (.obj payload) →
    LlamaCpp.normalizeStreamChunk i (.obj payload) fallbackModel = .ok (some chunk) →
    Encodes i (.obj payload) chunk := by
  intro hall
  have hescape :
      ∀ rest, scanString
      (Str.ofString "\\ud800" ++ ofChar '"' :: rest) = some ([0xD800], rest) := by
    intro rest
    have hscan :
      scanEscape (Str.ofString "ud800" ++ ofChar '"' :: rest) = some (0xD800, ofChar '"' :: rest) :=
      rfl
    have hend : scanString (ofChar '"' :: rest) = some ([], rest) := scanString_quote [] rest
    refine (scanString_escape hscan).trans ?_
    rw [hend]
    rfl
  obtain ⟨chunk, hchunk⟩ := normalized_contentPayload [0xD800]
  obtain ⟨⟨bytes, -, -, hformat, -⟩, -⟩ := hall _ _ _ _ chunk lawful_sampleInterpreter
    reprEscapes_sampleInterpreter (loads_sampleInterpreter hescape) hchunk
  have hplain := (scalar_normalized_iff reprEscapes_sampleInterpreter hchunk).mp
    (formatSse_isSome_iff.mp (hformat ▸ rfl))
  have hchoice :
      PlainChoice [(Str.ofString "delta", .obj [(Str.ofString "content", .str [0xD800])])] :=
    hplain.choices _ rfl _ (List.mem_singleton_self _)
  have hscalar : Str.Scalar [0xD800] := hchoice.content (.str [0xD800]) rfl
  exact absurd (hscalar 0xD800 (List.mem_singleton_self _)) (by decide)

end SynGateway.Api.Chat

import Mathlib.Data.List.ReduceOption
import SynGateway.Backends.LlamaCpp.Containment
import SynGateway.Python.JsonText

/-!
# What a chunk carries through

A chunk object of the server is normalized by `_normalize_stream_chunk`, and the chunk is made an
object again by `_chunk_to_api_dict`. A `ChunkView` is what should come through:
`chunkView_chunkDict` says that it does, for chunk objects of the expected shape.
-/

namespace SynGateway.Api.Chat

open SynGateway.Backends SynGateway.Python SynGateway.Python.Json

/-! ## Views -/

/-- The items of an object. -/
def members : Json → List (Str × Json)
  | .obj members => members
  | _ => []

/-- The items of a list. -/
def items : Json → List Json
  | .arr items => items
  | _ => []

/-- What is compared of a choice. A finish reason that is missing is as good as `null`. -/
structure ChoiceView where
  index : Option Json
  role : Option Json
  content : Option Json
  finishReason : Json

/-- What is compared of a chunk. -/
structure ChunkView where
  id : Option Json
  created : Option Json
  model : Option Json
  choices : List ChoiceView

def choiceView (choice : Json) : ChoiceView :=
  let delta := members ((dictGet (members choice) "delta").getD .null)
  { index := dictGet (members choice) "index"
    role := dictGet delta "role"
    content := dictGet delta "content"
    finishReason := (dictGet (members choice) "finish_reason").getD .null }

def chunkView (chunk : Json) : ChunkView where
  id := dictGet (members chunk) "id"
  created := dictGet (members chunk) "created"
  model := dictGet (members chunk) "model"
  choices := (items ((dictGet (members chunk) "choices").getD .null)).map choiceView

/-! ## Shapes -/

/-- A string or nothing. -/
def StringOrAbsent (value : Option Json) : Prop := ∀ v ∈ value, ∃ s, v = .str s

/-- A string, `null` or nothing. -/
def StringOrNull (value : Option Json) : Prop := ∀ v ∈ value, v = .null ∨ ∃ s, v = .str s

/-- A choice with an index and a delta. -/
structure ChoiceShape (choice : Json) : Prop where
  index : ∃ n, dictGet (members choice) "index" = some (.int n)
  delta : ∃ delta, dictGet (members choice) "delta" = some (.obj delta) ∧
    StringOrAbsent (dictGet delta "role") ∧ StringOrAbsent (dictGet delta "content")
  finishReason : StringOrNull (dictGet (members choice) "finish_reason")

/-- A chunk object. -/
structure ChunkShape (chunk : Json) : Prop where
  id : ∃ s, dictGet (members chunk) "id" = some (.str s)
  created : ∃ n, dictGet (members chunk) "created" = some (.int n)
  choices : ∃ choices, dictGet (members chunk) "choices" = some (.arr choices) ∧
    ∀ choice ∈ choices, ChoiceShape choice

variable {i : Interpreter} {float : Numeral → Text} {choice chunk value : Json}
    {canonicalModel : Str}

/-- What has an item is an object. -/
theorem eq_obj_of_dictGet {key : String} (h : dictGet (members chunk) key = some value) :
    chunk = .obj (members chunk) := by
  cases chunk with
  | obj items => rfl
  | _ => cases h

/-- The value of a key is among the items. -/
theorem mem_of_dictGet {items : List (Str × Json)} {key : String}
    (h : dictGet items key = some value) :
    (Str.ofString key, value) ∈ items := by
  unfold dictGet at h
  induction items with
  | nil => cases h
  | cons item items ih =>
      obtain ⟨k, v⟩ := item
      rw [List.lookup_cons] at h
      split at h
      · next hkey =>
          cases h
          rw [beq_iff_eq.mp hkey]
          exact List.mem_cons_self
      · exact List.mem_cons_of_mem _ (ih h)

/-- The recursion over members, as a statement about each. -/
theorem scalarMembers_iff {items : List (Str × Json)} :
    ScalarMembers items ↔ ∀ item ∈ items, item.1.Scalar ∧ item.2.Scalar := by
  induction items with
  | nil => simp [ScalarMembers]
  | cons item items ih => rw [ScalarMembers, ih, List.forall_mem_cons]

/-- The recursion over items, as a statement about each. -/
theorem scalarItems_iff {items : List Json} : ScalarItems items ↔ ∀ item ∈ items, item.Scalar := by
  induction items with
  | nil => simp [ScalarItems]
  | cons item items ih => rw [ScalarItems, ih, List.forall_mem_cons]

/-- The recursion over members, as a statement about each. -/
theorem wellFormedMembers_iff {items : List (Str × Json)} :
    WellFormedMembers float items ↔ ∀ item ∈ items, item.2.WellFormed float := by
  induction items with
  | nil => simp [WellFormedMembers]
  | cons item items ih => rw [WellFormedMembers, ih, List.forall_mem_cons]

/-- The recursion over items, as a statement about each. -/
theorem wellFormedItems_iff {items : List Json} :
    WellFormedItems float items ↔ ∀ item ∈ items, item.WellFormed float := by
  induction items with
  | nil => simp [WellFormedItems]
  | cons item items ih => rw [WellFormedItems, ih, List.forall_mem_cons]

/-- A value of an object without surrogates has none. -/
theorem scalar_of_dictGet {key : String} (h : chunk.Scalar)
    (hget : dictGet (members chunk) key = some value) : value.Scalar := by
  rw [eq_obj_of_dictGet hget] at h
  exact (scalarMembers_iff.mp h _ (mem_of_dictGet hget)).2

/-! ## A choice -/

/-- `null` or a string. -/
def IsNullOrString (value : Json) : Prop := value = .null ∨ ∃ s, value = .str s

/-- A string or null, with `None` for a missing field. -/
theorem StringOrNull.getD {value : Option Json} (h : StringOrNull value) :
    IsNullOrString (value.getD .null) := by
  cases value with
  | none => exact .inl rfl
  | some v => exact h v rfl

/-- A string or nothing, with `None` for a missing field. -/
theorem StringOrAbsent.getD {value : Option Json} (h : StringOrAbsent value) :
    IsNullOrString (value.getD .null) :=
  StringOrNull.getD fun v hv => .inr (h v hv)

/-- Strings and `None` hold no number that could be malformed. -/
theorem IsNullOrString.wellFormed (h : IsNullOrString value) : value.WellFormed float := by
  rcases h with rfl | ⟨s, rfl⟩
  · trivial
  · trivial

/-- An item that is left out reads as `null`. -/
theorem scalar_getD {key : String} (h : chunk.Scalar) :
    ((dictGet (members chunk) key).getD .null).Scalar := by
  cases hget : dictGet (members chunk) key with
  | none => trivial
  | some v => exact scalar_of_dictGet h hget

/-! ### The delta -/

/-- An optional item adds its key at most once. -/
theorem keys_itemUnlessNone (key : String) (value : Json) :
    ((itemUnlessNone key value).map (·.1)).Sublist [Str.ofString key] := by
  cases value with
  | null => exact List.nil_sublist _
  | _ => exact List.Sublist.refl _

/-- An optional item is its key with its value. -/
theorem mem_itemUnlessNone {key : String} {item : Str × Json}
    (h : item ∈ itemUnlessNone key value) :
    item = (Str.ofString key, value) := by
  cases value with
  | null => cases h
  | _ => exact List.mem_singleton.mp h

/-- A delta has the items that are not `None`, one for each key. -/
theorem wellFormed_delta {role content : Json} (hrole : role.WellFormed float)
    (hcontent : content.WellFormed float) :
    (Json.obj (itemUnlessNone "role" role ++ itemUnlessNone "content" content)).WellFormed
    float := by
  constructor
  · have hkeys := (keys_itemUnlessNone "role" role).append (keys_itemUnlessNone "content" content)
    rw [← List.map_append] at hkeys
    exact hkeys.nodup (by decide)
  · rw [wellFormedMembers_iff, List.forall_mem_append]
    constructor
    · intro item hitem
      rw [mem_itemUnlessNone hitem]
      exact hrole
    · intro item hitem
      rw [mem_itemUnlessNone hitem]
      exact hcontent

/-- Surrogates of joined members are those of the parts. -/
theorem scalarMembers_append {items items' : List (Str × Json)} :
    ScalarMembers (items ++ items') ↔ ScalarMembers items ∧ ScalarMembers items' := by
  rw [scalarMembers_iff, scalarMembers_iff, scalarMembers_iff, List.forall_mem_append]

/-- An optional item hides no surrogate: `None` has none. -/
theorem scalarMembers_itemUnlessNone {key : String} :
    ScalarMembers (itemUnlessNone key value) ↔ value.Scalar := by
  cases value with
  | null => exact iff_of_true trivial trivial
  | _ => simp [itemUnlessNone, ScalarMembers]

/-- The surrogates of a delta are those of its role and of its content. -/
theorem scalar_delta_iff {role content : Json} :
    (Json.obj (itemUnlessNone "role" role ++ itemUnlessNone "content" content)).Scalar ↔
      role.Scalar ∧ content.Scalar := by
  rw [Json.Scalar, scalarMembers_append, scalarMembers_itemUnlessNone, scalarMembers_itemUnlessNone]

/-- The delta that is relayed. -/
def deltaDict (delta : Json) : Json :=
  .obj (itemUnlessNone "role" ((dictGet (members delta) "role").getD .null) ++
    itemUnlessNone "content" ((dictGet (members delta) "content").getD .null))

section Delta

variable {d : Json} (hrole : StringOrAbsent (dictGet (members d) "role"))
  (hcontent : StringOrAbsent (dictGet (members d) "content"))

include hrole hcontent

/-- The relayed delta has the role and the content. -/
theorem dictGet_deltaDict :
    dictGet (members (deltaDict d)) "role" = dictGet (members d) "role" ∧
      dictGet (members (deltaDict d)) "content" = dictGet (members d) "content" := by
  unfold deltaDict
  cases hr : dictGet (members d) "role" with
  | none =>
      cases hc : dictGet (members d) "content" with
      | none => exact ⟨rfl, rfl⟩
      | some content =>
          obtain ⟨s, rfl⟩ := hcontent content hc
          exact ⟨rfl, rfl⟩
  | some role =>
      obtain ⟨s, rfl⟩ := hrole role hr
      cases hc : dictGet (members d) "content" with
      | none => exact ⟨rfl, rfl⟩
      | some content =>
          obtain ⟨t, rfl⟩ := hcontent content hc
          exact ⟨rfl, rfl⟩

/-- A rebuilt delta is well formed. -/
theorem wellFormed_deltaDict : (deltaDict d).WellFormed float :=
  wellFormed_delta hrole.getD.wellFormed hcontent.getD.wellFormed

omit hrole hcontent in

/-- A rebuilt delta has no new surrogate. -/
theorem scalar_deltaDict (hscalar : d.Scalar) : (deltaDict d).Scalar :=
  scalar_delta_iff.mpr ⟨scalar_getD hscalar, scalar_getD hscalar⟩

end Delta

/-! ### The choice -/

/-- An object with the keys of a relayed choice. -/
def choiceObject (index delta finishReason : Json) : Json :=
  .obj [(Str.ofString "index", index), (Str.ofString "delta", delta),
    (Str.ofString "finish_reason", finishReason)]

/-- A choice object is well formed when its fields are. -/
theorem wellFormed_choiceObject {index delta finishReason : Json} (hindex : index.WellFormed float)
    (hdelta : delta.WellFormed float) (hreason : finishReason.WellFormed float) :
    (choiceObject index delta finishReason).WellFormed float := by
  have hkeys :
      [Str.ofString "index", Str.ofString "delta", Str.ofString "finish_reason"].Nodup := by
    decide
  exact ⟨hkeys, hindex, hdelta, hreason, trivial⟩

/-- The surrogates of a choice object are those of its fields. -/
theorem scalar_choiceObject_iff {index delta finishReason : Json} :
    (choiceObject index delta finishReason).Scalar ↔ index.Scalar ∧ delta.Scalar ∧
    finishReason.Scalar := by
  have hkey : ∀ key, (Str.ofString key).Scalar := Str.scalar_ofString
  unfold choiceObject
  simp only [Json.Scalar, ScalarMembers, hkey, true_and, and_true]

/-- The choice that is relayed. -/
def choiceDict (choice : Json) : Json :=
  .obj [(Str.ofString "index", (dictGet (members choice) "index").getD .null),
    (Str.ofString "delta", deltaDict ((dictGet (members choice) "delta").getD .null)),
    (Str.ofString "finish_reason", (dictGet (members choice) "finish_reason").getD .null)]

/-- A choice of the expected shape is normalized, and comes back so. -/
theorem normalizeChunkChoice_of_shape (h : ChoiceShape choice) (idx : ℕ) :
    ∃ c, LlamaCpp.normalizeChunkChoice idx choice = some c ∧ c.toApiDict = choiceDict choice := by
  obtain ⟨n, hindex⟩ := h.index
  obtain ⟨delta, hdelta, -, -⟩ := h.delta
  obtain ⟨m, rfl⟩ : ∃ m, choice = .obj m := ⟨_, eq_obj_of_dictGet hindex⟩
  refine ⟨_, rfl, ?_⟩
  unfold choiceDict ChatCompletionChunkChoice.toApiDict
  dsimp only [members] at hindex hdelta ⊢
  rw [hindex, hdelta]
  cases delta <;> rfl

/-- Its view is the one of the choice. -/
theorem choiceView_choiceDict (h : ChoiceShape choice) :
    choiceView (choiceDict choice) = choiceView choice := by
  obtain ⟨n, hindex⟩ := h.index
  obtain ⟨delta, hdelta, hrole, hcontent⟩ := h.delta
  obtain ⟨hrole', hcontent'⟩ := dictGet_deltaDict (d := .obj delta) hrole hcontent
  have hview : choiceView (choiceDict choice) = {
      index := some ((dictGet (members choice) "index").getD .null)
      role := dictGet (members (deltaDict ((dictGet (members choice) "delta").getD .null))) "role"
      content := dictGet
        (members (deltaDict ((dictGet (members choice) "delta").getD .null))) "content"
      finishReason := (dictGet (members choice) "finish_reason").getD .null } := rfl
  rw [hview, choiceView, hindex, hdelta]
  dsimp only [Option.getD_some]
  rw [hrole', hcontent']

/-- A rebuilt choice is well formed. -/
theorem wellFormed_choiceDict (h : ChoiceShape choice) : (choiceDict choice).WellFormed float := by
  obtain ⟨n, hindex⟩ := h.index
  obtain ⟨delta, hdelta, hrole, hcontent⟩ := h.delta
  unfold choiceDict
  rw [hindex, hdelta]
  exact wellFormed_choiceObject trivial (wellFormed_deltaDict (d := .obj delta) hrole hcontent)
    h.finishReason.getD.wellFormed

/-- A rebuilt choice has no new surrogate. -/
theorem scalar_choiceDict (h : choice.Scalar) : (choiceDict choice).Scalar :=
  scalar_choiceObject_iff.mpr ⟨scalar_getD h, scalar_deltaDict (scalar_getD h), scalar_getD h⟩

/-! ## A chunk -/

/-- An object with the keys of a relayed chunk, the last one only if it is truthy. -/
def chunkObject (id object created model : Json) (choices : List Json) (fingerprint : Json) :
    Json :=
  .obj ([(Str.ofString "id", id), (Str.ofString "object", object),
    (Str.ofString "created", created), (Str.ofString "model", model),
    (Str.ofString "choices", .arr choices)] ++
    (if fingerprint.truthy then [(Str.ofString "system_fingerprint", fingerprint)] else []))

/-- A chunk object is well formed when its fields are. -/
theorem wellFormed_chunkObject {id object created model fingerprint : Json} {choices : List Json}
    (hid : id.WellFormed float) (hobject : object.WellFormed float)
    (hcreated : created.WellFormed float) (hmodel : model.WellFormed float)
    (hchoices : ∀ choice ∈ choices, choice.WellFormed float)
    (hfingerprint : fingerprint.WellFormed float) :
    (chunkObject id object created model choices fingerprint).WellFormed float := by
  have hlist : WellFormedItems float choices := wellFormedItems_iff.mpr hchoices
  have hkeys : ["id", "object", "created", "model", "choices",
      "system_fingerprint"].map Str.ofString |>.Nodup := by
    decide
  unfold chunkObject
  by_cases htruthy : fingerprint.truthy = true
  · rw [if_pos htruthy]
    exact ⟨hkeys, hid, hobject, hcreated, hmodel, hlist, hfingerprint, trivial⟩
  · rw [if_neg htruthy]
    exact ⟨hkeys.sublist (List.prefix_append _ [_]).sublist, hid, hobject, hcreated, hmodel,
      hlist, trivial⟩

/-- The surrogates of a chunk object are those of its fields, where a falsy fingerprint is left out.
-/
theorem scalar_chunkObject_iff {id object created model fingerprint : Json} {choices : List Json} :
    (chunkObject id object created model choices fingerprint).Scalar ↔
      id.Scalar ∧ object.Scalar ∧ created.Scalar ∧ model.Scalar ∧
        (∀ choice ∈ choices, choice.Scalar) ∧
        (fingerprint.truthy = true → fingerprint.Scalar) := by
  have hkey : ∀ key, (Str.ofString key).Scalar := Str.scalar_ofString
  have hlast :
      ScalarMembers (if fingerprint.truthy then [(Str.ofString "system_fingerprint", fingerprint)]
      else []) ↔
      (fingerprint.truthy = true → fingerprint.Scalar) := by
    by_cases htruthy : fingerprint.truthy = true
    · rw [if_pos htruthy, forall_prop_of_true htruthy]
      simp only [ScalarMembers, hkey, true_and, and_true]
    · rw [if_neg htruthy]
      exact iff_of_true trivial fun h => absurd h htruthy
  unfold chunkObject
  rw [Json.Scalar, scalarMembers_append, hlast]
  simp only [ScalarMembers, Json.Scalar, hkey, scalarItems_iff, true_and, and_true, and_assoc]

/-- The `object` that `_normalize_stream_chunk` gives a chunk. -/
def objectOf (i : Interpreter) (chunk : Json) : Str :=
  i.str ((dictGet (members chunk) "object").getD (.text "chat.completion.chunk"))

/-- The chunk that is relayed. -/
def chunkDict (i : Interpreter) (canonicalModel : Str) (chunk : Json) : Json :=
  let fingerprint := (dictGet (members chunk) "system_fingerprint").getD .null
  .obj ([(Str.ofString "id", (dictGet (members chunk) "id").getD .null),
    (Str.ofString "object",
      .str (if objectOf i chunk = [] then Str.ofString "chat.completion.chunk"
        else objectOf i chunk)),
    (Str.ofString "created", (dictGet (members chunk) "created").getD .null),
    (Str.ofString "model", .str canonicalModel),
    (Str.ofString "choices",
      .arr ((items ((dictGet (members chunk) "choices").getD .null)).map choiceDict))] ++
    (if fingerprint.truthy then [(Str.ofString "system_fingerprint", fingerprint)] else []))

/-- Normalizing the choices one by one and making something of those that are left. -/
theorem map_reduceOption_mapIdx {α β γ : Type*} {f : ℕ → α → Option β} {g : β → γ}
    {h : α → Option γ} {l : List α} (hf : ∀ idx, ∀ a ∈ l, (f idx a).map g = h a) :
    (l.mapIdx f).reduceOption.map g = l.filterMap h := by
  induction l generalizing f with
  | nil => rfl
  | cons a l ih =>
      rw [List.mapIdx_cons, List.filterMap_cons, ← hf 0 a List.mem_cons_self,
        ← ih fun idx a' ha' => hf (idx + 1) a' (List.mem_cons_of_mem a ha')]
      cases f 0 a with
      | none => rfl
      | some b => rfl

/-- The canonical model takes the place of the model. -/
theorem relayedDict_eq (hmodel : canonicalModel ≠ []) (c : ChatCompletionChunk) :
    relayedDict canonicalModel c =
      [(Str.ofString "id", .str c.id),
        (Str.ofString "object",
          .str (if c.object = [] then Str.ofString "chat.completion.chunk" else c.object)),
        (Str.ofString "created", .int c.created), (Str.ofString "model", .str canonicalModel),
        (Str.ofString "choices", .arr (c.choices.map ChatCompletionChunkChoice.toApiDict))] ++
      (if c.systemFingerprint.truthy then [(Str.ofString "system_fingerprint", c.systemFingerprint)]
        else []) := by
  unfold relayedDict
  rw [if_neg hmodel]
  rfl

/-- A chunk object is normalized, and comes back as `chunkDict`. -/
theorem normalizeStreamChunk_of_shape (i : Interpreter) (h : ChunkShape chunk) (fallbackModel : Str)
    (hmodel : canonicalModel ≠ []) :
    ∃ c, LlamaCpp.normalizeStreamChunk i chunk fallbackModel = .ok (some c) ∧
      .obj (relayedDict canonicalModel c) = chunkDict i canonicalModel chunk := by
  obtain ⟨id, hid⟩ := h.id
  obtain ⟨created, hcreated⟩ := h.created
  obtain ⟨choices, hchoices, hshape⟩ := h.choices
  have hdicts : (choices.mapIdx LlamaCpp.normalizeChunkChoice).reduceOption.map
      ChatCompletionChunkChoice.toApiDict = choices.map choiceDict := by
    have hmap : (choices.mapIdx LlamaCpp.normalizeChunkChoice).reduceOption.map
        ChatCompletionChunkChoice.toApiDict = choices.filterMap (some ∘ choiceDict) := by
      refine map_reduceOption_mapIdx fun idx choice hchoice => ?_
      obtain ⟨c, hc, hdict⟩ := normalizeChunkChoice_of_shape (hshape choice hchoice) idx
      rw [hc, Option.map_some, hdict]
      rfl
    rw [hmap, List.filterMap_eq_map]
  obtain ⟨m, rfl⟩ : ∃ m, chunk = .obj m := ⟨_, eq_obj_of_dictGet hid⟩
  dsimp only [members] at hid hcreated hchoices
  unfold LlamaCpp.normalizeStreamChunk
  dsimp only
  rw [hchoices, hcreated, hid]
  refine ⟨_, rfl, ?_⟩
  rw [relayedDict_eq hmodel]
  unfold chunkDict
  dsimp only [members]
  rw [hchoices, hcreated, hid]
  dsimp only [Option.getD_some, items]
  rw [← hdicts]
  rfl

/-- With the canonical model the view of a chunk is the one of the chunk object. -/
theorem chunkView_chunkDict (i : Interpreter) (canonicalModel : Str) (h : ChunkShape chunk) :
    chunkView (chunkDict i canonicalModel chunk) =
      { chunkView chunk with model := some (.str canonicalModel) } := by
  obtain ⟨id, hid⟩ := h.id
  obtain ⟨created, hcreated⟩ := h.created
  obtain ⟨choices, hchoices, hshape⟩ := h.choices
  have hview : chunkView (chunkDict i canonicalModel chunk) = {
      id := some ((dictGet (members chunk) "id").getD .null)
      created := some ((dictGet (members chunk) "created").getD .null)
      model := some (.str canonicalModel)
      choices := ((items ((dictGet (members chunk) "choices").getD .null)).map choiceDict).map
        choiceView } := rfl
  rw [hview, chunkView, hid, hcreated, hchoices, List.map_map]
  dsimp only [Option.getD_some, items]
  have hviews : choices.map (choiceView ∘ choiceDict) = choices.map choiceView :=
    List.map_congr_left fun choice hchoice => choiceView_choiceDict (hshape choice hchoice)
  rw [hviews]

/-- An item that is left out reads as `null`. -/
theorem wellFormed_getD (key : String) (h : chunk.WellFormed float) :
    ((dictGet (members chunk) key).getD .null).WellFormed float := by
  cases hget : dictGet (members chunk) key with
  | none => trivial
  | some v =>
      rw [eq_obj_of_dictGet hget] at h
      exact wellFormedMembers_iff.mp h.2 _ (mem_of_dictGet hget)

/-- A rebuilt chunk is well formed. -/
theorem wellFormed_chunkDict (canonicalModel : Str) (h : ChunkShape chunk)
    (hformed : chunk.WellFormed i.float) :
    (chunkDict i canonicalModel chunk).WellFormed i.float := by
  obtain ⟨id, hid⟩ := h.id
  obtain ⟨created, hcreated⟩ := h.created
  obtain ⟨choices, hchoices, hshape⟩ := h.choices
  unfold chunkDict
  rw [hid, hcreated, hchoices]
  refine wellFormed_chunkObject trivial trivial trivial trivial ?_
    (wellFormed_getD "system_fingerprint" hformed)
  rw [List.forall_mem_map]
  exact fun choice hchoice => wellFormed_choiceDict (hshape choice hchoice)

/-- `str` puts no surrogate where there is none. -/
theorem scalar_str (hi : i.Lawful) (h : value.Scalar) : (i.str value).Scalar := by
  cases value with
  | str s => exact h
  | _ => exact hi.scalar_strOf _ h

/-- The items of a value without surrogates have none. -/
theorem scalar_items (h : value.Scalar) : ∀ item ∈ items value, item.Scalar := by
  cases value with
  | arr list => exact scalarItems_iff.mp h
  | _ => exact fun item hitem => nomatch hitem

/-- A rebuilt chunk has no new surrogate. -/
theorem scalar_chunkDict (hi : i.Lawful) (hmodel : canonicalModel.Scalar) (hscalar : chunk.Scalar) :
    (chunkDict i canonicalModel chunk).Scalar := by
  have hobject : (objectOf i chunk).Scalar := by
    apply scalar_str hi
    cases hget : dictGet (members chunk) "object" with
    | none => exact Str.scalar_ofString _
    | some v => exact scalar_of_dictGet hscalar hget
  have hobject' : Str.Scalar (if objectOf i chunk = [] then Str.ofString "chat.completion.chunk"
      else objectOf i chunk) := by
    split_ifs
    · exact Str.scalar_ofString _
    · exact hobject
  refine scalar_chunkObject_iff.mpr ⟨scalar_getD hscalar, hobject', scalar_getD hscalar, hmodel, ?_,
    fun _ => scalar_getD hscalar⟩
  rw [List.forall_mem_map]
  exact fun choice hchoice => scalar_choiceDict (scalar_items (scalar_getD hscalar) choice hchoice)

end SynGateway.Api.Chat

import Mathlib.Data.List.Nodup
import SynGateway.Core.Errors
import SynGateway.Python.Exec

/-!
# The routing configuration

`parse_routing_config` of `app/routing/config.py`. It checks the raw object from left to right,
against the ids and aliases that it has seen so far.

`Valid` is what the module promises of a configuration, with no order in it. The code meets it but
for one collision: an alias is compared with the ids of the models *before* its own, and an id with
no alias at all, so an alias that is the id of a later model goes through (`accepts_iff_valid_iff`).
-/

namespace SynGateway.Routing

open SynGateway.Core SynGateway.Python SynGateway.Python.Json

/-! ## Parsing -/

/-- `BackendType`. -/
inductive BackendType
  | llamaCpp
deriving DecidableEq, Repr

/-- A configured inference backend instance. -/
structure BackendConfig where
  id : Str
  type : BackendType
  baseUrl : Str

/-- A public model entry in the model registry. -/
structure ModelConfig where
  id : Str
  backendId : Str
  backendModel : Str
  enabled : Bool
  aliases : List Str
  metadata : List (Str × Json)

/-- Validated routing configuration. -/
structure ParsedRoutingConfig where
  backends : List BackendConfig
  models : List ModelConfig

/-- The built-ins that the parser calls: `repr(value)`, and `dict(value)` of a value that is no
dict. -/
structure Builtins where
  repr : Json → String
  dictOf : Json → Except Exc (List (Str × Json))

/-- `raise RoutingConfigError(detail, code="routing_config_invalid")`. -/
def reject {α : Type} (detail : String) : Except Exc α :=
  .error (.syn
    (ErrorClass.routingConfigError.new (some detail) (some "routing_config_invalid") none none))

/-- `if not condition: raise RoutingConfigError(detail, ...)`. -/
def require (condition : Bool) (detail : String) : Except Exc Unit :=
  if condition then .ok () else reject detail

/-- `if not isinstance(value, str) or not value: raise RoutingConfigError(detail, ...)`. -/
def nonEmptyStr (value : Option Json) (detail : String) : Except Exc Str :=
  match value with
  | some (.str s) => if s = [] then reject detail else .ok s
  | _ => reject detail

/-- `_SUPPORTED_BACKEND_TYPES.get(name)`. -/
def supportedBackendType (name : Str) : Option BackendType :=
  if name = Str.ofString "llama_cpp" then some .llamaCpp else none

variable (py : Builtins)

/-- The `type` of a backend. -/
def parseBackendType (value : Json) : Except Exc BackendType :=
  let detail := "unsupported backend type: " ++ py.repr value ++ " (supported: ['llama_cpp'])"
  match value with
  | .str name =>
    match supportedBackendType name with
    | some type => .ok type
    | none => reject detail
  | _ => reject detail

/-- The body of the loop over `backends`. -/
def parseBackend (i : ℕ) (seenIds : List Str) : Json → Except Exc BackendConfig
  | .obj b => do
    let bid ← nonEmptyStr (dictGet b "id")
      ("backends[" ++ toString i ++ "] requires a non-empty 'id'")
    require (bid ∉ seenIds) ("duplicate backend id: " ++ py.repr (.str bid))
    let btype ← parseBackendType py ((dictGet b "type").getD (.text "llama_cpp"))
    let baseUrl ← nonEmptyStr (dictGet b "base_url")
      ("backend " ++ py.repr (.str bid) ++ " requires a non-empty 'base_url'")
    return { id := bid, type := btype, baseUrl }
  | _ => reject ("backends[" ++ toString i ++ "] must be an object")

/-- The loop over `backends`. -/
def parseBackends (i : ℕ) (seenIds : List Str) : List Json → Except Exc (List BackendConfig)
  | [] => .ok []
  | b :: rest => do
    let backend ← parseBackend py i seenIds b
    let backends ← parseBackends (i + 1) (backend.id :: seenIds) rest
    return backend :: backends

/-- The loop over the aliases of model `mid`. -/
def parseAliases (mid : Str) (seenModelIds seenAliases : List Str) :
    List Json → Except Exc (List Str)
  | [] => .ok []
  | value :: rest => do
    let a ← nonEmptyStr (some value) ("model " ++ py.repr (.str mid) ++ " has an invalid alias")
    require (a ∉ seenModelIds)
      ("alias " ++ py.repr (.str a) ++ " collides with model id " ++ py.repr (.str a))
    require (a ∉ seenAliases) ("duplicate alias: " ++ py.repr (.str a))
    let aliases ← parseAliases mid seenModelIds (a :: seenAliases) rest
    return a :: aliases

/-- `dict(value)`. -/
def Builtins.dict : Json → Except Exc (List (Str × Json))
  | .obj members => .ok members
  | value => py.dictOf value

/-- The body of the loop over `models`. -/
def parseModel (i : ℕ) (backendIds seenModelIds seenAliases : List Str) :
    Json → Except Exc ModelConfig
  | .obj m => do
    let mid ← nonEmptyStr (dictGet m "id")
      ("models[" ++ toString i ++ "] requires a non-empty 'id'")
    require (mid ∉ seenModelIds) ("duplicate model id: " ++ py.repr (.str mid))
    let backendId ← nonEmptyStr (dictGet m "backend_id")
      ("model " ++ py.repr (.str mid) ++ " requires a non-empty 'backend_id'")
    require (backendId ∈ backendIds)
      ("model " ++ py.repr (.str mid) ++ " references unknown backend: "
      ++ py.repr (.str backendId))
    let backendModel ← nonEmptyStr (some (orElse (dictGet m "backend_model") (.str mid)))
      ("model " ++ py.repr (.str mid) ++ " requires a non-empty 'backend_model'")
    let enabled := ((dictGet m "enabled").getD (.bool true)).truthy
    match orElse (dictGet m "aliases") (.arr []) with
    | .arr rawAliases =>
      let aliases ← parseAliases py mid seenModelIds seenAliases rawAliases
      let metadata ← py.dict (orElse (dictGet m "metadata") (.obj []))
      return { id := mid, backendId, backendModel, enabled, aliases, metadata }
    | _ => reject ("model " ++ py.repr (.str mid) ++ " 'aliases' must be a list")
  | _ => reject ("models[" ++ toString i ++ "] must be an object")

/-- The loop over `models`. -/
def parseModels (i : ℕ) (backendIds seenModelIds seenAliases : List Str) :
    List Json → Except Exc (List ModelConfig)
  | [] => .ok []
  | m :: rest => do
    let model ← parseModel py i backendIds seenModelIds seenAliases m
    let models ← parseModels (i + 1) backendIds (model.id :: seenModelIds)
      (model.aliases ++ seenAliases) rest
    return model :: models

/-- Validate the raw config dict into typed structures. -/
def parseRoutingConfig (raw : List (Str × Json)) : Except Exc ParsedRoutingConfig :=
  match dictGet raw "backends" with
  | some (.arr (b :: backendsRaw)) =>
    match dictGet raw "models" with
    | some (.arr (m :: modelsRaw)) => do
      let backends ← parseBackends py 0 [] (b :: backendsRaw)
      let models ← parseModels py 0 (backends.map (·.id)) [] [] (m :: modelsRaw)
      return { backends, models }
    | _ => reject "routing config must define a non-empty 'models' list"
  | _ => reject "routing config must define a non-empty 'backends' list"

/-! ## What the fields say -/

/-- A text field; a missing one reads as the empty string. -/
def strField (members : List (Str × Json)) (name : String) : Str :=
  match dictGet members name with
  | some (.str s) => s
  | _ => []

/-- The strings of a list. -/
def strItems (items : List Json) : List Str :=
  items.map fun
    | .str s => s
    | _ => []

/-- A backend as it is written, with the default type. -/
structure RawBackend where
  id : Str
  type : Str
  baseUrl : Str

def readBackend (b : List (Str × Json)) : RawBackend where
  id := strField b "id"
  type := if (dictGet b "type").isSome then strField b "type" else Str.ofString "llama_cpp"
  baseUrl := strField b "base_url"

/-- A model as it is written, with the defaults of its optional fields. -/
def readModel (m : List (Str × Json)) : ModelConfig where
  id := strField m "id"
  backendId := strField m "backend_id"
  backendModel :=
    if strField m "backend_model" = [] then strField m "id" else strField m "backend_model"
  enabled := ((dictGet m "enabled").getD (.bool true)).truthy
  aliases := match dictGet m "aliases" with
    | some (.arr items) => strItems items
    | _ => []
  metadata := match dictGet m "metadata" with
    | some (.obj members) => members
    | _ => []

def IsStr (v : Json) : Prop := ∃ s, v = .str s

/-- The fields of a backend have the right JSON types, where they are present. -/
structure WellTypedBackend (b : List (Str × Json)) : Prop where
  id : ∀ v, dictGet b "id" = some v → IsStr v
  type : ∀ v, dictGet b "type" = some v → IsStr v
  baseUrl : ∀ v, dictGet b "base_url" = some v → IsStr v

/-- The fields of a model have the right JSON types, where they are present; the optional ones may
be `null`. -/
structure WellTypedModel (m : List (Str × Json)) : Prop where
  id : ∀ v, dictGet m "id" = some v → IsStr v
  backendId : ∀ v, dictGet m "backend_id" = some v → IsStr v
  backendModel : ∀ v, dictGet m "backend_model" = some v → v = .null ∨ IsStr v
  enabled : ∀ v, dictGet m "enabled" = some v → ∃ b, v = .bool b
  aliases : ∀ v, dictGet m "aliases" = some v → v = .null ∨ ∃ items, v = .arr items ∧
    ∀ a ∈ items, IsStr a
  metadata : ∀ v, dictGet m "metadata" = some v → v = .null ∨ ∃ members, v = .obj members

/-- A raw configuration whose `backends` and `models` are non-empty lists of objects with fields of
the right types. -/
structure WellTyped (raw : List (Str × Json)) (backends models : List (List (Str × Json))) :
    Prop where
  backends_eq : dictGet raw "backends" = some (.arr (backends.map .obj))
  models_eq : dictGet raw "models" = some (.arr (models.map .obj))
  backends_ne : backends ≠ []
  models_ne : models ≠ []
  backend : ∀ b ∈ backends, WellTypedBackend b
  model : ∀ m ∈ models, WellTypedModel m

/-! ## Valid configurations -/

/-- What the one pass over the configuration compares. -/
structure Checked (backends : List RawBackend) (models : List ModelConfig) : Prop where
  backendIds_ne : ∀ b ∈ backends, b.id ≠ []
  backendIds_nodup : (backends.map (·.id)).Nodup
  types_supported : ∀ b ∈ backends, (supportedBackendType b.type).isSome
  baseUrls_ne : ∀ b ∈ backends, b.baseUrl ≠ []
  modelIds_ne : ∀ m ∈ models, m.id ≠ []
  modelIds_nodup : (models.map (·.id)).Nodup
  backendIds_known : ∀ m ∈ models, m.backendId ∈ backends.map (·.id)
  aliases_ne : ∀ m ∈ models, ∀ a ∈ m.aliases, a ≠ []
  aliases_nodup : (models.flatMap (·.aliases)).Nodup
  aliases_ne_earlier : models.Pairwise fun m m' => m.id ∉ m'.aliases

/-- No alias is the id of a model later in the list. -/
def NoLaterId (models : List ModelConfig) : Prop := models.Pairwise fun m m' => m'.id ∉ m.aliases

/-- A valid configuration: no alias is the id of another model, wherever that model stands. -/
structure Valid (backends : List RawBackend) (models : List ModelConfig) : Prop extends
    Checked backends models where
  aliases_ne_later : NoLaterId models

/-- The typed form of a backend. -/
def RawBackend.config (b : RawBackend) : BackendConfig where
  id := b.id
  type := (supportedBackendType b.type).getD .llamaCpp
  baseUrl := b.baseUrl

/-! ## What the parser accepts -/

section Checks

variable {v : Option Json} {detail : String} {s : Str}

theorem require_eq_ok {condition : Bool} {u : Unit} :
    require condition detail = .ok u ↔ condition = true := by
  unfold require reject
  split <;> simp_all

theorem nonEmptyStr_eq_ok : nonEmptyStr v detail = .ok s ↔ v = some (.str s) ∧ s ≠ [] := by
  unfold nonEmptyStr reject
  split
  · split <;> grind
  · simp_all

theorem nonEmptyStr_field {members : List (Str × Json)} {name : String} :
    nonEmptyStr (dictGet members name) detail = .ok s ↔ s = strField members name ∧ s ≠ [] := by
  rw [nonEmptyStr_eq_ok]
  unfold strField
  split <;> grind

theorem parseBackendType_eq_ok {value : Json} {type : BackendType} :
    parseBackendType py value = .ok type ↔
      ∃ name, value = .str name ∧ supportedBackendType name = some type := by
  unfold parseBackendType reject
  cases value with
  | str name => cases h : supportedBackendType name <;> simp [h]
  | _ => simp

end Checks

variable {py}

/-- What the body of the loop over `backends` accepts. -/
theorem parseBackend_eq_ok {i : ℕ} {seenIds : List Str} {b : List (Str × Json)}
    {config : BackendConfig} (htyped : WellTypedBackend b) :
    parseBackend py i seenIds (.obj b) = .ok config ↔
      ((readBackend b).id ≠ [] ∧ (readBackend b).id ∉ seenIds ∧
        (supportedBackendType (readBackend b).type).isSome ∧ (readBackend b).baseUrl ≠ []) ∧
      config = (readBackend b).config := by
  -- a missing type counts as the default one
  have htype : ∀ type, (∃ name, (dictGet b "type").getD (.text "llama_cpp") = .str name ∧
      supportedBackendType name = some type) ↔
        supportedBackendType (readBackend b).type = some type := by
    intro type
    unfold readBackend strField
    cases h : dictGet b "type" with
    | none => simp [Json.text]
    | some v =>
        obtain ⟨name, rfl⟩ := htyped.type v h
        simp
  unfold parseBackend
  simp only [bind_eq_ok, nonEmptyStr_field, require_eq_ok, parseBackendType_eq_ok, htype,
    decide_eq_true_eq]
  constructor
  · rintro ⟨_, ⟨rfl, hid⟩, _, hseen, type, hsupported, _, ⟨rfl, hurl⟩, h⟩
    cases h
    refine ⟨⟨hid, hseen, by simp [hsupported], hurl⟩, ?_⟩
    unfold RawBackend.config
    rw [hsupported]
    rfl
  · rintro ⟨⟨hid, hseen, hsupported, hurl⟩, rfl⟩
    obtain ⟨type, htype⟩ := Option.isSome_iff_exists.mp hsupported
    refine ⟨_, ⟨rfl, hid⟩, (), hseen, type, htype, _, ⟨rfl, hurl⟩, ?_⟩
    unfold RawBackend.config
    rw [htype]
    rfl

/-- What the loop over `backends` accepts. -/
theorem parseBackends_eq_ok {bs : List (List (Str × Json))} (htyped : ∀ b ∈ bs, WellTypedBackend b)
    {i : ℕ} {seenIds : List Str} {configs : List BackendConfig} :
    parseBackends py i seenIds (bs.map .obj) = .ok configs ↔
      ((∀ b ∈ bs.map readBackend, b.id ≠ [] ∧ b.id ∉ seenIds ∧
          (supportedBackendType b.type).isSome ∧ b.baseUrl ≠ []) ∧
        ((bs.map readBackend).map (·.id)).Nodup) ∧
      configs = (bs.map readBackend).map RawBackend.config := by
  induction bs generalizing i seenIds configs with
  | nil =>
      constructor
      · intro h
        cases h
        simp
      · rintro ⟨-, rfl⟩
        rfl
  | cons b bs ih =>
      obtain ⟨hb, hbs⟩ := List.forall_mem_cons.mp htyped
      rw [List.map_cons, parseBackends]
      simp only [bind_eq_ok, parseBackend_eq_ok hb, ih hbs, List.map_cons, List.forall_mem_cons,
        List.nodup_cons]
      constructor
      · -- the ids that were seen grow with each backend, so none comes twice
        rintro ⟨_, ⟨hhead, rfl⟩, _, ⟨⟨hrest, hnodup⟩, rfl⟩, h⟩
        cases h
        refine ⟨⟨⟨hhead, fun c hc => ?_⟩, fun hmem => ?_, hnodup⟩, rfl⟩
        · obtain ⟨hid, hseen, hother⟩ := hrest c hc
          exact ⟨hid, List.not_mem_of_not_mem_cons hseen, hother⟩
        · obtain ⟨c, hc, heq⟩ := List.mem_map.mp hmem
          exact List.ne_of_not_mem_cons (hrest c hc).2.1 heq
      · rintro ⟨⟨⟨hhead, hrest⟩, hfresh, hnodup⟩, rfl⟩
        refine ⟨_, ⟨hhead, rfl⟩, _, ⟨⟨fun c hc => ?_, hnodup⟩, rfl⟩, rfl⟩
        obtain ⟨hid, hseen, hother⟩ := hrest c hc
        have hne : c.id ≠ (readBackend b).id := fun heq => hfresh (List.mem_map.mpr ⟨c, hc, heq⟩)
        exact ⟨hid, List.not_mem_cons_of_ne_of_not_mem hne hseen, hother⟩

/-- Only objects with fields of the right types are accepted as backends. -/
theorem wellTyped_of_parseBackends {i : ℕ} {seenIds : List Str} {values : List Json}
    {configs : List BackendConfig} (h : parseBackends py i seenIds values = .ok configs) :
    ∃ bs : List (List (Str × Json)), values = bs.map .obj ∧ ∀ b ∈ bs, WellTypedBackend b := by
  induction values generalizing i seenIds configs with
  | nil => exact ⟨[], rfl, List.forall_mem_nil _⟩
  | cons value values ih =>
      rw [parseBackends] at h
      -- only an object gets through `parseBackend`, and each field was read as a text
      obtain ⟨backend, hbackend, rest, hrest, -⟩ := by simpa only [bind_eq_ok] using h
      obtain ⟨bs, rfl, hbs⟩ := ih hrest
      cases value with
      | obj b =>
          unfold parseBackend at hbackend
          simp only [bind_eq_ok, nonEmptyStr_eq_ok, parseBackendType_eq_ok] at hbackend
          obtain ⟨id, ⟨hid, -⟩, -, -, type, ⟨name, htype, -⟩, url, ⟨hurl, -⟩, -⟩ := hbackend
          refine ⟨b :: bs, rfl,
            List.forall_mem_cons.mpr ⟨⟨fun v hv => ?_, fun v hv => ?_, fun v hv => ?_⟩, hbs⟩⟩
          · exact ⟨id, Option.some.inj (hv.symm.trans hid)⟩
          · rw [hv] at htype
            exact ⟨name, htype⟩
          · exact ⟨url, Option.some.inj (hv.symm.trans hurl)⟩
      | _ => cases hbackend

/-- What the loop over the aliases of a model accepts. -/
theorem parseAliases_eq_ok {mid : Str} {seenModelIds seenAliases : List Str} {items : List Json}
    (htyped : ∀ a ∈ items, IsStr a) {aliases : List Str} :
    parseAliases py mid seenModelIds seenAliases items = .ok aliases ↔
      ((∀ a ∈ strItems items, a ≠ [] ∧ a ∉ seenModelIds ∧ a ∉ seenAliases) ∧
        (strItems items).Nodup) ∧
      aliases = strItems items := by
  induction items generalizing seenAliases aliases with
  | nil =>
      constructor
      · intro h
        cases h
        simp [strItems]
      · rintro ⟨-, rfl⟩
        rfl
  | cons item items ih =>
      obtain ⟨⟨a, rfl⟩, hitems⟩ := List.forall_mem_cons.mp htyped
      have hcons : strItems (.str a :: items) = a :: strItems items := rfl
      rw [parseAliases, hcons]
      simp only [bind_eq_ok, nonEmptyStr_eq_ok, require_eq_ok, decide_eq_true_eq, ih hitems,
        List.forall_mem_cons, List.nodup_cons, Option.some.injEq, Json.str.injEq]
      constructor
      · -- the aliases that were seen grow with each alias
        rintro ⟨_, ⟨rfl, hne⟩, _, hid, _, hseen, _, ⟨⟨hrest, hnodup⟩, rfl⟩, h⟩
        cases h
        refine ⟨⟨⟨⟨hne, hid, hseen⟩, fun c hc => ?_⟩, fun hmem => ?_, hnodup⟩, rfl⟩
        · obtain ⟨hcne, hcid, hcseen⟩ := hrest c hc
          exact ⟨hcne, hcid, List.not_mem_of_not_mem_cons hcseen⟩
        · exact List.ne_of_not_mem_cons (hrest _ hmem).2.2 rfl
      · rintro ⟨⟨⟨⟨hne, hid, hseen⟩, hrest⟩, hfresh, hnodup⟩, rfl⟩
        refine ⟨a, ⟨rfl, hne⟩, (), hid, (), hseen, _, ⟨⟨fun c hc => ?_, hnodup⟩, rfl⟩, rfl⟩
        obtain ⟨hcne, hcid, hcseen⟩ := hrest c hc
        have hfreshC : c ≠ a := fun heq => hfresh (heq ▸ hc)
        exact ⟨hcne, hcid, List.not_mem_cons_of_ne_of_not_mem hfreshC hcseen⟩

/-- Only strings are accepted as aliases. -/
theorem isStr_of_parseAliases {mid : Str} {seenModelIds seenAliases aliases : List Str}
    {items : List Json} (h : parseAliases py mid seenModelIds seenAliases items = .ok aliases) :
    ∀ a ∈ items, IsStr a := by
  induction items generalizing seenAliases aliases with
  | nil => exact List.forall_mem_nil _
  | cons item items ih =>
      rw [parseAliases] at h
      simp only [bind_eq_ok, nonEmptyStr_eq_ok] at h
      obtain ⟨a, ⟨hitem, -⟩, -, -, -, -, rest, hrest, -⟩ := h
      exact List.forall_mem_cons.mpr ⟨⟨a, Option.some.inj hitem⟩, ih hrest⟩

/-- The fields of a model that the parser checks have the right types, where they are present. The
two optional ones may hold anything that is not truthy. -/
structure FieldsTyped (m : List (Str × Json)) : Prop where
  id : ∀ v, dictGet m "id" = some v → IsStr v
  backendId : ∀ v, dictGet m "backend_id" = some v → IsStr v
  backendModel : ∀ v, dictGet m "backend_model" = some v → v.truthy = false ∨ IsStr v
  aliases : ∀ v, dictGet m "aliases" = some v →
    v.truthy = false ∨ ∃ items, v = .arr items ∧ ∀ a ∈ items, IsStr a

theorem WellTypedModel.fieldsTyped {m : List (Str × Json)} (h : WellTypedModel m) :
    FieldsTyped m where
  id := h.id
  backendId := h.backendId
  backendModel v hv := (h.backendModel v hv).imp_left fun (hnull : v = .null) => hnull ▸ rfl
  aliases v hv := (h.aliases v hv).imp_left fun (hnull : v = .null) => hnull ▸ rfl

/-- The `backend_model` of a model: its id unless it says otherwise. -/
theorem orElse_backendModel {m : List (Str × Json)} (htyped : FieldsTyped m) :
    orElse (dictGet m "backend_model") (.str (strField m "id")) = .str
    (readModel m).backendModel := by
  unfold readModel orElse strField
  cases h : dictGet m "backend_model" with
  | none => simp
  | some v =>
      dsimp only
      rcases htyped.backendModel v h with hfalsy | ⟨name, rfl⟩
      · rw [if_neg (by simp [hfalsy])]
        cases v <;> simp_all [Json.truthy]
      · by_cases hname : name = [] <;> simp [Json.truthy, hname]

/-- The aliases of a model: a list of strings, empty unless it says otherwise. -/
theorem orElse_aliases {m : List (Str × Json)} (htyped : FieldsTyped m) :
    ∃ items, orElse (dictGet m "aliases") (.arr []) = .arr items ∧ (∀ a ∈ items, IsStr a) ∧
      strItems items = (readModel m).aliases := by
  unfold readModel orElse
  cases h : dictGet m "aliases" with
  | none => exact ⟨[], rfl, fun _ ha => absurd ha List.not_mem_nil, rfl⟩
  | some v =>
      dsimp only
      rcases htyped.aliases v h with hfalsy | ⟨items, rfl, hitems⟩
      · refine ⟨[], if_neg (by simp [hfalsy]), fun _ ha => absurd ha List.not_mem_nil, ?_⟩
        cases v with
        | arr items =>
            have hnil : items = [] := by simpa [Json.truthy] using hfalsy
            rw [hnil]
        | _ => rfl
      · refine ⟨items, ?_, hitems, rfl⟩
        cases items <;> rfl

theorem dict_metadata {m : List (Str × Json)} (htyped : WellTypedModel m) :
    py.dict (orElse (dictGet m "metadata") (.obj [])) = .ok (readModel m).metadata := by
  unfold readModel orElse
  cases h : dictGet m "metadata" with
  | none => rfl
  | some v =>
      rcases htyped.metadata v h with rfl | ⟨members, rfl⟩
      · rfl
      · cases members <;> rfl

/-- What the body of the loop over `models` compares. -/
structure ModelChecked (backendIds seenModelIds seenAliases : List Str) (m : ModelConfig) :
    Prop where
  id_ne : m.id ≠ []
  id_fresh : m.id ∉ seenModelIds
  backendId_ne : m.backendId ≠ []
  backendId_known : m.backendId ∈ backendIds
  alias_ok : ∀ a ∈ m.aliases, a ≠ [] ∧ a ∉ seenModelIds ∧ a ∉ seenAliases
  aliases_nodup : m.aliases.Nodup

/-- A value that `or` has let through is not truthy, or is the one that is used. -/
theorem falsy_or_eq_of_orElse {v other used : Json} (h : orElse (some v) other = used) :
    v.truthy = false ∨ v = used := by
  unfold orElse at h
  dsimp only at h
  split_ifs at h with htruthy
  · exact .inr h
  · exact .inl (Bool.not_eq_true _ ▸ htruthy)

/-- Only a model whose fields have the right types is accepted. -/
theorem fieldsTyped_of_parseModel {i : ℕ} {backendIds seenModelIds seenAliases : List Str}
    {m : List (Str × Json)} {config : ModelConfig}
    (h : parseModel py i backendIds seenModelIds seenAliases (.obj m) = .ok config) :
    FieldsTyped m := by
  unfold parseModel at h
  simp only [bind_eq_ok, nonEmptyStr_eq_ok] at h
  obtain ⟨mid, ⟨hid, -⟩, -, -, bid, ⟨hbid, -⟩, -, -, model, ⟨hmodel, -⟩, h⟩ := h
  split at h
  · next rawAliases haliases =>
      obtain ⟨aliases, hparse, -⟩ := bind_eq_ok.mp h
      refine ⟨fun v hv => ⟨mid, Option.some.inj (hv.symm.trans hid)⟩,
        fun v hv => ⟨bid, Option.some.inj (hv.symm.trans hbid)⟩, fun v hv => ?_, fun v hv => ?_⟩
      · rw [hv] at hmodel
        exact (falsy_or_eq_of_orElse (Option.some.inj hmodel)).imp_right fun heq => ⟨model, heq⟩
      · rw [hv] at haliases
        exact (falsy_or_eq_of_orElse haliases).imp_right fun heq =>
          ⟨rawAliases, heq, isStr_of_parseAliases hparse⟩
  · cases h

/-- What the body of the loop over `models` accepts, if the metadata can be read. -/
theorem parseModel_of_metadata {i : ℕ} {backendIds seenModelIds seenAliases : List Str}
    {m metadata : List (Str × Json)} {config : ModelConfig} (htyped : FieldsTyped m)
    (hmetadata : py.dict (orElse (dictGet m "metadata") (.obj [])) = .ok metadata) :
    parseModel py i backendIds seenModelIds seenAliases (.obj m) = .ok config ↔
      ModelChecked backendIds seenModelIds seenAliases (readModel m) ∧
      config = { readModel m with metadata } := by
  obtain ⟨items, hitems, hstr, haliases⟩ := orElse_aliases htyped
  unfold parseModel
  simp only [bind_eq_ok, nonEmptyStr_field, require_eq_ok, decide_eq_true_eq, hitems,
    parseAliases_eq_ok hstr, hmetadata, haliases]
  constructor
  · rintro ⟨_, ⟨rfl, hid⟩, _, hfresh, _, ⟨rfl, hbackend⟩, _, hknown, model, hmodel, _,
      ⟨⟨halias, hnodup⟩, rfl⟩, _, hmeta, h⟩
    -- a falsy `backend_model` is replaced by the id
    rw [orElse_backendModel htyped, nonEmptyStr_eq_ok] at hmodel
    cases hmodel.1
    cases hmeta
    cases h
    exact ⟨⟨hid, hfresh, hbackend, hknown, halias, hnodup⟩, rfl⟩
  · rintro ⟨⟨hid, hfresh, hbackend, hknown, halias, hnodup⟩, rfl⟩
    refine ⟨_, ⟨rfl, hid⟩, (), hfresh, _, ⟨rfl, hbackend⟩, (), hknown,
      (readModel m).backendModel, ?_, _, ⟨⟨halias, hnodup⟩, rfl⟩, _, rfl, rfl⟩
    rw [orElse_backendModel htyped, nonEmptyStr_eq_ok]
    refine ⟨rfl, ?_⟩
    unfold readModel
    dsimp only
    split
    · exact hid
    · assumption

/-- What the body of the loop over `models` accepts. -/
theorem parseModel_eq_ok {i : ℕ} {backendIds seenModelIds seenAliases : List Str}
    {m : List (Str × Json)} {config : ModelConfig} (htyped : WellTypedModel m) :
    parseModel py i backendIds seenModelIds seenAliases (.obj m) = .ok config ↔
      ModelChecked backendIds seenModelIds seenAliases (readModel m) ∧ config = readModel m :=
  parseModel_of_metadata htyped.fieldsTyped (dict_metadata htyped)

/-- What the loop over `models` compares, after the ids and aliases it has seen. -/
structure ModelsChecked (backendIds seenModelIds seenAliases : List Str)
    (models : List ModelConfig) : Prop where
  each : ∀ m ∈ models, ModelChecked backendIds seenModelIds seenAliases m
  ids_nodup : (models.map (·.id)).Nodup
  aliases_nodup : (models.flatMap (·.aliases)).Nodup
  aliases_ne_earlier : models.Pairwise fun m m' => m.id ∉ m'.aliases

theorem modelsChecked_nil {backendIds seenModelIds seenAliases : List Str} :
    ModelsChecked backendIds seenModelIds seenAliases [] :=
  ⟨by simp, by simp, by simp, by simp⟩

/-- One turn of the loop adds the id and the aliases of its model to what was seen. -/
theorem modelsChecked_cons {backendIds seenModelIds seenAliases : List Str} {m : ModelConfig}
    {models : List ModelConfig} :
    ModelsChecked backendIds seenModelIds seenAliases (m :: models) ↔
      ModelChecked backendIds seenModelIds seenAliases m ∧
        ModelsChecked backendIds (m.id :: seenModelIds) (m.aliases ++ seenAliases) models := by
  constructor
  · rintro ⟨heach, hids, haliases, hearlier⟩
    obtain ⟨hm, hrest⟩ := List.forall_mem_cons.mp heach
    rw [List.map_cons, List.nodup_cons] at hids
    rw [List.flatMap_cons, List.nodup_append] at haliases
    rw [List.pairwise_cons] at hearlier
    refine ⟨hm, ⟨fun c hc => ?_, hids.2, haliases.2.1, hearlier.2⟩⟩
    obtain ⟨hid, hfresh, hne, hknown, halias, hnodup⟩ := hrest c hc
    have hdistinct : c.id ≠ m.id := fun heq => hids.1 (List.mem_map.mpr ⟨c, hc, heq⟩)
    refine ⟨hid, List.not_mem_cons_of_ne_of_not_mem hdistinct hfresh, hne, hknown, ?_, hnodup⟩
    intro a ha
    obtain ⟨hane, haid, haseen⟩ := halias a ha
    refine ⟨hane, List.not_mem_cons_of_ne_of_not_mem ?_ haid, ?_⟩
    · rintro rfl
      exact hearlier.1 c hc ha
    · rw [List.mem_append, not_or]
      exact ⟨fun hmem => haliases.2.2 a hmem a (List.mem_flatMap.mpr ⟨c, hc, ha⟩) rfl, haseen⟩
  · rintro ⟨hm, heach, hids, haliases, hearlier⟩
    refine ⟨List.forall_mem_cons.mpr ⟨hm, fun c hc => ?_⟩, ?_, ?_, ?_⟩
    · obtain ⟨hid, hfresh, hne, hknown, halias, hnodup⟩ := heach c hc
      refine ⟨hid, List.not_mem_of_not_mem_cons hfresh, hne, hknown, fun a ha => ?_, hnodup⟩
      obtain ⟨hane, haid, haseen⟩ := halias a ha
      exact ⟨hane, List.not_mem_of_not_mem_cons haid, fun h => haseen (List.mem_append_right _ h)⟩
    · rw [List.map_cons, List.nodup_cons]
      refine ⟨fun hmem => ?_, hids⟩
      obtain ⟨c, hc, heq⟩ := List.mem_map.mp hmem
      exact List.ne_of_not_mem_cons (heach c hc).id_fresh heq
    · rw [List.flatMap_cons, List.nodup_append]
      refine ⟨hm.aliases_nodup, haliases, ?_⟩
      rintro a ha _ hb rfl
      obtain ⟨c, hc, hac⟩ := List.mem_flatMap.mp hb
      exact ((heach c hc).alias_ok a hac).2.2 (List.mem_append_left _ ha)
    · rw [List.pairwise_cons]
      refine ⟨fun c hc hmem => ?_, hearlier⟩
      exact List.ne_of_not_mem_cons ((heach c hc).alias_ok _ hmem).2.1 rfl

/-- What the loop over `models` accepts. -/
theorem parseModels_eq_ok {ms : List (List (Str × Json))} (htyped : ∀ m ∈ ms, WellTypedModel m)
    {i : ℕ} {backendIds seenModelIds seenAliases : List Str} {configs : List ModelConfig} :
    parseModels py i backendIds seenModelIds seenAliases (ms.map .obj) = .ok configs ↔
      ModelsChecked backendIds seenModelIds seenAliases (ms.map readModel) ∧
        configs = ms.map readModel := by
  induction ms generalizing i seenModelIds seenAliases configs with
  | nil =>
      constructor
      · intro h
        cases h
        exact ⟨modelsChecked_nil, rfl⟩
      · rintro ⟨-, rfl⟩
        rfl
  | cons m ms ih =>
      obtain ⟨hm, hms⟩ := List.forall_mem_cons.mp htyped
      rw [List.map_cons, parseModels]
      simp only [bind_eq_ok, parseModel_eq_ok hm, ih hms, List.map_cons, modelsChecked_cons]
      constructor
      · rintro ⟨_, ⟨hhead, rfl⟩, _, ⟨hrest, rfl⟩, h⟩
        cases h
        exact ⟨⟨hhead, hrest⟩, rfl⟩
      · rintro ⟨⟨hhead, hrest⟩, rfl⟩
        exact ⟨_, ⟨hhead, rfl⟩, _, ⟨hrest, rfl⟩, rfl⟩

/-- The checks of the two loops are those of the whole pass. -/
theorem checked_iff {backends : List RawBackend} {models : List ModelConfig} :
    Checked backends models ↔
      ((∀ b ∈ backends, b.id ≠ [] ∧ b.id ∉ ([] : List Str) ∧ (supportedBackendType b.type).isSome ∧
          b.baseUrl ≠ []) ∧ (backends.map (·.id)).Nodup) ∧
        ModelsChecked (backends.map (·.id)) [] [] models := by
  constructor
  · intro hchecked
    refine ⟨⟨fun b hb =>
      ⟨hchecked.backendIds_ne b hb, List.not_mem_nil, hchecked.types_supported b hb,
      hchecked.baseUrls_ne b hb⟩, hchecked.backendIds_nodup⟩,
      fun m hm => ?_, hchecked.modelIds_nodup, hchecked.aliases_nodup, hchecked.aliases_ne_earlier⟩
    have hknown := hchecked.backendIds_known m hm
    refine ⟨hchecked.modelIds_ne m hm, List.not_mem_nil, ?_, hknown, fun a ha =>
      ⟨hchecked.aliases_ne m hm a ha, List.not_mem_nil, List.not_mem_nil⟩,
      (List.nodup_flatMap.mp hchecked.aliases_nodup).1 m hm⟩
    obtain ⟨b, hb, heq⟩ := List.mem_map.mp hknown
    exact heq ▸ hchecked.backendIds_ne b hb
  · rintro ⟨⟨hbackends, hnodup⟩, hmodels⟩
    exact ⟨fun b hb => (hbackends b hb).1, hnodup, fun b hb => (hbackends b hb).2.2.1,
      fun b hb => (hbackends b hb).2.2.2, fun m hm => (hmodels.each m hm).id_ne, hmodels.ids_nodup,
      fun m hm => (hmodels.each m hm).backendId_known,
      fun m hm a ha => ((hmodels.each m hm).alias_ok a ha).1, hmodels.aliases_nodup,
      hmodels.aliases_ne_earlier⟩

variable {raw : List (Str × Json)} {bs ms : List (List (Str × Json))}

/-- **What `parse_routing_config` accepts**, and what it returns then. -/
theorem parseRoutingConfig_eq_ok (htyped : WellTyped raw bs ms) {config : ParsedRoutingConfig} :
    parseRoutingConfig py raw = .ok config ↔
      Checked (bs.map readBackend) (ms.map readModel) ∧
        config = {
          backends := (bs.map readBackend).map RawBackend.config
          models := ms.map readModel } := by
  obtain ⟨hbs, hms, hbsne, hmsne, hb, hm⟩ := htyped
  have hrun : parseRoutingConfig py raw = do
      let backends ← parseBackends py 0 [] (bs.map .obj)
      let models ← parseModels py 0 (backends.map (·.id)) [] [] (ms.map .obj)
      return { backends, models } := by
    unfold parseRoutingConfig
    rw [hbs, hms]
    cases bs with
    | nil => exact absurd rfl hbsne
    | cons b bs =>
        cases ms with
        | nil => exact absurd rfl hmsne
        | cons m ms => rfl
  have hids : ((bs.map readBackend).map RawBackend.config).map (·.id) =
      (bs.map readBackend).map (·.id) := by
    rw [List.map_map]
    rfl
  rw [hrun, checked_iff]
  simp only [bind_eq_ok, parseBackends_eq_ok hb, parseModels_eq_ok hm]
  constructor
  · rintro ⟨_, ⟨hbackends, rfl⟩, _, ⟨hmodels, rfl⟩, h⟩
    cases h
    exact ⟨⟨hbackends, hids ▸ hmodels⟩, rfl⟩
  · rintro ⟨⟨hbackends, hmodels⟩, rfl⟩
    exact ⟨_, ⟨hbackends, rfl⟩, _, ⟨hids.symm ▸ hmodels, rfl⟩, rfl⟩

/-- `parse_routing_config` returns a configuration. -/
def Accepts (py : Builtins) (raw : List (Str × Json)) : Prop :=
  ∃ config, parseRoutingConfig py raw = .ok config

/-- **When acceptance is validity.** The parser accepts exactly the valid configurations among those
that fail a check of its one pass, or in which no alias is the id of a later model. -/
theorem accepts_iff_valid_iff (htyped : WellTyped raw bs ms) :
    (Accepts py raw ↔ Valid (bs.map readBackend) (ms.map readModel)) ↔
      (¬ Checked (bs.map readBackend) (ms.map readModel) ∨ NoLaterId (ms.map readModel)) := by
  have haccepts : Accepts py raw ↔ Checked (bs.map readBackend) (ms.map readModel) := by
    unfold Accepts
    simp only [parseRoutingConfig_eq_ok htyped]
    exact ⟨fun ⟨_, h, _⟩ => h, fun h => ⟨_, h, rfl⟩⟩
  rw [haccepts]
  constructor
  · intro h
    by_cases hchecked : Checked (bs.map readBackend) (ms.map readModel)
    · exact .inr (h.mp hchecked).aliases_ne_later
    · exact .inl hchecked
  · rintro (hfails | hlater)
    · exact ⟨fun h => absurd h hfails, fun h => absurd h.toChecked hfails⟩
    · exact ⟨fun h => ⟨h, hlater⟩, Valid.toChecked⟩

/-! ## A collision that goes through -/

/-- `repr` of a text without quotes and escapes. -/
def sampleBuiltins : Builtins where
  repr
    | .str s => "'" ++ String.ofList (s.filterMap CodePoint.toChar) ++ "'"
    | _ => ""
  dictOf _ := .error (.exception "cannot convert dictionary update sequence element to a sequence")

/-- A backend as it stands in a configuration file. -/
def sampleBackend : List (Str × Json) :=
  [(Str.ofString "id", .text "a"), (Str.ofString "base_url", .text "http://x")]

/-- A model on that backend. -/
def sampleModel (id : String) (aliases : List Json) : List (Str × Json) :=
  [(Str.ofString "id", .text id), (Str.ofString "backend_id", .text "a"),
    (Str.ofString "aliases", .arr aliases)]

def sampleConfig (models : List (List (Str × Json))) : List (Str × Json) :=
  [(Str.ofString "backends", .arr [.obj sampleBackend]),
    (Str.ofString "models", .arr (models.map .obj))]

theorem wellTyped_sampleBackend : WellTypedBackend sampleBackend where
  id _ h := ⟨Str.ofString "a", (Option.some.inj h).symm⟩
  type v h := nomatch (show (none : Option Json) = some v from h)
  baseUrl _ h := ⟨Str.ofString "http://x", (Option.some.inj h).symm⟩

theorem wellTyped_sampleModel (id : String) {aliases : List Json} (h : ∀ a ∈ aliases, IsStr a) :
    WellTypedModel (sampleModel id aliases) where
  id _ hv := ⟨Str.ofString id, (Option.some.inj hv).symm⟩
  backendId _ hv := ⟨Str.ofString "a", (Option.some.inj hv).symm⟩
  backendModel v hv := nomatch (show (none : Option Json) = some v from hv)
  enabled v hv := nomatch (show (none : Option Json) = some v from hv)
  aliases _ hv := .inr ⟨aliases, (Option.some.inj hv).symm, h⟩
  metadata v hv := nomatch (show (none : Option Json) = some v from hv)

/-- The models `x`, with the alias `y`, and `y`. -/
def collidingModels : List (List (Str × Json)) := [sampleModel "x" [.text "y"], sampleModel "y" []]

theorem wellTyped_sampleConfig {models : List (List (Str × Json))} (hne : models ≠ [])
    (h : ∀ m ∈ models, WellTypedModel m) :
    WellTyped (sampleConfig models) [sampleBackend] models where
  backends_eq := rfl
  models_eq := rfl
  backends_ne := by simp
  models_ne := hne
  backend := by simpa using wellTyped_sampleBackend
  model := h

theorem wellTyped_collidingModels : ∀ m ∈ collidingModels, WellTypedModel m := by
  have halias : ∀ a ∈ [Json.text "y"], IsStr a := by simp [Json.text, IsStr]
  have hx := wellTyped_sampleModel "x" halias
  have hy := wellTyped_sampleModel "y" (fun a ha => absurd ha (List.not_mem_nil (a := a)))
  simpa [collidingModels] using And.intro hx hy

/-- In the other order the collision is found, and acceptance is validity. -/
theorem accepts_iff_valid_iff_earlier :
    Accepts sampleBuiltins (sampleConfig collidingModels.reverse) ↔
      Valid ([sampleBackend].map readBackend) (collidingModels.reverse.map readModel) := by
  refine (accepts_iff_valid_iff (wellTyped_sampleConfig (by simp [collidingModels]) ?_)).mpr
    (.inr ?_)
  · exact fun m hm => wellTyped_collidingModels m (List.mem_reverse.mp hm)
  · unfold NoLaterId
    decide

/-- The alias of the first model is the id of the second, and the parser accepts both. -/
theorem accepts_invalid :
    ¬ ∀ (py : Builtins) (raw : List (Str × Json)) (bs ms : List (List (Str × Json))),
      WellTyped raw bs ms →
      (Accepts py raw ↔ Valid (bs.map readBackend) (ms.map readModel)) := by
  intro hall
  have hvalid := (hall sampleBuiltins _ _ _
    (wellTyped_sampleConfig (by simp [collidingModels]) wellTyped_collidingModels)).mp ⟨_, rfl⟩
  have hlater := hvalid.aliases_ne_later
  revert hlater
  unfold NoLaterId
  decide

end SynGateway.Routing

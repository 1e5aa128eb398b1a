import SynGateway.Routing.Config

/-!
# The errors of the routing configuration

`parse_routing_config` is documented to raise `RoutingConfigError` on a malformed configuration.
Every field is read under an `isinstance` guard but the `metadata` of a model, on which the parser
calls `dict(...)` as it stands: a value that is truthy and that `dict` does not take escapes as a
`TypeError` or a `ValueError`.

The parser is compared with the one whose `dict` never fails (`lenient`). That one raises
`RoutingConfigError` only, and it accepts a model exactly if its other fields are right
(`parseModel_of_metadata`); the loop of the real one breaks off at the first such model whose
metadata cannot be converted (`raisesOnly_parseModels_iff`).
-/

namespace SynGateway.Routing

open SynGateway.Core SynGateway.Python SynGateway.Python.Json

/-! ## What `dict` takes -/

/-- A key of a `dict`: any value but a list and a dict. -/
def hashable : Json → Bool
  | .arr _ | .obj _ => false
  | _ => true

/-- An element that `dict` unpacks to a key and a value: a string of two characters, a list of two
values with a key in front, or a dict of two keys. -/
def pairLike : Json → Bool
  | .str s => s.length = 2
  | .arr [key, _] => hashable key
  | .obj members => members.length = 2
  | _ => false

/-- `dict(value)` succeeds: on a mapping, and on an iterable of pairs. The characters of a string
are no pairs. -/
def dictable : Json → Bool
  | .obj _ => true
  | .arr items => items.all pairLike
  | .str s => s.isEmpty
  | _ => false

/-- `dict` fails on what it does not take, with an exception of Python's own. -/
structure Builtins.Lawful (py : Builtins) : Prop where
  dict_eq_ok_iff : ∀ value, (∃ members, py.dict value = .ok members) ↔ dictable value = true
  not_syn : ∀ value error, py.dictOf value ≠ .error (.syn error)

theorem Builtins.Lawful.dict_ne_syn {py : Builtins} (h : py.Lawful) (value : Json)
    (error : SynError) :
    py.dict value ≠ .error (.syn error) := by
  cases value with
  | obj members => exact nofun
  | _ => exact h.not_syn _ error

/-- The `metadata` of a model that the parser can copy. -/
def MetadataOk (m : List (Str × Json)) :
    Prop := dictable (orElse (dictGet m "metadata") (.obj [])) = true

/-! ## Checks -/

/-- `RoutingConfigError`. -/
def IsRoutingConfigError (e : Exc) :
    Prop := ∃ error, e = .syn error ∧ error.cls = .routingConfigError

section Checks

variable {α : Type} {detail : String}

theorem raisesOnly_reject : RaisesOnly IsRoutingConfigError (reject detail : Except Exc α) := by
  rintro _ ⟨⟩
  exact ⟨_, rfl, rfl⟩

theorem raisesOnly_require (condition : Bool) :
    RaisesOnly IsRoutingConfigError (require condition detail) := by
  unfold require
  split
  · exact .ok ()
  · exact raisesOnly_reject

theorem raisesOnly_nonEmptyStr (value : Option Json) :
    RaisesOnly IsRoutingConfigError (nonEmptyStr value detail) := by
  unfold nonEmptyStr
  split
  · split
    · exact raisesOnly_reject
    · exact .ok _
  · exact raisesOnly_reject

end Checks

variable {py : Builtins}

theorem raisesOnly_parseBackendType (value : Json) :
    RaisesOnly IsRoutingConfigError (parseBackendType py value) := by
  unfold parseBackendType
  dsimp only
  split
  · split
    · exact .ok _
    · exact raisesOnly_reject
  · exact raisesOnly_reject

theorem raisesOnly_parseBackend (i : ℕ) (seenIds : List Str) (value : Json) :
    RaisesOnly IsRoutingConfigError (parseBackend py i seenIds value) := by
  unfold parseBackend
  split
  · refine (raisesOnly_nonEmptyStr _).bind fun bid => ?_
    refine (raisesOnly_require _).bind fun _ => ?_
    refine (raisesOnly_parseBackendType _).bind fun btype => ?_
    exact (raisesOnly_nonEmptyStr _).bind fun baseUrl => .ok _
  · exact raisesOnly_reject

theorem raisesOnly_parseBackends (i : ℕ) (seenIds : List Str) (values : List Json) :
    RaisesOnly IsRoutingConfigError (parseBackends py i seenIds values) := by
  induction values generalizing i seenIds with
  | nil => exact .ok []
  | cons value values ih =>
      refine (raisesOnly_parseBackend i seenIds value).bind fun backend => ?_
      exact (ih _ _).bind fun backends => .ok _

theorem raisesOnly_parseAliases (mid : Str) (seenModelIds seenAliases : List Str)
    (items : List Json) :
    RaisesOnly IsRoutingConfigError (parseAliases py mid seenModelIds seenAliases items) := by
  induction items generalizing seenAliases with
  | nil => exact .ok []
  | cons item items ih =>
      refine (raisesOnly_nonEmptyStr _).bind fun a => ?_
      refine (raisesOnly_require _).bind fun _ => ?_
      refine (raisesOnly_require _).bind fun _ => ?_
      exact (ih _).bind fun aliases => .ok _

/-- The built-ins with a `dict` that takes everything. -/
def Builtins.lenient (py : Builtins) : Builtins := { py with dictOf := fun _ => .ok [] }

theorem dict_lenient (py : Builtins) (value : Json) :
    ∃ members, py.lenient.dict value = .ok members := by
  cases value <;> exact ⟨_, rfl⟩

/-- With a `dict` that takes every value only routing errors are left. -/
theorem raisesOnly_parseModel_lenient (i : ℕ) (backendIds seenModelIds seenAliases : List Str)
    (value : Json) :
    RaisesOnly IsRoutingConfigError
      (parseModel py.lenient i backendIds seenModelIds seenAliases value) := by
  unfold parseModel
  split
  · refine (raisesOnly_nonEmptyStr _).bind fun mid => ?_
    refine (raisesOnly_require _).bind fun _ => ?_
    refine (raisesOnly_nonEmptyStr _).bind fun backendId => ?_
    refine (raisesOnly_require _).bind fun _ => ?_
    refine (raisesOnly_nonEmptyStr _).bind fun backendModel => ?_
    dsimp only
    split
    · refine (raisesOnly_parseAliases _ _ _ _).bind fun aliases => ?_
      obtain ⟨members, hmembers⟩ := dict_lenient py _
      rw [hmembers]
      exact .ok _
    · exact raisesOnly_reject
  · exact raisesOnly_reject

/-- The aliases do not depend on `dict`. -/
theorem parseAliases_lenient (mid : Str) (seenModelIds seenAliases : List Str) (items : List Json) :
    parseAliases py.lenient mid seenModelIds seenAliases items =
      parseAliases py mid seenModelIds seenAliases items := by
  induction items generalizing seenAliases with
  | nil => rfl
  | cons item items ih =>
      rw [parseAliases, parseAliases]
      simp only [ih]
      rfl

/-! ## The loop over the models -/

section Models

variable {i : ℕ} {backendIds seenModelIds seenAliases : List Str}

/-- The metadata is copied after every check of the model. -/
theorem parseModel_eq_bind (m : List (Str × Json)) :
    parseModel py i backendIds seenModelIds seenAliases (.obj m) = do
      let config ← parseModel py.lenient i backendIds seenModelIds seenAliases (.obj m)
      let metadata ← py.dict (orElse (dictGet m "metadata") (.obj []))
      return { config with metadata } := by
  unfold parseModel
  dsimp only
  simp only [bind_assoc]
  refine bind_congr fun mid => bind_congr fun _ => bind_congr fun backendId => bind_congr fun _ =>
    bind_congr fun backendModel => ?_
  split
  · simp only [parseAliases_lenient, bind_assoc]
    refine bind_congr fun aliases => ?_
    obtain ⟨members, hmembers⟩ := dict_lenient py (orElse (dictGet m "metadata") (.obj []))
    rw [hmembers]
    rfl
  · rfl

/-- The checks of a model pass, before its metadata is looked at. -/
structure FieldsChecked (backendIds seenModelIds seenAliases : List Str) (m : List (Str × Json)) :
    Prop where
  typed : FieldsTyped m
  checked : ModelChecked backendIds seenModelIds seenAliases (readModel m)

/-- A model that passes its checks goes on to its metadata. -/
theorem FieldsChecked.parseModel_eq {m : List (Str × Json)}
    (h : FieldsChecked backendIds seenModelIds seenAliases m) :
    parseModel py i backendIds seenModelIds seenAliases (.obj m) = do
      let metadata ← py.dict (orElse (dictGet m "metadata") (.obj []))
      return { readModel m with metadata } := by
  obtain ⟨members, hmembers⟩ := dict_lenient py (orElse (dictGet m "metadata") (.obj []))
  rw [parseModel_eq_bind, (parseModel_of_metadata h.typed hmembers).mpr ⟨h.checked, rfl⟩]
  rfl

/-- Every other model is refused by a check. -/
theorem refused_of_not_fieldsChecked (py : Builtins) (i : ℕ) {m : List (Str × Json)}
    (h : ¬ FieldsChecked backendIds seenModelIds seenAliases m) :
    RaisesOnly IsRoutingConfigError (parseModel py i backendIds seenModelIds seenAliases (.obj m)) ∧
      ∀ config, parseModel py i backendIds seenModelIds seenAliases (.obj m) ≠ .ok config := by
  have hlenient : ∀ config,
      parseModel py.lenient i backendIds seenModelIds seenAliases (.obj m) ≠ .ok config := by
    intro config hok
    obtain ⟨members, hmembers⟩ := dict_lenient py (orElse (dictGet m "metadata") (.obj []))
    have htyped := fieldsTyped_of_parseModel hok
    exact h ⟨htyped, ((parseModel_of_metadata htyped hmembers).mp hok).1⟩
  rw [parseModel_eq_bind]
  constructor
  · rw [raisesOnly_bind_iff (raisesOnly_parseModel_lenient _ _ _ _ _)]
    exact fun config hok => absurd hok (hlenient config)
  · intro config hok
    obtain ⟨config', hok', -⟩ := bind_eq_ok.mp hok
    exact hlenient config' hok'

/-- One turn of the loop: a model that passes its checks must have metadata that can be copied. -/
theorem raisesOnly_parseModels_cons (hpy : py.Lawful) {m : List (Str × Json)} {rest : List Json} :
    RaisesOnly IsRoutingConfigError
      (parseModels py i backendIds seenModelIds seenAliases (.obj m :: rest)) ↔
      (FieldsChecked backendIds seenModelIds seenAliases m → MetadataOk m ∧
        RaisesOnly IsRoutingConfigError
          (parseModels py (i + 1) backendIds ((readModel m).id :: seenModelIds)
            ((readModel m).aliases ++ seenAliases) rest)) := by
  rw [parseModels]
  by_cases hchecked : FieldsChecked backendIds seenModelIds seenAliases m
  · rw [hchecked.parseModel_eq, forall_prop_of_true hchecked]
    cases hdict : py.dict (orElse (dictGet m "metadata") (.obj [])) with
    | error e =>
        have hmetadata : ¬ MetadataOk m := fun h => by
          obtain ⟨members, hok⟩ := (hpy.dict_eq_ok_iff _).mpr h
          rw [hdict] at hok
          cases hok
        refine iff_of_false (fun h => ?_) fun h => hmetadata h.1
        obtain ⟨error, rfl, -⟩ := h e rfl
        exact hpy.dict_ne_syn _ error hdict
    | ok metadata =>
        have hmetadata : MetadataOk m := (hpy.dict_eq_ok_iff _).mp ⟨metadata, hdict⟩
        rw [and_iff_right hmetadata]
        exact raisesOnly_bind_ok_iff
  · obtain ⟨hrefused, hne⟩ := refused_of_not_fieldsChecked py i hchecked
    rw [raisesOnly_bind_iff hrefused]
    exact iff_of_true (fun config hok => absurd hok (hne config)) fun h => absurd h hchecked

/-- The loop gets to `m`, the first model whose metadata cannot be copied: every check up to there
passes. -/
structure BreaksAt (backendIds seenModelIds seenAliases : List Str) (values : List Json)
    (before : List (List (Str × Json))) (m : List (Str × Json)) : Prop where
  reached : (before ++ [m]).map .obj <+: values
  typed : ∀ x ∈ before ++ [m], FieldsTyped x
  checked : ModelsChecked backendIds seenModelIds seenAliases ((before ++ [m]).map readModel)
  copied : ∀ x ∈ before, MetadataOk x
  not_copied : ¬ MetadataOk m

/-- Nothing but an object is reached. -/
theorem BreaksAt.head_eq {value : Json} {values : List Json} {before : List (List (Str × Json))}
    {m : List (Str × Json)}
    (h : BreaksAt backendIds seenModelIds seenAliases (value :: values) before m) :
    ∃ x, value = .obj x := by
  cases before with
  | nil => exact ⟨m, (List.cons_prefix_cons.mp h.reached).1.symm⟩
  | cons x before => exact ⟨x, (List.cons_prefix_cons.mp h.reached).1.symm⟩

/-- The loop breaks off at the head of the list, or it goes on behind it. -/
theorem exists_breaksAt_cons {x : List (Str × Json)} {values : List Json} :
    (∃ before m, BreaksAt backendIds seenModelIds seenAliases (.obj x :: values) before m) ↔
      FieldsChecked backendIds seenModelIds seenAliases x ∧ (¬ MetadataOk x ∨
        ∃ before m, BreaksAt backendIds ((readModel x).id :: seenModelIds)
          ((readModel x).aliases ++ seenAliases) values before m) := by
  constructor
  · rintro ⟨before, m, ⟨hreached, htyped, hchecked, hcopied, hnot⟩⟩
    cases before with
    | nil =>
        cases (List.cons_prefix_cons.mp hreached).1
        exact ⟨⟨htyped x (List.mem_singleton_self x), (modelsChecked_cons.mp hchecked).1⟩,
          -- the first model itself is the one that breaks
          .inl hnot⟩
    | cons y before =>
        obtain ⟨hhead, htail⟩ := List.cons_prefix_cons.mp hreached
        cases hhead
        obtain ⟨hx, hrest⟩ := modelsChecked_cons.mp hchecked
        obtain ⟨htypedx, htyped⟩ := List.forall_mem_cons.mp htyped
        exact ⟨⟨htypedx, hx⟩, .inr ⟨before, m, htail, htyped, hrest,
          (List.forall_mem_cons.mp hcopied).2, hnot⟩⟩
  · rintro ⟨hx, h⟩
    -- the first model breaks, or it is parsed and a later one does
    by_cases hcopy : MetadataOk x
    · obtain ⟨before, m, hreached, htyped, hchecked, hcopied, hnot⟩ :=
        h.resolve_left (not_not_intro hcopy)
      exact ⟨x :: before, m, List.cons_prefix_cons.mpr ⟨rfl, hreached⟩,
        List.forall_mem_cons.mpr ⟨hx.typed, htyped⟩, modelsChecked_cons.mpr ⟨hx.checked, hchecked⟩,
        List.forall_mem_cons.mpr ⟨hcopy, hcopied⟩, hnot⟩
    · exact ⟨[], x, List.cons_prefix_cons.mpr ⟨rfl, List.nil_prefix⟩, by simpa using hx.typed,
        modelsChecked_cons.mpr ⟨hx.checked, modelsChecked_nil⟩, List.forall_mem_nil _, hcopy⟩

/-- The loop over `models` raises a `RoutingConfigError` only, unless it gets to metadata that
cannot be copied. -/
theorem raisesOnly_parseModels_iff (hpy : py.Lawful) {values : List Json} :
    RaisesOnly IsRoutingConfigError (parseModels py i backendIds seenModelIds seenAliases values) ↔
      ¬ ∃ before m, BreaksAt backendIds seenModelIds seenAliases values before m := by
  induction values generalizing i seenModelIds seenAliases with
  | nil =>
      refine iff_of_true (.ok _) ?_
      rintro ⟨before, m, h⟩
      simpa using List.prefix_nil.mp h.reached
  | cons value values ih =>
      cases value with
      | obj x =>
          rw [raisesOnly_parseModels_cons hpy, exists_breaksAt_cons, ih]
          rw [not_and, not_or, not_not]
      | _ =>
          refine iff_of_true raisesOnly_reject ?_
          rintro ⟨before, m, h⟩
          obtain ⟨x, hx⟩ := h.head_eq
          cases hx

end Models

/-! ## The whole parser -/

/-- The parser gets to `m`, the first model whose metadata cannot be copied: the backends and the
models up to there pass every check. -/
structure BreaksOff (raw : List (Str × Json)) (backends before : List (List (Str × Json)))
    (m : List (Str × Json)) : Prop where
  backends_eq : dictGet raw "backends" = some (.arr (backends.map .obj))
  models_reached : ∃ models, dictGet raw "models" = some (.arr models) ∧
    (before ++ [m]).map .obj <+: models
  backends_typed : ∀ b ∈ backends, WellTypedBackend b
  models_typed : ∀ x ∈ before ++ [m], FieldsTyped x
  checked : Checked (backends.map readBackend) ((before ++ [m]).map readModel)
  copied : ∀ x ∈ before, MetadataOk x
  not_copied : ¬ MetadataOk m

theorem BreaksOff.backends_ne {raw : List (Str × Json)} {backends before : List (List (Str × Json))}
    {m : List (Str × Json)} (h : BreaksOff raw backends before m) :
    ∃ b rest, dictGet raw "backends" = some (.arr (b :: rest)) := by
  have hknown := h.checked.backendIds_known (readModel m) (List.mem_map_of_mem (by simp))
  cases backends with
  | nil => cases hknown
  | cons b rest => exact ⟨_, _, h.backends_eq⟩

theorem BreaksOff.models_ne {raw : List (Str × Json)} {backends before : List (List (Str × Json))}
    {m : List (Str × Json)} (h : BreaksOff raw backends before m) :
    ∃ x rest, dictGet raw "models" = some (.arr (x :: rest)) := by
  obtain ⟨models, hmodels, hreached⟩ := h.models_reached
  cases models with
  | nil => simpa using List.prefix_nil.mp hreached
  | cons x rest => exact ⟨x, rest, hmodels⟩

/-- The parser gets to the model if it accepts the backends and the loop over the models breaks off
there. -/
theorem exists_breaksOff_iff (py : Builtins) {raw : List (Str × Json)} {values models : List Json}
    (hbackends : dictGet raw "backends" = some (.arr values))
    (hmodels : dictGet raw "models" = some (.arr models)) :
    (∃ backends before m, BreaksOff raw backends before m) ↔
      ∃ configs, parseBackends py 0 [] values = .ok configs ∧
        ∃ before m, BreaksAt (configs.map (·.id)) [] [] models before m := by
  have hids : ∀ bs : List RawBackend, (bs.map RawBackend.config).map (·.id) = bs.map (·.id) :=
    fun bs => List.map_map
  constructor
  · rintro ⟨backends, before, m, h⟩
    obtain ⟨models', hmodels', hreached⟩ := h.models_reached
    cases hmodels.symm.trans hmodels'
    cases hbackends.symm.trans h.backends_eq
    obtain ⟨hchecks, hchecked⟩ := checked_iff.mp h.checked
    -- the models are read only after all backends were accepted
    refine ⟨_, (parseBackends_eq_ok h.backends_typed).mpr ⟨hchecks, rfl⟩, before, m, hreached,
      h.models_typed, ?_, h.copied, h.not_copied⟩
    rw [hids]
    exact hchecked
  · rintro ⟨configs, hok, before, m, h⟩
    obtain ⟨bs, rfl, htyped⟩ := wellTyped_of_parseBackends hok
    obtain ⟨hchecks, rfl⟩ := (parseBackends_eq_ok htyped).mp hok
    have hchecked := h.checked
    rw [hids] at hchecked
    exact ⟨bs, before, m, hbackends, ⟨models, hmodels, h.reached⟩, htyped, h.typed,
      checked_iff.mpr ⟨hchecks, hchecked⟩, h.copied, h.not_copied⟩

/-- **When configuration errors are typed.** `parse_routing_config` returns or raises a
`RoutingConfigError`, unless it gets to a model whose metadata is truthy and not what `dict` takes.
-/
theorem config_errors_typed_iff (hpy : py.Lawful) (raw : List (Str × Json)) :
    RaisesOnly IsRoutingConfigError (parseRoutingConfig py raw) ↔
      ¬ ∃ backends before m, BreaksOff raw backends before m := by
  unfold parseRoutingConfig
  split
  · next b backendsRaw hbackends =>
      split
      · next m modelsRaw hmodels =>
          rw [raisesOnly_bind_iff (raisesOnly_parseBackends _ _ _),
            exists_breaksOff_iff py hbackends hmodels, not_exists]
          refine forall_congr' fun configs => ?_
          rw [not_and]
          exact forall_congr' fun _ => raisesOnly_bind_ok_iff.trans (raisesOnly_parseModels_iff hpy)
      · next hmodels =>
          -- without models the configuration is refused by a typed error
          refine iff_of_true raisesOnly_reject ?_
          rintro ⟨backends, before, m, h⟩
          obtain ⟨x, rest, heq⟩ := h.models_ne
          exact hmodels x rest heq
  · next hbackends =>
      refine iff_of_true raisesOnly_reject ?_
      rintro ⟨backends, before, m, h⟩
      obtain ⟨b, rest, heq⟩ := h.backends_ne
      exact hbackends b rest heq

/-! ## Metadata that is a number -/

/-- A pair with a string in front. -/
def pairOf : Json → Option (Str × Json)
  | .arr [.str key, value] => some (key, value)
  | _ => none

/-- The built-ins, with a `dict` that takes pairs. -/
def pairBuiltins : Builtins :=
  { sampleBuiltins with
    dictOf := fun value =>
      if dictable value then
        .ok (match value with
          | .arr items => items.filterMap pairOf
          | _ => [])
      else .error (.exception "cannot convert to a dict") }

theorem lawful_pairBuiltins : pairBuiltins.Lawful where
  dict_eq_ok_iff value := by
    have hdict : (∃ members, pairBuiltins.dictOf value = .ok members) ↔ dictable value = true := by
      unfold pairBuiltins
      dsimp only
      split
      · next h => exact iff_of_true ⟨_, rfl⟩ h
      · next h => exact iff_of_false nofun h
    cases value with
    | obj members => exact iff_of_true ⟨members, rfl⟩ rfl
    | _ => exact hdict
  not_syn value error := by
    unfold pairBuiltins
    dsimp only
    split <;> nofun

/-- A configuration whose one model has the given metadata. -/
def metadataConfig (metadata : Json) : List (Str × Json) :=
  sampleConfig [(Str.ofString "metadata", metadata) :: sampleModel "x" []]

/-- A list of pairs is taken for a mapping. -/
theorem config_errors_typed_pairs :
    RaisesOnly IsRoutingConfigError
      (parseRoutingConfig pairBuiltins (metadataConfig (.arr [.arr [.text "k", .int 1]]))) := by
  refine (config_errors_typed_iff lawful_pairBuiltins _).mpr ?_
  rintro ⟨backends, before, m, h⟩
  obtain ⟨models, hmodels, hreached⟩ := h.models_reached
  cases hmodels
  cases before with
  | nil =>
      cases (List.cons_prefix_cons.mp hreached).1
      exact h.not_copied rfl
  | cons x before => simpa using List.prefix_nil.mp (List.cons_prefix_cons.mp hreached).2

/-- The metadata `5` makes the parser raise what is no `SynError`. -/
theorem config_errors_untyped :
    ¬ ∀ (py : Builtins) (raw : List (Str × Json)), py.Lawful →
      RaisesOnly IsRoutingConfigError (parseRoutingConfig py raw) := by
  intro hall
  have hraises : parseRoutingConfig pairBuiltins (metadataConfig (.int 5)) =
      .error (.exception "cannot convert to a dict") := rfl
  obtain ⟨_, herror, -⟩ := hall _ _ lawful_pairBuiltins _ hraises
  cases herror

end SynGateway.Routing

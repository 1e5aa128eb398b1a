import Mathlib.Data.List.Nodup
import SynGateway.Backends.Base

/-!
# The registries

`app/routing/model_registry.py`, and the lookup of `app/routing/backend_registry.py`. Dictionaries
are lists of their items. A `ModelRegistry` carries what its constructor establishes: entries are
stored under their own ids, and every alias leads to an entry. An alias may be equal to an id; the
id wins.
-/

namespace SynGateway.Routing

open SynGateway.Backends SynGateway.Core SynGateway.Python

/-- The text of a `str` in a message. A surrogate, which no `String` holds, reads as U+FFFD. -/
def render (s : Str) : String := String.ofList (s.map fun p => p.toChar.getD (Char.ofNat 0xFFFD))

/-! ## Models -/

/-- A single registered model. -/
structure ModelEntry where
  id : Str
  backendId : Str
  backendModel : Str
  enabled : Bool := true
  aliases : List Str := []
  metadata : List (Str × Json) := []

/-- Registry of public models and their aliases. -/
structure ModelRegistry where
  byId : List (Str × ModelEntry)
  byAlias : List (Str × Str)
  id_eq : ∀ item ∈ byId, item.2.id = item.1
  ids_nodup : (byId.map Prod.fst).Nodup
  alias_known : ∀ item ∈ byAlias, item.2 ∈ byId.map Prod.fst

/-- `raise ModelNotFoundError(detail, code="model_not_found")`. -/
def modelNotFound (detail : String) : Exc :=
  .syn (ErrorClass.modelNotFoundError.new (some detail) (some "model_not_found") none none)

namespace ModelRegistry

/-- A registry without models. -/
def empty : ModelRegistry where
  byId := []
  byAlias := []
  id_eq _ h := absurd h List.not_mem_nil
  ids_nodup := List.nodup_nil
  alias_known _ h := absurd h List.not_mem_nil

/-- The inner loop of the constructor; `repr` is Python's. -/
def addAliases (repr : Str → String) (byAlias : List (Str × Str)) (id : Str) :
    List Str → Except Exc (List (Str × Str))
  | [] => .ok byAlias
  | a :: aliases =>
    if a ∈ byAlias.map Prod.fst then .error (modelNotFound ("duplicate alias: " ++ repr a))
    else addAliases repr (byAlias ++ [(a, id)]) id aliases

theorem addAliases_known {repr : Str → String} {byAlias byAlias' : List (Str × Str)} {id : Str}
    {aliases : List Str} (h : addAliases repr byAlias id aliases = .ok byAlias') :
    ∀ item ∈ byAlias', item ∈ byAlias ∨ item.2 = id := by
  induction aliases generalizing byAlias with
  | nil =>
      cases h
      exact fun item hitem => .inl hitem
  | cons a aliases ih =>
      rw [addAliases] at h
      split at h
      · cases h
      · intro item hitem
        rcases ih h item hitem with hmem | hid
        · rcases List.mem_append.mp hmem with hmem | hmem
          · exact .inl hmem
          · rw [List.mem_singleton.mp hmem]
            exact .inr rfl
        · exact .inr hid

/-- The body of the loop of the constructor. -/
def addEntry (repr : Str → String) (self : ModelRegistry) (entry : ModelEntry) :
    Except Exc ModelRegistry :=
  if hid : entry.id ∈ self.byId.map Prod.fst then
    .error (modelNotFound ("duplicate model id: " ++ repr entry.id))
  else
    match haliases : addAliases repr self.byAlias entry.id entry.aliases with
    | .error exc => .error exc
    | .ok byAlias => .ok {
        byId := self.byId ++ [(entry.id, entry)]
        byAlias := byAlias
        id_eq := by
          intro item hitem
          rcases List.mem_append.mp hitem with hitem | hitem
          · exact self.id_eq item hitem
          · rw [List.mem_singleton.mp hitem]
        ids_nodup := by
          rw [List.map_append]
          refine List.nodup_append.mpr ⟨self.ids_nodup, List.nodup_singleton _, ?_⟩
          rintro a ha b hb rfl
          have heq : a = entry.id := List.mem_singleton.mp hb
          exact hid (heq ▸ ha)
        alias_known := by
          intro item hitem
          rw [List.map_append, List.mem_append]
          rcases addAliases_known haliases item hitem with hmem | heq
          · exact .inl (self.alias_known item hmem)
          · exact .inr (List.mem_singleton.mpr heq) }

/-- `ModelRegistry(entries)`. -/
def new (repr : Str → String) (entries : List ModelEntry) : Except Exc ModelRegistry :=
  entries.foldlM (addEntry repr) empty

/-- Resolve a requested model or alias to its canonical entry. -/
def resolve (self : ModelRegistry) (requested : Str) : Except Exc ModelEntry :=
  match self.byId.lookup requested with
  | some entry => .ok entry
  | none =>
    match self.byAlias.lookup requested with
    | none => .error (modelNotFound ("model '" ++ render requested ++ "' not found"))
    | some canonical =>
      match self.byId.lookup canonical with
      | some entry => .ok entry
      | none => .error (.exception "KeyError")

def listAll (self : ModelRegistry) : List ModelEntry := self.byId.map Prod.snd

def listEnabled (self : ModelRegistry) : List ModelEntry := self.listAll.filter (·.enabled)

end ModelRegistry

/-! ## Backends -/

/-- Registry of configured backend instances by backend id. -/
structure BackendRegistry where
  backends : List (Str × InferenceBackend)

namespace BackendRegistry

/-- Register a backend instance under `backendId`. -/
def register (self : BackendRegistry) (backendId : Str) (backend : InferenceBackend) :
    BackendRegistry where
  backends := setItem self.backends backendId backend

def has (self : BackendRegistry) (backendId : Str) : Bool := (self.backends.lookup backendId).isSome

def ids (self : BackendRegistry) : List Str := self.backends.map Prod.fst

/-- The backend instance, or `backend_not_configured`. -/
def get (self : BackendRegistry) (backendId : Str) : Except Exc InferenceBackend :=
  match self.backends.lookup backendId with
  | some backend => .ok backend
  | none => .error (.syn (ErrorClass.backendNotConfiguredError.new
      (some ("backend '" ++ render backendId ++ "' is not configured"))
        (some "backend_not_configured")
      none none))

end BackendRegistry

/-! ## Lookups -/

/-- What a dictionary finds is one of its items. -/
theorem mem_of_lookup {κ β : Type} [BEq κ] [LawfulBEq κ] {items : List (κ × β)} {key : κ}
    {value : β} (h : items.lookup key = some value) : (key, value) ∈ items := by
  obtain ⟨before, after, rfl, -⟩ := List.lookup_eq_some_iff.mp h
  simp

/-- With distinct keys a dictionary finds all its items. -/
theorem lookup_of_mem {κ β : Type} [BEq κ] [LawfulBEq κ] {items : List (κ × β)} {key : κ}
    {value : β} (hnodup : (items.map Prod.fst).Nodup) (h : (key, value) ∈ items) :
    items.lookup key = some value := by
  obtain ⟨before, after, rfl⟩ := List.append_of_mem h
  refine List.lookup_eq_some_iff.mpr ⟨before, after, rfl, fun item hitem => ?_⟩
  rw [List.map_append, List.nodup_append] at hnodup
  rw [bne_iff_ne]
  exact (hnodup.2.2 item.1 (List.mem_map_of_mem hitem) key (by simp)).symm

/-- A dictionary finds what was stored last under a key. -/
theorem lookup_setItem_self {β : Type} (items : List (Str × β)) (key : Str) (value : β) :
    (setItem items key value).lookup key = some value := by
  induction items with
  | nil => exact List.lookup_cons_self
  | cons item items ih =>
      rw [setItem]
      split_ifs with hkey
      · rw [hkey]
        exact List.lookup_cons_self
      · rw [List.lookup_cons, beq_eq_false_iff_ne.mpr (Ne.symm hkey)]
        exact ih

/-- What is stored under a key changes nothing under the others. -/
theorem lookup_setItem_of_ne {β : Type} {items : List (Str × β)} {key key' : Str} {value : β}
    (h : key' ≠ key) :
    (setItem items key value).lookup key' = items.lookup key' := by
  induction items with
  | nil => rw [setItem, List.lookup_cons, beq_eq_false_iff_ne.mpr h]
  | cons item items ih =>
      rw [setItem]
      split_ifs with hkey
      · rw [List.lookup_cons, List.lookup_cons, hkey, beq_eq_false_iff_ne.mpr h]
      · rw [List.lookup_cons, List.lookup_cons, ih]

namespace ModelRegistry

variable {self : ModelRegistry} {requested : Str} {entry : ModelEntry}

/-- What a request resolves to is a registered model. -/
theorem mem_listAll_of_resolve (h : self.resolve requested = .ok entry) : entry ∈ self.listAll := by
  have hmem : ∀ {key}, self.byId.lookup key = some entry → entry ∈ self.listAll := fun hlookup =>
    List.mem_map_of_mem (f := Prod.snd) (mem_of_lookup hlookup)
  unfold resolve at h
  split at h
  · next hlookup =>
      cases h
      exact hmem hlookup
  · split at h
    · cases h
    · split at h
      · next hlookup =>
          cases h
          exact hmem hlookup
      · cases h

/-- A registered model is what its own id resolves to. -/
theorem resolve_id (h : entry ∈ self.listAll) : self.resolve entry.id = .ok entry := by
  obtain ⟨item, hitem, rfl⟩ := List.mem_map.mp h
  have hlookup : self.byId.lookup item.2.id = some item.2 := by
    apply lookup_of_mem self.ids_nodup
    rw [self.id_eq item hitem]
    exact hitem
  unfold resolve
  rw [hlookup]

end ModelRegistry

end SynGateway.Routing

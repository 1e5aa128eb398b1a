import SynGateway.Core.ApiKeys
import SynGateway.Core.Errors
import SynGateway.Db.Models
import SynGateway.Python.Exec

/-!
# The management plane

`create_user`, `create_client`, `create_api_key`, `revoke_api_key` and `rotate_api_key` of
`app/services/admin.py`. The ids that the rows get and the secrets that are drawn are arguments, and
so is the clock. Each call commits once per row that it writes; a commit that would break a primary
key or a unique constraint raises, and leaves the tables as they were.
-/

namespace SynGateway.Services.Admin

open SynGateway.Core SynGateway.Core.ApiKeys SynGateway.Db SynGateway.Python

/-- A function that works on a session. -/
abbrev Session (α : Type) := Exec Exc Database α

/-- `IntegrityError` of the database. -/
def integrityError : Exc := .exception "UNIQUE constraint failed"

/-- `raise ValidationError("name cannot be empty", code="validation_error")`. -/
def nameEmpty : Exc :=
  .syn (ErrorClass.validationError.new (some "name cannot be empty")
    (some "validation_error") none none)

/-- `raise NotFoundError(f"{what} '{id}' not found", code=code)`. -/
def notFound (what code id : String) : Exc :=
  .syn (ErrorClass.notFoundError.new (some (what ++ " '" ++ id ++ "' not found"))
    (some code) none none)

/-- `query.one_or_none()` for a query by primary key. -/
def oneOr {α : Type} (row : Option α) (exc : Exc) : Session α :=
  match row with
  | some row => pure row
  | none => Exec.raise exc

/-! ## Users and clients -/

def createUser (id : String) (name : Text) : Session User := do
  let name := strip name
  if name = [] then Exec.raise nameEmpty
  else
    let db ← Exec.get
    if db.users.any (·.name = name) then
      Exec.raise (.syn (ErrorClass.synError.new
        (some ("user '" ++ String.ofList name ++ "' already exists")) (some "user_exists")
          (some 409) none))
    else if db.users.any (·.id = id) then Exec.raise integrityError
    else
      let user : User := { id, name }
      Exec.modify fun db => { db with users := db.users ++ [user] }
      return user

/-- `query.order_by(created_at)`. The column is given by the primary keys: it is filled in when a
row is inserted, and nothing changes it. Rows of one time stay in the order of the table. -/
def byCreation {ρ : Type} (createdAt : String → ℤ) (id : ρ → String) (rows : List ρ) : List ρ :=
  rows.mergeSort fun a b => createdAt (id a) ≤ createdAt (id b)

section ByCreation

variable {ρ ρ' : Type} {createdAt : String → ℤ} {id : ρ → String} {id' : ρ' → String}
    {rows : List ρ}

/-- The responses for the rows, in the order of the rows. -/
theorem map_byCreation (id : ρ → String) (id' : ρ' → String) {f : ρ → ρ'}
    (h : ∀ row, id' (f row) = id row) :
    (byCreation createdAt id rows).map f = byCreation createdAt id' (rows.map f) := by
  refine List.map_mergeSort fun a _ b _ => ?_
  rw [h, h]

/-- Rows that are related one by one are so in the order of their creation, if they have the same
keys. -/
theorem forall₂_byCreation {R : ρ → ρ' → Prop} {rows' : List ρ'} (hid : ∀ a b, R a b → id' b = id a)
    (h : List.Forall₂ R rows rows') :
    List.Forall₂ R (byCreation createdAt id rows) (byCreation createdAt id' rows') := by
  have hrel : ∀ pair ∈ rows.zip rows', R pair.1 pair.2 :=
    fun _ hpair => (List.forall₂_iff_zip.mp h).2 hpair
  -- both lists are sorted as the list of their pairs is
  have hleft : byCreation createdAt id rows =
      (byCreation createdAt (id ·.1) (rows.zip rows')).map Prod.fst := by
    rw [map_byCreation _ id fun _ => rfl, List.map_fst_zip h.length_eq.le]
  have hright : byCreation createdAt id' rows' =
      (byCreation createdAt (id ·.1) (rows.zip rows')).map Prod.snd := by
    conv_lhs => rw [← List.map_snd_zip h.length_eq.ge]
    refine (List.map_mergeSort fun p hp q hq => ?_).symm
    rw [hid _ _ (hrel p hp), hid _ _ (hrel q hq)]
  rw [hleft, hright, List.forall₂_map_left_iff, List.forall₂_map_right_iff, List.forall₂_same]
  intro pair hpair
  exact hrel pair (List.mem_mergeSort.mp hpair)

/-- The clock has not gone back from one row to a later one. -/
def Chronological (createdAt : String → ℤ) (id : ρ → String) (rows : List ρ) : Prop :=
  rows.Pairwise fun a b => createdAt (id a) ≤ createdAt (id b)

/-- Then the order of creation is that of the table. -/
theorem byCreation_eq_self (h : Chronological createdAt id rows) :
    byCreation createdAt id rows = rows :=
  List.mergeSort_of_pairwise (h.imp fun hle => decide_eq_true hle)

end ByCreation

def listUsers (createdAt : String → ℤ) : Session (List User) := do
  let db ← Exec.get
  return byCreation createdAt User.id db.users

def getUser (userId : String) : Session User := do
  let db ← Exec.get
  oneOr (db.users.find? fun u => u.id = userId) (notFound "user" "user_not_found" userId)

/-- The rows of `client_allowed_models` after `_set_allowed_models`. -/
def setAllowedModels (rows : List ClientAllowedModel) (clientId : String) (allowed : List Str) :
    List ClientAllowedModel :=
  (rows.filter fun row => row.clientId ≠ clientId) ++ allowed.map fun modelId =>
    (⟨clientId, modelId⟩ : ClientAllowedModel)

/-- `get_client_allowed_models`, in no particular order. -/
def getClientAllowedModels (clientId : String) : Session (Multiset Str) := do
  let db ← Exec.get
  return db.modelsOf clientId

def createClient (id userId : String) (name : Text) (description : Option Text)
    (allowedModels : Option (List Str)) : Session Client := do
  let name := strip name
  if name = [] then Exec.raise nameEmpty
  else
    let user ← getUser userId
    let db ← Exec.get
    if db.clients.any (fun c => c.id = id || (c.userId = user.id && c.name = name)) then
      Exec.raise integrityError
    else if ¬ (allowedModels.getD []).Nodup then Exec.raise integrityError
    else
      let client : Client := { id, userId := user.id, name, description }
      Exec.modify fun db => { db with
        clients := db.clients ++ [client]
        allowedModels := setAllowedModels db.allowedModels client.id (allowedModels.getD []) }
      return client

def listClients (createdAt : String → ℤ) (userId : Option String) : Session (List Client) := do
  let db ← Exec.get
  let rows := match userId with
    | some userId => db.clients.filter fun c => c.userId = userId
    | none => db.clients
  return byCreation createdAt Client.id rows

def getClient (clientId : String) : Session Client := do
  let db ← Exec.get
  oneOr (db.clients.find? fun c => c.id = clientId) (notFound "client" "client_not_found" clientId)

/-! ## API keys -/

/-- The persisted row, and the full token. -/
def createApiKey (sha256 : Text → String) (draw : Draw) (id clientId : String) (name : Text)
    (expiresAt : Option ℤ) : Session (ApiKey × Text) := do
  let name := strip name
  if name = [] then Exec.raise nameEmpty
  else
    let client ← getClient clientId
    let (fullToken, keyPrefix, keyHash) := generateApiKey sha256 draw
    let db ← Exec.get
    if db.apiKeys.any (·.id = id) then Exec.raise integrityError
    else
      let apiKey : ApiKey := { id, clientId := client.id, name, keyPrefix, keyHash, expiresAt }
      Exec.modify fun db => { db with apiKeys := db.apiKeys ++ [apiKey] }
      return (apiKey, fullToken)

def listApiKeys (createdAt : String → ℤ) (clientId : Option String) : Session (List ApiKey) := do
  let db ← Exec.get
  let rows := match clientId with
    | some clientId => db.apiKeys.filter fun k => k.clientId = clientId
    | none => db.apiKeys
  return byCreation createdAt ApiKey.id rows

def getApiKey (apiKeyId : String) : Session ApiKey := do
  let db ← Exec.get
  oneOr (db.apiKeys.find? fun k => k.id = apiKeyId)
    (notFound "api key" "api_key_not_found" apiKeyId)

def revokeApiKey (now : ℤ) (apiKeyId : String) : Session ApiKey := do
  let apiKey ← getApiKey apiKeyId
  if apiKey.revokedAt = none then
    Exec.modify fun db => db.updateApiKey apiKey.id fun k => { k with revokedAt := some now }
    return { apiKey with revokedAt := some now }
  else return apiKey

/-- The new row, its full token, and the old row if it was revoked. -/
def rotateApiKey (sha256 : Text → String) (draw : Draw) (now : ℤ) (id apiKeyId : String)
    (revokeOld : Bool) : Session (ApiKey × Text × Option ApiKey) := do
  let old ← getApiKey apiKeyId
  let (newKey, fullToken) ← createApiKey sha256 draw id old.clientId
    (old.name ++ " (rotated)".toList) none
  if revokeOld then
    let old ← revokeApiKey now old.id
    return (newKey, fullToken, some old)
  else return (newKey, fullToken, none)

/-! ## What a call that succeeds has done -/

section

variable {db db' : Database}

theorem oneOr_eq_ok {α : Type} {row : Option α} {exc : Exc} {found : α} :
    (oneOr row exc).run db = (.ok found, db') ↔ row = some found ∧ db' = db := by
  cases row <;> simp [oneOr, eq_comm]

/-- A row found by its primary key. -/
theorem getUser_eq_ok {userId : String} {user : User}
    (h : (getUser userId).run db = (.ok user, db')) :
    user ∈ db.users ∧ user.id = userId ∧ db' = db := by
  obtain ⟨hfind, rfl⟩ := oneOr_eq_ok.mp h
  exact ⟨List.mem_of_find?_eq_some hfind, key_of_find? hfind, rfl⟩

theorem getClient_eq_ok {clientId : String} {client : Client}
    (h : (getClient clientId).run db = (.ok client, db')) :
    client ∈ db.clients ∧ client.id = clientId ∧ db' = db := by
  obtain ⟨hfind, rfl⟩ := oneOr_eq_ok.mp h
  exact ⟨List.mem_of_find?_eq_some hfind, key_of_find? hfind, rfl⟩

theorem getApiKey_eq_ok {apiKeyId : String} {apiKey : ApiKey}
    (h : (getApiKey apiKeyId).run db = (.ok apiKey, db')) :
    apiKey ∈ db.apiKeys ∧ apiKey.id = apiKeyId ∧ db' = db := by
  obtain ⟨hfind, rfl⟩ := oneOr_eq_ok.mp h
  exact ⟨List.mem_of_find?_eq_some hfind, key_of_find? hfind, rfl⟩

/-- A user that is created is appended under its identifier. -/
theorem createUser_eq_ok {id : String} {name : Text} {user : User}
    (h : (createUser id name).run db = (.ok user, db')) :
    user.id = id ∧ db' = { db with users := db.users ++ [user] } := by
  unfold createUser at h
  dsimp only at h
  rw [Exec.run_ite, Exec.run_get_bind] at h
  split_ifs at h
  · simp at h
  · simp at h
  · simp at h
  · obtain ⟨heq, rfl⟩ := Prod.mk.inj h
    cases heq
    exact ⟨rfl, rfl⟩

/-- A client that is created belongs to a user, and is appended with its models. -/
theorem createClient_eq_ok {id userId : String} {name : Text} {description : Option Text}
    {allowedModels : Option (List Str)} {client : Client}
    (h : (createClient id userId name description allowedModels).run db = (.ok client, db')) :
    (∃ user ∈ db.users, user.id = userId) ∧ (∀ c ∈ db.clients, c.id ≠ id) ∧ client.id = id ∧
      client.userId = userId ∧
      db' = { db with
        clients := db.clients ++ [client]
        allowedModels := setAllowedModels db.allowedModels id (allowedModels.getD []) } := by
  unfold createClient at h
  dsimp only at h
  split at h
  · simp at h
  · obtain ⟨user, db₁, huser, hrun⟩ := Exec.run_bind_eq_ok.mp h
    obtain ⟨hmem, hid, rfl⟩ := getUser_eq_ok huser
    rw [Exec.run_get_bind] at hrun
    split_ifs at hrun with hunique
    · simp at hrun
    · obtain ⟨heq, rfl⟩ := Prod.mk.inj hrun
      cases heq
      -- no client has the id or the name, and no model is named twice
      simp only [List.any_eq_true, Bool.or_eq_true, decide_eq_true_eq, not_exists, not_and,
        not_or] at hunique
      exact ⟨⟨user, hmem, hid⟩, fun c hc => (hunique c hc).1, rfl, hid, rfl⟩
    · simp at hrun

variable {sha256 : Text → String} {draw : Draw} {now : ℤ}

/-- The row of a new key, whose other columns have their defaults. -/
theorem createApiKey_row {id clientId : String} {name : Text} {expiresAt : Option ℤ}
    {apiKey : ApiKey} {token : Text}
    (h : (createApiKey sha256 draw id clientId name expiresAt).run db =
      (.ok (apiKey, token), db')) :
    (∃ client ∈ db.clients, client.id = clientId) ∧ (∀ k ∈ db.apiKeys, k.id ≠ id) ∧
      token = draw.token ∧
      apiKey = { id, clientId, name := strip name, keyPrefix := (generateApiKey sha256 draw).2.1,
                 keyHash := sha256 token, expiresAt } ∧
      db' = { db with apiKeys := db.apiKeys ++ [apiKey] } := by
  unfold createApiKey at h
  dsimp only at h
  split_ifs at h
  · simp at h
  · obtain ⟨client, db₁, hclient, hrun⟩ := Exec.run_bind_eq_ok.mp h
    obtain ⟨hmem, rfl, rfl⟩ := getClient_eq_ok hclient
    rw [Exec.run_get_bind] at hrun
    split_ifs at hrun with hunique
    · simp at hrun
    · obtain ⟨heq, rfl⟩ := Prod.mk.inj hrun
      cases heq
      simp only [List.any_eq_true, decide_eq_true_eq, not_exists, not_and] at hunique
      exact ⟨⟨client, hmem, rfl⟩, hunique, rfl, rfl, rfl⟩

/-- A key that is created belongs to a client, and is appended with the hash of its token. -/
theorem createApiKey_eq_ok {id clientId : String} {name : Text} {expiresAt : Option ℤ}
    {apiKey : ApiKey} {token : Text}
    (h : (createApiKey sha256 draw id clientId name expiresAt).run db =
      (.ok (apiKey, token), db')) :
    (∃ client ∈ db.clients, client.id = clientId) ∧ (∀ k ∈ db.apiKeys, k.id ≠ id) ∧
      token = draw.token ∧
      (apiKey.id = id ∧ apiKey.clientId = clientId ∧ apiKey.keyHash = sha256 token ∧
        apiKey.expiresAt = expiresAt ∧ apiKey.revokedAt = none) ∧
      db' = { db with apiKeys := db.apiKeys ++ [apiKey] } := by
  obtain ⟨hclient, hfresh, htoken, rfl, rfl⟩ := createApiKey_row h
  exact ⟨hclient, hfresh, htoken, ⟨rfl, rfl, rfl, rfl, rfl⟩, rfl⟩

/-- Only a key that is not revoked yet gets a time of revocation. -/
theorem revokeApiKey_eq_ok {apiKeyId : String} {apiKey : ApiKey}
    (h : (revokeApiKey now apiKeyId).run db = (.ok apiKey, db')) :
    ∃ old ∈ db.apiKeys, old.id = apiKeyId ∧
      (old.revokedAt = none ∧
          db' = db.updateApiKey apiKeyId (fun k => { k with revokedAt := some now }) ∨
        old.revokedAt ≠ none ∧ db' = db) := by
  obtain ⟨old, db₁, hold, hrun⟩ := Exec.run_bind_eq_ok.mp h
  obtain ⟨hmem, hid, rfl⟩ := getApiKey_eq_ok hold
  refine ⟨old, hmem, hid, ?_⟩
  split_ifs at hrun with hrevoked
  · obtain ⟨-, rfl⟩ := Prod.mk.inj hrun
    exact .inl ⟨hrevoked, by rw [hid]⟩
  · obtain ⟨-, rfl⟩ := Prod.mk.inj hrun
    exact .inr ⟨hrevoked, rfl⟩

/-- A rotation issues a key for the same client, and then revokes the old one if it should. -/
theorem rotateApiKey_eq_ok {id apiKeyId : String} {revokeOld : Bool} {apiKey : ApiKey}
    {token : Text} {old : Option ApiKey}
    (h : (rotateApiKey sha256 draw now id apiKeyId revokeOld).run db =
      (.ok (apiKey, token, old), db')) :
    ∃ row ∈ db.apiKeys, row.id = apiKeyId ∧ ∃ name db₁,
      (createApiKey sha256 draw id row.clientId name none).run db = (.ok (apiKey, token), db₁) ∧
      if revokeOld then ∃ k, (revokeApiKey now apiKeyId).run db₁ = (.ok k, db') else db' = db₁ := by
  obtain ⟨row, db₀, hrow, hrun⟩ := Exec.run_bind_eq_ok.mp h
  obtain ⟨hmem, hid, rfl⟩ := getApiKey_eq_ok hrow
  obtain ⟨⟨newKey, fullToken⟩, db₁, hcreate, hrest⟩ := Exec.run_bind_eq_ok.mp hrun
  refine ⟨row, hmem, hid, row.name ++ " (rotated)".toList, db₁, ?_⟩
  dsimp only at hrest
  split_ifs at hrest with hrevoke
  · obtain ⟨k, db₂, hk, hend⟩ := Exec.run_bind_eq_ok.mp hrest
    cases hend
    rw [if_pos hrevoke, ← hid]
    exact ⟨hcreate, k, hk⟩
  · cases hrest
    rw [if_neg hrevoke]
    exact ⟨hcreate, rfl⟩

end

end SynGateway.Services.Admin

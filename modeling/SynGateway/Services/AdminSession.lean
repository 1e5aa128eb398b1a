import Mathlib.Data.List.Nodup
import SynGateway.Common.UnitOfWork
import SynGateway.Services.Admin

/-!
# The management plane on a session that may fail

The five calls of `app/services/admin.py` once more, operation by operation: what they query, flush,
commit and refresh, any of which may raise.

For each call there is one triple for the tables that let it write, and one for those that refuse
it. The first says how far a call that raises had got: to its first commit or behind it.
-/

namespace SynGateway.Services.AdminSession

open SynGateway.Core SynGateway.Core.ApiKeys SynGateway.Db SynGateway.Python
  SynGateway.Services.Admin
open SynGateway.UnitOfWork

/-- A function that works on a session. -/
abbrev Session (α : Type) := Transaction Database Exc α

/-! ## What is queued -/

def insertUser (user : User) : Write Database Exc where
  refuse db :=
    if db.users.any (fun u => u.id = user.id || u.name = user.name) then some integrityError
    else none
  apply db := { db with users := db.users ++ [user] }

def insertClient (client : Client) : Write Database Exc where
  refuse db :=
    if db.clients.any (fun c => c.id = client.id ||
      (c.userId = client.userId && c.name = client.name)) then
      some integrityError
    else none
  apply db := { db with clients := db.clients ++ [client] }

def insertAllowedModel (row : ClientAllowedModel) : Write Database Exc where
  refuse db := if row ∈ db.allowedModels then some integrityError else none
  apply db := { db with allowedModels := db.allowedModels ++ [row] }

def insertApiKey (apiKey : ApiKey) : Write Database Exc where
  refuse db := if db.apiKeys.any (·.id = apiKey.id) then some integrityError else none
  apply db := { db with apiKeys := db.apiKeys ++ [apiKey] }

/-- `api_key.revoked_at = now`. -/
def updateRevokedAt (id : String) (now : ℤ) : Write Database Exc where
  refuse _ := none
  apply db := db.updateApiKey id fun k => { k with revokedAt := some now }

/-- The table of users refuses a second identifier or name. -/
theorem refuse_insertUser {user : User} {db : Database} :
    (insertUser user).refuse db = none ↔ ∀ u ∈ db.users, u.id ≠ user.id ∧ u.name ≠ user.name := by
  unfold insertUser
  simp

/-- The table of clients refuses a second identifier, or a second name of one user. -/
theorem refuse_insertClient {client : Client} {db : Database} :
    (insertClient client).refuse db = none ↔
      ∀ c ∈ db.clients, c.id ≠ client.id ∧ ¬ (c.userId = client.userId ∧ c.name = client.name) := by
  unfold insertClient
  simp

/-- The table of keys refuses a second identifier. -/
theorem refuse_insertApiKey {apiKey : ApiKey} {db : Database} :
    (insertApiKey apiKey).refuse db = none ↔ ∀ k ∈ db.apiKeys, k.id ≠ apiKey.id := by
  unfold insertApiKey
  simp

/-! ## The calls -/

variable (faults : Faults Exc)

/-- `query.one_or_none()` for a query by primary key, or the exception if there is no row. -/
def oneOr {α : Type} (read : Database → Option α) (exc : Exc) : Session α := do
  match ← query faults read with
  | some row => pure row
  | none => Exec.raise exc

def createUser (id : String) (name : Text) : Session User := do
  let name := strip name
  if name = [] then Exec.raise nameEmpty
  else
    let existing ← query faults fun db => db.users.any (·.name = name)
    if existing then
      Exec.raise (.syn (ErrorClass.synError.new
        (some ("user '" ++ String.ofList name ++ "' already exists")) (some "user_exists")
          (some 409) none))
    else
      let user : User := { id, name }
      add (insertUser user)
      commit faults
      refresh faults
      return user

def getUser (userId : String) : Session User :=
  oneOr faults (fun db => db.users.find? fun u => u.id = userId)
    (notFound "user" "user_not_found" userId)

/-- `_set_allowed_models`. -/
def setAllowedModels (clientId : String) (allowed : Option (List Str)) : Session Unit := do
  execute faults fun db =>
    { db with allowedModels := db.allowedModels.filter fun row => row.clientId ≠ clientId }
  (allowed.getD []).forM fun modelId => add (insertAllowedModel ⟨clientId, modelId⟩)

def createClient (id userId : String) (name : Text) (description : Option Text)
    (allowedModels : Option (List Str)) : Session Client := do
  let name := strip name
  if name = [] then Exec.raise nameEmpty
  else
    let user ← getUser faults userId
    let client : Client := { id, userId := user.id, name, description }
    add (insertClient client)
    flush faults
    setAllowedModels faults client.id allowedModels
    commit faults
    refresh faults
    return client

def getClient (clientId : String) : Session Client :=
  oneOr faults (fun db => db.clients.find? fun c => c.id = clientId)
    (notFound "client" "client_not_found" clientId)

/-- The persisted row, and the full token. -/
def createApiKey (sha256 : Text → String) (draw : Draw) (id clientId : String) (name : Text)
    (expiresAt : Option ℤ) : Session (ApiKey × Text) := do
  let name := strip name
  if name = [] then Exec.raise nameEmpty
  else
    let client ← getClient faults clientId
    let (fullToken, keyPrefix, keyHash) := generateApiKey sha256 draw
    let apiKey : ApiKey := { id, clientId := client.id, name, keyPrefix, keyHash, expiresAt }
    add (insertApiKey apiKey)
    commit faults
    refresh faults
    return (apiKey, fullToken)

def getApiKey (apiKeyId : String) : Session ApiKey :=
  oneOr faults (fun db => db.apiKeys.find? fun k => k.id = apiKeyId)
    (notFound "api key" "api_key_not_found" apiKeyId)

def revokeApiKey (now : ℤ) (apiKeyId : String) : Session ApiKey := do
  let apiKey ← getApiKey faults apiKeyId
  if apiKey.revokedAt = none then
    add (updateRevokedAt apiKey.id now)
    commit faults
    refresh faults
    return { apiKey with revokedAt := some now }
  else return apiKey

/-- The new row, its full token, and the old row if it was revoked. -/
def rotateApiKey (sha256 : Text → String) (draw : Draw) (now : ℤ) (id apiKeyId : String)
    (revokeOld : Bool) : Session (ApiKey × Text × Option ApiKey) := do
  let old ← getApiKey faults apiKeyId
  let (newKey, fullToken) ← createApiKey faults sha256 draw id old.clientId
    (old.name ++ " (rotated)".toList) none
  if revokeOld then
    let old ← revokeApiKey faults now old.id
    return (newKey, fullToken, some old)
  else return (newKey, fullToken, none)

/-! ## Steps of the calls -/

section Steps

variable {faults} {db working : Database} {pending : List (Write Database Exc)} {m n : ℕ}

/-- A lookup that finds its row is one operation. -/
theorem ensures_oneOr {α : Type} {read : Database → Option α} {exc : Exc} {row : α}
    (hrow : read db = some row) :
    Exec.Ensures (Reached faults m (.clean db n)) (oneOr faults read exc)
      (fun a c => Reached faults m (.clean db (n + 1)) c ∧ a = row) fun _ =>
      FailedAt faults db n := by
  refine (ensures_query read Write.sendAll_nil).bind fun a => ?_
  rintro c ⟨hreached, rfl⟩
  rw [hrow]
  exact ⟨hreached, rfl⟩

/-- A lookup that finds nothing raises, and nothing was committed. -/
theorem ensures_oneOr_none {α : Type} {read : Database → Option α} {exc : Exc}
    (hrow : read db = none) :
    Exec.Ensures (Reached faults m (.clean db n)) (oneOr faults read exc)
      (fun _ _ => False) fun _ c => c.committed = db := by
  refine ensures_query_bind Write.sendAll_nil (fun _ _ h => h.1) ?_
  rintro c ⟨rfl, -⟩
  rw [hrow]
  rfl

/-- What follows a query by primary key gets the row. -/
theorem ensures_found {α β : Type} {read : Database → Option α} {exc : Exc} {row : α}
    {f : α → Session β} {Q : β → Connection Database Exc → Prop}
    {E : Exc → Connection Database Exc → Prop} (hrow : read db = some row)
    (hE : ∀ exc c, FailedAt faults db n c → E exc c)
    (hf : Exec.Ensures (Reached faults m (.clean db (n + 1))) (f row) Q E) :
    Exec.Ensures (Reached faults m (.clean db n)) (oneOr faults read exc >>= f) Q E := by
  refine (ensures_oneOr hrow).bind_mono hE fun a => ?_
  rintro c ⟨hreached, rfl⟩
  exact hf c hreached

/-- New rows of `client_allowed_models` are sent if none of them is there, or twice among them. -/
theorem sendAll_allowedModels (rows : List ClientAllowedModel) (working : Database) :
    Write.sendAll (rows.map insertAllowedModel) working =
      if rows.Nodup ∧ ∀ row ∈ rows, row ∉ working.allowedModels then
        .ok { working with allowedModels := working.allowedModels ++ rows }
      else .error integrityError := by
  induction rows generalizing working with
  | nil =>
      rw [if_pos ⟨List.nodup_nil, List.forall_mem_nil _⟩, List.append_nil]
      rfl
  | cons row rows ih =>
      rw [List.map_cons]
      by_cases hmem : row ∈ working.allowedModels
      · rw [if_neg fun h => h.2 row List.mem_cons_self hmem]
        exact Write.sendAll_cons_refused (if_pos hmem) _
      · rw [Write.sendAll_cons_allowed (if_neg hmem)]
        -- the row is new, and the others must be new with it there
        have hiff : (rows.Nodup ∧ ∀ r ∈ rows, r ∉ working.allowedModels ++ [row]) ↔
            (row :: rows).Nodup ∧ ∀ r ∈ row :: rows, r ∉ working.allowedModels := by
          rw [List.nodup_cons, List.forall_mem_cons]
          simp only [List.mem_append, List.mem_singleton, not_or]
          constructor
          · rintro ⟨hnodup, hrows⟩
            exact ⟨⟨fun h => (hrows row h).2 rfl, hnodup⟩, hmem, fun r hr => (hrows r hr).1⟩
          · rintro ⟨⟨hnot, hnodup⟩, -, hrows⟩
            exact ⟨hnodup, fun r hr => ⟨hrows r hr, fun h => hnot (h ▸ hr)⟩⟩
        refine (ih _).trans (if_congr hiff ?_ rfl)
        change Except.ok { working with allowedModels := working.allowedModels ++ [row] ++
          rows } = _
        rw [List.append_assoc, List.singleton_append]

/-- The rows of a list of models are queued in order. -/
theorem ensures_addAll {α : Type} (write : α → Write Database Exc) (l : List α)
    (E : Exc → Connection Database Exc → Prop) :
    Exec.Ensures (Reached faults m ⟨db, working, pending, n⟩) (l.forM fun a => add (write a))
      (fun _ => Reached faults m ⟨db, working, pending ++ l.map write, n⟩) E := by
  induction l generalizing pending with
  | nil =>
      rw [List.map_nil, List.append_nil]
      exact Exec.Ensures.pure fun _ h => h
  | cons a l ih =>
      refine (ensures_add (write a) E).bind fun _ => ?_
      have hrest : Exec.Ensures (Reached faults m ⟨db, working, pending ++ [write a], n⟩) _ _ E :=
        ih
      rwa [List.append_assoc, List.singleton_append] at hrest

end Steps

/-! ## Calls that write, and calls that are refused -/

/-- The user can be created. -/
structure CreatesUser (id : String) (name : Text) (db : Database) : Prop where
  nonempty : strip name ≠ []
  fresh : ∀ u ∈ db.users, u.id ≠ id ∧ u.name ≠ strip name

/-- The client can be created. -/
structure CreatesClient (id userId : String) (name : Text) (allowedModels : Option (List Str))
    (db : Database) : Prop where
  nonempty : strip name ≠ []
  user : ∃ u ∈ db.users, u.id = userId
  fresh : ∀ c ∈ db.clients, c.id ≠ id ∧ ¬ (c.userId = userId ∧ c.name = strip name)
  distinct : (allowedModels.getD []).Nodup

/-- The key can be created. -/
structure CreatesApiKey (id clientId : String) (name : Text) (db : Database) : Prop where
  nonempty : strip name ≠ []
  client : ∃ c ∈ db.clients, c.id = clientId
  fresh : ∀ k ∈ db.apiKeys, k.id ≠ id

section Calls

variable {faults} {db : Database} {m n : ℕ}

/-- A `create_user` that the tables allow commits once. -/
theorem ensures_createUser {id : String} {name : Text} (h : CreatesUser id name db) (hm : m ≤ n) :
    Exec.Ensures (Reached faults m (.clean db n)) (createUser faults id name)
      (fun _ => Reached faults m
        (.clean { db with users := db.users ++ [⟨id, strip name⟩] } (n + 3)))
      fun _ => Raised faults m (n + 1) (n + 3) db
          (· = { db with users := db.users ++ [⟨id, strip name⟩] }) := by
  unfold createUser
  dsimp only
  rw [if_neg h.nonempty]
  refine ensures_query_bind Write.sendAll_nil (fun _ _ h => h.raised hm (Nat.le_succ n)) ?_
  have hnew : ¬ db.users.any (·.name = strip name) = true := by
    simpa using fun u hu => (h.fresh u hu).2
  have hallowed : (insertUser ⟨id, strip name⟩).refuse db = none := refuse_insertUser.mpr h.fresh
  rw [if_neg hnew]
  refine (ensures_add _ _).bind fun _ => ?_
  refine (ensures_commit_refresh _ (by omega) ?_).mono (fun _ h => h) (fun _ _ h => h.1)
    fun _ _ h => h
  exact (Write.sendAll_cons_allowed hallowed []).trans Write.sendAll_nil

/-- A `create_user` that they do not allow commits nothing. -/
theorem ensures_createUser_refused {id : String} {name : Text} (h : ¬ CreatesUser id name db) :
    Exec.Ensures (Reached faults m (.clean db n)) (createUser faults id name)
      (fun _ _ => False) fun _ c => c.committed = db := by
  unfold createUser
  dsimp only
  split
  · exact Exec.Ensures.raise fun c hreached => hreached.1 ▸ rfl
  · next hnonempty =>
      refine ensures_query_bind Write.sendAll_nil (fun _ _ h => h.1) ?_
      by_cases hexists : db.users.any (·.name = strip name) = true
      · rw [if_pos hexists]
        exact Exec.Ensures.raise fun c hreached => hreached.1 ▸ rfl
      · rw [if_neg hexists]
        refine (ensures_add _ _).bind fun _ => ?_
        -- the name is free, so the constraint can only refuse the id
        cases hrefuse : (insertUser ⟨id, strip name⟩).refuse db with
        | some exc =>
            exact (ensures_commit_refused (Write.sendAll_cons_refused hrefuse [])).bind
              fun _ _ hfalse => hfalse.elim
        | none => exact absurd ⟨hnonempty, refuse_insertUser.mp hrefuse⟩ h

/-- The database with a new client and its models. -/
def withClient (db : Database) (client : Client) (allowedModels : Option (List Str)) : Database :=
  { db with
    clients := db.clients ++ [client]
    allowedModels := Admin.setAllowedModels db.allowedModels client.id (allowedModels.getD []) }

/-- The rows that `_set_allowed_models` queues. -/
def modelRows (clientId : String) (allowedModels : Option (List Str)) : List ClientAllowedModel :=
  (allowedModels.getD []).map fun modelId => ⟨clientId, modelId⟩

/-- What `create_client` has sent before it sets the models. -/
def withoutModels (db : Database) (client : Client) : Database :=
  { db with
    clients := db.clients ++ [client]
    allowedModels := db.allowedModels.filter fun row => row.clientId ≠ client.id }

/-- The rows of the allowed models are sent unless a model comes twice. -/
theorem sendAll_modelRows (db : Database) (client : Client) (allowedModels : Option (List Str)) :
    Write.sendAll ((modelRows client.id allowedModels).map insertAllowedModel)
      (withoutModels db client) =
      if (allowedModels.getD []).Nodup then .ok (withClient db client allowedModels)
      else .error integrityError := by
  have hinjective : Function.Injective fun modelId => (⟨client.id, modelId⟩ : ClientAllowedModel) :=
    fun _ _ heq => (ClientAllowedModel.mk.inj heq).2
  have hiff : ((modelRows client.id allowedModels).Nodup ∧
      ∀ row ∈ modelRows client.id allowedModels, row ∉ (withoutModels db client).allowedModels) ↔
        (allowedModels.getD []).Nodup := by
    unfold modelRows
    rw [List.nodup_map_iff hinjective, and_iff_left_iff_imp]
    intro _ row hrow hmem
    obtain ⟨_, -, rfl⟩ := List.mem_map.mp hrow
    simpa using List.of_mem_filter hmem
  exact (sendAll_allowedModels _ _).trans (if_congr hiff rfl rfl)

/-- The part of `create_client` before its commit. -/
theorem ensures_setAllowedModels (client : Client) (allowedModels : Option (List Str)) :
    Exec.Ensures (Reached faults m ⟨db, { db with clients := db.clients ++ [client] }, [], n⟩)
      (setAllowedModels faults client.id allowedModels)
      (fun _ => Reached faults m ⟨db, withoutModels db client,
        (modelRows client.id allowedModels).map insertAllowedModel, n + 1⟩)
      fun _ => FailedAt faults db n := by
  unfold setAllowedModels modelRows
  rw [List.map_map]
  exact (ensures_execute _ Write.sendAll_nil).bind fun _ => ensures_addAll _ _ _

/-- A `create_client` that the tables allow commits once. -/
theorem ensures_createClient {id userId : String} {name : Text} {description : Option Text}
    {allowedModels : Option (List Str)} (h : CreatesClient id userId name allowedModels db)
    (hm : m ≤ n) :
    Exec.Ensures (Reached faults m (.clean db n))
      (createClient faults id userId name description allowedModels)
      (fun client => Reached faults m (.clean (withClient db client allowedModels) (n + 5)))
      fun _ => Raised faults m (n + 3) (n + 5) db
        (· = withClient db { id, userId, name := strip name, description } allowedModels) := by
  obtain ⟨found, hfound⟩ := exists_find? h.user
  have hfoundId : found.id = userId := key_of_find? hfound
  unfold createClient
  dsimp only
  rw [if_neg h.nonempty]
  refine ensures_found hfound (fun _ _ h => h.raised hm (by omega)) ?_
  rw [hfoundId]
  let client : Client := { id, userId, name := strip name, description }
  -- no constraint refuses the client, and the models are distinct
  have hallowed : (insertClient client).refuse db = none := refuse_insertClient.mpr h.fresh
  refine (ensures_add _ _).bind fun _ => ?_
  have hsend := (Write.sendAll_cons_allowed hallowed []).trans Write.sendAll_nil
  refine (ensures_flush hsend).bind_mono (fun _ _ h => h.raised (by omega) (by omega)) fun _ => ?_
  refine (ensures_setAllowedModels client allowedModels).bind_mono
    (fun _ _ h => h.raised (by omega) (by omega)) fun _ => ?_
  refine (ensures_commit_refresh client (by omega) ?_).mono (fun _ h => h) ?_ fun _ _ h => h
  · exact (sendAll_modelRows db client allowedModels).trans (if_pos h.distinct)
  · rintro a c ⟨hreached, rfl⟩
    exact hreached

/-- A `create_client` that they do not allow commits nothing. -/
theorem ensures_createClient_refused {id userId : String} {name : Text} {description : Option Text}
    {allowedModels : Option (List Str)} (h : ¬ CreatesClient id userId name allowedModels db) :
    Exec.Ensures (Reached faults m (.clean db n))
      (createClient faults id userId name description allowedModels)
      (fun _ _ => False) fun _ c => c.committed = db := by
  unfold createClient
  dsimp only
  split
  · exact Exec.Ensures.raise fun c hreached => hreached.1 ▸ rfl
  · next hnonempty =>
      cases hfind : db.users.find? fun u => u.id = userId with
      | none => exact (ensures_oneOr_none hfind).bind fun _ _ hfalse => hfalse.elim
      | some found =>
          have hfoundId : found.id = userId := key_of_find? hfind
          have hmem := List.mem_of_find?_eq_some hfind
          refine ensures_found hfind (fun _ _ h => h.1) ?_
          rw [hfoundId]
          let client : Client := { id, userId, name := strip name, description }
          refine (ensures_add _ _).bind fun _ => ?_
          -- the flush refuses the row of the client, or the commit the rows of its models
          cases hrefuse : (insertClient client).refuse db with
          | some exc =>
              exact (ensures_flush_refused (Write.sendAll_cons_refused hrefuse [])).bind
                fun _ _ hfalse => hfalse.elim
          | none =>
              -- only a model that is named twice is left
              have hrepeated : ¬ (allowedModels.getD []).Nodup := fun hdistinct =>
                h ⟨hnonempty, ⟨found, hmem, hfoundId⟩, refuse_insertClient.mp hrefuse, hdistinct⟩
              have hinserted := (Write.sendAll_cons_allowed hrefuse []).trans Write.sendAll_nil
              refine (ensures_flush hinserted).bind_mono (fun _ _ h => h.1) fun _ => ?_
              refine (ensures_setAllowedModels client allowedModels).bind_mono (fun _ _ h => h.1)
                fun _ => ?_
              have hsend := (sendAll_modelRows db client allowedModels).trans (if_neg hrepeated)
              exact (ensures_commit_refused hsend).bind fun _ _ hfalse => hfalse.elim

variable {sha256 : Text → String} {draw : Draw} {now : ℤ}

/-- The row of a new key. -/
def newApiKey (sha256 : Text → String) (draw : Draw) (id clientId : String) (name : Text)
    (expiresAt : Option ℤ) :
    ApiKey where
  id := id
  clientId := clientId
  name := strip name
  keyPrefix := visiblePrefix draw.token
  keyHash := sha256 draw.token
  expiresAt := expiresAt

/-- The database with a new key. -/
def withApiKey (db : Database) (apiKey : ApiKey) :
    Database := { db with apiKeys := db.apiKeys ++ [apiKey] }

/-- A `create_api_key` that the tables allow commits once. -/
theorem ensures_createApiKey {id clientId : String} {name : Text} {expiresAt : Option ℤ}
    (h : CreatesApiKey id clientId name db) (hm : m ≤ n) :
    Exec.Ensures (Reached faults m (.clean db n))
      (createApiKey faults sha256 draw id clientId name expiresAt) (fun a c => Reached faults m
          (.clean (withApiKey db (newApiKey sha256 draw id clientId name expiresAt)) (n + 3)) c ∧
        a = (newApiKey sha256 draw id clientId name expiresAt, draw.token))
      fun _ => Raised faults m (n + 1) (n + 3) db
        (· = withApiKey db (newApiKey sha256 draw id clientId name expiresAt)) := by
  obtain ⟨found, hfound⟩ := exists_find? h.client
  have hfoundId : found.id = clientId := key_of_find? hfound
  unfold createApiKey
  dsimp only
  rw [if_neg h.nonempty]
  refine ensures_found hfound (fun _ _ h => h.raised hm (by omega)) ?_
  rw [hfoundId]
  have hallowed :
      (insertApiKey (newApiKey sha256 draw id clientId name expiresAt)).refuse db = none :=
    refuse_insertApiKey.mpr h.fresh
  refine (ensures_add _ _).bind fun _ => ?_
  exact ensures_commit_refresh _ (by omega) (Write.sendAll_cons_allowed hallowed [])

/-- A `create_api_key` that they do not allow commits nothing. -/
theorem ensures_createApiKey_refused {id clientId : String} {name : Text} {expiresAt : Option ℤ}
    (h : ¬ CreatesApiKey id clientId name db) :
    Exec.Ensures (Reached faults m (.clean db n))
      (createApiKey faults sha256 draw id clientId name expiresAt) (fun _ _ => False) fun _ c =>
      c.committed = db := by
  unfold createApiKey
  dsimp only
  split
  · exact Exec.Ensures.raise fun c hreached => hreached.1 ▸ rfl
  · next hnonempty =>
      cases hfind : db.clients.find? fun c => c.id = clientId with
      | none => exact (ensures_oneOr_none hfind).bind fun _ _ hfalse => hfalse.elim
      | some found =>
          have hfoundId : found.id = clientId := key_of_find? hfind
          have hmem := List.mem_of_find?_eq_some hfind
          refine ensures_found hfind (fun _ _ h => h.1) ?_
          rw [hfoundId]
          refine (ensures_add _ _).bind fun _ => ?_
          -- the client is there, so only the id of the key can be taken
          cases hrefuse :
            (insertApiKey (newApiKey sha256 draw id clientId name expiresAt)).refuse db with
          | some exc =>
              exact (ensures_commit_refused (Write.sendAll_cons_refused hrefuse [])).bind
                fun _ _ hfalse => hfalse.elim
          | none =>
              exact absurd ⟨hnonempty, ⟨found, hmem, hfoundId⟩, refuse_insertApiKey.mp hrefuse⟩ h

/-- The database with a key revoked. -/
def withRevoked (db : Database) (apiKeyId : String) (now : ℤ) : Database :=
  db.updateApiKey apiKeyId fun k => { k with revokedAt := some now }

/-- The revocation of a key that is live. -/
theorem ensures_revokeApiKey {apiKeyId : String} {row : ApiKey}
    (hfind : db.apiKeys.find? (fun k => k.id = apiKeyId) = some row) (hlive : row.revokedAt = none)
    (hm : m ≤ n) :
    Exec.Ensures (Reached faults m (.clean db n)) (revokeApiKey faults now apiKeyId)
      (fun _ => Reached faults m (.clean (withRevoked db apiKeyId now) (n + 3)))
      fun _ => Raised faults m (n + 1) (n + 3) db (· = withRevoked db apiKeyId now) := by
  have hid : row.id = apiKeyId := key_of_find? hfind
  refine ensures_found hfind (fun _ _ h => h.raised hm (by omega)) ?_
  rw [if_pos hlive, hid]
  refine (ensures_add _ _).bind fun _ => ?_
  exact (ensures_commit_refresh _ (by omega) (Write.sendAll_cons_allowed rfl [])).mono
    (fun _ h => h) (fun _ _ h => h.1) fun _ _ h => h

/-- A key that is revoked already is only looked up. -/
theorem ensures_revokeApiKey_again {apiKeyId : String} {row : ApiKey}
    (hfind : db.apiKeys.find? (fun k => k.id = apiKeyId) = some row)
    (hrevoked : row.revokedAt ≠ none) :
    Exec.Ensures (Reached faults m (.clean db n)) (revokeApiKey faults now apiKeyId)
      (fun _ => Reached faults m (.clean db (n + 1))) fun _ => FailedAt faults db n := by
  refine ensures_found hfind (fun _ _ h => h) ?_
  rw [if_neg hrevoked]
  exact Exec.Ensures.pure fun _ h => h

/-- The revocation of an unknown key commits nothing. -/
theorem ensures_revokeApiKey_refused {apiKeyId : String}
    (hfind : db.apiKeys.find? (fun k => k.id = apiKeyId) = none) :
    Exec.Ensures (Reached faults m (.clean db n)) (revokeApiKey faults now apiKeyId)
      (fun _ _ => False) fun _ c => c.committed = db :=
  (ensures_oneOr_none hfind).bind fun _ _ hfalse => hfalse.elim

theorem withApiKey_ne (db : Database) (apiKey : ApiKey) : withApiKey db apiKey ≠ db := by
  intro heq
  have hlength := congrArg (fun db => db.apiKeys.length) heq
  simp [withApiKey] at hlength

theorem withRevoked_withApiKey_ne (db : Database) (apiKey : ApiKey) (apiKeyId : String) (now : ℤ) :
    withRevoked (withApiKey db apiKey) apiKeyId now ≠ db := by
  intro heq
  have hlength := congrArg (fun db => db.apiKeys.length) heq
  simp [withRevoked, withApiKey, Database.updateApiKey] at hlength

/-- The operations of a rotation of this key. -/
def rotateOperations (row : ApiKey) (revokeOld : Bool) : ℕ :=
  if revokeOld then if row.revokedAt = none then 7 else 5 else 4

/-- A rotation commits the new key first. -/
theorem ensures_rotateApiKey {id apiKeyId : String} {revokeOld : Bool} {row : ApiKey}
    (hfind : db.apiKeys.find? (fun k => k.id = apiKeyId) = some row)
    (h : CreatesApiKey id row.clientId (row.name ++ " (rotated)".toList) db) :
    Exec.Ensures (Reached faults 0 (.clean db 0))
      (rotateApiKey faults sha256 draw now id apiKeyId revokeOld)
      (fun _ _ => Clear faults 0 (rotateOperations row revokeOld))
      fun _ => Raised faults 0 2 (rotateOperations row revokeOld) db (· ≠ db) := by
  have hid : row.id = apiKeyId := key_of_find? hfind
  let apiKey := newApiKey sha256 draw id row.clientId (row.name ++ " (rotated)".toList) none
  have hfind' : (withApiKey db apiKey).apiKeys.find? (fun k => k.id = apiKeyId) = some row := by
    unfold withApiKey
    rw [List.find?_append, hfind]
    rfl
  refine ensures_found hfind (fun _ _ h => h.raised (Nat.le_refl 0) (by omega)) ?_
  refine (ensures_createApiKey h (Nat.zero_le 1)).bind_mono (fun _ _ hraised => ?_) fun b => ?_
  · refine hraised.mono ?_ ?_
    · rintro _ rfl
      exact withApiKey_ne _ _
    · unfold rotateOperations
      split_ifs <;> omega
  rintro c ⟨hreached, rfl⟩
  dsimp only
  -- from here on the new key is committed
  have hclear : Clear faults 0 4 := hreached.2
  have hfirst : Clear faults 0 3 := hclear.mono (Nat.le_refl 0) (by omega)
  cases revokeOld with
  | false => exact hclear
  | true =>
      rw [if_pos rfl, hid]
      by_cases hlive : row.revokedAt = none
      · have hoperations : rotateOperations row true = 7 := by simp [rotateOperations, hlive]
        rw [hoperations]
        refine (ensures_revokeApiKey hfind' hlive (Nat.zero_le 4)).bind_mono ?_ (fun _ => ?_)
          c hreached
        · rintro _ c' (⟨hsame, hlate⟩ | ⟨hchanged, _, hlate⟩)
          · refine .inr ⟨hsame ▸ withApiKey_ne _ _, hfirst, fun hall => hlate ?_⟩
            exact hall.mono (Nat.le_refl 0) (by omega)
          · exact .inr ⟨hchanged ▸ withRevoked_withApiKey_ne _ _ _ _, hfirst, hlate⟩
        · exact Exec.Ensures.pure fun _ h => h.2
      · have hoperations : rotateOperations row true = 5 := by simp [rotateOperations, hlive]
        rw [hoperations]
        refine (ensures_revokeApiKey_again hfind' hlive).bind_mono ?_ (fun _ => ?_) c hreached
        · rintro _ c' ⟨hsame, hfault⟩
          exact .inr ⟨hsame ▸ withApiKey_ne _ _, hfirst,
            not_clear_of_fault (Nat.zero_le 4) hfault (by omega)⟩
        · exact Exec.Ensures.pure fun _ h => h.2

/-- The rotation of a key that cannot be replaced commits nothing. -/
theorem ensures_rotateApiKey_refused {id apiKeyId : String} {revokeOld : Bool}
    (h : ∀ row, db.apiKeys.find? (fun k => k.id = apiKeyId) = some row →
      ¬ CreatesApiKey id row.clientId (row.name ++ " (rotated)".toList) db) :
    Exec.Ensures (Reached faults m (.clean db n))
      (rotateApiKey faults sha256 draw now id apiKeyId revokeOld) (fun _ _ => False) fun _ c =>
      c.committed = db := by
  cases hfind : db.apiKeys.find? fun k => k.id = apiKeyId with
  | none => exact (ensures_oneOr_none hfind).bind fun _ _ hfalse => hfalse.elim
  | some row =>
      refine ensures_found hfind (fun _ _ h => h.1) ?_
      exact (ensures_createApiKey_refused (h row hfind)).bind fun _ _ hfalse => hfalse.elim

/-! ## What changes -/

theorem withUser_ne (db : Database) (user : User) :
    { db with users := db.users ++ [user] } ≠ db := by
  intro heq
  have hlength := congrArg (fun db => db.users.length) heq
  simp at hlength

theorem withClient_ne (db : Database) (client : Client) (allowedModels : Option (List Str)) :
    withClient db client allowedModels ≠ db := by
  intro heq
  have hlength := congrArg (fun db => db.clients.length) heq
  simp [withClient] at hlength

theorem withRevoked_ne {apiKeyId : String} {row : ApiKey}
    (hfind : db.apiKeys.find? (fun k => k.id = apiKeyId) = some row)
    (hlive : row.revokedAt = none) :
    withRevoked db apiKeyId now ≠ db := by
  intro heq
  have hid : row.id = apiKeyId := key_of_find? hfind
  have hmem : row ∈ (withRevoked db apiKeyId now).apiKeys := by
    rw [heq]
    exact List.mem_of_find?_eq_some hfind
  -- every row with this id has been revoked
  obtain ⟨k, -, hk⟩ := List.mem_map.mp hmem
  split at hk
  · rw [← hk] at hlive
    cases hlive
  · next hother => exact hother (by rw [hk, hid])

end Calls

end SynGateway.Services.AdminSession

import Mathlib.Data.List.Nodup
import SynGateway.Common.Counting
import SynGateway.Common.Transition
import SynGateway.Core.Auth
import SynGateway.Services.Admin

/-!
# The life of an API key

Runs of the calls of `app/services/admin.py` that succeed, in any order and interleaved with
authentications.

`KeyRegistry` says what these calls are for: it knows the tokens that were given out, and for each
the client, the expiry and the time of revocation. It has no hashes and no rows. The database
implements it (`Implements`), which every step keeps, and an authentication answers what the
registry says (`key_lifecycle`).
-/

namespace SynGateway.Services.KeyLifecycle

open SynGateway.Core SynGateway.Core.ApiKeys SynGateway.Core.Auth SynGateway.Db SynGateway.Python
  SynGateway.Services.Admin SynGateway.Transition

/-! ## The registry -/

/-- A client that was created, with its list of models up to the order. -/
structure RegisteredClient where
  id : String
  userId : String
  allowedModels : Multiset Str
deriving DecidableEq

/-- A token that was given out. -/
structure IssuedKey where
  token : Text
  id : String
  clientId : String
  expiresAt : Option ℤ
  revokedAt : Option ℤ := none
deriving DecidableEq

/-- The clients that were created and the tokens that were given out, in order. -/
structure KeyRegistry where
  clients : List RegisteredClient := []
  keys : List IssuedKey := []

/-- The revocation of a key. A second one changes nothing. -/
def IssuedKey.revoke (key : IssuedKey) (now : ℤ) : IssuedKey :=
  { key with revokedAt := some (key.revokedAt.getD now) }

/-- The same key at a later time: nothing changes but that it may be revoked, once. -/
structure IssuedKey.Continues (key later : IssuedKey) : Prop where
  token : later.token = key.token
  id : later.id = key.id
  clientId : later.clientId = key.clientId
  expiresAt : later.expiresAt = key.expiresAt
  revokedAt : ∀ at₀, key.revokedAt = some at₀ → later.revokedAt = some at₀

theorem IssuedKey.Continues.refl (key : IssuedKey) : key.Continues key :=
  ⟨rfl, rfl, rfl, rfl, fun _ h => h⟩

theorem IssuedKey.Continues.trans {key later latest : IssuedKey} (h : key.Continues later)
    (h' : later.Continues latest) : key.Continues latest where
  token := h'.token.trans h.token
  id := h'.id.trans h.id
  clientId := h'.clientId.trans h.clientId
  expiresAt := h'.expiresAt.trans h.expiresAt
  revokedAt := fun at₀ hrevoked => h'.revokedAt at₀ (h.revokedAt at₀ hrevoked)

namespace KeyRegistry

def addClient (r : KeyRegistry) (client : RegisteredClient) : KeyRegistry :=
  { r with clients := r.clients ++ [client] }

def issue (r : KeyRegistry) (key : IssuedKey) : KeyRegistry := { r with keys := r.keys ++ [key] }

def revoke (r : KeyRegistry) (id : String) (now : ℤ) : KeyRegistry :=
  { r with keys := r.keys.map fun key => if key.id = id then key.revoke now else key }

/-- A new token for the client of an old key, which is revoked on request. -/
def rotate (r : KeyRegistry) (old : String) (token : Text) (id : String)
    (revokeOld : Bool) (now : ℤ) : KeyRegistry :=
  match r.keys.find? fun key => key.id = old with
  | none => r
  | some key =>
    let r := r.issue { token, id, clientId := key.clientId, expiresAt := none }
    if revokeOld then r.revoke old now else r

/-- The token may be used at `now`, as the token of `key`. -/
structure Admits (r : KeyRegistry) (t : Text) (now : ℤ) (key : IssuedKey) : Prop where
  issued : key ∈ r.keys
  token : key.token = t
  live : key.revokedAt = none
  current : ∀ expiresAt ∈ key.expiresAt, now < expiresAt

/-- A revocation keeps every key, but for a first time of revocation. -/
theorem exists_continues_revoke {r : KeyRegistry} {key : IssuedKey} (hmem : key ∈ r.keys)
    (id : String) (now : ℤ) : ∃ key' ∈ (r.revoke id now).keys, key.Continues key' := by
  refine ⟨_, List.mem_map_of_mem hmem, ?_⟩
  split_ifs
  · refine ⟨rfl, rfl, rfl, rfl, fun at₀ hrevoked => ?_⟩
    unfold IssuedKey.revoke
    rw [hrevoked, Option.getD_some]
  · exact .refl key

theorem mem_issue {r : KeyRegistry} {key : IssuedKey} (hmem : key ∈ r.keys) (key' : IssuedKey) :
    key ∈ (r.issue key').keys := List.mem_append_left _ hmem

end KeyRegistry

/-! ## The system -/

/-- The database, and what the calls so far have returned. -/
structure State where
  db : Database := {}
  registry : KeyRegistry := {}

/-- A call of the management plane, or an authentication. The ids, the secrets, the clock and
whether the commit of `last_used_at` goes through are its inputs. -/
inductive Op
  | createUser (id : String) (name : Text)
  | createClient (id userId : String) (name : Text) (description : Option Text)
      (allowedModels : Option (List Str))
  | createApiKey (draw : Draw) (id clientId : String) (name : Text) (expiresAt : Option ℤ)
  | revokeApiKey (now : ℤ) (apiKeyId : String)
  | rotateApiKey (draw : Draw) (now : ℤ) (id apiKeyId : String) (revokeOld : Bool)
  | authenticateRequest (now : ℤ) (commits : Bool) (authHeader : Option Text)
  | authenticateWithOrm (now : ℤ) (commits : Bool) (authHeader : Option Text)

/-- A call that succeeds, and what is recorded of its result. -/
def succeed {α : Type} (s : State) (call : Session α) (record : α → KeyRegistry) : Option State :=
  match call.run s.db with
  | (.ok a, db) => some { db, registry := record a }
  | (.error _, _) => none

variable (sha256 : Text → String)

/-- One call. An authentication may fail, a call of the management plane may not. -/
def step (s : State) : Op → Option State
  | .createUser id name => succeed s (createUser id name) fun _ => s.registry
  | .createClient id userId name description allowedModels =>
    succeed s (createClient id userId name description allowedModels) fun client =>
      s.registry.addClient
        { id := client.id, userId, allowedModels := (allowedModels.getD [] : List Str) }
  | .createApiKey draw id clientId name expiresAt =>
    succeed s (createApiKey sha256 draw id clientId name expiresAt) fun (apiKey, token) =>
      s.registry.issue { token, id := apiKey.id, clientId, expiresAt }
  | .revokeApiKey now apiKeyId =>
    succeed s (revokeApiKey now apiKeyId) fun _ => s.registry.revoke apiKeyId now
  | .rotateApiKey draw now id apiKeyId revokeOld =>
    succeed s (rotateApiKey sha256 draw now id apiKeyId revokeOld) fun (apiKey, token, _) =>
      s.registry.rotate apiKeyId token apiKey.id revokeOld now
  | .authenticateRequest now commits authHeader =>
    some { s with db := ((authenticateRequest { sha256, now, commits } authHeader).run s.db).2 }
  | .authenticateWithOrm now commits authHeader =>
    some { s with db := ((authenticateWithOrm { sha256, now, commits } authHeader).run s.db).2 }

/-- Generated tokens are fresh. -/
def Fresh (s : State) : Op → Prop
  | .createApiKey draw _ _ _ _ => ∀ key ∈ s.registry.keys, key.token ≠ draw.token
  | .rotateApiKey draw _ _ _ _ => ∀ key ∈ s.registry.keys, key.token ≠ draw.token
  | _ => True

/-! ## The database implements the registry -/

/-- What the registry says of a row of `api_keys`. -/
def rowView (k : ApiKey) : String × String × String × Option ℤ × Option ℤ :=
  (k.id, k.clientId, k.keyHash, k.expiresAt, k.revokedAt)

def IssuedKey.view (key : IssuedKey) : String × String × String × Option ℤ × Option ℤ :=
  (key.id, key.clientId, sha256 key.token, key.expiresAt, key.revokedAt)

/-- What the registry says of a row of `clients` and of its allowed models. -/
def clientView (db : Database) (c : Client) : RegisteredClient := ⟨c.id, c.userId, db.modelsOf c.id⟩

/-- The rows are those that the registry names, and the foreign keys hold. -/
structure Implements (db : Database) (r : KeyRegistry) : Prop where
  keys : db.apiKeys.map rowView = r.keys.map (IssuedKey.view sha256)
  clients : db.clients.map (clientView db) = r.clients
  keyIds : (r.keys.map (·.id)).Nodup
  tokens : (r.keys.map (·.token)).Nodup
  generated : ∀ key ∈ r.keys, ∃ draw : Draw, key.token = draw.token
  keyClients : ∀ k ∈ db.apiKeys, ∃ c ∈ db.clients, c.id = k.clientId
  clientIds : (db.clients.map (·.id)).Nodup
  clientUsers : ∀ c ∈ db.clients, ∃ u ∈ db.users, u.id = c.userId

variable {sha256} {db db' : Database} {r : KeyRegistry} {now : ℤ}

namespace Implements

/-- Every row is that of a token that was given out. -/
theorem exists_key (h : Implements sha256 db r) {k : ApiKey} (hk : k ∈ db.apiKeys) :
    ∃ key ∈ r.keys, key.view sha256 = rowView k := by
  have hmem : rowView k ∈ r.keys.map (IssuedKey.view sha256) := by
    rw [← h.keys]
    exact List.mem_map_of_mem hk
  exact List.mem_map.mp hmem

/-- Every token that was given out has its row. -/
theorem exists_row (h : Implements sha256 db r) {key : IssuedKey} (hkey : key ∈ r.keys) :
    ∃ k ∈ db.apiKeys, rowView k = key.view sha256 := by
  have hmem : key.view sha256 ∈ db.apiKeys.map rowView := by
    rw [h.keys]
    exact List.mem_map_of_mem hkey
  exact List.mem_map.mp hmem

theorem rowIds (h : Implements sha256 db r) : (db.apiKeys.map (·.id)).Nodup := by
  have heq : db.apiKeys.map (·.id) = r.keys.map (·.id) := by
    have hfst := congrArg (List.map Prod.fst) h.keys
    rwa [List.map_map, List.map_map] at hfst
  rw [heq]
  exact h.keyIds

/-- Rows with one id are one row. -/
theorem row_unique (h : Implements sha256 db r) {k k' : ApiKey} (hk : k ∈ db.apiKeys)
    (hk' : k' ∈ db.apiKeys) (hid : k.id = k'.id) : k = k' :=
  List.inj_on_of_nodup_map h.rowIds hk hk' hid

end Implements

/-- Empty tables implement the empty registry. -/
theorem implements_init : Implements sha256 {} {} where
  keys := rfl
  clients := rfl
  keyIds := List.nodup_nil
  tokens := List.nodup_nil
  generated := by simp
  keyClients := by simp
  clientIds := List.nodup_nil
  clientUsers := by simp

/-- A new user is in nobody's way. -/
theorem Implements.addUser (h : Implements sha256 db r) (user : User) :
    Implements sha256 { db with users := db.users ++ [user] } r where
  keys := h.keys
  clients := h.clients
  keyIds := h.keyIds
  tokens := h.tokens
  generated := h.generated
  keyClients := h.keyClients
  clientIds := h.clientIds
  clientUsers := by
    intro c hc
    obtain ⟨u, hu, hid⟩ := h.clientUsers c hc
    exact ⟨u, List.mem_append_left _ hu, hid⟩

/-- The models of a client after those of one client were set. -/
theorem modelsOf_setAllowedModels (db : Database) (clients : List Client) (id clientId : String)
    (allowed : List Str) :
    ({ db with
        clients
        allowedModels := setAllowedModels db.allowedModels id allowed } :
      Database).modelsOf clientId =
      if clientId = id then (allowed : Multiset Str) else db.modelsOf clientId := by
  unfold Database.modelsOf setAllowedModels
  dsimp only
  rw [List.filter_append, List.filter_filter, List.map_append]
  split_ifs with heq
  · subst heq
    -- the old models of the client are deleted before the new ones are inserted
    have hold :
        (db.allowedModels.filter fun row => row.clientId = clientId && row.clientId ≠ clientId) =
        [] := List.filter_eq_nil_iff.mpr fun row _ => by simp
    have hnew : ((allowed.map (ClientAllowedModel.mk clientId)).filter fun row =>
        row.clientId = clientId) = allowed.map (ClientAllowedModel.mk clientId) :=
      List.filter_eq_self.mpr fun row hrow => by
        obtain ⟨modelId, -, rfl⟩ := List.mem_map.mp hrow
        simp
    rw [hold, hnew, List.map_nil, List.nil_append, List.map_map]
    exact congrArg Multiset.ofList (List.map_id allowed)
  · have hold : (db.allowedModels.filter fun row => row.clientId = clientId && row.clientId ≠ id) =
        db.allowedModels.filter fun row => row.clientId = clientId :=
      List.filter_congr fun row _ => by
        by_cases hrow : row.clientId = clientId
        · simp [hrow, heq]
        · simp [hrow]
    have hnew : ((allowed.map (ClientAllowedModel.mk id)).filter fun row =>
        row.clientId = clientId) =
        [] := List.filter_eq_nil_iff.mpr fun row hrow => by
          obtain ⟨modelId, -, rfl⟩ := List.mem_map.mp hrow
          simpa using Ne.symm heq
    rw [hold, hnew, List.map_nil, List.append_nil]

/-- A new client changes no key of the registry. -/
theorem Implements.addClient (h : Implements sha256 db r) {client : Client} {allowed : List Str}
    (huser : ∃ user ∈ db.users, user.id = client.userId)
    (hfresh : ∀ c ∈ db.clients, c.id ≠ client.id) :
    Implements sha256
      { db with
        clients := db.clients ++ [client]
        allowedModels := setAllowedModels db.allowedModels client.id allowed }
      (r.addClient ⟨client.id, client.userId, allowed⟩) where
  keys := h.keys
  clients := by
    unfold KeyRegistry.addClient
    dsimp only
    rw [List.map_append, ← h.clients]
    congr 1
    -- The new models are filed under the new client's id, so no other client sees them.
    · refine List.map_congr_left fun c hc => ?_
      unfold clientView
      rw [modelsOf_setAllowedModels, if_neg (hfresh c hc)]
    · rw [List.map_singleton]
      unfold clientView
      rw [modelsOf_setAllowedModels, if_pos rfl]
  keyIds := h.keyIds
  tokens := h.tokens
  generated := h.generated
  keyClients := by
    intro k hk
    obtain ⟨c, hc, hid⟩ := h.keyClients k hk
    exact ⟨c, List.mem_append_left _ hc, hid⟩
  clientIds := by
    dsimp only
    rw [List.map_append, List.map_singleton, ← List.concat_eq_append]
    refine List.Nodup.concat (fun hmem => ?_) h.clientIds
    obtain ⟨c, hc, hid⟩ := List.mem_map.mp hmem
    exact hfresh c hc hid
  clientUsers := by
    intro c hc
    rcases List.mem_append.mp hc with hc | hc
    · exact h.clientUsers c hc
    · rw [List.mem_singleton] at hc
      rw [hc]
      exact huser

/-- A new key with a fresh token, for a client that exists. -/
theorem Implements.issue (h : Implements sha256 db r) {k : ApiKey} {key : IssuedKey} {draw : Draw}
    (hview : rowView k = key.view sha256) (htoken : key.token = draw.token)
    (hclient : ∃ c ∈ db.clients, c.id = k.clientId) (hid : ∀ k' ∈ db.apiKeys, k'.id ≠ k.id)
    (hfresh : ∀ key' ∈ r.keys, key'.token ≠ draw.token) :
    Implements sha256 { db with apiKeys := db.apiKeys ++ [k] } (r.issue key) where
  keys := by
    unfold KeyRegistry.issue
    dsimp only
    rw [List.map_append, List.map_append, h.keys, List.map_singleton, List.map_singleton, hview]
  clients := h.clients
  keyIds := by
    unfold KeyRegistry.issue
    dsimp only
    rw [List.map_append, List.map_singleton, ← List.concat_eq_append]
    refine List.Nodup.concat (fun hmem => ?_) h.keyIds
    obtain ⟨key', hkey', heq⟩ := List.mem_map.mp hmem
    obtain ⟨k', hk', hview'⟩ := h.exists_row hkey'
    -- the row of that key has the id of the new row
    apply hid k' hk'
    rwa [show k'.id = key'.id from congrArg Prod.fst hview',
      show k.id = key.id from congrArg Prod.fst hview]
  tokens := by
    unfold KeyRegistry.issue
    dsimp only
    rw [List.map_append, List.map_singleton, ← List.concat_eq_append]
    refine List.Nodup.concat (fun hmem => ?_) h.tokens
    obtain ⟨key', hkey', heq⟩ := List.mem_map.mp hmem
    exact hfresh key' hkey' (heq.trans htoken)
  generated := by
    intro key' hkey'
    rcases List.mem_append.mp hkey' with hkey' | hkey'
    · exact h.generated key' hkey'
    · rw [List.mem_singleton] at hkey'
      rw [hkey']
      exact ⟨draw, htoken⟩
  keyClients := by
    intro k' hk'
    rcases List.mem_append.mp hk' with hk' | hk'
    · exact h.keyClients k' hk'
    · rw [List.mem_singleton] at hk'
      rw [hk']
      exact hclient
  clientIds := h.clientIds
  clientUsers := h.clientUsers

/-- An update of some rows leaves a column that it does not write. -/
theorem map_update {α β : Type} {p : α → Prop} [DecidablePred p] {f : α → α} {column : α → β}
    (l : List α) (h : ∀ a, column (f a) = column a) :
    (l.map fun a => if p a then f a else a).map column = l.map column := by
  rw [List.map_map]
  refine List.map_congr_left fun a _ => ?_
  rw [Function.comp_apply]
  split_ifs
  · exact h a
  · rfl

/-- A change of keys that leaves their ids, their tokens and their clients alone. -/
theorem Implements.change (h : Implements sha256 db r) {rows : List ApiKey} {keys : List IssuedKey}
    (hviews : rows.map rowView = keys.map (IssuedKey.view sha256))
    (hids : keys.map (·.id) = r.keys.map (·.id))
    (htokens : keys.map (·.token) = r.keys.map (·.token))
    (hclients : rows.map (·.clientId) = db.apiKeys.map (·.clientId)) :
    Implements sha256 { db with apiKeys := rows } { r with keys } where
  keys := hviews
  clients := h.clients
  keyIds := by
    dsimp only
    rw [hids]
    exact h.keyIds
  tokens := by
    dsimp only
    rw [htokens]
    exact h.tokens
  generated := by
    intro key hkey
    -- the tokens are the old ones, and each was drawn
    have hmem : key.token ∈ r.keys.map (·.token) := by
      rw [← htokens]
      exact List.mem_map_of_mem hkey
    obtain ⟨key', hkey', htoken⟩ := List.mem_map.mp hmem
    rw [← htoken]
    exact h.generated key' hkey'
  keyClients := by
    intro k hk
    have hmem : k.clientId ∈ db.apiKeys.map (·.clientId) := by
      rw [← hclients]
      exact List.mem_map_of_mem hk
    obtain ⟨k', hk', hid⟩ := List.mem_map.mp hmem
    rw [← hid]
    exact h.keyClients k' hk'
  clientIds := h.clientIds
  clientUsers := h.clientUsers

/-- An authentication touches nothing that the registry knows. -/
theorem Implements.touched (h : Implements sha256 db r) (env : AuthEnv) (k : ApiKey) :
    Implements sha256 (Auth.touched env db k) r := by
  unfold Auth.touched
  split_ifs
  · refine h.change ?_ rfl rfl (map_update _ fun _ => rfl)
    rw [← h.keys]
    exact map_update _ fun _ => rfl
  · exact h

/-- What a revocation does to the view of a key. -/
def revokeView (id : String) (now : ℤ) (v : String × String × String × Option ℤ × Option ℤ) :
    String × String × String × Option ℤ × Option ℤ :=
  if v.1 = id then (v.1, v.2.1, v.2.2.1, v.2.2.2.1, some (v.2.2.2.2.getD now)) else v

/-- A revocation in the registry. -/
theorem view_revoke (r : KeyRegistry) (id : String) (now : ℤ) :
    (r.revoke id now).keys.map (IssuedKey.view sha256) =
      (r.keys.map (IssuedKey.view sha256)).map (revokeView id now) := by
  unfold KeyRegistry.revoke
  rw [List.map_map, List.map_map]
  refine List.map_congr_left fun key _ => ?_
  rw [Function.comp_apply, Function.comp_apply]
  by_cases heq : key.id = id
  · rw [if_pos heq, revokeView, if_pos (show (key.view sha256).1 = id from heq)]
    rfl
  · rw [if_neg heq, revokeView, if_neg (show (key.view sha256).1 ≠ id from heq)]

/-- A revocation in the table, of rows that were not revoked before. -/
theorem rowView_updateApiKey (now : ℤ) {id : String}
    (hnone : ∀ row ∈ db.apiKeys, row.id = id → row.revokedAt = none) :
    (db.updateApiKey id fun row => { row with revokedAt := some now }).apiKeys.map rowView =
      (db.apiKeys.map rowView).map (revokeView id now) := by
  unfold Database.updateApiKey
  rw [List.map_map, List.map_map]
  refine List.map_congr_left fun row hrow => ?_
  rw [Function.comp_apply, Function.comp_apply]
  by_cases heq : row.id = id
  · rw [if_pos heq, revokeView, if_pos (show (rowView row).1 = id from heq)]
    simp [rowView, hnone row hrow heq]
  · rw [if_neg heq, revokeView, if_neg (show (rowView row).1 ≠ id from heq)]

/-- A row that is revoked already stays as it is. -/
theorem revokeView_of_revoked {id : String} {row : ApiKey}
    (h : row.id = id → row.revokedAt ≠ none) :
    revokeView id now (rowView row) = rowView row := by
  by_cases heq : row.id = id
  · obtain ⟨revokedAt, hat⟩ := Option.ne_none_iff_exists'.mp (h heq)
    rw [revokeView, if_pos (show (rowView row).1 = id from heq)]
    simp [rowView, hat]
  · rw [revokeView, if_neg (show (rowView row).1 ≠ id from heq)]

/-- `revoke_api_key` revokes the key in the registry. -/
theorem Implements.revoke (h : Implements sha256 db r) {id : String} {k : ApiKey}
    (hrun : (revokeApiKey now id).run db = (.ok k, db')) :
    Implements sha256 db' (r.revoke id now) := by
  obtain ⟨old, hold, hid, hcase⟩ := revokeApiKey_eq_ok hrun
  -- the only row with this id is the one that was found
  have honly : ∀ row ∈ db.apiKeys, row.id = id → row = old := fun row hrow heq =>
    h.row_unique hrow hold (heq.trans hid.symm)
  have hkeys : (r.revoke id now).keys.map (IssuedKey.view sha256) =
      (db.apiKeys.map rowView).map (revokeView id now) := by
    rw [view_revoke, h.keys]
  have hids : (r.revoke id now).keys.map (·.id) = r.keys.map (·.id) := map_update _ fun _ => rfl
  have htokens : (r.revoke id now).keys.map (·.token) = r.keys.map (·.token) :=
    map_update _ fun _ => rfl
  rcases hcase with ⟨hnone, rfl⟩ | ⟨hsome, hdb⟩
  · have hunrevoked : ∀ row ∈ db.apiKeys, row.id = id → row.revokedAt = none :=
        fun row hrow heq => by
      rw [honly row hrow heq, hnone]
    exact h.change ((rowView_updateApiKey now hunrevoked).trans hkeys.symm) hids htokens
      (map_update _ fun _ => rfl)
  · have hrows : db.apiKeys.map rowView = (db.apiKeys.map rowView).map (revokeView id now) := by
      rw [List.map_map]
      refine List.map_congr_left fun row hrow => (revokeView_of_revoked fun heq => ?_).symm
      rwa [honly row hrow heq]
    rw [hdb]
    exact h.change (hrows.trans hkeys.symm) hids htokens rfl

/-! ## Every step keeps the implementation -/

/-- `create_api_key` issues a key in the registry. -/
theorem Implements.create (h : Implements sha256 db r) {draw : Draw} {id clientId : String}
    {name : Text} {expiresAt : Option ℤ} {apiKey : ApiKey} {token : Text}
    (hrun : (createApiKey sha256 draw id clientId name expiresAt).run db =
      (.ok (apiKey, token), db')) (hfresh : ∀ key ∈ r.keys, key.token ≠ draw.token) :
    Implements sha256 db' (r.issue { token, id := apiKey.id, clientId, expiresAt }) := by
  obtain ⟨hclient, hunique, rfl, ⟨hid, hclientId, hhash, hexpires, hrevoked⟩, rfl⟩ :=
    createApiKey_eq_ok hrun
  refine h.issue ?_ rfl ?_ ?_ hfresh
  · unfold rowView IssuedKey.view
    rw [hclientId, hhash, hexpires, hrevoked]
  · rwa [hclientId]
  · rwa [hid]

/-- `rotate_api_key` rotates the key in the registry. -/
theorem Implements.rotate (h : Implements sha256 db r) {draw : Draw} {id apiKeyId : String}
    {revokeOld : Bool} {apiKey : ApiKey} {token : Text} {old : Option ApiKey}
    (hrun : (rotateApiKey sha256 draw now id apiKeyId revokeOld).run db =
      (.ok (apiKey, token, old), db'))
    (hfresh : ∀ key ∈ r.keys, key.token ≠ draw.token) :
    Implements sha256 db' (r.rotate apiKeyId token apiKey.id revokeOld now) := by
  obtain ⟨row, hrow, hrowId, name, db₁, hcreate, hrest⟩ := rotateApiKey_eq_ok hrun
  obtain ⟨key, hkey, hview⟩ := h.exists_key hrow
  have hkeyId : key.id = apiKeyId := (congrArg Prod.fst hview).trans hrowId
  have hclientId : key.clientId = row.clientId := congrArg (fun v => v.2.1) hview
  -- ids are unique, so the registry finds the key of the row
  have hfind : (r.keys.find? fun key => key.id = apiKeyId) = some key := by
    obtain ⟨key', hfind⟩ : ∃ key', (r.keys.find? fun key => key.id = apiKeyId) = some key' :=
      Option.isSome_iff_exists.mp (List.find?_isSome.mpr ⟨key, hkey, by simpa using hkeyId⟩)
    have hkeyId' : key'.id = apiKeyId := key_of_find? hfind
    rw [hfind, List.inj_on_of_nodup_map h.keyIds (List.mem_of_find?_eq_some hfind) hkey
      (hkeyId'.trans hkeyId.symm)]
  have hissued := h.create hcreate hfresh
  unfold KeyRegistry.rotate
  rw [hfind]
  dsimp only
  rw [hclientId]
  split_ifs at hrest ⊢
  · obtain ⟨k, hrevoke⟩ := hrest
    exact hissued.revoke hrevoke
  · rw [hrest]
    exact hissued

/-- Whatever an authentication ends with, it has touched one key or nothing. -/
theorem authenticateRequest_state (env : AuthEnv) (header : Option Text) (db : Database) :
    ((authenticateRequest env header).run db).2 = db ∨
      ∃ k, ((authenticateRequest env header).run db).2 = Auth.touched env db k := by
  rw [authenticateRequest_eq]
  rcases hrun : (checkToken env header).run db with ⟨error | k, db'⟩
  · rw [Exec.run_bind_error hrun]
    exact .inl ((checkToken_preserves env header).ends hrun)
  · obtain rfl : db' = db := (checkToken_preserves env header).ends hrun
    obtain ⟨lastUsedAt, htouch⟩ := touch_run env db' k
    refine .inr ⟨k, ?_⟩
    rw [Exec.run_bind_ok hrun, Exec.run_bind_ok htouch, principal_run]
    split
    · rfl
    · split <;> rfl

/-- The two dependencies leave the same database. -/
theorem authenticateWithOrm_state (env : AuthEnv) (header : Option Text) (db : Database) :
    ((authenticateWithOrm env header).run db).2 = ((authenticateRequest env header).run db).2 := by
  rw [authenticateRequest_eq_map, map_eq_pure_bind]
  exact (Exec.view_bind id (fun _ => .pure _) db).symm

/-- Authentication changes nothing in the registry. -/
theorem Implements.authenticate (h : Implements sha256 db r) (env : AuthEnv)
    (header : Option Text) :
    Implements sha256 ((authenticateRequest env header).run db).2 r := by
  rcases authenticateRequest_state env header db with heq | ⟨k, heq⟩
  · rwa [heq]
  · rw [heq]
    exact h.touched env k

variable {s t : State} {op : Op}

theorem succeed_eq_some {α : Type} {call : Session α} {record : α → KeyRegistry}
    (h : succeed s call record = some t) :
    ∃ a, call.run s.db = (.ok a, t.db) ∧ t.registry = record a := by
  unfold succeed at h
  split at h
  · next a db hrun =>
      obtain rfl := Option.some.inj h
      exact ⟨a, hrun, rfl⟩
  · cases h

/-- One step. -/
theorem implements_step (h : Implements sha256 s.db s.registry) (hfresh : Fresh s op)
    (hstep : step sha256 s op = some t) : Implements sha256 t.db t.registry := by
  cases op with
  | createUser id name =>
      obtain ⟨user, hrun, hrecord⟩ := succeed_eq_some hstep
      rw [hrecord, (createUser_eq_ok hrun).2]
      exact h.addUser user
  | createClient id userId name description allowedModels =>
      obtain ⟨client, hrun, hrecord⟩ := succeed_eq_some hstep
      -- the new client has a new id, so no model was filed under it before
      obtain ⟨huser, hunique, hid, huserId, hdb⟩ := createClient_eq_ok hrun
      rw [hrecord, hdb, ← huserId, ← hid]
      rw [← hid] at hunique
      rw [← huserId] at huser
      exact h.addClient huser hunique
  | createApiKey draw id clientId name expiresAt =>
      obtain ⟨⟨apiKey, token⟩, hrun, hrecord⟩ := succeed_eq_some hstep
      rw [hrecord]
      exact h.create hrun hfresh
  | revokeApiKey now apiKeyId =>
      obtain ⟨k, hrun, hrecord⟩ := succeed_eq_some hstep
      rw [hrecord]
      exact h.revoke hrun
  | rotateApiKey draw now id apiKeyId revokeOld =>
      obtain ⟨⟨apiKey, token, old⟩, hrun, hrecord⟩ := succeed_eq_some hstep
      rw [hrecord]
      exact h.rotate hrun hfresh
  | authenticateRequest now commits authHeader =>
      obtain rfl := Option.some.inj hstep
      exact h.authenticate _ authHeader
  | authenticateWithOrm now commits authHeader =>
      obtain rfl := Option.some.inj hstep
      dsimp only
      rw [authenticateWithOrm_state]
      exact h.authenticate _ authHeader

/-- **The database implements the registry** in every state that a run reaches. -/
theorem Reach.implements (h : Reach (step sha256) Fresh {} s) : Implements sha256 s.db s.registry :=
  h.invariant (I := fun s => Implements sha256 s.db s.registry) implements_init
    fun _ _ _ => implements_step

/-! ## Keys stay as they were given out -/

/-- One step keeps every key, but for a first time of revocation. -/
theorem continues_step {key : IssuedKey} (hmem : key ∈ s.registry.keys)
    (hstep : step sha256 s op = some t) :
    ∃ key' ∈ t.registry.keys, key.Continues key' := by
  cases op with
  | createUser id name =>
      obtain ⟨user, -, hrecord⟩ := succeed_eq_some hstep
      rw [hrecord]
      exact ⟨key, hmem, .refl key⟩
  | createClient id userId name description allowedModels =>
      obtain ⟨client, -, hrecord⟩ := succeed_eq_some hstep
      rw [hrecord]
      exact ⟨key, hmem, .refl key⟩
  | createApiKey draw id clientId name expiresAt =>
      obtain ⟨⟨apiKey, token⟩, -, hrecord⟩ := succeed_eq_some hstep
      rw [hrecord]
      exact ⟨key, KeyRegistry.mem_issue hmem _, .refl key⟩
  | revokeApiKey now apiKeyId =>
      obtain ⟨k, -, hrecord⟩ := succeed_eq_some hstep
      rw [hrecord]
      exact KeyRegistry.exists_continues_revoke hmem apiKeyId now
  | rotateApiKey draw now id apiKeyId revokeOld =>
      obtain ⟨⟨apiKey, token, old⟩, -, hrecord⟩ := succeed_eq_some hstep
      rw [hrecord]
      dsimp only [KeyRegistry.rotate]
      split
      · exact ⟨key, hmem, .refl key⟩
      · split_ifs
        · -- the rotated key is revoked, and goes on as a revoked one
          exact KeyRegistry.exists_continues_revoke (KeyRegistry.mem_issue hmem _) apiKeyId now
        · exact ⟨key, KeyRegistry.mem_issue hmem _, .refl key⟩
  | authenticateRequest now commits authHeader =>
      obtain rfl := Option.some.inj hstep
      exact ⟨key, hmem, .refl key⟩
  | authenticateWithOrm now commits authHeader =>
      obtain rfl := Option.some.inj hstep
      exact ⟨key, hmem, .refl key⟩

/-- So does a run, and the database implements the registry in its last state too. -/
theorem continues_reach (h : Implements sha256 s.db s.registry) {key : IssuedKey}
    (hmem : key ∈ s.registry.keys) (hreach : Reach (step sha256) Fresh s t) :
    Implements sha256 t.db t.registry ∧ ∃ key' ∈ t.registry.keys, key.Continues key' :=
  hreach.invariant
    (I := fun s => Implements sha256 s.db s.registry ∧ ∃ key' ∈ s.registry.keys, key.Continues key')
    ⟨h, key, hmem, .refl key⟩ fun _ _ _ ⟨himpl, _, hmem', hcontinues⟩ hfresh hstep => by
      obtain ⟨key'', hmem'', hcontinues'⟩ := continues_step hmem' hstep
      exact ⟨implements_step himpl hfresh hstep, key'', hmem'', hcontinues.trans hcontinues'⟩

/-! ## What an authentication answers -/

/-- The times at which a row may be used, read off the registry. -/
theorem isExpired_eq_false {k : ApiKey} :
    isExpired k now = false ↔ ∀ expiresAt ∈ k.expiresAt, now < expiresAt := by
  unfold isExpired
  split
  · next h => simp [h]
  · next expiresAt h => simp [h]

/-- A token finds the row of its key, and no other. -/
theorem Implements.found (h : Implements sha256 db r) {key : IssuedKey} (hkey : key ∈ r.keys)
    (hinj : Set.InjOn sha256 {u | ∃ key ∈ r.keys, key.token = u}) :
    ∃ k ∈ db.apiKeys, rowView k = key.view sha256 ∧
      (db.apiKeys.filter fun k => k.keyHash = sha256 key.token) = [k] := by
  obtain ⟨k, hk, hview⟩ := h.exists_row hkey
  have hhash : k.keyHash = sha256 key.token := congrArg (fun v => v.2.2.1) hview
  refine ⟨k, hk, hview,
    Counting.filter_eq_singleton (.of_map _ h.rowIds) hk (by simp [hhash]) fun k' hk' hhash' => ?_⟩
  -- the tokens of two rows with one hash are equal, so the keys are
  obtain ⟨key', hkey', hview'⟩ := h.exists_key hk'
  have htoken : key'.token = key.token := by
    refine hinj ⟨key', hkey', rfl⟩ ⟨key, hkey, rfl⟩ ?_
    rw [show sha256 key'.token = k'.keyHash from congrArg (fun v => v.2.2.1) hview']
    simpa using hhash'
  have heq : key' = key := List.inj_on_of_nodup_map h.tokens hkey' hkey htoken
  refine h.row_unique hk' hk ?_
  rw [show k'.id = key'.id from (congrArg Prod.fst hview').symm, heq]
  exact (congrArg Prod.fst hview).symm

/-- The row of a token that the registry admits passes the check. -/
theorem Implements.checked_of_admits (h : Implements sha256 db r) {env : AuthEnv}
    (hsha : env.sha256 = sha256) {t : Text} {key : IssuedKey}
    (hinj : Set.InjOn sha256 {u | ∃ key ∈ r.keys, key.token = u})
    (hadmits : r.Admits t env.now key) :
    ∃ k ∈ db.apiKeys, rowView k = key.view sha256 ∧ Checked env db t k := by
  obtain ⟨k, hk, hview, hfound⟩ := h.found hadmits.issued hinj
  have hexpires : k.expiresAt = key.expiresAt := congrArg (fun v => v.2.2.2.1) hview
  have hrevoked : k.revokedAt = key.revokedAt := congrArg (fun v => v.2.2.2.2) hview
  refine ⟨k, hk, hview, ?_, ?_, ?_⟩
  · rw [hsha, ← hadmits.token]
    exact hfound
  · rw [hrevoked, hadmits.live]
  · rw [isExpired_eq_false, hexpires]
    exact hadmits.current

/-- A row that passes the check is that of a token which the registry admits. -/
theorem Implements.admits_of_checked (h : Implements sha256 db r) {env : AuthEnv}
    (hsha : env.sha256 = sha256) {t : Text} {k : ApiKey}
    (hinj : Set.InjOn sha256 (insert t {u | ∃ key ∈ r.keys, key.token = u}))
    (hchecked : Checked env db t k) :
    ∃ key, r.Admits t env.now key ∧ key.view sha256 = rowView k := by
  have hmem : k ∈ db.apiKeys.filter fun k => k.keyHash = env.sha256 t := by
    rw [hchecked.found]
    exact List.mem_singleton_self k
  obtain ⟨hk, hhash⟩ := List.mem_filter.mp hmem
  obtain ⟨key, hkey, hview⟩ := h.exists_key hk
  refine ⟨key, ⟨hkey, ?_, ?_, ?_⟩, hview⟩
  · refine hinj (.inr ⟨key, hkey, rfl⟩) (.inl rfl) ?_
    rw [show sha256 key.token = k.keyHash from congrArg (fun v => v.2.2.1) hview, ← hsha]
    simpa using hhash
  · rw [show key.revokedAt = k.revokedAt from congrArg (fun v => v.2.2.2.2) hview, hchecked.live]
  · rw [show key.expiresAt = k.expiresAt from congrArg (fun v => v.2.2.2.1) hview]
    exact isExpired_eq_false.mp hchecked.current

/-- What an authentication with the token of a key gives, and the database that it leaves. -/
structure Grants (s : State) (now : ℤ) (key : IssuedKey) (principal : AuthenticatedPrincipal)
    (db' : Database) : Prop where
  apiKeyId : principal.apiKeyId = key.id
  clientId : principal.clientId = key.clientId
  client : ∃ client ∈ s.registry.clients, client.id = key.clientId ∧
    principal.userId = client.userId ∧
    principal.allowedModels = if client.allowedModels = 0 then none else some client.allowedModels
  touched : db' = s.db ∨
    db' = s.db.updateApiKey key.id fun k => { k with lastUsedAt := some now }

/-- The client and the user of every key exist, and the principal carries them. -/
theorem Implements.grants (h : Implements sha256 s.db s.registry) (env : AuthEnv) {k : ApiKey}
    {key : IssuedKey} (hk : k ∈ s.db.apiKeys) (hview : rowView k = key.view sha256) :
    ∃ client user, s.db.clientOf k = some client ∧ s.db.userOf client = some user ∧
      Grants s env.now key (principalOf s.db k client user) (Auth.touched env s.db k) := by
  have hid : k.id = key.id := congrArg Prod.fst hview
  have hclientId : k.clientId = key.clientId := congrArg (fun v => v.2.1) hview
  -- a key has a client and a client has a user, by the foreign keys
  obtain ⟨c, hc, hcid⟩ := h.keyClients k hk
  obtain ⟨client, hclient⟩ : ∃ client, s.db.clientOf k = some client :=
    Option.isSome_iff_exists.mp (List.find?_isSome.mpr ⟨c, hc, by simpa using hcid⟩)
  have hmem : client ∈ s.db.clients := List.mem_of_find?_eq_some hclient
  have hclientKey : client.id = k.clientId := key_of_find? hclient
  obtain ⟨u, hu, huid⟩ := h.clientUsers client hmem
  obtain ⟨user, huser⟩ : ∃ user, s.db.userOf client = some user :=
    Option.isSome_iff_exists.mp (List.find?_isSome.mpr ⟨u, hu, by simpa using huid⟩)
  have huserId : user.id = client.userId := key_of_find? huser
  refine ⟨client, user, hclient, huser, hid, hclientKey.trans hclientId, ?_, ?_⟩
  · refine ⟨clientView s.db client, ?_, hclientKey.trans hclientId, huserId, rfl⟩
    rw [← h.clients]
    exact List.mem_map_of_mem hmem
  · unfold Auth.touched
    split_ifs
    · exact .inr (by rw [hid])
    · exact .inl rfl

/-- **Authentication answers what the registry says.** -/
theorem Implements.authenticates (h : Implements sha256 s.db s.registry) (env : AuthEnv)
    (hsha : env.sha256 = sha256) (hdatabase : env.database = true) {t : Text}
    (ht : ∀ c ∈ t, isSpace c = false)
    (hinj : Set.InjOn sha256 (insert t {u | ∃ key ∈ s.registry.keys, key.token = u})) :
    (∃ key principal, s.registry.Admits t env.now key ∧
        ((authenticateRequest env (some (bearer t))).run s.db).1 = .ok principal ∧
        Grants s env.now key principal ((authenticateRequest env (some (bearer t))).run s.db).2) ∨
      (∀ key, ¬ s.registry.Admits t env.now key) ∧
        ∃ error, (authenticateRequest env (some (bearer t))).run s.db = (.error error, s.db) := by
  by_cases hadmits : ∃ key, s.registry.Admits t env.now key
  · obtain ⟨key, hkey⟩ := hadmits
    obtain ⟨k, hk, hview, hchecked⟩ :=
      h.checked_of_admits hsha (hinj.mono (Set.subset_insert _ _)) hkey
    obtain ⟨draw, hdraw⟩ := h.generated key hkey.issued
    -- only tokens that were drawn are registered, and these are well formed
    have hvalid : isValidFormat t = true := by
      rw [← hkey.token, hdraw]
      exact isValidFormat_token draw
    have hcheck : (checkToken env (some (bearer t))).run s.db = (.ok k, s.db) :=
      checkToken_eq_ok.mpr ⟨rfl, hdatabase, t,
        (extractBearerToken_bearer ht).mpr ⟨rfl, rfl, hvalid⟩, hchecked⟩
    obtain ⟨client, user, hclient, huser, hgrants⟩ := h.grants env hk hview
    have hrun := authenticateRequest_of_checked hcheck hclient huser
    refine .inl ⟨key, principalOf s.db k client user, hkey, ?_, ?_⟩
    · rw [hrun]
    · rw [hrun]
      exact hgrants
  · refine .inr ⟨fun key hkey => hadmits ⟨key, hkey⟩,
      authenticateRequest_of_unchecked fun k hcheck => ?_⟩
    obtain ⟨-, -, token, htoken, hchecked⟩ := checkToken_eq_ok.mp hcheck
    obtain ⟨rfl, -, -⟩ := (extractBearerToken_bearer ht).mp htoken
    obtain ⟨key, hkey, -⟩ := h.admits_of_checked hsha hinj hchecked
    exact hadmits ⟨key, hkey⟩

/-- Whatever header it comes with, a key that authenticates is not revoked. -/
theorem live_of_authenticates {env : AuthEnv} {header : Option Text}
    {principal : AuthenticatedPrincipal}
    (hrun : (authenticateRequest env header).run db = (.ok principal, db')) :
    ∃ k ∈ db.apiKeys, k.id = principal.apiKeyId ∧ k.revokedAt = none := by
  rw [authenticateRequest_eq] at hrun
  obtain ⟨k, db₁, hcheck, hrest⟩ := Exec.run_bind_eq_ok.mp hrun
  obtain ⟨rfl, -, token, -, hchecked⟩ := checkToken_eq_ok.mp hcheck
  obtain ⟨lastUsedAt, htouch⟩ := touch_run env db₁ k
  rw [Exec.run_bind_ok htouch] at hrest
  obtain ⟨-, client, user, -, -, rfl⟩ := principal_eq_ok.mp hrest
  refine ⟨k, ?_, rfl, hchecked.live⟩
  have hmem : k ∈ db₁.apiKeys.filter fun k => k.keyHash = env.sha256 token := by
    rw [hchecked.found]
    exact List.mem_singleton_self k
  exact List.mem_of_mem_filter hmem

/-- A revoked row stays revoked, with its time, in whatever follows. -/
theorem revoked_forever (h : Implements sha256 s.db s.registry) {k : ApiKey} (hk : k ∈ s.db.apiKeys)
    {at₀ : ℤ} (hrevoked : k.revokedAt = some at₀) (hreach : Reach (step sha256) Fresh s t) :
    (∃ k' ∈ t.db.apiKeys, k'.id = k.id) ∧
      ∀ k' ∈ t.db.apiKeys, k'.id = k.id → k'.revokedAt = some at₀ := by
  obtain ⟨key, hkey, hview⟩ := h.exists_key hk
  have hkeyRevoked : key.revokedAt = some at₀ :=
    (congrArg (fun v => v.2.2.2.2) hview).trans hrevoked
  have hkeyId : key.id = k.id := congrArg Prod.fst hview
  obtain ⟨ht, key', hmem, hcontinues⟩ := continues_reach h hkey hreach
  obtain ⟨row, hrow, hrowView⟩ := ht.exists_row hmem
  have hrowId : row.id = k.id := (congrArg Prod.fst hrowView).trans (hcontinues.id.trans hkeyId)
  refine ⟨⟨row, hrow, hrowId⟩, fun k' hk' hid => ?_⟩
  rw [ht.row_unique hk' hrow (hid.trans hrowId.symm),
    show row.revokedAt = key'.revokedAt from congrArg (fun v => v.2.2.2.2) hrowView]
  exact hcontinues.revokedAt at₀ hkeyRevoked

/-- **The life of an API key.** In every state that a run reaches, a token without white space
authenticates exactly when it was given out and its key is neither revoked nor expired; the
principal is that of the key, and nothing changes but the time of its last use. The two dependencies
agree. A revoked key keeps its time of revocation and authenticates nobody in any later state. -/
theorem key_lifecycle (h : Reach (step sha256) Fresh {} s) :
    (∀ (now : ℤ) (commits : Bool) (t : Text), (∀ c ∈ t, isSpace c = false) →
      Set.InjOn sha256 (insert t {u | ∃ key ∈ s.registry.keys, key.token = u}) →
      let run := (authenticateRequest ⟨sha256, true, now, commits⟩ (some (bearer t))).run s.db
      ((∃ principal, run.1 = .ok principal) ↔ ∃ key, s.registry.Admits t now key) ∧
        (∀ principal, run.1 = .ok principal →
          ∃ key, s.registry.Admits t now key ∧ Grants s now key principal run.2) ∧
        ∀ error, run.1 = .error error → run.2 = s.db) ∧
    (∀ env header, (authenticateRequest env header).run s.db =
      (((authenticateWithOrm env header).run s.db).1.map Prod.fst,
        ((authenticateWithOrm env header).run s.db).2)) ∧
    ∀ k ∈ s.db.apiKeys, ∀ at₀, k.revokedAt = some at₀ → ∀ later, Reach (step sha256) Fresh s later →
      (∃ k' ∈ later.db.apiKeys, k'.id = k.id) ∧
        (∀ k' ∈ later.db.apiKeys, k'.id = k.id → k'.revokedAt = some at₀) ∧
        ∀ env header principal db', (authenticateRequest env header).run later.db =
          (.ok principal, db') →
          principal.apiKeyId ≠ k.id := by
  have himpl : Implements sha256 s.db s.registry := Reach.implements h
  refine ⟨fun now commits t ht hinj => ?_, fun env header => ?_,
    fun k hk at₀ hrevoked later hlater => ?_⟩
  · dsimp only
    rcases himpl.authenticates ⟨sha256, true, now, commits⟩ rfl rfl ht hinj with
      ⟨key, principal, hadmits, hok, hgrants⟩ | ⟨hnone, error, hrun⟩
    · refine ⟨⟨fun _ => ⟨key, hadmits⟩, fun _ => ⟨principal, hok⟩⟩, fun principal' hok' => ?_,
        fun error herror => ?_⟩
      · rw [hok] at hok'
        rw [← Except.ok.inj hok']
        exact ⟨key, hadmits, hgrants⟩
      · rw [hok] at herror
        cases herror
    · rw [hrun]
      refine ⟨⟨?_, fun ⟨key, hadmits⟩ => absurd hadmits (hnone key)⟩, ?_, fun _ _ => rfl⟩
      · rintro ⟨principal, hok⟩
        cases hok
      · intro principal hok
        cases hok
  · rw [authenticateRequest_eq_map, map_eq_pure_bind]
    rcases hrun : (authenticateWithOrm env header).run s.db with ⟨error | result, db'⟩
    · rw [Exec.run_bind_error hrun]
      rfl
    · rw [Exec.run_bind_ok hrun]
      rfl
  -- What authenticates is live, and the revoked key never is again.
  · obtain ⟨hexists, hall⟩ := revoked_forever himpl hk hrevoked hlater
    refine ⟨hexists, hall, fun env header principal db' hrun hid => ?_⟩
    obtain ⟨k', hk', hid', hlive⟩ := live_of_authenticates hrun
    rw [hall k' hk' (hid'.trans hid)] at hlive
    cases hlive

theorem isAlphanum_a : 'a'.isAlphanum = true := rfl

theorem isAlphanum_b : 'b'.isAlphanum = true := rfl

/-- Secrets for one more token. -/
def sampleDraw (c : Char) (h : c.isAlphanum = true) : Draw where
  publicPart := List.replicate 8 c
  secretSuffix := List.replicate 43 c
  public_length := List.length_replicate
  public_alphabet := by
    intro d hd
    rw [List.eq_of_mem_replicate hd]
    exact h
  secret_length := List.length_replicate
  secret_alphabet := by
    intro d hd
    rw [List.eq_of_mem_replicate hd]
    unfold isUrlSafe
    rw [h]
    rfl

/-- A user, a client, a key and its rotation, which keeps the old key. -/
def sampleOps : List Op :=
  [.createUser "u" ['u'], .createClient "c" "u" ['c'] none (some [[109]]),
    .createApiKey (sampleDraw 'a' isAlphanum_a) "k" "c" ['k'] (some 10),
    .rotateApiKey (sampleDraw 'b' isAlphanum_b) 5 "l" "k" true]

/-- The state that they lead to. -/
def sampleState : State := (run (step String.ofList) {} sampleOps).getD {}

theorem reach_sampleState : Reach (step String.ofList) Fresh {} sampleState := by
  refine Reach.init.of_run (show run _ _ sampleOps = some sampleState from rfl) ?_
  refine ⟨trivial, trivial, ?_, ?_, trivial⟩
  · intro key hkey
    cases hkey
  · intro key hkey
    obtain rfl := List.mem_singleton.mp hkey
    change (sampleDraw 'a' isAlphanum_a).token ≠ (sampleDraw 'b' isAlphanum_b).token
    decide

/-- The new key authenticates, the old one does not any more. -/
theorem key_lifecycle_rotated : Reach (step String.ofList) Fresh {} sampleState ∧
    (∃ principal, ((authenticateRequest ⟨String.ofList, true, 7, true⟩
      (some (bearer (sampleDraw 'b' isAlphanum_b).token))).run sampleState.db).1 = .ok principal) ∧
    ¬ ∃ principal, ((authenticateRequest ⟨String.ofList, true, 7, true⟩
      (some (bearer (sampleDraw 'a' isAlphanum_a).token))).run sampleState.db).1 =
      .ok principal := by
  have hlife := (key_lifecycle reach_sampleState).1 7 true
  have hinj : ∀ S, Set.InjOn String.ofList S := fun S s _ t _ h => String.ofList_injective h
  refine ⟨reach_sampleState, ?_, ?_⟩
  · refine (hlife _ (not_space_token _) (hinj _)).1.mpr ⟨_,
      List.mem_cons_of_mem _ List.mem_cons_self, rfl, rfl, ?_⟩
    rintro _ ⟨⟩
  · rw [(hlife _ (not_space_token _) (hinj _)).1]
    rintro ⟨key, hmem, htoken, hlive, -⟩
    have hkeys : sampleState.registry.keys =
        [⟨(sampleDraw 'a' isAlphanum_a).token, "k", "c", some 10, some 5⟩,
          ⟨(sampleDraw 'b' isAlphanum_b).token, "l", "c", none, none⟩] := rfl
    rw [hkeys] at hmem
    -- the old key is revoked and the new one has another token
    rcases List.mem_pair.mp hmem with rfl | rfl
    · cases hlive
    · revert htoken
      decide

end SynGateway.Services.KeyLifecycle

import SynGateway.Api.Admin.ClientPolicy
import SynGateway.Core.Auth
import SynGateway.Python.TwoRuns

/-!
# The endpoints of the management plane

The users, clients and API keys of `app/api/admin.py`, with what each endpoint logs and answers, and
the authentication of `app/core/auth.py` with what it logs. `serve` answers one call after the
other; the secrets that the calls draw are numbered, so that a run can be repeated with other
secrets.

Of the rows, the columns of `Db.Models` are shown. The columns `status`, `created_at` and
`updated_at`, which the responses copy as well, are left out of them; a list is in the order of
`created_at`.
-/

namespace SynGateway.Api.Admin.Management

open SynGateway.Core SynGateway.Core.ApiKeys SynGateway.Core.Auth SynGateway.Db SynGateway.Python

/-- The database, and the log of the process. -/
structure Plane where
  database : Database := {}
  log : List Text := []

/-- A handler of a request. -/
abbrev Endpoint (α : Type) := Exec Exc Plane α

/-- A call of a function that works on a session. -/
def onSession {α : Type} (call : Exec Exc Database α) : Endpoint α :=
  Exec.zoom Plane.database (fun database s => { s with database }) id call

/-- `logger.info`, or `logger.debug`. -/
def logInfo (line : List Text) :
    Endpoint Unit := Exec.modify fun s => { s with log := s.log ++ [line.flatten] }

/-! ## Users and clients -/

/-- `UserOut`, without `status`, `created_at` and `updated_at`. -/
structure UserOut where
  id : String
  name : Text
deriving DecidableEq

/-- `UserOut(...)` for a row. -/
def UserOut.of (user : User) : UserOut where
  id := user.id
  name := user.name

def createUser (id : String) (name : Text) : Endpoint UserOut := do
  let user ← onSession (Services.Admin.createUser id name)
  logInfo ["admin: created user (user_id=".toList, user.id.toList, ", name=".toList, user.name,
    ")".toList]
  return .of user

def listUsers (createdAt : String → ℤ) : Endpoint (List UserOut) := do
  let users ← onSession (Services.Admin.listUsers createdAt)
  return users.map .of

/-- `ClientOut`, without `status`, `created_at` and `updated_at`. The models are in no particular
order. -/
structure ClientOut where
  id : String
  userId : String
  name : Text
  description : Option Text
  allowedModels : Multiset Str
deriving DecidableEq

/-- `ClientOut(...)` for a row and the models of the client. -/
def ClientOut.of (client : Client) (allowed : Multiset Str) : ClientOut where
  id := client.id
  userId := client.userId
  name := client.name
  description := client.description
  allowedModels := allowed

def createClient (id userId : String) (name : Text) (description : Option Text)
    (allowedModels : Option (List Str)) : Endpoint ClientOut := do
  let client ← onSession (Services.Admin.createClient id userId name description allowedModels)
  let allowed ← onSession (Services.Admin.getClientAllowedModels client.id)
  logInfo ["admin: created client (client_id=".toList, client.id.toList, ", user_id=".toList,
    client.userId.toList, ", name=".toList, client.name, ")".toList]
  return .of client allowed

def listClients (createdAt : String → ℤ) (userId : Option String) : Endpoint (List ClientOut) := do
  let clients ← onSession (Services.Admin.listClients createdAt userId)
  clients.mapM fun c => do
    let allowed ← onSession (Services.Admin.getClientAllowedModels c.id)
    return .of c allowed

/-! ## API keys -/

/-- `ApiKeyCreateOut`, without `created_at`. -/
structure ApiKeyCreateOut where
  id : String
  name : Text
  keyPrefix : Text
  /-- The full token. -/
  key : Text
  clientId : String
  expiresAt : Option ℤ
deriving DecidableEq

structure ApiKeyRotateOut extends ApiKeyCreateOut where
  rotatedFrom : Option String
deriving DecidableEq

/-- `ApiKeyOut`, without `created_at`. -/
structure ApiKeyOut where
  id : String
  name : Text
  keyPrefix : Text
  clientId : String
  expiresAt : Option ℤ
  revokedAt : Option ℤ
  lastUsedAt : Option ℤ
deriving DecidableEq

/-- `ApiKeyCreateOut(...)` for a row and its token. -/
def ApiKeyCreateOut.of (apiKey : ApiKey) (fullToken : Text) : ApiKeyCreateOut where
  id := apiKey.id
  name := apiKey.name
  keyPrefix := apiKey.keyPrefix
  key := fullToken
  clientId := apiKey.clientId
  expiresAt := apiKey.expiresAt

/-- `ApiKeyOut(...)` for a row. -/
def ApiKeyOut.of (apiKey : ApiKey) : ApiKeyOut where
  id := apiKey.id
  name := apiKey.name
  keyPrefix := apiKey.keyPrefix
  clientId := apiKey.clientId
  expiresAt := apiKey.expiresAt
  revokedAt := apiKey.revokedAt
  lastUsedAt := apiKey.lastUsedAt

variable (sha256 : Text → String)

def createApiKey (draw : Draw) (id clientId : String) (name : Text) (expiresAt : Option ℤ) :
    Endpoint ApiKeyCreateOut := do
  let (apiKey, fullToken) ←
    onSession (Services.Admin.createApiKey sha256 draw id clientId name expiresAt)
  logInfo ["admin: issued api key (api_key_id=".toList, apiKey.id.toList, ", client_id=".toList,
    apiKey.clientId.toList, ", prefix=".toList, apiKey.keyPrefix, ")".toList]
  return .of apiKey fullToken

def listApiKeys (createdAt : String → ℤ) (clientId : Option String) :
    Endpoint (List ApiKeyOut) := do
  let keys ← onSession (Services.Admin.listApiKeys createdAt clientId)
  return keys.map .of

def revokeApiKey (now : ℤ) (apiKeyId : String) : Endpoint ApiKeyOut := do
  let apiKey ← onSession (Services.Admin.revokeApiKey now apiKeyId)
  logInfo ["admin: revoked api key (api_key_id=".toList, apiKey.id.toList, ", prefix=".toList,
    apiKey.keyPrefix, ")".toList]
  return .of apiKey

def rotateApiKey (draw : Draw) (now : ℤ) (id apiKeyId : String) (revokeOld : Bool) :
    Endpoint ApiKeyRotateOut := do
  let (newKey, fullToken, old) ←
    onSession (Services.Admin.rotateApiKey sha256 draw now id apiKeyId revokeOld)
  let rotatedFrom := old.map (·.id)
  logInfo ["admin: rotated api key (new_id=".toList, newKey.id.toList, ", old_id=".toList,
    (rotatedFrom.getD "None").toList, ", prefix=".toList, newKey.keyPrefix, ")".toList]
  return { ApiKeyCreateOut.of newKey fullToken with rotatedFrom }

/-! ## Authentication -/

/-- `authenticate_request`, with what it logs. -/
def authenticateRequest (env : AuthEnv) (authHeader : Option Text) :
    Endpoint AuthenticatedPrincipal := do
  getDbSession env
  let token ← extractBearerToken authHeader
  let tokenHash := env.sha256 token
  let s ← Exec.get
  let found ← oneOrNone (s.database.apiKeys.filter fun k => k.keyHash = tokenHash)
  match found with
  | none =>
    logInfo ["auth failure: no matching key (prefix=".toList, visiblePrefix token, ")".toList]
    Exec.raise (keyError .invalidApiKeyError "invalid API key")
  | some apiKey =>
    if !verifyApiKey env.sha256 token apiKey.keyHash then
      logInfo ["auth failure: hash mismatch (api_key_id=".toList, apiKey.id.toList, ")".toList]
      Exec.raise (keyError .invalidApiKeyError "invalid API key")
    else if apiKey.revokedAt ≠ none then
      logInfo ["auth failure: revoked key (api_key_id=".toList, apiKey.id.toList,
        ", prefix=".toList, apiKey.keyPrefix, ")".toList]
      Exec.raise (keyError .revokedApiKeyError "API key has been revoked")
    else if isExpired apiKey env.now then
      logInfo ["auth failure: expired key (api_key_id=".toList, apiKey.id.toList,
        ", prefix=".toList, apiKey.keyPrefix, ")".toList]
      Exec.raise (keyError .expiredApiKeyError "API key has expired")
    else
      let apiKey ← onSession (touch env apiKey)
      let principal ← onSession (principalFromApiKeyWithSession apiKey)
      logInfo ["auth ok (api_key_id=".toList, principal.apiKeyId.toList, ", client_id=".toList,
        principal.clientId.toList, ", prefix=".toList, principal.apiKeyPrefix, ")".toList]
      return principal

/-! ## Runs -/

/-- What a caller sends as its `Authorization` header: what it likes, or the token with a number. -/
inductive Presented
  | header (authHeader : Option Text)
  | issued (n : ℕ)

/-- The header under the secrets that are drawn. -/
def Presented.authHeader (draws : ℕ → Draw) : Presented → Option Text
  | .header authHeader => authHeader
  | .issued n => some (bearer (draws n).token)

/-- A request to the management plane, or one to the data plane as far as its authentication. A call
that generates a key has the number of its draw. -/
inductive Call
  | createUser (id : String) (name : Text)
  | listUsers
  | createClient (id userId : String) (name : Text) (description : Option Text)
      (allowedModels : Option (List Str))
  | listClients (userId : Option String)
  | createApiKey (n : ℕ) (id clientId : String) (name : Text) (expiresAt : Option ℤ)
  | listApiKeys (clientId : Option String)
  | revokeApiKey (now : ℤ) (apiKeyId : String)
  | rotateApiKey (n : ℕ) (now : ℤ) (id apiKeyId : String) (revokeOld : Bool)
  | getClientPolicy (clientId : String)
  | updateClientPolicy (commit : Option Exc) (clientId : String) (body : ClientPolicyUpdate)
  | authenticateRequest (now : ℤ) (commits : Bool) (presented : Presented)

/-- The body of a response, or what a handler behind the authentication is given. -/
inductive Response
  | user (out : UserOut)
  | users (outs : List UserOut)
  | client (out : ClientOut)
  | clients (outs : List ClientOut)
  | apiKeyCreated (out : ApiKeyCreateOut)
  | apiKeys (outs : List ApiKeyOut)
  | apiKey (out : ApiKeyOut)
  | apiKeyRotated (out : ApiKeyRotateOut)
  | policy (out : ClientPolicyOut)
  | principal (principal : AuthenticatedPrincipal)
deriving DecidableEq

variable (createdAt : String → ℤ)

/-- The endpoint of a call. -/
def respond (draws : ℕ → Draw) : Call → Endpoint Response
  | .createUser id name => .user <$> createUser id name
  | .listUsers => .users <$> listUsers createdAt
  | .createClient id userId name description allowedModels =>
    .client <$> createClient id userId name description allowedModels
  | .listClients userId => .clients <$> listClients createdAt userId
  | .createApiKey n id clientId name expiresAt =>
    .apiKeyCreated <$> createApiKey sha256 (draws n) id clientId name expiresAt
  | .listApiKeys clientId => .apiKeys <$> listApiKeys createdAt clientId
  | .revokeApiKey now apiKeyId => .apiKey <$> revokeApiKey now apiKeyId
  | .rotateApiKey n now id apiKeyId revokeOld =>
    .apiKeyRotated <$> rotateApiKey sha256 (draws n) now id apiKeyId revokeOld
  | .getClientPolicy clientId => .policy <$> onSession (getClientPolicy clientId)
  | .updateClientPolicy commit clientId body =>
      .policy <$> onSession (updateClientPolicy commit clientId body)
  | .authenticateRequest now commits presented =>
    .principal <$> authenticateRequest { sha256, now, commits } (presented.authHeader draws)

/-- The gateway, and the calls that it has answered. -/
structure Served where
  plane : Plane := {}
  history : List (Call × Except Exc Response) := []

/-- One more call. -/
def Served.call (draws : ℕ → Draw) (s : Served) (c : Call) : Served where
  plane := ((respond sha256 createdAt draws c).run s.plane).2
  history := s.history ++ [(c, ((respond sha256 createdAt draws c).run s.plane).1)]

/-- One call after the other, from empty tables. -/
def serve (draws : ℕ → Draw) (calls : List Call) :
    Served := calls.foldl (Served.call sha256 createdAt draws) {}

/-- Before the first call the store is empty. -/
theorem serve_nil (draws : ℕ → Draw) : serve sha256 createdAt draws [] = {} := rfl

/-- The last call runs in the store that the calls before it left. -/
theorem serve_append (draws : ℕ → Draw) (calls : List Call) (c : Call) :
    serve sha256 createdAt draws (calls ++ [c]) =
    (serve sha256 createdAt draws calls).call sha256 createdAt draws c := by
  unfold serve
  rw [List.foldl_append, List.foldl_cons, List.foldl_nil]

/-! ## The calls without their log -/

/-- What a call answers, and what it does to the database. -/
def answer (draws : ℕ → Draw) : Call → Exec Exc Database Response
  | .createUser id name => do
    let user ← Services.Admin.createUser id name
    return .user (.of user)
  | .listUsers => do
    let users ← Services.Admin.listUsers createdAt
    return .users (users.map .of)
  | .createClient id userId name description allowedModels => do
    let client ← Services.Admin.createClient id userId name description allowedModels
    let allowed ← Services.Admin.getClientAllowedModels client.id
    return .client (.of client allowed)
  | .listClients userId => do
    let clients ← Services.Admin.listClients createdAt userId
    let outs ← clients.mapM fun c => do
      let allowed ← Services.Admin.getClientAllowedModels c.id
      return ClientOut.of c allowed
    return .clients outs
  | .createApiKey n id clientId name expiresAt => do
    let (apiKey, fullToken) ← Services.Admin.createApiKey sha256
      (draws n) id clientId name expiresAt
    return .apiKeyCreated (.of apiKey fullToken)
  | .listApiKeys clientId => do
    let keys ← Services.Admin.listApiKeys createdAt clientId
    return .apiKeys (keys.map .of)
  | .revokeApiKey now apiKeyId => do
    let apiKey ← Services.Admin.revokeApiKey now apiKeyId
    return .apiKey (.of apiKey)
  | .rotateApiKey n now id apiKeyId revokeOld => do
    let (newKey, fullToken, old) ← Services.Admin.rotateApiKey sha256
      (draws n) now id apiKeyId revokeOld
    return .apiKeyRotated { ApiKeyCreateOut.of newKey fullToken with rotatedFrom := old.map (·.id) }
  | .getClientPolicy clientId => do
    let out ← getClientPolicy clientId
    return .policy out
  | .updateClientPolicy commit clientId body => do
    let out ← updateClientPolicy commit clientId body
    return .policy out
  | .authenticateRequest now commits presented => do
    let principal ← Auth.authenticateRequest { sha256, now, commits } (presented.authHeader draws)
    return .principal principal

section Logs

variable {α β : Type} {sha256 : Text → String}

/-- The endpoint does what the body does, but for the log. -/
abbrev Logs (x : Endpoint α) (y : Exec Exc Database α) : Prop :=
  Exec.Agree (fun s db => s.database = db) Eq x y

/-- A session writes no log line, and does to the tables what it did. -/
theorem logs_onSession (call : Exec Exc Database α) : Logs (onSession call) call :=
  Exec.Agree.zoom_self call fun _ _ => rfl

/-- The log does not matter for what follows. -/
theorem Logs.bind {x : Endpoint α} {y : Exec Exc Database α} {f : α → Endpoint β}
    {g : α → Exec Exc Database β} (hxy : Logs x y) (hfg : ∀ a, Logs (f a) (g a)) :
    Logs (x >>= f) (y >>= g) := by
  refine Exec.Agree.bind hxy ?_
  rintro a _ rfl
  exact hfg a

/-- A value is the same with a log and without. -/
theorem Logs.pure (a : α) : Logs (Pure.pure a) (Pure.pure a) := Exec.Agree.pure rfl

/-- An exception is the same with a log and without. -/
theorem Logs.raise (exc : Exc) : Logs (Exec.raise exc : Endpoint α) (Exec.raise exc) :=
  Exec.Agree.raise exc

/-- A line of the log in front of what follows. -/
theorem Logs.line {x : Endpoint α} {y : Exec Exc Database α} (line : List Text) (h : Logs x y) :
    Logs (do logInfo line; x) y := by
  rintro s _ rfl
  exact h { s with log := s.log ++ [line.flatten] } _ rfl

/-- The end of an endpoint: a line of the log, and the response. -/
theorem logs_return (call : Exec Exc Database α) (line : α → List Text) (out : α → β) :
    Logs (do let a ← onSession call; logInfo (line a); return out a)
    (do let a ← call; return out a) :=
  (logs_onSession call).bind fun a => .line (line a) (.pure _)

/-- What does not look at the state. -/
theorem agree_extractBearerToken {σ τ : Type} {R : σ → τ → Prop} (authHeader : Option Text) :
    Exec.Agree R Eq (extractBearerToken authHeader : Exec Exc σ Text)
    (extractBearerToken authHeader) := by
  unfold extractBearerToken
  dsimp only
  split_ifs
  · exact .raise _
  · split
    · split_ifs
      · exact .raise _
      · exact .raise _
      · exact .pure rfl
    · exact .raise _

/-- `get_db_session` reads the environment alone. -/
theorem agree_getDbSession {σ τ : Type} {R : σ → τ → Prop} (env : AuthEnv) :
    Exec.Agree R Eq (getDbSession env : Exec Exc σ Unit) (getDbSession env) := by
  unfold getDbSession
  split_ifs
  · exact .pure rfl
  · exact .raise _

/-- Rows in step have at most one row each, or raise the same. -/
theorem agree_oneOrNone {σ τ : Type} {R : σ → τ → Prop} {A : α → β → Prop} {rows : List α}
    {rows' : List β} (h : List.Forall₂ A rows rows') :
    Exec.Agree R (Option.Rel A) (oneOrNone rows : Exec Exc σ (Option α)) (oneOrNone rows') := by
  unfold oneOrNone
  rcases h with _ | ⟨hrow, _ | ⟨hrow', hrest⟩⟩
  · exact .pure .none
  · exact .pure (.some hrow)
  · exact .raise _

/-- Authentication with a log does what authentication without one does. -/
theorem logs_authenticateRequest (env : AuthEnv) (authHeader : Option Text) :
    Logs (authenticateRequest env authHeader) (Auth.authenticateRequest env authHeader) := by
  unfold authenticateRequest Auth.authenticateRequest
  refine Logs.bind (agree_getDbSession env) fun _ =>
    Logs.bind (agree_extractBearerToken authHeader) fun token =>
    Exec.Agree.bind Exec.Agree.get ?_
  rintro s _ rfl
  refine Exec.Agree.bind (agree_oneOrNone (List.forall₂_same.mpr fun k _ => rfl))
    fun found found' hfound => ?_
  -- both sessions see the same rows, so they find the same key
  obtain rfl : found = found' := by
    cases hfound with
    | none => rfl
    | some heq => rw [heq]
  cases found with
  | none => exact Logs.line _ (.raise _)
  | some apiKey =>
      dsimp only
      split_ifs
      · exact Logs.line _ (.raise _)
      · exact Logs.line _ (.raise _)
      · exact Logs.line _ (.raise _)
      · refine (logs_onSession _).bind fun apiKey => ?_
        -- the line is written from the principal, after the session has built it
        have hprincipal := logs_return (principalFromApiKeyWithSession apiKey)
          (fun principal => ["auth ok (api_key_id=".toList, principal.apiKeyId.toList,
            ", client_id=".toList, principal.clientId.toList, ", prefix=".toList,
            principal.apiKeyPrefix, ")".toList]) fun principal => principal
        rwa [bind_pure (principalFromApiKeyWithSession apiKey)] at hprincipal

/-- **But for the log, an endpoint is the service's function** with its result as a response. -/
theorem logs_respond (createdAt : String → ℤ) (draws : ℕ → Draw) (c : Call) :
    Logs (respond sha256 createdAt draws c) (answer sha256 createdAt draws c) := by
  cases c with
  | createUser id name =>
      unfold respond createUser answer
      simp only [map_bind, map_pure]
      exact logs_return _ _ _
  | listUsers =>
      unfold respond listUsers answer
      simp only [map_bind, map_pure]
      exact (logs_onSession _).bind fun _ => .pure _
  | createClient id userId name description allowedModels =>
      unfold respond createClient answer
      simp only [map_bind, map_pure]
      exact (logs_onSession _).bind fun _ => (logs_onSession _).bind fun _ => .line _ (.pure _)
  | listClients userId =>
      unfold respond listClients answer
      simp only [map_bind]
      refine (logs_onSession _).bind fun clients => ?_
      rw [map_eq_pure_bind]
      exact Logs.bind (.mapM_same clients fun c => (logs_onSession _).bind fun _ => .pure _)
        fun _ => .pure _
  | createApiKey n id clientId name expiresAt =>
      unfold respond createApiKey answer
      simp only [map_bind, map_pure]
      exact logs_return _ _ _
  | listApiKeys clientId =>
      unfold respond listApiKeys answer
      simp only [map_bind, map_pure]
      exact (logs_onSession _).bind fun _ => .pure _
  | revokeApiKey now apiKeyId =>
      unfold respond revokeApiKey answer
      simp only [map_bind, map_pure]
      exact logs_return _ _ _
  | rotateApiKey n now id apiKeyId revokeOld =>
      unfold respond rotateApiKey answer
      simp only [map_bind, map_pure]
      exact logs_return _ _ _
  | getClientPolicy clientId =>
      unfold respond answer
      rw [map_eq_pure_bind]
      exact (logs_onSession _).bind fun _ => .pure _
  | updateClientPolicy commit clientId body =>
      unfold respond answer
      rw [map_eq_pure_bind]
      exact (logs_onSession _).bind fun _ => .pure _
  | authenticateRequest now commits presented =>
      unfold respond answer
      rw [map_eq_pure_bind]
      exact (logs_authenticateRequest _ _).bind fun _ => .pure _

end Logs

end SynGateway.Api.Admin.Management

import SynGateway.Core.ApiKeys
import SynGateway.Core.Errors
import SynGateway.Core.Principal
import SynGateway.Db.Models
import SynGateway.Python.Exec

/-!
# Authentication

The two dependencies of `app/core/auth.py` that validate a bearer token: `authenticate_request`, and
`authenticate_with_orm`, which repeats it and returns the rows of the key and of its client as well.

Both are one check of the token, `checkToken`, followed by what they do with the row it finds. So
they agree on every header and every database (`authenticateRequest_eq_map`).
-/

namespace SynGateway.Core.Auth

open SynGateway.Core.ApiKeys SynGateway.Db SynGateway.Python

/-- What an authentication finds: SHA-256, whether a database is wired, the clock, and whether the
commit of `last_used_at` goes through. -/
structure AuthEnv where
  sha256 : Text → String
  database : Bool := true
  now : ℤ
  commits : Bool := true

/-- `AuthenticationError(detail, code="authentication_required")`. -/
def authenticationError (detail : String) : Exc :=
  .syn (ErrorClass.authenticationError.new (some detail) (some "authentication_required") none none)

/-- `cls(detail)`. -/
def keyError (cls : ErrorClass) (detail : String) :
    Exc := .syn (cls.new (some detail) none none none)

section

variable {σ : Type}

/-- `_get_db_session`. -/
def getDbSession (env : AuthEnv) : Exec Exc σ Unit :=
  if env.database then pure ()
  else Exec.raise (authenticationError "database unavailable for authentication")

/-- `word.lower() == "bearer"`. No character outside ASCII lowers to a letter of it. -/
def isBearer (word : Text) : Bool := word.map Char.toLower = "bearer".toList

/-- `_extract_bearer_token`. -/
def extractBearerToken (authorizationHeader : Option Text) : Exec Exc σ Text :=
  let header := authorizationHeader.getD []
  if header = [] then Exec.raise (authenticationError "missing Authorization header")
  else
    match splitSpaceOnce header with
    | [scheme, rest] =>
      if !isBearer scheme then
        Exec.raise (authenticationError "Authorization header must be: Bearer <api_key>")
      else
        let token := strip rest
        if token = [] ∨ isValidFormat token = false then
          Exec.raise (keyError .invalidApiKeyError "invalid API key format")
        else pure token
    | _ => Exec.raise (authenticationError "Authorization header must be: Bearer <api_key>")

/-- `query.one_or_none()`. -/
def oneOrNone {α : Type} (rows : List α) : Exec Exc σ (Option α) :=
  match rows with
  | [] => pure none
  | [row] => pure (some row)
  | _ => Exec.raise (.exception "Multiple rows were found when one or none was required")

end

/-- `obj.attr` of `None`. -/
def noneAttribute : Exc := .exception "'NoneType' object has no attribute"

/-- `_principal_from_api_key_with_session`. -/
def principalFromApiKeyWithSession (apiKey : ApiKey) :
    Exec Exc Database AuthenticatedPrincipal := do
  let db ← Exec.get
  match db.clientOf apiKey with
  | none => Exec.raise noneAttribute
  | some client =>
    match db.userOf client with
    | none => Exec.raise noneAttribute
    | some user =>
      let rows := db.modelsOf client.id
      return {
        userId := user.id
        userName := user.name
        clientId := client.id
        clientName := client.name
        apiKeyId := apiKey.id
        apiKeyPrefix := apiKey.keyPrefix
        allowedModels := if rows = 0 then none else some rows }

/-- `api_key.expires_at is not None and api_key.expires_at <= now`. -/
def isExpired (apiKey : ApiKey) (now : ℤ) : Bool :=
  match apiKey.expiresAt with
  | none => false
  | some expiresAt => expiresAt ≤ now

/-- Update `last_used_at` (best-effort): the row as the session then has it. -/
def touch (env : AuthEnv) (apiKey : ApiKey) : Exec Exc Database ApiKey :=
  if env.commits then do
    Exec.modify fun db => db.updateApiKey apiKey.id fun k => { k with lastUsedAt := some env.now }
    return { apiKey with lastUsedAt := some env.now }
  else return apiKey

/-- `authenticate_request`. -/
def authenticateRequest (env : AuthEnv) (authHeader : Option Text) :
    Exec Exc Database AuthenticatedPrincipal := do
  getDbSession env
  let token ← extractBearerToken authHeader
  let tokenHash := env.sha256 token
  let db ← Exec.get
  let found ← oneOrNone (db.apiKeys.filter fun k => k.keyHash = tokenHash)
  match found with
  | none => Exec.raise (keyError .invalidApiKeyError "invalid API key")
  | some apiKey =>
    if !verifyApiKey env.sha256 token apiKey.keyHash then
      Exec.raise (keyError .invalidApiKeyError "invalid API key")
    else if apiKey.revokedAt ≠ none then
      Exec.raise (keyError .revokedApiKeyError "API key has been revoked")
    else if isExpired apiKey env.now then
      Exec.raise (keyError .expiredApiKeyError "API key has expired")
    else
      let apiKey ← touch env apiKey
      principalFromApiKeyWithSession apiKey

/-- `authenticate_with_orm`. -/
def authenticateWithOrm (env : AuthEnv) (authHeader : Option Text) :
    Exec Exc Database (AuthenticatedPrincipal × ApiKey × Client) := do
  getDbSession env
  let token ← extractBearerToken authHeader
  let tokenHash := env.sha256 token
  let db ← Exec.get
  let found ← oneOrNone (db.apiKeys.filter fun k => k.keyHash = tokenHash)
  match found with
  | none => Exec.raise (keyError .invalidApiKeyError "invalid API key")
  | some apiKey =>
    if !verifyApiKey env.sha256 token apiKey.keyHash then
      Exec.raise (keyError .invalidApiKeyError "invalid API key")
    else if apiKey.revokedAt ≠ none then
      Exec.raise (keyError .revokedApiKeyError "API key has been revoked")
    else if isExpired apiKey env.now then
      Exec.raise (keyError .expiredApiKeyError "API key has expired")
    else
      let apiKey ← touch env apiKey
      let db ← Exec.get
      let client := db.clientOf apiKey
      let principal ← principalFromApiKeyWithSession apiKey
      match client with
      -- `session.expunge(None)`
      | none => Exec.raise (.exception "Class 'builtins.NoneType' is not mapped")
      | some client => return (principal, apiKey, client)

/-! ## Reading the header -/

/-- The header `Bearer <t>`. -/
def bearer (t : Text) : Text := "Bearer".toList ++ ' ' :: t

section

variable {σ : Type} {s s' : σ}

/-- A token without white space is read from its header as it stands, if its format is valid. -/
theorem extractBearerToken_bearer {t token : Text} (ht : ∀ c ∈ t, isSpace c = false) :
    (extractBearerToken (some (bearer t))).run s = (.ok token, s') ↔
      token = t ∧ s' = s ∧ isValidFormat t = true := by
  unfold extractBearerToken
  dsimp only [Option.getD_some]
  rw [if_neg (show bearer t ≠ [] from List.append_ne_nil_of_right_ne_nil _ (List.cons_ne_nil _ _))]
  -- a header without a token has one word only
  rcases eq_or_ne t [] with rfl | hne
  · have hinvalid : isValidFormat [] = false := rfl
    have hword : splitSpaceOnce (bearer []) = ["Bearer".toList] := rfl
    simp [hword, hinvalid]
  · have hword : "Bearer".toList.all (!isSpace ·) = true := rfl
    have hsplit : splitSpaceOnce (bearer t) = ["Bearer".toList, t] :=
      splitSpaceOnce_append (by decide) hne
        (fun c hc => by simpa using List.all_eq_true.mp hword c hc) ht (by decide)
    have hbearer : isBearer "Bearer".toList = true := by decide
    simp only [hsplit, hbearer, strip_of_not_space ht]
    by_cases hvalid : isValidFormat t = true
    · simp [hne, hvalid, eq_comm]
    · simp [hvalid]

end

/-! ## The check of the token -/

/-- What both dependencies do first: the row of the key, if its token may be used. -/
def checkToken (env : AuthEnv) (authHeader : Option Text) : Exec Exc Database ApiKey := do
  getDbSession env
  let token ← extractBearerToken authHeader
  let db ← Exec.get
  let found ← oneOrNone (db.apiKeys.filter fun k => k.keyHash = env.sha256 token)
  match found with
  | none => Exec.raise (keyError .invalidApiKeyError "invalid API key")
  | some apiKey =>
    if !verifyApiKey env.sha256 token apiKey.keyHash then
      Exec.raise (keyError .invalidApiKeyError "invalid API key")
    else if apiKey.revokedAt ≠ none then
      Exec.raise (keyError .revokedApiKeyError "API key has been revoked")
    else if isExpired apiKey env.now then
      Exec.raise (keyError .expiredApiKeyError "API key has expired")
    else return apiKey

variable {env : AuthEnv} {header : Option Text} {db db' : Database} {apiKey : ApiKey}

/-- What follows the check stands in its last branch. -/
theorem checkToken_bind {α : Type} (env : AuthEnv) (header : Option Text)
    (next : ApiKey → Exec Exc Database α) :
    checkToken env header >>= next = (do
      getDbSession env
      let token ← extractBearerToken header
      let db ← Exec.get
      let found ← oneOrNone (db.apiKeys.filter fun k => k.keyHash = env.sha256 token)
      match found with
      | none => Exec.raise (keyError .invalidApiKeyError "invalid API key")
      | some apiKey =>
        if !verifyApiKey env.sha256 token apiKey.keyHash then
          Exec.raise (keyError .invalidApiKeyError "invalid API key")
        else if apiKey.revokedAt ≠ none then
          Exec.raise (keyError .revokedApiKeyError "API key has been revoked")
        else if isExpired apiKey env.now then
          Exec.raise (keyError .expiredApiKeyError "API key has expired")
        else next apiKey) := by
  unfold checkToken
  simp only [bind_assoc]
  congr 1
  funext _
  congr 1
  funext token
  congr 1
  funext db
  congr 1
  funext found
  cases found with
  | none => rfl
  | some apiKey =>
      dsimp only
      split_ifs <;> rfl

/-- The check of the token, its last use, and the principal. -/
theorem authenticateRequest_eq (env : AuthEnv) (header : Option Text) :
    authenticateRequest env header =
      checkToken env header >>= fun apiKey => touch env apiKey >>= principalFromApiKeyWithSession :=
  (checkToken_bind env header _).symm

/-- The principal, with the rows of its key and its client. -/
def withRows (apiKey : ApiKey) : Exec Exc Database (AuthenticatedPrincipal × ApiKey × Client) := do
  let db ← Exec.get
  let principal ← principalFromApiKeyWithSession apiKey
  match db.clientOf apiKey with
  | none => Exec.raise (.exception "Class 'builtins.NoneType' is not mapped")
  | some client => return (principal, apiKey, client)

/-- The check of the token, its last use, and the principal with its rows. -/
theorem authenticateWithOrm_eq (env : AuthEnv) (header : Option Text) :
    authenticateWithOrm env header =
      checkToken env header >>= fun apiKey => touch env apiKey >>= withRows :=
  (checkToken_bind env header _).symm

/-- The principal of a key, its client and its user. -/
def principalOf (db : Database) (apiKey : ApiKey) (client : Client) (user : User) :
    AuthenticatedPrincipal where
  userId := user.id
  userName := user.name
  clientId := client.id
  clientName := client.name
  apiKeyId := apiKey.id
  apiKeyPrefix := apiKey.keyPrefix
  allowedModels := if db.modelsOf client.id = 0 then none else some (db.modelsOf client.id)

/-- The principal of a key, or an error where its client or user is missing. -/
theorem principal_run (apiKey : ApiKey) (db : Database) :
    (principalFromApiKeyWithSession apiKey).run db =
      match db.clientOf apiKey with
      | none => (.error noneAttribute, db)
      | some client =>
        match db.userOf client with
        | none => (.error noneAttribute, db)
        | some user => (.ok (principalOf db apiKey client user), db) := by
  unfold principalFromApiKeyWithSession
  rw [Exec.run_get_bind]
  cases db.clientOf apiKey with
  | none => rfl
  | some client =>
      dsimp only
      cases db.userOf client <;> rfl

/-- A principal is built from the client of the key and the client's user. -/
theorem principal_eq_ok {principal : AuthenticatedPrincipal} :
    (principalFromApiKeyWithSession apiKey).run db = (.ok principal, db') ↔
      db' = db ∧ ∃ client user, db.clientOf apiKey = some client ∧ db.userOf client = some user ∧
        principal = principalOf db apiKey client user := by
  rw [principal_run]
  cases db.clientOf apiKey with
  | none => simp
  | some client =>
      dsimp only
      cases huser : db.userOf client with
      | none => simp [huser]
      | some user => simp [huser, eq_comm, and_comm]

/-- A key whose client row is missing has no principal either, so the last branch is never taken. -/
theorem principal_eq_map_withRows (apiKey : ApiKey) :
    principalFromApiKeyWithSession apiKey = Prod.fst <$> withRows apiKey := by
  funext db
  change (principalFromApiKeyWithSession apiKey).run db = (Prod.fst <$> withRows apiKey).run db
  unfold withRows
  rw [map_eq_pure_bind, bind_assoc, Exec.run_get_bind, bind_assoc]
  have hrun := principal_run apiKey db
  -- both stop where the client or the user is missing
  cases hclient : db.clientOf apiKey with
  | none =>
      rw [hclient] at hrun
      rw [hrun, Exec.run_bind_error hrun]
  | some client =>
      rw [hclient] at hrun
      dsimp only at hrun
      cases huser : db.userOf client with
      | none =>
          rw [huser] at hrun
          rw [hrun, Exec.run_bind_error hrun]
      | some user =>
          rw [huser] at hrun
          rw [hrun, Exec.run_bind_ok hrun]
          rfl

/-- **The two dependencies agree** on every header and every database. -/
theorem authenticateRequest_eq_map (env : AuthEnv) (header : Option Text) :
    authenticateRequest env header = Prod.fst <$> authenticateWithOrm env header := by
  have hprincipal : principalFromApiKeyWithSession = fun apiKey => Prod.fst <$> withRows apiKey :=
    funext principal_eq_map_withRows
  rw [authenticateRequest_eq, authenticateWithOrm_eq, hprincipal]
  simp only [map_bind]

/-- The row of a token that may be used. -/
structure Checked (env : AuthEnv) (db : Database) (token : Text) (apiKey : ApiKey) : Prop where
  found : (db.apiKeys.filter fun k => k.keyHash = env.sha256 token) = [apiKey]
  live : apiKey.revokedAt = none
  current : isExpired apiKey env.now = false

/-- At most one row is found. -/
theorem oneOrNone_eq_ok {α σ : Type} {rows : List α} {found : Option α} {s s' : σ} :
    (oneOrNone rows).run s = (.ok found, s') ↔ rows = found.toList ∧ s' = s := by
  rcases rows with _ | ⟨row, _ | ⟨row', rows⟩⟩ <;> cases found <;> simp [oneOrNone, eq_comm]

/-- The header is read without a look at the tables. -/
theorem extractBearerToken_preserves {σ : Type} (header : Option Text) :
    Exec.Preserves id (extractBearerToken header : Exec Exc σ Text) := by
  intro s
  unfold extractBearerToken
  dsimp only
  split_ifs
  · rfl
  · split
    · split_ifs <;> rfl
    · rfl

/-- There is a session when there is a database. -/
theorem getDbSession_eq_ok {σ : Type} {s s' : σ} :
    (getDbSession env).run s = (.ok (), s') ↔ env.database = true ∧ s' = s := by
  unfold getDbSession
  split_ifs with h <;> simp [h, eq_comm]

/-- The check changes no row. -/
theorem checkToken_preserves (env : AuthEnv) (header : Option Text) :
    Exec.Preserves id (checkToken env header) := by
  unfold checkToken
  refine .bind ?_ fun _ => .bind (extractBearerToken_preserves header) fun token =>
    .bind .get fun db =>
    .bind ?_ fun found => ?_
  · unfold getDbSession
    split_ifs
    · exact .pure _
    · exact .raise _
  · intro s
    unfold oneOrNone
    split <;> rfl
  · cases found with
    | none => exact .raise _
    | some apiKey =>
        dsimp only
        -- unknown, revoked, expired, or the row
        split_ifs
        · exact .raise _
        · exact .raise _
        · exact .raise _
        · exact .pure _

/-- What the check answers on a token that finds the row of a key which is not revoked. -/
theorem checkToken_run_found {token : Text} (hdatabase : env.database = true)
    (htoken : (extractBearerToken header).run db = (.ok token, db))
    (hfound : (db.apiKeys.filter fun k => k.keyHash = env.sha256 token) = [apiKey])
    (hlive : apiKey.revokedAt = none) :
    (checkToken env header).run db =
      (if isExpired apiKey env.now then .error (keyError .expiredApiKeyError "API key has expired")
        else .ok apiKey, db) := by
  have hmem : apiKey ∈ db.apiKeys.filter fun k => k.keyHash = env.sha256 token := by
    rw [hfound]
    exact List.mem_singleton_self _
  have hhash : verifyApiKey env.sha256 token apiKey.keyHash = true := by
    have hsame := (List.mem_filter.mp hmem).2
    simpa [verifyApiKey, eq_comm] using hsame
  have hrow : (oneOrNone (db.apiKeys.filter fun k => k.keyHash = env.sha256 token)).run db =
      (.ok (some apiKey), db) := oneOrNone_eq_ok.mpr ⟨hfound, rfl⟩
  unfold checkToken
  rw [Exec.run_bind_ok (getDbSession_eq_ok.mpr ⟨hdatabase, rfl⟩), Exec.run_bind_ok htoken,
    Exec.run_get_bind, Exec.run_bind_ok hrow]
  dsimp only
  rw [if_neg (by simp [hhash]), if_neg (by simp [hlive])]
  split_ifs <;> rfl

/-- The token passes exactly when it is checked against a row, and nothing is written. -/
theorem checkToken_eq_ok :
    (checkToken env header).run db = (.ok apiKey, db') ↔
      db' = db ∧ env.database = true ∧ ∃ token,
        (extractBearerToken header).run db = (.ok token, db) ∧ Checked env db token apiKey := by
  constructor
  · intro hrun
    unfold checkToken at hrun
    obtain ⟨⟨⟩, db₀, hsession, hrun⟩ := Exec.run_bind_eq_ok.mp hrun
    obtain ⟨token, db₁, htoken, hrun⟩ := Exec.run_bind_eq_ok.mp hrun
    rw [Exec.run_get_bind] at hrun
    obtain ⟨found, db₂, hfound, hrun⟩ := Exec.run_bind_eq_ok.mp hrun
    obtain ⟨hdatabase, rfl⟩ := getDbSession_eq_ok.mp hsession
    obtain rfl : db₁ = db₀ := (extractBearerToken_preserves header).ends htoken
    obtain ⟨hfound, rfl⟩ := oneOrNone_eq_ok.mp hfound
    cases found with
    | none => simp at hrun
    | some row =>
        dsimp only at hrun
        -- every branch but the last raises
        split_ifs at hrun with hhash hrevoked hexpired
        all_goals simp only [Exec.run_raise, Exec.run_pure, Prod.mk.injEq, reduceCtorEq,
          false_and] at hrun
        obtain ⟨heq, rfl⟩ := hrun
        cases heq
        refine ⟨rfl, hdatabase, token, htoken, hfound, ?_, ?_⟩
        · simpa using hrevoked
        · simpa using hexpired
  · rintro ⟨hsame, hdatabase, token, htoken, hchecked⟩
    rw [checkToken_run_found hdatabase htoken hchecked.found hchecked.live, hsame, hchecked.current]
    rfl

/-! ## The outcome of an authentication -/

/-- The database after the key was used. -/
def touched (env : AuthEnv) (db : Database) (apiKey : ApiKey) : Database :=
  if env.commits then db.updateApiKey apiKey.id fun k =>
    { k with lastUsedAt := some env.now } else db

/-- The row of the key after it was used. -/
def used (env : AuthEnv) (apiKey : ApiKey) : ApiKey :=
  if env.commits then { apiKey with lastUsedAt := some env.now } else apiKey

/-- The row and the tables after the use of a key. -/
theorem touch_run_used (env : AuthEnv) (db : Database) (apiKey : ApiKey) :
    (touch env apiKey).run db = (.ok (used env apiKey), touched env db apiKey) := by
  unfold touch touched used
  split_ifs <;> rfl

/-- The use of a key changes its last use at most. -/
theorem touch_run (env : AuthEnv) (db : Database) (apiKey : ApiKey) :
    ∃ lastUsedAt, (touch env apiKey).run db =
      (.ok { apiKey with lastUsedAt }, touched env db apiKey) := by
  rw [touch_run_used]
  unfold used
  split_ifs
  · exact ⟨_, rfl⟩
  · exact ⟨apiKey.lastUsedAt, rfl⟩

/-- The use of a key leaves the users. -/
@[simp] theorem touched_users : (touched env db apiKey).users = db.users := by
  unfold touched
  split_ifs <;> rfl

/-- The use of a key leaves the clients. -/
@[simp] theorem touched_clients : (touched env db apiKey).clients = db.clients := by
  unfold touched
  split_ifs <;> rfl

/-- The use of a key leaves the allowed models. -/
@[simp] theorem touched_allowedModels :
    (touched env db apiKey).allowedModels = db.allowedModels := by
  unfold touched
  split_ifs <;> rfl

/-- A token that may be used, of a key whose client and user exist, gives their principal. -/
theorem authenticateRequest_of_checked {client : Client} {user : User}
    (hcheck : (checkToken env header).run db = (.ok apiKey, db))
    (hclient : db.clientOf apiKey = some client) (huser : db.userOf client = some user) :
    (authenticateRequest env header).run db =
      (.ok (principalOf db apiKey client user), touched env db apiKey) := by
  obtain ⟨lastUsedAt, htouch⟩ := touch_run env db apiKey
  rw [authenticateRequest_eq, Exec.run_bind_ok hcheck, Exec.run_bind_ok htouch]
  refine principal_eq_ok.mpr ⟨rfl, client, user, ?_, ?_, ?_⟩
  · rw [← hclient]
    unfold Database.clientOf
    rw [touched_clients]
  · rw [← huser]
    unfold Database.userOf
    rw [touched_users]
  · unfold principalOf Database.modelsOf
    rw [touched_allowedModels]

/-- The principal with the rows that it is built from. -/
theorem withRows_eq_ok {principal : AuthenticatedPrincipal} {apiKey' : ApiKey} {client : Client} :
    (withRows apiKey).run db = (.ok (principal, apiKey', client), db') ↔
      db' = db ∧ apiKey' = apiKey ∧ db.clientOf apiKey = some client ∧
        ∃ user, db.userOf client = some user ∧ principal = principalOf db apiKey client user := by
  unfold withRows
  rw [Exec.run_get_bind, Exec.run_bind_eq_ok]
  constructor
  · rintro ⟨principal', db₁, hprincipal, hrun⟩
    obtain ⟨rfl, client', user, hclient, huser, rfl⟩ := principal_eq_ok.mp hprincipal
    rw [hclient] at hrun
    cases hrun
    exact ⟨rfl, rfl, hclient, user, huser, rfl⟩
  · rintro ⟨rfl, rfl, hclient, user, huser, rfl⟩
    refine ⟨_, db', principal_eq_ok.mpr ⟨rfl, client, user, hclient, huser, rfl⟩, ?_⟩
    rw [hclient]
    rfl

/-- The token of the header is that of the key: one row has its hash, which is neither revoked nor
expired and belongs to a client of a user. -/
def Authenticated (env : AuthEnv) (header : Option Text) (db : Database)
    (principal : AuthenticatedPrincipal) (apiKey : ApiKey) (client : Client) : Prop :=
  env.database = true ∧ ∃ token row user,
    (extractBearerToken header).run db = (.ok token, db) ∧ Checked env db token row ∧
      db.clientOf row = some client ∧ db.userOf client = some user ∧
      apiKey = used env row ∧ principal = principalOf db row client user

/-- The same after the use of the key. -/
theorem withRows_used {row : ApiKey} {principal : AuthenticatedPrincipal} {client : Client} :
    (withRows (used env row)).run (touched env db row) = (.ok (principal, apiKey, client), db') ↔
      db' = touched env db row ∧ apiKey = used env row ∧ db.clientOf row = some client ∧
        ∃ user, db.userOf client = some user ∧ principal = principalOf db row client user := by
  -- the use of the key writes none of the fields that the principal reads
  have hclient : (touched env db row).clientOf (used env row) = db.clientOf row := by
    unfold used Database.clientOf
    rw [touched_clients]
    split_ifs <;> rfl
  have huser : (touched env db row).userOf client = db.userOf client := by
    unfold Database.userOf
    rw [touched_users]
  have hprincipal : ∀ user,
      principalOf (touched env db row) (used env row) client user =
          principalOf db row client user := by
    intro user
    unfold principalOf Database.modelsOf used
    rw [touched_allowedModels]
    split_ifs <;> rfl
  rw [withRows_eq_ok, hclient, huser]
  simp only [hprincipal]

/-- `authenticate_with_orm` returns for such a token and for no other. -/
theorem authenticateWithOrm_eq_ok {principal : AuthenticatedPrincipal} {client : Client} :
    (∃ db', (authenticateWithOrm env header).run db = (.ok (principal, apiKey, client), db')) ↔
      Authenticated env header db principal apiKey client := by
  rw [authenticateWithOrm_eq]
  constructor
  · rintro ⟨db', hrun⟩
    obtain ⟨row, db₁, hcheck, hrows⟩ := Exec.run_bind_eq_ok.mp hrun
    obtain ⟨rfl, hdatabase, token, htoken, hchecked⟩ := checkToken_eq_ok.mp hcheck
    rw [Exec.run_bind_ok (touch_run_used _ _ _)] at hrows
    obtain ⟨-, hkey, hclient, user, huser, hprincipal⟩ := withRows_used.mp hrows
    exact ⟨hdatabase, token, row, user, htoken, hchecked, hclient, huser, hkey, hprincipal⟩
  · rintro ⟨hdatabase, token, row, user, htoken, hchecked, hclient, huser, hkey, hprincipal⟩
    have hcheck := checkToken_eq_ok.mpr ⟨rfl, hdatabase, token, htoken, hchecked⟩
    refine ⟨touched env db row, ?_⟩
    rw [Exec.run_bind_ok hcheck, Exec.run_bind_ok (touch_run_used _ _ _)]
    exact withRows_used.mpr ⟨rfl, hkey, hclient, user, huser, hprincipal⟩

/-- A token that may not be used changes nothing. -/
theorem authenticateRequest_of_unchecked
    (hcheck : ∀ apiKey, (checkToken env header).run db ≠ (.ok apiKey, db)) :
    ∃ error, (authenticateRequest env header).run db = (.error error, db) := by
  rcases hrun : (checkToken env header).run db with ⟨error | apiKey, db'⟩
  · obtain rfl : db' = db := (checkToken_preserves env header).ends hrun
    rw [authenticateRequest_eq, Exec.run_bind_error hrun]
    exact ⟨error, rfl⟩
  · obtain rfl : db' = db := (checkToken_preserves env header).ends hrun
    exact absurd hrun (hcheck apiKey)

end SynGateway.Core.Auth

import Mathlib.Data.Set.Function
import SynGateway.Api.Admin.Management

/-!
# Secrets are shown once

The secret part of a key is in the response that gives the key out, and in nothing else that the
gateway says: two runs whose draws differ in their secret parts have the same log and, but for that
field, the same responses (`secrets_hidden`). The callers may present any key that is drawn; what
they may not do is guess one.
-/

namespace SynGateway.Api.Admin.Management

open SynGateway.Core SynGateway.Core.ApiKeys SynGateway.Core.Auth SynGateway.Db SynGateway.Python
open SynGateway.Services.Admin (oneOr)

/-! ## What is compared -/

/-- Draws of two runs that show the same prefixes. Of the tokens with numbers in `N`, no two have
one hash. -/
structure Paired (sha256 : Text → String) (N : Set ℕ) (draws draws' : ℕ → Draw) : Prop where
  publicPart : ∀ n, (draws' n).publicPart = (draws n).publicPart
  distinct : N.InjOn fun n => sha256 (draws n).token
  distinct' : N.InjOn fun n => sha256 (draws' n).token

/-- The call draws and presents tokens with numbers in `N` only, and guesses none of them. -/
def Call.Fair (sha256 : Text → String) (N : Set ℕ) (draws : ℕ → Draw) : Call → Prop
  | .createApiKey n .. => n ∈ N
  | .rotateApiKey n .. => n ∈ N
  | .authenticateRequest _ _ (.issued n) => n ∈ N
  | .authenticateRequest _ _ (.header authHeader) =>
    ∀ token, ((extractBearerToken authHeader).run ()).1 = .ok token →
      ∀ n ∈ N, sha256 (draws n).token ≠ sha256 token
  | _ => True

/-- The draw of a call that generates a key. -/
def Call.draw : Call → Option ℕ
  | .createApiKey n .. => some n
  | .rotateApiKey n .. => some n
  | _ => none

/-- The field that holds the full token. -/
def Response.key : Response → Option Text
  | .apiKeyCreated out => some out.key
  | .apiKeyRotated out => some out.key
  | _ => none

/-- The response without it. -/
def Response.redacted : Response → Response
  | .apiKeyCreated out => .apiKeyCreated { out with key := [] }
  | .apiKeyRotated out => .apiKeyRotated { out with key := [] }
  | response => response

/-- Responses to one call in two runs: the key is the one that was drawn, and the rest is the same.
-/
structure Shown (draws draws' : ℕ → Draw) (c : Call) (response response' : Response) : Prop where
  key : response.key = c.draw.map fun n => (draws n).token
  key' : response'.key = c.draw.map fun n => (draws' n).token
  rest : response'.redacted = response.redacted

variable {sha256 : Text → String} {createdAt : String → ℤ} {N : Set ℕ} {draws draws' : ℕ → Draw}

/-! ## Rows of two runs -/

/-- Rows of one key in two runs: all is the same but for the hash, which is that of the draw with
the same number. -/
inductive Twin (sha256 : Text → String) (N : Set ℕ) (draws draws' : ℕ → Draw) :
    ApiKey → ApiKey → Prop
  | drawn (n : ℕ) (hn : n ∈ N) (k : ApiKey) :
    Twin sha256 N draws draws' { k with keyHash := sha256 (draws n).token }
    { k with keyHash := sha256 (draws' n).token }

/-- Databases of two runs. -/
structure TwinRows (sha256 : Text → String) (N : Set ℕ) (draws draws' : ℕ → Draw)
    (db db' : Database) : Prop where
  users : db'.users = db.users
  clients : db'.clients = db.clients
  allowedModels : db'.allowedModels = db.allowedModels
  apiKeys : List.Forall₂ (Twin sha256 N draws draws') db.apiKeys db'.apiKeys

/-- Gateways of two runs. -/
structure TwinPlanes (sha256 : Text → String) (N : Set ℕ) (draws draws' : ℕ → Draw) (s t : Plane) :
    Prop where
  database : TwinRows sha256 N draws draws' s.database t.database
  log : t.log = s.log

/-- A change that leaves the hash alone. -/
theorem Twin.change {f : ApiKey → ApiKey}
    (hf : ∀ k hash, f { k with keyHash := hash } = { f k with keyHash := hash }) {k k' : ApiKey}
    (h : Twin sha256 N draws draws' k k') : Twin sha256 N draws draws' (f k) (f k') := by
  obtain ⟨n, hn, k⟩ := h
  rw [hf k (sha256 (draws n).token), hf k (sha256 (draws' n).token)]
  exact .drawn n hn (f k)

/-- The rows have the same ids. -/
theorem twins_ids {rows rows' : List ApiKey}
    (h : List.Forall₂ (Twin sha256 N draws draws') rows rows') :
    rows'.map (·.id) = rows.map (·.id) := by
  induction h with
  | nil => rfl
  | cons hrow hrest ih =>
      obtain ⟨n, hn, k⟩ := hrow
      rw [List.map_cons, List.map_cons, ih]

/-- The row with an id. -/
theorem twins_find? {rows rows' : List ApiKey}
    (h : List.Forall₂ (Twin sha256 N draws draws') rows rows') (id : String) :
    Option.Rel (Twin sha256 N draws draws') (rows.find? fun k => k.id = id)
    (rows'.find? fun k => k.id = id) := by
  induction h with
  | nil => exact .none
  | cons hrow hrest ih =>
      obtain ⟨n, hn, k⟩ := hrow
      rw [List.find?_cons, List.find?_cons]
      by_cases hid : k.id = id
      · simp only [hid, decide_true]
        exact .some (hid ▸ .drawn n hn k)
      · simp only [hid, decide_false]
        exact ih

/-- An update that leaves the hash alone keeps twin tables twin. -/
theorem TwinRows.update {db db' : Database} (h : TwinRows sha256 N draws draws' db db')
    (id : String) {f : ApiKey → ApiKey}
    (hf : ∀ k hash, f { k with keyHash := hash } = { f k with keyHash := hash }) :
    TwinRows sha256 N draws draws' (db.updateApiKey id f) (db'.updateApiKey id f) where
  users := h.users
  clients := h.clients
  allowedModels := h.allowedModels
  apiKeys := by
    refine List.forall₂_map_left_iff.mpr
      (List.forall₂_map_right_iff.mpr (h.apiKeys.imp fun k k' hrow => ?_))
    refine hrow.change (f := fun k => if k.id = id then f k else k) fun k hash => ?_
    split_ifs with hid
    · exact hf k hash
    · rfl

/-- The visible prefix of a token is made of the public part. -/
theorem visiblePrefix_token (draw : Draw) :
    visiblePrefix draw.token = prefixNamespace ++ "_".toList ++ draw.publicPart := by
  have hlength : (prefixNamespace ++ "_".toList ++ draw.publicPart).length = visiblePrefixLen := by
    rw [List.length_append, draw.public_length]
    rfl
  unfold visiblePrefix Draw.token
  rw [List.append_assoc _ "_".toList, ← hlength]
  exact List.take_left

/-! ## The functions of the service -/

section Service

variable {α β : Type}

/-- A function of the service in two runs. -/
abbrev SessionAgree (sha256 : Text → String) (N : Set ℕ) (draws draws' : ℕ → Draw)
    (A : α → β → Prop) (x : Exec Exc Database α) (y : Exec Exc Database β) : Prop :=
  Exec.Agree (TwinRows sha256 N draws draws') A x y

/-- Lookups in step find rows in step, or raise the same. -/
theorem agree_oneOr {A : α → β → Prop} {row : Option α} {row' : Option β}
    (h : Option.Rel A row row') (exc : Exc) :
    SessionAgree sha256 N draws draws' A (oneOr row exc) (oneOr row' exc) := by
  cases h with
  | none => exact .raise exc
  | some hrow => exact .pure hrow

/-- A lookup of the same row finds it or raises the same. -/
theorem agree_oneOr_self (row : Option α) (exc : Exc) :
    SessionAgree sha256 N draws draws' Eq (oneOr row exc) (oneOr row exc) := by
  cases row with
  | none => exact .raise exc
  | some row => exact .pure rfl

/-- `get_user` does not look at keys. -/
theorem agree_getUser (userId : String) :
    SessionAgree sha256 N draws draws' Eq (Services.Admin.getUser userId)
    (Services.Admin.getUser userId) :=
  Exec.Agree.bind .get fun db db' h => by
    rw [h.users]
    exact agree_oneOr_self _ _

/-- `get_client` does not look at keys. -/
theorem agree_getClient (clientId : String) :
    SessionAgree sha256 N draws draws' Eq (Services.Admin.getClient clientId)
    (Services.Admin.getClient clientId) :=
  Exec.Agree.bind .get fun db db' h => by
    rw [h.clients]
    exact agree_oneOr_self _ _

/-- `get_api_key` finds twin keys. -/
theorem agree_getApiKey (apiKeyId : String) :
    SessionAgree sha256 N draws draws' (Twin sha256 N draws draws')
      (Services.Admin.getApiKey apiKeyId) (Services.Admin.getApiKey apiKeyId) :=
  Exec.Agree.bind .get fun _ _ h => agree_oneOr (twins_find? h.apiKeys apiKeyId) _

/-- `create_user` does not look at keys. -/
theorem agree_createUser (id : String) (name : Text) :
    SessionAgree sha256 N draws draws' Eq (Services.Admin.createUser id name)
    (Services.Admin.createUser id name) := by
  unfold Services.Admin.createUser
  dsimp only
  refine Exec.Agree.ite (.raise _) (Exec.Agree.bind .get fun db db' h => ?_)
  rw [h.users]
  refine .ite (.raise _) (.ite (.raise _) (.seq (.modify fun s t hst => ?_) (.pure rfl)))
  exact ⟨by rw [hst.users], hst.clients, hst.allowedModels, hst.apiKeys⟩

/-- `create_client` does not look at keys. -/
theorem agree_createClient (id userId : String) (name : Text) (description : Option Text)
    (allowedModels : Option (List Str)) :
    SessionAgree sha256 N draws draws' Eq
      (Services.Admin.createClient id userId name description allowedModels)
      (Services.Admin.createClient id userId name description allowedModels) := by
  unfold Services.Admin.createClient
  dsimp only
  refine Exec.Agree.ite (.raise _) (Exec.Agree.bind (agree_getUser userId) ?_)
  rintro user _ rfl
  refine Exec.Agree.bind .get fun db db' h => ?_
  rw [h.clients]
  refine .ite (.raise _) (.ite (.raise _) (.seq (.modify fun s t hst => ?_) (.pure rfl)))
  exact ⟨hst.users, by rw [hst.clients], by rw [hst.allowedModels], hst.apiKeys⟩

/-- The rows and tokens of one draw. -/
theorem agree_createApiKey (hpaired : Paired sha256 N draws draws') {n : ℕ} (hn : n ∈ N)
    (id clientId : String) (name : Text) (expiresAt : Option ℤ) :
    SessionAgree sha256 N draws draws'
      (fun created created' => Twin sha256 N draws draws' created.1 created'.1 ∧
        created.2 = (draws n).token ∧ created'.2 = (draws' n).token)
      (Services.Admin.createApiKey sha256 (draws n) id clientId name expiresAt)
      (Services.Admin.createApiKey sha256 (draws' n) id clientId name expiresAt) := by
  unfold Services.Admin.createApiKey
  dsimp only
  refine Exec.Agree.ite (.raise _) (Exec.Agree.bind (agree_getClient clientId) ?_)
  rintro client _ rfl
  refine Exec.Agree.bind .get fun db db' h => ?_
  -- ids and prefixes are the same in both runs, so both keys are refused or both are made
  have hids : (db'.apiKeys.any fun k => k.id = id) = db.apiKeys.any fun k => k.id = id := by
    have hany := congrArg (List.any · (fun i => decide (i = id))) (twins_ids h.apiKeys)
    simpa only [List.any_map, Function.comp_def] using hany
  have hprefix : visiblePrefix (draws' n).token = visiblePrefix (draws n).token := by
    rw [visiblePrefix_token, visiblePrefix_token, hpaired.publicPart]
  have hrow : Twin sha256 N draws draws'
      { id, clientId := client.id, name := strip name, keyPrefix := visiblePrefix (draws n).token,
        keyHash := sha256 (draws n).token, expiresAt }
      { id, clientId := client.id, name := strip name, keyPrefix := visiblePrefix (draws n).token,
        keyHash := sha256 (draws' n).token, expiresAt } :=
    .drawn n hn { id, clientId := client.id, name := strip name,
                  keyPrefix := visiblePrefix (draws n).token, keyHash := "", expiresAt }
  unfold generateApiKey
  dsimp only
  rw [hids, hprefix]
  refine .ite (.raise _) (.seq (.modify fun s t hst => ?_) (.pure ⟨hrow, rfl, rfl⟩))
  exact ⟨hst.users, hst.clients, hst.allowedModels,
    List.rel_append hst.apiKeys (.cons hrow .nil)⟩

/-- `revoke_api_key` finds keys by their identifiers, and revokes twin keys. -/
theorem agree_revokeApiKey (now : ℤ) (apiKeyId : String) :
    SessionAgree sha256 N draws draws' (Twin sha256 N draws draws')
      (Services.Admin.revokeApiKey now apiKeyId) (Services.Admin.revokeApiKey now apiKeyId) := by
  unfold Services.Admin.revokeApiKey
  refine Exec.Agree.bind (agree_getApiKey apiKeyId) fun k k' htwin => ?_
  have hrevoked :
      Twin sha256 N draws draws' { k with revokedAt := some now }
      { k' with revokedAt := some now } :=
    htwin.change (f := fun k => { k with revokedAt := some now }) fun _ _ => rfl
  obtain ⟨n, hn, k⟩ := htwin
  refine .ite (.seq (.modify fun s t hst => ?_) (.pure hrevoked)) (.pure (.drawn n hn k))
  exact hst.update k.id fun _ _ => rfl

/-- `rotate_api_key` answers with twin keys, the token of its own draw beside each. -/
theorem agree_rotateApiKey (hpaired : Paired sha256 N draws draws') {n : ℕ} (hn : n ∈ N) (now : ℤ)
    (id apiKeyId : String) (revokeOld : Bool) :
    SessionAgree sha256 N draws draws'
      (fun rotated rotated' => (Twin sha256 N draws draws' rotated.1 rotated'.1 ∧
        rotated.2.1 = (draws n).token ∧ rotated'.2.1 = (draws' n).token) ∧
        rotated'.2.2.map (·.id) = rotated.2.2.map (·.id))
      (Services.Admin.rotateApiKey sha256 (draws n) now id apiKeyId revokeOld)
      (Services.Admin.rotateApiKey sha256 (draws' n) now id apiKeyId revokeOld) := by
  unfold Services.Admin.rotateApiKey
  refine Exec.Agree.bind (agree_getApiKey apiKeyId) fun old old' hold => ?_
  obtain ⟨m, hm, old⟩ := hold
  refine Exec.Agree.bind (agree_createApiKey hpaired hn id old.clientId _ none)
    fun created created' hcreated => ?_
  obtain ⟨newKey, fullToken⟩ := created
  obtain ⟨newKey', fullToken'⟩ := created'
  refine .ite (Exec.Agree.bind (agree_revokeApiKey now old.id) fun k k' hk => .pure ⟨hcreated, ?_⟩)
    (.pure ⟨hcreated, rfl⟩)
  obtain ⟨l, hl, k⟩ := hk
  rfl

/-- The allowed models do not depend on keys. -/
theorem agree_modelsOf (clientId : String) :
    SessionAgree sha256 N draws draws' Eq (Services.Admin.getClientAllowedModels clientId)
      (Services.Admin.getClientAllowedModels clientId) :=
  Exec.Agree.bind .get fun db db' h => .pure (by
    unfold Database.modelsOf
    rw [h.allowedModels])

/-- A change of policy does not look at keys. -/
theorem agree_updateClientPolicy (commit : Option Exc) (clientId : String)
    (body : ClientPolicyUpdate) :
    SessionAgree sha256 N draws draws' Eq (updateClientPolicy commit clientId body)
      (updateClientPolicy commit clientId body) := by
  unfold updateClientPolicy
  refine Exec.Agree.bind (agree_getClient clientId) ?_
  rintro client _ rfl
  cases commit with
  | some exc => exact .raise exc
  | none =>
      refine .seq (.modify fun s t hst => ?_) (.pure rfl)
      exact ⟨hst.users, by unfold updateClient; rw [hst.clients], hst.allowedModels, hst.apiKeys⟩

/-- The last use of twin keys is written alike. -/
theorem agree_touch (env : AuthEnv) {k k' : ApiKey} (h : Twin sha256 N draws draws' k k') :
    SessionAgree sha256 N draws draws' (Twin sha256 N draws draws') (touch env k)
    (touch env k') := by
  have hused :
      Twin sha256 N draws draws' { k with lastUsedAt := some env.now }
      { k' with lastUsedAt := some env.now } :=
    h.change (f := fun k => { k with lastUsedAt := some env.now }) fun _ _ => rfl
  unfold touch
  obtain ⟨n, hn, k⟩ := h
  refine .ite (.seq (.modify fun s t hst => ?_) (.pure hused)) (.pure (.drawn n hn k))
  exact hst.update k.id fun _ _ => rfl

/-- Twin keys give the same principal. -/
theorem agree_principal {k k' : ApiKey} (h : Twin sha256 N draws draws' k k') :
    SessionAgree sha256 N draws draws' Eq (principalFromApiKeyWithSession k)
    (principalFromApiKeyWithSession k') := by
  obtain ⟨n, hn, k⟩ := h
  unfold principalFromApiKeyWithSession
  refine Exec.Agree.bind .get fun db db' h => ?_
  unfold Database.clientOf Database.userOf Database.modelsOf
  rw [h.clients, h.users, h.allowedModels]
  cases db.clients.find? fun c => c.id = k.clientId with
  | none => exact .raise _
  | some client =>
      dsimp only
      cases db.users.find? fun u => u.id = client.userId with
      | none => exact .raise _
      | some user => exact .pure rfl

end Service

/-! ## The endpoints -/

section Endpoint

variable {α β : Type}

/-- An endpoint in two runs. -/
abbrev EndpointAgree (sha256 : Text → String) (N : Set ℕ) (draws draws' : ℕ → Draw)
    (A : α → β → Prop) (x : Endpoint α) (y : Endpoint β) : Prop :=
  Exec.Agree (TwinPlanes sha256 N draws draws') A x y

/-- What agrees on the tables agrees in an endpoint. -/
theorem agree_onSession {A : α → β → Prop} {x : Exec Exc Database α} {y : Exec Exc Database β}
    (h : SessionAgree sha256 N draws draws' A x y) :
    EndpointAgree sha256 N draws draws' A (onSession x) (onSession y) :=
  Exec.Agree.zoom h (fun _ _ hst => hst.database) fun _ _ _ _ hst hrows => ⟨hrows, hst.log⟩

/-- The same line of the log in front of what follows. -/
theorem agree_line {A : α → β → Prop} {x : Endpoint α} {y : Endpoint β} {line line' : List Text}
    (hline : line' = line) (h : EndpointAgree sha256 N draws draws' A x y) :
    EndpointAgree sha256 N draws draws' A (do logInfo line; x) (do logInfo line'; y) := by
  subst hline
  exact .seq (.modify fun s t hst => ⟨hst.database, by rw [hst.log]⟩) h

/-- Tokens that find the same rows in the two runs. -/
structure FindsAlike (sha256 : Text → String) (N : Set ℕ) (draws draws' : ℕ → Draw)
    (token token' : Text) : Prop where
  shown : visiblePrefix token' = visiblePrefix token
  found : ∀ n ∈ N, sha256 (draws n).token = sha256 token ↔ sha256 (draws' n).token = sha256 token'

/-- The token of a fair call. -/
theorem agree_presented (hpaired : Paired sha256 N draws draws') {now : ℤ} {commits : Bool}
    {presented : Presented}
    (hfair : (Call.authenticateRequest now commits presented).Fair sha256 N draws)
    (hfair' : (Call.authenticateRequest now commits presented).Fair sha256 N draws') :
    EndpointAgree sha256 N draws draws' (FindsAlike sha256 N draws draws')
      (extractBearerToken (presented.authHeader draws))
      (extractBearerToken (presented.authHeader draws')) := by
  intro s t hst
  cases presented with
  | issued n =>
      have hrun : ∀ (draw : Draw) (s : Plane),
          (extractBearerToken (some (bearer draw.token))).run s = (.ok draw.token, s) :=
        fun draw s => (extractBearerToken_bearer (not_space_token draw)).mpr ⟨rfl, rfl,
          isValidFormat_token draw⟩
      unfold Presented.authHeader
      rw [hrun, hrun]
      refine ⟨.ok ⟨?_, fun m hm => ?_⟩, hst⟩
      · -- a token that was issued shows its public part only
        rw [visiblePrefix_token, visiblePrefix_token, hpaired.publicPart]
      · rw [hpaired.distinct.eq_iff hm hfair, hpaired.distinct'.eq_iff hm hfair']
  | header authHeader =>
      have hend : ∀ s : Plane, ((extractBearerToken authHeader).run s).1 =
          ((extractBearerToken authHeader).run ()).1 :=
        fun s => (agree_extractBearerToken (R := fun _ _ => True) authHeader s () trivial).1.eq
      have hstate : ∀ s : Plane, ((extractBearerToken authHeader).run s).2 = s :=
        extractBearerToken_preserves authHeader
      unfold Presented.authHeader
      rw [hend, hend, hstate, hstate]
      refine ⟨?_, hst⟩
      cases htoken : ((extractBearerToken authHeader).run ()).1 with
      | error exc => exact .error exc
      | ok token =>
          -- a token that was not issued matches no row in either run
          exact .ok ⟨rfl,
            fun n hn => iff_of_false (hfair token htoken n hn) (hfair' token htoken n hn)⟩

/-- A token that is presented for a twin key is accepted or refused alike. -/
theorem agree_authenticateRequest (hpaired : Paired sha256 N draws draws') {now : ℤ}
    {commits : Bool} {presented : Presented}
    (hfair : (Call.authenticateRequest now commits presented).Fair sha256 N draws)
    (hfair' : (Call.authenticateRequest now commits presented).Fair sha256 N draws') :
    EndpointAgree sha256 N draws draws' Eq
      (authenticateRequest { sha256, now, commits } (presented.authHeader draws))
      (authenticateRequest { sha256, now, commits } (presented.authHeader draws')) := by
  unfold authenticateRequest
  refine Exec.Agree.bind (agree_getDbSession _) fun _ _ _ =>
    Exec.Agree.bind (agree_presented hpaired hfair hfair') fun token token' htoken =>
      Exec.Agree.bind .get fun s t hst => ?_
  -- a row has the hash of the one token exactly if its twin has that of the other
  have hhash : ∀ {k k' : ApiKey}, Twin sha256 N draws draws' k k' →
      (k.keyHash = sha256 token ↔ k'.keyHash = sha256 token') := by
    rintro _ _ ⟨n, hn, k⟩
    exact htoken.found n hn
  have hrows : List.Forall₂ (Twin sha256 N draws draws')
      (s.database.apiKeys.filter fun k => k.keyHash = sha256 token)
      (t.database.apiKeys.filter fun k => k.keyHash = sha256 token') := by
    refine List.rel_filter (fun k k' hk => ?_) hst.database.apiKeys
    simpa only [decide_eq_true_eq] using hhash hk
  refine Exec.Agree.bind (agree_oneOrNone hrows) fun found found' hfound => ?_
  cases hfound with
  | none => exact agree_line (by rw [htoken.shown]) (.raise _)
  | some hrow =>
      have hverify : ∀ {k k' : ApiKey}, Twin sha256 N draws draws' k k' →
          verifyApiKey sha256 token' k'.keyHash = verifyApiKey sha256 token k.keyHash := fun h =>
        decide_eq_decide.mpr (eq_comm.trans ((hhash h).symm.trans eq_comm))
      dsimp only
      rw [hverify hrow]
      have htouch := agree_touch { sha256, now, commits } hrow
      obtain ⟨n, hn, k⟩ := hrow
      refine .ite (agree_line rfl (.raise _))
        (.ite (agree_line rfl (.raise _)) (.ite (agree_line rfl (.raise _)) ?_))
      refine Exec.Agree.bind (agree_onSession htouch) fun row row' hrow =>
        Exec.Agree.bind (agree_onSession (agree_principal hrow)) ?_
      rintro principal _ rfl
      exact agree_line rfl (.pure rfl)

/-- A response that shows no key. -/
theorem agree_response {x y : Endpoint α} {response : α → Response} {c : Call}
    (h : EndpointAgree sha256 N draws draws' Eq x y) (hdraw : c.draw = none)
    (hkey : ∀ a, (response a).key = none) :
    EndpointAgree sha256 N draws draws' (Shown draws draws' c) (response <$> x)
    (response <$> y) := by
  refine Exec.Agree.map h ?_
  rintro a _ rfl
  exact ⟨by rw [hkey, hdraw]; rfl, by rw [hkey, hdraw]; rfl, rfl⟩

/-- The answer of `create_user` shows no key. -/
theorem endpoint_createUser (id : String) (name : Text) :
    EndpointAgree sha256 N draws draws' Eq (createUser id name) (createUser id name) := by
  refine Exec.Agree.bind (agree_onSession (agree_createUser id name)) ?_
  rintro user _ rfl
  exact agree_line rfl (.pure rfl)

/-- The list of users shows no key. -/
theorem endpoint_listUsers :
    EndpointAgree sha256 N draws draws' Eq (listUsers createdAt) (listUsers createdAt) := by
  have hrows : SessionAgree sha256 N draws draws' Eq (Services.Admin.listUsers createdAt)
      (Services.Admin.listUsers createdAt) :=
    Exec.Agree.bind .get fun _ _ h => .pure (by rw [h.users])
  refine Exec.Agree.bind (agree_onSession hrows) ?_
  rintro users _ rfl
  exact .pure rfl

/-- The answer of `create_client` shows no key. -/
theorem endpoint_createClient (id userId : String) (name : Text) (description : Option Text)
    (allowedModels : Option (List Str)) :
    EndpointAgree sha256 N draws draws' Eq (createClient id userId name description allowedModels)
      (createClient id userId name description allowedModels) := by
  refine Exec.Agree.bind
    (agree_onSession (agree_createClient id userId name description allowedModels)) ?_
  rintro client _ rfl
  refine Exec.Agree.bind (agree_onSession (agree_modelsOf client.id)) ?_
  rintro allowed _ rfl
  exact agree_line rfl (.pure rfl)

/-- The list of clients shows no key. -/
theorem endpoint_listClients (userId : Option String) :
    EndpointAgree sha256 N draws draws' Eq (listClients createdAt userId)
    (listClients createdAt userId) := by
  have hrows : SessionAgree sha256 N draws draws' Eq (Services.Admin.listClients createdAt userId)
      (Services.Admin.listClients createdAt userId) := by
    refine Exec.Agree.bind .get fun db db' h => ?_
    rw [h.clients]
    exact .pure rfl
  refine Exec.Agree.bind (agree_onSession hrows) ?_
  rintro clients _ rfl
  refine Exec.Agree.mapM_same clients fun c =>
    Exec.Agree.bind (agree_onSession (agree_modelsOf c.id)) ?_
  rintro allowed _ rfl
  exact .pure rfl

/-- The answer of `create_api_key` shows the token of its own draw, and no other. -/
theorem endpoint_createApiKey (hpaired : Paired sha256 N draws draws') {n : ℕ} (hn : n ∈ N)
    (id clientId : String) (name : Text) (expiresAt : Option ℤ) :
    EndpointAgree sha256 N draws draws'
      (fun out out' => out.key = (draws n).token ∧ out' = { out with key := (draws' n).token })
      (createApiKey sha256 (draws n) id clientId name expiresAt)
      (createApiKey sha256 (draws' n) id clientId name expiresAt) := by
  refine Exec.Agree.bind
    (agree_onSession (agree_createApiKey hpaired hn id clientId name expiresAt)) ?_
  rintro ⟨apiKey, token⟩ ⟨apiKey', token'⟩ ⟨htwin, htoken, htoken'⟩
  dsimp only at htwin htoken htoken'
  obtain ⟨m, hm, k⟩ := htwin
  subst htoken htoken'
  exact agree_line rfl (.pure ⟨rfl, rfl⟩)

/-- The answer of `rotate_api_key` shows the token of its own draw, and no other. -/
theorem endpoint_rotateApiKey (hpaired : Paired sha256 N draws draws') {n : ℕ} (hn : n ∈ N)
    (now : ℤ) (id apiKeyId : String) (revokeOld : Bool) :
    EndpointAgree sha256 N draws draws'
      (fun out out' => out.key = (draws n).token ∧ out' = { out with key := (draws' n).token })
      (rotateApiKey sha256 (draws n) now id apiKeyId revokeOld)
      (rotateApiKey sha256 (draws' n) now id apiKeyId revokeOld) := by
  refine Exec.Agree.bind
    (agree_onSession (agree_rotateApiKey hpaired hn now id apiKeyId revokeOld)) ?_
  rintro ⟨newKey, token, old⟩ ⟨newKey', token', old'⟩ ⟨⟨htwin, htoken, htoken'⟩, hold⟩
  dsimp only at htwin htoken htoken' hold ⊢
  obtain ⟨m, hm, k⟩ := htwin
  subst htoken htoken'
  rw [hold]
  exact agree_line rfl (.pure ⟨rfl, rfl⟩)

/-- A key as the listing shows it. -/
theorem Twin.out {k k' : ApiKey} (h : Twin sha256 N draws draws' k k') :
    ApiKeyOut.of k' = ApiKeyOut.of k := by
  obtain ⟨n, hn, k⟩ := h
  rfl

/-- The list of keys shows neither token nor hash. -/
theorem endpoint_listApiKeys (clientId : Option String) :
    EndpointAgree sha256 N draws draws' Eq (listApiKeys createdAt clientId)
    (listApiKeys createdAt clientId) := by
  have hid : ∀ k k', Twin sha256 N draws draws' k k' → k'.id = k.id := by
    rintro _ _ ⟨n, hn, k⟩
    rfl
  have hrows : SessionAgree sha256 N draws draws' (List.Forall₂ (Twin sha256 N draws draws'))
      (Services.Admin.listApiKeys createdAt clientId)
          (Services.Admin.listApiKeys createdAt clientId) := by
    refine Exec.Agree.bind .get fun db db' h => .pure (Services.Admin.forall₂_byCreation hid ?_)
    cases clientId with
    | none => exact h.apiKeys
    | some clientId =>
        -- twin keys belong to one client
        refine List.rel_filter ?_ h.apiKeys
        rintro _ _ ⟨n, hn, k⟩
        exact Iff.rfl
  refine Exec.Agree.bind (agree_onSession hrows) fun keys keys' h => .pure ?_
  refine List.forall₂_eq_eq_eq ▸ List.forall₂_map_left_iff.mpr (List.forall₂_map_right_iff.mpr ?_)
  exact h.imp fun _ _ htwin => htwin.out.symm

/-- The answer of `revoke_api_key` shows neither token nor hash. -/
theorem endpoint_revokeApiKey (now : ℤ) (apiKeyId : String) :
    EndpointAgree sha256 N draws draws' Eq (revokeApiKey now apiKeyId)
    (revokeApiKey now apiKeyId) := by
  refine Exec.Agree.bind (agree_onSession (agree_revokeApiKey now apiKeyId)) fun k k' htwin => ?_
  obtain ⟨n, hn, k⟩ := htwin
  exact agree_line rfl (.pure rfl)

/-- The policy of a client does not depend on keys. -/
theorem agree_getClientPolicy (clientId : String) :
    SessionAgree sha256 N draws draws' Eq (getClientPolicy clientId)
    (getClientPolicy clientId) := by
  refine Exec.Agree.bind (agree_getClient clientId) ?_
  rintro client _ rfl
  exact .pure rfl

/-- What the two runs answer to one call. -/
theorem agree_respond (hpaired : Paired sha256 N draws draws') {c : Call}
    (hfair : c.Fair sha256 N draws) (hfair' : c.Fair sha256 N draws') :
    EndpointAgree sha256 N draws draws' (Shown draws draws' c) (respond sha256 createdAt draws c)
      (respond sha256 createdAt draws' c) := by
  cases c with
  | createUser id name => exact agree_response (endpoint_createUser id name) rfl fun _ => rfl
  | listUsers => exact agree_response endpoint_listUsers rfl fun _ => rfl
  | createClient id userId name description allowedModels =>
      exact agree_response (endpoint_createClient id userId name description allowedModels) rfl
        fun _ => rfl
  | listClients userId => exact agree_response (endpoint_listClients userId) rfl fun _ => rfl
  | createApiKey n id clientId name expiresAt =>
      refine Exec.Agree.map (endpoint_createApiKey hpaired hfair id clientId name expiresAt) ?_
      -- the token is shown to the administrator who created the key, and to nobody else
      rintro out _ ⟨hkey, rfl⟩
      exact ⟨congrArg some hkey, rfl, rfl⟩
  | listApiKeys clientId => exact agree_response (endpoint_listApiKeys clientId) rfl fun _ => rfl
  | revokeApiKey now apiKeyId =>
      exact agree_response (endpoint_revokeApiKey now apiKeyId) rfl fun _ => rfl
  | rotateApiKey n now id apiKeyId revokeOld =>
      refine Exec.Agree.map (endpoint_rotateApiKey hpaired hfair now id apiKeyId revokeOld) ?_
      rintro out _ ⟨hkey, rfl⟩
      exact ⟨congrArg some hkey, rfl, rfl⟩
  | getClientPolicy clientId =>
      exact agree_response (agree_onSession (agree_getClientPolicy clientId)) rfl fun _ => rfl
  | updateClientPolicy commit clientId body =>
      exact agree_response (agree_onSession (agree_updateClientPolicy commit clientId body)) rfl
        fun _ => rfl
  | authenticateRequest now commits presented =>
      exact agree_response (agree_authenticateRequest hpaired hfair hfair') rfl fun _ => rfl

end Endpoint

/-! ## Every run -/

/-- The answers of two runs to the same calls. -/
def SameAnswers (draws draws' : ℕ → Draw) :
    List (Call × Except Exc Response) → List (Call × Except Exc Response) → Prop :=
  List.Forall₂ fun e e' => e'.1 = e.1 ∧ Alike (Shown draws draws' e.1) e.2 e'.2

/-- Two planes that draw other tokens stay twin over all calls, and answer alike. -/
theorem agree_serve (hpaired : Paired sha256 N draws draws') {calls : List Call}
    (hfair : ∀ c ∈ calls, c.Fair sha256 N draws ∧ c.Fair sha256 N draws') :
    TwinPlanes sha256 N draws draws' (serve sha256 createdAt draws calls).plane
        (serve sha256 createdAt draws' calls).plane ∧
      SameAnswers draws draws' (serve sha256 createdAt draws calls).history
        (serve sha256 createdAt draws' calls).history := by
  induction calls using List.reverseRecOn with
  | nil =>
      rw [serve_nil, serve_nil]
      exact ⟨⟨⟨rfl, rfl, rfl, .nil⟩, rfl⟩, .nil⟩
  | append_singleton calls c ih =>
      obtain ⟨hplanes, hanswers⟩ := ih fun c hc => hfair c (List.mem_append_left _ hc)
      obtain ⟨hfairc, hfairc'⟩ := hfair c (List.mem_append_right _ (List.mem_singleton_self c))
      rw [serve_append, serve_append]
      generalize serve sha256 createdAt draws calls = s at hplanes hanswers ⊢
      generalize serve sha256 createdAt draws' calls = t at hplanes hanswers ⊢
      obtain ⟨hends, hstates⟩ := agree_respond hpaired hfairc hfairc' s.plane t.plane hplanes
      refine ⟨hstates, ?_⟩
      unfold Served.call
      exact List.rel_append hanswers (.cons ⟨rfl, hends⟩ .nil)

/-- One public part, with one or the other secret. -/
def sampleDraw (c : Char) (h : isUrlSafe c = true) : Draw where
  publicPart := "aB3xK9pQ".toList
  secretSuffix := List.replicate secretLen c
  public_length := rfl
  public_alphabet := List.all_eq_true.mp rfl
  secret_length := List.length_replicate
  secret_alphabet := fun _ hc => (List.eq_of_mem_replicate hc) ▸ h

/-- A key that is given out, used, listed and revoked, and a request without a header. -/
def sampleCalls : List Call :=
  [.createUser "u" "ada".toList, .createClient "c" "u" "cli".toList none none,
    .createApiKey 0 "k" "c" "key".toList none, .authenticateRequest 5 true (.issued 0),
    .authenticateRequest 6 true (.header none), .listApiKeys none, .revokeApiKey 7 "k",
    .authenticateRequest 8 true (.issued 0)]

end SynGateway.Api.Admin.Management

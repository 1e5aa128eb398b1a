import SynGateway.Api.Admin.ClientPolicy
import SynGateway.Api.Chat.Endpoint

/-!
# The gateway as a whole

The management plane and the data plane on one database and one rate limiter. What the management
plane has answered with success is the book of the gateway: the tokens that it gave out and their
clients, and the updates of the clients' policies. `chat_permitted` says that the data plane does
what the book says: in every state that calls of either plane lead to, in any order, a chat request
gets to its completion function exactly if the book permits it, and the backend is called for
nothing else.
-/

namespace SynGateway.Gateway

open SynGateway.Api.Admin SynGateway.Api.Chat SynGateway.Core SynGateway.Core.Auth
  SynGateway.Core.Policy
open SynGateway.Core.RateLimit SynGateway.Db SynGateway.Python SynGateway.Routing
  SynGateway.Services
open SynGateway.Services.Admin SynGateway.Services.KeyLifecycle SynGateway.Transition

/-! ## The calls of both planes -/

/-- What the requests work on, and the book: what was registered, and for each client the updates of
its policy that were answered with success. -/
structure State where
  store : Store
  registry : KeyRegistry := {}
  updates : String → List ClientPolicyUpdate := fun _ => []

/-- The state with another database. -/
def State.withDatabase (s : State) (database : Database) : State :=
  { s with store := { s.store with database } }

/-- A call of a service of the management plane that succeeds, or an authentication; an update of a
policy; or a chat request. -/
inductive Action
  | manage (op : KeyLifecycle.Op)
  | updateClientPolicy (commit : Option Exc) (clientId : String) (body : ClientPolicyUpdate)
  | chat (r : Request)

/-- One call. -/
def step (app : AppState) (sha256 : Text → String) (s : State) : Action → Option State
  | .manage op =>
    (KeyLifecycle.step sha256 ⟨s.store.database, s.registry⟩ op).map fun t =>
      { s.withDatabase t.db with registry := t.registry }
  | .updateClientPolicy commit clientId body =>
    match (updateClientPolicy commit clientId body).run s.store.database with
    | (.ok _, db) => some { s.withDatabase db with
        updates := Function.update s.updates clientId (s.updates clientId ++ [body]) }
    | (.error _, db) => some (s.withDatabase db)
  | .chat r => some { s with store := ((createChatCompletion app r).run s.store).2 }

/-- The tokens that are drawn are fresh, and there is one hash function. -/
def Regular (sha256 : Text → String) (s : State) : Action → Prop
  | .manage op => KeyLifecycle.Fresh ⟨s.store.database, s.registry⟩ op
  | .chat r => r.sha256 = sha256
  | _ => True

/-- A gateway without rows. -/
def init (windowSeconds : ℚ) : State where
  store := { database := {}, limiter := RateLimiter.new windowSeconds }

variable {app : AppState} {service : UsageService} {sha256 : Text → String} {s t : State}
  {r : Request} {db db' : Database} {registry : KeyRegistry}

/-! ## What the calls keep -/

/-- The database tells what the book does. -/
structure Inv (sha256 : Text → String) (s : State) : Prop where
  implements : Implements sha256 s.store.database s.registry
  limits : ∀ c ∈ s.store.database.clients, limitsOf c = limitsSet (s.updates c.id)
  inherits : ∀ k ∈ s.store.database.apiKeys, Inherits k
  unknown : ∀ id, (∀ c ∈ s.store.database.clients, c.id ≠ id) → s.updates id = []

/-- The clients stay, and new keys inherit their limits as the old ones do. -/
def Quiet (db db' : Database) : Prop :=
  db'.clients = db.clients ∧ ((∀ k ∈ db.apiKeys, Inherits k) → ∀ k ∈ db'.apiKeys, Inherits k)

/-- Nothing happened. -/
theorem Quiet.refl (db : Database) : Quiet db db := ⟨rfl, id⟩

/-- One quiet step after another. -/
theorem Quiet.trans {db₁ db₂ db₃ : Database} (h : Quiet db₁ db₂) (h' : Quiet db₂ db₃) :
    Quiet db₁ db₃ :=
  ⟨h'.1.trans h.1, h'.2 ∘ h.2⟩

/-- A change of the times of a key. -/
theorem quiet_updateApiKey (id : String) {f : ApiKey → ApiKey}
    (hf : ∀ k, Inherits k → Inherits (f k)) :
    Quiet db (db.updateApiKey id f) := by
  refine ⟨rfl, fun h k hk => ?_⟩
  obtain ⟨k, hmem, rfl⟩ := List.mem_map.mp hk
  split
  · exact hf k (h k hmem)
  · exact h k hmem

/-- The use of a key is quiet. -/
theorem quiet_touched (env : AuthEnv) (k : ApiKey) : Quiet db (touched env db k) := by
  unfold touched
  split
  · exact quiet_updateApiKey k.id fun _ h => ⟨h.1, h.2, h.3⟩
  · exact .refl db

/-- Authentication is quiet. -/
theorem quiet_authenticate (env : AuthEnv) (header : Option Text) :
    Quiet db ((authenticateRequest env header).run db).2 := by
  rcases authenticateRequest_state env header db with heq | ⟨k, heq⟩
  · rw [heq]
    exact .refl db
  · rw [heq]
    exact quiet_touched env k

/-- A new key is quiet: it has no limits of its own. -/
theorem quiet_createApiKey {draw : ApiKeys.Draw} {id clientId : String} {name : Text}
    {expiresAt : Option ℤ} {result : ApiKey × Text}
    (h : (createApiKey sha256 draw id clientId name expiresAt).run db = (.ok result, db')) :
    Quiet db db' := by
  obtain ⟨-, -, -, hrow, rfl⟩ := createApiKey_row h
  refine ⟨rfl, fun hold k hk => ?_⟩
  rcases List.mem_append.mp hk with hk | hk
  · exact hold k hk
  · rw [List.mem_singleton.mp hk, hrow]
    exact ⟨rfl, rfl, rfl⟩

/-- A revocation is quiet. -/
theorem quiet_revokeApiKey {now : ℤ} {apiKeyId : String} {apiKey : ApiKey}
    (h : (revokeApiKey now apiKeyId).run db = (.ok apiKey, db')) : Quiet db db' := by
  obtain ⟨old, -, -, ⟨-, rfl⟩ | ⟨-, rfl⟩⟩ := revokeApiKey_eq_ok h
  · exact quiet_updateApiKey apiKeyId fun _ h => ⟨h.1, h.2, h.3⟩
  · exact .refl _

/-- A new client has no limits of its own. -/
theorem createClient_limits {id userId : String} {name : Text} {description : Option Text}
    {allowedModels : Option (List Str)} {client : Client}
    (h : (createClient id userId name description allowedModels).run db = (.ok client, db')) :
    limitsOf client = {} := by
  unfold createClient at h
  dsimp only at h
  split at h
  · cases h
  · obtain ⟨user, db₁, -, hrun⟩ := Exec.run_bind_eq_ok.mp h
    rw [Exec.run_get_bind] at hrun
    split_ifs at hrun
    · cases hrun
    · cases hrun
      rfl
    · cases hrun

/-- A call of a service leaves the clients alone, or adds one without limits. -/
theorem manage_cases {u v : KeyLifecycle.State} {op : KeyLifecycle.Op}
    (h : KeyLifecycle.step sha256 u op = some v) :
    Quiet u.db v.db ∨ ∃ client, limitsOf client = {} ∧ (∀ c ∈ u.db.clients, c.id ≠ client.id) ∧
      v.db.clients = u.db.clients ++ [client] ∧ v.db.apiKeys = u.db.apiKeys := by
  cases op with
  | createUser id name =>
      obtain ⟨user, hrun, -⟩ := succeed_eq_some h
      rw [(createUser_eq_ok hrun).2]
      exact .inl ⟨rfl, fun h => h⟩
  | createClient id userId name description allowedModels =>
      obtain ⟨client, hrun, -⟩ := succeed_eq_some h
      obtain ⟨-, hunique, rfl, -, hdb⟩ := createClient_eq_ok hrun
      exact .inr ⟨client, createClient_limits hrun, hunique, by rw [hdb], by rw [hdb]⟩
  | createApiKey draw id clientId name expiresAt =>
      obtain ⟨result, hrun, -⟩ := succeed_eq_some h
      exact .inl (quiet_createApiKey hrun)
  | revokeApiKey now apiKeyId =>
      obtain ⟨apiKey, hrun, -⟩ := succeed_eq_some h
      exact .inl (quiet_revokeApiKey hrun)
  | rotateApiKey draw now id apiKeyId revokeOld =>
      obtain ⟨result, hrun, -⟩ := succeed_eq_some h
      obtain ⟨row, -, -, name, db₁, hcreate, hrevoke⟩ := rotateApiKey_eq_ok hrun
      split at hrevoke
      · obtain ⟨k, hrevoke⟩ := hrevoke
        exact .inl ((quiet_createApiKey hcreate).trans (quiet_revokeApiKey hrevoke))
      · rw [hrevoke]
        exact .inl (quiet_createApiKey hcreate)
  | authenticateRequest now commits authHeader =>
      obtain rfl := Option.some.inj h
      exact .inl (quiet_authenticate _ authHeader)
  | authenticateWithOrm now commits authHeader =>
      obtain rfl := Option.some.inj h
      dsimp only
      rw [authenticateWithOrm_state]
      exact .inl (quiet_authenticate _ authHeader)

/-- A chat request does to the database what its authentication does. -/
theorem createChatCompletion_database (app : AppState) (r : Request) (store : Store) :
    ((createChatCompletion app r).run store).2.database =
      ((authenticateRequest (r.authEnv app) r.authorization).run store.database).2 := by
  have hrest : ∀ result : AuthenticatedPrincipal × ApiKey × Client,
    Exec.Preserves Store.database (do
      checkUsage app r result.2.1 result.2.2
      let target ← Exec.lift (chooseTarget app r.body result.1)
      return {
        principal := result.1, apiKey := result.2.1, client := result.2.2, target : Dispatch }) := by
    intro result
    refine Exec.Moves.bind ?_ fun _ => Exec.Moves.bind (Exec.Moves.lift _) fun _ => .pure _
    unfold checkUsage
    split
    · exact .pure _
    · split
      · refine Exec.Moves.bind (fun store => ?_) fun _ => .pure _
        unfold Exec.Same
        rw [Exec.run_zoom_state]
      · exact .raise _
  unfold createChatCompletion
  rw [Exec.view_bind Store.database hrest]
  unfold authenticate
  rw [Exec.run_zoom_state]
  exact authenticateWithOrm_state ..

/-- An update of a policy is nothing to the registry. -/
theorem implements_updateClient (h : Implements sha256 db registry) (clientId : String)
    (body : ClientPolicyUpdate) :
    Implements sha256 (updateClient db clientId body.write) registry where
  keys := h.keys
  clients := by
    unfold updateClient
    dsimp only
    rw [List.map_map, ← h.clients]
    refine List.map_congr_left fun c _ => ?_
    rw [Function.comp_apply]
    split <;> rfl
  keyIds := h.keyIds
  tokens := h.tokens
  generated := h.generated
  keyClients := by
    intro k hk
    obtain ⟨c, hc, hid⟩ := h.keyClients k hk
    refine ⟨_, List.mem_map_of_mem hc, ?_⟩
    split
    · exact hid
    · exact hid
  -- the update writes limits only, so ids and owners stay as they were
  clientIds := by
    have hids := map_update (p := fun c : Client => c.id = clientId) (f := body.write) db.clients
      fun c => write_id body c
    unfold updateClient
    dsimp only
    rw [hids]
    exact h.clientIds
  clientUsers := by
    intro c hc
    obtain ⟨c, hmem, rfl⟩ := List.mem_map.mp hc
    obtain ⟨u, hu, hid⟩ := h.clientUsers c hmem
    refine ⟨u, hu, ?_⟩
    split
    · exact hid
    · exact hid

/-- A call that leaves the clients alone. -/
theorem Inv.quiet (h : Inv sha256 s) (hquiet : Quiet s.store.database t.store.database)
    (himpl : Implements sha256 t.store.database t.registry) (hupdates : t.updates = s.updates) :
    Inv sha256 t where
  implements := himpl
  limits := by
    rw [hquiet.1, hupdates]
    exact h.limits
  inherits := hquiet.2 h.inherits
  unknown := by
    rw [hquiet.1, hupdates]
    exact h.unknown

/-- The invariant holds before the first request. -/
theorem inv_init (windowSeconds : ℚ) : Inv sha256 (init windowSeconds) where
  implements := implements_init
  limits := by simp [init]
  inherits := by simp [init]
  unknown := fun _ _ => rfl

/-- One call. -/
theorem inv_step {a : Action} (h : Inv sha256 s) (hregular : Regular sha256 s a)
    (hstep : step app sha256 s a = some t) : Inv sha256 t := by
  cases a with
  | manage op =>
      obtain ⟨u, hu, rfl⟩ := Option.map_eq_some_iff.mp hstep
      have himpl : Implements sha256 u.db u.registry := implements_step h.implements hregular hu
      rcases manage_cases hu with hquiet | ⟨client, hnone, hfresh, hclients, hkeys⟩
      · exact h.quiet hquiet himpl rfl
      · have hempty : s.updates client.id = [] := h.unknown client.id hfresh
        refine ⟨himpl, ?_, ?_, ?_⟩
        · change ∀ c ∈ u.db.clients, limitsOf c = limitsSet (s.updates c.id)
          rw [hclients]
          intro c hc
          rcases List.mem_append.mp hc with hc | hc
          · exact h.limits c hc
          · rw [List.mem_singleton.mp hc, hnone, hempty]
            rfl
        · change ∀ k ∈ u.db.apiKeys, Inherits k
          rw [hkeys]
          exact h.inherits
        · change ∀ id, (∀ c ∈ u.db.clients, c.id ≠ id) → s.updates id = []
          rw [hclients]
          exact fun id hid => h.unknown id fun c hc => hid c (List.mem_append_left _ hc)
  | updateClientPolicy commit clientId body =>
      unfold step at hstep
      dsimp only at hstep
      split at hstep
      · next out db hrun =>
          obtain rfl := Option.some.inj hstep
          obtain ⟨client, hmem, hid, -, rfl⟩ := updateClientPolicy_eq_ok hrun
          refine ⟨implements_updateClient h.implements clientId body, ?_, h.inherits,
            fun id hnone => ?_⟩
          · intro c hc
            obtain ⟨c, hmemc, rfl⟩ := List.mem_map.mp hc
            dsimp only
            by_cases hcid : c.id = clientId
            · rw [if_pos hcid, limitsOf_write, write_id, hcid, Function.update_self,
                limitsSet_append, h.limits c hmemc, hcid]
            · rw [if_neg hcid, Function.update_of_ne hcid, h.limits c hmemc]
          · -- the client of the update is not the unknown one
            have hne : id ≠ clientId := by
              rintro rfl
              refine hnone _ (List.mem_map_of_mem hmem) ?_
              rw [if_pos hid]
              exact hid
            change Function.update s.updates clientId _ id = []
            rw [Function.update_of_ne hne]
            refine h.unknown id fun c hc hcid => hnone _ (List.mem_map_of_mem hc) ?_
            rw [if_neg (hcid ▸ hne)]
            exact hcid
      · next exc db hrun =>
          obtain rfl := Option.some.inj hstep
          obtain rfl := updateClientPolicy_eq_error hrun
          exact h
  | chat r =>
      obtain rfl := Option.some.inj hstep
      refine h.quiet ?_ ?_ rfl
      · rw [createChatCompletion_database]
        exact quiet_authenticate _ r.authorization
      · dsimp only
        rw [createChatCompletion_database]
        exact h.implements.authenticate _ r.authorization

/-- **The database tells what the book does**, in every state that a run reaches. -/
theorem inv_reach {windowSeconds : ℚ}
    (h : Reach (step app sha256) (Regular sha256) (init windowSeconds) s) :
    Inv sha256 s :=
  h.invariant (I := Inv sha256) (inv_init windowSeconds) fun _ _ _ => inv_step

/-! ## What the book permits -/

/-- The checks of a policy, for the key with this id. -/
structure Within (policy : EffectivePolicy) (reading : Reading) (limiter : RateLimiter String)
    (apiKeyId : String) : Prop where
  rate : (limiter.check reading.monotonic ("rpm:" ++ apiKeyId) policy.requestsPerMinute).1.allowed =
    true
  requests : 0 < policy.requestsPerDay →
    countRequestsToday reading.table reading.now apiKeyId < policy.requestsPerDay
  tokens : 0 < policy.tokensPerDay →
    sumTokensToday reading.table reading.now apiKeyId < policy.tokensPerDay

/-- The caller that a registered client is to the routing. -/
def principalFor (client : RegisteredClient) : AuthenticatedPrincipal where
  userId := client.userId
  userName := []
  clientId := client.id
  clientName := []
  apiKeyId := ""
  apiKeyPrefix := []
  allowedModels := if client.allowedModels = 0 then none else some client.allowedModels

/-- What the book says for a chat request: its token was given out and may still be used, its
client's policy is not used up, and the model is served to the client. -/
structure Permits (app : AppState) (service : UsageService) (s : State) (r : Request) (token : Text)
    (key : IssuedKey) (client : RegisteredClient) (target : Target) : Prop where
  database : app.database = true
  bearer : (extractBearerToken r.authorization).run s.store.database = (.ok token, s.store.database)
  admits : s.registry.Admits token r.now key
  registered : client ∈ s.registry.clients
  owner : client.id = key.clientId
  within : Within (policyOf service (limitsSet (s.updates client.id))) r.reading
    s.store.limiter key.id
  target : chooseTarget app r.body (principalFor client) = .ok target

/-- Routing asks the principal for its models only. -/
theorem chooseTarget_congr {principal principal' : AuthenticatedPrincipal}
    (body : APIChatCompletionRequest) (h : principal.allowedModels = principal'.allowedModels) :
    chooseTarget app body principal = chooseTarget app body principal' := by
  have hcan : ∀ modelId, principal.canUseModel modelId = principal'.canUseModel modelId := by
    intro modelId
    unfold AuthenticatedPrincipal.canUseModel
    rw [h]
  unfold chooseTarget targetConfigured targetPassthrough validateAndNormalizeRequest
    enforceModelAccess
    RoutingService.route RoutingService.routePassthrough RoutingService.routeConfigured
  simp only [hcan]

/-- The checks of `precheck` are those of the policy in the book. -/
theorem passes_iff_within (h : Inv sha256 s) {row : ApiKey} {client : Client} (env : AuthEnv)
    (reading : Reading) (hrow : row ∈ s.store.database.apiKeys)
    (hclient : s.store.database.clientOf row = some client) (limiter : RateLimiter String) :
    service.Passes reading (used env row) client limiter ↔
      Within (policyOf service (limitsSet (s.updates client.id))) reading limiter row.id := by
  -- the key has no limits of its own, before its use and after
  have hinherits : Inherits (used env row) := by
    obtain ⟨hrpm, hrpd, htpd⟩ := h.inherits row hrow
    unfold used
    split
    · exact ⟨hrpm, hrpd, htpd⟩
    · exact ⟨hrpm, hrpd, htpd⟩
  have hid : (used env row).id = row.id := by
    unfold used
    split <;> rfl
  have hlimits := h.limits client (List.mem_of_find?_eq_some hclient)
  have hpolicy : service.effectivePolicy (used env row) client =
      policyOf service (limitsSet (s.updates client.id)) := by
    -- the columns of the client hold what was set last, so both policies are one
    rw [effectivePolicy_of_inherits service hinherits, hlimits]
  constructor
  · rintro ⟨hrate, hrequests, htokens⟩
    unfold rateKey at hrate
    rw [hpolicy, hid] at hrate hrequests htokens
    exact ⟨hrate, hrequests, htokens⟩
  · rintro ⟨hrate, hrequests, htokens⟩
    refine ⟨?_, ?_, ?_⟩
    · unfold rateKey
      rwa [hpolicy, hid]
    · rwa [hpolicy, hid]
    · rwa [hpolicy, hid]

/-- The client of a row, in the book. -/
theorem registered_eq (h : Inv sha256 s) {client : RegisteredClient} {row : Client}
    (hclient : client ∈ s.registry.clients) (hrow : row ∈ s.store.database.clients)
    (hid : client.id = row.id) :
    client = clientView s.store.database row := by
  rw [← h.implements.clients] at hclient
  obtain ⟨row', hrow', rfl⟩ := List.mem_map.mp hclient
  rw [List.inj_on_of_nodup_map h.implements.clientIds hrow' hrow hid]

/-- Whom a cleared request comes from, in the book: the row that its token finds is that of the key
whose token was given out, and the row of the client is registered. -/
theorem exists_key_of_cleared (h : Inv sha256 s) (hsha : r.sha256 = sha256) {d : Dispatch}
    (hinj : ∀ token, (extractBearerToken r.authorization).run s.store.database =
        (.ok token, s.store.database) →
      Set.InjOn sha256 (insert token {u | ∃ key ∈ s.registry.keys, key.token = u}))
    (hcleared : Cleared app service r s.store d) :
    ∃ token key, ∃ row ∈ s.store.database.apiKeys,
      (extractBearerToken r.authorization).run s.store.database = (.ok token, s.store.database) ∧
      s.registry.Admits token r.now key ∧ key.id = row.id ∧ key.clientId = row.clientId ∧
      d.apiKey = used (r.authEnv app) row ∧ s.store.database.clientOf row = some d.client ∧
      clientView s.store.database d.client ∈ s.registry.clients ∧
      d.principal.allowedModels =
      (principalFor (clientView s.store.database d.client)).allowedModels := by
  obtain ⟨-, token, row, user, htoken, hchecked, hclient, -, hkey, hprincipal⟩ :=
    hcleared.authenticated
  obtain ⟨key, hadmits, hview⟩ := h.implements.admits_of_checked hsha (hinj token htoken) hchecked
  have hrow : row ∈ s.store.database.apiKeys := by
    refine List.mem_of_mem_filter (p := fun k => k.keyHash = (r.authEnv app).sha256 token) ?_
    rw [hchecked.found]
    exact List.mem_singleton_self row
  have hmem : clientView s.store.database d.client ∈ s.registry.clients := by
    rw [← h.implements.clients]
    exact List.mem_map_of_mem (List.mem_of_find?_eq_some hclient)
  refine ⟨token, key, row, hrow, htoken, hadmits, congrArg Prod.fst hview,
    congrArg (fun v => v.2.1) hview, hkey, hclient, hmem, ?_⟩
  rw [hprincipal]
  rfl

/-- A request that is cleared is permitted. -/
theorem permits_of_cleared (h : Inv sha256 s) (hsha : r.sha256 = sha256) {d : Dispatch}
    (hinj : ∀ token, (extractBearerToken r.authorization).run s.store.database =
        (.ok token, s.store.database) →
      Set.InjOn sha256 (insert token {u | ∃ key ∈ s.registry.keys, key.token = u}))
    (hcleared : Cleared app service r s.store d) :
    ∃ token key client, Permits app service s r token key client d.target := by
  obtain ⟨token, key, row, hrow, htoken, hadmits, hkeyId, hclientId, hkey, hclient, hmem,
      hmodels⟩ :=
    exists_key_of_cleared h hsha hinj hcleared
  have howner : d.client.id = row.clientId := key_of_find? hclient
  refine ⟨token, key, clientView s.store.database d.client, hcleared.authenticated.1, htoken,
    hadmits, hmem, howner.trans hclientId.symm, ?_, ?_⟩
  · have hpasses := hcleared.passes
    rw [hkey] at hpasses
    rw [hkeyId]
    exact (passes_iff_within h _ _ hrow hclient _).mp hpasses
  · rw [← hcleared.target]
    exact chooseTarget_congr r.body hmodels.symm

/-- A request that is permitted is cleared. -/
theorem cleared_of_permits (h : Inv sha256 s) (hsha : r.sha256 = sha256) {token : Text}
    {key : IssuedKey} {client : RegisteredClient} {target : Target}
    (hinj : Set.InjOn sha256 (insert token {u | ∃ key ∈ s.registry.keys, key.token = u}))
    (hpermits : Permits app service s r token key client target) :
    ∃ d, Cleared app service r s.store d ∧ d.target = target := by
  have hsha' : (r.authEnv app).sha256 = sha256 := hsha
  obtain ⟨row, hrow, hview, hchecked⟩ := h.implements.checked_of_admits hsha'
    (hinj.mono (Set.subset_insert _ _)) hpermits.admits
  obtain ⟨owner, user, howner, huser, -⟩ :=
    Implements.grants (s := ⟨s.store.database, s.registry⟩) h.implements
    (r.authEnv app) hrow hview
  have hkeyId : row.id = key.id := congrArg Prod.fst hview
  have hclientId : row.clientId = key.clientId := congrArg (fun v => v.2.1) hview
  have hownerId : owner.id = row.clientId := key_of_find? howner
  -- ids are unique, so the registered client is the row that is found
  have hregistered : client = clientView s.store.database owner :=
    registered_eq h hpermits.registered (List.mem_of_find?_eq_some howner)
      (hpermits.owner.trans (hclientId.symm.trans hownerId.symm))
  refine ⟨⟨principalOf s.store.database row owner user, used (r.authEnv app) row, owner, target⟩,
    ⟨?_, ?_, ?_⟩, rfl⟩
  · exact ⟨hpermits.database, token, row, user, hpermits.bearer, hchecked, howner, huser, rfl, rfl⟩
  · -- the precheck asks the used key and the row of its client
    have hwithin := hpermits.within
    rw [hregistered, ← hkeyId] at hwithin
    exact (passes_iff_within h _ _ hrow howner _).mpr hwithin
  · rw [← hpermits.target, hregistered]
    exact chooseTarget_congr r.body rfl

/-- A backend that is called is that of the target. -/
theorem called_target (hservice : app.usageService = some service) {before after : List Event}
    {backend : Backends.InferenceBackend} {model : Str} {stream : Bool} {store : Store}
    (h : chatEvents app r store = before ++ .called backend model stream :: after) :
    ∃ d, Cleared app service r store d ∧ backend = d.target.backend ∧
    model = d.target.internalReq.model := by
  cases hrun : ((createChatCompletion app r).run store).1 with
  | error exc =>
      rw [chatEvents_of_error hrun] at h
      obtain ⟨what, hwhat⟩ :=
        outside_refusal r.requestId exc _ (h ▸ List.mem_append_right before List.mem_cons_self)
      cases hwhat
  | ok d =>
      rw [chatEvents_of_ok hrun] at h
      obtain ⟨-, hbackend, hmodel, -⟩ := (traced_completionOf app r d).called h
      exact ⟨d, (createChatCompletion_eq_ok hservice).mp hrun, hbackend, hmodel⟩

/-- The model of a target is one that the client may use. -/
theorem canonicalModel_allowed {client : RegisteredClient} {target : Target}
    {body : APIChatCompletionRequest}
    (h : chooseTarget app body (principalFor client) = .ok target) :
    client.allowedModels = 0 ∨ target.canonicalModel ∈ client.allowedModels := by
  have hcan : (principalFor client).canUseModel target.canonicalModel = true := by
    rcases chooseTarget_eq_ok.mp h with
      ⟨routing, decision, -, hconfigured, htarget⟩ | ⟨-, backend, discovered, htarget⟩
    · obtain ⟨registry, backends, -, -, hroute⟩ :=
        (route_configured_eq_ok hconfigured).mp htarget.routed
      obtain ⟨entry, backend, -, -, hpermitted, -, hdecision⟩ := routeConfigured_eq_ok.mp hroute
      rw [htarget.target_eq, hdecision]
      exact hpermitted
    · rw [htarget.target_eq]
      exact htarget.permitted
  by_cases hnil : client.allowedModels = 0
  · exact .inl hnil
  · unfold AuthenticatedPrincipal.canUseModel principalFor at hcan
    rw [if_neg hnil] at hcan
    exact .inr (by simpa using hcan)

/-- **The data plane does what the book says.** In every state that calls of both planes lead to, in
any order: a chat request gets to its completion function exactly if the book permits it, with the
target that routing gives for the models of its client; and whatever a backend is called for was
permitted, for a model on the list that the client was created with. -/
theorem chat_permitted (hservice : app.usageService = some service) {windowSeconds : ℚ}
    (h : Reach (step app sha256) (Regular sha256) (init windowSeconds) s) (r : Request)
    (hsha : r.sha256 = sha256)
    (hinj : ∀ token, (extractBearerToken r.authorization).run s.store.database =
      (.ok token, s.store.database) →
      Set.InjOn sha256 (insert token {u | ∃ key ∈ s.registry.keys, key.token = u})) :
    (∀ target, (∃ d, ((createChatCompletion app r).run s.store).1 = .ok d ∧ d.target = target) ↔
      ∃ token key client, Permits app service s r token key client target) ∧
    ∀ before backend model stream after,
      chatEvents app r s.store = before ++ .called backend model stream :: after →
      ∃ token key client target, Permits app service s r token key client target ∧
        backend = target.backend ∧ model = target.internalReq.model ∧
        (client.allowedModels = 0 ∨ target.canonicalModel ∈ client.allowedModels) := by
  have hinv : Inv sha256 s := inv_reach h
  refine ⟨fun target => ⟨?_, ?_⟩, fun before backend model stream after hevents => ?_⟩
  · rintro ⟨d, hrun, rfl⟩
    exact permits_of_cleared hinv hsha hinj ((createChatCompletion_eq_ok hservice).mp hrun)
  · rintro ⟨token, key, client, hpermits⟩
    obtain ⟨d, hcleared, htarget⟩ :=
      cleared_of_permits hinv hsha (hinj token hpermits.bearer) hpermits
    exact ⟨d, (createChatCompletion_eq_ok hservice).mpr hcleared, htarget⟩
  · obtain ⟨d, hcleared, hbackend, hmodel⟩ := called_target hservice hevents
    obtain ⟨token, key, client, hpermits⟩ := permits_of_cleared hinv hsha hinj hcleared
    exact ⟨token, key, client, d.target, hpermits, hbackend, hmodel,
      canonicalModel_allowed hpermits.target⟩

/-- An update of the daily requests, which may be cleared. -/
def perDay (limit : Option ℕ) : ClientPolicyUpdate where
  requestsPerDay := some (limit.map Int.ofNat)
  nonneg := by
    refine ⟨nofun, fun value hvalue => ?_, nofun⟩
    obtain ⟨n, -, rfl⟩ := Option.map_eq_some_iff.mp (Option.some.inj hvalue)
    exact Int.natCast_nonneg n

/-- A client with a key, whose policy is set, cleared and set again. -/
def sampleActions : List Action :=
  [.manage (.createUser "u" ['u']), .manage (.createClient "c" "u" ['c'] none none),
    .updateClientPolicy none "c" (perDay (some 0)),
    .manage (.createApiKey (sampleDraw 'a' isAlphanum_a) "k" "c" ['k'] (some 10)),
    .updateClientPolicy none "c" (perDay none), .updateClientPolicy none "c" (perDay (some 1))]

def sampleState :
    State := (run (step sampleApp String.ofList) (init 60) sampleActions).getD (init 60)

/-- The sample state is reached. -/
theorem reach_sampleState :
    Reach (step sampleApp String.ofList) (Regular String.ofList) (init 60) sampleState := by
  refine Reach.init.of_run (show run _ _ sampleActions = some sampleState from rfl) ?_
  exact ⟨trivial, trivial, trivial, fun key hkey => absurd hkey List.not_mem_nil, trivial,
    trivial, trivial⟩

/-- The key gets the alias of the model, once a day. -/
theorem chat_permitted_alias :
    Reach (step sampleApp String.ofList) (Regular String.ofList) (init 60) sampleState ∧
      ∃ token key client, Permits sampleApp {} sampleState (sampleRequest false) token key client
        sampleDispatch.target := by
  have hpermitted := (chat_permitted rfl reach_sampleState (sampleRequest false) rfl
    fun _ _ _ _ _ _ h => String.ofList_injective h).1 sampleDispatch.target
  exact ⟨reach_sampleState, hpermitted.mp ⟨_, rfl, rfl⟩⟩

/-- **The policy endpoint tells the last word on every limit.** In every state that calls of both
planes lead to: the policy of a client that was created is read as what the last update that names
the limit has set it to, and as inherited where none did; it is what the checks of every key of the
client use. Any other id is not found. -/
theorem policy_lastSet {windowSeconds : ℚ}
    (h : Reach (step app sha256) (Regular sha256) (init windowSeconds) s) (service : UsageService)
    (clientId : String) :
    match (getClientPolicy clientId).run s.store.database with
    | (.ok out, db) => db = s.store.database ∧ out.id = clientId ∧
        (⟨out.requestsPerMinute, out.requestsPerDay, out.tokensPerDay⟩ : Limits) =
          limitsSet (s.updates clientId) ∧
        ∀ k ∈ db.apiKeys, ∀ client, db.clientOf k = some client → client.id = clientId →
          service.effectivePolicy k client = policyOf service (limitsSet (s.updates clientId))
    | (.error exc, db) => db = s.store.database ∧
        exc = notFound "client" "client_not_found" clientId ∧
        (∀ client ∈ s.registry.clients, client.id ≠ clientId) ∧ s.updates clientId = [] := by
  have hinv : Inv sha256 s := inv_reach h
  rw [getClientPolicy_run]
  cases hfind : s.store.database.clients.find? fun c => c.id = clientId with
  | some client =>
      have hid : client.id = clientId := key_of_find? hfind
      have hlimits := hinv.limits client (List.mem_of_find?_eq_some hfind)
      refine ⟨rfl, hid, hid ▸ hlimits, fun k hk owner howner hownerId => ?_⟩
      rw [effectivePolicy_of_inherits service (hinv.inherits k hk),
        hinv.limits owner (List.mem_of_find?_eq_some howner), hownerId]
  | none =>
      -- no row, so no update was ever written for it
      have hnone : ∀ c ∈ s.store.database.clients, c.id ≠ clientId := by
        simpa using hfind
      refine ⟨rfl, rfl, fun client hclient => ?_, hinv.unknown clientId hnone⟩
      rw [← hinv.implements.clients] at hclient
      obtain ⟨row, hrow, rfl⟩ := List.mem_map.mp hclient
      exact hnone row hrow

/-- The last update of the sample says one request a day. -/
theorem policy_lastSet_perDay :
    ∃ out, (getClientPolicy "c").run sampleState.store.database =
      (.ok out, sampleState.store.database) ∧
      (⟨out.requestsPerMinute, out.requestsPerDay, out.tokensPerDay⟩ : Limits) =
        limitsSet [perDay (some 0), perDay none, perDay (some 1)] :=
  ⟨_, rfl, (policy_lastSet reach_sampleState {} "c").2.2.1⟩

end SynGateway.Gateway

import SynGateway.Api.Admin.Management
import SynGateway.Python.Triples
import SynGateway.Services.KeyLifecycle

/-!
# What the listings show

The listings of users, clients and API keys tell what the earlier calls have answered, and nothing
else: what was created, in the order of `created_at`, and of a key when it was first revoked and
when it was last used (`listings_tell`).
-/

namespace SynGateway.Api.Admin.Management

open SynGateway.Core SynGateway.Core.ApiKeys SynGateway.Core.Auth SynGateway.Db SynGateway.Python
open SynGateway.Services.Admin
  (Chronological byCreation byCreation_eq_self map_byCreation setAllowedModels)

/-! ## What the answers say -/

/-- What a caller learns from an answer. -/
inductive Event
  | user (out : UserOut)
  | client (out : ClientOut)
  | issued (out : ApiKeyOut)
  | revoked (apiKeyId : String) (now : ℤ)
  | used (apiKeyId : String) (now : ℤ)

/-- A key as it was given out. -/
def ApiKeyCreateOut.listed (out : ApiKeyCreateOut) : ApiKeyOut where
  id := out.id
  name := out.name
  keyPrefix := out.keyPrefix
  clientId := out.clientId
  expiresAt := out.expiresAt
  revokedAt := none
  lastUsedAt := none

/-- The events of a call that was answered. An authentication counts as a use if its commit went
through. -/
def eventsOf : Call × Except Exc Response → List Event
  | (_, .ok (.user out)) => [.user out]
  | (_, .ok (.client out)) => [.client out]
  | (_, .ok (.apiKeyCreated out)) => [.issued out.listed]
  | (.revokeApiKey now apiKeyId, .ok (.apiKey _)) => [.revoked apiKeyId now]
  | (.rotateApiKey _ now _ apiKeyId revokeOld, .ok (.apiKeyRotated out)) =>
    .issued out.toApiKeyCreateOut.listed :: if revokeOld then [.revoked apiKeyId now] else []
  | (.authenticateRequest now commits _, .ok (.principal principal)) =>
    if commits then [.used principal.apiKeyId now] else []
  | _ => []

def Event.user? : Event → Option UserOut
  | .user out => some out
  | _ => none

def Event.client? : Event → Option ClientOut
  | .client out => some out
  | _ => none

def Event.issued? : Event → Option ApiKeyOut
  | .issued out => some out
  | _ => none

/-- The time of a revocation of the key. -/
def Event.revokedAt (id : String) : Event → Option ℤ
  | .revoked apiKeyId now => if apiKeyId = id then some now else none
  | _ => none

/-- The time of a use of the key. -/
def Event.usedAt (id : String) : Event → Option ℤ
  | .used apiKeyId now => if apiKeyId = id then some now else none
  | _ => none

/-- The first revocation and the last use of a key. -/
def withTimes (events : List Event) (out : ApiKeyOut) : ApiKeyOut :=
  { out with
    revokedAt := (events.filterMap (Event.revokedAt out.id)).head?
    lastUsedAt := (events.filterMap (Event.usedAt out.id)).getLast? }

/-- The keys that were given out. -/
def keysOf (events : List Event) :
    List ApiKeyOut := (events.filterMap Event.issued?).map (withTimes events)

/-! ## The database says the same -/

/-- The rows are those of the events, and they are linked. -/
structure Tells (events : List Event) (db : Database) : Prop where
  users : db.users.map UserOut.of = events.filterMap Event.user?
  clients : (db.clients.map fun c => ClientOut.of c (db.modelsOf c.id)) =
    events.filterMap Event.client?
  apiKeys : db.apiKeys.map ApiKeyOut.of = keysOf events
  unknown : ∀ id, (∀ k ∈ db.apiKeys, k.id ≠ id) →
    events.filterMap (Event.revokedAt id) = [] ∧ events.filterMap (Event.usedAt id) = []
  clientUsers : ∀ c ∈ db.clients, ∃ u ∈ db.users, u.id = c.userId
  keyClients : ∀ k ∈ db.apiKeys, ∃ c ∈ db.clients, c.id = k.clientId

variable {events : List Event} {db db' : Database} {sha256 : Text → String}

/-- Before the first call there is nothing to list. -/
theorem tells_nil : Tells [] {} where
  users := rfl
  clients := rfl
  apiKeys := rfl
  unknown := fun _ _ => ⟨rfl, rfl⟩
  clientUsers := by simp
  keyClients := by simp

/-- An event that is about no key. -/
theorem keysOf_append {event : Event} (hissued : event.issued? = none)
    (hrevoked : ∀ id, event.revokedAt id = none) (hused : ∀ id, event.usedAt id = none) :
    keysOf (events ++ [event]) = keysOf events := by
  have htimes : withTimes (events ++ [event]) = withTimes events := by
    funext out
    unfold withTimes
    simp [hrevoked, hused]
  unfold keysOf
  rw [htimes, List.filterMap_append]
  simp [hissued]

/-- A new key, of which no event has told. -/
theorem keysOf_issued {out : ApiKeyOut} (hrevoked : events.filterMap (Event.revokedAt out.id) = [])
    (hused : events.filterMap (Event.usedAt out.id) = []) :
    keysOf (events ++ [.issued out]) = keysOf events ++
    [{ out with revokedAt := none, lastUsedAt := none }] := by
  have htimes : withTimes (events ++ [.issued out]) = withTimes events := by
    funext other
    unfold withTimes
    simp [Event.revokedAt, Event.usedAt]
  have hnew : withTimes events out = { out with revokedAt := none, lastUsedAt := none } := by
    unfold withTimes
    rw [hrevoked, hused]
    rfl
  unfold keysOf
  rw [htimes, List.filterMap_append, List.map_append, ← hnew]
  rfl

/-- An event that gives out no key changes the keys one by one. -/
theorem keysOf_changed {event : Event} {change : ApiKeyOut → ApiKeyOut}
    (hissued : event.issued? = none)
    (hchange : ∀ out, withTimes (events ++ [event]) out = change (withTimes events out)) :
    keysOf (events ++ [event]) = (keysOf events).map change := by
  unfold keysOf
  rw [List.filterMap_append, List.filterMap_cons_none hissued, List.filterMap_nil, List.append_nil,
    List.map_map]
  exact List.map_congr_left fun out _ => hchange out

/-- A revocation changes the key that it names, unless that was revoked before. -/
theorem keysOf_revoked (apiKeyId : String) (now : ℤ) :
    keysOf (events ++ [.revoked apiKeyId now]) = (keysOf events).map fun out =>
      if out.id = apiKeyId then { out with revokedAt := some (out.revokedAt.getD now) }
          else out := by
  refine keysOf_changed rfl fun out => ?_
  unfold withTimes
  by_cases hid : out.id = apiKeyId
  · have hrevoked : Event.revokedAt out.id (.revoked apiKeyId now) = some now := if_pos hid.symm
    have hused : Event.usedAt out.id (.revoked apiKeyId now) = none := rfl
    simp only [List.filterMap_append, List.filterMap_cons_some hrevoked,
      List.filterMap_cons_none hused, List.filterMap_nil, List.append_nil, if_pos hid]
    cases events.filterMap (Event.revokedAt out.id) <;> rfl
  · have hrevoked : Event.revokedAt out.id (.revoked apiKeyId now) = none :=
      if_neg fun h => hid h.symm
    have hused : Event.usedAt out.id (.revoked apiKeyId now) = none := rfl
    simp only [List.filterMap_append, List.filterMap_cons_none hrevoked,
      List.filterMap_cons_none hused, List.filterMap_nil, List.append_nil, if_neg hid]

/-- A use changes the key that it names. -/
theorem keysOf_used (apiKeyId : String) (now : ℤ) :
    keysOf (events ++ [.used apiKeyId now]) = (keysOf events).map fun out =>
      if out.id = apiKeyId then { out with lastUsedAt := some now } else out := by
  refine keysOf_changed rfl fun out => ?_
  unfold withTimes
  have hrevoked : Event.revokedAt out.id (.used apiKeyId now) = none := rfl
  by_cases hid : out.id = apiKeyId
  · have hused : Event.usedAt out.id (.used apiKeyId now) = some now := if_pos hid.symm
    simp only [List.filterMap_append, List.filterMap_cons_none hrevoked,
      List.filterMap_cons_some hused, List.filterMap_nil, List.append_nil, if_pos hid,
      List.getLast?_append, List.getLast?_singleton, Option.some_or]
  · have hused : Event.usedAt out.id (.used apiKeyId now) = none := if_neg fun h => hid h.symm
    simp only [List.filterMap_append, List.filterMap_cons_none hrevoked,
      List.filterMap_cons_none hused, List.filterMap_nil, List.append_nil, if_neg hid]

/-! ## What each call adds -/

namespace Tells

/-- A new user stands at the end of the list of users. -/
theorem user (h : Tells events db) (user : User) :
    Tells (events ++ [.user (.of user)]) { db with users := db.users ++ [user] } where
  users := by
    rw [List.map_append, List.filterMap_append, h.users]
    rfl
  clients := by
    rw [List.filterMap_append, List.filterMap_cons_none rfl, List.filterMap_nil, List.append_nil,
      ← h.clients]
    rfl
  apiKeys := by
    rw [keysOf_append rfl (fun _ => rfl) fun _ => rfl]
    exact h.apiKeys
  unknown := by
    -- a user is filed under no key, so the events of a key stay as they were
    intro id hid
    rw [List.filterMap_append, List.filterMap_append, (h.unknown id hid).1, (h.unknown id hid).2]
    exact ⟨rfl, rfl⟩
  clientUsers := by
    intro c hc
    obtain ⟨u, hu, hid⟩ := h.clientUsers c hc
    exact ⟨u, List.mem_append_left _ hu, hid⟩
  keyClients := h.keyClients

/-- A new client stands at the end of the list of clients, with its models. -/
theorem client (h : Tells events db) {client : Client} {allowed : List Str}
    (huser : ∃ user ∈ db.users, user.id = client.userId)
    (hfresh : ∀ c ∈ db.clients, c.id ≠ client.id) :
    Tells (events ++ [.client (.of client allowed)])
      { db with
        clients := db.clients ++ [client]
        allowedModels := setAllowedModels db.allowedModels client.id allowed } where
  users := by
    rw [List.filterMap_append, List.filterMap_cons_none rfl, List.filterMap_nil, List.append_nil,
      ← h.users]
  clients := by
    rw [List.filterMap_append, ← h.clients, List.map_append]
    -- the new models belong to the new client only
    congr 1
    · refine List.map_congr_left fun c hc => ?_
      rw [Services.KeyLifecycle.modelsOf_setAllowedModels, if_neg (hfresh c hc)]
    · rw [List.map_singleton, Services.KeyLifecycle.modelsOf_setAllowedModels, if_pos rfl]
      rfl
  apiKeys := by
    rw [keysOf_append rfl (fun _ => rfl) fun _ => rfl]
    exact h.apiKeys
  unknown := by
    intro id hid
    rw [List.filterMap_append, List.filterMap_append, (h.unknown id hid).1, (h.unknown id hid).2]
    exact ⟨rfl, rfl⟩
  clientUsers := by
    intro c hc
    rcases List.mem_append.mp hc with hc | hc
    · exact h.clientUsers c hc
    · rw [List.mem_singleton.mp hc]
      exact huser
  keyClients := by
    intro k hk
    obtain ⟨c, hc, hid⟩ := h.keyClients k hk
    exact ⟨c, List.mem_append_left _ hc, hid⟩

/-- A new key stands at the end of the list of keys. -/
theorem issued (h : Tells events db) {apiKey : ApiKey}
    (hclient : ∃ client ∈ db.clients, client.id = apiKey.clientId)
    (hfresh : ∀ k ∈ db.apiKeys, k.id ≠ apiKey.id) (hrevoked : apiKey.revokedAt = none)
    (hused : apiKey.lastUsedAt = none) :
    Tells (events ++ [.issued (.of apiKey)]) { db with apiKeys := db.apiKeys ++ [apiKey] } where
  users := by
    rw [List.filterMap_append, List.filterMap_cons_none rfl, List.filterMap_nil, List.append_nil,
      ← h.users]
  clients := by
    rw [List.filterMap_append, List.filterMap_cons_none rfl, List.filterMap_nil, List.append_nil,
      ← h.clients]
    rfl
  apiKeys := by
    -- no event can have spoken of a key that was not there
    obtain ⟨hunrevoked, hunused⟩ := h.unknown apiKey.id hfresh
    have hnew : ({ ApiKeyOut.of apiKey with revokedAt := none, lastUsedAt := none } : ApiKeyOut) =
        .of apiKey := by
      unfold ApiKeyOut.of
      rw [hrevoked, hused]
    rw [keysOf_issued hunrevoked hunused, List.map_append, h.apiKeys, hnew, List.map_singleton]
  unknown := by
    intro id hid
    obtain ⟨hunrevoked, hunused⟩ := h.unknown id fun k hk => hid k (List.mem_append_left _ hk)
    rw [List.filterMap_append, List.filterMap_append, hunrevoked, hunused]
    exact ⟨rfl, rfl⟩
  clientUsers := h.clientUsers
  keyClients := by
    intro k hk
    rcases List.mem_append.mp hk with hk | hk
    · exact h.keyClients k hk
    · rw [List.mem_singleton.mp hk]
      exact hclient

/-- An event about a key, which changes its times. -/
theorem changed (h : Tells events db) {event : Event} {f : ApiKey → ApiKey}
    (hkey : ∀ k, (f k).id = k.id ∧ (f k).clientId = k.clientId)
    (hother : event.user? = none ∧ event.client? = none)
    (hknown : ∀ id, (∀ k ∈ db.apiKeys, k.id ≠ id) →
      event.revokedAt id = none ∧ event.usedAt id = none)
    (hkeys : keysOf (events ++ [event]) = db.apiKeys.map fun k => ApiKeyOut.of (f k)) :
    Tells (events ++ [event]) { db with apiKeys := db.apiKeys.map f } where
  users := by
    rw [List.filterMap_append, List.filterMap_cons_none hother.1, List.filterMap_nil,
      List.append_nil, ← h.users]
  clients := by
    rw [List.filterMap_append, List.filterMap_cons_none hother.2, List.filterMap_nil,
      List.append_nil, ← h.clients]
    rfl
  apiKeys := by
    rw [hkeys, List.map_map]
    rfl
  unknown := by
    intro id hid
    have hold : ∀ k ∈ db.apiKeys, k.id ≠ id := fun k hk heq =>
      hid (f k) (List.mem_map_of_mem hk) ((hkey k).1.trans heq)
    obtain ⟨hunrevoked, hunused⟩ := h.unknown id hold
    obtain ⟨hrevoked, hused⟩ := hknown id hold
    rw [List.filterMap_append, List.filterMap_append, hunrevoked, hunused,
      List.filterMap_cons_none hrevoked, List.filterMap_cons_none hused]
    exact ⟨rfl, rfl⟩
  clientUsers := h.clientUsers
  keyClients := by
    intro k hk
    obtain ⟨old, hold, rfl⟩ := List.mem_map.mp hk
    rw [(hkey old).2]
    exact h.keyClients old hold

/-- Whether a key is revoked depends on its id only. -/
theorem revokedAt_eq (h : Tells events db) {k : ApiKey} (hk : k ∈ db.apiKeys) :
    k.revokedAt = (events.filterMap (Event.revokedAt k.id)).head? := by
  have hmem : ApiKeyOut.of k ∈ keysOf events := h.apiKeys ▸ List.mem_map_of_mem hk
  obtain ⟨out, -, hout⟩ := List.mem_map.mp hmem
  have hid : out.id = k.id := congrArg ApiKeyOut.id hout
  have hrevoked : (events.filterMap (Event.revokedAt out.id)).head? = k.revokedAt :=
    congrArg ApiKeyOut.revokedAt hout
  rw [← hrevoked, hid]

/-- The first revocation of a key. -/
theorem revoked (h : Tells events db) {k : ApiKey} (hk : k ∈ db.apiKeys)
    (hlive : k.revokedAt = none) (now : ℤ) :
    Tells (events ++ [.revoked k.id now])
    (db.updateApiKey k.id fun k => { k with revokedAt := some now }) := by
  refine h.changed (fun k => ?_) ⟨rfl, rfl⟩ (fun id hid => ⟨if_neg fun heq => hid k hk heq, rfl⟩) ?_
  · split <;> exact ⟨rfl, rfl⟩
  · rw [keysOf_revoked, ← h.apiKeys, List.map_map]
    refine List.map_congr_left fun k' hk' => ?_
    rw [Function.comp_apply, apply_ite ApiKeyOut.of]
    refine ite_congr rfl (fun hid => ?_) fun _ => rfl
    have hnone : k'.revokedAt = none := by rw [h.revokedAt_eq hk', hid, ← h.revokedAt_eq hk, hlive]
    unfold ApiKeyOut.of
    rw [hnone]
    rfl

/-- A later one changes nothing. -/
theorem revoked_again (h : Tells events db) {k : ApiKey} (hk : k ∈ db.apiKeys)
    (hrevoked : k.revokedAt ≠ none) (now : ℤ) : Tells (events ++ [.revoked k.id now]) db := by
  have htells : Tells (events ++ [.revoked k.id now]) { db with apiKeys := db.apiKeys.map id } :=
    h.changed (fun _ => ⟨rfl, rfl⟩) ⟨rfl, rfl⟩ (fun id hid =>
      ⟨if_neg fun heq => hid k hk heq, rfl⟩) ?_
  · rwa [List.map_id] at htells
  · rw [keysOf_revoked, ← h.apiKeys, List.map_map]
    refine List.map_congr_left fun k' hk' => ?_
    rw [Function.comp_apply]
    refine ite_eq_right_iff.mpr fun hid => ?_
    obtain ⟨time, htime⟩ := Option.ne_none_iff_exists'.mp hrevoked
    have hsome : k'.revokedAt = some time := by
      rw [h.revokedAt_eq hk', show k'.id = k.id from hid, ← h.revokedAt_eq hk, htime]
    unfold ApiKeyOut.of
    rw [hsome]
    rfl

/-- The use of a key changes its last use and nothing else that is listed. -/
theorem used (h : Tells events db) {k : ApiKey} (hk : k ∈ db.apiKeys) (now : ℤ) :
    Tells (events ++ [.used k.id now])
    (db.updateApiKey k.id fun k => { k with lastUsedAt := some now }) := by
  refine h.changed (fun k => ?_) ⟨rfl, rfl⟩ (fun id hid => ⟨rfl, if_neg fun heq => hid k hk heq⟩) ?_
  · split <;> exact ⟨rfl, rfl⟩
  · rw [keysOf_used, ← h.apiKeys, List.map_map]
    refine List.map_congr_left fun k' _ => ?_
    rw [Function.comp_apply, apply_ite ApiKeyOut.of]
    rfl

/-- A policy is shown in no listing. -/
theorem policy (h : Tells events db) (clientId : String) (body : ClientPolicyUpdate) :
    Tells events (updateClient db clientId body.write) where
  users := h.users
  clients := by
    rw [← h.clients]
    unfold updateClient
    rw [List.map_map]
    refine List.map_congr_left fun c _ => ?_
    rw [Function.comp_apply]
    split <;> rfl
  apiKeys := h.apiKeys
  unknown := h.unknown
  clientUsers := by
    intro c hc
    obtain ⟨old, hold, rfl⟩ := List.mem_map.mp hc
    obtain ⟨u, hu, hid⟩ := h.clientUsers old hold
    -- a policy changes the limits of a client, never its id
    refine ⟨u, hu, ?_⟩
    split <;> exact hid
  keyClients := by
    intro k hk
    obtain ⟨c, hc, hid⟩ := h.keyClients k hk
    refine ⟨_, List.mem_map_of_mem hc, ?_⟩
    split <;> exact hid

end Tells

/-! ## The functions of the service -/

section Service

open SynGateway.Services.Admin (getUser getClient getApiKey oneOr nameEmpty integrityError)

/-- A lookup writes nothing. -/
theorem atomic_oneOr {α : Type} (row : Option α) (exc : Exc) :
    Exec.Preserves id (oneOr row exc) := by
  unfold oneOr
  cases row
  · exact .raise _
  · exact .pure _

/-- `get_user` writes nothing. -/
theorem getUser_preserves (userId : String) : Exec.Preserves id (getUser userId) :=
  Exec.Moves.get.bind fun _ => atomic_oneOr _ _

/-- `get_client` writes nothing. -/
theorem getClient_preserves (clientId : String) : Exec.Preserves id (getClient clientId) :=
  Exec.Moves.get.bind fun _ => atomic_oneOr _ _

/-- `get_api_key` writes nothing. -/
theorem getApiKey_preserves (apiKeyId : String) : Exec.Preserves id (getApiKey apiKeyId) :=
  Exec.Moves.get.bind fun _ => atomic_oneOr _ _

/-- A refused `create_user` leaves the tables as they were. -/
theorem createUser_atomic (id : String) (name : Text) :
    Exec.Atomic (Services.Admin.createUser id name) := by
  unfold Services.Admin.createUser
  dsimp only
  split_ifs
  · exact .raise _
  · refine Exec.Atomic.bind .get fun db => ?_
    split_ifs
    · exact .raise _
    · exact .raise _
    · exact .modify_pure _ _

/-- A refused `create_client` leaves the tables as they were. -/
theorem createClient_atomic (id userId : String) (name : Text) (description : Option Text)
    (allowedModels : Option (List Str)) :
    Exec.Atomic (Services.Admin.createClient id userId name description allowedModels) := by
  unfold Services.Admin.createClient
  dsimp only
  split
  · exact .raise _
  · refine Exec.Atomic.bind (getUser_preserves userId) fun user =>
      Exec.Atomic.bind .get fun db => ?_
    split_ifs
    · exact .raise _
    · exact .modify_pure _ _
    · exact .raise _

/-- A refused `create_api_key` leaves the tables as they were. -/
theorem createApiKey_atomic (sha256 : Text → String) (draw : Draw) (id clientId : String)
    (name : Text) (expiresAt : Option ℤ) :
    Exec.Atomic (Services.Admin.createApiKey sha256 draw id clientId name expiresAt) := by
  unfold Services.Admin.createApiKey
  dsimp only
  split_ifs
  · exact .raise _
  · refine Exec.Atomic.bind (getClient_preserves clientId) fun client =>
      Exec.Atomic.bind .get fun db => ?_
    split_ifs
    · exact .raise _
    · exact .modify_pure _ _

/-- A refused `revoke_api_key` leaves the tables as they were. -/
theorem revokeApiKey_atomic (now : ℤ) (apiKeyId : String) :
    Exec.Atomic (Services.Admin.revokeApiKey now apiKeyId) := by
  unfold Services.Admin.revokeApiKey
  refine Exec.Atomic.bind (getApiKey_preserves apiKeyId) fun apiKey => ?_
  split_ifs
  · exact .modify_pure _ _
  · intro s e t hrun
    cases hrun

end Service

/-! ## The answers -/

/-- `create_user` answers with the user that is listed from then on. -/
theorem createUser_tells (id : String) (name : Text) :
    Exec.Ensures (Tells events) (Services.Admin.createUser id name)
      (fun user => Tells (events ++ [.user (.of user)])) fun _ => Tells events := by
  refine (createUser_atomic id name).ensures fun db user db' h hrun => ?_
  rw [(Services.Admin.createUser_eq_ok hrun).2]
  exact h.user user

/-- `create_client` answers with the client that is listed from then on. -/
theorem createClient_tells (id userId : String) (name : Text) (description : Option Text)
    (allowedModels : Option (List Str)) :
    Exec.Ensures (Tells events)
      (Services.Admin.createClient id userId name description allowedModels)
      (fun client db => Tells (events ++ [.client (.of client (db.modelsOf client.id))]) db)
      fun _ => Tells events := by
  refine (createClient_atomic id userId name description allowedModels).ensures
    fun db client db' h hrun => ?_
  obtain ⟨⟨user, hmem, huser⟩, hfresh, rfl, rfl, rfl⟩ := Services.Admin.createClient_eq_ok hrun
  rw [Services.KeyLifecycle.modelsOf_setAllowedModels, if_pos rfl]
  exact h.client ⟨user, hmem, huser⟩ hfresh

/-- A new key, beside those that are there. -/
theorem createApiKey_tells (draw : Draw) (id clientId : String) (name : Text) (expiresAt : Option ℤ)
    (kept : List ApiKey) :
    Exec.Ensures (fun db => Tells events db ∧ kept ⊆ db.apiKeys)
      (Services.Admin.createApiKey sha256 draw id clientId name expiresAt)
      (fun created db =>
          Tells (events ++ [.issued (ApiKeyCreateOut.of created.1 created.2).listed]) db ∧
        kept ⊆ db.apiKeys)
      fun _ db => Tells events db ∧ kept ⊆ db.apiKeys := by
  refine (createApiKey_atomic sha256 draw id clientId name expiresAt).ensures
    fun db created db' h hrun => ?_
  obtain ⟨apiKey, token⟩ := created
  obtain ⟨hclient, hfresh, -, hrow, rfl⟩ := Services.Admin.createApiKey_row hrun
  have hlisted : (ApiKeyCreateOut.of apiKey token).listed = .of apiKey := by
    rw [hrow]
    rfl
  rw [hlisted]
  refine ⟨h.1.issued ?_ ?_ ?_ ?_, fun k hk => List.mem_append_left _ (h.2 hk)⟩ <;> rw [hrow]
  · exact hclient
  · exact hfresh

/-- A revocation of a key that is there does not fail. -/
theorem revokeApiKey_tells_of_mem (now : ℤ) (kept : ApiKey) :
    Exec.Ensures (fun db => Tells events db ∧ [kept] ⊆ db.apiKeys)
      (Services.Admin.revokeApiKey now kept.id)
      (fun _ => Tells (events ++ [.revoked kept.id now])) fun _ _ => False := by
  rintro db ⟨h, hkept⟩
  obtain ⟨row, hrow⟩ := exists_find? ⟨kept, hkept (List.mem_singleton_self _), rfl⟩
  have hget : (Services.Admin.getApiKey kept.id).run db = (.ok row, db) :=
    Services.Admin.oneOr_eq_ok.mpr ⟨hrow, rfl⟩
  have hmem : row ∈ db.apiKeys := List.mem_of_find?_eq_some hrow
  rw [← (key_of_find? hrow : row.id = kept.id)] at hget ⊢
  unfold Services.Admin.revokeApiKey
  rw [Exec.run_bind_ok hget]
  split_ifs with hrevoked
  · exact h.revoked hmem hrevoked now
  · exact h.revoked_again hmem hrevoked now

/-- `revoke_api_key` is listed as a revocation at its time. -/
theorem revokeApiKey_tells (now : ℤ) (apiKeyId : String) :
    Exec.Ensures (Tells events) (Services.Admin.revokeApiKey now apiKeyId)
      (fun _ => Tells (events ++ [.revoked apiKeyId now])) fun _ => Tells events := by
  refine (revokeApiKey_atomic now apiKeyId).ensures fun db apiKey db' h hrun => ?_
  obtain ⟨old, hmem, rfl, -⟩ := Services.Admin.revokeApiKey_eq_ok hrun
  exact (revokeApiKey_tells_of_mem now old).ok ⟨h,
    List.cons_subset.mpr ⟨hmem, List.nil_subset _⟩⟩ hrun

/-- The events of a rotation. -/
theorem rotateApiKey_tells (draw : Draw) (now : ℤ) (id apiKeyId : String) (revokeOld : Bool) :
    Exec.Ensures (Tells events) (Services.Admin.rotateApiKey sha256 draw now id apiKeyId revokeOld)
      (fun rotated => Tells (events ++ .issued (ApiKeyCreateOut.of rotated.1 rotated.2.1).listed ::
        if revokeOld then [.revoked apiKeyId now] else []))
      fun _ => Tells events := by
  unfold Services.Admin.rotateApiKey
  -- the old key stays there while the new one is created, so its revocation finds it
  have hget : Exec.Ensures (Tells events) (Services.Admin.getApiKey apiKeyId)
      (fun old db => (Tells events db ∧ [old] ⊆ db.apiKeys) ∧ old.id = apiKeyId) fun _ =>
          Tells events := by
    have hatomic : Exec.Atomic (Services.Admin.getApiKey apiKeyId) := fun _ _ _ hrun =>
      (getApiKey_preserves apiKeyId).ends hrun
    refine hatomic.ensures fun db old db' h hrun => ?_
    obtain ⟨hmem, hid, rfl⟩ := Services.Admin.getApiKey_eq_ok hrun
    exact ⟨⟨h, List.cons_subset.mpr ⟨hmem, List.nil_subset _⟩⟩, hid⟩
  refine hget.bind fun old => ?_
  refine ((createApiKey_tells draw id old.clientId _ none [old]).frame
    (p := old.id = apiKeyId)).bind_mono (fun _ _ h => h.1.1) fun created => ?_
  obtain ⟨newKey, fullToken⟩ := created
  dsimp only
  split_ifs
  · refine ((revokeApiKey_tells_of_mem now old).frame (p := old.id = apiKeyId)).bind_mono
      (fun _ _ h => h.1.elim) fun revoked => .pure ?_
    rintro db ⟨h, rfl⟩
    rwa [List.append_assoc] at h
  · exact .pure fun db h => h.1.1

/-- What the authentication leaves: the use of the key, if it answers. -/
theorem authenticateRequest_tells (env : AuthEnv) (authHeader : Option Text) :
    Exec.Ensures (Tells events) (Auth.authenticateRequest env authHeader)
      (fun principal =>
        Tells (events ++ if env.commits then [.used principal.apiKeyId env.now] else []))
      fun _ => Tells events := by
  intro db h
  by_cases hcheck : ∃ apiKey, (checkToken env authHeader).run db = (.ok apiKey, db)
  · obtain ⟨apiKey, hcheck⟩ := hcheck
    obtain ⟨-, -, token, -, hchecked⟩ := checkToken_eq_ok.mp hcheck
    have hmem : apiKey ∈ db.apiKeys := by
      have hfound : apiKey ∈ db.apiKeys.filter fun k => k.keyHash = env.sha256 token := by
        rw [hchecked.found]
        exact List.mem_singleton_self _
      exact List.mem_of_mem_filter hfound
    -- the foreign keys are what makes the two lookups succeed
    obtain ⟨client, hclient⟩ := exists_find? (h.keyClients apiKey hmem)
    obtain ⟨user, huser⟩ := exists_find? (h.clientUsers client (List.mem_of_find?_eq_some hclient))
    rw [authenticateRequest_of_checked hcheck hclient huser]
    unfold touched
    split_ifs
    · exact h.used hmem env.now
    · rwa [List.append_nil]
  · obtain ⟨error, hrun⟩ := authenticateRequest_of_unchecked fun apiKey hrun =>
      hcheck ⟨apiKey, hrun⟩
    rw [hrun]
    exact h

/-- A body that only reads. -/
theorem reads_tells {α : Type} {x : Exec Exc Database α} (h : Exec.Preserves id x) :
    Exec.Ensures (Tells events) x (fun _ => Tells events) fun _ => Tells events := by
  have hatomic : Exec.Atomic x := fun _ _ _ hrun => h.ends hrun
  refine hatomic.ensures fun db a db' htells hrun => ?_
  rwa [show db' = db from h.ends hrun]

/-- **One call**: the answer says what has become of the rows. -/
theorem answer_tells (createdAt : String → ℤ) (draws : ℕ → Draw) (c : Call) :
    Exec.Ensures (Tells events) (answer sha256 createdAt draws c)
      (fun response => Tells (events ++ eventsOf (c, .ok response))) fun _ => Tells events := by
  -- a call that is not recorded leaves the history as it is
  have hquiet : ∀ db, Tells events db → Tells (events ++ []) db :=
    fun db h => by rwa [List.append_nil]
  cases c with
  | createUser id name => exact (createUser_tells id name).bind fun _ => .pure fun _ h => h
  | listUsers =>
      exact (reads_tells (Exec.Moves.get.bind fun _ => .pure _)).bind fun _ => .pure hquiet
  | createClient id userId name description allowedModels =>
      refine (createClient_tells id userId name description allowedModels).bind fun client => ?_
      unfold Services.Admin.getClientAllowedModels
      rw [bind_assoc]
      refine .get_bind fun db h => .pure ?_
      rintro _ rfl
      exact h
  | listClients userId =>
      refine (reads_tells (Exec.Moves.get.bind fun _ => .pure _)).bind fun clients => ?_
      · refine Exec.Ensures.bind (Q := fun _ => Tells events) ?_ fun outs => .pure hquiet
        refine (Exec.Ensures.mapM (A := fun _ _ => True) fun c _ => ?_).mono (fun _ h => h)
          (fun _ _ h => h.1) fun _ _ h => h
        exact (reads_tells (Exec.Moves.get.bind fun _ => .pure _)).bind fun _ => .pure fun _ h =>
          ⟨h, trivial⟩
  | createApiKey n id clientId name expiresAt =>
      refine ((createApiKey_tells (draws n) id clientId name expiresAt []).mono
        (fun _ h => ⟨h, List.nil_subset _⟩) (fun _ _ h => h.1) fun _ _ h => h.1).bind fun _ =>
          .pure fun _ h => h
  | listApiKeys clientId =>
      exact (reads_tells (Exec.Moves.get.bind fun _ => .pure _)).bind fun _ => .pure hquiet
  | revokeApiKey now apiKeyId =>
      exact (revokeApiKey_tells now apiKeyId).bind fun _ => .pure fun _ h => h
  | rotateApiKey n now id apiKeyId revokeOld =>
      exact (rotateApiKey_tells (draws n) now id apiKeyId revokeOld).bind fun _ =>
        .pure fun _ h => h
  | getClientPolicy clientId =>
      exact (reads_tells ((getClient_preserves clientId).bind fun _ => .pure _)).bind fun _ =>
        .pure hquiet
  | updateClientPolicy commit clientId body =>
      refine Exec.Ensures.bind (Q := fun _ => Tells events) (fun db h => ?_) fun _ => .pure hquiet
      -- a refused update has written nothing
      rcases hrun : (updateClientPolicy commit clientId body).run db with ⟨exc | out, db'⟩
      · rwa [updateClientPolicy_eq_error hrun]
      · obtain ⟨client, -, -, -, rfl⟩ := updateClientPolicy_eq_ok hrun
        exact h.policy clientId body
  | authenticateRequest now commits presented =>
      exact (authenticateRequest_tells _ _).bind fun _ => .pure fun _ h => h

/-- **Every run**: the answers so far say what the rows are. -/
theorem serve_tells (sha256 : Text → String) (createdAt : String → ℤ) (draws : ℕ → Draw)
    (calls : List Call) :
    Tells ((serve sha256 createdAt draws calls).history.flatMap eventsOf)
      (serve sha256 createdAt draws calls).plane.database := by
  induction calls using List.reverseRecOn with
  | nil => exact tells_nil
  | append_singleton calls c ih =>
      rw [serve_append]
      generalize serve sha256 createdAt draws calls = s at ih ⊢
      have hlogs : Logs (respond sha256 createdAt draws c) (answer sha256 createdAt draws c) :=
        logs_respond createdAt draws c
      obtain ⟨hends, hdb⟩ := hlogs s.plane s.plane.database rfl
      change Tells
        ((s.history ++ [(c, ((respond sha256 createdAt draws c).run s.plane).1)]).flatMap eventsOf)
        ((respond sha256 createdAt draws c).run s.plane).2.database
      -- what the endpoint answers is what the call does without the log
      rw [List.flatMap_append, List.flatMap_singleton, hdb, hends.eq]
      rcases (answer_tells createdAt draws c).cases ih with ⟨response, db, hrun, h⟩ |
        ⟨exc, db, hrun, h⟩
      · rw [hrun]
        exact h
      · rw [hrun]
        have hnone : eventsOf (c, .error exc) = [] := by cases c <;> rfl
        rwa [hnone, List.append_nil]

/-! ## The listings -/

variable {createdAt : String → ℤ}

/-- The listing of users, in the order of creation. -/
theorem listUsers_run (s : Plane) :
    (listUsers createdAt).run s =
    (.ok (byCreation createdAt UserOut.id (s.database.users.map .of)), s) := by
  change (Except.ok ((byCreation createdAt User.id s.database.users).map UserOut.of), s) = _
  rw [map_byCreation User.id UserOut.id fun _ => rfl]

/-- The listing of clients, all of them or those of a user. -/
theorem listClients_run (userId : Option String) (s : Plane) :
    (listClients createdAt userId).run s =
      (.ok (byCreation createdAt ClientOut.id
        ((s.database.clients.map fun c => ClientOut.of c (s.database.modelsOf c.id)).filter
          fun out =>
          userId.all (out.userId = ·))), s) := by
  have hrows : (onSession (Services.Admin.listClients createdAt userId)).run s =
      (.ok (byCreation createdAt Client.id (s.database.clients.filter fun c =>
          userId.all (c.userId = ·))), s) := by
    -- without an owner to look for the filter keeps every row
    cases userId with
    | none =>
        have hall : (s.database.clients.filter fun c => Option.all (c.userId = ·) none) =
            s.database.clients :=
          List.filter_eq_self.mpr fun _ _ => rfl
        rw [hall]
        rfl
    | some userId => rfl
  have hout : ∀ c : Client, (do
      let allowed ← onSession (Services.Admin.getClientAllowedModels c.id)
      return ClientOut.of c allowed : Endpoint ClientOut).run s =
        (.ok (.of c (s.database.modelsOf c.id)), s) := fun _ => rfl
  unfold listClients
  rw [Exec.run_bind_ok hrows, Exec.run_mapM hout,
    map_byCreation Client.id ClientOut.id fun _ => rfl, List.filter_map]
  rfl

/-- The listing of keys, all of them or those of a client. -/
theorem listApiKeys_run (clientId : Option String) (s : Plane) :
    (listApiKeys createdAt clientId).run s =
      (.ok (byCreation createdAt ApiKeyOut.id
        ((s.database.apiKeys.map ApiKeyOut.of).filter fun out => clientId.all (out.clientId = ·))),
        s) := by
  have hrows : (onSession (Services.Admin.listApiKeys createdAt clientId)).run s =
      (.ok (byCreation createdAt ApiKey.id (s.database.apiKeys.filter fun k =>
          clientId.all (k.clientId = ·))), s) := by
    cases clientId with
    | none =>
        have hall : (s.database.apiKeys.filter fun k => Option.all (k.clientId = ·) none) =
            s.database.apiKeys :=
          List.filter_eq_self.mpr fun _ _ => rfl
        rw [hall]
        rfl
    | some clientId => rfl
  unfold listApiKeys
  rw [Exec.run_bind_ok hrows, List.filter_map]
  change (Except.ok ((byCreation createdAt ApiKey.id _).map ApiKeyOut.of), s) = _
  rw [map_byCreation ApiKey.id ApiKeyOut.id fun _ => rfl]
  rfl

/-- What a listing shows of what was told: in the order of creation, and so in the order in which it
was told where the clock has not gone back meanwhile. -/
structure Listing {ρ : Type} (createdAt : String → ℤ) (id : ρ → String) (told : List ρ)
    (shown : Except Exc (List ρ)) : Prop where
  sorted : shown = .ok (byCreation createdAt id told)
  chronological : Chronological createdAt id told → shown = .ok told

/-- A listing in the order of creation. -/
theorem listing_byCreation {ρ : Type} {id : ρ → String} {told : List ρ}
    {shown : Except Exc (List ρ)} (h : shown = .ok (byCreation createdAt id told)) :
    Listing createdAt id told shown where
  sorted := h
  chronological hclock := by rw [h, byCreation_eq_self hclock]

end SynGateway.Api.Admin.Management

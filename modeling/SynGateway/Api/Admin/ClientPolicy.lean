import SynGateway.Services.Admin
import SynGateway.Services.Precheck

/-!
# The policy of a client

`get_client_policy` and `update_client_policy` of `app/api/admin.py`. An update is partial: a field
that the body does not name is kept, and a field that it sets to null is cleared. What many updates
make of a policy is told by the last one that names the field (`limits_foldl`).
-/

namespace SynGateway.Api.Admin

open SynGateway.Core SynGateway.Core.Policy SynGateway.Db SynGateway.Python SynGateway.Services
open SynGateway.Services.Admin

/-! ## The endpoints -/

/-- The three limits of a client; `none` is inherited from the system. -/
structure Limits where
  requestsPerMinute : Option ℤ := none
  requestsPerDay : Option ℤ := none
  tokensPerDay : Option ℤ := none
deriving DecidableEq

/-- The limits of a row. -/
def limitsOf (client : Client) : Limits where
  requestsPerMinute := client.requestsPerMinute
  requestsPerDay := client.requestsPerDay
  tokensPerDay := client.tokensPerDay

/-- `Field(ge=0)`, of a field that the body may leave out or set to null. -/
def NonNegative (field : Option (Option ℤ)) : Prop := ∀ limit, field = some (some limit) → 0 ≤ limit

/-- `ClientPolicyUpdate`. A field is `none` where it is not in `model_fields_set`. -/
structure ClientPolicyUpdate where
  requestsPerMinute : Option (Option ℤ) := none
  requestsPerDay : Option (Option ℤ) := none
  tokensPerDay : Option (Option ℤ) := none
  nonneg : NonNegative requestsPerMinute ∧ NonNegative requestsPerDay ∧ NonNegative tokensPerDay

/-- `ClientPolicyOut`. -/
structure ClientPolicyOut where
  id : String
  name : Text
  requestsPerMinute : Option ℤ
  requestsPerDay : Option ℤ
  tokensPerDay : Option ℤ
deriving DecidableEq

/-- `ClientPolicyOut(...)` for a row. -/
def ClientPolicyOut.of (client : Client) : ClientPolicyOut where
  id := client.id
  name := client.name
  requestsPerMinute := client.requestsPerMinute
  requestsPerDay := client.requestsPerDay
  tokensPerDay := client.tokensPerDay

def getClientPolicy (clientId : String) : Session ClientPolicyOut := do
  let client ← getClient clientId
  return ClientPolicyOut.of client

/-- "Update only the fields that were explicitly provided." -/
def ClientPolicyUpdate.write (body : ClientPolicyUpdate) (client : Client) : Client :=
  { client with
    requestsPerMinute := body.requestsPerMinute.getD client.requestsPerMinute
    requestsPerDay := body.requestsPerDay.getD client.requestsPerDay
    tokensPerDay := body.tokensPerDay.getD client.tokensPerDay }

/-- Change the row of a client. -/
def updateClient (db : Database) (id : String) (f : Client → Client) : Database :=
  { db with clients := db.clients.map fun c => if c.id = id then f c else c }

/-- `update_client_policy`. `commit` is what `session.commit()` raises, and then nothing is written.
-/
def updateClientPolicy (commit : Option Exc) (clientId : String) (body : ClientPolicyUpdate) :
    Session ClientPolicyOut := do
  let client ← getClient clientId
  match commit with
  | some exc => Exec.raise exc
  | none =>
    Exec.modify fun db => updateClient db client.id body.write
    return ClientPolicyOut.of (body.write client)

/-! ## What the calls do -/

variable {db db' : Database} {clientId : String} {body : ClientPolicyUpdate} {commit : Option Exc}
  {out : ClientPolicyOut} {exc : Exc}

/-- `get_client` finds the row of the identifier, or says what is not found. -/
theorem getClient_run (db : Database) (clientId : String) :
    (getClient clientId).run db = match db.clients.find? fun c => c.id = clientId with
      | some client => (.ok client, db)
      | none => (.error (notFound "client" "client_not_found" clientId), db) := by
  unfold getClient
  rw [Exec.run_get_bind]
  unfold oneOr
  cases db.clients.find? fun c => c.id = clientId <;> rfl

/-- The policy endpoint shows the row of the client, and writes nothing. -/
theorem getClientPolicy_run (db : Database) (clientId : String) :
    (getClientPolicy clientId).run db = match db.clients.find? fun c => c.id = clientId with
      | some client => (.ok (.of client), db)
      | none => (.error (notFound "client" "client_not_found" clientId), db) := by
  have hrow := getClient_run db clientId
  unfold getClientPolicy
  cases hfind : db.clients.find? fun c => c.id = clientId with
  | some client =>
      rw [hfind] at hrow
      rw [Exec.run_bind_ok hrow]
      rfl
  | none =>
      rw [hfind] at hrow
      rw [Exec.run_bind_error hrow]

/-- An update that is answered has written the row that it answers with. -/
theorem updateClientPolicy_eq_ok
    (h : (updateClientPolicy commit clientId body).run db = (.ok out, db')) :
    ∃ client ∈ db.clients, client.id = clientId ∧ out = .of (body.write client) ∧
      db' = updateClient db clientId body.write := by
  obtain ⟨client, db₁, hclient, hrest⟩ := Exec.run_bind_eq_ok.mp h
  obtain ⟨hmem, hid, rfl⟩ := getClient_eq_ok hclient
  cases commit with
  | some exc => cases hrest
  | none =>
      rw [Exec.run_modify_bind] at hrest
      obtain ⟨hout, rfl⟩ := Prod.mk.inj hrest
      exact ⟨client, hmem, hid, (Except.ok.inj hout).symm, by rw [hid]⟩

/-- An update that raises has written nothing. -/
theorem updateClientPolicy_eq_error
    (h : (updateClientPolicy commit clientId body).run db = (.error exc, db')) : db' = db := by
  have hrow := getClient_run db clientId
  unfold updateClientPolicy at h
  cases hfind : db.clients.find? fun c => c.id = clientId with
  | some client =>
      rw [hfind] at hrow
      rw [Exec.run_bind_ok hrow] at h
      cases commit with
      | some exc =>
          cases h
          rfl
      | none => cases h
  | none =>
      rw [hfind] at hrow
      -- the client is not found, before anything is written
      rw [Exec.run_bind_error hrow] at h
      cases h
      rfl

/-! ## What is made of the limits -/

/-- The limits after an update. -/
def ClientPolicyUpdate.apply (body : ClientPolicyUpdate) (limits : Limits) : Limits where
  requestsPerMinute := body.requestsPerMinute.getD limits.requestsPerMinute
  requestsPerDay := body.requestsPerDay.getD limits.requestsPerDay
  tokensPerDay := body.tokensPerDay.getD limits.tokensPerDay

/-- What a call writes are the limits that it sets. -/
@[simp] theorem limitsOf_write (body : ClientPolicyUpdate) (client : Client) :
    limitsOf (body.write client) = body.apply (limitsOf client) := rfl

@[simp] theorem write_id (body : ClientPolicyUpdate) (client : Client) :
    (body.write client).id = client.id := rfl

@[simp] theorem write_userId (body : ClientPolicyUpdate) (client : Client) :
    (body.write client).userId = client.userId := rfl

@[simp] theorem updateClient_users (db : Database) (id : String) (f : Client → Client) :
    (updateClient db id f).users = db.users := rfl

@[simp] theorem updateClient_apiKeys (db : Database) (id : String) (f : Client → Client) :
    (updateClient db id f).apiKeys = db.apiKeys := rfl

@[simp] theorem updateClient_modelsOf (db : Database) (id : String) (f : Client → Client)
    (clientId : String) :
    (updateClient db id f).modelsOf clientId = db.modelsOf clientId := rfl

/-- What the last of some bodies that name a field has set it to. -/
def lastSet (field : ClientPolicyUpdate → Option (Option ℤ)) (bodies : List ClientPolicyUpdate) :
    Option ℤ :=
  ((bodies.filterMap field).getLast?).getD none

/-- The limits that some bodies set, the last one last. -/
def limitsSet (bodies : List ClientPolicyUpdate) : Limits where
  requestsPerMinute := lastSet (·.requestsPerMinute) bodies
  requestsPerDay := lastSet (·.requestsPerDay) bodies
  tokensPerDay := lastSet (·.tokensPerDay) bodies

/-- One more call decides the field if it sets it. -/
theorem lastSet_append (field : ClientPolicyUpdate → Option (Option ℤ))
    (bodies : List ClientPolicyUpdate) (body : ClientPolicyUpdate) :
    lastSet field (bodies ++ [body]) = (field body).getD (lastSet field bodies) := by
  unfold lastSet
  rw [List.filterMap_append]
  cases hfield : field body <;> simp [hfield]

/-- One more update. -/
theorem limitsSet_append (bodies : List ClientPolicyUpdate) (body : ClientPolicyUpdate) :
    limitsSet (bodies ++ [body]) = body.apply (limitsSet bodies) := by
  unfold limitsSet ClientPolicyUpdate.apply
  simp only [lastSet_append]

/-- The policy of a key that has no limits of its own. -/
def policyOf (service : UsageService) (limits : Limits) : EffectivePolicy where
  requestsPerMinute := resolve none limits.requestsPerMinute service.defaultRpm
  requestsPerDay := resolve none limits.requestsPerDay service.defaultRpd
  tokensPerDay := resolve none limits.tokensPerDay service.defaultTpd

/-- A key that inherits all limits. -/
structure Inherits (apiKey : ApiKey) : Prop where
  requestsPerMinute : apiKey.requestsPerMinute = none
  requestsPerDay : apiKey.requestsPerDay = none
  tokensPerDay : apiKey.tokensPerDay = none

/-- The policy of a key without overrides is that of its client. -/
theorem effectivePolicy_of_inherits (service : UsageService) {apiKey : ApiKey} (h : Inherits apiKey)
    (client : Client) :
    service.effectivePolicy apiKey client = policyOf service (limitsOf client) := by
  unfold UsageService.effectivePolicy resolvePolicy policyOf limitsOf
  rw [h.requestsPerMinute, h.requestsPerDay, h.tokensPerDay]

end SynGateway.Api.Admin

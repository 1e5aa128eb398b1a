import Mathlib.Data.Multiset.MapFold
import SynGateway.Python.Json
import SynGateway.Python.Text

/-!
# The database rows

The rows of the users, clients, API keys and allowed models, with the columns of the migrations that
the gateway reads. Times are readings of the wall clock in milliseconds, as naive UTC.
-/

namespace SynGateway.Db

open SynGateway.Python

/-- A row of `users`. -/
structure User where
  id : String
  name : Text
deriving DecidableEq, Repr

/-- A row of `clients`. A limit of `None` is inherited from the system. -/
structure Client where
  id : String
  userId : String
  name : Text
  description : Option Text := none
  requestsPerMinute : Option ℤ := none
  requestsPerDay : Option ℤ := none
  tokensPerDay : Option ℤ := none
deriving DecidableEq, Repr

/-- A row of `api_keys`. A limit of `None` is inherited from the client. -/
structure ApiKey where
  id : String
  clientId : String
  name : Text
  keyPrefix : Text
  keyHash : String
  expiresAt : Option ℤ := none
  revokedAt : Option ℤ := none
  lastUsedAt : Option ℤ := none
  requestsPerMinute : Option ℤ := none
  requestsPerDay : Option ℤ := none
  tokensPerDay : Option ℤ := none
deriving DecidableEq, Repr

/-- A row of `client_allowed_models`. -/
structure ClientAllowedModel where
  clientId : String
  modelId : Str
deriving DecidableEq, Repr

/-- The committed rows of the tables, in the order they were inserted. -/
structure Database where
  users : List User := []
  clients : List Client := []
  apiKeys : List ApiKey := []
  allowedModels : List ClientAllowedModel := []
deriving DecidableEq, Repr

namespace Database

/-- Change the row of an API key. -/
def updateApiKey (db : Database) (id : String) (f : ApiKey → ApiKey) : Database :=
  { db with apiKeys := db.apiKeys.map fun k => if k.id = id then f k else k }

/-- `ApiKey.client`. -/
def clientOf (db : Database) (apiKey : ApiKey) : Option Client :=
  db.clients.find? fun c => c.id = apiKey.clientId

/-- `Client.user`. -/
def userOf (db : Database) (client : Client) : Option User :=
  db.users.find? fun u => u.id = client.userId

/-- The models in the rows of a client in `client_allowed_models`. The queries for them have no
`ORDER BY`, so they come in no particular order. -/
def modelsOf (db : Database) (clientId : String) : Multiset Str :=
  ((db.allowedModels.filter fun row => row.clientId = clientId).map (·.modelId) : List Str)

variable (db : Database) (id : String) (f : ApiKey → ApiKey)

/-- An update of a key leaves the users. -/
@[simp] theorem updateApiKey_users : (db.updateApiKey id f).users = db.users := rfl

/-- An update of a key leaves the clients. -/
@[simp] theorem updateApiKey_clients : (db.updateApiKey id f).clients = db.clients := rfl

/-- An update of a key leaves the allowed models. -/
@[simp] theorem updateApiKey_allowedModels :
    (db.updateApiKey id f).allowedModels = db.allowedModels := rfl

end Database

section PrimaryKey

variable {ρ : Type} {key : ρ → String} {id : String} {rows : List ρ} {row : ρ}

/-- A row that is found by its primary key has this key. -/
theorem key_of_find? (h : rows.find? (fun r => key r = id) = some row) : key row = id := by
  simpa using List.find?_some h

/-- A row that is there is found, or an earlier one with its key. -/
theorem exists_find? (h : ∃ r ∈ rows, key r = id) :
    ∃ row, rows.find? (fun r => key r = id) = some row := by
  obtain ⟨r, hmem, hkey⟩ := h
  apply Option.isSome_iff_exists.mp
  rw [List.find?_isSome]
  exact ⟨r, hmem, decide_eq_true hkey⟩

end PrimaryKey

end SynGateway.Db

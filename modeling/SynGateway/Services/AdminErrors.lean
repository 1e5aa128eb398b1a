import SynGateway.Services.AdminAtomicity

/-!
# What a call of the management plane raises

Without an outage of the database a call can still be refused by a constraint of the tables, and the
caller then gets the `IntegrityError` of the database instead of an error of the gateway.
`create_user` looks for its name before it writes; `create_client` does not, nor does it drop
repeated models. So every other call raises typed errors only, and `create_client` does unless its
name is taken or a model is repeated (`Call.typed_errors_iff`).
-/

namespace SynGateway.Services.AdminSession

open SynGateway.Core SynGateway.Core.ApiKeys SynGateway.Db SynGateway.Python
  SynGateway.Services.Admin
open SynGateway.UnitOfWork

/-- An instance of `SynError`. -/
def IsSynError (exc : Exc) : Prop := ∃ error, exc = .syn error

/-! ## On the tables -/

section Tables

variable {db : Database} {α β : Type}

/-- From these rows, the body raises typed errors only. -/
def Typed (db : Database) (x : Admin.Session α) : Prop :=
  ∀ exc rows, x.run db = (.error exc, rows) → IsSynError exc

theorem typed_congr {x y : Admin.Session α} {rows : Database} (h : x.run db = y.run rows) :
    Typed db x ↔ Typed rows y := by
  unfold Typed
  rw [h]

theorem Typed.of_raise (error : SynError) :
    Typed db (Exec.raise (.syn error) : Admin.Session α) := by
  rintro _ _ ⟨⟩
  exact ⟨error, rfl⟩

theorem Typed.of_ok {x : Admin.Session α} {a : α} {rows : Database} (h : x.run db = (.ok a, rows)) :
    Typed db x := by
  intro exc rows' herror
  rw [h] at herror
  cases herror

/-- What two bodies raise is a `SynError` when it is for each. -/
theorem Typed.bind {x : Admin.Session α} {f : α → Admin.Session β} (hx : Typed db x)
    (hf : ∀ a rows, x.run db = (.ok a, rows) → Typed rows (f a)) : Typed db (x >>= f) := by
  rcases hrun : x.run db with ⟨exc | a, rows⟩
  · intro exc' rows' herror
    rw [Exec.run_bind_error hrun] at herror
    cases herror
    exact hx exc rows hrun
  · exact (typed_congr (Exec.run_bind_ok hrun)).mpr (hf a rows hrun)

/-- A body without its result. -/
theorem typed_discard_iff {x : Admin.Session α} : Typed db (do let _ ← x; return ()) ↔ Typed db x :=
  ⟨fun h exc rows hrun => h exc rows (Exec.run_bind_error hrun),
    fun h => h.bind fun _ _ _ => .of_ok rfl⟩

/-- A violated constraint is no `SynError`. -/
theorem not_typed_integrityError : ¬ Typed db (Exec.raise integrityError : Admin.Session α) := by
  intro h
  obtain ⟨_, herror⟩ := h _ db rfl
  cases herror

/-- A query by primary key raises what it is given. -/
theorem typed_oneOr (row : Option α) (error : SynError) :
    Typed db (Admin.oneOr row (.syn error)) := by
  cases row with
  | none => exact .of_raise error
  | some row => exact .of_ok rfl

theorem typed_getUser (userId : String) : Typed db (Admin.getUser userId) := typed_oneOr _ _

theorem typed_getClient (clientId : String) : Typed db (Admin.getClient clientId) := typed_oneOr _ _

theorem typed_getApiKey (apiKeyId : String) : Typed db (Admin.getApiKey apiKeyId) := typed_oneOr _ _

/-- The query for the name comes before the constraint on it. -/
theorem typed_createUser {id : String} {name : Text} (hfresh : ∀ u ∈ db.users, u.id ≠ id) :
    Typed db (Admin.createUser id name) := by
  unfold Admin.createUser
  dsimp only
  split_ifs with hempty
  · exact .of_raise _
  refine Typed.bind (.of_ok rfl) fun rows _ hget => ?_
  cases hget
  split_ifs with hexists htaken
  · exact .of_raise _
  · obtain ⟨u, hu, hid⟩ := List.any_eq_true.mp htaken
    exact absurd (of_decide_eq_true hid) (hfresh u hu)
  · exact .of_ok rfl

/-- The client is wanted, and the constraints refuse it: the user has one of that name, or a model
is given twice. -/
structure Clashes (userId : String) (name : Text) (allowedModels : Option (List Str))
    (db : Database) : Prop where
  nonempty : strip name ≠ []
  user : ∃ u ∈ db.users, u.id = userId
  clash : (∃ c ∈ db.clients, c.userId = userId ∧ c.name = strip name) ∨
    ¬ (allowedModels.getD []).Nodup

/-- `create_client` raises a typed error unless a constraint is violated. -/
theorem typed_createClient_iff {id userId : String} {name : Text} {description : Option Text}
    {allowedModels : Option (List Str)} (hfresh : ∀ c ∈ db.clients, c.id ≠ id) :
    Typed db (Admin.createClient id userId name description allowedModels) ↔
      ¬ Clashes userId name allowedModels db := by
  unfold Admin.createClient
  dsimp only
  by_cases hempty : strip name = []
  · rw [if_pos hempty]
    exact iff_of_true (.of_raise _) fun h => h.nonempty hempty
  rw [if_neg hempty]
  rcases hget : (Admin.getUser userId).run db with ⟨exc | user, rows⟩
  · refine iff_of_true ((typed_getUser userId).bind fun _ _ hok => ?_) fun h => ?_
    · rw [hget] at hok
      cases hok
    · obtain ⟨row, hrow⟩ := exists_find? h.user
      have hok : (Admin.getUser userId).run db = (.ok row, db) := oneOr_eq_ok.mpr ⟨hrow, rfl⟩
      rw [hget] at hok
      cases hok
  obtain ⟨hmem, hid, rfl⟩ := getUser_eq_ok hget
  rw [typed_congr (Exec.run_bind_ok hget), typed_congr (Exec.run_get_bind)]
  -- the id is fresh, so only the name can be taken
  have htaken :
      rows.clients.any (fun c => c.id = id || (c.userId = user.id && c.name = strip name)) = true ↔
      ∃ c ∈ rows.clients, c.userId = userId ∧ c.name = strip name := by
    rw [List.any_eq_true, hid]
    refine exists_congr fun c => and_congr_right fun hc => ?_
    simp [hfresh c hc]
  have hclashes : Clashes userId name allowedModels rows ↔
      (∃ c ∈ rows.clients, c.userId = userId ∧ c.name = strip name) ∨
          ¬ (allowedModels.getD []).Nodup :=
    ⟨fun h => h.clash, fun h => ⟨hempty, ⟨user, hmem, hid⟩, h⟩⟩
  rw [hclashes, ← htaken]
  split_ifs with hname hdistinct
  · exact iff_of_false not_typed_integrityError (not_not_intro (.inl hname))
  · exact iff_of_true (.of_ok rfl) (not_or.mpr ⟨hname, not_not_intro hdistinct⟩)
  · exact iff_of_false not_typed_integrityError (not_not_intro (.inr hdistinct))

/-- `create_api_key` raises typed errors only. -/
theorem typed_createApiKey {sha256 : Text → String} {draw : Draw} {id clientId : String}
    {name : Text} {expiresAt : Option ℤ} (hfresh : ∀ k ∈ db.apiKeys, k.id ≠ id) :
    Typed db (Admin.createApiKey sha256 draw id clientId name expiresAt) := by
  unfold Admin.createApiKey
  dsimp only
  split_ifs with hempty
  · exact .of_raise _
  refine (typed_getClient clientId).bind fun client rows hclient => ?_
  obtain ⟨-, -, rfl⟩ := getClient_eq_ok hclient
  refine Typed.bind (.of_ok rfl) fun _ _ hget => ?_
  cases hget
  split_ifs with htaken
  · obtain ⟨k, hk, hid⟩ := List.any_eq_true.mp htaken
    exact absurd (of_decide_eq_true hid) (hfresh k hk)
  · exact .of_ok rfl

/-- `revoke_api_key` raises typed errors only. -/
theorem typed_revokeApiKey (now : ℤ) (apiKeyId : String) :
    Typed db (Admin.revokeApiKey now apiKeyId) := by
  unfold Admin.revokeApiKey
  refine (typed_getApiKey apiKeyId).bind fun apiKey rows _ => ?_
  split_ifs
  · exact .of_ok rfl
  · exact .of_ok rfl

/-- `rotate_api_key` raises typed errors only. -/
theorem typed_rotateApiKey {sha256 : Text → String} {draw : Draw} {now : ℤ} {id apiKeyId : String}
    {revokeOld : Bool} (hfresh : ∀ k ∈ db.apiKeys, k.id ≠ id) :
    Typed db (Admin.rotateApiKey sha256 draw now id apiKeyId revokeOld) := by
  unfold Admin.rotateApiKey
  refine (typed_getApiKey apiKeyId).bind fun old rows hold => ?_
  obtain ⟨-, -, rfl⟩ := getApiKey_eq_ok hold
  refine (typed_createApiKey hfresh).bind fun created rows _ => ?_
  dsimp only
  split_ifs
  · exact (typed_revokeApiKey now old.id).bind fun _ _ _ => .of_ok rfl
  · exact .of_ok rfl

end Tables

/-! ## On a session without failures -/

namespace Call

/-- The id that the call draws for its row is not taken. -/
def FreshId (db : Database) : Call → Prop
  | createUser id _ => ∀ u ∈ db.users, u.id ≠ id
  | createClient id .. => ∀ c ∈ db.clients, c.id ≠ id
  | createApiKey _ id .. => ∀ k ∈ db.apiKeys, k.id ≠ id
  | revokeApiKey .. => True
  | rotateApiKey _ _ id .. => ∀ k ∈ db.apiKeys, k.id ≠ id

/-- The call wants a client that the constraints refuse. -/
def Clashes (db : Database) : Call → Prop
  | createClient _ userId name _ allowedModels => AdminSession.Clashes userId name allowedModels db
  | _ => False

/-- The models of a client that was created are those that were asked for. -/
def ModelsAsRequested (rows : Database) : Call → Prop
  | createClient id _ _ _ allowedModels =>
    ∃ models, (getClientAllowedModels id).run rows = (.ok models, rows) ∧
      ∀ modelId, modelId ∈ models ↔ modelId ∈ allowedModels.getD []
  | _ => True

/-- If no operation of the database fails, the call raises typed errors only, and if it succeeds the
models are set. -/
structure TypedErrors (sha256 : Text → String) (db : Database) (call : Call) : Prop where
  typed : ∀ exc, ((call.run noFaults sha256).run (.clean db 0)).1 = .error exc → IsSynError exc
  models : ((call.run noFaults sha256).run (.clean db 0)).1 = .ok () →
    call.ModelsAsRequested ((call.run noFaults sha256).run (.clean db 0)).2.committed

variable {sha256 : Text → String} {db : Database} {call : Call}

/-- A call with a fresh identifier raises a typed error unless a constraint is violated. -/
theorem typed_spec_iff (sha256 : Text → String) (hfresh : call.FreshId db) :
    Typed db (call.spec sha256) ↔ ¬ call.Clashes db := by
  cases call with
  | createUser id name =>
      exact iff_of_true (typed_discard_iff.mpr (typed_createUser hfresh)) not_false
  | createClient id userId name description allowedModels =>
      exact typed_discard_iff.trans (typed_createClient_iff hfresh)
  | createApiKey draw id clientId name expiresAt =>
      exact iff_of_true (typed_discard_iff.mpr (typed_createApiKey hfresh)) not_false
  | revokeApiKey now apiKeyId =>
      exact iff_of_true (typed_discard_iff.mpr (typed_revokeApiKey _ _)) not_false
  | rotateApiKey draw now id apiKeyId revokeOld =>
      exact iff_of_true (typed_discard_iff.mpr (typed_rotateApiKey hfresh)) not_false

/-- A client that was created has the models that were asked for. -/
theorem modelsAsRequested_of_ok {rows : Database}
    (hrun : (call.spec sha256).run db = (.ok (), rows)) :
    call.ModelsAsRequested rows := by
  cases call with
  | createClient id userId name description allowedModels =>
      obtain ⟨client, rows', hcreate, hend⟩ := Exec.run_bind_eq_ok.mp hrun
      cases hend
      obtain ⟨-, -, -, -, rfl⟩ := createClient_eq_ok hcreate
      refine ⟨(allowedModels.getD [] : List Str), ?_, fun _ => Multiset.mem_coe⟩
      unfold getClientAllowedModels
      rw [Exec.run_get_bind, KeyLifecycle.modelsOf_setAllowedModels, if_pos rfl]
      rfl
  | createUser => trivial
  | createApiKey => trivial
  | revokeApiKey => trivial
  | rotateApiKey => trivial

/-- **What a call raises.** Whatever the tables hold, a call raises typed errors only, and sets the
models that it was given, exactly if it is no client whose name its user has taken or whose models
repeat. -/
theorem typed_errors_iff (sha256 : Text → String) {db : Database} {call : Call}
    (hfresh : call.FreshId db) :
    call.TypedErrors sha256 db ↔ ¬ call.Clashes db := by
  refine Iff.trans ?_ (typed_spec_iff sha256 hfresh)
  rcases (run_simulates sha256 call db 0).cases rfl with ⟨_, _, hrun, rows, n, rfl, hspec⟩ |
    ⟨exc, c, hrun, hspec⟩
  · refine iff_of_true ⟨fun exc herror => ?_, fun _ => ?_⟩ (.of_ok hspec)
    · rw [hrun] at herror
      cases herror
    · rw [hrun]
      -- a client that was created has the models that were asked for
      exact modelsAsRequested_of_ok hspec
  · constructor
    · intro h exc' rows herror
      -- without faults the session raises what the call raises
      obtain ⟨heq, -⟩ := Prod.mk.inj (hspec.symm.trans herror)
      exact h.typed exc' (by rw [hrun]; exact heq)
    · intro h
      refine ⟨fun exc' herror => ?_, fun hok => ?_⟩
      · rw [hrun] at herror
        exact Except.error.inj herror ▸ h exc c.committed hspec
      · rw [hrun] at hok
        cases hok

/-- The rows after some calls on an empty database. -/
def rowsAfter (sha256 : Text → String) (calls : List Call) : Database :=
  calls.foldl (fun db call => ((call.run noFaults sha256).run (.clean db 0)).2.committed) {}

/-- A second client of another name is created, and its models are set. -/
theorem typed_errors_second :
    (createClient "d" "u" ['d'] none (some [[109]])).TypedErrors String.ofList sampleDb :=
  (typed_errors_iff String.ofList (by unfold FreshId; decide)).mpr fun h => by
    rcases h.clash with ⟨c, hc, -, hname⟩ | hrepeated
    · obtain rfl := List.mem_singleton.mp hc
      exact absurd hname (by decide)
    · exact hrepeated (by decide)

/-- A second client of the same name gets the error of the database. -/
theorem untyped_duplicate :
    ¬ ∀ (sha256 : Text → String) (calls : List Call) (call : Call), call.FreshId
      (rowsAfter sha256 calls) →
      call.TypedErrors sha256 (rowsAfter sha256 calls) := by
  intro hall
  have htyped := hall String.ofList
    [createUser "u" ['u'], createClient "c" "u" ['c'] none none]
      (createClient "d" "u" ['c'] none none)
    (by unfold FreshId; decide +kernel)
  obtain ⟨_, herror⟩ := htyped.typed integrityError rfl
  cases herror

end Call

end SynGateway.Services.AdminSession

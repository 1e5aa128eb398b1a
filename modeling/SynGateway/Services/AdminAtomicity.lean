import SynGateway.Services.AdminSession
import SynGateway.Services.KeyLifecycle

/-!
# Calls of the management plane that raise

A call on a session, with everything it gets as an argument. When no operation fails it is the call
of `Services.Admin` (`Call.run_simulates`).

Every call has its first commit before its last operation: a refresh follows the commit, and in a
rotation so does the whole revocation of the old key. `Call.admin_atomic_iff` says for which
failures a call that raises has committed nothing.
-/

namespace SynGateway.Services.AdminSession

open SynGateway.Core SynGateway.Core.ApiKeys SynGateway.Db SynGateway.Python
  SynGateway.Services.Admin
open SynGateway.UnitOfWork

/-! ## Without failures -/

section Simulation

variable {db : Database} {n : ℕ}

/-- A query by primary key that gives the row to what follows. -/
theorem simulates_oneOr {α : Type} {read : Database → Option α} {exc : Exc} {spec : Admin.Session α}
    (hspec : spec.run db = (Admin.oneOr (read db) exc).run db) :
    Simulates (.clean db n) (oneOr noFaults read exc) spec := by
  apply Simulates.query
  cases hrow : read db with
  | some row =>
      rw [hrow] at hspec
      exact Simulates.pure hspec
  | none =>
      rw [hrow] at hspec
      exact Simulates.raise hspec

/-- Without faults the session of `create_user` does what the call does. -/
theorem createUser_simulates (id : String) (name : Text) :
    Simulates (.clean db n) (createUser noFaults id name) (Admin.createUser id name) := by
  unfold createUser Admin.createUser
  dsimp only
  by_cases hempty : strip name = []
  · rw [if_pos hempty, if_pos hempty]
    exact Simulates.raise rfl
  rw [if_neg hempty, if_neg hempty]
  apply Simulates.query
  -- the query sees the name before the constraint does
  by_cases hexists : db.users.any (·.name = strip name) = true
  · rw [if_pos hexists]
    exact Simulates.raise (Exec.run_if_pos hexists)
  rw [if_neg hexists]
  apply Simulates.add
  -- the name is free, so only the id can be taken
  by_cases htaken : db.users.any (·.id = id) = true
  · have hrefuse : (insertUser ⟨id, strip name⟩).refuse db = some integrityError := by
      apply if_pos
      obtain ⟨u, hu, hid⟩ := List.any_eq_true.mp htaken
      exact List.any_eq_true.mpr ⟨u, hu, Bool.or_eq_true_iff.mpr (.inl hid)⟩
    refine Simulates.commit_refused (Write.sendAll_cons_refused hrefuse []) ?_
    exact (Exec.run_if_neg hexists).trans (Exec.run_if_pos htaken)
  · have hallowed : (insertUser ⟨id, strip name⟩).refuse db = none := by
      apply refuse_insertUser.mpr
      intro u hu
      exact ⟨fun hid => htaken (List.any_eq_true.mpr ⟨u, hu, decide_eq_true hid⟩),
        fun hname => hexists (List.any_eq_true.mpr ⟨u, hu, decide_eq_true hname⟩)⟩
    refine Simulates.commit (Write.sendAll_cons_allowed hallowed []) ?_
    exact (Exec.run_if_neg hexists).trans (Exec.run_if_neg htaken)

/-- Without faults the session of `create_client` does what the call does. -/
theorem createClient_simulates (id userId : String) (name : Text) (description : Option Text)
    (allowedModels : Option (List Str)) :
    Simulates (.clean db n) (createClient noFaults id userId name description allowedModels)
      (Admin.createClient id userId name description allowedModels) := by
  unfold createClient Admin.createClient
  dsimp only
  by_cases hempty : strip name = []
  · rw [if_pos hempty, if_pos hempty]
    exact Simulates.raise rfl
  rw [if_neg hempty, if_neg hempty]
  apply (simulates_oneOr rfl).bind
  intro user rows n huser
  obtain rfl : db = rows := (getUser_eq_ok huser).2.2.symm
  let client : Client := { id, userId := user.id, name := strip name, description }
  -- the row of the client is sent by the flush, the rows of its models by the commit
  by_cases htaken :
    db.clients.any (fun c => c.id = id || (c.userId = user.id && c.name = strip name)) = true
  · apply Simulates.add
    refine Simulates.flush_refused (Write.sendAll_cons_refused (if_pos htaken) []) ?_
    exact Exec.run_if_pos htaken
  · apply Simulates.add
    refine Simulates.flush
      ((Write.sendAll_cons_allowed (if_neg htaken) []).trans Write.sendAll_nil) ?_
    unfold setAllowedModels
    rw [bind_assoc]
    refine Simulates.execute Write.sendAll_nil ?_
    apply Simulates.addAll
    have hsend := sendAll_modelRows db client allowedModels
    unfold modelRows at hsend
    rw [List.map_map] at hsend
    by_cases hdistinct : (allowedModels.getD []).Nodup
    · rw [if_pos hdistinct] at hsend
      refine Simulates.commit hsend ?_
      exact (Exec.run_if_neg htaken).trans (Exec.run_if_neg (not_not_intro hdistinct))
    · rw [if_neg hdistinct] at hsend
      refine Simulates.commit_refused hsend ?_
      exact (Exec.run_if_neg htaken).trans (Exec.run_if_pos hdistinct)

/-- Without faults the session of `create_api_key` does what the call does. -/
theorem createApiKey_simulates (sha256 : Text → String) (draw : Draw) (id clientId : String)
    (name : Text) (expiresAt : Option ℤ) :
    Simulates (.clean db n) (createApiKey noFaults sha256 draw id clientId name expiresAt)
      (Admin.createApiKey sha256 draw id clientId name expiresAt) := by
  unfold createApiKey Admin.createApiKey
  dsimp only
  by_cases hempty : strip name = []
  · rw [if_pos hempty, if_pos hempty]
    exact Simulates.raise rfl
  rw [if_neg hempty, if_neg hempty]
  apply (simulates_oneOr rfl).bind
  intro client rows n hclient
  obtain rfl : db = rows := (getClient_eq_ok hclient).2.2.symm
  apply Simulates.add
  by_cases htaken : db.apiKeys.any (·.id = id) = true
  · refine Simulates.commit_refused (Write.sendAll_cons_refused (if_pos htaken) []) ?_
    exact Exec.run_if_pos htaken
  · refine Simulates.commit (Write.sendAll_cons_allowed (if_neg htaken) []) ?_
    exact Exec.run_if_neg htaken

/-- Without faults the session of `revoke_api_key` does what the call does. -/
theorem revokeApiKey_simulates (now : ℤ) (apiKeyId : String) :
    Simulates (.clean db n) (revokeApiKey noFaults now apiKeyId)
    (Admin.revokeApiKey now apiKeyId) := by
  apply (simulates_oneOr rfl).bind
  intro apiKey rows n hapiKey
  obtain rfl : db = rows := (getApiKey_eq_ok hapiKey).2.2.symm
  by_cases hlive : apiKey.revokedAt = none
  · rw [if_pos hlive, if_pos hlive]
    apply Simulates.add
    exact Simulates.commit (Write.sendAll_cons_allowed rfl []) rfl
  · rw [if_neg hlive, if_neg hlive]
    exact Simulates.pure rfl

/-- Without faults the session of `rotate_api_key` does what the call does. -/
theorem rotateApiKey_simulates (sha256 : Text → String) (draw : Draw) (now : ℤ)
    (id apiKeyId : String) (revokeOld : Bool) :
    Simulates (.clean db n) (rotateApiKey noFaults sha256 draw now id apiKeyId revokeOld)
      (Admin.rotateApiKey sha256 draw now id apiKeyId revokeOld) := by
  apply (simulates_oneOr rfl).bind
  intro old db₀ n _
  apply (createApiKey_simulates _ _ _ _ _ _).bind
  rintro ⟨newKey, fullToken⟩ db₁ n -
  cases revokeOld with
  | false => exact Simulates.pure rfl
  | true =>
      apply (revokeApiKey_simulates _ _).bind
      intro old db₂ n _
      exact Simulates.pure rfl

end Simulation

/-! ## The calls -/

/-- A call of the management plane, with the ids, secrets and times that it gets. -/
inductive Call where
  | createUser (id : String) (name : Text)
  | createClient (id userId : String) (name : Text) (description : Option Text)
  (allowedModels : Option (List Str))
  | createApiKey (draw : Draw) (id clientId : String) (name : Text) (expiresAt : Option ℤ)
  | revokeApiKey (now : ℤ) (apiKeyId : String)
  | rotateApiKey (draw : Draw) (now : ℤ) (id apiKeyId : String) (revokeOld : Bool)

namespace Call

/-- The call on a session, without its result. -/
def run (faults : Faults Exc) (sha256 : Text → String) : Call → Session Unit
  | createUser id name => do
    let _ ← AdminSession.createUser faults id name
    return ()
  | createClient id userId name description allowedModels => do
    let _ ← AdminSession.createClient faults id userId name description allowedModels
    return ()
  | createApiKey draw id clientId name expiresAt => do
    let _ ← AdminSession.createApiKey faults sha256 draw id clientId name expiresAt
    return ()
  | revokeApiKey now apiKeyId => do
    let _ ← AdminSession.revokeApiKey faults now apiKeyId
    return ()
  | rotateApiKey draw now id apiKeyId revokeOld => do
    let _ ← AdminSession.rotateApiKey faults sha256 draw now id apiKeyId revokeOld
    return ()

/-- What the call is to do with the tables. -/
def spec (sha256 : Text → String) : Call → Admin.Session Unit
  | createUser id name => do
    let _ ← Admin.createUser id name
    return ()
  | createClient id userId name description allowedModels => do
    let _ ← Admin.createClient id userId name description allowedModels
    return ()
  | createApiKey draw id clientId name expiresAt => do
    let _ ← Admin.createApiKey sha256 draw id clientId name expiresAt
    return ()
  | revokeApiKey now apiKeyId => do
    let _ ← Admin.revokeApiKey now apiKeyId
    return ()
  | rotateApiKey draw now id apiKeyId revokeOld => do
    let _ ← Admin.rotateApiKey sha256 draw now id apiKeyId revokeOld
    return ()

/-- Without faults every session does what its call does. -/
theorem run_simulates (sha256 : Text → String) (call : Call) (db : Database) (n : ℕ) :
    Simulates (.clean db n) (call.run noFaults sha256) (call.spec sha256) := by
  cases call with
  | createUser id name => exact (createUser_simulates _ _).bind fun _ _ _ _ => Simulates.pure rfl
  | createClient id userId name description allowedModels =>
      exact (createClient_simulates _ _ _ _ _).bind fun _ _ _ _ => Simulates.pure rfl
  | createApiKey draw id clientId name expiresAt =>
      exact (createApiKey_simulates _ _ _ _ _ _).bind fun _ _ _ _ => Simulates.pure rfl
  | revokeApiKey now apiKeyId =>
      exact (revokeApiKey_simulates _ _).bind fun _ _ _ _ => Simulates.pure rfl
  | rotateApiKey draw now id apiKeyId revokeOld =>
      exact (rotateApiKey_simulates _ _ _ _ _ _).bind fun _ _ _ _ => Simulates.pure rfl

/-- The tables let the call write. -/
def Writes (db : Database) : Call → Prop
  | createUser id name => CreatesUser id name db
  | createClient id userId name _ allowedModels => CreatesClient id userId name allowedModels db
  | createApiKey _ id clientId name _ => CreatesApiKey id clientId name db
  | revokeApiKey _ apiKeyId => ∃ row, db.apiKeys.find? (fun k => k.id = apiKeyId) = some row ∧
      row.revokedAt = none
  | rotateApiKey _ _ id apiKeyId _ =>
    ∃ row, db.apiKeys.find? (fun k => k.id = apiKeyId) = some row ∧
      CreatesApiKey id row.clientId (row.name ++ " (rotated)".toList) db

/-- The number of the operation that is the call's first commit, if the call writes. -/
def firstCommit : Call → ℕ
  | createUser .. => 1
  | createClient .. => 3
  | createApiKey .. => 1
  | revokeApiKey .. => 1
  | rotateApiKey .. => 2

/-- How many operations the call tries, if it writes and none of them fails. -/
def operations (db : Database) : Call → ℕ
  | createUser .. => 3
  | createClient .. => 5
  | createApiKey .. => 3
  | revokeApiKey .. => 3
  | rotateApiKey _ _ _ apiKeyId revokeOld =>
    match db.apiKeys.find? fun k => k.id = apiKeyId with
    | some row => rotateOperations row revokeOld
    | none => 1

/-! ## Atomicity -/

section Atomicity

variable {faults : Faults Exc} {sha256 : Text → String} {db : Database}

/-- A call that the tables do not let write. -/
theorem ensures_refused {call : Call} (h : ¬ call.Writes db) :
    Exec.Ensures (Reached faults 0 (.clean db 0)) (call.run faults sha256)
      (fun _ c => c.committed = db) fun _ c => c.committed = db := by
  cases call with
  | createUser id name => exact (ensures_createUser_refused h).bind fun _ _ hfalse => hfalse.elim
  | createClient id userId name description allowedModels =>
      exact (ensures_createClient_refused h).bind fun _ _ hfalse => hfalse.elim
  | createApiKey draw id clientId name expiresAt =>
      exact (ensures_createApiKey_refused h).bind fun _ _ hfalse => hfalse.elim
  | revokeApiKey now apiKeyId =>
      cases hfind : db.apiKeys.find? fun k => k.id = apiKeyId with
      | none => exact (ensures_revokeApiKey_refused hfind).bind fun _ _ hfalse => hfalse.elim
      | some row =>
          -- a key that is revoked already is returned as it is
          have hrevoked : row.revokedAt ≠ none := fun hlive => h ⟨row, hfind, hlive⟩
          refine ((ensures_revokeApiKey_again hfind hrevoked).mono (fun _ h => h) (fun _ _ h =>
            h) ?_).bind fun _ => ?_
          · exact fun _ _ h => h.1
          · apply Exec.Ensures.pure
            rintro _ ⟨rfl, -⟩
            rfl
  | rotateApiKey draw now id apiKeyId revokeOld =>
      have hrefused : ∀ row, db.apiKeys.find? (fun k => k.id = apiKeyId) = some row →
          ¬ CreatesApiKey id row.clientId (row.name ++ " (rotated)".toList) db :=
        fun row hfind hcreates => h ⟨row, hfind, hcreates⟩
      exact (ensures_rotateApiKey_refused hrefused).bind fun _ _ hfalse => hfalse.elim

/-- What is left of a call that writes, without its result. -/
theorem ensures_discard {α : Type} {x : Session α} {Q : α → Connection Database Exc → Prop}
    {first stop : ℕ} {changed : Database → Prop}
    (hx : Exec.Ensures (Reached faults 0 (.clean db 0)) x Q
      fun _ => Raised faults 0 first stop db changed)
    (hQ : ∀ a c, Q a c → Clear faults 0 stop) (hchanged : ∀ rows, changed rows → rows ≠ db) :
    Exec.Ensures (Reached faults 0 (.clean db 0)) (do let _ ← x; return ())
      (fun _ _ => Clear faults 0 stop) fun _ => Raised faults 0 first stop db (· ≠ db) := by
  refine (hx.mono (fun _ h => h) hQ ?_).bind fun _ => Exec.Ensures.pure fun _ h => h
  exact fun _ _ h => h.mono hchanged (Nat.le_refl stop)

/-- A call that the tables let write. -/
theorem ensures_writes {call : Call} (h : call.Writes db) :
    Exec.Ensures (Reached faults 0 (.clean db 0)) (call.run faults sha256)
      (fun _ _ => Clear faults 0 (call.operations db))
      fun _ => Raised faults 0 call.firstCommit (call.operations db) db (· ≠ db) := by
  cases call with
  | createUser id name =>
      refine ensures_discard (ensures_createUser h (Nat.le_refl 0)) (fun _ _ h => h.2) ?_
      rintro _ rfl
      exact withUser_ne _ _
  | createClient id userId name description allowedModels =>
      refine ensures_discard (ensures_createClient h (Nat.le_refl 0)) (fun _ _ h => h.2) ?_
      rintro _ rfl
      exact withClient_ne _ _ _
  | createApiKey draw id clientId name expiresAt =>
      refine ensures_discard (ensures_createApiKey h (Nat.le_refl 0)) (fun _ _ h => h.1.2) ?_
      rintro _ rfl
      exact withApiKey_ne _ _
  | revokeApiKey now apiKeyId =>
      obtain ⟨row, hfind, hlive⟩ := h
      refine ensures_discard (ensures_revokeApiKey hfind hlive (Nat.le_refl 0))
        (fun _ _ h => h.2) ?_
      rintro _ rfl
      exact withRevoked_ne hfind hlive
  | rotateApiKey draw now id apiKeyId revokeOld =>
      obtain ⟨row, hfind, hcreates⟩ := h
      have hoperations : (rotateApiKey draw now id apiKeyId revokeOld).operations db =
          rotateOperations row revokeOld := by
        simp only [operations, hfind]
      rw [hoperations]
      exact ensures_discard (ensures_rotateApiKey hfind hcreates) (fun _ _ h => h) fun _ h => h

end Atomicity

/-- A call that raises has changed nothing exactly when, if it writes, its first commit is not
behind it or no operation fails. -/
theorem admin_atomic_iff (faults : Faults Exc) (sha256 : Text → String) (call : Call)
    (db : Database) :
    Atomic (call.run faults sha256) (.clean db 0) ↔
      (call.Writes db → Clear faults 0 (call.firstCommit + 1) →
        Clear faults 0 (call.operations db)) := by
  by_cases hwrites : call.Writes db
  · rw [atomic_iff (ensures_writes hwrites)]
    exact ⟨fun h _ => h, fun h => h hwrites⟩
  · exact iff_of_true (atomic_of_ensures (ensures_refused hwrites)) fun h => absurd h hwrites

end Call

/-- A key is rotated on a database that fails when the old key is to be revoked. -/
def sampleCall : Call :=
  .rotateApiKey (KeyLifecycle.sampleDraw 'b' KeyLifecycle.isAlphanum_b) 0 "k2" "k1" true

def sampleDb : Database where
  users := [⟨"u", ['u']⟩]
  clients := [{ id := "c", userId := "u", name := ['c'] }]
  apiKeys := [{ id := "k1", clientId := "c", name := ['k'], keyPrefix := [], keyHash := "" }]

def sampleFaults : Faults Exc :=
  fun k => if k = 5 then some (.exception "database is locked") else none

/-- The rotation raises, and its caller gets no token, but the new key is there beside the old one.
-/
theorem rotate_not_atomic :
    ¬ Atomic (sampleCall.run sampleFaults fun _ => "") (.clean sampleDb 0) ∧
      ((sampleCall.run sampleFaults fun _ => "").run (.clean sampleDb 0)).2.committed.apiKeys.map
        (fun k => (k.id, k.revokedAt)) = [("k1", none), ("k2", none)] := by
  have hkeys :
      ((sampleCall.run sampleFaults fun _ => "").run (.clean sampleDb 0)).2.committed.apiKeys.map
      (fun k => (k.id, k.revokedAt)) = [("k1", none), ("k2", none)] := rfl
  have hraised : ((sampleCall.run sampleFaults fun _ => "").run (.clean sampleDb 0)).1 =
      .error (.exception "database is locked") := rfl
  refine ⟨fun hatomic => ?_, hkeys⟩
  have hsame := hatomic _ hraised
  rw [hsame] at hkeys
  have hlength := congrArg List.length hkeys
  exact absurd hlength (by decide)

end SynGateway.Services.AdminSession

import SynGateway.Services.KeyLifecycle

/-!
# Expiry as an instant

The create-key endpoint of `app/api/admin.py` hands the `expires_at` of its body on as it was sent,
with or without an offset. The column keeps the wall clock and drops the offset, and authentication
reads what it finds there as UTC. So a key is refused as expired from the wall clock time on, taken
as UTC, whatever the offset was. That is the instant that was meant exactly if the offset is zero
(`expiry_instant_iff`).
-/

namespace SynGateway.Services.KeyExpiry

open SynGateway.Core SynGateway.Core.ApiKeys SynGateway.Core.Auth SynGateway.Db SynGateway.Python
  SynGateway.Services.KeyLifecycle SynGateway.Transition

/-! ## Dates and times with an offset -/

/-- A `datetime`, in the unit of the columns: the wall clock as if it were UTC, and `utcoffset()`.
-/
structure DateTime where
  wall : ℤ
  utcoffset : Option ℤ
deriving DecidableEq

namespace DateTime

/-- The instant that is denoted. A naive one is taken as UTC. -/
def instant (d : DateTime) : ℤ := d.wall - d.utcoffset.getD 0

/-- What a `DateTime` column stores. -/
def column (d : DateTime) : ℤ := d.wall

end DateTime

/-- `create_api_key` of the endpoint. -/
def createKey (draw : Draw) (id clientId : String) (name : Text) (expiresAt : Option DateTime) :
    Op :=
  .createApiKey draw id clientId name (expiresAt.map DateTime.column)

/-! ## Refusal -/

/-- `ExpiredApiKeyError("API key has expired")`. -/
def expiredError : Exc := keyError .expiredApiKeyError "API key has expired"

/-- A request with the token is refused because its key has expired. -/
def RefusedAsExpired (env : AuthEnv) (db : Database) (token : Text) : Prop :=
  ((authenticateWithOrm env (some (bearer token))).run db).1 = .error expiredError

variable {sha256 : Text → String} {s s' t : State}

/-- A key that is not revoked is refused as expired from its expiry on, and otherwise not at all. -/
theorem refusedAsExpired_iff (h : Implements sha256 s.db s.registry) {key : IssuedKey}
    (hkey : key ∈ s.registry.keys) (hlive : key.revokedAt = none)
    (hinj : Set.InjOn sha256 {u | ∃ key ∈ s.registry.keys, key.token = u}) (now : ℤ)
    (commits : Bool) :
    RefusedAsExpired ⟨sha256, true, now, commits⟩ s.db key.token ↔
    ∃ expiresAt ∈ key.expiresAt, expiresAt ≤ now := by
  obtain ⟨k, hk, hview, hfound⟩ := h.found hkey hinj
  have hexpires : k.expiresAt = key.expiresAt := congrArg (fun v => v.2.2.2.1) hview
  have hrevoked : k.revokedAt = none := (congrArg (fun v => v.2.2.2.2) hview).trans hlive
  obtain ⟨draw, hdraw⟩ := h.generated key hkey
  let env : AuthEnv := ⟨sha256, true, now, commits⟩
  have htoken : (extractBearerToken (some (bearer key.token)) : Exec Exc Database Text).run s.db =
      (.ok key.token, s.db) :=
    (extractBearerToken_bearer (hdraw ▸ not_space_token draw)).mpr
      ⟨rfl, rfl, hdraw ▸ isValidFormat_token draw⟩
  have hcheck : (checkToken env (some (bearer key.token))).run s.db =
      (if isExpired k now then .error expiredError else .ok k, s.db) :=
    checkToken_run_found rfl htoken hfound hrevoked
  -- the column holds the time that the key was issued with
  have hiff : isExpired k now = true ↔ ∃ expiresAt ∈ key.expiresAt, expiresAt ≤ now := by
    rw [← not_iff_not, Bool.not_eq_true, isExpired_eq_false, hexpires]
    simp
  rw [← hiff]
  unfold RefusedAsExpired
  by_cases hexpired : isExpired k now = true
  · rw [if_pos hexpired] at hcheck
    rw [authenticateWithOrm_eq, Exec.run_bind_error hcheck]
    exact iff_of_true rfl hexpired
  · obtain ⟨client, user, hclient, huser, -⟩ := h.grants env hk hview
    have hchecked : Checked env s.db key.token k :=
      ⟨hfound, hrevoked, Bool.not_eq_true _ ▸ hexpired⟩
    obtain ⟨db', hok⟩ := authenticateWithOrm_eq_ok.mpr
      ⟨rfl, key.token, k, user, htoken, hchecked, hclient, huser, rfl, rfl⟩
    rw [hok]
    exact iff_of_false nofun hexpired

/-- A key that the endpoint created has its token, and the wall clock time as expiry, for ever. -/
theorem exists_created (hreach : Reach (step sha256) Fresh {} s) {draw : Draw}
    {id clientId : String} {name : Text} {expiresAt : DateTime}
    (hfresh : Fresh s (createKey draw id clientId name (some expiresAt)))
    (hcreate : step sha256 s (createKey draw id clientId name (some expiresAt)) = some s')
    (hlater : Reach (step sha256) Fresh s' t) :
    Implements sha256 t.db t.registry ∧ ∃ key ∈ t.registry.keys,
      key.token = draw.token ∧ key.id = id ∧ key.expiresAt = some expiresAt.wall := by
  have himpl : Implements sha256 s'.db s'.registry :=
    implements_step (Reach.implements hreach) hfresh hcreate
  obtain ⟨⟨apiKey, token⟩, hrun, hrecord⟩ := succeed_eq_some hcreate
  obtain ⟨-, -, rfl, ⟨hid, -⟩, -⟩ := Admin.createApiKey_eq_ok hrun
  have hmem : (⟨draw.token, id, clientId, some expiresAt.wall, none⟩ : IssuedKey) ∈
      s'.registry.keys := by
    rw [hrecord, ← hid]
    exact List.mem_append_right _ (List.mem_singleton_self _)
  obtain ⟨ht, key, hkey, hcontinues⟩ := continues_reach himpl hmem hlater
  exact ⟨ht, key, hkey, hcontinues.token, hcontinues.id, hcontinues.expiresAt⟩

/-! ## Before, after and in between -/

/-- At `now`, a request with the token is refused as expired exactly if the instant has come. -/
def ExpiresAtInstant (sha256 : Text → String) (db : Database) (token : Text)
    (expiresAt : DateTime) (now : ℤ) (commits : Bool) : Prop :=
  RefusedAsExpired ⟨sha256, true, now, commits⟩ db token ↔ expiresAt.instant ≤ now

/-- Two times are told apart exactly by the times between them. -/
theorem le_iff_le_iff {a b now : ℤ} : (a ≤ now ↔ b ≤ now) ↔ now < min a b ∨ max a b ≤ now := by
  omega

theorem instant_eq_wall_iff {d : DateTime} : d.instant = d.wall ↔ d.utcoffset.getD 0 = 0 := by
  unfold DateTime.instant
  omega

/-- **Expiry as an instant.** In every state that is reached after the endpoint created a key, and
in which the key is not revoked, expiry is decided rightly exactly at the times that are not between
the instant and the wall clock time; and so at all times exactly if the offset is missing or zero.
-/
theorem expiry_instant_iff (hreach : Reach (step sha256) Fresh {} s) {draw : Draw}
    {id clientId : String} {name : Text} {expiresAt : DateTime}
    (hfresh : Fresh s (createKey draw id clientId name (some expiresAt)))
    (hcreate : step sha256 s (createKey draw id clientId name (some expiresAt)) = some s')
    (hlater : Reach (step sha256) Fresh s' t)
    (hlive : ∀ k ∈ t.db.apiKeys, k.id = id → k.revokedAt = none)
    (hinj : Set.InjOn sha256 {u | ∃ key ∈ t.registry.keys, key.token = u}) :
    (∀ now commits, ExpiresAtInstant sha256 t.db draw.token expiresAt now commits ↔
      now < min expiresAt.wall expiresAt.instant ∨ max expiresAt.wall expiresAt.instant ≤ now) ∧
    ((∀ now commits, ExpiresAtInstant sha256 t.db draw.token expiresAt now commits) ↔
      expiresAt.utcoffset.getD 0 = 0) := by
  obtain ⟨himpl, key, hkey, htoken, hid, hexpires⟩ := exists_created hreach hfresh hcreate hlater
  obtain ⟨row, hrow, hview⟩ := himpl.exists_row hkey
  have hrevoked : key.revokedAt = none :=
    (congrArg (fun v => v.2.2.2.2) hview).symm.trans
      (hlive row hrow ((congrArg Prod.fst hview).trans hid))
  have hnow : ∀ now commits, ExpiresAtInstant sha256 t.db draw.token expiresAt now commits ↔
      now < min expiresAt.wall expiresAt.instant ∨ max expiresAt.wall expiresAt.instant ≤ now := by
    intro now commits
    unfold ExpiresAtInstant
    rw [← htoken, refusedAsExpired_iff himpl hkey hrevoked hinj, hexpires, ← le_iff_le_iff]
    simp
  refine ⟨hnow, ?_⟩
  rw [← instant_eq_wall_iff]
  constructor
  · intro hall
    -- at the earlier of the two times the condition says that they are equal
    have hmin := (hnow (min expiresAt.wall expiresAt.instant) true).mp (hall _ true)
    omega
  · intro heq now commits
    rw [hnow, heq]
    omega

/-! ## A key with an offset -/

/-- A user and a client, and then a key that is to expire at two o'clock, two hours east. -/
def sampleExpiry : DateTime := ⟨7200000, some 7200000⟩

def sampleCreate (expiresAt : DateTime) : Op :=
  createKey (sampleDraw 'a' KeyLifecycle.isAlphanum_a) "k" "c" ['k'] (some expiresAt)

def sampleBefore : State := (run (step String.ofList) {} (sampleOps.take 2)).getD {}

def sampleAfter (expiresAt : DateTime) :
    State := (step String.ofList sampleBefore (sampleCreate expiresAt)).getD {}

theorem reach_sampleBefore : Reach (step String.ofList) Fresh {} sampleBefore :=
  Reach.init.of_run (show run _ _ (sampleOps.take 2) = some sampleBefore from rfl) ⟨trivial,
    trivial, trivial⟩

theorem fresh_sampleCreate (expiresAt : DateTime) : Fresh sampleBefore (sampleCreate expiresAt) :=
  fun key (hkey : key ∈ []) => absurd hkey List.not_mem_nil

theorem live_sampleAfter (expiresAt : DateTime) :
    ∀ k ∈ (sampleAfter expiresAt).db.apiKeys, k.id = "k" → k.revokedAt = none := by
  intro k hk _
  obtain rfl := List.mem_singleton.mp hk
  rfl

/-- With the offset zero the key is refused as expired from that instant on. -/
theorem expiry_instant_utc :
    ExpiresAtInstant String.ofList (sampleAfter ⟨7200000, some 0⟩).db
      (sampleDraw 'a' KeyLifecycle.isAlphanum_a).token
      ⟨7200000, some 0⟩ 7200000 true :=
  (expiry_instant_iff reach_sampleBefore (fresh_sampleCreate _) rfl .init (live_sampleAfter _)
    fun _ _ _ _ h => String.ofList_injective h).2.mpr rfl 7200000 true

/-- An hour after the instant, the key with two hours of offset still opens the gateway. -/
theorem expiry_late :
    ¬ ∀ (sha256 : Text → String) (s s' t : State) (draw : Draw) (id clientId : String) (name : Text)
      (expiresAt : DateTime) (now : ℤ) (commits : Bool), Reach (step sha256) Fresh {} s →
      Fresh s (createKey draw id clientId name (some expiresAt)) →
      step sha256 s (createKey draw id clientId name (some expiresAt)) = some s' →
      Reach (step sha256) Fresh s' t → (∀ k ∈ t.db.apiKeys, k.id = id → k.revokedAt = none) →
      Set.InjOn sha256 {u | ∃ key ∈ t.registry.keys, key.token = u} →
      ExpiresAtInstant sha256 t.db draw.token expiresAt now commits := by
  intro hall
  have hexpires :=
    hall String.ofList sampleBefore (sampleAfter sampleExpiry) (sampleAfter sampleExpiry)
    (sampleDraw 'a' KeyLifecycle.isAlphanum_a) "k" "c"
      ['k'] sampleExpiry 3600000 true reach_sampleBefore
    (fresh_sampleCreate sampleExpiry) rfl .init (live_sampleAfter sampleExpiry)
    fun _ _ _ _ h => String.ofList_injective h
  have hrefused := hexpires.mpr (by decide)
  unfold RefusedAsExpired at hrefused
  revert hrefused
  decide +kernel

end SynGateway.Services.KeyExpiry

import Mathlib.Order.WithBot
import SynGateway.Services.KeyLifecycle
import SynGateway.Services.Precheck

/-!
# What a rotation keeps

`rotate_api_key` makes the replacement with `create_api_key`, and hands it the client of the old key
and its name, but neither its expiry nor its limits. So a rotation keeps the restrictions of a key
exactly if the key has no expiry and its limits are those of its client anyway (`rotate_keeps_iff`).
-/

namespace SynGateway.Services.KeyRotation

open SynGateway.Core SynGateway.Core.ApiKeys SynGateway.Core.Policy SynGateway.Db SynGateway.Python
  SynGateway.Services SynGateway.Services.Admin

/-- The time from which a key is rejected. Without an expiry it is infinitely late. -/
def expiry (k : ApiKey) : WithTop ℤ := k.expiresAt.elim ⊤ (↑)

/-- The new key belongs to the client of the old one, expires no later, and has its policy. -/
structure KeepsRestrictions (service : UsageService) (client : Client) (old new : ApiKey) :
    Prop where
  clientId : new.clientId = old.clientId
  expiry : expiry new ≤ expiry old
  policy : service.effectivePolicy new client = service.effectivePolicy old client

/-- What a key is limited to without a value of its own. -/
def inherited (clientValue : Option ℤ) (defaultValue : ℤ) :
    ℤ := max 0 (clientValue.getD defaultValue)

/-- The value of the key is missing, or is what the key would inherit. -/
def Inherits (keyValue clientValue : Option ℤ) (defaultValue : ℤ) : Prop :=
  ∀ value ∈ keyValue, max 0 value = inherited clientValue defaultValue

theorem resolve_none (clientValue : Option ℤ) (defaultValue : ℤ) :
    resolve none clientValue defaultValue = inherited clientValue defaultValue := by
  cases clientValue <;> rfl

theorem resolve_none_eq_iff {keyValue clientValue : Option ℤ} {defaultValue : ℤ} :
    resolve none clientValue defaultValue = resolve keyValue clientValue defaultValue ↔
      Inherits keyValue clientValue defaultValue := by
  cases keyValue with
  | none => exact iff_of_true rfl nofun
  | some value =>
      rw [resolve_none]
      change inherited clientValue defaultValue = max 0 value ↔ _
      constructor
      · rintro h _ ⟨⟩
        exact h.symm
      · exact fun h => (h value rfl).symm

theorem expiry_eq_top_iff {k : ApiKey} : expiry k = ⊤ ↔ k.expiresAt = none := by
  unfold expiry
  cases k.expiresAt with
  | none => exact iff_of_true rfl rfl
  | some t => exact iff_of_false (WithTop.coe_ne_top) nofun

variable {sha256 : Text → String} {draw : Draw} {now : ℤ} {id apiKeyId : String} {revokeOld : Bool}
  {db db' : Database} {old newKey : ApiKey} {token : Text} {revoked : Option ApiKey}

/-- The new key of a rotation is the row of a key without an expiry and without limits of its own.
-/
theorem rotated_row (hold : db.apiKeys.find? (fun k => k.id = apiKeyId) = some old)
    (hrotate : (rotateApiKey sha256 draw now id apiKeyId revokeOld).run db =
      (.ok (newKey, token, revoked), db')) :
    newKey.clientId = old.clientId ∧ newKey.expiresAt = none ∧ newKey.requestsPerMinute = none ∧
      newKey.requestsPerDay = none ∧ newKey.tokensPerDay = none := by
  obtain ⟨row, db₀, hrow, hrun⟩ := Exec.run_bind_eq_ok.mp hrotate
  obtain ⟨hfind, rfl⟩ := oneOr_eq_ok.mp hrow
  obtain rfl := Option.some.inj (hfind.symm.trans hold)
  obtain ⟨⟨created, fullToken⟩, db₁, hcreate, hrest⟩ := Exec.run_bind_eq_ok.mp hrun
  obtain ⟨-, -, -, rfl, -⟩ := createApiKey_row hcreate
  dsimp only at hrest
  split_ifs at hrest with hrevoke
  · obtain ⟨k, db₂, -, hend⟩ := Exec.run_bind_eq_ok.mp hrest
    cases hend
    exact ⟨rfl, rfl, rfl, rfl, rfl⟩
  · cases hrest
    exact ⟨rfl, rfl, rfl, rfl, rfl⟩

/-- **What a rotation keeps.** A successful rotation keeps the restrictions of the old key exactly
if that key never expires and inherits its three limits. -/
theorem rotate_keeps_iff (service : UsageService) (client : Client)
    (hold : db.apiKeys.find? (fun k => k.id = apiKeyId) = some old)
    (hrotate : (rotateApiKey sha256 draw now id apiKeyId revokeOld).run db =
      (.ok (newKey, token, revoked), db')) :
    KeepsRestrictions service client old newKey ↔ old.expiresAt = none ∧
      Inherits old.requestsPerMinute client.requestsPerMinute service.defaultRpm ∧
      Inherits old.requestsPerDay client.requestsPerDay service.defaultRpd ∧
      Inherits old.tokensPerDay client.tokensPerDay service.defaultTpd := by
  obtain ⟨hclient, hexpires, hrpm, hrpd, htpd⟩ := rotated_row hold hrotate
  have hexpiry : expiry newKey ≤ expiry old ↔ old.expiresAt = none := by
    rw [expiry_eq_top_iff.mpr hexpires, top_le_iff, expiry_eq_top_iff]
  have hpolicy : service.effectivePolicy newKey client = service.effectivePolicy old client ↔
      Inherits old.requestsPerMinute client.requestsPerMinute service.defaultRpm ∧
      Inherits old.requestsPerDay client.requestsPerDay service.defaultRpd ∧
      Inherits old.tokensPerDay client.tokensPerDay service.defaultTpd := by
    unfold UsageService.effectivePolicy resolvePolicy
    rw [hrpm, hrpd, htpd, EffectivePolicy.mk.injEq, resolve_none_eq_iff, resolve_none_eq_iff,
      resolve_none_eq_iff]
  rw [← hexpiry, ← hpolicy]
  exact ⟨fun h => ⟨h.expiry, h.policy⟩, fun h => ⟨hclient, h.1, h.2⟩⟩

/-- A key of a client. -/
def sampleKey (expiresAt requestsPerMinute : Option ℤ) : ApiKey where
  id := "k"
  clientId := "c"
  name := ['k']
  keyPrefix := []
  keyHash := ""
  expiresAt := expiresAt
  requestsPerMinute := requestsPerMinute

def sampleClient : Client where
  id := "c"
  userId := "u"
  name := ['c']

/-- Its rotation, which keeps it. -/
def sampleRotation (old : ApiKey) : Except Exc (ApiKey × Text × Option ApiKey) × Database :=
  (rotateApiKey String.ofList (KeyLifecycle.sampleDraw 'a' KeyLifecycle.isAlphanum_a) 0
      "l" "k" false).run
    { users := [{ id := "u", name := ['u'] }], clients := [sampleClient], apiKeys := [old] }

/-- The new key. -/
def sampleReplacement : ApiKey where
  id := "l"
  clientId := "c"
  name := "k (rotated)".toList
  keyPrefix := visiblePrefix (KeyLifecycle.sampleDraw 'a' KeyLifecycle.isAlphanum_a).token
  keyHash := String.ofList (KeyLifecycle.sampleDraw 'a' KeyLifecycle.isAlphanum_a).token

theorem sampleRotation_eq (expiresAt requestsPerMinute : Option ℤ) :
    sampleRotation (sampleKey expiresAt requestsPerMinute) =
      (.ok (sampleReplacement, (KeyLifecycle.sampleDraw 'a' KeyLifecycle.isAlphanum_a).token, none),
        { users := [{ id := "u", name := ['u'] }], clients := [sampleClient],
          apiKeys := [sampleKey expiresAt requestsPerMinute, sampleReplacement] }) := rfl

/-- A key without an expiry and without limits is replaced by its like. -/
theorem rotate_keeps_plain :
    KeepsRestrictions {} sampleClient (sampleKey none none) sampleReplacement :=
  (rotate_keeps_iff {} sampleClient rfl (sampleRotation_eq none none)).mpr ⟨rfl, nofun,
    nofun, nofun⟩

/-- A key that expires is replaced by one that does not. -/
theorem rotate_loses_expiry :
    ¬ ∀ (service : UsageService) (client : Client) (sha256 : Text → String) (draw : Draw) (now : ℤ)
      (id apiKeyId : String) (revokeOld : Bool) (db db' : Database) (old newKey : ApiKey)
      (token : Text) (revoked : Option ApiKey), db.apiKeys.find? (fun k => k.id = apiKeyId) =
      some old →
      (rotateApiKey sha256 draw now id apiKeyId revokeOld).run db =
      (.ok (newKey, token, revoked), db') →
      KeepsRestrictions service client old newKey := by
  intro hall
  have hkeeps :=
    hall {} sampleClient _ _ _ _ _ _ _ _ _ _ _ _ rfl (sampleRotation_eq (some 10) (some 1))
  exact absurd hkeeps.expiry (by decide)

end SynGateway.Services.KeyRotation

import SynGateway.Api.Chat.Endpoint

/-!
# The charge of the rate limiter

`precheck` charges the per-minute limiter before the quotas, the routing and the model policy are
looked at, and nothing takes the charge back. So a request that is refused by one of these counts
against the minute of its key, unless the key has no limit: `refused_uncharged_iff`.
-/

namespace SynGateway.Api.Chat

open SynGateway.Core SynGateway.Core.Auth SynGateway.Core.RateLimit SynGateway.Db SynGateway.Python
open SynGateway.Routing SynGateway.Services

/-! ## One call of the limiter -/

section Limiter

variable {κ : Type} [DecidableEq κ] {limiter : RateLimiter κ} {now : ℚ} {key : κ} {limit : ℤ}

/-- A count that is stored for this window is the current one. -/
theorem currentCount_store (n : ℤ) :
    (limiter.store key (limiter.windowStart now, n)).currentCount now key = n := by
  have hwindow : (limiter.store key (limiter.windowStart now, n)).windowStart now =
      limiter.windowStart now := rfl
  unfold RateLimiter.currentCount
  rw [RateLimiter.store_self, hwindow]
  exact if_neg (not_not.mpr rfl)

/-- A limited call that is admitted counts one more. -/
theorem currentCount_check (hlimit : 0 < limit)
    (hallowed : (limiter.check now key limit).1.allowed = true) :
    (limiter.check now key limit).2.currentCount now key = limiter.currentCount now key + 1 := by
  obtain ⟨hbelow, hreached⟩ := RateLimiter.check_of_pos limiter now key limit hlimit
  rcases lt_or_ge (limiter.currentCount now key) limit with hlt | hge
  · rw [hbelow hlt]
    exact currentCount_store _
  · obtain ⟨retryAfter, hcheck⟩ := hreached hge
    rw [hcheck] at hallowed
    cases hallowed

/-- An admitted call leaves the limiter alone only if it is unlimited. -/
theorem check_unchanged_iff (hallowed : (limiter.check now key limit).1.allowed = true) :
    (limiter.check now key limit).2 = limiter ↔ limit ≤ 0 := by
  constructor
  · intro hsame
    by_contra hlimit
    have hcount := currentCount_check (not_le.mp hlimit) hallowed
    rw [hsame] at hcount
    omega
  · intro hlimit
    rw [RateLimiter.check_of_nonpos limiter now key limit hlimit]

end Limiter

variable {app : AppState} {r : Request} {s : Store} {principal : AuthenticatedPrincipal}
  {apiKey : ApiKey} {client : Client}

/-! ## A refused request -/

/-- The limiter after a request. -/
def limiterAfterRequest (app : AppState) (r : Request) (s : Store) : RateLimiter String :=
  ((createChatCompletion app r).run s).2.limiter

/-- A request of the key is refused before admission, and not by the rate limit: by a daily quota,
or by routing, the model policy or a missing capability. -/
structure RefusedBeforeAdmission (app : AppState) (r : Request) (s : Store)
    (principal : AuthenticatedPrincipal) (apiKey : ApiKey) (client : Client) : Prop where
  authenticated : Authenticated (r.authEnv app) r.authorization s.database principal apiKey client
  withinRate : ∀ service ∈ app.usageService, (s.limiter.check r.reading.monotonic (rateKey apiKey)
    (service.effectivePolicy apiKey client).requestsPerMinute).1.allowed = true
  refused : (∃ service ∈ app.usageService, ¬ service.Passes r.reading apiKey client s.limiter) ∨
    ∀ target, chooseTarget app r.body principal ≠ .ok target

/-- What follows the check of the usage changes nothing. -/
theorem target_preserves (app : AppState) (r : Request) (principal : AuthenticatedPrincipal)
    (apiKey : ApiKey) (client : Client) :
    Exec.Preserves Store.limiter (do
      let target ← Exec.lift (chooseTarget app r.body principal)
      return { principal, apiKey, client, target : Dispatch }) :=
  Exec.Moves.bind (fun _ => rfl) fun _ => Exec.Moves.pure _

/-- The limiter after a request whose token is valid, whatever becomes of the request. -/
theorem limiterAfterRequest_eq
    (hauth : Authenticated (r.authEnv app) r.authorization s.database principal apiKey client) :
    limiterAfterRequest app r s = match app.usageService with
      | none => s.limiter
      | some service => service.limiterAfter r.reading apiKey client s.limiter := by
  obtain ⟨s₁, hrun⟩ := authenticate_eq_ok.mpr hauth
  have hlimiter : s₁.limiter = s.limiter := (authenticate_limiter app r).ends hrun
  unfold limiterAfterRequest createChatCompletion
  rw [Exec.run_bind_ok hrun]
  dsimp only
  rw [Exec.view_bind Store.limiter fun _ => target_preserves app r principal apiKey client,
    ← hlimiter]
  -- every request that gets this far is charged, whether it passes or not
  cases hservice : app.usageService with
  | none =>
      unfold checkUsage
      rw [hservice]
      rfl
  | some service =>
      by_cases hpasses : service.Passes r.reading apiKey client s₁.limiter
      · rw [checkUsage_of_passes hservice hauth.1 hpasses]
        rfl
      · obtain ⟨error, hrefused⟩ := checkUsage_of_not_passes hservice hauth.1 hpasses
        rw [hrefused]
        rfl

/-- Such a request is indeed refused. -/
theorem RefusedBeforeAdmission.error (h : RefusedBeforeAdmission app r s principal apiKey client) :
    ∃ exc, ((createChatCompletion app r).run s).1 = .error exc := by
  cases hres : ((createChatCompletion app r).run s).1 with
  | error exc => exact ⟨exc, rfl⟩
  | ok d =>
      obtain ⟨s₁, hrun⟩ := authenticate_eq_ok.mpr h.authenticated
      have hlimiter : s₁.limiter = s.limiter := (authenticate_limiter app r).ends hrun
      unfold createChatCompletion at hres
      rw [Exec.run_bind_ok hrun] at hres
      obtain ⟨_, s₂, husage, hrest⟩ := Exec.run_bind_eq_ok.mp (Prod.ext hres rfl)
      obtain ⟨target, s₃, htarget, -⟩ := Exec.run_bind_eq_ok.mp hrest
      rcases h.refused with ⟨service, hservice, hnot⟩ | hnone
      · rw [← hlimiter] at hnot
        obtain ⟨error, herror⟩ := checkUsage_of_not_passes hservice h.authenticated.1 hnot
        rw [herror] at husage
        cases husage
      · exact absurd (Prod.mk.inj htarget).1 (hnone target)

/-- **A refused request is free of charge exactly when its key has no limit**, or no usage service
is wired. With a limit the count of its minute goes up by one. -/
theorem refused_uncharged_iff (h : RefusedBeforeAdmission app r s principal apiKey client) :
    (∃ exc, ((createChatCompletion app r).run s).1 = .error exc) ∧
    (limiterAfterRequest app r s = s.limiter ↔
      ∀ service ∈ app.usageService, (service.effectivePolicy apiKey client).requestsPerMinute ≤ 0) ∧
    ∀ service ∈ app.usageService, 0 < (service.effectivePolicy apiKey client).requestsPerMinute →
      (limiterAfterRequest app r s).currentCount r.reading.monotonic (rateKey apiKey) =
        s.limiter.currentCount r.reading.monotonic (rateKey apiKey) + 1 := by
  refine ⟨h.error, ?_⟩
  rw [limiterAfterRequest_eq h.authenticated]
  have hwithin := h.withinRate
  cases hservice : app.usageService with
  | none => simp
  | some service =>
      rw [hservice] at hwithin
      have hallowed := hwithin service rfl
      simp only [Option.mem_def, Option.some.injEq, forall_eq']
      exact ⟨check_unchanged_iff hallowed, fun hlimit => currentCount_check hlimit hallowed⟩

/-! ## An unknown model -/

/-- Ten requests a minute. -/
def limitedApp : AppState := { sampleApp with usageService := some { defaultRpm := 10 } }

/-- A request for a model that is not configured. -/
def unknownRequest : Request := { sampleRequest false with body := { model := Str.ofString "y" } }

theorem refused_unknownRequest : RefusedBeforeAdmission limitedApp unknownRequest sampleStore
    sampleDispatch.principal sampleDispatch.apiKey sampleDispatch.client where
  authenticated := (cleared_sampleDispatch false).authenticated
  withinRate := by
    intro service hservice
    cases hservice
    rfl
  refused := by
    right
    intro target
    have hmissing : ∃ exc, chooseTarget limitedApp unknownRequest.body sampleDispatch.principal
        = .error exc := ⟨_, rfl⟩
    obtain ⟨exc, hmissing⟩ := hmissing
    rw [hmissing]
    exact fun heq => nomatch heq

/-- The request for an unknown model is refused, and counts as the first of its minute. -/
theorem refused_uncharged_iff_unknown :
    (limiterAfterRequest limitedApp unknownRequest sampleStore).currentCount 0 "rpm:k" =
      sampleStore.limiter.currentCount 0 "rpm:k" + 1 :=
  (refused_uncharged_iff refused_unknownRequest).2.2 _ rfl (by decide)

/-- Refused requests do consume the budget. -/
theorem refused_charged :
    ¬ ∀ (app : AppState) (r : Request) (s : Store) (principal : AuthenticatedPrincipal)
        (apiKey : ApiKey) (client : Client),
        RefusedBeforeAdmission app r s principal apiKey client →
      limiterAfterRequest app r s = s.limiter := by
  intro hall
  have hsame := hall _ _ _ _ _ _ refused_unknownRequest
  rw [limiterAfterRequest_eq refused_unknownRequest.authenticated] at hsame
  have hcount := congrArg (fun limiter => limiter.windows "rpm:k") hsame
  cases hcount

end SynGateway.Api.Chat

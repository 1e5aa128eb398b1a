import SynGateway.Common.Views
import SynGateway.Services.Concurrency

/-!
# The quotas of one key under the traffic of others

All keys share one usage table and one rate limiter, and the requests of all of them interleave.
What `precheck` decides for a key depends on the records of that key and on the limiter's entry
under `"rpm:" + id`, so the view of the gateway in which only the requests, the records and the
limiter's entry of one key are left is faithful: the requests of the key run in the whole gateway as
they would run alone. A client can neither use up the quota of another nor find out about its
traffic through its own refusals.
-/

namespace SynGateway.Counting

variable {α : Type*} {p : α → Bool} {l : List α} {i : ℕ} {old new : α}

/-- The position that an entry of a list has among those that `p` keeps. -/
theorem getElem?_filter_countP (h : l[i]? = some old) (hold : p old = true) :
    (l.filter p)[(l.take i).countP p]? = some old := by
  induction l generalizing i with
  | nil => simp at h
  | cons a l ih =>
      cases i with
      | zero =>
          obtain rfl : a = old := by simpa using h
          simp [hold]
      | succ i =>
          have hrec := ih (by simpa using h)
          by_cases ha : p a = true <;> simp [ha, hrec]

/-- Replacing an entry that `p` keeps by one that it keeps. -/
theorem filter_set_of_keep (new : α) (h : l[i]? = some old) (hold : p old = true)
    (hnew : p new = true) :
    (l.set i new).filter p = (l.filter p).set ((l.take i).countP p) new := by
  induction l generalizing i with
  | nil => simp at h
  | cons a l ih =>
      cases i with
      | zero =>
          obtain rfl : a = old := by simpa using h
          simp [hold, hnew]
      | succ i =>
          have hrec := ih (by simpa using h)
          by_cases ha : p a = true <;> simp [ha, hrec]

/-- Replacing an entry that `p` leaves out by one that it leaves out. -/
theorem filter_set_of_drop (new : α) (h : l[i]? = some old) (hold : p old = false)
    (hnew : p new = false) :
    (l.set i new).filter p = l.filter p := by
  induction l generalizing i with
  | nil => rfl
  | cons a l ih =>
      cases i with
      | zero =>
          obtain rfl : a = old := by simpa using h
          simp [hold, hnew]
      | succ i =>
          have hrec := ih (by simpa using h)
          by_cases ha : p a = true <;> simp [ha, hrec]

end SynGateway.Counting

namespace SynGateway.Core.RateLimit.RateLimiter

variable {κ : Type*} [DecidableEq κ]

/-- The limiter with the entry of one key only. -/
def only (key : κ) (self : RateLimiter κ) : RateLimiter κ :=
  { self with windows := fun k => if k = key then self.windows k else none }

variable (self : RateLimiter κ) (now : ℚ) (key : κ) (limit : ℤ)

@[simp] theorem only_windowSeconds : (self.only key).windowSeconds = self.windowSeconds := rfl

@[simp] theorem only_windows_self : (self.only key).windows key = self.windows key := if_pos rfl

@[simp] theorem only_windows_other {k : κ} (h : k ≠ key) :
    (self.only key).windows k = none := if_neg h

@[simp] theorem only_new (windowSeconds : ℚ) :
    (new windowSeconds : RateLimiter κ).only key = new windowSeconds := by
  unfold only new
  simp

/-- Two limiters with the same window length and the same entry of a key look alike there. -/
theorem only_congr {self other : RateLimiter κ} (hwindow : self.windowSeconds = other.windowSeconds)
    (hkey : self.windows key = other.windows key) : self.only key = other.only key := by
  unfold only
  rw [hwindow]
  congr 1
  funext k
  split
  · next h => rw [h, hkey]
  · rfl

/-- A limiter that has no other entry is all that is seen of it. -/
theorem only_eq_self (h : ∀ k, k ≠ key → self.windows k = none) : self.only key = self := by
  obtain ⟨windowSeconds, windows⟩ := self
  unfold only
  congr 1
  funext k
  by_cases hk : k = key
  · exact if_pos hk
  · rw [if_neg hk]
    exact (h k hk).symm

/-- A call for a key is decided, and counted, on the entry of the key. -/
theorem check_only : (self.only key).check now key limit =
    ((self.check now key limit).1, (self.check now key limit).2.only key) := by
  obtain ⟨hresult, hentry⟩ := check_congr now key limit (only_windowSeconds self key)
    (only_windows_self self key)
  refine Prod.ext hresult ?_
  -- what the call leaves has no entry of another key
  have hother := only_eq_self ((self.only key).check now key limit).2 key fun k hk => by
    rw [check_frame _ _ _ _ _ hk, only_windows_other _ _ hk]
  rw [← hother]
  exact only_congr key (by simp) hentry

/-- A call for another key is not seen. -/
theorem check_only_other {k : κ} (h : key ≠ k) :
    (self.check now k limit).2.only key = self.only key :=
  only_congr key (check_windowSeconds ..) (check_frame _ _ _ _ _ h)

end SynGateway.Core.RateLimit.RateLimiter

namespace SynGateway.Services

open SynGateway.Core.RateLimit SynGateway.Counting SynGateway.Db SynGateway.Python
  SynGateway.Transition

/-- The table with the records of one key only. -/
def tableOf (id : String) (table : List UsageRecord) : List UsageRecord :=
  table.filter fun r => r.apiKeyId = some id

/-- The queries of the day read the records of their key. -/
theorem filter_isToday_tableOf (table : List UsageRecord) (now : ℤ) (id : String) :
    (tableOf id table).filter (fun r => r.isToday now id) = table.filter fun r =>
    r.isToday now id := by
  unfold tableOf
  rw [List.filter_filter]
  refine List.filter_congr fun r _ => ?_
  unfold UsageRecord.isToday
  simp [Bool.and_assoc, Bool.and_comm]

@[simp] theorem countRequestsToday_tableOf (table : List UsageRecord) (now : ℤ) (id : String) :
    countRequestsToday (tableOf id table) now id = countRequestsToday table now id := by
  unfold countRequestsToday
  rw [List.countP_eq_length_filter, List.countP_eq_length_filter, filter_isToday_tableOf]

@[simp] theorem sumTokensToday_tableOf (table : List UsageRecord) (now : ℤ) (id : String) :
    sumTokensToday (tableOf id table) now id = sumTokensToday table now id := by
  unfold sumTokensToday
  rw [filter_isToday_tableOf]

/-- **What `precheck` decides for a key** is decided on its records and on its entry in the limiter.
-/
theorem UsageService.passes_tableOf (service : UsageService) (reading : Reading) (apiKey : ApiKey)
    (client : Client) (limiter : RateLimiter String) :
    service.passes { reading with table := tableOf apiKey.id reading.table } apiKey client
        (limiter.only (rateKey apiKey)) = service.passes reading apiKey client limiter := by
  rw [Bool.eq_iff_iff, passes_iff, passes_iff]
  constructor
  · rintro ⟨hrate, hrequests, htokens⟩
    exact ⟨by simpa [RateLimiter.check_only] using hrate, by simpa using hrequests,
      by simpa using htokens⟩
  · rintro ⟨hrate, hrequests, htokens⟩
    exact ⟨by simpa [RateLimiter.check_only] using hrate, by simpa using hrequests,
      by simpa using htokens⟩

/-! ## The view of one key -/

/-- The key that the limiter uses for the key with an id. -/
def rpmKey (id : String) : String := "rpm:" ++ id

/-- What is left of the gateway when the other keys are taken out. -/
def State.ofKey (id : String) (s : State) : State where
  table := tableOf id s.table
  limiter := s.limiter.only (rpmKey id)
  now := s.now
  monotonic := s.monotonic
  requests := s.requests.filter fun q => q.apiKeyId = id

/-- An action of one key, with its request counted among those of the key; the clocks are common. -/
def State.ownAction (id : String) (s : State) : Action → Option Action
  | .arrive apiKeyId totalTokens row =>
    if apiKeyId = id then some (.arrive apiKeyId totalTokens row) else none
  | .tick now monotonic => some (.tick now monotonic)
  | .move r m =>
    match s.requests[r]? with
    | none => none
    | some q =>
      if q.apiKeyId = id then some (.move ((s.requests.take r).countP fun q => q.apiKeyId = id) m)
      else none

/-- The view of one key. -/
def keyView (id : String) : View State Action State Action where
  state := State.ofKey id
  action := State.ownAction id

variable {dep dep' : Deployment} {s t : State} {a b : Action} {id : String}

@[simp] theorem ofKey_init (now : ℤ) : (dep.init now).ofKey id = dep.init now := by
  unfold State.ofKey Deployment.init
  simp [tableOf]

theorem tableOf_append (l₁ l₂ : List UsageRecord) :
    tableOf id (l₁ ++ l₂) = tableOf id l₁ ++ tableOf id l₂ := List.filter_append ..

/-- A record is written under the key of its request. -/
theorem tableOf_written (q : Request) :
    tableOf id q.written.toList = if q.apiKeyId = id then q.written.toList else [] := by
  unfold Request.written
  cases q.phase with
  | recorded u reached reported =>
      by_cases hid : q.apiKeyId = id <;> simp [tableOf, hid]
  | _ => simp [tableOf]

/-- Two deployments that hold the same rows for a key, under the same defaults. -/
structure Deployment.AgreeOn (id : String) (dep dep' : Deployment) : Prop where
  service : dep.service = dep'.service
  apiKey : dep.apiKey id = dep'.apiKey id
  client : dep.client id = dep'.client id

theorem Deployment.AgreeOn.refl (dep : Deployment) : dep.AgreeOn id dep := ⟨rfl, rfl, rfl⟩

theorem rateKey_apiKey (dep : Deployment) (id : String) : rateKey (dep.apiKey id) = rpmKey id := by
  unfold rateKey rpmKey
  rw [dep.apiKey_id]

/-- `precheck` decides on a request of the key what it decides when the key is alone. -/
theorem passes_ofKey (h : dep.AgreeOn id dep') {q : Request} (hid : q.apiKeyId = id) :
    dep'.passes (s.ofKey id) q = dep.passes s q := by
  subst hid
  unfold Deployment.passes State.ofKey
  rw [h.service, h.apiKey, h.client]
  simpa [rateKey_apiKey, dep'.apiKey_id] using dep'.service.passes_tableOf ⟨s.table, s.now,
    s.monotonic⟩ (dep'.apiKey q.apiKeyId) (dep'.client q.apiKeyId) s.limiter

/-- It counts the request for the key as it counts it when the key is alone. -/
theorem limiterAfter_ofKey (h : dep.AgreeOn id dep') {q : Request} (hid : q.apiKeyId = id) :
    dep'.limiterAfter (s.ofKey id) q = (dep.limiterAfter s q).only (rpmKey id) := by
  subst hid
  unfold Deployment.limiterAfter UsageService.limiterAfter State.ofKey
  rw [h.service, h.apiKey, h.client]
  simp only [rateKey_apiKey, RateLimiter.check_only]

/-- The requests of other keys are not counted for this one. -/
theorem limiterAfter_only {q : Request} (hid : q.apiKeyId ≠ id) :
    (dep.limiterAfter s q).only (rpmKey id) = s.limiter.only (rpmKey id) := by
  unfold Deployment.limiterAfter UsageService.limiterAfter
  refine RateLimiter.check_only_other _ _ _ _ fun heq => hid ?_
  rw [rateKey_apiKey] at heq
  exact (String.append_right_inj _ |>.mp heq).symm

/-- A move of a request of the key, as the key sees it. -/
theorem step_move_own (h : dep.AgreeOn id dep') {r : ℕ} {m : Move} {q : Request}
    (hq : s.requests[r]? = some q) (hid : q.apiKeyId = id)
    (hstep : dep.step s (.move r m) = some t) :
    dep'.step (s.ofKey id) (.move ((s.requests.take r).countP fun q => q.apiKeyId = id) m) =
      some (t.ofKey id) := by
  obtain ⟨q', hq', hstep⟩ := Option.bind_eq_some_iff.mp hstep
  obtain rfl := Option.some.inj (hq.symm.trans hq')
  obtain ⟨phase, hphase, hstep⟩ := Option.bind_eq_some_iff.mp hstep
  obtain rfl := Option.some.inj hstep
  have hown : (s.ofKey id).requests[(s.requests.take r).countP fun q =>
      q.apiKeyId = id]? = some q :=
    getElem?_filter_countP hq (by simpa using hid)
  have htable : tableOf id (s.table ++ ({ q with phase } : Request).written.toList) =
      tableOf id s.table ++ ({ q with phase } : Request).written.toList := by
    rw [tableOf_append, tableOf_written, if_pos hid]
  have hlimiter : (if m = .precheck then dep.limiterAfter s q else s.limiter).only (rpmKey id) =
      if m = .precheck then dep'.limiterAfter (s.ofKey id) q else (s.ofKey id).limiter := by
    rw [limiterAfter_ofKey h hid]
    split <;> rfl
  have hrequests := filter_set_of_keep (p := fun q : Request => decide (q.apiKeyId = id))
    { q with phase } hq (by simpa using hid) (by simpa using hid)
  have hnow : (s.ofKey id).now = s.now := rfl
  unfold Deployment.step
  simp only [hown, Option.bind_eq_bind, Option.bind_some, passes_ofKey h hid, hnow, hphase]
  unfold State.ofKey at hlimiter ⊢
  simp only [htable, hlimiter, hrequests]
  rfl

/-- A move of a request of another key is not seen. -/
theorem step_move_other {r : ℕ} {m : Move} {q : Request} (hq : s.requests[r]? = some q)
    (hid : q.apiKeyId ≠ id) (hstep : dep.step s (.move r m) = some t) :
    t.ofKey id = s.ofKey id := by
  obtain ⟨q', hq', hstep⟩ := Option.bind_eq_some_iff.mp hstep
  obtain rfl := Option.some.inj (hq.symm.trans hq')
  obtain ⟨phase, hphase, hstep⟩ := Option.bind_eq_some_iff.mp hstep
  obtain rfl := Option.some.inj hstep
  have htable : tableOf id (s.table ++ ({ q with phase } : Request).written.toList) =
      tableOf id s.table := by
    rw [tableOf_append, tableOf_written, if_neg hid, List.append_nil]
  have hlimiter : (if m = .precheck then dep.limiterAfter s q else s.limiter).only (rpmKey id) =
      s.limiter.only (rpmKey id) := by
    split
    · exact limiterAfter_only hid
    · rfl
  have hrequests := filter_set_of_drop (p := fun q : Request => decide (q.apiKeyId = id))
    { q with phase } hq (by simpa using hid) (by simpa using hid)
  unfold State.ofKey
  simp only [htable, hlimiter, hrequests]

/-- **The view of a key is faithful**, to the deployment itself and to any other that holds the same
rows for the key. -/
theorem keyView_faithful (id : String) (h : dep.AgreeOn id dep') :
    (keyView id).Faithful dep.step dep'.step where
  seen := by
    intro s a b t hstep hseen
    cases a with
    | arrive apiKeyId totalTokens row =>
        obtain ⟨rfl, hown⟩ := Option.ite_none_right_eq_some.mp hseen
        obtain rfl := Option.some.inj hown
        obtain rfl := Option.some.inj hstep
        simp [keyView, State.ofKey, Deployment.step]
    | tick now monotonic =>
        obtain rfl := Option.some.inj hseen
        obtain rfl := Option.some.inj hstep
        rfl
    | move r m =>
        cases hq : s.requests[r]? with
        | none => simp [keyView, State.ownAction, hq] at hseen
        | some q =>
            simp only [keyView, State.ownAction, hq] at hseen
            obtain ⟨hid, hseen⟩ := Option.ite_none_right_eq_some.mp hseen
            obtain rfl := Option.some.inj hseen
            exact step_move_own h hq hid hstep
  unseen := by
    intro s a t hstep hseen
    cases a with
    | arrive apiKeyId totalTokens row =>
        have hid : apiKeyId ≠ id := by
          rintro rfl
          simp [keyView, State.ownAction] at hseen
        obtain rfl := Option.some.inj hstep
        simp [keyView, State.ofKey, hid]
    | tick now monotonic => cases hseen
    | move r m =>
        obtain ⟨q, hq, -⟩ := Option.bind_eq_some_iff.mp hstep
        have hid : q.apiKeyId ≠ id := by
          rintro rfl
          simp [keyView, State.ownAction, hq] at hseen
        exact step_move_other hq hid hstep

/-- **The requests of a key run as if the key were alone.** Take the actions of one key out of a run
of the gateway, in their order and with the ticks of the clocks: they are a run of their own, from
the same start, which ends with the same requests in the same phases and with the same records. -/
theorem run_ofKey (dep : Deployment) (id : String) (now : ℤ) (as : List Action) {s : State}
    (hrun : run dep.step (dep.init now) as = some s) :
    run dep.step (dep.init now) ((keyView id).trace dep.step (dep.init now) as) = some
    (s.ofKey id) := by
  have hview := (keyView_faithful id (.refl dep)).run_trace hrun
  rwa [show (keyView id).state (dep.init now) = dep.init now from ofKey_init now] at hview

/-- A request that reports one token, up to its call of the backend. -/
def soloRun : List Action :=
  [.arrive "k" (some 1) plainRow, .move 0 .precheck, .move 0 .start, .move 0 .call]

/-- A request of key `"k"` beside one of key `"j"`, each past its check before the other calls. -/
def twoKeysRun : List Action :=
  [.arrive "j" (some 1) plainRow, .arrive "k" (some 1) plainRow, .move 0 .precheck,
    .move 1 .precheck, .move 0 .start, .move 1 .start, .move 0 .call, .move 1 .call]

/-- Beside a request of key `"j"`, the request of key `"k"` runs as it runs alone. -/
theorem run_ofKey_twoKeys :
    ∃ s, run (defaultsOnly { defaultRpd := 1 }).step ((defaultsOnly { defaultRpd := 1 }).init 0)
        twoKeysRun = some s ∧
      run (defaultsOnly { defaultRpd := 1 }).step
        ((defaultsOnly { defaultRpd := 1 }).init 0) soloRun =
        some (s.ofKey "k") := by
  obtain ⟨s, hs⟩ := Option.isSome_iff_exists.mp
    (show (run (defaultsOnly { defaultRpd := 1 }).step ((defaultsOnly { defaultRpd := 1 }).init 0)
      twoKeysRun).isSome = true by decide)
  exact ⟨s, hs, run_ofKey _ "k" 0 twoKeysRun hs⟩

/-- The same rows for key `"k"`, but no limit for the client of the other keys. -/
def othersUnlimited (service : UsageService) : Deployment :=
  { defaultsOnly service with
    client := fun id =>
      if id = "k" then { id := "c", userId := "u", name := [] }
      else { id := "c", userId := "u", name := [], requestsPerDay := some 0 } }

end SynGateway.Services

import SynGateway.Api.Admin.Management
import SynGateway.Api.Chat.Served
import SynGateway.Gateway
import SynGateway.Services.UsageFilters

/-!
# Metering

Chat requests that overlap, on the gateway as a whole. A request is checked against the usage table
as it is when the request arrives, and writes its record when it ends; between the two other
requests come and go, and the management plane gives out and revokes keys.

`usage_billed` says what the table is: one row for every request that has ended and got its record
written, in that order, billed to the key whose token the request presented and to the client of
that key. The endpoints of `app/api/admin.py` that show the usage of a key or of a client add up the
requests with the tokens that were given out for it (`usage_told`). The quotas of a day are checked
against the same requests, and the limit for a minute against the limiter's window of arrivals
(`chat_permitted_by_usage`).
-/

namespace SynGateway.Metering

open SynGateway.Api.Admin SynGateway.Api.Chat SynGateway.Core SynGateway.Core.Auth
  SynGateway.Core.Policy
open SynGateway.Db SynGateway.Gateway SynGateway.Python SynGateway.Routing SynGateway.Services
open SynGateway.Services.Admin SynGateway.Services.KeyLifecycle SynGateway.Transition

variable {app : AppState} {p : Served}

/-! ## Requests that overlap -/

/-- The gateway and its usage table; the chat requests that are on their way, and those that have
ended, in the order they ended. -/
structure State where
  gateway : Gateway.State
  usage : List UsageRecord := []
  running : List Served := []
  ended : List Served := []

/-- A call of the management plane, or the arrival of a chat request; or the end of a request on its
way. -/
inductive Action
  | call (a : Gateway.Action)
  | finish (i : ℕ)

/-- The request, as it finds the usage table. -/
def checkedAgainst (usage : List UsageRecord) (r : Api.Chat.Request) : Api.Chat.Request :=
  { r with reading := { r.reading with table := usage } }

/-- The call, as it finds the usage table. -/
def finding (usage : List UsageRecord) : Gateway.Action → Gateway.Action
  | .chat r => .chat (checkedAgainst usage r)
  | a => a

/-- The request that a call sets on its way. -/
def served? (app : AppState) (store : Store) : Gateway.Action → Option Served
  | .chat r => ((createChatCompletion app r).run store).1.toOption.map (Served.mk r)
  | _ => none

/-- One step. -/
def step (app : AppState) (sha256 : Text → String) (s : State) : Action → Option State
  | .call a =>
    (Gateway.step app sha256 s.gateway (finding s.usage a)).map fun gateway =>
      { s with
        gateway
        running := s.running ++ (served? app s.gateway.store (finding s.usage a)).toList }
  | .finish i =>
    s.running[i]?.map fun p =>
      { s with
        usage := s.usage ++ p.rows app
        running := s.running.eraseIdx i
        ended := s.ended ++ [p] }

/-- A gateway without rows. -/
def init (windowSeconds : ℚ) : State where
  gateway := Gateway.init windowSeconds

/-- The token that a request presents. -/
def tokenOf (r : Api.Chat.Request) : Option Text :=
  ((extractBearerToken r.authorization : Exec Exc Unit Text).run ()).1.toOption

/-- The tokens that are drawn are fresh, and of the tokens that are given out or presented no two
have one hash. -/
def Regular (sha256 : Text → String) (s : State) : Action → Prop
  | .call (.chat r) => r.sha256 = sha256 ∧ ∀ token, tokenOf r = some token →
      Set.InjOn sha256 (insert token {u | ∃ key ∈ s.gateway.registry.keys, key.token = u})
  | .call a => Gateway.Regular sha256 s.gateway a
  | .finish _ => True

/-- The ended requests whose usage was recorded, in the order they ended. -/
def State.counted (app : AppState) (s : State) :
    List Served := s.ended.filter fun p => p.Recorded app

variable {sha256 : Text → String} {service : UsageService} {windowSeconds : ℚ} {s t : State}
  {r : Api.Chat.Request} {key key' : IssuedKey} {client : RegisteredClient}
  {registry registry' : KeyRegistry} {token : Text}

/-- The header is read alike whatever the state. -/
theorem tokenOf_eq_some {db : Database} :
    tokenOf r = some token ↔ (extractBearerToken r.authorization).run db = (.ok token, db) := by
  obtain ⟨hends, hstate, -⟩ :=
    Management.agree_extractBearerToken (R := fun s (_ : Unit) => s = db ∧ True)
    r.authorization db () ⟨rfl, trivial⟩
  -- the header alone decides what is extracted
  have hresult := hends.eq
  unfold tokenOf
  rw [← hresult]
  constructor
  · intro h
    refine Prod.ext ?_ hstate
    cases hrun : ((extractBearerToken r.authorization : Exec Exc Database Text).run db).1 with
    | error exc =>
        rw [hrun] at h
        cases h
    | ok found =>
        rw [hrun] at h
        rw [Option.some.inj h]
  · intro h
    rw [h]
    rfl

/-! ## Whom a request is billed to -/

/-- The request presents the token of the key, as it was given out, and was served for the client of
the key. -/
structure BilledTo (registry : KeyRegistry) (p : Served) (key : IssuedKey)
    (client : RegisteredClient) : Prop where
  issued : key ∈ registry.keys
  registered : client ∈ registry.clients
  owner : client.id = key.clientId
  token : tokenOf p.request = some key.token
  apiKeyId : p.dispatch.apiKey.id = key.id
  clientId : p.dispatch.client.id = client.id
  userId : p.dispatch.client.userId = client.userId
  allowed : client.allowedModels = 0 ∨ p.dispatch.target.canonicalModel ∈ client.allowedModels

/-- The book forgets no client. -/
theorem mem_clients_step {u v : KeyLifecycle.State} {op : Op} (hmem : client ∈ u.registry.clients)
    (hstep : KeyLifecycle.step sha256 u op = some v) : client ∈ v.registry.clients := by
  cases op with
  | createUser id name =>
      obtain ⟨user, -, hrecord⟩ := succeed_eq_some hstep
      rwa [hrecord]
  | createClient id userId name description allowedModels =>
      obtain ⟨row, -, hrecord⟩ := succeed_eq_some hstep
      -- the registry only ever gains clients
      rw [hrecord]
      exact List.mem_append_left _ hmem
  | createApiKey draw id clientId name expiresAt =>
      obtain ⟨result, -, hrecord⟩ := succeed_eq_some hstep
      rwa [hrecord]
  | revokeApiKey now apiKeyId =>
      obtain ⟨row, -, hrecord⟩ := succeed_eq_some hstep
      rwa [hrecord]
  | rotateApiKey draw now id apiKeyId revokeOld =>
      obtain ⟨result, -, hrecord⟩ := succeed_eq_some hstep
      rw [hrecord]
      dsimp only [KeyRegistry.rotate]
      -- a rotation adds a key and may revoke one
      split
      · exact hmem
      · split_ifs
        · exact hmem
        · exact hmem
  | authenticateRequest now commits authHeader =>
      obtain rfl := Option.some.inj hstep
      exact hmem
  | authenticateWithOrm now commits authHeader =>
      obtain rfl := Option.some.inj hstep
      exact hmem

/-- A request stays billed to the key and to the client. -/
theorem BilledTo.step {u v : Gateway.State} {a : Gateway.Action}
    (h : BilledTo u.registry p key client) (hstep : Gateway.step app sha256 u a = some v) :
    ∃ key', BilledTo v.registry p key' client := by
  cases a with
  | manage op =>
      obtain ⟨w, hw, rfl⟩ := Option.map_eq_some_iff.mp hstep
      -- the key goes on under its token and id, whatever is done to it
      obtain ⟨key', hmem, hcontinues⟩ :=
        continues_step (s := ⟨u.store.database, u.registry⟩) h.issued hw
      refine ⟨key', hmem, mem_clients_step h.registered hw, ?_, ?_, ?_, h.clientId, h.userId,
        h.allowed⟩
      · rw [hcontinues.clientId]
        exact h.owner
      · rw [hcontinues.token]
        exact h.token
      · rw [hcontinues.id]
        exact h.apiKeyId
  | updateClientPolicy commit clientId body =>
      unfold Gateway.step at hstep
      dsimp only at hstep
      split at hstep
      · obtain rfl := Option.some.inj hstep
        exact ⟨key, h⟩
      · obtain rfl := Option.some.inj hstep
        exact ⟨key, h⟩
  | chat r =>
      obtain rfl := Option.some.inj hstep
      exact ⟨key, h⟩

/-- A request that gets to its completion function is billed. -/
theorem exists_billedTo {u : Gateway.State} {d : Dispatch}
    (hservice : app.usageService = some service) (h : Gateway.Inv sha256 u)
    (hsha : r.sha256 = sha256) (hinj : ∀ token, tokenOf r = some token →
      Set.InjOn sha256 (insert token {u' | ∃ key ∈ u.registry.keys, key.token = u'}))
    (hrun : ((createChatCompletion app r).run u.store).1 = .ok d) :
    ∃ key client, BilledTo u.registry ⟨r, d⟩ key client := by
  have hcleared := (createChatCompletion_eq_ok hservice).mp hrun
  obtain ⟨token, key, row, hrow, htoken, hadmits, hkeyId, hclientId, hkey, hclient, hmem,
      hmodels⟩ :=
    exists_key_of_cleared h hsha (fun token htoken =>
      hinj token (tokenOf_eq_some.mpr htoken)) hcleared
  -- what was checked is the row of the key, as its use left it
  have hid : d.apiKey.id = row.id := by
    rw [hkey]
    unfold used
    split <;> rfl
  have howner : d.client.id = row.clientId := key_of_find? hclient
  have htarget : chooseTarget app r.body (principalFor (clientView u.store.database d.client)) =
      .ok d.target := by
    rw [← hcleared.target]
    exact chooseTarget_congr r.body hmodels.symm
  refine ⟨key, clientView u.store.database d.client, hadmits.issued, hmem,
    howner.trans hclientId.symm, ?_, hid.trans hkeyId.symm, rfl, rfl,
    canonicalModel_allowed htarget⟩
  rw [hadmits.token]
  exact tokenOf_eq_some.mpr htoken

/-! ## What the table says in every state -/

/-- Every request that got to its completion function is billed, and the table has the rows of those
that have ended. -/
structure Inv (app : AppState) (sha256 : Text → String) (s : State) : Prop where
  gateway : Gateway.Inv sha256 s.gateway
  billed : ∀ p ∈ s.running ++ s.ended, ∃ key client, BilledTo s.gateway.registry p key client
  usage : List.Forall₂ (Served.Names app) (s.counted app) s.usage

/-- The invariant holds before the first request. -/
theorem inv_init : Inv app sha256 (init windowSeconds) where
  gateway := Gateway.inv_init windowSeconds
  billed := by simp [init]
  usage := .nil

/-- What is asked of a call of the gateway. -/
theorem Regular.gateway {a : Gateway.Action} (h : Regular sha256 s (.call a)) :
    Gateway.Regular sha256 s.gateway (finding s.usage a) := by
  cases a with
  | chat r => exact h.1
  | manage op => exact h
  | updateClientPolicy commit clientId body => exact h

/-- One step. -/
theorem inv_step {a : Action} (hservice : app.usageService = some service) (h : Inv app sha256 s)
    (hregular : Regular sha256 s a) (hstep : step app sha256 s a = some t) : Inv app sha256 t := by
  cases a with
  | call a =>
      obtain ⟨gateway, hgateway, rfl⟩ := Option.map_eq_some_iff.mp hstep
      refine ⟨Gateway.inv_step h.gateway hregular.gateway hgateway, fun p hp => ?_, h.usage⟩
      -- the new request is billed, and the others are still
      suffices hnow : ∃ key client, BilledTo s.gateway.registry p key client by
        obtain ⟨key, client, hbilled⟩ := hnow
        obtain ⟨key', hbilled'⟩ := hbilled.step hgateway
        exact ⟨key', client, hbilled'⟩
      rcases List.mem_append.mp hp with hp | hp
      · rcases List.mem_append.mp hp with hp | hp
        · exact h.billed p (List.mem_append_left _ hp)
        · cases a with
          | manage op => cases hp
          | updateClientPolicy commit clientId body => cases hp
          | chat r =>
              unfold served? finding at hp
              dsimp only at hp
              cases hrun :
                ((createChatCompletion app (checkedAgainst s.usage r)).run s.gateway.store).1 with
              | error exc =>
                  rw [hrun] at hp
                  cases hp
              | ok d =>
                  rw [hrun] at hp
                  rw [List.mem_singleton.mp hp]
                  exact exists_billedTo hservice h.gateway hregular.1 hregular.2 hrun
      · exact h.billed p (List.mem_append_right _ hp)
  | finish i =>
      obtain ⟨p, hp, rfl⟩ := Option.map_eq_some_iff.mp hstep
      refine ⟨h.gateway, fun q hq => h.billed q ?_, ?_⟩
      · rcases List.mem_append.mp hq with hq | hq
        · exact List.mem_append_left _ (List.mem_of_mem_eraseIdx hq)
        · rcases List.mem_append.mp hq with hq | hq
          · exact List.mem_append_right _ hq
          · rw [List.mem_singleton.mp hq]
            exact List.mem_append_left _ (List.mem_of_getElem? hp)
      · unfold State.counted
        rw [List.filter_append]
        exact List.rel_append h.usage (p.names_rows app)

/-- Every run. -/
theorem inv_reach (hservice : app.usageService = some service)
    (h : Reach (step app sha256) (Regular sha256) (init windowSeconds) s) : Inv app sha256 s :=
  h.invariant (I := Inv app sha256) inv_init fun _ _ _ hs hregular hstep =>
    inv_step hservice hs hregular hstep

/-- The rows, with the requests that they are billed for. -/
theorem Inv.bills (h : Inv app sha256 s) :
    List.Forall₂ (fun p row => p.Names app row ∧ ∃ key client,
        BilledTo s.gateway.registry p key client) (s.counted app) s.usage := by
  rw [List.forall₂_iff_zip]
  refine ⟨h.usage.length_eq, fun {p row} hmem => ⟨(List.forall₂_iff_zip.mp h.usage).2 hmem, ?_⟩⟩
  have hp : p ∈ s.ended := List.mem_of_mem_filter (List.of_mem_zip hmem).1
  exact h.billed p (List.mem_append_right _ hp)

/-- **Usage is billed to whoever was given the token.** In every state that chat requests which
overlap and calls of the management plane lead to, the usage table has one row for each request that
has ended and got its record written, in the order they ended, and no other. The row names the key
whose token the request presented, the client and the user that this key was given out for, and a
model that the client may use; its outcome, its error code and its counts are what the request came
to (`Served.outcome`, `Served.response`). -/
theorem usage_billed (hservice : app.usageService = some service)
    (h : Reach (step app sha256) (Regular sha256) (init windowSeconds) s) :
    List.Forall₂ (fun p row => p.Names app row ∧ ∃ key client,
        BilledTo s.gateway.registry p key client)
      (s.counted app) s.usage := (inv_reach hservice h).bills

/-- The rows that a query keeps are those of the requests that it is about. -/
theorem Inv.names_filter (h : Inv app sha256 s) {P : Served → Bool} {Q : UsageRecord → Bool}
    (hPQ : ∀ p row key client, p.Names app row → BilledTo s.gateway.registry p key client →
      (P p ↔ Q row)) :
    List.Forall₂ (Served.Names app) ((s.counted app).filter P) (s.usage.filter Q) := by
  have hrel : List.Forall₂ (fun p row => p.Names app row ∧ ∃ key client,
      BilledTo s.gateway.registry p key client) ((s.counted app).filter P) (s.usage.filter Q) := by
    refine List.rel_filter ?_ h.bills
    rintro p row ⟨hnames, key, client, hbilled⟩
    exact hPQ p row key client hnames hbilled
  exact hrel.imp fun _ _ h => h.1

/-- A request presents the token of the key that it is billed to, and of no other. -/
theorem BilledTo.token_iff (h : BilledTo registry p key client)
    (hids : (registry.keys.map (·.id)).Nodup) (htokens : (registry.keys.map (·.token)).Nodup)
    (hkey : key' ∈ registry.keys) :
    tokenOf p.request = some key'.token ↔ p.dispatch.apiKey.id = key'.id := by
  rw [h.token, h.apiKeyId]
  constructor
  · intro htoken
    rw [List.inj_on_of_nodup_map htokens h.issued hkey (Option.some.inj htoken)]
  · intro hid
    rw [List.inj_on_of_nodup_map hids h.issued hkey hid]

/-! ## What requests add up to -/

/-- The sum of some counts of the responses of requests, of those that are integers (`column`). -/
def reported (app : AppState) (count : ChatCompletionResponse → Json) (requests : List Served) :
    ℤ :=
  (requests.filterMap fun p => (p.response app).bind fun resp => column (count resp)).sum

/-- The figures of a summary are those of the requests. -/
structure Tally (app : AppState) (served : List Served) (out : UsageSummary) : Prop where
  requests : out.requests = served.length
  successfulRequests : out.successfulRequests = served.countP (·.completes app)
  failedRequests : out.failedRequests = served.countP fun p => (p.outcome app).1 = .failed
  cancelledRequests : out.cancelledRequests = served.countP fun p => (p.outcome app).1 = .cancelled
  rejectedRequests : out.rejectedRequests = served.countP fun p => (p.outcome app).1 = .rejected
  timedOutRequests : out.timedOutRequests = served.countP fun p => (p.outcome app).1 = .timedOut
  requestsWithUnknownUsage : out.requestsWithUnknownUsage = served.countP fun p =>
    (p.response app).all fun resp =>
      column resp.promptTokens = none || column resp.completionTokens = none ||
        column resp.totalTokens = none
  promptTokens : out.promptTokens = reported app (·.promptTokens) served
  completionTokens : out.completionTokens = reported app (·.completionTokens) served
  totalTokens : out.totalTokens = reported app (·.totalTokens) served

section Figures

variable {α β γ : Type} {R : α → β → Prop} {l : List α} {m : List β} {served : List Served}
  {rows : List UsageRecord}

/-- Lists in step have the same values. -/
theorem map_eq_of_forall₂ {f : α → γ} {g : β → γ} (h : List.Forall₂ R l m)
    (hfg : ∀ a b, R a b → f a = g b) :
    l.map f = m.map g := by
  rw [← List.forall₂_eq_eq_eq]
  exact List.forall₂_map_left_iff.mpr (List.forall₂_map_right_iff.mpr (h.imp hfg))

/-- Lists in step are counted alike. -/
theorem countP_eq_of_forall₂ {P : α → Bool} {Q : β → Bool} (h : List.Forall₂ R l m)
    (hPQ : ∀ a b, R a b → P a = Q b) : l.countP P = m.countP Q := by
  have hmap := congrArg (List.countP id) (map_eq_of_forall₂ h hPQ)
  rwa [List.countP_map, List.countP_map] at hmap

/-- Lists in step are filtered alike. -/
theorem filterMap_eq_of_forall₂ {f : α → Option γ} {g : β → Option γ} (h : List.Forall₂ R l m)
    (hfg : ∀ a b, R a b → f a = g b) : l.filterMap f = m.filterMap g := by
  have hmap := congrArg (List.filterMap id) (map_eq_of_forall₂ h hfg)
  rwa [List.filterMap_map, List.filterMap_map] at hmap

/-- A column of counts in a row. -/
theorem column_response (count : ChatCompletionResponse → Json)
    (resp : Option ChatCompletionResponse) :
    column ((resp.map count).getD .null) = resp.bind fun resp => column (count resp) := by
  cases resp <;> rfl

/-- The rows with a status are those of the requests that ended with it. -/
theorem countP_outcome (h : List.Forall₂ (Served.Names app) served rows) (outcome : Outcome) :
    rows.countP (·.status = outcome) = served.countP fun p => (p.outcome app).1 = outcome := by
  refine (countP_eq_of_forall₂ h fun p row hnames => ?_).symm
  have hstatus : row.status = (p.outcome app).1 := congrArg Prod.fst hnames.outcome
  rw [hstatus]

/-- The rows add up to what the requests come to. -/
theorem tally_ofRows (h : List.Forall₂ (Served.Names app) served rows) :
    Tally app served (UsageSummary.ofRows rows) where
  requests := h.length_eq.symm
  successfulRequests := by
    refine (countP_outcome h .completed).trans (List.countP_congr fun p _ => ?_)
    rw [decide_eq_true_iff]
    exact (p.completes_iff app).symm
  failedRequests := countP_outcome h .failed
  cancelledRequests := countP_outcome h .cancelled
  rejectedRequests := countP_outcome h .rejected
  timedOutRequests := countP_outcome h .timedOut
  requestsWithUnknownUsage := by
    -- each row has the counts of its own request
    refine (countP_eq_of_forall₂ h fun p row hnames => ?_).symm
    unfold UsageRecord.unknownUsage
    rw [hnames.promptTokens, hnames.completionTokens, hnames.totalTokens]
    cases p.response app <;> rfl
  promptTokens := by
    refine congrArg List.sum (filterMap_eq_of_forall₂ h fun p row hnames => ?_).symm
    rw [hnames.promptTokens, column_response]
  completionTokens := by
    refine congrArg List.sum (filterMap_eq_of_forall₂ h fun p row hnames => ?_).symm
    rw [hnames.completionTokens, column_response]
  totalTokens := by
    refine congrArg List.sum (filterMap_eq_of_forall₂ h fun p row hnames => ?_).symm
    rw [hnames.totalTokens, column_response]

end Figures

/-! ## The usage endpoints -/

/-- `_get_usage_service`. -/
def getUsageService (app : AppState) : Session UsageService :=
  match app.usageService with
  | none => Exec.raise (notAvailable "usage service not available" "usage_unavailable")
  | some service => pure service

/-- `_get_db_session`. -/
def getSession (app : AppState) : Session Unit :=
  if app.database then pure ()
    else Exec.raise (authenticationError "database unavailable for authentication")

/-- `get_client_usage`, for the usage table as it is at the time `now`. -/
def getClientUsage (app : AppState) (usage : List UsageRecord) (now : ℤ) (clientId : String) :
    Session UsageSummary := do
  let _ ← getUsageService app
  getSession app
  let _ ← getClient clientId
  return UsageService.summarize now usage none (some clientId) none none

/-- `get_api_key_usage`. -/
def getApiKeyUsage (app : AppState) (usage : List UsageRecord) (now : ℤ) (apiKeyId : String) :
    Session UsageSummary := do
  let _ ← getUsageService app
  getSession app
  let _ ← getApiKey apiKeyId
  return UsageService.summarize now usage (some apiKeyId) none none none

/-- The request presents a token that was given out for the client. -/
def presentsTokenOf (registry : KeyRegistry) (clientId : String) (p : Served) : Bool :=
  registry.keys.any fun key => key.clientId = clientId && tokenOf p.request = some key.token

/-- It presents one for the client that it is billed to, and for no other. -/
theorem BilledTo.presentsTokenOf_iff (h : BilledTo registry p key client)
    (htokens : (registry.keys.map (·.token)).Nodup) (clientId : String) :
    presentsTokenOf registry clientId p = true ↔ p.dispatch.client.id = clientId := by
  unfold presentsTokenOf
  simp only [List.any_eq_true, Bool.and_eq_true, decide_eq_true_eq]
  rw [h.clientId, h.owner]
  constructor
  · rintro ⟨key', hkey', rfl, htoken⟩
    rw [h.token] at htoken
    rw [List.inj_on_of_nodup_map htokens h.issued hkey' (Option.some.inj htoken)]
  · rintro rfl
    exact ⟨key, h.issued, rfl, h.token⟩

/-- The window of a summary without bounds is the current UTC day. -/
theorem summaryWindow_today (now : ℤ) (table : List UsageRecord) :
    summaryWindow now table none none = table.filter fun r => day r.startedAt = day now := by
  unfold summaryWindow rowsBetween
  refine List.filter_congr fun r _ => ?_
  rw [Bool.eq_iff_iff, Bool.and_eq_true, decide_eq_true_iff, decide_eq_true_iff, decide_eq_true_iff]
  unfold day dayStart msPerDay
  dsimp only [Option.getD_none]
  omega

/-- The requests with the token of a key that started on the day of `now`, of those that were
recorded. -/
def State.countedOf (app : AppState) (s : State) (token : Text) (now : ℤ) : List Served :=
  (s.counted app).filter fun p => tokenOf p.request = some token && p.startedOn now

/-- The rows of a key on a day are those of the requests with its token. -/
theorem Inv.names_countedOf (h : Inv app sha256 s) (hkey : key ∈ s.gateway.registry.keys)
    (now : ℤ) :
    List.Forall₂ (Served.Names app) (s.countedOf app key.token now)
      (s.usage.filter fun r => r.isToday now key.id) := by
  refine h.names_filter fun p row key' client hnames hbilled => ?_
  rw [isToday_iff, Bool.and_eq_true, decide_eq_true_iff, hnames.apiKeyId, hnames.startedAt,
    Option.some_inj, hbilled.token_iff h.gateway.implements.keyIds h.gateway.implements.tokens hkey]
  unfold Served.startedOn
  rw [decide_eq_true_iff]

/-- The rows that the summary of a key is made of. -/
theorem summarize_key (now : ℤ) (table : List UsageRecord) (apiKeyId : String) :
    UsageService.summarize now table (some apiKeyId) none none none =
      .ofRows (table.filter fun r => r.isToday now apiKeyId) := by
  have hrows : (summaryWindow now table none none).filter (·.ofKeyOrClient (some apiKeyId) none) =
      table.filter fun r => r.isToday now apiKeyId := by
    rw [summaryWindow_today, List.filter_filter]
    refine List.filter_congr fun r _ => ?_
    rw [Bool.eq_iff_iff, isToday_iff, Bool.and_eq_true, decide_eq_true_iff]
    exact and_congr_left fun _ => decide_eq_true_iff
  rw [← hrows]
  rfl

/-- The rows that the summary of a client is made of. -/
theorem summarize_client (now : ℤ) (table : List UsageRecord) (clientId : String) :
    UsageService.summarize now table none (some clientId) none none =
      .ofRows (table.filter fun r => r.clientId = some clientId &&
        decide (day r.startedAt = day now)) := by
  have hrows : (summaryWindow now table none none).filter (·.ofKeyOrClient none (some clientId)) =
      table.filter fun r => r.clientId = some clientId && decide (day r.startedAt = day now) := by
    rw [summaryWindow_today, List.filter_filter]
    rfl
  rw [← hrows]
  rfl

/-- `get_api_key` finds the row of the identifier, or says what is not found. -/
theorem getApiKey_run (db : Database) (apiKeyId : String) :
    (getApiKey apiKeyId).run db = match db.apiKeys.find? fun k => k.id = apiKeyId with
      | some apiKey => (.ok apiKey, db)
      | none => (.error (notFound "api key" "api_key_not_found" apiKeyId), db) := by
  unfold getApiKey
  rw [Exec.run_get_bind]
  unfold oneOr
  cases db.apiKeys.find? fun k => k.id = apiKeyId <;> rfl

/-- The checks of a policy. The two limits for a day are on what the requests of the day with the
token of the key have come to, as far as they have ended and were recorded. The limit for a minute
is on arrivals, ended or not: it is the limiter's own check of its window. -/
structure WithinUsage (app : AppState) (s : State) (reading : Reading) (policy : EffectivePolicy)
    (key : IssuedKey) : Prop where
  rate : (s.gateway.store.limiter.check reading.monotonic
    ("rpm:" ++ key.id) policy.requestsPerMinute).1.allowed = true
  requests : 0 < policy.requestsPerDay →
    ((s.countedOf app key.token reading.now).length : ℤ) < policy.requestsPerDay
  tokens : 0 < policy.tokensPerDay →
    reported app (·.totalTokens) (s.countedOf app key.token reading.now) < policy.tokensPerDay

/-- The quotas of a day of a key are checked against the requests with its token. -/
theorem Inv.within_iff (h : Inv app sha256 s) (hkey : key ∈ s.gateway.registry.keys)
    (reading : Reading) (policy : EffectivePolicy) :
    Within policy { reading with table := s.usage } s.gateway.store.limiter key.id ↔
      WithinUsage app s reading policy key := by
  have hnames := h.names_countedOf hkey reading.now
  -- the table of the reading holds one row for each counted request
  have hrequests : countRequestsToday s.usage reading.now key.id =
      (s.countedOf app key.token reading.now).length := by
    unfold countRequestsToday
    rw [List.countP_eq_length_filter, hnames.length_eq]
  have htokens : sumTokensToday s.usage reading.now key.id =
      reported app (·.totalTokens) (s.countedOf app key.token reading.now) := by
    refine congrArg List.sum (filterMap_eq_of_forall₂ hnames fun p row hnames => ?_).symm
    rw [← column_response, ← hnames.totalTokens]
    rfl
  constructor
  · rintro ⟨hrate, hbelow, hspent⟩
    dsimp only at hrate hbelow hspent
    rw [hrequests] at hbelow
    rw [htokens] at hspent
    exact ⟨hrate, hbelow, hspent⟩
  · rintro ⟨hrate, hbelow, hspent⟩
    rw [← hrequests] at hbelow
    rw [← htokens] at hspent
    exact ⟨hrate, hbelow, hspent⟩

/-- What lets a chat request through: its token was given out and may still be used, the limiter and
what was served for this token on the day leave it room in the policy last set for its client, and
the model is served to the client. -/
structure Entitled (app : AppState) (service : UsageService) (s : State) (r : Api.Chat.Request)
    (key : IssuedKey) (client : RegisteredClient) (target : Target) : Prop where
  database : app.database = true
  token : tokenOf r = some key.token
  admits : s.gateway.registry.Admits key.token r.now key
  registered : client ∈ s.gateway.registry.clients
  owner : client.id = key.clientId
  within : WithinUsage app s r.reading
    (policyOf service (limitsSet (s.gateway.updates client.id))) key
  target : chooseTarget app r.body (principalFor client) = .ok target

/-- What the book permits is what the limiter and the requests that have ended leave room for. -/
theorem Inv.permits_iff (h : Inv app sha256 s) {target : Target} :
    (∃ token key client,
        Permits app service s.gateway (checkedAgainst s.usage r) token key client target) ↔
      ∃ key client, Entitled app service s r key client target := by
  constructor
  · rintro ⟨token, key, client, hdatabase, hbearer, hadmits, hregistered, howner, hwithin, htarget⟩
    obtain rfl := hadmits.token
    exact ⟨key, client, hdatabase, tokenOf_eq_some.mpr hbearer, hadmits, hregistered, howner,
      (h.within_iff hadmits.issued _ _).mp hwithin, htarget⟩
  · rintro ⟨key, client, hdatabase, htoken, hadmits, hregistered, howner, hwithin, htarget⟩
    exact ⟨key.token, key, client, hdatabase, tokenOf_eq_some.mp htoken, hadmits,
      hregistered, howner, (h.within_iff hadmits.issued _ _).mpr hwithin, htarget⟩

/-- A request that the backend answers, and charges 8 tokens for. -/
def meteredRequest : Api.Chat.Request :=
  { sampleRequest false with
    chatCompletion :=
      fun _ _ => .ok ⟨.null, .null, .null, .null, [], .int 3, .int 5, .int 8, .null⟩ }

/-- A stream with the same token, which finds the admission queue full. -/
def refusedStream :
    Api.Chat.Request := { sampleRequest true with requestId := "s", acquire := .queueFull }

/-- A client may make one request a day. -/
def managedState : State :=
  (run (step sampleApp String.ofList) (init 60) (sampleActions.map .call)).getD (init 60)

/-- It makes two: the second arrives before the first has ended, and ends before it. -/
def meteredActions : List Action :=
  [.call (.chat meteredRequest), .call (.chat refusedStream), .finish 1, .finish 0]

def meteredState :
    State := (run (step sampleApp String.ofList) managedState meteredActions).getD managedState

/-- The state after the administration is reached. -/
theorem reach_managedState :
    Reach (step sampleApp String.ofList) (Regular String.ofList) (init 60) managedState := by
  refine Reach.init.of_run (show run _ _ (sampleActions.map .call) = some managedState from rfl) ?_
  exact ⟨trivial, trivial, trivial, fun key hkey => absurd hkey List.not_mem_nil, trivial,
    trivial, trivial⟩

/-- Tokens are their own hashes here. -/
theorem regular_chat (s : State) {r : Api.Chat.Request} (h : r.sha256 = String.ofList) :
    Regular String.ofList s (.call (.chat r)) :=
  ⟨h, fun _ _ _ _ _ _ heq => String.ofList_injective heq⟩

/-- The state after the request is reached. -/
theorem reach_meteredState :
    Reach (step sampleApp String.ofList) (Regular String.ofList) (init 60) meteredState := by
  refine reach_managedState.of_run (show run _ _ meteredActions = some meteredState from rfl) ?_
  exact ⟨regular_chat _ rfl, regular_chat _ rfl, trivial, trivial, trivial⟩

/-- Both are billed to the key, in the order they ended. The stream counts as cancelled. -/
theorem usage_billed_overlapping :
    (meteredState.usage.map fun row =>
          (row.requestId, row.apiKeyId, row.clientId, row.accounting)) =
        [("s", some "k", some "c", .cancelled, none), ("r", some "k", some "c", .completed, none)] ∧
      List.Forall₂ (fun p row => p.Names sampleApp row ∧
        ∃ key client, BilledTo meteredState.gateway.registry p key client)
        (meteredState.counted sampleApp) meteredState.usage :=
  ⟨rfl, usage_billed rfl reach_meteredState⟩

end SynGateway.Metering

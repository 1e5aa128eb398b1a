import SynGateway.Common.Grouping
import SynGateway.Python.Float
import SynGateway.Services.RequestQuota

/-!
# Aggregates of the usage table

The summary and the breakdowns of `app/services/observability.py`, and `summarize` of
`app/services/usage.py`. Each of them folds over the rows of a window of `started_at` on its own.
They agree with each other, and add up (`aggregates_agree`).

Percentiles are interpolated on exact rationals; an average is the rounded float quotient, as in the
source.
-/

namespace SynGateway.Services

open SynGateway.Grouping SynGateway.Python

/-! ## The rows of a window -/

/-- An integer column, `none` for NULL. The counts of a backend are taken to be integers where they
are not `None`: what SQLite stores of a float or of a bool, and adds up, is not followed. -/
def column : Json → Option ℤ
  | .int n => some n
  | _ => none

/-- `_today_range`, as the start and the end. -/
def todayRange (now : ℤ) : ℤ × ℤ := (dayStart now, dayStart now + msPerDay)

/-- The rows with `started_at >= since` and `started_at < until`. -/
def rowsBetween (since until' : ℤ) (table : List UsageRecord) : List UsageRecord :=
  table.filter fun r => since ≤ r.startedAt && r.startedAt < until'

/-- `if since is None or until is None: since, until = self._today_range()`. -/
def rangeOr (now : ℤ) : Option ℤ → Option ℤ → ℤ × ℤ
  | some since, some until' => (since, until')
  | _, _ => todayRange now

/-- The rows that the queries of `ObservabilityService` return. -/
def windowRows (now : ℤ) (table : List UsageRecord) (since until' : Option ℤ) : List UsageRecord :=
  rowsBetween (rangeOr now since until').1 (rangeOr now since until').2 table

/-! ## Latency -/

/-- `LatencyStats`. -/
structure LatencyStats where
  count : ℕ
  avgMs : Option ℤ
  p50Ms : Option ℤ
  p95Ms : Option ℤ
  maxMs : Option ℤ
deriving DecidableEq, Repr

/-- `_percentile`. -/
def percentile (sortedValues : List ℤ) (p : ℚ) : ℤ :=
  match sortedValues with
  | [] => 0
  | [value] => value
  | values =>
    let k := ((values.length : ℚ) - 1) * p
    let f := ⌊k⌋
    let c := ⌈k⌉
    if f = c then values.getD (int k).toNat 0
    else
      let d0 := (values.getD f.toNat 0 : ℚ) * (c - k)
      let d1 := (values.getD c.toNat 0 : ℚ) * (k - f)
      Python.round (d0 + d1)

/-- `_compute_latency_for_field`. `none` is the `OverflowError` of an average that is too large for
a float. -/
def computeLatencyForField (values : List (Option ℤ)) : Option LatencyStats :=
  let clean := values.reduceOption.mergeSort (· ≤ ·)
  match clean.getLast? with
  | none => some { count := 0, avgMs := none, p50Ms := none, p95Ms := none, maxMs := none }
  | some maxVal => do
    let count := clean.length
    let avg ← trueDiv clean.sum count
    return {
      count
      avgMs := some (Python.round avg)
      p50Ms := some (percentile clean (1 / 2))
      p95Ms := some (percentile clean (19 / 20))
      maxMs := some maxVal }

/-- `_compute_latency_for_field` of a column of the table. An integer column holds 64 bits, so its
average is a float (`computeLatencyForField_column`). -/
def columnLatency (values : List (Option ℤ)) : LatencyStats :=
  (computeLatencyForField values).getD
    { count := values.reduceOption.length, avgMs := none, p50Ms := none, p95Ms := none,
      maxMs := none }

/-- The values that are counted are those that are not NULL, also where no average is returned. -/
theorem columnLatency_count (values : List (Option ℤ)) :
    (columnLatency values).count = values.reduceOption.length := by
  have hlength : (values.reduceOption.mergeSort (· ≤ ·)).length = values.reduceOption.length :=
    List.length_mergeSort _
  unfold columnLatency computeLatencyForField
  dsimp only
  split
  · next hlast =>
      rw [← hlength, List.getLast?_eq_none_iff.mp hlast]
      rfl
  · cases trueDiv (values.reduceOption.mergeSort (· ≤ ·)).sum
      (values.reduceOption.mergeSort (· ≤ ·)).length with
    | some avg => exact hlength
    | none => rfl

/-- `_compute_latency`. -/
def computeLatency (rows : List UsageRecord) : LatencyStats :=
  columnLatency (rows.map (·.totalDurationMs))

/-- `latency_stats`, by the names of the columns. -/
def latencyStats (now : ℤ) (table : List UsageRecord) (since until' : Option ℤ) :
    List (String × LatencyStats) :=
  let rows := windowRows now table since until'
  [("total_duration_ms", columnLatency (rows.map (·.totalDurationMs))),
    ("queue_wait_ms", columnLatency (rows.map (·.queueWaitMs))),
    ("backend_latency_ms", columnLatency (rows.map (·.backendLatencyMs))),
    ("ttft_ms", columnLatency (rows.map (·.ttftMs))),
    ("stream_duration_ms", columnLatency (rows.map (·.streamDurationMs)))]

/-! ## The summary -/

/-- `RequestOutcomeSummary`. -/
structure RequestOutcomeSummary where
  completed : ℕ
  failed : ℕ
  cancelled : ℕ
  timedOut : ℕ
  rejected : ℕ
deriving DecidableEq, Repr

/-- `TokenSummary`. -/
structure TokenSummary where
  promptTokens : ℤ
  completionTokens : ℤ
  totalTokens : ℤ
  requestsWithUnknownUsage : ℕ
deriving DecidableEq, Repr

/-- `SummaryResponse`. -/
structure SummaryResponse where
  requests : RequestOutcomeSummary
  tokens : TokenSummary
  latency : LatencyStats
  active : ℕ
  queued : ℕ
deriving DecidableEq, Repr

/-- One of the three token columns is NULL. -/
def UsageRecord.unknownUsage (r : UsageRecord) : Bool :=
  column r.promptTokens = none || column r.completionTokens = none || column r.totalTokens = none

/-- `ObservabilityService.summary`. -/
def summary (now : ℤ) (table : List UsageRecord) (since until' : Option ℤ)
    (admissionActive admissionQueued : ℕ) : SummaryResponse :=
  let rows := windowRows now table since until'
  { requests := {
      completed := rows.countP (·.status = .completed)
      failed := rows.countP (·.status = .failed)
      cancelled := rows.countP (·.status = .cancelled)
      timedOut := rows.countP (·.status = .timedOut)
      rejected := rows.countP (·.status = .rejected) }
    tokens := {
      promptTokens := (rows.filterMap fun r => column r.promptTokens).sum
      completionTokens := (rows.filterMap fun r => column r.completionTokens).sum
      totalTokens := (rows.filterMap fun r => column r.totalTokens).sum
      requestsWithUnknownUsage := rows.countP UsageRecord.unknownUsage }
    latency := computeLatency rows
    active := admissionActive
    queued := admissionQueued }

/-! ## `summarize` -/

/-- `UsageSummary`. -/
structure UsageSummary where
  requests : ℕ
  successfulRequests : ℕ
  failedRequests : ℕ
  cancelledRequests : ℕ
  rejectedRequests : ℕ
  timedOutRequests : ℕ
  requestsWithUnknownUsage : ℕ
  promptTokens : ℤ
  completionTokens : ℤ
  totalTokens : ℤ
deriving DecidableEq, Repr

/-- The filter by key or, without a key, by client. -/
def UsageRecord.ofKeyOrClient (r : UsageRecord) : Option String → Option String → Bool
  | some apiKeyId, _ => r.apiKeyId = some apiKeyId
  | none, some clientId => r.clientId = some clientId
  | none, none => true

/-- `UsageService.summarize`. A missing bound is that of the current day. -/
def UsageService.summarize (now : ℤ) (table : List UsageRecord) (apiKeyId clientId : Option String)
    (since until' : Option ℤ) : UsageSummary :=
  let rows := (rowsBetween (since.getD (dayStart now)) (until'.getD (dayStart now + msPerDay))
    table).filter fun r => r.ofKeyOrClient apiKeyId clientId
  { requests := rows.length
    successfulRequests := rows.countP (·.status = .completed)
    failedRequests := rows.countP (·.status = .failed)
    cancelledRequests := rows.countP (·.status = .cancelled)
    rejectedRequests := rows.countP (·.status = .rejected)
    timedOutRequests := rows.countP (·.status = .timedOut)
    requestsWithUnknownUsage := rows.countP UsageRecord.unknownUsage
    promptTokens := (rows.filterMap fun r => column r.promptTokens).sum
    completionTokens := (rows.filterMap fun r => column r.completionTokens).sum
    totalTokens := (rows.filterMap fun r => column r.totalTokens).sum }

/-! ## The breakdowns -/

/-- A row of a breakdown by `κ`. -/
structure Breakdown (κ : Type) where
  key : κ
  requests : ℕ
  completed : ℕ
  failed : ℕ
  cancelled : ℕ
  totalTokens : ℤ
deriving DecidableEq, Repr

/-- `ClientBreakdown`. -/
abbrev ClientBreakdown := Breakdown (Option String)

/-- `ModelBreakdown`. -/
abbrev ModelBreakdown := Breakdown Str

/-- `BackendBreakdown`. -/
abbrev BackendBreakdown := Breakdown (Option String)

/-- The row for a group of records. -/
def Breakdown.ofGroup {κ : Type} (group : κ × List UsageRecord) : Breakdown κ where
  key := group.1
  requests := group.2.length
  completed := group.2.countP (·.status = .completed)
  failed := group.2.countP (·.status = .failed)
  cancelled := group.2.countP (·.status = .cancelled)
  totalTokens := (group.2.filterMap fun r => column r.totalTokens).sum

/-- The breakdown of some rows: a dictionary of groups, the largest first. -/
def breakdownBy {κ : Type} [DecidableEq κ] (key : UsageRecord → κ) (rows : List UsageRecord) :
    List (Breakdown κ) :=
  ((groupBy key rows).mergeSort fun x y => -(x.2.length : ℤ) ≤ -(y.2.length : ℤ)).map
    Breakdown.ofGroup

/-- `client_breakdown`. -/
def clientBreakdown (now : ℤ) (table : List UsageRecord) (since until' : Option ℤ) :
    List ClientBreakdown :=
  breakdownBy (·.clientId) (windowRows now table since until')

/-- `model_breakdown`. -/
def modelBreakdown (now : ℤ) (table : List UsageRecord) (since until' : Option ℤ) :
    List ModelBreakdown :=
  breakdownBy (·.model) (windowRows now table since until')

/-- `backend_breakdown`. -/
def backendBreakdown (now : ℤ) (table : List UsageRecord) (since until' : Option ℤ) :
    List BackendBreakdown :=
  breakdownBy (·.backendId) (windowRows now table since until')

/-! ## The folds -/

/-- The number of requests that a summary counts. -/
def RequestOutcomeSummary.total (s : RequestOutcomeSummary) : ℕ :=
  s.completed + s.failed + s.cancelled + s.timedOut + s.rejected

/-- Every row has one of the five outcomes. -/
theorem sum_outcomes (rows : List UsageRecord) :
    rows.countP (·.status = .completed) + rows.countP (·.status = .failed) + rows.countP
      (·.status = .cancelled)
      + rows.countP (·.status = .timedOut) + rows.countP (·.status = .rejected) = rows.length := by
  induction rows with
  | nil => rfl
  | cons r rows ih =>
      simp only [List.countP_cons, List.length_cons]
      cases r.status <;> simp <;> omega

/-- The outcomes of a breakdown are among the five. -/
theorem Breakdown.outcomes_le {κ : Type} (group : κ × List UsageRecord) :
    (ofGroup group).completed + (ofGroup group).failed + (ofGroup group).cancelled ≤
      (ofGroup group).requests := by
  have htotal := sum_outcomes group.2
  unfold ofGroup
  dsimp only
  omega

/-- A breakdown has one row for a key, the columns add up to the figures of the summary, and the
rows come by their requests. -/
structure AddsUp {κ : Type} (breakdown : List (Breakdown κ)) (s : SummaryResponse) : Prop where
  keys_nodup : (breakdown.map (·.key)).Nodup
  requests : (breakdown.map (·.requests)).sum = s.requests.total
  completed : (breakdown.map (·.completed)).sum = s.requests.completed
  failed : (breakdown.map (·.failed)).sum = s.requests.failed
  cancelled : (breakdown.map (·.cancelled)).sum = s.requests.cancelled
  totalTokens : (breakdown.map (·.totalTokens)).sum = s.tokens.totalTokens
  ordered : breakdown.Pairwise fun x y => y.requests ≤ x.requests
  outcomes_le : ∀ row ∈ breakdown, row.completed + row.failed + row.cancelled ≤ row.requests

/-- A breakdown adds up, whatever it is by. -/
theorem addsUp_breakdownBy {κ : Type} [DecidableEq κ] (key : UsageRecord → κ) (now : ℤ)
    (table : List UsageRecord) (since until' : Option ℤ) (active queued : ℕ) :
    AddsUp (breakdownBy key (windowRows now table since until'))
      (summary now table since until' active queued) := by
  let rows := windowRows now table since until'
  -- sorting the groups changes no sum and no key
  have hperm : (breakdownBy key rows).Perm ((groupBy key rows).map Breakdown.ofGroup) :=
    (List.mergeSort_perm _ _).map _
  have hsum : ∀ {M : Type} [AddCommMonoid M] (part : Breakdown κ → M),
      ((breakdownBy key rows).map part).sum =
        ((groupBy key rows).map fun g => part (Breakdown.ofGroup g)).sum := by
    intro M _ part
    rw [(hperm.map part).sum_eq, List.map_map]
    rfl
  refine {
    keys_nodup := ?_
    requests := (hsum _).trans ((sum_length_groupBy key rows).trans (sum_outcomes rows).symm)
    completed := (hsum _).trans (sum_countP_groupBy key rows _)
    failed := (hsum _).trans (sum_countP_groupBy key rows _)
    cancelled := (hsum _).trans (sum_countP_groupBy key rows _)
    totalTokens := (hsum _).trans (sum_filterMap_groupBy key rows _)
    ordered := ?_
    outcomes_le := ?_ }
  · rw [(hperm.map _).nodup_iff, List.map_map]
    exact keys_nodup_groupBy key rows
  · unfold breakdownBy
    rw [List.pairwise_map]
    refine (List.pairwise_mergeSort ?_ ?_ (groupBy key rows)).imp fun h => ?_
    · intro x y z hxy hyz
      simp only [decide_eq_true_eq] at hxy hyz ⊢
      omega
    · intro x y
      simp only [Bool.or_eq_true, decide_eq_true_eq]
      omega
    · change List.length _ ≤ List.length _
      simp only [decide_eq_true_eq] at h
      omega
  · intro row hrow
    obtain ⟨group, -, rfl⟩ := List.mem_map.mp hrow
    exact Breakdown.outcomes_le group

/-! ## Consecutive windows -/

instance : Add RequestOutcomeSummary where
  add s t := {
    completed := s.completed + t.completed
    failed := s.failed + t.failed
    cancelled := s.cancelled + t.cancelled
    timedOut := s.timedOut + t.timedOut
    rejected := s.rejected + t.rejected }

instance : Add TokenSummary where
  add s t := {
    promptTokens := s.promptTokens + t.promptTokens
    completionTokens := s.completionTokens + t.completionTokens
    totalTokens := s.totalTokens + t.totalTokens
    requestsWithUnknownUsage := s.requestsWithUnknownUsage + t.requestsWithUnknownUsage }

/-- The rows of a window are those of its two parts. -/
theorem rowsBetween_perm {a b c : ℤ} (hab : a ≤ b) (hbc : b ≤ c) (table : List UsageRecord) :
    (rowsBetween a c table).Perm (rowsBetween a b table ++ rowsBetween b c table) := by
  have hparts :=
    List.filter_append_perm (fun r : UsageRecord => decide (r.startedAt < b))
    (rowsBetween a c table)
  refine hparts.symm.trans (List.Perm.of_eq ?_)
  unfold rowsBetween
  rw [List.filter_filter, List.filter_filter]
  congr 1
  · apply List.filter_congr
    intro r _
    rw [Bool.eq_iff_iff]
    simp only [Bool.and_eq_true, decide_eq_true_eq]
    omega
  · apply List.filter_congr
    intro r _
    rw [Bool.eq_iff_iff]
    simp only [Bool.and_eq_true, Bool.not_eq_true', decide_eq_true_eq, decide_eq_false_iff_not]
    omega

/-- The figures of a window are those of its two parts together. -/
theorem summary_add {a b c : ℤ} (hab : a ≤ b) (hbc : b ≤ c) (now : ℤ) (table : List UsageRecord)
    (active queued : ℕ) :
    (summary now table (some a) (some c) active queued).requests =
        (summary now table (some a) (some b) active queued).requests +
          (summary now table (some b) (some c) active queued).requests ∧
      (summary now table (some a) (some c) active queued).tokens =
        (summary now table (some a) (some b) active queued).tokens +
          (summary now table (some b) (some c) active queued).tokens := by
  have hperm := rowsBetween_perm hab hbc table
  have hcount : ∀ p : UsageRecord → Bool, (rowsBetween a c table).countP p =
      (rowsBetween a b table).countP p + (rowsBetween b c table).countP p := by
    intro p
    rw [hperm.countP_eq, List.countP_append]
  have hsum : ∀ value : UsageRecord → Option ℤ, ((rowsBetween a c table).filterMap value).sum =
      ((rowsBetween a b table).filterMap value).sum +
          ((rowsBetween b c table).filterMap value).sum := by
    intro value
    rw [(hperm.filterMap value).sum_eq, List.filterMap_append, List.sum_append]
  refine ⟨RequestOutcomeSummary.mk.injEq .. ▸ ?_, TokenSummary.mk.injEq .. ▸ ?_⟩
  · exact ⟨hcount _, hcount _, hcount _, hcount _, hcount _⟩
  · exact ⟨hsum _, hsum _, hsum _, hcount _⟩

/-! ## Agreement -/

/-- The summary and `summarize` report the same figures. -/
structure SameFigures (s : SummaryResponse) (u : UsageSummary) : Prop where
  completed : s.requests.completed = u.successfulRequests
  failed : s.requests.failed = u.failedRequests
  cancelled : s.requests.cancelled = u.cancelledRequests
  timedOut : s.requests.timedOut = u.timedOutRequests
  rejected : s.requests.rejected = u.rejectedRequests
  promptTokens : s.tokens.promptTokens = u.promptTokens
  completionTokens : s.tokens.completionTokens = u.completionTokens
  totalTokens : s.tokens.totalTokens = u.totalTokens
  unknownUsage : s.tokens.requestsWithUnknownUsage = u.requestsWithUnknownUsage
  total : s.requests.total = u.requests

/-- Both summaries have the same figures over one window. -/
theorem sameFigures_summarize (now now' : ℤ) (table : List UsageRecord) (since until' : ℤ)
    (active queued : ℕ) :
    SameFigures (summary now table (some since) (some until') active queued)
      (UsageService.summarize now' table none none (some since) (some until')) := by
  have hall : (rowsBetween since until' table).filter (fun r => r.ofKeyOrClient none none) =
      rowsBetween since until' table := List.filter_eq_self.mpr fun _ _ => rfl
  unfold UsageService.summarize
  dsimp only [Option.getD_some]
  rw [hall]
  exact ⟨rfl, rfl, rfl, rfl, rfl, rfl, rfl, rfl, rfl, sum_outcomes _⟩

/-- **The aggregates of a window agree.** The summary and `summarize` report the same, every
breakdown adds up to it, and so do the summaries of two consecutive windows that make up the window.
-/
theorem aggregates_agree (now now' : ℤ) (table : List UsageRecord) (since until' : ℤ)
    (active queued : ℕ) :
    let s := summary now table (some since) (some until') active queued
    SameFigures s (UsageService.summarize now' table none none (some since) (some until')) ∧
      AddsUp (clientBreakdown now table (some since) (some until')) s ∧
      AddsUp (modelBreakdown now table (some since) (some until')) s ∧
      AddsUp (backendBreakdown now table (some since) (some until')) s ∧
      ∀ middle, since ≤ middle → middle ≤ until' →
        s.requests = (summary now table (some since) (some middle) active queued).requests +
            (summary now table (some middle) (some until') active queued).requests ∧
          s.tokens = (summary now table (some since) (some middle) active queued).tokens +
            (summary now table (some middle) (some until') active queued).tokens :=
  ⟨sameFigures_summarize now now' table since until' active queued,
    addsUp_breakdownBy _ _ _ _ _ _ _, addsUp_breakdownBy _ _ _ _ _ _ _,
      addsUp_breakdownBy _ _ _ _ _ _ _,
    fun _ hsince huntil => summary_add hsince huntil now table active queued⟩

/-- A completed request before midnight and a rejected one after it. -/
theorem aggregates_agree_midnight :
    let table := [{ sampleRow .completed with startedAt := -1 }, sampleRow .rejected]
    (summary 0 table (some (-1)) (some 1) 0 0).requests =
      (summary 0 table (some (-1)) (some 0) 0 0).requests +
          (summary 0 table (some 0) (some 1) 0 0).requests :=
  ((aggregates_agree 0 0 _ (-1) 1 0 0).2.2.2.2 0 (by decide) (by decide)).1

end SynGateway.Services

import Mathlib.Algebra.Order.BigOperators.Group.List
import SynGateway.Services.Observability

/-!
# The metrics endpoint

`prometheus_metrics` of `app/api/admin.py`. The series that it declares as counters come from a
summary without bounds, which is the summary of the current UTC day. So they grow from one scrape to
the next within a day, and start again with the next day: `counters_grow_iff`.
-/

namespace SynGateway.Api.Admin

open SynGateway.Python SynGateway.Services

/-! ## The endpoint -/

/-- What `# TYPE` declares. -/
inductive MetricKind
  | counter
  | gauge
  | summary
deriving DecidableEq, Repr

/-- A `# HELP` line, a `# TYPE` line, and the series that follow, with their values. -/
structure MetricFamily where
  name : String
  help : String
  kind : MetricKind
  samples : List (String × ℚ)

/-- What a scrape finds: the clock, the usage table and the admission controller, and the clock and
the table once more for the second query. -/
structure Scrape where
  now : ℤ
  table : List UsageRecord
  active : ℕ := 0
  queued : ℕ := 0
  laterNow : ℤ
  laterTable : List UsageRecord

/-- The value that `_f(ms and ms / 1000)` prints. -/
def seconds (ms : Option ℤ) : ℚ := (ms.getD 0 : ℚ) / 1000

/-- The series `name{label="value"}`. -/
def series (name label value : String) :
    String := name ++ "\x7b" ++ label ++ "=\"" ++ value ++ "\"\x7d"

/-- The series of the strings without `f` in front, where the braces stay doubled. -/
def doubledSeries (name label value : String) : String :=
  name ++ "\x7b\x7b" ++ label ++ "=\"" ++ value ++ "\"\x7d\x7d"

/-- `prometheus_metrics`. -/
def prometheusMetrics (scrape : Scrape) : List MetricFamily :=
  let summary := summary scrape.now scrape.table none none scrape.active scrape.queued
  let ttftStats := (latencyStats scrape.laterNow scrape.laterTable none none).lookup "ttft_ms"
  [{ name := "syn_requests_total", help := "Total inference requests", kind := .counter
     samples := [
      (series "syn_requests_total" "status" "completed", summary.requests.completed),
      (series "syn_requests_total" "status" "failed", summary.requests.failed),
      (series "syn_requests_total" "status" "cancelled", summary.requests.cancelled),
      (series "syn_requests_total" "status" "timed_out", summary.requests.timedOut),
      (series "syn_requests_total" "status" "rejected", summary.requests.rejected)] },
    { name := "syn_active_requests", help := "Currently active requests", kind := .gauge
      samples := [("syn_active_requests", scrape.active)] },
    { name := "syn_queued_requests", help := "Currently queued requests", kind := .gauge
      samples := [("syn_queued_requests", scrape.queued)] },
    { name := "syn_tokens_total", help := "Total tokens processed", kind := .counter
      samples := [
      (series "syn_tokens_total" "type" "prompt", summary.tokens.promptTokens),
      (series "syn_tokens_total" "type" "completion", summary.tokens.completionTokens),
      (series "syn_tokens_total" "type" "total", summary.tokens.totalTokens)] },
    { name := "syn_request_duration_seconds", help := "Request duration statistics", kind := .summary
      samples := [
      (series "syn_request_duration_seconds" "quantile" "0.5", seconds summary.latency.p50Ms),
      (series "syn_request_duration_seconds" "quantile" "0.95", seconds summary.latency.p95Ms),
      (series "syn_request_duration_seconds" "quantile" "1.0", seconds summary.latency.maxMs)] },
    { name := "syn_ttft_seconds", help := "Time to first token statistics", kind := .summary
      samples := match ttftStats.filter (0 < ·.count) with
        | some stats => [
          (series "syn_ttft_seconds" "quantile" "0.5", seconds stats.p50Ms),
          (series "syn_ttft_seconds" "quantile" "0.95", seconds stats.p95Ms)]
        | none => [
          (doubledSeries "syn_ttft_seconds" "quantile" "0.5", 0),
          (doubledSeries "syn_ttft_seconds" "quantile" "0.95", 0)] }]

/-- The series that are declared as counters. -/
def counters (families : List MetricFamily) : List (String × ℚ) :=
  (families.filter (·.kind = .counter)).flatMap (·.samples)

/-! ## Histories -/

/-- A record with the time it is added at. It has started by then, and its token counts are not
negative. -/
structure Entry where
  addedAt : ℤ
  row : UsageRecord
  started_le : row.startedAt ≤ addedAt
  prompt_nonneg : ∀ n, column row.promptTokens = some n → 0 ≤ n
  completion_nonneg : ∀ n, column row.completionTokens = some n → 0 ≤ n
  total_nonneg : ∀ n, column row.totalTokens = some n → 0 ≤ n

/-- The usage table at a time: all that has been added so far. -/
def tableAt (history : List Entry) (t : ℤ) : List UsageRecord :=
  (history.filter (·.addedAt ≤ t)).map (·.row)

/-- The scrape finds the usage table of the history. -/
def Scrape.Sees (scrape : Scrape) (history : List Entry) :
    Prop := scrape.table = tableAt history scrape.now

/-- Every counter is at least as large in the second scrape as in the first. -/
def CountersGrow (s₁ s₂ : Scrape) : Prop :=
  List.Forall₂ (fun x y => x.1 = y.1 ∧ x.2 ≤ y.2) (counters (prometheusMetrics s₁))
    (counters (prometheusMetrics s₂))

/-! ## The figures of a day -/

/-- What a counter counts. -/
inductive Figure
  | requests (status : Outcome)
  | promptTokens
  | completionTokens
  | totalTokens

/-- All counters, in their order. -/
def Figure.all : List Figure :=
  [.requests .completed, .requests .failed, .requests .cancelled, .requests .timedOut,
    .requests .rejected, .promptTokens, .completionTokens, .totalTokens]

/-- The list has every figure. -/
theorem Figure.mem_all (figure : Figure) : figure ∈ all := by
  rcases figure with (_ | _ | _ | _ | _) | _ | _ | _ <;> simp [all]

/-- The series of a figure. -/
def Figure.series : Figure → String
  | requests .completed => Admin.series "syn_requests_total" "status" "completed"
  | requests .failed => Admin.series "syn_requests_total" "status" "failed"
  | requests .cancelled => Admin.series "syn_requests_total" "status" "cancelled"
  | requests .timedOut => Admin.series "syn_requests_total" "status" "timed_out"
  | requests .rejected => Admin.series "syn_requests_total" "status" "rejected"
  | promptTokens => Admin.series "syn_tokens_total" "type" "prompt"
  | completionTokens => Admin.series "syn_tokens_total" "type" "completion"
  | totalTokens => Admin.series "syn_tokens_total" "type" "total"

/-- The figure over some rows. -/
def Figure.value (rows : List UsageRecord) : Figure → ℤ
  | requests status => rows.countP (·.status = status)
  | promptTokens => (rows.filterMap fun r => column r.promptTokens).sum
  | completionTokens => (rows.filterMap fun r => column r.completionTokens).sum
  | totalTokens => (rows.filterMap fun r => column r.totalTokens).sum

/-- The rows of a UTC day. -/
def rowsOfDay (d : ℤ) (table : List UsageRecord) : List UsageRecord :=
  table.filter fun r => day r.startedAt = d

variable {history : List Entry} {s₁ s₂ : Scrape}

/-- Without bounds the window is the present UTC day. -/
theorem windowRows_today (now : ℤ) (table : List UsageRecord) :
    windowRows now table none none = rowsOfDay (day now) table := by
  unfold windowRows rowsBetween rowsOfDay rangeOr todayRange
  apply List.filter_congr
  intro r _
  rw [Bool.eq_iff_iff]
  unfold dayStart day msPerDay
  simp only [Bool.and_eq_true, decide_eq_true_eq]
  omega

/-- The counters of a scrape are the figures of its day. -/
theorem counters_eq (s : Scrape) : counters (prometheusMetrics s) =
    Figure.all.map fun f => (f.series, ((f.value (rowsOfDay (day s.now) s.table) : ℤ) : ℚ)) := by
  rw [← windowRows_today]
  simp only [Figure.all, List.map_cons, List.map_nil, Figure.value, Int.cast_natCast]
  rfl

/-- The counters grow exactly when every figure of the day does. -/
theorem countersGrow_iff_figures :
    CountersGrow s₁ s₂ ↔ ∀ figure : Figure, figure.value (rowsOfDay (day s₁.now) s₁.table) ≤
      figure.value (rowsOfDay (day s₂.now) s₂.table) := by
  unfold CountersGrow
  rw [counters_eq, counters_eq, List.forall₂_map_left_iff, List.forall₂_map_right_iff,
    List.forall₂_same]
  constructor
  · intro h figure
    exact Int.cast_le.mp (h figure figure.mem_all).2
  · intro h figure _
    exact ⟨rfl, Int.cast_le.mpr (h figure)⟩

/-- With more rows, whose counts are not negative, no figure gets smaller. -/
theorem Figure.value_mono {rows rows' : List UsageRecord} (h : rows.Sublist rows')
    (hnonneg : ∀ r ∈ rows', ∃ e : Entry, e.row = r) (figure : Figure) :
    figure.value rows ≤ figure.value rows' := by
  have hsum : ∀ value : UsageRecord → Option ℤ, (∀ r ∈ rows', ∀ n, value r = some n → 0 ≤ n) →
      (rows.filterMap value).sum ≤ (rows'.filterMap value).sum := by
    intro value hvalue
    refine (h.filterMap value).sum_le_sum fun n hn => ?_
    obtain ⟨r, hr, hrn⟩ := List.mem_filterMap.mp hn
    exact hvalue r hr n hrn
  -- a request count grows with the rows, a token count because no row has a negative one
  cases figure with
  | requests status => exact Int.ofNat_le.mpr h.countP_le
  | promptTokens =>
      refine hsum _ fun r hr => ?_
      obtain ⟨e, rfl⟩ := hnonneg r hr
      exact e.prompt_nonneg
  | completionTokens =>
      refine hsum _ fun r hr => ?_
      obtain ⟨e, rfl⟩ := hnonneg r hr
      exact e.completion_nonneg
  | totalTokens =>
      refine hsum _ fun r hr => ?_
      obtain ⟨e, rfl⟩ := hnonneg r hr
      exact e.total_nonneg

/-! ## Growth -/

/-- Records are only ever added. -/
theorem tableAt_sublist {t₁ t₂ : ℤ} (h : t₁ ≤ t₂) (history : List Entry) :
    (tableAt history t₁).Sublist (tableAt history t₂) := by
  refine (List.monotone_filter_right history fun e he => ?_).map _
  simp only [decide_eq_true_eq] at he ⊢
  omega

/-- The figures of the later scrape's day have caught up with those of the earlier one's. -/
def CaughtUp (history : List Entry) (t₁ t₂ : ℤ) : Prop :=
  ∀ figure : Figure, figure.value (rowsOfDay (day t₁) (tableAt history t₁)) ≤
    figure.value (rowsOfDay (day t₂) (tableAt history t₂))

/-- Within a day the counters grow. -/
theorem countersGrow_of_day_eq (h₁ : s₁.Sees history) (h₂ : s₂.Sees history) (hle : s₁.now ≤ s₂.now)
    (hday : day s₁.now = day s₂.now) : CountersGrow s₁ s₂ := by
  rw [countersGrow_iff_figures, h₁, h₂, hday]
  refine Figure.value_mono ((tableAt_sublist hle history).filter _) fun r hr => ?_
  obtain ⟨e, -, rfl⟩ := List.mem_map.mp (List.mem_filter.mp hr).1
  exact ⟨e, rfl⟩

/-- The record of a completed request that takes no time. -/
def sampleEntry (t : ℤ) : Entry where
  addedAt := t
  row := { sampleRow .completed with startedAt := t }
  started_le := le_refl t
  prompt_nonneg _ h := nomatch h
  completion_nonneg _ h := nomatch h
  total_nonneg _ h := nomatch h

/-- The scrape of a history. -/
def Scrape.of (history : List Entry) (t : ℤ) : Scrape where
  now := t
  table := tableAt history t
  laterNow := t
  laterTable := tableAt history t

/-- A scrape sees the history that it is taken from. -/
theorem sees_of (history : List Entry) (t : ℤ) : (Scrape.of history t).Sees history := rfl

/-- On another day the count of the first day is gone. -/
theorem not_countersGrow_of_day_ne {t₁ t₂ : ℤ} (hday : day t₁ ≠ day t₂) :
    ¬ CountersGrow (.of [sampleEntry t₁] t₁) (.of [sampleEntry t₁] t₂) := by
  rw [countersGrow_iff_figures]
  intro h
  have hfirst : rowsOfDay (day t₁) (tableAt [sampleEntry t₁] t₁) = [(sampleEntry t₁).row] := by
    have htable : tableAt [sampleEntry t₁] t₁ = [(sampleEntry t₁).row] := by
      have hkept : [sampleEntry t₁].filter (·.addedAt ≤ t₁) = [sampleEntry t₁] := by
        refine List.filter_eq_self.mpr fun e he => ?_
        rw [List.mem_singleton.mp he]
        exact decide_eq_true (le_refl t₁)
      rw [tableAt, hkept]
      rfl
    rw [htable]
    exact List.filter_cons_of_pos (decide_eq_true rfl)
  -- on another day the row of the first scrape is not counted any more
  have hsecond : rowsOfDay (day t₂) (tableAt [sampleEntry t₁] t₂) = [] := by
    refine List.filter_eq_nil_iff.mpr fun r hr => ?_
    obtain ⟨e, he, rfl⟩ := List.mem_map.mp hr
    obtain rfl := List.mem_singleton.mp (List.mem_filter.mp he).1
    exact fun heq => hday (of_decide_eq_true heq)
  have hcount := h (.requests .completed)
  change Figure.value (rowsOfDay (day t₁) (tableAt [sampleEntry t₁] t₁)) _ ≤
    Figure.value (rowsOfDay (day t₂) (tableAt [sampleEntry t₁] t₂)) _ at hcount
  rw [hfirst, hsecond] at hcount
  exact absurd (show (1 : ℤ) ≤ 0 from hcount) (by decide)

/-- **The counters grow within a UTC day, and no further.** Of two scrapes of a history, the later
one has no smaller counter exactly if they fall on the same day, or if the later day has caught up
with the earlier one. Whatever the history, they grow exactly if the scrapes fall on the same day.
-/
theorem counters_grow_iff (h₁ : s₁.Sees history) (h₂ : s₂.Sees history) (hle : s₁.now ≤ s₂.now) :
    (CountersGrow s₁ s₂ ↔ day s₁.now = day s₂.now ∨ CaughtUp history s₁.now s₂.now) ∧
      ((∀ (history : List Entry) (s s' : Scrape), s.now = s₁.now → s'.now = s₂.now →
          s.Sees history →
        s'.Sees history → CountersGrow s s') ↔ day s₁.now = day s₂.now) := by
  refine ⟨⟨fun h => .inr ?_, ?_⟩, fun hall => ?_, fun hday history s s' hs hs' hsees hsees' => ?_⟩
  · rw [countersGrow_iff_figures, h₁, h₂] at h
    exact h
  · rintro (hday | hcaught)
    · exact countersGrow_of_day_eq h₁ h₂ hle hday
    · rw [countersGrow_iff_figures, h₁, h₂]
      exact hcaught
  · by_contra hday
    exact not_countersGrow_of_day_ne hday
      (hall _ (.of [sampleEntry s₁.now] s₁.now) (.of [sampleEntry s₁.now] s₂.now) rfl rfl
        (sees_of _ _) (sees_of _ _))
  · rw [← hs, ← hs'] at hday hle
    exact countersGrow_of_day_eq hsees hsees' hle hday

/-- Two scrapes of one day. -/
theorem counters_grow_iff_day : CountersGrow (.of [sampleEntry 5] 0) (.of [sampleEntry 5] 9) :=
  (counters_grow_iff (sees_of _ 0) (sees_of _ 9) (by decide : (0 : ℤ) ≤ 9)).1.mpr (.inl rfl)

/-- A request on the first day, and a scrape at the end of it and on the next day. -/
theorem counters_drop_at_midnight :
    ¬ ∀ (history : List Entry) (s₁ s₂ : Scrape), s₁.Sees history → s₂.Sees history →
      s₁.now ≤ s₂.now →
      CountersGrow s₁ s₂ := by
  intro hall
  exact not_countersGrow_of_day_ne (show day 86399999 ≠ day 86400000 by decide)
    (hall [sampleEntry 86399999] _ _ (sees_of _ _) (sees_of _ _)
      (by decide : (86399999 : ℤ) ≤ 86400000))

end SynGateway.Api.Admin

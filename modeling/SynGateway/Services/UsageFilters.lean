import Mathlib.Algebra.Order.BigOperators.Group.List
import SynGateway.Services.Observability

/-!
# The filters of the usage summary

`UsageService.summarize` takes a key and a client to filter by, and `GET /admin/usage` documents
that it filters by both of them. `summarize` ignores the client when a key is given, so its figures
are those of the records that match all filters exactly if the key has no record of another client
in the window (`honoursFilters_iff`).
-/

namespace SynGateway.Services

open SynGateway.Python

/-- The filters of a summary, `none` for one that is not given. -/
structure UsageFilters where
  apiKeyId : Option String
  clientId : Option String

/-- `started_at` is in the window of a summary. -/
def summaryWindow (now : ℤ) (table : List UsageRecord) (since until' : Option ℤ) :
    List UsageRecord :=
  rowsBetween (since.getD (dayStart now)) (until'.getD (dayStart now + msPerDay)) table

/-- The figures of some rows. -/
def UsageSummary.ofRows (rows : List UsageRecord) : UsageSummary where
  requests := rows.length
  successfulRequests := rows.countP (·.status = .completed)
  failedRequests := rows.countP (·.status = .failed)
  cancelledRequests := rows.countP (·.status = .cancelled)
  rejectedRequests := rows.countP (·.status = .rejected)
  timedOutRequests := rows.countP (·.status = .timedOut)
  requestsWithUnknownUsage := rows.countP UsageRecord.unknownUsage
  promptTokens := (rows.filterMap fun r => column r.promptTokens).sum
  completionTokens := (rows.filterMap fun r => column r.completionTokens).sum
  totalTokens := (rows.filterMap fun r => column r.totalTokens).sum

/-- No figure of `s` is above that of `t`. -/
structure UsageSummary.AtMost (s t : UsageSummary) : Prop where
  requests : s.requests ≤ t.requests
  successfulRequests : s.successfulRequests ≤ t.successfulRequests
  failedRequests : s.failedRequests ≤ t.failedRequests
  cancelledRequests : s.cancelledRequests ≤ t.cancelledRequests
  rejectedRequests : s.rejectedRequests ≤ t.rejectedRequests
  timedOutRequests : s.timedOutRequests ≤ t.timedOutRequests
  requestsWithUnknownUsage : s.requestsWithUnknownUsage ≤ t.requestsWithUnknownUsage
  promptTokens : s.promptTokens ≤ t.promptTokens
  completionTokens : s.completionTokens ≤ t.completionTokens
  totalTokens : s.totalTokens ≤ t.totalTokens

/-- The three token columns. -/
def tokenColumns : List (UsageRecord → Json) :=
  [(·.promptTokens), (·.completionTokens), (·.totalTokens)]

/-- The sum of a token column. -/
def tokenSum (tokens : UsageRecord → Json) (rows : List UsageRecord) : ℤ :=
  (rows.filterMap fun r => column (tokens r)).sum

namespace UsageFilters

/-- The record matches every filter that is given. -/
def keeps (filters : UsageFilters) (r : UsageRecord) : Bool :=
  filters.apiKeyId.all (r.apiKeyId = some ·) && filters.clientId.all (r.clientId = some ·)

/-- What `summarize` keeps with these filters. -/
def keptBySummarize (filters : UsageFilters) (r : UsageRecord) : Bool :=
  r.ofKeyOrClient filters.apiKeyId filters.clientId

/-- `filters` are `fewer` and possibly others. -/
def AddsTo (filters fewer : UsageFilters) : Prop :=
  (fewer.apiKeyId = none ∨ fewer.apiKeyId = filters.apiKeyId) ∧
    (fewer.clientId = none ∨ fewer.clientId = filters.clientId)

/-- The rows that are left out by adding to `fewer`. -/
def leftOut (filters fewer : UsageFilters) (window : List UsageRecord) : List UsageRecord :=
  window.filter fun r => fewer.keeps r && !filters.keeps r

/-- If both filters are given, the rows of the key are rows of the client. -/
def KeyIsOfClient (filters : UsageFilters) (window : List UsageRecord) : Prop :=
  ∀ apiKeyId ∈ filters.apiKeyId, ∀ clientId ∈ filters.clientId, ∀ r ∈ window,
    r.apiKeyId = some apiKeyId → r.clientId = some clientId

/-- What is left out by adding filters has no negative sum of tokens. -/
def LeavesNoDebt (filters : UsageFilters) (window : List UsageRecord) : Prop :=
  ∀ fewer, filters.AddsTo fewer →
    ∀ tokens ∈ tokenColumns, 0 ≤ tokenSum tokens (filters.leftOut fewer window)

variable {filters fewer : UsageFilters} {window : List UsageRecord} {r : UsageRecord}

/-! ## What is kept -/

/-- What both filters keep: the rows of the key that are also of the client. -/
theorem keeps_iff : filters.keeps r = true ↔
    (∀ apiKeyId ∈ filters.apiKeyId, r.apiKeyId = some apiKeyId) ∧
      ∀ clientId ∈ filters.clientId, r.clientId = some clientId := by
  unfold keeps
  rw [Bool.and_eq_true, Option.all_eq_true, Option.all_eq_true]
  simp only [decide_eq_true_eq, Option.mem_def]

/-- What `summarize` keeps: the client is read only without a key. -/
theorem keptBySummarize_iff : filters.keptBySummarize r = true ↔
    (∀ apiKeyId ∈ filters.apiKeyId, r.apiKeyId = some apiKeyId) ∧
      (filters.apiKeyId = none → ∀ clientId ∈ filters.clientId, r.clientId = some clientId) := by
  obtain ⟨_ | apiKeyId, _ | clientId⟩ := filters <;>
    simp [keptBySummarize, UsageRecord.ofKeyOrClient]

/-- What matches all filters is kept. -/
theorem keptBySummarize_of_keeps (h : filters.keeps r = true) :
    filters.keptBySummarize r = true := by
  obtain ⟨hkey, hclient⟩ := keeps_iff.mp h
  exact keptBySummarize_iff.mpr ⟨hkey, fun _ => hclient⟩

/-- More filters keep less. -/
theorem AddsTo.keeps (hadds : filters.AddsTo fewer) (h : filters.keeps r = true) :
    fewer.keeps r = true := by
  obtain ⟨hkey, hclient⟩ := keeps_iff.mp h
  refine keeps_iff.mpr ⟨fun apiKeyId hmem => ?_, fun clientId hmem => ?_⟩
  · rcases hadds.1 with hnone | heq
    · rw [hnone] at hmem
      cases hmem
    · exact hkey apiKeyId (heq ▸ hmem)
  · rcases hadds.2 with hnone | heq
    · rw [hnone] at hmem
      cases hmem
    · exact hclient clientId (heq ▸ hmem)

theorem AddsTo.keyIsOfClient (hadds : filters.AddsTo fewer) (h : filters.KeyIsOfClient window) :
    fewer.KeyIsOfClient window := by
  intro apiKeyId hkey clientId hclient
  rcases hadds.1 with hnone | heqKey
  · rw [hnone] at hkey
    cases hkey
  rcases hadds.2 with hnone | heqClient
  · rw [hnone] at hclient
    cases hclient
  exact h apiKeyId (heqKey ▸ hkey) clientId (heqClient ▸ hclient)

/-- The client filter is needed exactly if the key has a row of another client. -/
theorem keyIsOfClient_iff : filters.KeyIsOfClient window ↔
    ∀ r ∈ window, filters.keptBySummarize r = true → filters.keeps r = true := by
  constructor
  · intro h r hr hkept
    obtain ⟨hkey, hclient⟩ := keptBySummarize_iff.mp hkept
    refine keeps_iff.mpr ⟨hkey, fun clientId hmem => ?_⟩
    rcases hkeyId : filters.apiKeyId with _ | apiKeyId
    · exact hclient hkeyId clientId hmem
    · exact h apiKeyId hkeyId clientId hmem r hr (hkey apiKeyId hkeyId)
  · intro h apiKeyId hkey clientId hclient r hr hrow
    have hkept : filters.keptBySummarize r = true := by
      refine keptBySummarize_iff.mpr ⟨fun apiKeyId' hkey' => ?_, fun hnone => ?_⟩
      · rw [hrow, Option.mem_unique hkey hkey']
      · rw [hnone] at hkey
        cases hkey
    exact (keeps_iff.mp (h r hr hkept)).2 clientId hclient

theorem filter_keeps (window : List UsageRecord) :
    window.filter filters.keeps = (window.filter filters.keptBySummarize).filter filters.keeps := by
  rw [List.filter_filter]
  refine List.filter_congr fun r _ => ?_
  rw [Bool.eq_iff_iff, Bool.and_eq_true]
  exact ⟨fun h => ⟨h, keptBySummarize_of_keeps h⟩, And.left⟩

/-- The figures are those of the matching rows only if no other row is kept. -/
theorem ofRows_eq_iff :
    UsageSummary.ofRows (window.filter filters.keptBySummarize) = .ofRows
      (window.filter filters.keeps) ↔
      filters.KeyIsOfClient window := by
  rw [keyIsOfClient_iff, filter_keeps]
  constructor
  · intro h r hr hkept
    have hlength := congrArg UsageSummary.requests h
    exact List.length_filter_eq_length_iff.mp hlength.symm r (List.mem_filter.mpr ⟨hr, hkept⟩)
  · intro h
    rw [List.filter_eq_self.mpr fun r hr => h r (List.mem_filter.mp hr).1 (List.mem_filter.mp hr).2]

/-! ## What a filter takes away -/

/-- A sum over the rows of fewer filters is that over the rows of all of them and over what they
leave out. -/
theorem tokenSum_leftOut (hadds : filters.AddsTo fewer) (tokens : UsageRecord → Json)
    (window : List UsageRecord) :
    tokenSum tokens (window.filter fewer.keeps) =
      tokenSum tokens (window.filter filters.keeps) + tokenSum tokens
      (filters.leftOut fewer window) := by
  have hkept : (window.filter fewer.keeps).filter filters.keeps = window.filter filters.keeps := by
    rw [List.filter_filter]
    refine List.filter_congr fun r _ => ?_
    rw [Bool.eq_iff_iff, Bool.and_eq_true]
    exact ⟨And.left, fun h => ⟨h, hadds.keeps h⟩⟩
  have hleft : (window.filter fewer.keeps).filter (fun r => !filters.keeps r) =
      filters.leftOut fewer window := by
    rw [List.filter_filter]
    exact List.filter_congr fun r _ => Bool.and_comm _ _
  have hperm := List.filter_append_perm filters.keeps (window.filter fewer.keeps)
  rw [hkept, hleft] at hperm
  unfold tokenSum
  rw [← (hperm.filterMap _).sum_eq, List.filterMap_append, List.sum_append]

/-- Adding filters lowers the counts; it lowers the sums of tokens if what is left out has no
negative sum. -/
theorem atMost_iff (hadds : filters.AddsTo fewer) :
    (UsageSummary.ofRows (window.filter filters.keeps)).AtMost
      (.ofRows (window.filter fewer.keeps)) ↔
      ∀ tokens ∈ tokenColumns, 0 ≤ tokenSum tokens (filters.leftOut fewer window) := by
  have hsub : (window.filter filters.keeps).Sublist (window.filter fewer.keeps) :=
    List.monotone_filter_right _ fun r h => hadds.keeps h
  have hsum : ∀ tokens : UsageRecord → Json,
      tokenSum tokens (window.filter filters.keeps) ≤ tokenSum tokens (window.filter fewer.keeps) ↔
        0 ≤ tokenSum tokens (filters.leftOut fewer window) := fun tokens => by
    rw [tokenSum_leftOut hadds tokens window]
    omega
  constructor
  · intro h tokens hmem
    simp only [tokenColumns, List.mem_cons, List.not_mem_nil, or_false] at hmem
    rcases hmem with rfl | rfl | rfl
    · exact (hsum _).mp h.promptTokens
    · exact (hsum _).mp h.completionTokens
    · exact (hsum _).mp h.totalTokens
  · intro h
    have hle : ∀ tokens ∈ tokenColumns,
        tokenSum tokens (window.filter filters.keeps) ≤
            tokenSum tokens (window.filter fewer.keeps) :=
      fun tokens hmem => (hsum tokens).mpr (h tokens hmem)
    exact {
      requests := hsub.length_le
      successfulRequests := hsub.countP_le
      failedRequests := hsub.countP_le
      cancelledRequests := hsub.countP_le
      rejectedRequests := hsub.countP_le
      timedOutRequests := hsub.countP_le
      requestsWithUnknownUsage := hsub.countP_le
      promptTokens := hle (·.promptTokens) (by simp [tokenColumns])
      completionTokens := hle (·.completionTokens) (by simp [tokenColumns])
      totalTokens := hle (·.totalTokens) (by simp [tokenColumns]) }

/-- Counts of tokens that are not negative leave no debt. -/
theorem leavesNoDebt_of_nonneg
    (h : ∀ r ∈ window, ∀ tokens ∈ tokenColumns, ∀ n ∈ column (tokens r), 0 ≤ n) :
    filters.LeavesNoDebt window := by
  intro fewer _ tokens hmem
  refine List.sum_nonneg fun n hn => ?_
  obtain ⟨r, hr, hcolumn⟩ := List.mem_filterMap.mp hn
  exact h r (List.mem_filter.mp hr).1 tokens hmem n hcolumn

end UsageFilters

/-! ## The summary -/

section Summarize

variable (now : ℤ) (table : List UsageRecord) (since until' : Option ℤ) (filters : UsageFilters)

theorem summarize_eq :
    UsageService.summarize now table filters.apiKeyId filters.clientId since until' =
      .ofRows ((summaryWindow now table since until').filter filters.keptBySummarize) := rfl

/-- The summary has the figures of the rows that match all filters, and no filter raises one of
them. -/
structure HonoursFilters : Prop where
  figures : UsageService.summarize now table filters.apiKeyId filters.clientId since until' =
    .ofRows ((summaryWindow now table since until').filter filters.keeps)
  antitone : ∀ fewer, filters.AddsTo fewer →
    (UsageService.summarize now table filters.apiKeyId filters.clientId since until').AtMost
      (UsageService.summarize now table fewer.apiKeyId fewer.clientId since until')

/-- **When the summary honours its filters.** If a key and a client are given, the key may have no
row of another client in the window; and where counts of tokens can be negative, what is left out
may have no negative sum of them. -/
theorem honoursFilters_iff :
    (HonoursFilters now table since until' filters ↔
      filters.KeyIsOfClient (summaryWindow now table since until') ∧
        filters.LeavesNoDebt (summaryWindow now table since until')) ∧
    ((∀ r ∈ summaryWindow now table since until', ∀ tokens ∈ tokenColumns,
        ∀ n ∈ column (tokens r), 0 ≤ n) →
      (HonoursFilters now table since until' filters ↔
        filters.KeyIsOfClient (summaryWindow now table since until'))) := by
  let window := summaryWindow now table since until'
  have hiff : HonoursFilters now table since until' filters ↔
      filters.KeyIsOfClient window ∧ filters.LeavesNoDebt window := by
    -- without a row of another client, `summarize` agrees with the matching rows for fewer filters
    -- too
    have hatMost : filters.KeyIsOfClient window → ∀ fewer, filters.AddsTo fewer →
        ((UsageService.summarize now table filters.apiKeyId filters.clientId since until').AtMost
            (UsageService.summarize now table fewer.apiKeyId fewer.clientId since until') ↔
          ∀ tokens ∈ tokenColumns, 0 ≤ tokenSum tokens (filters.leftOut fewer window)) := by
      intro hkey fewer hadds
      rw [summarize_eq, summarize_eq, UsageFilters.ofRows_eq_iff.mpr hkey,
        UsageFilters.ofRows_eq_iff.mpr (hadds.keyIsOfClient hkey), UsageFilters.atMost_iff hadds]
    constructor
    · intro h
      have hkey : filters.KeyIsOfClient window := UsageFilters.ofRows_eq_iff.mp h.figures
      exact ⟨hkey, fun fewer hadds => (hatMost hkey fewer hadds).mp (h.antitone fewer hadds)⟩
    · rintro ⟨hkey, hdebt⟩
      exact ⟨UsageFilters.ofRows_eq_iff.mpr hkey,
        fun fewer hadds => (hatMost hkey fewer hadds).mpr (hdebt fewer hadds)⟩
  refine ⟨hiff, fun hnonneg => hiff.trans ?_⟩
  exact and_iff_left (UsageFilters.leavesNoDebt_of_nonneg hnonneg)

end Summarize

/-- A key of the client `c` with one row. -/
theorem honoursFilters_ofKey :
    HonoursFilters 0 [{ sampleRow .completed with clientId := some "c" }] none none
    ⟨some "k", some "c"⟩ :=
  ((honoursFilters_iff 0 [{ sampleRow .completed with clientId := some "c" }] none none
    ⟨some "k", some "c"⟩).2 (by decide)).mpr (by
      rintro _ ⟨⟩ _ ⟨⟩
      decide)

/-- The row of the key `k` is that of no client, and is counted for the client `c`. -/
theorem summarize_ignores_client :
    ¬ ∀ (now : ℤ) (table : List UsageRecord) (since until' : Option ℤ) (filters : UsageFilters),
      HonoursFilters now table since until' filters := by
  intro h
  have hfigures := (h 0 [sampleRow .completed] none none ⟨some "k", some "c"⟩).figures
  exact absurd (congrArg UsageSummary.requests hfigures) (by decide)

end SynGateway.Services

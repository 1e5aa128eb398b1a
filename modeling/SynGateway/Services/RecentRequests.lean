import SynGateway.Services.Observability

/-!
# Recent requests

`recent_requests` of `app/services/observability.py`: the rows of a window, newest first, up to a
limit. The service takes the lower of the limit and 200 and leaves the rest to the database, for
which a negative limit is none at all. So the cap holds exactly for the limits that are not negative
(`recent_capped_iff`).
-/

namespace SynGateway.Services

open SynGateway.Python

/-- The member's value. -/
def outcomeValue : Outcome → String
  | .completed => "completed"
  | .failed => "failed"
  | .cancelled => "cancelled"
  | .timedOut => "timed_out"
  | .rejected => "rejected"

/-- `RecentRequest`. -/
structure RecentRequest where
  requestId : String
  clientId : Option String
  model : Str
  streaming : Bool
  status : String
  errorCode : Option String
  startedAt : ℤ
  completedAt : ℤ
  totalDurationMs : Option ℤ
  ttftMs : Option ℤ
  totalTokens : Option ℤ
  queueWaitMs : Option ℤ

/-- The row as it is shown. -/
def RecentRequest.ofRecord (r : UsageRecord) : RecentRequest where
  requestId := r.requestId
  clientId := r.clientId
  model := r.model
  streaming := r.streaming
  status := outcomeValue r.status
  errorCode := r.errorCode
  startedAt := r.startedAt
  completedAt := r.completedAt
  totalDurationMs := r.totalDurationMs
  ttftMs := r.ttftMs
  totalTokens := column r.totalTokens
  queueWaitMs := r.queueWaitMs

/-- `order_by(started_at.desc())`. Rows of one time come as in the table, which may be any list. -/
def newestFirst (rows : List UsageRecord) : List UsageRecord :=
  rows.mergeSort fun r s => s.startedAt ≤ r.startedAt

/-- `LIMIT n`: for a negative number, all the rows. -/
def sqlLimit {α : Type} (n : ℤ) (rows : List α) :
    List α := if n < 0 then rows else rows.take n.toNat

/-- `recent_requests`. -/
def recentRequests (now : ℤ) (table : List UsageRecord) (limit : ℤ) (since until' : Option ℤ) :
    List RecentRequest :=
  let limit := min limit 200
  (sqlLimit limit (newestFirst (windowRows now table since until'))).map RecentRequest.ofRecord

/-! ## The limit of a query -/

theorem sqlLimit_of_neg {α : Type} {n : ℤ} (hn : n < 0) (rows : List α) :
    sqlLimit n rows = rows := if_pos hn

theorem sqlLimit_of_nonneg {α : Type} {n : ℤ} (hn : 0 ≤ n) (rows : List α) :
    sqlLimit n rows = rows.take n.toNat :=
  if_neg (not_lt.mpr hn)

/-- What a limit returns is the beginning of the rows, whatever the limit. -/
theorem exists_sqlLimit {α : Type} (n : ℤ) (rows : List α) :
    ∃ rest, sqlLimit n rows ++ rest = rows := by
  rcases lt_or_ge n 0 with hn | hn
  · exact ⟨[], by rw [sqlLimit_of_neg hn, List.append_nil]⟩
  · exact ⟨rows.drop n.toNat, by rw [sqlLimit_of_nonneg hn, List.take_append_drop]⟩

theorem length_sqlLimit_le {α : Type} {n : ℤ} (hn : 0 ≤ n) (rows : List α) :
    ((sqlLimit n rows).length : ℤ) ≤ n := by
  have htake := List.length_take_le n.toNat rows
  rw [sqlLimit_of_nonneg hn]
  omega

/-! ## The rows returned -/

/-- Some rows, newest first, and none of the others is newer. -/
structure Newest (rows others : List UsageRecord) : Prop where
  ordered : rows.Pairwise fun r s => s.startedAt ≤ r.startedAt
  newest : ∀ r ∈ rows, ∀ s ∈ others, s.startedAt ≤ r.startedAt

theorem pairwise_newestFirst (rows : List UsageRecord) :
    (newestFirst rows).Pairwise fun r s => s.startedAt ≤ r.startedAt := by
  unfold newestFirst
  refine (List.pairwise_mergeSort ?_ ?_ rows).imp of_decide_eq_true
  · intro r s t hrs hst
    rw [decide_eq_true_eq] at hrs hst ⊢
    exact hst.trans hrs
  · intro r s
    rw [Bool.or_eq_true, decide_eq_true_eq, decide_eq_true_eq]
    exact le_total _ _

/-- A beginning of the sorted rows holds the newest. -/
theorem Newest.of_append {rows others all : List UsageRecord}
    (h : rows ++ others = newestFirst all) :
    Newest rows others := by
  have hsorted := pairwise_newestFirst all
  rw [← h, List.pairwise_append] at hsorted
  exact ⟨hsorted.1, hsorted.2.2⟩

/-- At most as many rows as the limit, and 200, allow; they are the newest of the window. -/
def RecentCapped (now : ℤ) (table : List UsageRecord) (limit : ℤ) (since until' : Option ℤ) :
    Prop :=
  ((recentRequests now table limit since until').length : ℤ) ≤ min (max limit 0) 200 ∧
  ∃ rows others, recentRequests now table limit since until' = rows.map RecentRequest.ofRecord ∧
    (rows ++ others).Perm (windowRows now table since until') ∧ Newest rows others

/-- The rows returned are the newest of the window, for every limit. -/
theorem recentRequests_newest (now : ℤ) (table : List UsageRecord) (limit : ℤ)
    (since until' : Option ℤ) :
    ∃ rows others, recentRequests now table limit since until' = rows.map RecentRequest.ofRecord ∧
      (rows ++ others).Perm (windowRows now table since until') ∧ Newest rows others := by
  obtain ⟨others, hothers⟩ :=
    exists_sqlLimit (min limit 200) (newestFirst (windowRows now table since until'))
  refine ⟨_, others, rfl, ?_, Newest.of_append hothers⟩
  rw [hothers]
  exact List.mergeSort_perm _ _

/-- **The cap on recent requests** holds exactly if the limit is not negative, or there is nothing
to show. -/
theorem recent_capped_iff (now : ℤ) (table : List UsageRecord) (limit : ℤ)
    (since until' : Option ℤ) :
    RecentCapped now table limit since until' ↔
    0 ≤ limit ∨ windowRows now table since until' = [] := by
  have hnewest := recentRequests_newest now table limit since until'
  unfold RecentCapped
  rw [and_iff_left hnewest]
  unfold recentRequests
  rw [List.length_map]
  rcases lt_or_ge limit 0 with hneg | hnonneg
  · have hlength : (newestFirst (windowRows now table since until')).length =
        (windowRows now table since until').length := List.length_mergeSort _
    rw [sqlLimit_of_neg (by omega), hlength, max_eq_right hneg.le, ← List.length_eq_zero_iff]
    omega
  · refine iff_of_true ?_ (.inl hnonneg)
    rw [max_eq_left hnonneg]
    exact length_sqlLimit_le (by omega) _

/-- With the limit -1 a row is returned, where none may be. -/
theorem recent_uncapped :
    ¬ ∀ now table limit since until', RecentCapped now table limit since until' := by
  intro hall
  have hrows : windowRows 0 [sampleRow .completed] none none = [sampleRow .completed] := rfl
  have hlength := (hall 0 [sampleRow .completed] (-1) none none).1
  unfold recentRequests newestFirst at hlength
  rw [hrows, List.mergeSort_singleton] at hlength
  exact absurd hlength (by decide)

end SynGateway.Services

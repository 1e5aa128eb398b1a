import SynGateway.Common.Markup
import SynGateway.Python.JsonRoundTrip
import SynGateway.Python.Text
import SynGateway.Services.RecentRequests

/-!
# The dashboard

`_render_dashboard` of `app/api/admin.py`, with the requests that `recent_requests` gives it, and
the request ids that `app/core/request_id.py` lets pass.

The rows of the page hold the request id, the model and the error code as they are. So the markup of
the page is its own exactly if none of them has an angle bracket (`markup_fixed_iff`), and the
request id is chosen by the client.
-/

namespace SynGateway.Api.Admin

open SynGateway.Markup SynGateway.Python SynGateway.Services

/-! ## Request ids -/

/-- `_sanitize`. -/
def sanitize : Option Text → Option Text
  | none => none
  | some value =>
    if value = [] then none
    else
      let value := strip value
      if value = [] ∨ 64 < value.length ∨ value.any isSpace then none else some value

/-! ## The page -/

/-- The arguments of `_render_dashboard`. -/
structure DashboardData where
  summary : SummaryResponse
  latencyStats : List (String × LatencyStats)
  recent : List RecentRequest
  backendState : String
  backendReachable : Bool
  active : ℕ
  queued : ℕ
  maxActive : ℕ
  maxQueue : ℕ

/-- `_ms`. -/
def ms : Option ℤ → String
  | none => "-"
  | some v => toString v ++ "ms"

/-- `_cls`. -/
def statusClass (status : String) : String :=
  (([("completed", "ok"), ("failed", "err"), ("cancelled", "warn"), ("timed_out", "warn"),
    ("rejected", "err")] : List (String × String)).lookup status).getD ""

/-- Two decimal digits. -/
def twoDigits (n : ℤ) : String := (if n < 10 then "0" else "") ++ toString n

/-- `strftime("%H:%M:%S")`. -/
def clockTime (t : ℤ) : String :=
  let second := t % msPerDay / 1000
  twoDigits (second / 3600) ++ ":" ++ twoDigits (second / 60 % 60) ++ ":" ++ twoDigits (second % 60)

/-- Digits in groups of three, from the last one. -/
def groupsOfThree : Text → Text
  | a :: b :: c :: d :: digits => a :: b :: c :: ',' :: groupsOfThree (d :: digits)
  | digits => digits

/-- The format `{n:,}`. -/
def thousands (n : ℤ) : String :=
  (if n < 0 then "-" else "") ++
    String.ofList (groupsOfThree (toString n.natAbs).toList.reverse).reverse

/-- `value or '-'`. -/
def orDash (value : Option String) : String :=
  match value with
  | none => "-"
  | some value => if value = "" then "-" else value

/-- What stands between the request id and the model. -/
def betweenIdAndModel (r : RecentRequest) : Str :=
  Str.ofString ("...</td>\n            <td>" ++ clockTime r.startedAt) ++
    Str.ofString "</td>\n            <td>"

/-- What stands between the model and the error code. -/
def betweenModelAndError (r : RecentRequest) : Str :=
  Str.ofString ("</td>\n            <td>" ++ (if r.streaming then "S" else "NS") ++
    "</td>\n            <td class=\"" ++ statusClass r.status ++ "\">" ++ r.status) ++
    Str.ofString "</td>\n            <td>"

/-- What stands behind the error code. -/
def behindError (r : RecentRequest) : Str :=
  Str.ofString ("</td>\n            <td>" ++ ms r.totalDurationMs ++ "</td>\n            <td>" ++
    ms r.ttftMs ++
    "</td>\n            <td>" ++ (r.totalTokens.map toString).getD "-") ++
    Str.ofString "</td>\n        </tr>"

/-- The row of a request: its id cut off at twelve characters, its model and its error code, as they
are. -/
def renderRow (r : RecentRequest) : Str :=
  Str.ofString "<tr>\n            <td>" ++ (Str.ofString r.requestId).take 12 ++
    betweenIdAndModel r ++
    r.model ++ betweenModelAndError r ++ Str.ofString (orDash r.errorCode) ++ behindError r

/-- The style sheet. -/
def styleLines : List String :=
  ["<style>",
    "* \x7b margin: 0; padding: 0; box-sizing: border-box; \x7d",
    "body \x7b font-family: -apple-system, BlinkMacSystemFont, 'Segoe UI', sans-serif; background: #0d1117; " ++
      "color: #c9d1d9; padding: 20px; \x7d",
    "h1 \x7b color: #58a6ff; margin-bottom: 16px; font-size: 1.4em; \x7d",
    ".cards \x7b display: grid; grid-template-columns: repeat(auto-fill, minmax(200px, 1fr)); gap: 12px; " ++
      "margin-bottom: 20px; \x7d",
    ".card \x7b background: #161b22; border: 1px solid #30363d; border-radius: 6px; padding: 14px; \x7d",
    ".card .label \x7b font-size: 0.75em; color: #8b949e; text-transform: uppercase; letter-spacing: 0.05em; " ++
      "display: block; \x7d",
    ".card .value \x7b font-size: 1.5em; font-weight: 600; margin-top: 4px; \x7d",
    ".card .value.ok \x7b color: #3fb950; \x7d",
    ".card .value.err \x7b color: #f85149; \x7d",
    ".card .value.warn \x7b color: #d29922; \x7d",
    "h2 \x7b color: #58a6ff; font-size: 1.1em; margin: 20px 0 10px; \x7d",
    "table \x7b width: 100%; border-collapse: collapse; background: #161b22; border: 1px solid #30363d; " ++
      "border-radius: 6px; overflow: hidden; font-size: 0.85em; \x7d",
    "th \x7b background: #21262d; color: #8b949e; text-align: left; padding: 8px 10px; font-weight: 500; \x7d",
    "td \x7b padding: 6px 10px; border-top: 1px solid #21262d; \x7d",
    ".ok \x7b color: #3fb950; \x7d",
    ".err \x7b color: #f85149; \x7d",
    ".warn \x7b color: #d29922; \x7d",
    ".meta \x7b color: #8b949e; font-size: 0.8em; margin-top: 20px; \x7d",
    "</style>"]

/-- A label and its value. -/
def figureLines (label cls value : String) : List String :=
  ["    <div class=\"label\">" ++ label ++ "</div>",
    "    <div class=\"" ++ cls ++ "\">" ++ value ++ "</div>"]

/-- A card. -/
def cardLines (label cls value : String) : List String :=
  ["  <div class=\"card\">"] ++ figureLines label cls value ++ ["  </div>"]

/-- The page up to the rows. Most of the latency cards are not closed. -/
def headLines (d : DashboardData) : List String :=
  ["<!DOCTYPE html>", "<html lang=\"en\">", "<head>", "<meta charset=\"utf-8\">",
    "<meta name=\"viewport\" content=\"width=device-width, initial-scale=1\">",
    "<title>Syn Admin Dashboard</title>"] ++ styleLines ++
  ["</head>", "<body>", "<h1>Syn Admin Dashboard</h1>", "<div class=\"cards\">"] ++
  cardLines "Service" "value ok" "Running" ++
  cardLines "Backend" ("value " ++ if d.backendReachable then "ok" else "err") d.backendState ++
  cardLines "Active" "value blue" (toString d.active ++ "/" ++ toString d.maxActive) ++
  cardLines "Queued" "value blue" (toString d.queued ++ "/" ++ toString d.maxQueue) ++
  ["</div>", "<div class=\"cards\">"] ++
  cardLines "Completed" "value ok" (toString d.summary.requests.completed) ++
  cardLines "Failed" "value err" (toString d.summary.requests.failed) ++
  cardLines "Cancelled" "value warn" (toString d.summary.requests.cancelled) ++
  cardLines "Rejected" "value err"
    (toString (d.summary.requests.rejected + d.summary.requests.timedOut)) ++
  ["</div>", "<div class=\"cards\">"] ++
  cardLines "Prompt Tokens" "value blue" (thousands d.summary.tokens.promptTokens) ++
  cardLines "Completion Tokens" "value blue" (thousands d.summary.tokens.completionTokens) ++
  cardLines "Total Tokens" "value blue" (thousands d.summary.tokens.totalTokens) ++
  ["</div>", "<div class=\"cards\">", "  <div class=\"label\">Avg Latency</div>",
    "    <div class=\"value blue\">" ++ ms d.summary.latency.avgMs ++ "</div>",
      "  <div class=\"card\">"] ++
  figureLines "P50 Latency" "value blue" (ms d.summary.latency.p50Ms) ++
    ["  <div class=\"card\">"] ++
  figureLines "P95 Latency" "value blue" (ms d.summary.latency.p95Ms) ++
    ["  <div class=\"card\">"] ++
  figureLines "Avg TTFT" "value blue" (ms ((d.latencyStats.lookup "ttft_ms").bind (·.avgMs))) ++
  ["  </div>", "", "<h2>Recent Requests</h2>", "<table>", "<thead>",
    "<tr><th>Request ID</th><th>Time</th><th>Model</th><th>Stream</th><th>Status</th><th>Error</th>" ++
      "<th>Duration</th><th>TTFT</th><th>Tokens</th></tr>",
    "</thead>", ""]

/-- The page behind the rows. -/
def tailLines : List String :=
  ["</tbody>", "</table>", "",
    "<div class=\"meta\">Auto-refreshes every 5 seconds. All times UTC.</div>", "</body>", ""]

/-- The row of an empty table. -/
def noRequestsRow : String :=
  "<tr><td colspan=\"9\" style=\"text-align:center;color:#8b949e;\">No requests yet</td></tr>"

/-- `_render_dashboard`. -/
def renderDashboard (d : DashboardData) : Str :=
  let rows := d.recent.flatMap renderRow
  Str.ofString ("\n".intercalate (headLines d)) ++ Str.ofString "<tbody>" ++
    (if rows = [] then Str.ofString noRequestsRow else rows) ++
      Str.ofString ("\n".intercalate tailLines) ++
    Str.ofString "</html>"

/-! ## The page as inserted strings -/

abbrev lt : CodePoint := .ofChar '<'

abbrev gt : CodePoint := .ofChar '>'

/-- The strings of a row, each behind its part of the template. -/
def rowSegments (r : RecentRequest) : List (Segment CodePoint) :=
  [⟨Str.ofString "<tr>\n            <td>", (Str.ofString r.requestId).take 12⟩,
    ⟨betweenIdAndModel r, r.model⟩,
    ⟨betweenModelAndError r, Str.ofString (orDash r.errorCode)⟩,
    ⟨behindError r, []⟩]

/-- The strings of a page with rows. -/
def pageSegments (d : DashboardData) : List (Segment CodePoint) :=
  ⟨Str.ofString ("\n".intercalate (headLines d)) ++ Str.ofString "<tbody>", []⟩ ::
    (d.recent.flatMap rowSegments ++
      [⟨Str.ofString ("\n".intercalate tailLines) ++ Str.ofString "</html>", []⟩])

/-- A row is the text of its segments. -/
theorem renderRow_eq (r : RecentRequest) : renderRow r = text (rowSegments r) := by
  unfold renderRow rowSegments
  simp only [text_cons, List.append_assoc, List.nil_append]
  exact congrArg _ (congrArg _ (congrArg _ (congrArg _ (congrArg _
    (congrArg _ (List.append_nil _).symm)))))

/-- No row is empty, so the note about missing requests never stands beside one. -/
theorem renderRow_ne_nil (r : RecentRequest) : renderRow r ≠ [] := by
  have htr : Str.ofString "<tr>\n            <td>" ≠ [] := List.cons_ne_nil _ _
  rw [renderRow_eq, rowSegments, text_cons]
  exact List.append_ne_nil_of_left_ne_nil htr _

/-- A page with recent requests is the text of its segments. -/
theorem renderDashboard_eq {d : DashboardData} (hrecent : d.recent ≠ []) :
    renderDashboard d = text (pageSegments d) := by
  have hrows : d.recent.flatMap renderRow = text (d.recent.flatMap rowSegments) := by
    rw [text, List.flatMap_assoc]
    exact congrArg (fun f => d.recent.flatMap f) (funext renderRow_eq)
  have hne : d.recent.flatMap renderRow ≠ [] := by
    obtain ⟨r, recent, hr⟩ := List.exists_cons_of_ne_nil hrecent
    rw [hr, List.flatMap_cons]
    exact List.append_ne_nil_of_left_ne_nil (renderRow_ne_nil r) _
  unfold renderDashboard pageSegments
  dsimp only
  rw [if_neg hne, hrows]
  generalize Str.ofString ("\n".intercalate (headLines d)) ++ Str.ofString "<tbody>" = head
  simp only [text, List.flatMap_append, List.flatMap_cons, List.flatMap_nil, List.append_assoc,
    List.append_nil]

/-- Every string stands behind a tag. -/
theorem closed_pageSegments (d : DashboardData) : ∀ s ∈ pageSegments d, Closed gt s.fixed := by
  have htd : Closed gt (Str.ofString "</td>\n            <td>") :=
    ⟨Str.ofString "</td>\n            <td", rfl⟩
  have hrow : ∀ r, ∀ s ∈ rowSegments r, Closed gt s.fixed := by
    intro r s hs
    unfold rowSegments at hs
    simp only [List.mem_cons, List.not_mem_nil, or_false] at hs
    rcases hs with rfl | rfl | rfl | rfl
    · exact ⟨Str.ofString "<tr>\n            <td", rfl⟩
    · exact htd.append _
    · exact htd.append _
    · exact Closed.append ⟨Str.ofString "</td>\n        </tr", rfl⟩ _
  -- between two slots the page writes a whole tag, so no slot stands inside one
  intro s hs
  unfold pageSegments at hs
  rcases List.mem_cons.mp hs with rfl | hs
  · exact Closed.append ⟨Str.ofString "<tbody", rfl⟩ _
  · rcases List.mem_append.mp hs with hs | hs
    · obtain ⟨r, -, hs⟩ := List.mem_flatMap.mp hs
      exact hrow r s hs
    · rw [List.mem_singleton.mp hs]
      exact Closed.append ⟨Str.ofString "</html", rfl⟩ _

/-! ## Replaced strings -/

/-- An alphanumeric string. -/
def Alphanumeric (s : Str) :
    Prop := ∀ p ∈ s, ∃ c : Char, c.isAlphanum = true ∧ p = CodePoint.ofChar c

/-- `s'` is an alphanumeric string of the length of `s`. -/
def StandsFor (s s' : Str) : Prop := s'.length = s.length ∧ Alphanumeric s'

/-- The same request, with alphanumeric strings in the place of its request id, its model and its
error code. -/
structure Replaces (r r' : RecentRequest) : Prop where
  requestId : StandsFor (Str.ofString r.requestId) (Str.ofString r'.requestId)
  model : StandsFor r.model r'.model
  errorCode : Option.Rel (fun e e' => StandsFor (Str.ofString e) (Str.ofString e')) r.errorCode
    r'.errorCode
  others : r' = { r with requestId := r'.requestId, model := r'.model, errorCode := r'.errorCode }

/-- The markup of the page does not depend on the strings of its rows: the same tags in the same
order, and the same angle brackets, when alphanumeric strings of the same length take their places.
-/
def MarkupFixed (d : DashboardData) : Prop :=
  ∀ recent, List.Forall₂ Replaces d.recent recent →
    tags lt gt (renderDashboard d) = tags lt gt (renderDashboard { d with recent }) ∧
      brackets lt gt (renderDashboard d) = brackets lt gt (renderDashboard { d with recent })

/-- What the row shows of the request has no angle bracket. -/
structure Harmless (r : RecentRequest) : Prop where
  requestId : Plain lt gt ((Str.ofString r.requestId).take 12)
  model : Plain lt gt r.model
  errorCode : ∀ e ∈ r.errorCode, Plain lt gt (Str.ofString e)

/-- Letters and digits open and close no tag. -/
theorem Alphanumeric.plain {s : Str} (h : Alphanumeric s) : Plain lt gt s := by
  intro p hp
  obtain ⟨c, hc, rfl⟩ := h p hp
  have hne : ∀ b : Char, b.isAlphanum = false → CodePoint.ofChar c ≠ CodePoint.ofChar b := by
    intro b hb heq
    rw [ofChar_injective heq, hb] at hc
    cases hc
  unfold isBracket
  simp only [Bool.or_eq_false_iff, decide_eq_false_iff_not]
  exact ⟨hne '<' rfl, hne '>' rfl⟩

/-- The dash of a missing error code opens and closes no tag. -/
theorem plain_orDash {errorCode : Option String} :
    Plain lt gt (Str.ofString (orDash errorCode)) ↔
    ∀ e ∈ errorCode, Plain lt gt (Str.ofString e) := by
  have hdash : Plain lt gt (Str.ofString "-") := by
    intro p hp
    rw [List.mem_singleton.mp hp]
    rfl
  cases errorCode with
  | none => exact iff_of_true hdash fun e he => nomatch he
  | some e =>
      unfold orDash
      dsimp only
      -- an empty code is falsy, and shown as the dash too
      by_cases hempty : e = ""
      · rw [if_pos hempty]
        refine iff_of_true hdash fun e' he' => ?_
        rw [← Option.some.inj he', hempty]
        exact fun p hp => nomatch hp
      · rw [if_neg hempty]
        simp

/-- The strings of a row have no brackets when the row is harmless. -/
theorem harmless_iff (r : RecentRequest) :
    Harmless r ↔ ∀ s ∈ rowSegments r, Plain lt gt s.slot := by
  unfold rowSegments
  simp only [List.forall_mem_cons]
  rw [plain_orDash]
  constructor
  · intro h
    exact ⟨h.requestId, h.model, h.errorCode, List.forall_mem_nil _, List.forall_mem_nil _⟩
  · intro h
    obtain ⟨hid, hmodel, herror, -⟩ := h
    exact ⟨hid, hmodel, herror⟩

/-- Rows whose free texts are replaced have the same fixed segments. -/
theorem Replaces.same {r r' : RecentRequest} (h : Replaces r r') :
    Same lt gt (rowSegments r) (rowSegments r') := by
  have herror : Plain lt gt (Str.ofString (orDash r'.errorCode)) := by
    refine plain_orDash.mpr fun e' he' => ?_
    have hrel := h.errorCode
    rw [show r'.errorCode = some e' from he'] at hrel
    revert hrel
    generalize r.errorCode = errorCode
    intro hrel
    cases hrel with
    | some hstands => exact hstands.2.plain
  have hnone : Plain lt gt [] := fun p hp => nomatch hp
  -- what is fixed in a row depends on the fields that the two requests share
  refine .cons ⟨rfl, fun p hp => h.requestId.2.plain p (List.mem_of_mem_take hp)⟩
    (.cons ⟨?_, h.model.2.plain⟩ (.cons ⟨?_, herror⟩ (.cons ⟨?_, hnone⟩ .nil)))
  · rw [h.others]
    rfl
  · rw [h.others]
    rfl
  · rw [h.others]
    rfl

/-- Pages whose free texts are replaced have the same fixed segments. -/
theorem same_pageSegments {d : DashboardData} {recent : List RecentRequest}
    (h : List.Forall₂ Replaces d.recent recent) :
    Same lt gt (pageSegments d) (pageSegments { d with recent }) := by
  have hnone : Plain lt gt [] := fun p hp => nomatch hp
  have hrows : Same lt gt (d.recent.flatMap rowSegments) (recent.flatMap rowSegments) :=
    List.rel_flatMap h fun _ _ h => h.same
  exact .cons ⟨rfl, hnone⟩ (List.rel_append hrows (.cons ⟨rfl, hnone⟩ .nil))

/-- The slots of a page are plain exactly when its recent requests are harmless. -/
theorem harmless_of_pageSegments {d : DashboardData} :
    (∀ r ∈ d.recent, Harmless r) ↔ ∀ s ∈ pageSegments d, Plain lt gt s.slot := by
  have hnone : Plain lt gt [] := fun p hp => nomatch hp
  unfold pageSegments
  constructor
  · intro h s hs
    rcases List.mem_cons.mp hs with rfl | hs
    · exact hnone
    · rcases List.mem_append.mp hs with hs | hs
      · obtain ⟨r, hr, hs⟩ := List.mem_flatMap.mp hs
        exact (harmless_iff r).mp (h r hr) s hs
      · rw [List.mem_singleton.mp hs]
        exact hnone
  · intro h r hr
    refine (harmless_iff r).mpr fun s hs => h s ?_
    exact List.mem_cons_of_mem _ (List.mem_append_left _ (List.mem_flatMap.mpr ⟨r, hr, hs⟩))

/-- The letter `a`, as often as the string is long. -/
def letters (s : Str) : String := String.ofList (List.replicate s.length 'a')

/-- Plain letters in the place of every character. -/
theorem standsFor_letters (s : Str) : StandsFor s (Str.ofString (letters s)) := by
  have hletters : Str.ofString (letters s) = List.replicate s.length (CodePoint.ofChar 'a') := by
    unfold Str.ofString letters Str.ofText
    rw [String.toList_ofList, List.map_replicate]
  rw [hletters]
  refine ⟨List.length_replicate, fun p hp => ⟨'a', rfl, List.eq_of_mem_replicate hp⟩⟩

/-- Some strings to put in the place of those of a request. -/
theorem exists_replaces (r : RecentRequest) : ∃ r', Replaces r r' := by
  refine ⟨{ r with
    requestId := letters (Str.ofString r.requestId), model := Str.ofString (letters r.model)
    errorCode := r.errorCode.map fun e => letters (Str.ofString e) }, ?_⟩
  refine ⟨standsFor_letters _, standsFor_letters _, ?_, rfl⟩
  cases r.errorCode with
  | none => exact .none
  | some e => exact .some (standsFor_letters _)

/-- **The markup of the dashboard is its own exactly if no request has an angle bracket** in its
model, in its error code or in the first twelve characters of its id. -/
theorem markup_fixed_iff (d : DashboardData) : MarkupFixed d ↔ ∀ r ∈ d.recent, Harmless r := by
  by_cases hrecent : d.recent = []
  · refine iff_of_true (fun recent h => ?_) fun r hr => absurd (hrecent ▸ hr) List.not_mem_nil
    rw [hrecent, List.forall₂_nil_left_iff] at h
    rw [h, ← hrecent]
    exact ⟨rfl, rfl⟩
  -- without requests the page has another row, so this is about lists that are not empty
  have hpage : ∀ {recent}, List.Forall₂ Replaces d.recent recent →
      renderDashboard { d with recent } = text (pageSegments { d with recent }) := by
    intro recent h
    refine renderDashboard_eq fun hnil => hrecent ?_
    rw [show recent = [] from hnil, List.forall₂_nil_right_iff] at h
    exact h
  rw [harmless_of_pageSegments]
  constructor
  · intro h
    -- there is a replacement, and it has no brackets
    obtain ⟨recent, hreplaces⟩ : ∃ recent, List.Forall₂ Replaces d.recent recent := by
      generalize d.recent = requests
      induction requests with
      | nil => exact ⟨[], .nil⟩
      | cons r requests ih =>
          obtain ⟨r', hr⟩ := exists_replaces r
          obtain ⟨recent, hrest⟩ := ih
          exact ⟨r' :: recent, .cons hr hrest⟩
    have hbrackets := (h recent hreplaces).2
    rw [renderDashboard_eq hrecent, hpage hreplaces] at hbrackets
    exact plain_of_brackets_eq (same_pageSegments hreplaces) hbrackets
  · intro h recent hreplaces
    have hsame := same_pageSegments hreplaces
    rw [renderDashboard_eq hrecent, hpage hreplaces]
    exact ⟨hsame.tags_eq (by decide) (closed_pageSegments d) h, hsame.brackets_eq h⟩

/-- The dashboard after one request. -/
def sampleDashboard (requestId : String) : DashboardData where
  summary := summary 0 [] none none 0 0
  latencyStats := []
  recent := recentRequests 0 [{ sampleRow .completed with requestId }] 20 none none
  backendState := "healthy"
  backendReachable := true
  active := 0
  queued := 0
  maxActive := 1
  maxQueue := 1

/-- A client may choose a request id that is a tag. -/
theorem markup_injected :
    ¬ ∀ d : DashboardData, (∀ r ∈ d.recent, ∃ header,
        sanitize (some header) = some r.requestId.toList) →
      MarkupFixed d := by
  intro hall
  have hrecent : (sampleDashboard "<script>").recent.map (·.requestId) = ["<script>"] := by
    have hrows : windowRows 0 [{ sampleRow .completed with requestId := "<script>" }] none none =
        [{ sampleRow .completed with requestId := "<script>" }] := rfl
    unfold sampleDashboard recentRequests newestFirst
    rw [hrows, List.mergeSort_singleton]
    rfl
  have hsanitize : sanitize (some "<script>".toList) = some "<script>".toList := by decide
  have hid : ∀ r ∈ (sampleDashboard "<script>").recent, r.requestId = "<script>" := fun r hr =>
    List.mem_singleton.mp (hrecent ▸ List.mem_map_of_mem hr)
  have hfixed := hall (sampleDashboard "<script>") fun r hr => ⟨_, (hid r hr).symm ▸ hsanitize⟩
  obtain ⟨r, hr, heq⟩ := List.mem_map.mp (hrecent ▸ List.mem_singleton_self "<script>")
  have hplain := ((markup_fixed_iff _).mp hfixed r hr).requestId lt
  rw [heq] at hplain
  exact absurd (hplain List.mem_cons_self) (by decide)

end SynGateway.Api.Admin

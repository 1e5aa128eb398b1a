import Mathlib.Data.List.ReduceOption
import SynGateway.Api.Admin.Metrics
import SynGateway.Common.Exposition
import SynGateway.Python.Float

/-!
# The text of the metrics endpoint

What `prometheus_metrics` prints for the families of `prometheusMetrics`. The two lines it prints
without data on the time to first token come from strings without an `f` in front, so their braces
stay doubled and they are no samples. The text is well formed exactly if there are data
(`metricsText_wellFormed_iff`).
-/

namespace SynGateway.Api.Admin

open SynGateway.Python SynGateway.Services SynGateway.Exposition

/-! ## The text -/

def MetricKind.text : MetricKind → Text
  | .counter => "counter".toList
  | .gauge => "gauge".toList
  | .summary => "summary".toList

/-- A value as it is printed: an integer, or for the figures of a summary what `_f` prints of a
quotient, where a zero is that of an integer. -/
def printed (kind : MetricKind) (value : ℚ) : Text :=
  match kind with
  | .summary => if value = 0 then "0".toList else reprFloat value
  | _ => (toString value.num).toList

/-- The line of a series and its value. -/
def sampleLine (kind : MetricKind) (sample : String × ℚ) : Text :=
  sample.1.toList ++ ' ' :: printed kind sample.2

def MetricFamily.toFamily (family : MetricFamily) : Family where
  name := family.name.toList
  help := family.help.toList
  kind := family.kind.text
  samples := family.samples.map (sampleLine family.kind)

/-- The content of the response of `GET /admin/metrics`. -/
def metricsText (scrape : Scrape) :
    Text := render ((prometheusMetrics scrape).map MetricFamily.toFamily)

/-! ## Numbers -/

/-- The decimal digits of a number are digits. -/
theorem isDigits_toDigits (n : ℕ) : IsDigits (Nat.toDigits 10 n) :=
  ⟨Nat.toDigits_ne_nil, fun _ hc => Nat.isDigit_of_mem_toDigits (by decide) (by decide) hc⟩

/-- An integer is printed as a number. -/
theorem isNumber_toString (n : ℤ) : IsNumber (toString n).toList := by
  cases n with
  | ofNat n =>
      change IsNumber (Nat.repr n).toList
      rw [Nat.toList_repr]
      exact ⟨[], _, rfl, .inl rfl, (isDigits_toDigits n).isDecimal⟩
  | negSucc n =>
      change IsNumber ("-" ++ Nat.repr (n + 1)).toList
      rw [String.toList_append, Nat.toList_repr]
      exact ⟨['-'], _, rfl, .inr (.inr rfl), (isDigits_toDigits (n + 1)).isDecimal⟩

section PlacePoint

variable {s t : Text}

/-- Zeros are digits. -/
theorem isDigit_replicate (k : ℕ) : ∀ c ∈ List.replicate k '0', c.isDigit = true := fun c hc => by
  rw [List.eq_of_mem_replicate hc]
  rfl

/-- Digits after digits are digits. -/
theorem isDigit_append (hs : ∀ c ∈ s, c.isDigit = true) (ht : ∀ c ∈ t, c.isDigit = true) :
    ∀ c ∈ s ++ t, c.isDigit = true := List.forall_mem_append.mpr ⟨hs, ht⟩

/-- A float in scientific notation is printed as a decimal. -/
theorem isDecimal_scientific {digits : Text} (h : ∀ c ∈ digits, c.isDigit = true) (exponent : ℤ) :
    IsDecimal (scientific digits exponent) := by
  have hhead : IsDigits [digits.headD '0'] := by
    refine ⟨List.cons_ne_nil _ _, fun c hc => ?_⟩
    rw [List.mem_singleton.mp hc]
    cases digits with
    | nil => rfl
    | cons d digits => exact h d List.mem_cons_self
  refine ⟨[digits.headD '0'], _, _, rfl, hhead, ?_,
    .inr ⟨[if exponent < 0 then '-' else '+'], _, rfl, ?_, ?_⟩⟩
  · -- the fraction is left out when there is one digit only
    split_ifs
    · exact .inl rfl
    · exact .inr ⟨_, rfl, fun c hc => h c (List.mem_of_mem_tail hc)⟩
  · split_ifs
    · exact .inr (.inr rfl)
    · exact .inr (.inl rfl)
  · exact ⟨List.append_ne_nil_of_right_ne_nil _ Nat.toDigits_ne_nil,
      isDigit_append (isDigit_replicate _) (isDigits_toDigits _).2⟩

/-- Digits with a point among them are a decimal number. -/
theorem isDecimal_placePoint {digits : Text} (h : ∀ c ∈ digits, c.isDigit = true) (point : ℤ) :
    IsDecimal (placePoint digits point) := by
  unfold placePoint
  split_ifs with hexp hsmall hlong
  · exact isDecimal_scientific h _
  · exact IsDigits.isDecimal_point (s := ['0']) ⟨List.cons_ne_nil _ _,
      List.forall_mem_singleton.mpr rfl⟩ (isDigit_append (isDigit_replicate _) h)
  · -- all digits stand before the point, and zeros fill up to it
    have hne : digits ++ List.replicate (point.toNat - digits.length) '0' ≠ [] := by
      intro hnil
      have hlength := congrArg List.length hnil
      rw [List.length_append, List.length_replicate, List.length_nil] at hlength
      omega
    have hzero : ∀ c ∈ ['0'], c.isDigit = true := List.forall_mem_singleton.mpr rfl
    exact IsDigits.isDecimal_point ⟨hne, isDigit_append h (isDigit_replicate _)⟩ hzero
  · -- the point stands within the digits
    have hne : digits.take point.toNat ≠ [] := by
      intro hnil
      have hlength := congrArg List.length hnil
      rw [List.length_take, List.length_nil] at hlength
      omega
    exact IsDigits.isDecimal_point ⟨hne, fun c hc => h c (List.mem_of_mem_take hc)⟩
      fun c hc => h c (List.mem_of_mem_drop hc)

end PlacePoint

/-- A float prints as a number. -/
theorem isNumber_reprFloat (x : ℚ) : IsNumber (reprFloat x) := by
  unfold reprFloat
  split
  · have hzero : ∀ c ∈ ['0'], c.isDigit = true := List.forall_mem_singleton.mpr rfl
    exact ⟨[], _, rfl, .inl rfl, IsDigits.isDecimal_point ⟨List.cons_ne_nil _ _, hzero⟩ hzero⟩
  · refine ⟨_, _, rfl, ?_, isDecimal_placePoint (fun c hc => ?_) _⟩
    · split_ifs
      · exact .inr (.inr rfl)
      · exact .inl rfl
    · exact (isDigits_toDigits _).2 c ((List.rdropWhile_prefix _ _).subset hc)

/-- Whatever its kind, a value is printed as a number. -/
theorem isNumber_printed (kind : MetricKind) (value : ℚ) : IsNumber (printed kind value) := by
  cases kind with
  | counter => exact isNumber_toString _
  | gauge => exact isNumber_toString _
  | summary =>
      unfold printed
      dsimp only
      split_ifs
      · exact isNumber_toString 0
      · exact isNumber_reprFloat value

/-! ## The families -/

/-- A labelled sample is a line of its family. -/
theorem isSample_series {name label value : String} (hname : isName name.toList = true)
    (hlabel : isLabelName label.toList = true) (hvalue : isEscaped value.toList = true)
    (kind : MetricKind) (v : ℚ) :
    IsSample name.toList (sampleLine kind (series name label value, v)) := by
  have hline : sampleLine kind (series name label value, v) = name.toList ++
      '\x7b' :: ((Label.mk label.toList value.toList hlabel hvalue).text ++ ['\x7d']) ++
      ' ' :: printed kind v := by
    simp [sampleLine, series, Label.text]
  rw [hline]
  exact isSample_label hname _ (isNumber_printed kind v)

/-- A sample without labels is a line of its family. -/
theorem isSample_name {name : String} (hname : isName name.toList = true)
    (kind : MetricKind) (v : ℚ) :
    IsSample name.toList (sampleLine kind (name, v)) :=
  isSample_bare hname (isNumber_printed kind v)

/-- A series with doubled braces is no sample. -/
theorem not_isSample_doubledSeries (name label value : String) (kind : MetricKind) (v : ℚ) :
    ¬ IsSample name.toList (sampleLine kind (doubledSeries name label value, v)) := by
  have hline : sampleLine kind (doubledSeries name label value, v) = name.toList ++
      '\x7b' :: '\x7b' :: (label.toList ++ '=' :: '"' :: (value.toList ++ "\"\x7d\x7d".toList ++
        ' ' :: printed kind v)) := by
    simp [sampleLine, doubledSeries]
  rw [hline]
  exact not_isSample_doubled _ _

/-- The families in front of the last: all but the time to first token. -/
def steadyFamilies (scrape : Scrape) : List MetricFamily := (prometheusMetrics scrape).dropLast

/-- The last family, with data on the time to first token. -/
def ttftFamily (stats : Option LatencyStats) : MetricFamily where
  name := "syn_ttft_seconds"
  help := "Time to first token statistics"
  kind := .summary
  samples := match stats with
    | some stats => [
      (series "syn_ttft_seconds" "quantile" "0.5", seconds stats.p50Ms),
      (series "syn_ttft_seconds" "quantile" "0.95", seconds stats.p95Ms)]
    | none => [
      (doubledSeries "syn_ttft_seconds" "quantile" "0.5", 0),
      (doubledSeries "syn_ttft_seconds" "quantile" "0.95", 0)]

/-- The statistics of the time to first token, if there are data. -/
def ttftStats (scrape : Scrape) : Option LatencyStats :=
  ((latencyStats scrape.laterNow scrape.laterTable none none).lookup "ttft_ms").filter (0 < ·.count)

/-- The family of the time to the first token is the last one, and the only one that may be empty.
-/
theorem prometheusMetrics_eq (scrape : Scrape) :
    prometheusMetrics scrape = steadyFamilies scrape ++ [ttftFamily (ttftStats scrape)] := rfl

/-- A family with samples owns them when each is a line of it. -/
theorem owns_toFamily {family : MetricFamily} (hne : family.samples ≠ [])
    (h : ∀ sample ∈ family.samples, IsSample family.name.toList (sampleLine family.kind sample)) :
    Owns family.toFamily.name family.toFamily.samples :=
  ⟨fun hnil => hne (List.map_eq_nil_iff.mp hnil), List.forall_mem_map.mpr h⟩

/-- The families in front of the last have samples of their own. -/
theorem owns_steadyFamilies (scrape : Scrape) : ∀ family ∈ steadyFamilies scrape,
    Owns family.toFamily.name family.toFamily.samples := by
  simp only [steadyFamilies, prometheusMetrics, List.dropLast_cons_cons, List.dropLast_singleton,
    List.forall_mem_cons]
  -- the samples of each family have its own name; their labels are literals
  refine ⟨?_, ?_, ?_, ?_, ?_, List.forall_mem_nil _⟩ <;>
    refine owns_toFamily (List.cons_ne_nil _ _) ?_ <;> simp only [List.forall_mem_cons]
  · have hstatus : ∀ value : String, isEscaped value.toList = true → ∀ v : ℚ,
        IsSample "syn_requests_total".toList
            (sampleLine .counter (series "syn_requests_total" "status" value, v)) :=
      fun value hvalue v => isSample_series (by decide) (by decide) hvalue _ v
    exact ⟨hstatus _ (by decide) _, hstatus _ (by decide) _, hstatus _ (by decide) _,
      hstatus _ (by decide) _, hstatus _ (by decide) _, List.forall_mem_nil _⟩
  · exact ⟨isSample_name (by decide) _ _, List.forall_mem_nil _⟩
  · exact ⟨isSample_name (by decide) _ _, List.forall_mem_nil _⟩
  · have htype : ∀ value : String, isEscaped value.toList = true → ∀ v : ℚ,
        IsSample "syn_tokens_total".toList
            (sampleLine .counter (series "syn_tokens_total" "type" value, v)) :=
      fun value hvalue v => isSample_series (by decide) (by decide) hvalue _ v
    exact ⟨htype _ (by decide) _, htype _ (by decide) _, htype _ (by decide) _,
      List.forall_mem_nil _⟩
  · have hquantile : ∀ value : String, isEscaped value.toList = true → ∀ v : ℚ,
        IsSample "syn_request_duration_seconds".toList
          (sampleLine .summary (series "syn_request_duration_seconds" "quantile" value, v)) :=
      fun value hvalue v => isSample_series (by decide) (by decide) hvalue _ v
    exact ⟨hquantile _ (by decide) _, hquantile _ (by decide) _, hquantile _ (by decide) _,
      List.forall_mem_nil _⟩

/-- The last family has samples of its own if there are data. -/
theorem owns_ttftFamily_iff (stats : Option LatencyStats) :
    Owns (ttftFamily stats).toFamily.name (ttftFamily stats).toFamily.samples ↔
    stats.isSome = true := by
  cases stats with
  | none =>
      refine iff_of_false (fun h => ?_) (by decide)
      exact not_isSample_doubledSeries _ _ _ _ _ (h.2 _ List.mem_cons_self)
  | some stats =>
      refine iff_of_true (owns_toFamily (List.cons_ne_nil _ _) ?_) rfl
      simp only [ttftFamily, List.forall_mem_cons]
      exact ⟨isSample_series (by decide) (by decide) (by decide) _ _,
        isSample_series (by decide) (by decide) (by decide) _ _, List.forall_mem_nil _⟩

/-! ## The text -/

/-- A text without line breaks and blanks, character by character. -/
theorem plain_of_notMem {s : Text} (hline : '\n' ∉ s) (hspace : ' ' ∉ s) :
    ∀ c ∈ s, c ≠ '\n' ∧ c ≠ ' ' := by
  intro c hc
  exact ⟨fun h => hline (h ▸ hc), fun h => hspace (h ▸ hc)⟩

/-- What stands around the samples fits on its lines. -/
theorem printable_header : ∀ scrape : Scrape, ∀ family ∈ prometheusMetrics scrape,
    (∀ c ∈ family.name.toList, c ≠ '\n' ∧ c ≠ ' ') ∧ '\n' ∉ family.help.toList ∧
    '\n' ∉ family.kind.text := by
  intro scrape
  simp only [prometheusMetrics, List.forall_mem_cons]
  refine ⟨?_, ?_, ?_, ?_, ?_, ?_, List.forall_mem_nil _⟩ <;>
    exact ⟨plain_of_notMem (by decide) (by decide), by decide, by decide⟩

/-- Every family of the endpoint has a name and a help text that can be printed. -/
theorem printable_families (scrape : Scrape) : ∀ family ∈ prometheusMetrics scrape,
    family.toFamily.Printable := by
  intro family hfamily
  obtain ⟨hname, hhelp, hkind⟩ := printable_header scrape family hfamily
  refine ⟨hname, hhelp, hkind, ?_⟩
  rw [prometheusMetrics_eq, List.mem_append, List.mem_singleton] at hfamily
  rcases hfamily with hsteady | rfl
  · exact fun line hline => ((owns_steadyFamilies scrape family hsteady).2 line hline).isSampleLine
  · cases hstats : ttftStats scrape with
    | some stats =>
        exact fun line hline =>
          (((owns_ttftFamily_iff (some stats)).mpr rfl).2 line hline).isSampleLine
    | none => decide

/-- A column has values to count exactly if one of its rows is not NULL. -/
theorem count_pos_iff (values : List (Option ℤ)) :
    0 < (columnLatency values).count ↔ ∃ n, some n ∈ values := by
  rw [columnLatency_count, List.length_pos_iff_exists_mem]
  exact exists_congr fun n => List.reduceOption_mem_iff

/-- There are data on the time to first token if a row of the window has one. -/
theorem ttftStats_isSome_iff (scrape : Scrape) :
    (ttftStats scrape).isSome = true ↔
      ∃ r ∈ windowRows scrape.laterNow scrape.laterTable none none, r.ttftMs ≠ none := by
  have hstats : ttftStats scrape = Option.filter (0 < ·.count) (some (columnLatency
      ((windowRows scrape.laterNow scrape.laterTable none none).map (·.ttftMs)))) := rfl
  rw [hstats, Option.isSome_filter, Option.any_some, decide_eq_true_eq, count_pos_iff]
  simp only [List.mem_map, Option.ne_none_iff_exists']
  constructor
  · rintro ⟨n, r, hr, hn⟩
    exact ⟨r, hr, n, hn⟩
  · rintro ⟨r, hr, n, hn⟩
    exact ⟨n, r, hr, hn⟩

/-- The page is well formed exactly when there are times to a first token. -/
theorem wellFormed_metricsText (scrape : Scrape) :
    WellFormed (metricsText scrape) ↔ (ttftStats scrape).isSome = true := by
  rw [← owns_ttftFamily_iff, metricsText, wellFormed_render_iff (by rw [prometheusMetrics_eq]; simp)
      (List.forall_mem_map.mpr (printable_families scrape)),
    List.forall_mem_map, prometheusMetrics_eq, List.forall_mem_append, List.forall_mem_singleton]
  exact and_iff_right (owns_steadyFamilies scrape)

/-- **The metrics are well formed** exactly if the window of the second query has a request with a
time to first token. -/
theorem metricsText_wellFormed_iff (scrape : Scrape) :
    WellFormed (metricsText scrape) ↔
      ∃ r ∈ windowRows scrape.laterNow scrape.laterTable none none, r.ttftMs ≠ none := by
  rw [wellFormed_metricsText, ttftStats_isSome_iff]

/-- With an empty database the last two lines have doubled braces. -/
theorem metrics_malformed : ¬ ∀ scrape : Scrape, WellFormed (metricsText scrape) := by
  intro h
  have hsome := (wellFormed_metricsText _).mp (h ⟨0, [], 0, 0, 0, []⟩)
  obtain ⟨r, hr, -⟩ := (ttftStats_isSome_iff _).mp hsome
  cases hr

end SynGateway.Api.Admin

import Mathlib.Algebra.Order.BigOperators.Group.List
import Mathlib.Data.List.GetD
import Mathlib.Data.List.ReduceOption
import Mathlib.Data.List.Sort
import SynGateway.Common.Interpolation
import SynGateway.Services.Observability

/-!
# Latency statistics

`_compute_latency_for_field` sorts what is not NULL, averages it, interpolates two percentiles and
rounds. A percentile is the sorted list read at a rational rank (`percentile_eq`), which is monotone
in the rank, and rounding is monotone, so the percentiles are in their order, whatever the values
and however the rows came.

The average is a float quotient. It is in its place as far as floats go (`latency_ordered`): between
the floats nearest to the least and to the greatest value, which are these values themselves up to
`2^53`. Beyond that it may be outside (`average_out_of_order`), and beyond `2^1024` there is none.
-/

namespace SynGateway.Services

open SynGateway.Interpolation SynGateway.Python

/-- `sorted_values[i]`. -/
def entry (sortedValues : List ℤ) (i : ℤ) : ℚ := sortedValues.getD i.toNat 0

/-- `(n - 1) * p`. -/
def rank (sortedValues : List ℤ) (p : ℚ) : ℚ := ((sortedValues.length : ℚ) - 1) * p

/-- A figure is between the sorted values below and above the rank of `p`. Both are entries of the
list. -/
def Brackets (sortedValues : List ℤ) (p : ℚ) (value : ℤ) : Prop :=
  ∃ below above : Fin sortedValues.length,
    ((below : ℕ) : ℤ) = ⌊rank sortedValues p⌋ ∧ ((above : ℕ) : ℤ) = ⌈rank sortedValues p⌉ ∧
    int (rank sortedValues p) = ((below : ℕ) : ℤ) ∧
    sortedValues.get below ≤ value ∧ value ≤ sortedValues.get above

variable {sortedValues : List ℤ} {p : ℚ}

theorem monotoneOn_entry (hsorted : sortedValues.SortedLE) :
    MonotoneOn (entry sortedValues) (Set.Icc 0 ((sortedValues.length : ℤ) - 1)) := by
  intro i hi j hj hij
  have hil : i.toNat < sortedValues.length := by have := hi.1; have := hi.2; omega
  have hjl : j.toNat < sortedValues.length := by have := hj.1; have := hj.2; omega
  unfold entry
  rw [List.getD_eq_getElem _ _ hil, List.getD_eq_getElem _ _ hjl]
  exact_mod_cast hsorted.getElem_le_getElem_of_le (Int.toNat_le_toNat hij)

/-- The ranks of the percentiles are between the first and the last index. -/
theorem rank_mem (hne : sortedValues ≠ []) (hp : p ∈ Set.Icc 0 1) :
    rank sortedValues p ∈ Set.Icc ((0 : ℤ) : ℚ) (((sortedValues.length : ℤ) - 1 : ℤ) : ℚ) := by
  have hlength : (1 : ℚ) ≤ sortedValues.length := by
    exact_mod_cast Nat.one_le_iff_ne_zero.mpr fun h => hne (List.length_eq_zero_iff.mp h)
  have hwidth : (0 : ℚ) ≤ (sortedValues.length : ℚ) - 1 := sub_nonneg.mpr hlength
  unfold rank
  push_cast
  exact ⟨mul_nonneg hwidth hp.1, mul_le_of_le_one_right hwidth hp.2⟩

theorem rank_mono (hne : sortedValues ≠ []) : Monotone (rank sortedValues) := by
  intro p q hpq
  have hlength : (1 : ℚ) ≤ sortedValues.length := by
    exact_mod_cast Nat.one_le_iff_ne_zero.mpr fun h => hne (List.length_eq_zero_iff.mp h)
  exact mul_le_mul_of_nonneg_left hpq (sub_nonneg.mpr hlength)

/-- **A percentile** is the list read at its rank, rounded. -/
theorem percentile_eq (hne : sortedValues ≠ []) (hp : p ∈ Set.Icc 0 1) :
    percentile sortedValues p = Python.round (lerp (entry sortedValues) (rank sortedValues p)) := by
  have hrank := (rank_mem hne hp).1
  rw [Int.cast_zero] at hrank
  match sortedValues, hne with
  -- a single value: its rank is zero whatever the percentile
  | [value], _ =>
      have hzero : rank [value] p = ((0 : ℤ) : ℚ) := by
        unfold rank
        norm_num
      rw [hzero, lerp_of_floor_eq_ceil (by rw [Int.floor_intCast, Int.ceil_intCast]),
        Int.floor_intCast]
      exact (Python.round_intCast value).symm
  | first :: second :: rest, _ =>
      unfold percentile
      dsimp only
      rw [← rank]
      -- a whole rank is no interpolation
      by_cases hwhole : ⌊rank (first :: second :: rest) p⌋ = ⌈rank (first :: second :: rest) p⌉
      · rw [if_pos hwhole, lerp_of_floor_eq_ceil hwhole, int_of_nonneg hrank]
        exact (Python.round_intCast _).symm
      · rw [if_neg hwhole, lerp_of_floor_ne_ceil hwhole]
        rfl

/-- A higher percentile is not below a lower one. -/
theorem percentile_mono (hne : sortedValues ≠ []) (hsorted : sortedValues.SortedLE) :
    MonotoneOn (percentile sortedValues) (Set.Icc 0 1) := by
  intro p hp q hq hpq
  rw [percentile_eq hne hp, percentile_eq hne hq]
  exact round_mono (lerp_mono (monotoneOn_entry hsorted) (rank_mem hne hp) (rank_mem hne hq)
    (rank_mono hne hpq))

/-- An index in the list's range is that of an entry. -/
theorem exists_entry {i : ℤ} (hi : i ∈ Set.Icc 0 ((sortedValues.length : ℤ) - 1)) :
    ∃ index : Fin sortedValues.length, ((index : ℕ) : ℤ) = i ∧
    entry sortedValues i = sortedValues.get index := by
  have hil : i.toNat < sortedValues.length := by have := hi.1; have := hi.2; omega
  refine ⟨⟨i.toNat, hil⟩, Int.toNat_of_nonneg hi.1, ?_⟩
  unfold entry
  rw [List.getD_eq_getElem _ _ hil]
  rfl

/-- A percentile lies between its neighbours in the sorted list. -/
theorem brackets_percentile (hne : sortedValues ≠ []) (hsorted : sortedValues.SortedLE)
    (hp : p ∈ Set.Icc 0 1) :
    Brackets sortedValues p (percentile sortedValues p) := by
  have hrank := rank_mem hne hp
  obtain ⟨below, hbelow, hlow⟩ := exists_entry (floor_mem hrank)
  obtain ⟨above, habove, hhigh⟩ := exists_entry (ceil_mem hrank)
  have hmono := floor_le_ceil_of_monotoneOn (monotoneOn_entry hsorted) hrank
  refine ⟨below, above, hbelow, habove, ?_, ?_, ?_⟩
  · rw [hbelow]
    exact int_of_nonneg (by simpa using hrank.1)
  · rw [percentile_eq hne hp, ← Python.round_intCast (sortedValues.get below), ← hlow]
    exact round_mono (left_le_lerp hmono)
  · rw [percentile_eq hne hp, ← Python.round_intCast (sortedValues.get above), ← hhigh]
    exact round_mono (lerp_le_right hmono)

/-! ## The figures of a list -/

/-- The mean of the values that are not NULL, before it is a float. -/
def mean (values : List (Option ℤ)) :
    ℚ := (values.reduceOption.sum : ℚ) / values.reduceOption.length

/-- The mean is between any two bounds of the values. -/
theorem mean_mem {values : List (Option ℤ)} (hne : values.reduceOption ≠ []) {low high : ℤ}
    (hvalues : ∀ v, some v ∈ values → v ∈ Set.Icc low high) :
    mean values ∈ Set.Icc (low : ℚ) high := by
  have hlength :
    (0 : ℚ) < values.reduceOption.length := by exact_mod_cast List.length_pos_iff.mpr hne
  have hmem : ∀ v ∈ values.reduceOption, v ∈ Set.Icc low high := fun v hv =>
    hvalues v (List.reduceOption_mem_iff.mp hv)
  have hlow := List.card_nsmul_le_sum values.reduceOption low fun v hv => (hmem v hv).1
  have hhigh := List.sum_le_card_nsmul values.reduceOption high fun v hv => (hmem v hv).2
  rw [nsmul_eq_mul, mul_comm] at hlow hhigh
  unfold mean
  constructor
  · rw [le_div_iff₀ hlength]
    exact_mod_cast hlow
  · rw [div_le_iff₀ hlength]
    exact_mod_cast hhigh

/-- The average is between the floats nearest to any two bounds of the values. -/
theorem round_mean_mem {values : List (Option ℤ)} (hne : values.reduceOption ≠ []) {low high : ℤ}
    (hvalues : ∀ v, some v ∈ values → v ∈ Set.Icc low high) :
    Python.round (toDouble (mean values)) ∈
      Set.Icc (Python.round (toDouble low)) (Python.round (toDouble high)) := by
  obtain ⟨hlow, hhigh⟩ := mean_mem hne hvalues
  exact ⟨round_mono (toDouble_mono hlow), round_mono (toDouble_mono hhigh)⟩

/-- An integer of up to 53 bits is the float nearest to it. -/
theorem round_toDouble {n : ℤ} (h : |n| ≤ 2 ^ 53) : Python.round (toDouble n) = n := by
  rw [toDouble_intCast h, Python.round_intCast]

/-- The figures of a list with a value, and that there are none where the mean is too large for a
float. -/
theorem computeLatencyForField_eq {values : List (Option ℤ)}
    (hne : values.reduceOption.mergeSort (· ≤ ·) ≠ []) :
    computeLatencyForField values =
      if |toDouble (mean values)| < 2 ^ 1024 then
        some ⟨values.reduceOption.length, some (Python.round (toDouble (mean values))),
          some (percentile (values.reduceOption.mergeSort (· ≤ ·)) (1 / 2)),
          some (percentile (values.reduceOption.mergeSort (· ≤ ·)) (19 / 20)),
          some ((values.reduceOption.mergeSort (· ≤ ·)).getLast hne)⟩
      else none := by
  have hsum : (values.reduceOption.mergeSort (· ≤ ·)).sum = values.reduceOption.sum :=
    (List.mergeSort_perm _ _).sum_eq
  have hlength : (values.reduceOption.mergeSort (· ≤ ·)).length = values.reduceOption.length :=
    List.length_mergeSort _
  unfold computeLatencyForField trueDiv
  dsimp only
  rw [List.getLast?_eq_some_getLast hne, hsum, hlength]
  dsimp only
  rw [Int.cast_natCast, ← mean]
  split_ifs <;> rfl

/-- Where the values have up to 1023 bits, as those of a column do, there are figures. -/
theorem computeLatencyForField_column {values : List (Option ℤ)}
    (h : ∀ v, some v ∈ values → |v| ≤ 2 ^ 1023) :
    computeLatencyForField values = some (columnLatency values) := by
  suffices hsome : ∃ stats, computeLatencyForField values = some stats by
    obtain ⟨stats, hstats⟩ := hsome
    unfold columnLatency
    rw [hstats, Option.getD_some]
  by_cases hne : values.reduceOption.mergeSort (· ≤ ·) = []
  · unfold computeLatencyForField
    rw [hne]
    exact ⟨_, rfl⟩
  · have hvalues : values.reduceOption ≠ [] := fun hnil => hne (by rw [hnil, List.mergeSort_nil])
    have hmean : |mean values| ≤ 2 ^ 1023 := by
      have hmem := mean_mem hvalues fun v hv => abs_le.mp (h v hv)
      refine abs_le.mpr ⟨?_, ?_⟩
      · exact_mod_cast hmem.1
      · exact_mod_cast hmem.2
    have hfloat : |toDouble (mean values)| < 2 ^ 1024 :=
      (abs_toDouble_le hmean).trans_lt (pow_lt_pow_right₀ one_lt_two (Nat.lt_succ_self 1023))
    rw [computeLatencyForField_eq hne, if_pos hfloat]
    exact ⟨_, rfl⟩

/-- The values of a sorted list are between the first and the last. -/
theorem mem_Icc_head_getLast (hne : sortedValues ≠ []) (hsorted : sortedValues.SortedLE) :
    ∀ v ∈ sortedValues, v ∈ Set.Icc (sortedValues.head hne) (sortedValues.getLast hne) := by
  intro v hv
  obtain ⟨i, hi, rfl⟩ := List.getElem_of_mem hv
  rw [List.head_eq_getElem, List.getLast_eq_getElem]
  exact ⟨hsorted.getElem_le_getElem_of_le (Nat.zero_le i),
    hsorted.getElem_le_getElem_of_le (by omega)⟩

/-- The figures of some optional integers are these, and in their order: the average as far as
floats go. -/
structure LatencyOrdered (values : List (Option ℤ)) (least avg p50 p95 greatest : ℤ) : Prop where
  stats : computeLatencyForField values =
    some ⟨values.reduceOption.length, some avg, some p50, some p95, some greatest⟩
  isLeast : IsLeast {v | some v ∈ values} least
  isGreatest : IsGreatest {v | some v ∈ values} greatest
  avg_mem : Python.round (toDouble least) ≤ avg ∧ avg ≤ Python.round (toDouble greatest)
  least_le_avg : |least| ≤ 2 ^ 53 → least ≤ avg
  avg_le_greatest : |greatest| ≤ 2 ^ 53 → avg ≤ greatest
  percentiles : least ≤ p50 ∧ p50 ≤ p95 ∧ p95 ≤ greatest
  median : Brackets (values.reduceOption.mergeSort (· ≤ ·)) (1 / 2) p50
  tail : Brackets (values.reduceOption.mergeSort (· ≤ ·)) (19 / 20) p95

/-- The order of the values does not matter, nor do NULLs. -/
theorem computeLatencyForField_of_perm {values values' : List (Option ℤ)} {nulls : ℕ}
    (h : values'.Perm (values ++ List.replicate nulls none)) :
    computeLatencyForField values' = computeLatencyForField values := by
  have hclean : values'.reduceOption.Perm values.reduceOption := by
    have hperm : values'.reduceOption.Perm (values ++ List.replicate nulls none).reduceOption :=
      h.filterMap id
    rwa [List.reduceOption_append, List.reduceOption_replicate_none, List.append_nil] at hperm
  have hsorted : values'.reduceOption.mergeSort (· ≤ ·) = values.reduceOption.mergeSort (· ≤ ·) :=
    ((List.mergeSort_perm _ _).trans (hclean.trans (List.mergeSort_perm _ _).symm)).eq_of_sortedLE
      List.sortedLE_mergeSort List.sortedLE_mergeSort
  unfold computeLatencyForField
  rw [hsorted]

/-- **Latency statistics.** If a value is not NULL and the mean is not too large for a float, the
figures are in their order; if it is too large, there are none. Either way they are those of every
permutation of the list with any number of NULLs added. -/
theorem latency_ordered {values : List (Option ℤ)} (hvalues : values.reduceOption ≠ []) :
    (if |toDouble (mean values)| < 2 ^ 1024 then
      ∃ least avg p50 p95 greatest, LatencyOrdered values least avg p50 p95 greatest
      else computeLatencyForField values = none) ∧
    ∀ (values' : List (Option ℤ)) (nulls : ℕ), values'.Perm (values ++ List.replicate nulls none) →
      computeLatencyForField values' = computeLatencyForField values := by
  refine ⟨?_, fun values' nulls h => computeLatencyForField_of_perm h⟩
  let clean := values.reduceOption.mergeSort (· ≤ ·)
  have hsorted : clean.SortedLE := List.sortedLE_mergeSort
  have hmem : ∀ v, v ∈ clean ↔ some v ∈ values := fun v =>
    List.mem_mergeSort.trans List.reduceOption_mem_iff
  have hlength : clean.length = values.reduceOption.length := List.length_mergeSort _
  have hne : clean ≠ [] := fun h => hvalues (List.length_eq_zero_iff.mp (hlength ▸ h ▸ rfl))
  have hstats := computeLatencyForField_eq hne
  split_ifs with hfloat
  · rw [if_pos hfloat] at hstats
    have hbounds := mem_Icc_head_getLast hne hsorted
    have havg := round_mean_mem hvalues fun v hv => hbounds v ((hmem v).mpr hv)
    have hmedian : Brackets clean (1 / 2) (percentile clean (1 / 2)) :=
      brackets_percentile hne hsorted ⟨by norm_num, by norm_num⟩
    have htail : Brackets clean (19 / 20) (percentile clean (19 / 20)) :=
      brackets_percentile hne hsorted ⟨by norm_num, by norm_num⟩
    refine ⟨clean.head hne, _, percentile clean (1 / 2), percentile clean (19 / 20),
      clean.getLast hne, {
      stats := hstats
      isLeast := ⟨(hmem _).mp (List.head_mem hne), fun v hv => (hbounds v ((hmem v).mpr hv)).1⟩
      isGreatest :=
        ⟨(hmem _).mp (List.getLast_mem hne), fun v hv => (hbounds v ((hmem v).mpr hv)).2⟩
      avg_mem := havg
      least_le_avg := fun h => (round_toDouble h).ge.trans havg.1
      avg_le_greatest := fun h => havg.2.trans (round_toDouble h).le
      percentiles := ⟨?_, ?_, ?_⟩
      median := hmedian
      tail := htail }⟩
    · obtain ⟨below, -, -, -, -, hbelow, -⟩ := hmedian
      exact (hbounds _ (List.get_mem clean below)).1.trans hbelow
    · exact percentile_mono hne hsorted ⟨by norm_num, by norm_num⟩ ⟨by norm_num, by norm_num⟩
        (by norm_num)
    · obtain ⟨-, above, -, -, -, -, habove⟩ := htail
      exact habove.trans (hbounds _ (List.get_mem clean above)).2
  · rwa [if_neg hfloat] at hstats

/-- Two values and a NULL. Their mean is a float. -/
theorem latency_ordered_two :
    (∃ least avg p50 p95 greatest,
      LatencyOrdered [some 20, none, some 10] least avg p50 p95 greatest) ∧
    ∀ (values' : List (Option ℤ)) (nulls : ℕ),
      values'.Perm ([some 20, none, some 10] ++ List.replicate nulls none) →
      computeLatencyForField values' = computeLatencyForField [some 20, none, some 10] := by
  have hordered := @latency_ordered [some 20, none, some 10] (List.cons_ne_nil _ _)
  have hmean : mean [some 20, none, some 10] = ((15 : ℤ) : ℚ) := by
    change ((30 : ℤ) : ℚ) / ((2 : ℕ) : ℚ) = _
    norm_num
  have hfloat : |toDouble (mean [some 20, none, some 10])| < 2 ^ 1024 := by
    rw [hmean, toDouble_intCast (by norm_num)]
    calc |((15 : ℤ) : ℚ)| < 2 ^ 4 := by norm_num
      _ ≤ 2 ^ 1024 := pow_le_pow_right₀ one_le_two (by norm_num)
  rwa [if_pos hfloat] at hordered

/-- `2^53 + 1` is half way between two floats, and rounds to the one below it. -/
theorem round_toDouble_odd : Python.round (toDouble (2 ^ 53 + 1)) = 2 ^ 53 := by
  have hlog : Int.log 2 |(2 : ℚ) ^ 53 + 1| = 53 := by
    have hcast : |(2 : ℚ) ^ 53 + 1| = ((2 ^ 53 + 1 : ℕ) : ℚ) := by norm_num
    rw [hcast, Int.log_natCast]
    exact_mod_cast Nat.log_eq_of_pow_le_of_lt_pow (by norm_num) (by norm_num)
  have hplace : lastPlace (2 ^ 53 + 1) = 1 := by
    unfold lastPlace
    omega
  have hfloor : ⌊((2 : ℚ) ^ 53 + 1) / 2 ^ (1 : ℤ)⌋ = 2 ^ 52 := by
    rw [Int.floor_eq_iff]
    norm_num
  have heven : Python.round (((2 : ℚ) ^ 53 + 1) / 2 ^ (1 : ℤ)) = 2 ^ 52 := by
    unfold Python.round
    rw [hfloor]
    norm_num
  have hfloat : ((2 ^ 52 : ℤ) : ℚ) * 2 ^ (1 : ℤ) = ((2 ^ 53 : ℤ) : ℚ) := by norm_num
  unfold toDouble
  rw [hplace, heven, hfloat, Python.round_intCast]

/-- So the average of this one value is below it. -/
theorem average_out_of_order :
    ¬ ∀ values : List (Option ℤ), values.reduceOption ≠ [] → ∃ least avg p50 p95 greatest,
      computeLatencyForField values =
        some ⟨values.reduceOption.length, some avg, some p50, some p95, some greatest⟩ ∧
      IsLeast {v | some v ∈ values} least ∧ least ≤ avg := by
  intro h
  obtain ⟨least, avg, p50, p95, greatest, hstats, hleast, hle⟩ :=
    h [some (2 ^ 53 + 1)] (List.cons_ne_nil _ _)
  have hmean : mean [some (2 ^ 53 + 1)] = 2 ^ 53 + 1 := by
    change (((2 ^ 53 + 1 : ℤ)) : ℚ) / ((1 : ℕ) : ℚ) = _
    norm_num
  have hne : [some ((2 : ℤ) ^ 53 + 1)].reduceOption.mergeSort (· ≤ ·) ≠ [] := by
    rw [← List.length_pos_iff, List.length_mergeSort]
    exact Nat.one_pos
  rw [computeLatencyForField_eq hne, hmean, round_toDouble_odd] at hstats
  split_ifs at hstats
  · have havg : (2 : ℤ) ^ 53 = avg :=
      Option.some.inj (congrArg LatencyStats.avgMs (Option.some.inj hstats))
    have hvalue : least = 2 ^ 53 + 1 := Option.some.inj (List.mem_singleton.mp hleast.1)
    omega

end SynGateway.Services

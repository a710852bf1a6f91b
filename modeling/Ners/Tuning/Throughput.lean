import Ners.Base.Progression
import Ners.Base.Unsigned
import Ners.Tuning.Trends

set_option autoImplicit false

namespace Ners.Tuning

open Progression (lag lag_positive lag_within terms terms_bound terms_mean)

theorem stable_iff (values : List UInt64) (current avg : UInt64) (some : values ≠ [])
    (mean : values.sum / UInt64.ofNat values.length = avg) :
    calculateDirection values current = .stable ↔ current ≤ avg + avg / 10 ∧ avg ≤ current + avg / 10 := by
  rw [calculateDirection, if_neg some, mean]
  dsimp only
  by_cases above : avg + avg / 10 < current
  · rw [if_pos above]
    refine ⟨fun same => (nomatch same), fun ⟨below, _⟩ => ?_⟩
    exact absurd above (UInt64.not_lt.mpr below)
  · rw [if_neg above]
    by_cases below : current + avg / 10 < avg
    · rw [if_pos below]
      refine ⟨fun same => (nomatch same), fun ⟨_, reach⟩ => ?_⟩
      exact absurd below (UInt64.not_lt.mpr reach)
    · rw [if_neg below]
      exact ⟨fun _ => ⟨UInt64.not_lt.mp above, UInt64.not_lt.mp below⟩, fun _ => rfl⟩

-- The mean of a window whose sum wraps is far below the count that follows.
theorem wrapped_mean_low (sum avg current count : Nat) (carry : 2 ^ 64 ≤ sum)
    (bound : sum ≤ count * current) (mean : avg = sum % 2 ^ 64 / count) : avg + avg / 10 < current := by
  have low : sum % 2 ^ 64 ≤ sum - 2 ^ 64 := by omega
  have word : sum % 2 ^ 64 < 2 ^ 64 := Nat.mod_lt _ (by decide)
  have share : count * avg ≤ sum % 2 ^ 64 := mean ▸ Nat.mul_div_le _ _
  refine Nat.lt_of_not_le fun reach => ?_
  have scaled : count * (10 * current) ≤ count * (11 * avg) := Nat.mul_le_mul_left count (by omega)
  have left : count * (10 * current) = 10 * (count * current) := by ring
  have right : count * (11 * avg) = 11 * (count * avg) := by ring
  omega

-- A count that has grown by the same rate for a whole window and one snapshot
-- more.
theorem steady_direction_iff (values : List UInt64) (current : UInt64) (first rate : Nat) (moving : 1 ≤ rate)
    (some : 1 ≤ values.length) (small : values.length < 2 ^ 64)
    (window : values.map UInt64.toNat = terms first rate values.length)
    (next : current.toNat = first + values.length * rate) :
    calculateDirection values current = .stable ↔
      11 * lag rate values.length ≤ current.toNat ∧ (terms first rate values.length).sum < 2 ^ 64 ∧
        current.toNat + (current.toNat - lag rate values.length) / 10 < 2 ^ 64 := by
  have nonempty : values ≠ [] := List.ne_nil_of_length_pos some
  have positive := lag_positive rate values.length moving some
  have within := lag_within rate values.length some
  have mean := terms_mean first rate values.length some
  have bound := terms_bound first rate values.length
  have word := current.toNat_lt
  have size : (UInt64.ofNat values.length).toNat = values.length := UInt64.toNat_ofNat_of_lt' small
  generalize average : values.sum / UInt64.ofNat values.length = avg
  rw [stable_iff values current avg nonempty average]
  have value : avg.toNat = (terms first rate values.length).sum % 2 ^ 64 / values.length := by
    rw [← average, UInt64.toNat_div, Unsigned.sum_low, window, size]
  have ten : (10 : UInt64).toNat = 10 := rfl
  rw [UInt64.le_iff_toNat_le, UInt64.le_iff_toNat_le, UInt64.toNat_add, UInt64.toNat_add, UInt64.toNat_div, ten]
  rw [← next] at mean bound
  by_cases exact : (terms first rate values.length).sum < 2 ^ 64
  · rw [Nat.mod_eq_of_lt exact, mean] at value
    rw [value]
    omega
  · have far := wrapped_mean_low _ avg.toNat current.toNat _ (Nat.le_of_not_lt exact) bound value
    omega

-- The stage is in every snapshot, and its count grows by the rate from each to
-- the next.
def SteadyRate (stageId : String) (start rate : Nat) (snapshots : List MetricsSnapshot) : Prop :=
  ∀ i snapshot, snapshots[i]? = some snapshot →
    ∃ metrics, snapshot.stages.lookup stageId = some metrics ∧ metrics.processedCount.toNat = start + i * rate

-- The first count that a trend is computed for is eleven times as large as what
-- the mean of the window lags behind, and at the last one no sum overflows.
structure FarEnough (start rate window length : Nat) : Prop where
  first : 11 * lag rate window ≤ start + window * rate
  sum : (terms (start + (length - 1 - window) * rate) rate window).sum < 2 ^ 64
  reach : start + (length - 1) * rate + (start + (length - 1) * rate - lag rate window) / 10 < 2 ^ 64

theorem steady_front (stageId : String) (start rate : Nat) (before snapshots : List MetricsSnapshot)
    (steady : SteadyRate stageId start rate snapshots) (within : before <+: snapshots) : SteadyRate stageId start rate before := by
  obtain ⟨later, rfl⟩ := within
  intro i snapshot there
  have inside := (List.getElem?_eq_some_iff.mp there).1
  exact steady i snapshot (by rw [List.getElem?_append_left inside, there])

theorem steady_values (stageId : String) (start rate : Nat) (before : List MetricsSnapshot)
    (steady : SteadyRate stageId start rate before) :
    ∃ values : List StageMetricsSnapshot, before.map (fun s => s.stages.lookup stageId) = values.map some ∧
      values.map (fun m => m.processedCount.toNat) = terms start rate before.length := by
  induction before using List.reverseRecOn with
  | nil => exact ⟨[], rfl, rfl⟩
  | append_singleton before snapshot ih =>
      obtain ⟨values, present, counts⟩ := ih (steady_front stageId start rate _ _ steady (List.prefix_append before [snapshot]))
      obtain ⟨metrics, here, count⟩ := steady before.length snapshot List.getElem?_concat_length
      refine ⟨values ++ [metrics], ?_, ?_⟩
      · rw [List.map_append, List.map_append, present, List.map_singleton, List.map_singleton, here]
      · rw [List.map_append, counts, List.map_singleton, count, List.length_append, List.length_singleton,
          Progression.terms_succ]

-- The condition under which the snapshot behind n others gives a stable trend.
structure StableAt (start rate window n : Nat) : Prop where
  first : 11 * lag rate window ≤ start + n * rate
  sum : (terms (start + (n - window) * rate) rate window).sum < 2 ^ 64
  reach : start + n * rate + (start + n * rate - lag rate window) / 10 < 2 ^ 64

theorem steady_step (rules : AnalysisRules) (stageId : String) (start rate : Nat) (before : List MetricsSnapshot)
    (snapshot : MetricsSnapshot) (moving : 1 ≤ rate) (steady : SteadyRate stageId start rate (before ++ [snapshot]))
    (positive : 1 ≤ rules.trendWindow) (within : rules.trendWindow ≤ 59) (filled : rules.trendWindow ≤ before.length) :
    ∃ current trend, ((MetricsAnalyzer.new rules).addAll before).evicted.Computes stageId current snapshot ∧
      ((MetricsAnalyzer.new rules).addAll (before ++ [snapshot])).getTrend stageId = some trend ∧
      (trend.throughputTrend = .stable ↔ StableAt start rate rules.trendWindow before.length) := by
  obtain ⟨values, present, counts⟩ :=
    steady_values stageId start rate before (steady_front stageId start rate _ _ steady (List.prefix_append before [snapshot]))
  obtain ⟨current, here, count⟩ := steady before.length snapshot List.getElem?_concat_length
  have size : values.length = before.length := by
    have lengths := congrArg List.length present
    rw [List.length_map, List.length_map] at lengths
    exact lengths.symm
  have computes := window_computes rules stageId before snapshot values current positive within filled present here
  refine ⟨current, _, computes, (add_all_snoc _ _ _).symm ▸ computed_trend _ _ _ current computes, ?_⟩
  rw [window_values rules stageId before values within present, stageTrend]
  generalize recent : (values.drop (values.length - rules.trendWindow)).map (·.processedCount) = window
  have width : window.length = rules.trendWindow := by
    rw [← recent, List.length_map, List.length_drop]
    omega
  have terms : window.map UInt64.toNat = terms (start + (before.length - rules.trendWindow) * rate) rate window.length := by
    have dropped := congrArg (List.drop (before.length - rules.trendWindow)) counts
    rw [← List.map_drop, Progression.terms_drop] at dropped
    rw [← recent, List.map_map, size, List.length_map, List.length_drop, size]
    exact dropped
  have next : current.processedCount.toNat =
      start + (before.length - rules.trendWindow) * rate + window.length * rate := by
    rw [count, width, Nat.add_assoc, ← Nat.add_mul]
    congr 2
    omega
  rw [steady_direction_iff window current.processedCount _ rate moving (by omega) (by omega) terms next, width, count]
  exact ⟨fun ⟨first, sum, reach⟩ => ⟨first, sum, reach⟩, fun ⟨first, sum, reach⟩ => ⟨first, sum, reach⟩⟩

theorem far_enough_each (start rate window length n : Nat) (far : FarEnough start rate window length) (late : window ≤ n)
    (within : n < length) : StableAt start rate window n := by
  have ordered : window * rate ≤ n * rate := Nat.mul_le_mul_right rate late
  have last : n * rate ≤ (length - 1) * rate := Nat.mul_le_mul_right rate (by omega)
  have shift : (n - window) * rate ≤ (length - 1 - window) * rate := Nat.mul_le_mul_right rate (by omega)
  have first := far.first
  have reach := far.reach
  refine ⟨by omega, ?_, by omega⟩
  exact Nat.lt_of_le_of_lt (Progression.terms_mono _ _ rate window (by omega)) far.sum

theorem computes_filled (rules : AnalysisRules) (stageId : String) (before : List MetricsSnapshot)
    (current : StageMetricsSnapshot) (snapshot : MetricsSnapshot)
    (computes : ((MetricsAnalyzer.new rules).addAll before).evicted.Computes stageId current snapshot) :
    1 ≤ rules.trendWindow ∧ rules.trendWindow ≤ 59 ∧ rules.trendWindow ≤ before.length := by
  have same : ((MetricsAnalyzer.new rules).addAll before).evicted.rules = rules := (add_all_follows rules before).rules
  have filled := computes.filled
  rw [same, evicted_history, List.length_drop] at filled
  have within : rules.trendWindow ≤ 59 := by omega
  refine ⟨Nat.pos_of_ne_zero fun zero => computes.compared ?_, within, by omega⟩
  rw [historical_window rules before stageId within, zero, Nat.sub_zero, List.drop_length]
  rfl

theorem prefix_take (snapshots : List MetricsSnapshot) (n : Nat) (within : n < snapshots.length) :
    snapshots.take n ++ [snapshots[n]] <+: snapshots := by
  rw [List.take_append_getElem within]
  exact List.take_prefix _ _

theorem steady_rate_stable_iff (rules : AnalysisRules) (stageId : String) (start rate : Nat) (snapshots : List MetricsSnapshot)
    (moving : 1 ≤ rate) (steady : SteadyRate stageId start rate snapshots) :
    (∀ before snapshot current, before ++ [snapshot] <+: snapshots →
      ((MetricsAnalyzer.new rules).addAll before).evicted.Computes stageId current snapshot →
        ∃ trend, ((MetricsAnalyzer.new rules).addAll (before ++ [snapshot])).getTrend stageId = some trend ∧
          trend.throughputTrend = .stable) ↔
      rules.trendWindow = 0 ∨ 60 ≤ rules.trendWindow ∨ snapshots.length ≤ rules.trendWindow ∨
        FarEnough start rate rules.trendWindow snapshots.length := by
  constructor
  · intro every
    by_cases none : rules.trendWindow = 0 ∨ 60 ≤ rules.trendWindow ∨ snapshots.length ≤ rules.trendWindow
    · exact none.imp_right fun rest => rest.imp_right .inl
    · have stable (n : Nat) (late : rules.trendWindow ≤ n) (within : n < snapshots.length) :
          StableAt start rate rules.trendWindow n := by
        have size : (snapshots.take n).length = n := List.length_take_of_le (by omega)
        have inside := prefix_take snapshots n within
        obtain ⟨current, trend, computes, shown, iff⟩ := steady_step rules stageId start rate _ _ moving
          (steady_front stageId start rate _ _ steady inside) (by omega) (by omega) (size.symm ▸ late)
        obtain ⟨other, also, is⟩ := every _ _ current inside computes
        obtain rfl := Option.some.inj (shown.symm.trans also)
        exact size ▸ iff.mp is
      have first := stable rules.trendWindow (Nat.le_refl _) (by omega)
      have last := stable (snapshots.length - 1) (by omega) (by omega)
      exact .inr (.inr (.inr ⟨first.first, last.sum, last.reach⟩))
  · intro condition before snapshot current within computes
    obtain ⟨positive, narrow, filled⟩ := computes_filled rules stageId before current snapshot computes
    have size := within.length_le
    rw [List.length_append, List.length_singleton] at size
    have far : FarEnough start rate rules.trendWindow snapshots.length := by
      rcases condition with zero | wide | short | far
      · omega
      · omega
      · omega
      · exact far
    obtain ⟨_, trend, _, shown, iff⟩ := steady_step rules stageId start rate before snapshot moving
      (steady_front stageId start rate _ _ steady within) positive narrow filled
    exact ⟨trend, shown, iff.mpr (far_enough_each start rate _ _ _ far filled (by omega))⟩

-- One more request between each two snapshots.
def countingFrom (start length : Nat) : List MetricsSnapshot := (List.range length).map fun i => counted (.ofNat (start + i))

theorem counting_steady (start length : Nat) (small : start + length < 2 ^ 64) :
    SteadyRate "parse" start 1 (countingFrom start length) := by
  intro i snapshot there
  obtain ⟨j, listed, rfl⟩ := List.mem_map.mp (List.mem_of_getElem? there)
  rw [countingFrom, List.getElem?_map, Option.map_eq_some_iff] at there
  obtain ⟨k, inside, same⟩ := there
  obtain ⟨within, rfl⟩ := List.getElem?_eq_some_iff.mp inside
  rw [List.length_range] at within
  rw [List.getElem_range] at same
  refine ⟨⟨.ofNat (start + i), 0, 0⟩, same ▸ rfl, ?_⟩
  rw [Nat.mul_one]
  exact UInt64.toNat_ofNat_of_lt' (Nat.lt_trans (Nat.add_lt_add_left within start) small)

theorem steady_rate_stable_late :
    ∃ trend, ((MetricsAnalyzer.new .default).addAll (countingFrom 60 4)).getTrend "parse" = some trend ∧
      trend.throughputTrend = .stable :=
  (steady_rate_stable_iff .default "parse" 60 1 (countingFrom 60 4) (by decide) (counting_steady 60 4 (by decide))).mpr
    (.inr (.inr (.inr ⟨by decide, by decide, by decide⟩))) (countingFrom 60 3) (counted 63) ⟨63, 0, 0⟩ List.prefix_rfl
    ⟨by decide, by decide, rfl⟩

-- Four snapshots of a stage that finishes one request between each two.
theorem steady_rate_called_increasing :
    SteadyRate "parse" 0 1 (countingFrom 0 4) ∧
      (((MetricsAnalyzer.new .default).addAll (countingFrom 0 4)).getTrend "parse").map (·.throughputTrend) =
        some .increasing :=
  ⟨counting_steady 0 4 (by decide), by decide⟩

end Ners.Tuning

import Ners.Base.Unsigned
import Ners.Tuning.Rollback
import Ners.Tuning.Trends

set_option autoImplicit false

namespace Ners.Tuning

open Runs (Taken each_step_iff)
open Unsigned

-- A policy that looks at the memory pressure in a call or does nothing in it.
class Consults (π : Type) [TuningPolicy π] where
  consults : π → Instant → Bool
  idle : ∀ (p : π) asked acted snapshot analyzer, consults p asked = false →
    TuningPolicy.analyze p asked acted snapshot analyzer = ([], p)

instance : Consults ConservativePolicy where
  consults p asked := !p.inCooldown asked
  idle p asked acted snapshot analyzer cooling := by
    have cool : p.inCooldown asked = true := by simpa using cooling
    exact if_pos cool

instance : Consults AggressivePolicy where
  consults p asked := !p.inCooldown asked
  idle p asked acted snapshot analyzer cooling := by
    have cool : p.inCooldown asked = true := by simpa using cooling
    exact if_pos cool

-- The exact results of the additions and products that each function performs,
-- in its order. A partial sum is at most the sum.
def directionValues (history : List UInt64) (current : UInt64) : List Nat :=
  if history = [] then []
  else
    let avg := history.sum / UInt64.ofNat history.length
    let threshold := avg / 10
    [(history.map UInt64.toNat).sum, avg.toNat + threshold.toNat] ++
      if avg + threshold < current then [] else [current.toNat + threshold.toNat]

def stageValues (historical : List StageMetricsSnapshot) (current : StageMetricsSnapshot) : List Nat :=
  directionValues (historical.map (·.avgLatencyNs)) current.avgLatencyNs ++
    directionValues (historical.map (·.currentQueueLen)) current.currentQueueLen ++
    directionValues (historical.map (·.processedCount)) current.processedCount

def MetricsAnalyzer.trendValues (a : MetricsAnalyzer) (current : MetricsSnapshot) : List Nat :=
  if a.history.length < a.rules.trendWindow then []
  else current.stages.entries.flatMap fun stage =>
    if a.historical stage.1 = [] then [] else stageValues (a.historical stage.1) stage.2

def queueTotal (snapshot : MetricsSnapshot) : Nat := (snapshot.stages.entries.map (·.2.currentQueueLen.toNat)).sum

def MetricsAnalyzer.pressureValues (a : MetricsAnalyzer) : List Nat :=
  match a.history.getLast? with
  | none => []
  | some latest => [queueTotal latest]

def latencyTotal (snapshot : MetricsSnapshot) : Nat := (snapshot.stages.entries.map (·.2.avgLatencyNs.toNat)).sum

def averageValues (snapshot : MetricsSnapshot) : List Nat := [latencyTotal snapshot]

variable {π : Type}

def TuningEngine.rollbackValues (e : TuningEngine π) (snapshot : MetricsSnapshot) : List Nat :=
  if e.lastBaselineNs = 0 then [] else averageValues snapshot ++ [e.lastBaselineNs.toNat * 3]

def baselineValues (last currentAvg : UInt64) : List Nat :=
  if 0 < currentAvg then
    if last = 0 then [] else [last.toNat * 9, (last * 9).toNat + currentAvg.toNat]
  else []

def TuningEngine.values [TuningPolicy π] [Consults π] (e : TuningEngine π) : EngineCall → List Nat
  | .setEnabled _ => []
  | .process clock snapshot =>
      if e.enabled then
        e.analyzer.evicted.trendValues snapshot ++
          (if Consults.consults e.policy clock.asked then (e.analyzer.addSnapshot snapshot).pressureValues else []) ++
          e.rollbackValues snapshot ++
          (averageValues snapshot ++ baselineValues e.lastBaselineNs (calculateAvgLatency snapshot))
      else []

def InRange (values : List Nat) : Prop := ∀ v ∈ values, v < 2 ^ 64

-- The sum of the window is a word. A mean of several values then leaves room
-- for its tenth; where the window holds one value, it has to leave that itself.
structure WindowFits (history : List UInt64) (current : UInt64) : Prop where
  total : (history.map UInt64.toNat).sum < 2 ^ 64
  single : ∀ x, history = [x] → x.toNat + x.toNat / 10 < 2 ^ 64 ∧
    (current.toNat ≤ x.toNat + x.toNat / 10 → current.toNat + x.toNat / 10 < 2 ^ 64)

structure StageFits (historical : List StageMetricsSnapshot) (current : StageMetricsSnapshot) : Prop where
  latency : WindowFits (historical.map (·.avgLatencyNs)) current.avgLatencyNs
  queue : WindowFits (historical.map (·.currentQueueLen)) current.currentQueueLen
  throughput : WindowFits (historical.map (·.processedCount)) current.processedCount

-- len() is a usize.
def meanLatency (snapshot : MetricsSnapshot) : Nat := latencyTotal snapshot / (snapshot.stages.entries.length % 2 ^ 64)

structure Moderate [TuningPolicy π] [Consults π] (e : TuningEngine π) (clock : Clock) (snapshot : MetricsSnapshot) : Prop where
  windows : ∀ stageId current, e.analyzer.evicted.Computes stageId current snapshot →
    StageFits (e.analyzer.evicted.historical stageId) current
  queues : Consults.consults e.policy clock.asked = true → queueTotal snapshot < 2 ^ 64
  latencies : latencyTotal snapshot < 2 ^ 64
  baseline : e.lastBaselineNs ≠ 0 →
    if meanLatency snapshot = 0 then e.lastBaselineNs.toNat * 3 < 2 ^ 64
    else e.lastBaselineNs.toNat * 9 + meanLatency snapshot < 2 ^ 64

def ModerateCall [TuningPolicy π] [Consults π] (e : TuningEngine π) : EngineCall → Prop
  | .setEnabled _ => True
  | .process clock snapshot => e.enabled = true → Moderate e clock snapshot

theorem in_range_append (front back : List Nat) : InRange (front ++ back) ↔ InRange front ∧ InRange back :=
  List.forall_mem_append

theorem in_range_nil : InRange [] := List.forall_mem_nil _

theorem in_range_cons (v : Nat) (rest : List Nat) : InRange (v :: rest) ↔ v < 2 ^ 64 ∧ InRange rest := List.forall_mem_cons

theorem in_range_if (p : Prop) [Decidable p] (values : List Nat) : InRange (if p then [] else values) ↔ (¬ p → InRange values) := by
  by_cases holds : p
  · rw [if_pos holds]
    exact iff_of_true in_range_nil fun not => absurd holds not
  · rw [if_neg holds]
    exact (imp_iff_right holds).symm

-- What calculate_direction reckons with, once the sum of the window is a word.
theorem mean_exact (history : List UInt64) (few : history.length < 2 ^ 64) (total : (history.map UInt64.toNat).sum < 2 ^ 64) :
    (history.sum / UInt64.ofNat history.length).toNat = (history.map UInt64.toNat).sum / history.length := by
  rw [UInt64.toNat_div, sum_exact history total, UInt64.toNat_ofNat_of_lt' few]

theorem comparison_iff (avg current : UInt64) :
    InRange ((avg.toNat + (avg / 10).toNat) :: if avg + avg / 10 < current then [] else [current.toNat + (avg / 10).toNat]) ↔
      avg.toNat + avg.toNat / 10 < 2 ^ 64 ∧
        (current.toNat ≤ avg.toNat + avg.toNat / 10 → current.toNat + avg.toNat / 10 < 2 ^ 64) := by
  have tenth : (avg / 10).toNat = avg.toNat / 10 := UInt64.toNat_div avg 10
  rw [in_range_cons, in_range_if, tenth]
  refine and_congr_right fun fits => ?_
  have raised : (avg + avg / 10).toNat = avg.toNat + avg.toNat / 10 := by
    rw [← tenth]
    exact add_exact avg _ (by omega)
  rw [UInt64.lt_iff_toNat_lt, raised, Nat.not_lt, in_range_cons, and_iff_left in_range_nil]

theorem direction_values_iff (history : List UInt64) (current : UInt64) (some : history ≠ [])
    (few : history.length < 2 ^ 64) : InRange (directionValues history current) ↔ WindowFits history current := by
  unfold directionValues
  rw [if_neg some, List.cons_append, in_range_cons, List.singleton_append, comparison_iff]
  by_cases total : (history.map UInt64.toNat).sum < 2 ^ 64
  · rw [mean_exact history few total, and_iff_right total]
    have bound := current.toNat_lt
    cases history with
    | nil => exact absurd rfl some
    | cons x later =>
        cases later with
        | nil =>
            rw [List.map_singleton, List.sum_singleton, List.length_singleton, Nat.div_one]
            refine ⟨fun room => ⟨total, fun y same => ?_⟩, fun fits => fits.single x rfl⟩
            obtain ⟨rfl, _⟩ := List.cons.inj same
            exact room
        | cons y later =>
            -- The mean is at most half of a word.
            have half : ((x :: y :: later).map UInt64.toNat).sum / (x :: y :: later).length ≤ (2 ^ 64 - 1) / 2 := by
              refine (Nat.div_le_div_left (by simp) (by decide)).trans (Nat.div_le_div_right ?_)
              omega
            refine iff_of_true (by omega) ⟨total, fun z same => ?_⟩
            cases same
  · exact iff_of_false (fun range => total range.1) fun fits => total fits.total

theorem stage_values_iff (historical : List StageMetricsSnapshot) (current : StageMetricsSnapshot) (some : historical ≠ [])
    (few : historical.length < 2 ^ 64) : InRange (stageValues historical current) ↔ StageFits historical current := by
  have series (f : StageMetricsSnapshot → UInt64) :
      InRange (directionValues (historical.map f) (f current)) ↔ WindowFits (historical.map f) (f current) :=
    direction_values_iff _ _ (fun empty => some (List.map_eq_nil_iff.mp empty)) (by rw [List.length_map]; exact few)
  rw [stageValues, in_range_append, in_range_append, series (·.avgLatencyNs), series (·.currentQueueLen), series (·.processedCount)]
  exact ⟨fun each => ⟨each.1.1, each.1.2, each.2⟩, fun fits => ⟨⟨fits.latency, fits.queue⟩, fits.throughput⟩⟩

theorem trend_values_iff (a : MetricsAnalyzer) (snapshot : MetricsSnapshot) (few : a.rules.trendWindow < 2 ^ 64) :
    InRange (a.trendValues snapshot) ↔
      ∀ stageId current, a.Computes stageId current snapshot → StageFits (a.historical stageId) current := by
  have short (stageId : String) (filled : a.rules.trendWindow ≤ a.history.length) : (a.historical stageId).length < 2 ^ 64 := by
    have kept := List.length_filterMap_le (fun s : MetricsSnapshot => s.stages.lookup stageId)
      (a.history.drop (a.history.length - a.rules.trendWindow))
    rw [List.length_drop] at kept
    rw [MetricsAnalyzer.historical]
    omega
  unfold MetricsAnalyzer.trendValues
  rw [in_range_if, Nat.not_lt]
  constructor
  · intro range stageId current computes
    have member : (⟨stageId, current⟩ : Sigma fun _ => StageMetricsSnapshot) ∈ snapshot.stages.entries :=
      AList.mem_lookup_iff.mp computes.here
    refine (stage_values_iff _ _ computes.compared (short stageId computes.filled)).mp fun v inside => ?_
    refine range computes.filled v (List.mem_flatMap.mpr ⟨_, member, ?_⟩)
    rw [if_neg computes.compared]
    exact inside
  · intro fits filled v member
    obtain ⟨⟨stageId, current⟩, here, inside⟩ := List.mem_flatMap.mp member
    by_cases compared : a.historical stageId = []
    · rw [if_pos compared] at inside
      cases inside
    · rw [if_neg compared] at inside
      have fit := fits stageId current ⟨filled, compared, AList.mem_lookup_iff.mpr here⟩
      exact (stage_values_iff _ _ compared (short stageId filled)).mpr fit v inside

theorem pressure_values (a : MetricsAnalyzer) (snapshot : MetricsSnapshot) :
    (a.addSnapshot snapshot).pressureValues = [queueTotal snapshot] := by
  rw [MetricsAnalyzer.pressureValues, MetricsAnalyzer.addSnapshot, List.getLast?_concat]

theorem average_exact (snapshot : MetricsSnapshot) (total : latencyTotal snapshot < 2 ^ 64) :
    (calculateAvgLatency snapshot).toNat = meanLatency snapshot := by
  have same : latencyTotal snapshot = ((snapshot.stages.entries.map (·.2.avgLatencyNs)).map UInt64.toNat).sum := by
    rw [List.map_map]
    rfl
  have sum := sum_exact _ (same ▸ total)
  rw [← same] at sum
  have count : (UInt64.ofNat snapshot.stages.entries.length).toNat = snapshot.stages.entries.length % 2 ^ 64 := UInt64.toNat_ofNat'
  unfold calculateAvgLatency meanLatency
  by_cases some : 0 < UInt64.ofNat snapshot.stages.entries.length
  · rw [if_pos some, UInt64.toNat_div, sum, count]
  · have none : snapshot.stages.entries.length % 2 ^ 64 = 0 := by
      rw [UInt64.lt_iff_toNat_lt, count] at some
      exact Nat.eq_zero_of_not_pos some
    rw [if_neg some, none, Nat.div_zero]
    rfl

theorem baseline_values_iff (e : TuningEngine π) (snapshot : MetricsSnapshot) (total : latencyTotal snapshot < 2 ^ 64) :
    InRange (e.rollbackValues snapshot) ∧ InRange (baselineValues e.lastBaselineNs (calculateAvgLatency snapshot)) ↔
      (e.lastBaselineNs ≠ 0 →
        if meanLatency snapshot = 0 then e.lastBaselineNs.toNat * 3 < 2 ^ 64
        else e.lastBaselineNs.toNat * 9 + meanLatency snapshot < 2 ^ 64) := by
  have mean := average_exact snapshot total
  rw [TuningEngine.rollbackValues, baselineValues, averageValues]
  by_cases fresh : e.lastBaselineNs = 0
  · rw [if_pos fresh, if_pos fresh, ite_self]
    exact iff_of_true ⟨in_range_nil, in_range_nil⟩ fun known => absurd fresh known
  · rw [if_neg fresh, if_neg fresh, List.singleton_append, in_range_cons, and_iff_right total, in_range_cons,
      and_iff_left in_range_nil, imp_iff_right fresh]
    by_cases idle : meanLatency snapshot = 0
    · have still : ¬ 0 < calculateAvgLatency snapshot := by
        rw [UInt64.lt_iff_toNat_lt, mean, idle]
        exact Nat.lt_irrefl 0
      rw [if_neg still, if_pos idle]
      exact and_iff_left in_range_nil
    · have moving : 0 < calculateAvgLatency snapshot := by
        rw [UInt64.lt_iff_toNat_lt, mean]
        exact Nat.pos_of_ne_zero idle
      rw [if_pos moving, if_neg idle, in_range_cons, in_range_cons, and_iff_left in_range_nil, mean]
      constructor
      · rintro ⟨_, product, sum⟩
        rwa [mul_exact _ 9 product] at sum
      · intro sum
        have product : (e.lastBaselineNs * 9).toNat = e.lastBaselineNs.toNat * 9 :=
          mul_exact _ 9 (Nat.lt_of_le_of_lt (Nat.le_add_right _ _) sum)
        rw [product]
        omega

variable [TuningPolicy π] [Consults π]

theorem call_in_range_iff (e : TuningEngine π) (call : EngineCall) (few : e.analyzer.rules.trendWindow < 2 ^ 64) :
    InRange (e.values call) ↔ ModerateCall e call := by
  cases call with
  | setEnabled enabled => exact iff_of_true in_range_nil trivial
  | process clock snapshot =>
      cases enabled : e.enabled with
      | false =>
          simp only [TuningEngine.values, ModerateCall, enabled, Bool.false_eq_true, if_false, false_implies, iff_true]
          exact in_range_nil
      | true =>
          simp only [TuningEngine.values, ModerateCall, enabled, if_true, true_implies, in_range_append, pressure_values]
          have windows := trend_values_iff e.analyzer.evicted snapshot few
          have queues : InRange (if Consults.consults e.policy clock.asked then [queueTotal snapshot] else []) ↔
              (Consults.consults e.policy clock.asked = true → queueTotal snapshot < 2 ^ 64) := by
            cases Consults.consults e.policy clock.asked with
            | false => exact iff_of_true in_range_nil nofun
            | true => simp [InRange]
          have latencies : InRange (averageValues snapshot) ↔ latencyTotal snapshot < 2 ^ 64 := by simp [InRange, averageValues]
          rw [windows, queues, latencies]
          constructor
          · rintro ⟨⟨⟨fits, pressure⟩, rollback⟩, total, update⟩
            exact ⟨fits, pressure, total, (baseline_values_iff e snapshot total).mp ⟨rollback, update⟩⟩
          · rintro ⟨fits, pressure, total, baseline⟩
            obtain ⟨rollback, update⟩ := (baseline_values_iff e snapshot total).mpr baseline
            exact ⟨⟨⟨fits, pressure⟩, rollback⟩, total, update⟩

omit [Consults π] in
theorem step_rules (e e' : TuningEngine π) (call : EngineCall) (taken : e.step call = some e') :
    e'.analyzer.rules = e.analyzer.rules := by
  cases call with
  | setEnabled enabled =>
      obtain rfl := Option.some.inj taken
      rfl
  | process clock snapshot =>
      obtain rfl := Option.some.inj taken
      cases enabled : e.enabled with
      | false => rw [process_disabled e clock snapshot enabled]
      | true =>
          unfold TuningEngine.process
          rw [if_pos enabled]
          dsimp only
          rw [apply_each, rollback_if]
          exact (compute_trends_same e.analyzer.evicted snapshot).2.1

theorem engine_in_range_iff (policy : π) (c : TuningConstraints) (calls : List EngineCall) :
    (∀ before call e e', Taken TuningEngine.step (.new policy c) calls before call e e' → ∀ v ∈ e.values call, v < 2 ^ 64) ↔
      ∀ before call e e', Taken TuningEngine.step (.new policy c) calls before call e e' → ModerateCall e call := by
  refine each_step_iff (fun _ (e : TuningEngine π) => e.analyzer.rules = .default) (fun _ e call _ => InRange (e.values call))
    (fun _ e call _ => ModerateCall e call) _ calls rfl ?_ ?_
  · intro before call e e' rules _
    exact call_in_range_iff e call (by rw [rules]; decide)
  · intro before call e e' rules there _
    exact (step_rules e e' call there.taken).trans rules

-- A gauge that was counted down once too often, beside a queue of one.
def wrappedGauge : MetricsSnapshot :=
  ⟨((∅ : AList fun _ : String => StageMetricsSnapshot).insert "parse" ⟨0, 0 - 1, 0⟩).insert "net_out" ⟨0, 1, 0⟩⟩

theorem wrapped_gauge_overflows :
    ¬ ∀ before call e e', Taken TuningEngine.step (.new (ConservativePolicy.new .default 0) .default)
      [.process ⟨0, 0, fun _ => 0⟩ wrappedGauge] before call e e' → ∀ v ∈ e.values call, v < 2 ^ 64 := by
  intro every
  have range := every [] _ _ _ (Runs.taken_first _ _ _ [] rfl)
  exact absurd (range (2 ^ 64) (by decide)) (by decide)

end Ners.Tuning

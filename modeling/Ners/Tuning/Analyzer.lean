import Ners.Base.Window
import Mathlib.Algebra.Order.Field.Rat
import Mathlib.Data.List.AList
import Mathlib.Data.UInt

set_option autoImplicit false

namespace Ners.Tuning

-- An f64 as far as comparisons with it go.
inductive F64 where
  | nan
  | infinite (negative : Bool)
  | finite (value : ℚ)
deriving DecidableEq

-- x > threshold, for a finite x.
def F64.exceededBy (threshold : F64) (x : ℚ) : Bool :=
  match threshold with
  | .nan => false
  | .infinite negative => negative
  | .finite value => value < x

-- *threshold >= 0.0 && *threshold <= 1.0
def F64.inUnit : F64 → Bool
  | .finite value => 0 ≤ value && value ≤ 1
  | _ => false

structure StageMetricsSnapshot where
  processedCount : UInt64
  currentQueueLen : UInt64
  latencySumNs : UInt64
deriving DecidableEq

def StageMetricsSnapshot.avgLatencyNs (m : StageMetricsSnapshot) : UInt64 :=
  if 0 < m.processedCount then m.latencySumNs / m.processedCount else 0

-- The entries of the map stand in its iteration order.
structure MetricsSnapshot where
  stages : AList fun _ : String => StageMetricsSnapshot

inductive Direction where
  | increasing
  | decreasing
  | stable
deriving DecidableEq

structure StageTrend where
  latencyTrend : Direction
  queueTrend : Direction
  throughputTrend : Direction
deriving DecidableEq

structure AnalysisRules where
  p99TargetNs : UInt64
  queueThreshold : UInt64
  trendWindow : Nat
  memoryPressureThreshold : F64

def AnalysisRules.default : AnalysisRules := ⟨5000000, 500, 3, .finite (8 / 10)⟩

structure MetricsAnalyzer where
  history : List MetricsSnapshot
  trends : AList fun _ : String => StageTrend
  rules : AnalysisRules
  maxHistory : Nat

def MetricsAnalyzer.new (rules : AnalysisRules) : MetricsAnalyzer := ⟨[], ∅, rules, 60⟩

-- Sums of u64 wrap.
def calculateDirection (history : List UInt64) (current : UInt64) : Direction :=
  if history = [] then .stable
  else
    let avg := history.sum / UInt64.ofNat history.length
    let threshold := avg / 10
    if avg + threshold < current then .increasing
    else if current + threshold < avg then .decreasing
    else .stable

-- The values of one stage in the window, where it is present.
def stageTrend (historical : List StageMetricsSnapshot) (current : StageMetricsSnapshot) : StageTrend where
  latencyTrend := calculateDirection (historical.map (·.avgLatencyNs)) current.avgLatencyNs
  queueTrend := calculateDirection (historical.map (·.currentQueueLen)) current.currentQueueLen
  throughputTrend := calculateDirection (historical.map (·.processedCount)) current.processedCount

def MetricsAnalyzer.computeTrends (a : MetricsAnalyzer) (current : MetricsSnapshot) : MetricsAnalyzer :=
  if a.history.length < a.rules.trendWindow then a
  else
    let windowStart := a.history.length - a.rules.trendWindow
    { a with
      trends := current.stages.entries.foldl (fun trends stage =>
        let historical := (a.history.drop windowStart).filterMap fun s => s.stages.lookup stage.1
        if historical = [] then trends else trends.insert stage.1 (stageTrend historical stage.2)) a.trends }

def MetricsAnalyzer.addSnapshot (a : MetricsAnalyzer) (snapshot : MetricsSnapshot) : MetricsAnalyzer :=
  let a := { a with history := Window.evict a.maxHistory a.history }
  let a := a.computeTrends snapshot
  { a with history := a.history ++ [snapshot] }

def bottleneckLoop (target : UInt64) : List (Sigma fun _ : String => StageMetricsSnapshot) → UInt64 → Option String → Option String
  | [], _, bottleneck => bottleneck
  | stage :: later, maxLatency, bottleneck =>
      let avgLatency := stage.2.avgLatencyNs
      if maxLatency < avgLatency ∧ target < avgLatency then bottleneckLoop target later avgLatency (some stage.1)
      else bottleneckLoop target later maxLatency bottleneck

def MetricsAnalyzer.identifyBottleneck (a : MetricsAnalyzer) : Option String :=
  a.history.getLast?.bind fun latest => bottleneckLoop a.rules.p99TargetNs latest.stages.entries 0 none

def MetricsAnalyzer.detectQueueOverflow (a : MetricsAnalyzer) : List String :=
  match a.history.getLast? with
  | none => []
  | some latest => (latest.stages.entries.filter fun stage => a.rules.queueThreshold < stage.2.currentQueueLen).map (·.1)

-- The quotient is taken exactly.
def MetricsAnalyzer.getMemoryPressure (a : MetricsAnalyzer) : ℚ :=
  match a.history.getLast? with
  | none => 0
  | some latest =>
      let totalQueue := (latest.stages.entries.map (·.2.currentQueueLen)).sum
      min (totalQueue.toNat / 10000) 1

def MetricsAnalyzer.getTrend (a : MetricsAnalyzer) (stageId : String) : Option StageTrend := a.trends.lookup stageId

end Ners.Tuning

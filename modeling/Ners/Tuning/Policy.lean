import Ners.Tuning.Analyzer
import Mathlib.Data.Rat.Floor

set_option autoImplicit false

namespace Ners.Tuning

-- Nanoseconds on the monotonic clock.
abbrev Instant := Int

def seconds (n : Nat) : Nat := n * 1000000000

-- last.elapsed(), read when the clock shows now.
def elapsed (last now : Instant) : Nat := (now - last).toNat

inductive TuningAction where
  | increaseQueueSize (stage : String) (newSize : Nat)
  | decreaseQueueSize (stage : String) (newSize : Nat)
  | enableBatching (stage : String)
  | adjustBackpressure (threshold : F64)
deriving DecidableEq

def TuningAction.newSize : TuningAction → Option Nat
  | .increaseQueueSize _ newSize => some newSize
  | .decreaseQueueSize _ newSize => some newSize
  | .enableBatching _ => none
  | .adjustBackpressure _ => none

-- A policy reads the clock when it is asked and once more after it has acted.
class TuningPolicy (π : Type) where
  analyze : π → (asked acted : Instant) → MetricsSnapshot → MetricsAnalyzer → List TuningAction × π

-- x as usize: toward zero, and saturating.
def asUsize (x : ℚ) : Nat := min ⌊x⌋.toNat (2 ^ 64 - 1)

def raisedSize (stepSize : ℚ) (currentQueue : Nat) : Nat := min (asUsize (currentQueue * (1 + stepSize))) 10000

def loweredSize (stepSize : ℚ) (currentQueue : Nat) : Nat := max (asUsize (currentQueue * (1 - stepSize))) 100

def StageMetricsSnapshot.currentQueue (m : StageMetricsSnapshot) : Nat := m.currentQueueLen.toNat

-- The loop over the stages of the snapshot under high memory pressure.
def reductions (stepSize : ℚ) (snapshot : MetricsSnapshot) : List TuningAction :=
  snapshot.stages.entries.filterMap fun stage =>
    if 100 < stage.2.currentQueue then some (.decreaseQueueSize stage.1 (loweredSize stepSize stage.2.currentQueue)) else none

-- step_size and cooldown are set by new and never change.
structure ConservativePolicy where
  rules : AnalysisRules
  lastAction : Instant

def ConservativePolicy.stepSize : ℚ := 1 / 10

def ConservativePolicy.cooldown : Nat := seconds 10

def ConservativePolicy.new (rules : AnalysisRules) (now : Instant) : ConservativePolicy := ⟨rules, now - seconds 60⟩

def ConservativePolicy.inCooldown (p : ConservativePolicy) (now : Instant) : Bool := elapsed p.lastAction now < cooldown

-- Rule 1
def ConservativePolicy.relieve (p : ConservativePolicy) (snapshot : MetricsSnapshot) (analyzer : MetricsAnalyzer) : List TuningAction :=
  match analyzer.identifyBottleneck with
  | none => []
  | some bottleneck =>
      match snapshot.stages.lookup bottleneck with
      | none => []
      | some metrics =>
          if p.rules.p99TargetNs < metrics.avgLatencyNs then
            let newSize := raisedSize stepSize metrics.currentQueue
            if metrics.currentQueue < newSize then [.increaseQueueSize bottleneck newSize] else []
          else []

-- Rule 2
def ConservativePolicy.reduce (p : ConservativePolicy) (snapshot : MetricsSnapshot) (analyzer : MetricsAnalyzer) : List TuningAction :=
  if p.rules.memoryPressureThreshold.exceededBy analyzer.getMemoryPressure then reductions stepSize snapshot else []

-- Rule 3
def batch (analyzer : MetricsAnalyzer) : List TuningAction :=
  analyzer.detectQueueOverflow.filterMap fun stageId =>
    match analyzer.getTrend stageId with
    | none => none
    | some trend => if trend.queueTrend = .increasing then some (.enableBatching stageId) else none

def ConservativePolicy.analyze (p : ConservativePolicy) (asked acted : Instant) (snapshot : MetricsSnapshot)
    (analyzer : MetricsAnalyzer) : List TuningAction × ConservativePolicy :=
  if p.inCooldown asked then ([], p)
  else
    let actions := p.relieve snapshot analyzer ++ p.reduce snapshot analyzer ++ batch analyzer
    (actions.take 3, if actions = [] then p else { p with lastAction := acted })

instance : TuningPolicy ConservativePolicy := ⟨ConservativePolicy.analyze⟩

structure AggressivePolicy where
  lastAction : Instant

def AggressivePolicy.stepSize : ℚ := 2 / 10

def AggressivePolicy.cooldown : Nat := seconds 5

def AggressivePolicy.new (now : Instant) : AggressivePolicy := ⟨now - seconds 60⟩

def AggressivePolicy.inCooldown (p : AggressivePolicy) (now : Instant) : Bool := elapsed p.lastAction now < cooldown

def AggressivePolicy.relieve (snapshot : MetricsSnapshot) (analyzer : MetricsAnalyzer) : List TuningAction :=
  match analyzer.identifyBottleneck with
  | none => []
  | some bottleneck =>
      match snapshot.stages.lookup bottleneck with
      | none => []
      | some metrics => [.increaseQueueSize bottleneck (raisedSize stepSize metrics.currentQueue)]

def AggressivePolicy.reduce (snapshot : MetricsSnapshot) (analyzer : MetricsAnalyzer) : List TuningAction :=
  if 7 / 10 < analyzer.getMemoryPressure then reductions stepSize snapshot else []

def AggressivePolicy.analyze (p : AggressivePolicy) (asked acted : Instant) (snapshot : MetricsSnapshot)
    (analyzer : MetricsAnalyzer) : List TuningAction × AggressivePolicy :=
  if p.inCooldown asked then ([], p)
  else
    let actions := relieve snapshot analyzer ++ reduce snapshot analyzer
    (actions.take 5, if actions = [] then p else { p with lastAction := acted })

instance : TuningPolicy AggressivePolicy := ⟨AggressivePolicy.analyze⟩

end Ners.Tuning

import Ners.Base.Window

set_option autoImplicit false

namespace Ners.Ml

structure FeatureVector where
  p50Latency : Float32
  p99Latency : Float32
  p100Latency : Float32
  latencyTrend : Float32
  queueDepth : Float32
  queueOverflowRate : Float32
  queueTrend : Float32
  throughput : Float32
  throughputTrend : Float32
  memoryPressure : Float32
  errorRate : Float32
  loadCategory : Float32

def FeatureVector.zeros : FeatureVector := ⟨0, 0, 0, 0, 0, 0, 0, 0, 0, 0, 0, 0⟩

def FeatureVector.asArray (f : FeatureVector) : List Float32 :=
  [f.p50Latency, f.p99Latency, f.p100Latency, f.latencyTrend, f.queueDepth, f.queueOverflowRate, f.queueTrend, f.throughput,
    f.throughputTrend, f.memoryPressure, f.errorRate, f.loadCategory]

def featureCount : Nat := 12

structure MetricsWindow where
  features : List FeatureVector
  windowSize : Nat

def MetricsWindow.new (windowSize : Nat) : MetricsWindow := ⟨[], windowSize⟩

-- One sample a second makes a minute.
def MetricsWindow.default : MetricsWindow := .new 60

def MetricsWindow.push (w : MetricsWindow) (features : FeatureVector) : MetricsWindow :=
  { w with features := Window.push w.windowSize w.features features }

def MetricsWindow.asTensor (w : MetricsWindow) : List Float32 := w.features.flatMap FeatureVector.asArray

def MetricsWindow.latest (w : MetricsWindow) : Option FeatureVector := w.features.getLast?

def MetricsWindow.len (w : MetricsWindow) : Nat := w.features.length

theorem tensor_length (w : MetricsWindow) : w.asTensor.length = featureCount * w.len := by
  unfold MetricsWindow.asTensor MetricsWindow.len
  induction w.features with
  | nil => rfl
  | cons first later ih =>
      rw [List.flatMap_cons, List.length_append, ih, List.length_cons, Nat.mul_add, Nat.add_comm]
      rfl

-- Feature i of vector k lies at place 12k + i.
theorem tensor_entry (w : MetricsWindow) (k i : Nat) (f : FeatureVector) (there : w.features[k]? = some f) (within : i < featureCount) :
    w.asTensor[featureCount * k + i]? = f.asArray[i]? := by
  unfold MetricsWindow.asTensor
  generalize w.features = features at there
  induction features generalizing k with
  | nil => cases there
  | cons first later ih =>
      have size : first.asArray.length = featureCount := rfl
      rw [List.flatMap_cons]
      cases k with
      | zero =>
          obtain rfl := Option.some.inj there
          rw [Nat.mul_zero, Nat.zero_add, List.getElem?_append_left (size ▸ within)]
      | succ k =>
          rw [List.getElem?_append_right (by rw [size, Nat.mul_succ]; omega), size,
            show featureCount * (k + 1) + i - featureCount = featureCount * k + i by rw [Nat.mul_succ]; omega]
          exact ih k there

end Ners.Ml

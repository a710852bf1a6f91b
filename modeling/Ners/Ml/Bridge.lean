import Ners.Base.Runs
import Ners.Ml.Features
import Mathlib.Logic.Function.Basic

set_option autoImplicit false

namespace Ners.Ml

open Function (update)

inductive MlBridgeError where
  | modelUnavailable
  | predictionFailed (reason : String)
  | invalidInput (reason : String)
  | timeout
deriving DecidableEq

inductive PredictedAction where
  | noOp
  | increaseQueue (stage : String) (delta : Int32)
  | decreaseQueue (stage : String) (delta : Int32)
  | enableBatching (stage : String)
  | adjustBackpressure (threshold : Float32)

structure MlPrediction where
  action : PredictedAction
  confidence : Float32
  predictedP99Ns : UInt64
  modelVersion : String

-- Times are nanoseconds.
structure MlBridgeConfig where
  cacheDuration : Nat
  minConfidence : Float32

def MlBridgeConfig.default : MlBridgeConfig := ⟨5000000000, 0.7⟩

structure CachedPrediction where
  prediction : MlPrediction
  timestamp : Nat

structure MlPolicyBridge where
  config : MlBridgeConfig
  metricsWindow : MetricsWindow
  cache : String → Option CachedPrediction
  predictionCount : UInt64
  fallbackCount : UInt64
  enabled : Bool

def MlPolicyBridge.new (config : MlBridgeConfig) : MlPolicyBridge where
  config := config
  metricsWindow := .default
  cache := fun _ => none
  predictionCount := 0
  fallbackCount := 0
  enabled := true

def MlPolicyBridge.addFeatures (b : MlPolicyBridge) (features : FeatureVector) : MlPolicyBridge :=
  { b with metricsWindow := b.metricsWindow.push features }

-- The rules in their order, each with its confidence.
def heuristicAction (features : FeatureVector) : PredictedAction × Float32 :=
  if features.p99Latency > 0.5 ∧ features.queueDepth < 0.3 then (.enableBatching "parse", 0.8)
  else if features.p99Latency > 0.5 ∧ features.queueDepth > 0.7 then
    (.increaseQueue "app" (features.queueDepth * 100).toInt32, 0.85)
  else if features.memoryPressure > 0.8 ∧ features.throughput < 0.3 then (.decreaseQueue "all" 50, 0.75)
  else if features.errorRate > 0.1 then (.adjustBackpressure 0.8, 0.9)
  else if features.p99Latency < 0.2 ∧ features.queueDepth < 0.5 then (.noOp, 0.95)
  else (.noOp, 0.5)

def heuristicPredict (features : FeatureVector) : MlPrediction :=
  let (action, confidence) := heuristicAction features
  { action := action
    confidence := confidence
    predictedP99Ns :=
      match action with
      | .noOp => (features.p99Latency * 10000000).toUInt64
      | _ => (features.p99Latency * 0.8 * 10000000).toUInt64
    modelVersion := "heuristic-v1" }

-- elapsed() is the time since the timestamp.
def MlPolicyBridge.getCachedPrediction (b : MlPolicyBridge) (now : Nat) : Option MlPrediction :=
  match b.cache "latest" with
  | some cached => if now - cached.timestamp < b.config.cacheDuration then some cached.prediction else none
  | none => none

def MlPolicyBridge.cachePrediction (b : MlPolicyBridge) (prediction : MlPrediction) (now : Nat) : MlPolicyBridge :=
  { b with cache := update b.cache "latest" (some ⟨prediction, now⟩) }

-- The clock is read for the look into the cache, and again to store.
def MlPolicyBridge.predict (b : MlPolicyBridge) (checked stored : Nat) : Except MlBridgeError MlPrediction × MlPolicyBridge :=
  if !b.enabled then (.error .modelUnavailable, b)
  else
    match b.getCachedPrediction checked with
    | some cached => (.ok cached, b)
    | none =>
        match b.metricsWindow.latest with
        | none => (.error (.invalidInput "No features available"), b)
        | some features =>
            let prediction := heuristicPredict features
            let b := { b with predictionCount := b.predictionCount + 1 }
            (.ok prediction, b.cachePrediction prediction stored)

def MlPolicyBridge.predictIfConfident (b : MlPolicyBridge) (checked stored : Nat) : Option MlPrediction × MlPolicyBridge :=
  match b.predict checked stored with
  | (.ok prediction, b) =>
      if prediction.confidence ≥ b.config.minConfidence then (some prediction, b)
      else (none, { b with fallbackCount := b.fallbackCount + 1 })
  | (.error _, b) => (none, { b with fallbackCount := b.fallbackCount + 1 })

def MlPolicyBridge.setEnabled (b : MlPolicyBridge) (enabled : Bool) : MlPolicyBridge := { b with enabled := enabled }

structure MlBridgeStats where
  predictionCount : UInt64
  fallbackCount : UInt64
  windowSize : Nat

def MlPolicyBridge.stats (b : MlPolicyBridge) : MlBridgeStats := ⟨b.predictionCount, b.fallbackCount, b.metricsWindow.len⟩

end Ners.Ml

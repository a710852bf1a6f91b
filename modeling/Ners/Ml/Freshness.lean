import Ners.Base.Recall
import Ners.Ml.Bridge
import Mathlib.Data.UInt

set_option autoImplicit false

namespace Ners.Ml

open Function (update)
open Recall (Event Memo Covers after noted stores)
open Runs (carried execute)

-- Features come in at moments that the bridge does not see.
inductive BridgeCall where
  | addFeatures (now : Nat) (features : FeatureVector)
  | predict (checked stored : Nat)
  | predictIfConfident (checked stored : Nat)
  | setEnabled (enabled : Bool)

def BridgeCall.readings : BridgeCall → List Nat
  | .addFeatures now _ => [now]
  | .predict checked stored | .predictIfConfident checked stored => [checked, stored]
  | .setEnabled _ => []

def BridgeCall.added : BridgeCall → Option (Nat × FeatureVector)
  | .addFeatures now features => some (now, features)
  | _ => none

def Forward (calls : List BridgeCall) : Prop := (calls.flatMap BridgeCall.readings).Pairwise (· ≤ ·)

def MlPolicyBridge.step (b : MlPolicyBridge) : BridgeCall → Option MlPolicyBridge
  | .addFeatures _ features => some (b.addFeatures features)
  | .predict checked stored => some (b.predict checked stored).2
  | .predictIfConfident checked stored => some (b.predictIfConfident checked stored).2
  | .setEnabled enabled => some (b.setEnabled enabled)

-- The moments at which the model was run, and the requests it was not used for.
structure BridgeHistory where
  computed : List Nat
  declined : Nat

def MlPolicyBridge.computes (b : MlPolicyBridge) : BridgeCall → List Nat
  | .predict checked stored | .predictIfConfident checked stored =>
      if b.enabled ∧ (b.getCachedPrediction checked).isNone ∧ b.metricsWindow.latest.isSome then [stored] else []
  | _ => []

def MlPolicyBridge.declines (b : MlPolicyBridge) : BridgeCall → Bool
  | .predictIfConfident checked stored => (b.predictIfConfident checked stored).1.isNone
  | _ => false

def MlPolicyBridge.record (b : MlPolicyBridge) (call : BridgeCall) (history : BridgeHistory) : BridgeHistory :=
  ⟨history.computed ++ b.computes call, history.declined + (b.declines call).toNat⟩

def bridgeHistory (config : MlBridgeConfig) (calls : List BridgeCall) : BridgeHistory :=
  carried MlPolicyBridge.step MlPolicyBridge.record (.new config) ⟨[], 0⟩ calls

def MlPolicyBridge.memo (b : MlPolicyBridge) : Memo FeatureVector MlPrediction :=
  ⟨b.metricsWindow.latest, (b.cache "latest").map fun cached => (cached.prediction, cached.timestamp)⟩

-- What a call is to the cache: nothing while the bridge is disabled.
def MlPolicyBridge.event (b : MlPolicyBridge) : BridgeCall → Option (Event FeatureVector)
  | .addFeatures now features => some (.note now features)
  | .predict checked stored | .predictIfConfident checked stored => if b.enabled then some (.ask checked stored) else none
  | .setEnabled _ => none

def MlPolicyBridge.recalled (b : MlPolicyBridge) : Option (Event FeatureVector) → Memo FeatureVector MlPrediction
  | some event => b.memo.next heuristicPredict b.config.cacheDuration event
  | none => b.memo

theorem cached_remembered (b : MlPolicyBridge) (now : Nat) :
    b.getCachedPrediction now = b.memo.remembered b.config.cacheDuration now := by
  rw [MlPolicyBridge.getCachedPrediction, Memo.remembered, MlPolicyBridge.memo]
  cases b.cache "latest" with
  | none => rfl
  | some cached => rfl

-- Everything that predict can come to.
inductive Predicted (b : MlPolicyBridge) (checked stored : Nat) : Except MlBridgeError MlPrediction × MlPolicyBridge → Prop where
  | disabled (off : b.enabled = false) : Predicted b checked stored (.error .modelUnavailable, b)
  | cached (prediction : MlPrediction) (on : b.enabled = true) (hit : b.getCachedPrediction checked = some prediction) :
      Predicted b checked stored (.ok prediction, b)
  | empty (on : b.enabled = true) (miss : b.getCachedPrediction checked = none) (none : b.metricsWindow.latest = none) :
      Predicted b checked stored (.error (.invalidInput "No features available"), b)
  | computed (features : FeatureVector) (on : b.enabled = true) (miss : b.getCachedPrediction checked = none)
      (latest : b.metricsWindow.latest = some features) :
      Predicted b checked stored (.ok (heuristicPredict features), { b with
        predictionCount := b.predictionCount + 1
        cache := update b.cache "latest" (some ⟨heuristicPredict features, stored⟩) })

theorem predict_cases (b : MlPolicyBridge) (checked stored : Nat) : Predicted b checked stored (b.predict checked stored) := by
  unfold MlPolicyBridge.predict
  by_cases on : b.enabled = true
  · rw [if_neg (by rw [on]; decide)]
    cases hit : b.getCachedPrediction checked with
    | some prediction => exact .cached prediction on hit
    | none =>
        cases latest : b.metricsWindow.latest with
        | none => exact .empty on hit latest
        | some features => exact .computed features on hit latest
  · have off := Bool.eq_false_iff.mpr on
    rw [if_pos (by rw [off]; decide)]
    exact .disabled off

-- What a call leaves of the bridge.
structure Recalled (b b' : MlPolicyBridge) (call : BridgeCall) : Prop where
  config : b'.config = b.config
  window : b'.metricsWindow = (call.added.map fun note => b.metricsWindow.push note.2).getD b.metricsWindow
  memo : b'.memo = b.recalled (b.event call)
  computed : b.computes call = ((b.event call).map (b.memo.stores b.config.cacheDuration)).getD []
  predictions : b'.predictionCount = b.predictionCount + .ofNat (b.computes call).length
  fallbacks : b'.fallbackCount = b.fallbackCount + .ofNat (b.declines call).toNat

-- predict_if_confident does what predict does, and counts what it turns down.
theorem confident_predict (b : MlPolicyBridge) (checked stored : Nat) :
    (b.predictIfConfident checked stored).2 = { (b.predict checked stored).2 with
      fallbackCount := (b.predict checked stored).2.fallbackCount + .ofNat (b.predictIfConfident checked stored).1.isNone.toNat } := by
  unfold MlPolicyBridge.predictIfConfident
  rcases b.predict checked stored with ⟨error | prediction, b'⟩
  · rfl
  · by_cases confident : prediction.confidence ≥ b'.config.minConfidence
    · simp only [if_pos confident]
      rw [show b'.fallbackCount + UInt64.ofNat (some prediction).isNone.toNat = b'.fallbackCount from UInt64.add_zero _]
    · simp only [if_neg confident]
      rfl

theorem predict_recalled (b : MlPolicyBridge) (checked stored : Nat) :
    Recalled b (b.predict checked stored).2 (.predict checked stored) ∧
      (b.predict checked stored).2.fallbackCount = b.fallbackCount := by
  have remembered := cached_remembered b checked
  have newest : b.memo.newest = b.metricsWindow.latest := rfl
  have outcome := predict_cases b checked stored
  generalize b.predict checked stored = out at outcome
  have still : b.fallbackCount = b.fallbackCount + .ofNat (b.declines (.predict checked stored)).toNat := (UInt64.add_zero _).symm
  cases outcome with
  | disabled off =>
      have none : b.event (.predict checked stored) = none := if_neg (by rw [off]; decide)
      have moments : b.computes (.predict checked stored) = [] := if_neg fun all => by cases off.symm.trans all.1
      refine ⟨⟨rfl, rfl, ?_, ?_, ?_, still⟩, rfl⟩
      · rw [none]
        rfl
      · rw [none, moments]
        rfl
      · rw [moments]
        exact (UInt64.add_zero _).symm
  | cached prediction on hit =>
      have asks : b.event (.predict checked stored) = some (.ask checked stored) := if_pos on
      have moments : b.computes (.predict checked stored) = [] := if_neg fun all => by
        rw [hit] at all
        cases all.2.1
      refine ⟨⟨rfl, rfl, ?_, ?_, ?_, still⟩, rfl⟩
      · rw [asks, MlPolicyBridge.recalled, Memo.next, ← remembered, hit]
      · rw [asks, moments, Option.map_some, Option.getD_some, Memo.stores, ← remembered, hit]
      · rw [moments]
        exact (UInt64.add_zero _).symm
  | empty on miss none =>
      have asks : b.event (.predict checked stored) = some (.ask checked stored) := if_pos on
      have moments : b.computes (.predict checked stored) = [] := if_neg fun all => by
        rw [none] at all
        cases all.2.2
      refine ⟨⟨rfl, rfl, ?_, ?_, ?_, still⟩, rfl⟩
      · rw [asks, MlPolicyBridge.recalled, Memo.next, ← remembered, miss, newest, none]
      · rw [asks, moments, Option.map_some, Option.getD_some, Memo.stores, ← remembered, miss, newest, none]
      · rw [moments]
        exact (UInt64.add_zero _).symm
  | computed features on miss latest =>
      have asks : b.event (.predict checked stored) = some (.ask checked stored) := if_pos on
      have moments : b.computes (.predict checked stored) = [stored] := if_pos ⟨on, by rw [miss]; rfl, by rw [latest]; rfl⟩
      refine ⟨⟨rfl, rfl, ?_, ?_, ?_, still⟩, rfl⟩
      · rw [asks, MlPolicyBridge.recalled, Memo.next, ← remembered, miss, newest, latest]
        simp only [MlPolicyBridge.memo, Function.update_self, Option.map_some, latest]
      · rw [asks, moments, Option.map_some, Option.getD_some, Memo.stores, ← remembered, miss, newest, latest]
      · rw [moments]
        rfl

theorem step_recalled (b b' : MlPolicyBridge) (call : BridgeCall) (taken : b.step call = some b') : Recalled b b' call := by
  cases call with
  | addFeatures now features =>
      obtain rfl := Option.some.inj taken
      refine ⟨rfl, rfl, ?_, rfl, (UInt64.add_zero _).symm, (UInt64.add_zero _).symm⟩
      have newest : (b.addFeatures features).metricsWindow.latest = some features := List.getLast?_concat
      rw [MlPolicyBridge.event, MlPolicyBridge.recalled, Memo.next, MlPolicyBridge.memo, newest]
      rfl
  | setEnabled enabled =>
      obtain rfl := Option.some.inj taken
      exact ⟨rfl, rfl, rfl, rfl, (UInt64.add_zero _).symm, (UInt64.add_zero _).symm⟩
  | predict checked stored =>
      obtain rfl := Option.some.inj taken
      exact (predict_recalled b checked stored).1
  | predictIfConfident checked stored =>
      obtain rfl := Option.some.inj taken
      obtain ⟨recalled, same⟩ := predict_recalled b checked stored
      rw [confident_predict]
      exact ⟨recalled.config, recalled.window, recalled.memo, recalled.computed, recalled.predictions, congrArg (· + _) same⟩

-- The bridge is a memory of its model, fed with the calls that reach it.
structure Fed (config : MlBridgeConfig) (calls : List BridgeCall) (events : List (Event FeatureVector)) (history : BridgeHistory)
    (b : MlPolicyBridge) : Prop where
  configured : b.config = config
  size : b.metricsWindow.windowSize = 60
  window : b.metricsWindow.features = Window.pushAll 60 [] ((calls.filterMap BridgeCall.added).map Prod.snd)
  memo : b.memo = after heuristicPredict config.cacheDuration events
  noted : noted events = calls.filterMap BridgeCall.added
  readings : (events.flatMap Event.readings).Sublist (calls.flatMap BridgeCall.readings)
  computed : history.computed = stores heuristicPredict config.cacheDuration events
  predictions : b.predictionCount = .ofNat history.computed.length
  fallbacks : b.fallbackCount = .ofNat history.declined

theorem event_shape (b : MlPolicyBridge) (call : BridgeCall) :
    (b.event call = none ∧ call.added = none) ∨
      ∃ event, b.event call = some event ∧ event.noted = call.added ∧ event.readings = call.readings := by
  have asked (checked stored : Nat) : (if b.enabled then some (Event.ask (α := FeatureVector) checked stored) else none) = none ∨
      (if b.enabled then some (Event.ask (α := FeatureVector) checked stored) else none) = some (.ask checked stored) := by
    split
    · exact .inr rfl
    · exact .inl rfl
  cases call with
  | addFeatures now features => exact .inr ⟨_, rfl, rfl, rfl⟩
  | setEnabled enabled => exact .inl ⟨rfl, rfl⟩
  | predict checked stored | predictIfConfident checked stored =>
      rcases asked checked stored with none | some
      · exact .inl ⟨none, rfl⟩
      · exact .inr ⟨_, some, rfl, rfl⟩

theorem step_fed (config : MlBridgeConfig) (calls : List BridgeCall) (events : List (Event FeatureVector)) (history : BridgeHistory)
    (b b' : MlPolicyBridge) (call : BridgeCall) (fed : Fed config calls events history b) (taken : b.step call = some b') :
    Fed config (calls ++ [call]) (events ++ (b.event call).toList) (b.record call history) b' := by
  have recalled := step_recalled b b' call taken
  have configured := fed.configured
  have added : (calls ++ [call]).filterMap BridgeCall.added = calls.filterMap BridgeCall.added ++ call.added.toList := by
    rw [List.filterMap_append]
    cases call <;> rfl
  have read : (calls ++ [call]).flatMap BridgeCall.readings = calls.flatMap BridgeCall.readings ++ call.readings := by
    rw [List.flatMap_append, List.flatMap_singleton]
  refine ⟨recalled.config.trans configured, ?_, ?_, ?_, ?_, ?_, ?_, ?_, ?_⟩
  · rw [recalled.window]
    cases call.added with
    | none => exact fed.size
    | some note => exact fed.size
  · rw [recalled.window, added]
    cases call.added with
    | none =>
        rw [Option.toList_none, List.append_nil]
        exact fed.window
    | some note =>
        rw [Option.toList_some, List.map_append, List.map_singleton, Window.push_all_snoc, ← fed.window, ← fed.size]
        rfl
  · rw [recalled.memo, configured.symm]
    rcases event_shape b call with ⟨none, _⟩ | ⟨event, some, _, _⟩
    · rw [none, Option.toList_none, List.append_nil, MlPolicyBridge.recalled, fed.memo, configured]
    · rw [some, Option.toList_some, Recall.after_snoc, MlPolicyBridge.recalled, fed.memo, configured]
  · rw [added]
    rcases event_shape b call with ⟨none, quiet⟩ | ⟨event, some, noted, _⟩
    · rw [none, quiet, Option.toList_none, List.append_nil, Option.toList_none, List.append_nil, fed.noted]
    · rw [some, Option.toList_some, Recall.noted_snoc, fed.noted, noted]
  · rw [read]
    rcases event_shape b call with ⟨none, _⟩ | ⟨event, some, _, readings⟩
    · rw [none, Option.toList_none, List.append_nil]
      exact fed.readings.trans (List.sublist_append_left _ _)
    · rw [some, Option.toList_some, List.flatMap_append, List.flatMap_singleton, readings]
      exact fed.readings.append (List.Sublist.refl _)
  · rw [MlPolicyBridge.record, fed.computed, recalled.computed, fed.memo, configured]
    rcases event_shape b call with ⟨none, _⟩ | ⟨event, some, _, _⟩
    · rw [none, Option.toList_none, List.append_nil]
      exact List.append_nil _
    · rw [some, Option.toList_some, Recall.stores_snoc]
      rfl
  · rw [recalled.predictions, fed.predictions, MlPolicyBridge.record, List.length_append, UInt64.ofNat_add]
  · rw [recalled.fallbacks, fed.fallbacks, MlPolicyBridge.record, UInt64.ofNat_add]

theorem run_fed (config : MlBridgeConfig) (calls : List BridgeCall) (b : MlPolicyBridge)
    (executed : execute MlPolicyBridge.step (.new config) calls = some b) :
    ∃ events, Fed config calls events (bridgeHistory config calls) b := by
  induction calls using List.reverseRecOn generalizing b with
  | nil =>
      obtain rfl := Option.some.inj executed
      exact ⟨[], rfl, rfl, rfl, rfl, rfl, List.Sublist.refl _, rfl, rfl, rfl⟩
  | append_singleton calls call ih =>
      rw [Runs.execute_snoc] at executed
      obtain ⟨before, earlier, taken⟩ := Option.bind_eq_some_iff.mp executed
      obtain ⟨events, fed⟩ := ih before earlier
      have recorded : bridgeHistory config (calls ++ [call]) = before.record call (bridgeHistory config calls) :=
        Runs.carried_snoc _ _ before _ calls call earlier
      rw [recorded]
      exact ⟨_, step_fed config calls events _ before b call fed taken⟩

theorem predict_answers (b : MlPolicyBridge) (checked stored : Nat) (on : b.enabled = true) (prediction : MlPrediction) :
    (b.predict checked stored).1 = .ok prediction ↔ b.memo.answer heuristicPredict b.config.cacheDuration checked = some prediction := by
  have remembered := cached_remembered b checked
  have newest : b.memo.newest = b.metricsWindow.latest := rfl
  have outcome := predict_cases b checked stored
  generalize b.predict checked stored = out at outcome
  rw [Memo.answer, ← remembered, newest]
  cases outcome with
  | disabled off => cases off.symm.trans on
  | cached answer _ hit =>
      rw [hit, Except.ok.injEq, Option.some.injEq]
  | empty _ miss none =>
      rw [miss, none]
      exact iff_of_false nofun nofun
  | computed features _ miss latest =>
      rw [miss, latest, Except.ok.injEq]
      exact Option.some.injEq _ _ ▸ Iff.rfl

theorem confident_answers (b : MlPolicyBridge) (checked stored : Nat) (prediction : MlPrediction) :
    (b.predictIfConfident checked stored).1 = some prediction ↔
      (b.predict checked stored).1 = .ok prediction ∧ prediction.confidence ≥ b.config.minConfidence := by
  have same : (b.predict checked stored).2.config = b.config := (predict_recalled b checked stored).1.config
  unfold MlPolicyBridge.predictIfConfident
  generalize b.predict checked stored = out at same ⊢
  rcases out with ⟨error | answer, after⟩
  · exact iff_of_false nofun fun both => by cases both.1
  · rw [Except.ok.injEq, ← same]
    dsimp only
    by_cases confident : answer.confidence ≥ after.config.minConfidence
    · rw [if_pos confident, Option.some.injEq]
      exact ⟨fun given => ⟨given, given ▸ confident⟩, And.left⟩
    · rw [if_neg confident]
      exact iff_of_false nofun fun both => confident (both.1 ▸ both.2)

-- The last minute of features.
def recentFeatures (calls : List BridgeCall) : List FeatureVector :=
  ((calls.filterMap BridgeCall.added).map Prod.snd).drop ((calls.filterMap BridgeCall.added).length - 60)

theorem predictions_fresh (config : MlBridgeConfig) (calls : List BridgeCall) (b : MlPolicyBridge)
    (executed : execute MlPolicyBridge.step (.new config) calls = some b) (forward : Forward calls) :
    (∀ checked stored prediction, (b.predict checked stored).1 = .ok prediction →
      Covers heuristicPredict config.cacheDuration checked (calls.filterMap BridgeCall.added) prediction) ∧
    (∀ checked stored prediction, (b.predictIfConfident checked stored).1 = some prediction ↔
      (b.predict checked stored).1 = .ok prediction ∧ prediction.confidence ≥ config.minConfidence) ∧
    (∀ checked stored, b.enabled = true →
      ((∃ prediction, (b.predict checked stored).1 = .ok prediction) ↔ calls.filterMap BridgeCall.added ≠ [])) ∧
    (bridgeHistory config calls).computed.Pairwise (fun early late => early + config.cacheDuration ≤ late) ∧
    b.stats.predictionCount.toNat = (bridgeHistory config calls).computed.length % 2 ^ 64 ∧
    b.stats.fallbackCount.toNat = (bridgeHistory config calls).declined % 2 ^ 64 ∧
    (b.metricsWindow.features = recentFeatures calls ∧ b.metricsWindow.asTensor.length = featureCount * (recentFeatures calls).length ∧
      ∀ k i f, (recentFeatures calls)[k]? = some f → i < featureCount →
        b.metricsWindow.asTensor[featureCount * k + i]? = f.asArray[i]?) := by
  obtain ⟨events, fed⟩ := run_fed config calls b executed
  have ordered : Recall.Forward events := forward.sublist fed.readings
  have answers := predict_answers b
  rw [fed.configured, fed.memo] at answers
  refine ⟨fun checked stored prediction answered => ?_, ?_, fun checked stored on => ?_, ?_, ?_, ?_, ?_⟩
  · rw [← fed.noted]
    have on : b.enabled = true := by
      have outcome := predict_cases b checked stored
      generalize b.predict checked stored = out at outcome answered
      cases outcome with
      | disabled off => cases answered
      | cached _ on | empty on | computed _ on => exact on
    exact Recall.answer_covers events checked prediction ordered ((answers checked stored on prediction).mp answered)
  · rw [← fed.configured]
    exact confident_answers b
  · rw [← fed.noted, Ne, ← @Recall.answer_none_iff _ _ heuristicPredict config.cacheDuration events checked ordered,
      ← Ne, Option.ne_none_iff_exists']
    exact exists_congr fun prediction => answers checked stored on prediction
  · rw [fed.computed]
    exact Recall.stores_spaced events ordered
  · exact congrArg UInt64.toNat fed.predictions |>.trans UInt64.toNat_ofNat'
  · exact congrArg UInt64.toNat fed.fallbacks |>.trans UInt64.toNat_ofNat'
  · have window : b.metricsWindow.features = recentFeatures calls := by
      rw [fed.window, Window.push_all_recent _ _ (by decide), List.length_map, recentFeatures]
    rw [← window]
    exact ⟨rfl, tensor_length b.metricsWindow, tensor_entry b.metricsWindow⟩

def busyMinute : FeatureVector := { FeatureVector.zeros with p99Latency := 0.6, queueDepth := 0.8 }

-- The second question is answered from the cache, and the third is not.
def threeQuestions : List BridgeCall :=
  [.addFeatures 0 .zeros, .predict 1 1, .addFeatures 2 busyMinute, .predict 5 5, .setEnabled false, .predictIfConfident 6 6,
    .setEnabled true, .predict 11 12]

theorem three_questions_fresh : ∃ b, execute MlPolicyBridge.step (.new ⟨10, 0.7⟩) threeQuestions = some b ∧
    (bridgeHistory ⟨10, 0.7⟩ threeQuestions).computed = [1, 12] ∧ b.stats.fallbackCount.toNat = 1 ∧
    (b.predict 15 15).1 = .ok (heuristicPredict busyMinute) ∧
    ((b.predictIfConfident 15 15).1 = some (heuristicPredict busyMinute) ↔ (heuristicPredict busyMinute).confidence ≥ 0.7) ∧
    Covers heuristicPredict 10 15 (threeQuestions.filterMap BridgeCall.added) (heuristicPredict busyMinute) := by
  obtain ⟨covers, confident, _, _, _, declined, _⟩ := predictions_fresh ⟨10, 0.7⟩ threeQuestions _ rfl (by unfold Forward; decide)
  exact ⟨_, rfl, rfl, declined, rfl, (confident 15 15 _).trans ⟨And.right, And.intro rfl⟩, covers 15 15 _ rfl⟩

end Ners.Ml

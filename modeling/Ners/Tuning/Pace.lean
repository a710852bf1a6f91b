import Ners.Base.Pacing
import Ners.Tuning.Limits

set_option autoImplicit false

namespace Ners.Tuning

open Pacing (Burst Spaced Paced events inWindow)
open Runs (carried)

-- What a policy does that cools down after it has acted.
structure Cools (π : Type) [TuningPolicy π] (cooldown most : Nat) (lastAction : π → Instant) : Prop where
  few : ∀ (p : π) asked acted snapshot analyzer, (TuningPolicy.analyze p asked acted snapshot analyzer).1.length ≤ most
  idle : ∀ (p : π) asked acted snapshot analyzer, (TuningPolicy.analyze p asked acted snapshot analyzer).1 = [] →
    lastAction (TuningPolicy.analyze p asked acted snapshot analyzer).2 = lastAction p
  acts : ∀ (p : π) asked acted snapshot analyzer, (TuningPolicy.analyze p asked acted snapshot analyzer).1 ≠ [] →
    lastAction p + cooldown ≤ asked ∧ lastAction (TuningPolicy.analyze p asked acted snapshot analyzer).2 = acted

theorem elapsed_cooldown (last now : Int) (cooldown : Nat) (positive : 0 < cooldown) (ended : ¬ elapsed last now < cooldown) :
    last + cooldown ≤ now := by
  unfold elapsed at ended
  omega

-- Both policies are of this shape.
theorem cools_shape (π : Type) [TuningPolicy π] (cooldown most : Nat) (lastAction : π → Instant)
    (actions : π → MetricsSnapshot → MetricsAnalyzer → List TuningAction) (touch : π → Instant → π)
    (cooldownPositive : 0 < cooldown) (mostPositive : 0 < most) (touched : ∀ p now, lastAction (touch p now) = now)
    (shape : ∀ (p : π) asked acted snapshot analyzer, TuningPolicy.analyze p asked acted snapshot analyzer =
      if decide (elapsed (lastAction p) asked < cooldown) then ([], p)
      else ((actions p snapshot analyzer).take most, if actions p snapshot analyzer = [] then p else touch p acted)) :
    Cools π cooldown most lastAction := by
  have empty : ∀ p snapshot analyzer, (actions p snapshot analyzer).take most = [] ↔ actions p snapshot analyzer = [] := by
    intro p snapshot analyzer
    rw [List.take_eq_nil_iff, or_iff_right (Nat.ne_of_gt mostPositive)]
  refine ⟨fun p asked acted snapshot analyzer => ?_, fun p asked acted snapshot analyzer => ?_,
    fun p asked acted snapshot analyzer => ?_⟩ <;> rw [shape] <;> split
  · exact Nat.zero_le _
  · exact List.length_take_le _ _
  · exact fun _ => rfl
  · intro none
    rw [if_pos ((empty p snapshot analyzer).mp none)]
  · exact fun some => absurd rfl some
  · rename_i warm
    intro some
    rw [decide_eq_true_iff] at warm
    refine ⟨elapsed_cooldown _ _ _ cooldownPositive warm, ?_⟩
    rw [if_neg fun none => some ((empty p snapshot analyzer).mpr none), touched]

theorem conservative_cools : Cools ConservativePolicy ConservativePolicy.cooldown 3 ConservativePolicy.lastAction :=
  cools_shape ConservativePolicy _ 3 _
    (fun p snapshot analyzer => p.relieve snapshot analyzer ++ p.reduce snapshot analyzer ++ batch analyzer)
    (fun p now => { p with lastAction := now }) (by decide) (by decide) (fun _ _ => rfl) fun _ _ _ _ _ => rfl

theorem aggressive_cools : Cools AggressivePolicy AggressivePolicy.cooldown 5 AggressivePolicy.lastAction :=
  cools_shape AggressivePolicy _ 5 _
    (fun _ snapshot analyzer => AggressivePolicy.relieve snapshot analyzer ++ AggressivePolicy.reduce snapshot analyzer)
    (fun p now => { p with lastAction := now }) (by decide) (by decide) (fun _ _ => rfl) fun _ _ _ _ _ => rfl

-- A clock that never runs back.
def Forward : Instant → List EngineCall → Prop
  | _, [] => True
  | now, .setEnabled _ :: later => Forward now later
  | now, .process clock _ :: later =>
      now ≤ clock.asked ∧ clock.asked ≤ clock.acted ∧
        ∃ finish, clock.acted ≤ finish ∧ (∀ n, clock.acted ≤ clock.logged n ∧ clock.logged n ≤ finish) ∧ Forward finish later

variable {π : Type} [TuningPolicy π]

-- The actions of one call, as a burst that follows the moment the policy acted.
def TuningEngine.burst (e : TuningEngine π) : EngineCall → List Burst
  | .setEnabled _ => []
  | .process clock snapshot =>
      if e.produced clock snapshot = [] then [] else [⟨clock.acted, (stamped clock.logged (e.produced clock snapshot)).map Prod.fst⟩]

theorem burst_events (e : TuningEngine π) (call : EngineCall) : events (e.burst call) = (e.handedAt call).map Prod.fst := by
  cases call with
  | setEnabled enabled => rfl
  | process clock snapshot =>
      rw [TuningEngine.burst, TuningEngine.handedAt]
      split
      · rename_i none
        rw [none]
        rfl
      · exact List.append_nil _

theorem bursts_handed (calls : List EngineCall) (e : TuningEngine π) (bursts : List Burst) (handed : List (Instant × TuningAction))
    (same : events bursts = handed.map Prod.fst) :
    events (carried TuningEngine.step (fun e call bursts => bursts ++ e.burst call) e bursts calls) =
      (carried TuningEngine.step (fun e call handed => handed ++ e.handedAt call) e handed calls).map Prod.fst := by
  induction calls generalizing e bursts handed with
  | nil => exact same
  | cons call later ih =>
      have onward : events (bursts ++ e.burst call) = (handed ++ e.handedAt call).map Prod.fst := by
        rw [events, List.flatMap_append, List.map_append, ← burst_events]
        exact congrArg (· ++ _) same
      rw [carried, carried]
      cases e.step call with
      | none => exact onward
      | some e' => exact ih e' _ _ onward

-- Every burst so far is over, and the policy cools down since the last.
structure Pausing (cooldown most : Nat) (lastAction : π → Instant) (now : Instant) (bursts : List Burst) (e : TuningEngine π) :
    Prop where
  paced : Paced cooldown most bursts
  moments : ∀ b ∈ bursts, b.moment ≤ lastAction e.policy
  ended : ∀ b ∈ bursts, ∀ time ∈ b.times, time ≤ now

theorem process_policy (e : TuningEngine π) (clock : Clock) (snapshot : MetricsSnapshot) (enabled : e.enabled = true) :
    (e.process clock snapshot).2.policy =
      (TuningPolicy.analyze e.policy clock.asked clock.acted snapshot (e.analyzer.addSnapshot snapshot)).2 := by
  unfold TuningEngine.process
  rw [if_pos enabled]
  dsimp only
  rw [apply_each, rollback_if]
  rfl

theorem stamped_times (logged : Nat → Instant) (actions : List TuningAction) (time : Instant)
    (member : time ∈ (stamped logged actions).map Prod.fst) : ∃ n, time = logged n := by
  induction actions generalizing logged with
  | nil => cases member
  | cons action later ih =>
      rcases List.mem_cons.mp member with rfl | rest
      · exact ⟨0, rfl⟩
      · obtain ⟨n, same⟩ := ih (fun n => logged (n + 1)) rest
        exact ⟨n + 1, same⟩

theorem process_pauses (cooldown most : Nat) (lastAction : π → Instant) (cools : Cools π cooldown most lastAction)
    (now finish : Instant) (bursts : List Burst) (e : TuningEngine π) (clock : Clock) (snapshot : MetricsSnapshot)
    (pausing : Pausing cooldown most lastAction now bursts e) (begun : now ≤ clock.asked) (asked : clock.asked ≤ clock.acted)
    (ended : clock.acted ≤ finish) (logged : ∀ n, clock.acted ≤ clock.logged n ∧ clock.logged n ≤ finish) :
    Pausing cooldown most lastAction finish (bursts ++ e.burst (.process clock snapshot)) (e.process clock snapshot).2 := by
  have onward : now ≤ finish := Int.le_trans begun (Int.le_trans asked ended)
  have still : ∀ b ∈ bursts, ∀ time ∈ b.times, time ≤ finish := fun b member time inside =>
    Int.le_trans (pausing.ended b member time inside) onward
  cases enabled : e.enabled with
  | false =>
      have none : e.produced clock snapshot = [] := by rw [TuningEngine.produced, enabled, if_neg (by simp)]
      rw [TuningEngine.burst, if_pos none, List.append_nil, process_disabled e clock snapshot enabled]
      exact ⟨pausing.paced, pausing.moments, still⟩
  | true =>
      have produced : e.produced clock snapshot = e.handed clock snapshot := if_pos enabled
      have policy := process_policy e clock snapshot enabled
      by_cases none : e.handed clock snapshot = []
      · rw [TuningEngine.burst, produced, if_pos none, List.append_nil]
        refine ⟨pausing.paced, fun b member => ?_, still⟩
        rw [policy, cools.idle _ _ _ _ _ none]
        exact pausing.moments b member
      · obtain ⟨warm, acted⟩ := cools.acts _ _ _ _ _ none
        rw [TuningEngine.burst, produced, if_neg none]
        refine ⟨?_, fun b member => ?_, fun b member time inside => ?_⟩
        · refine Pacing.paced_snoc bursts _ pausing.paced ?_ ?_ fun earlier member => ⟨?_, fun time inside => ?_⟩
          · rw [List.length_map, ← List.length_map, stamped_actions]
            exact cools.few _ _ _ _ _
          · intro time inside
            obtain ⟨n, rfl⟩ := stamped_times _ _ _ inside
            exact (logged n).1
          · have moment := pausing.moments earlier member
            exact Int.le_trans (Int.add_le_add_right moment _) (Int.le_trans warm asked)
          · exact Int.le_trans (pausing.ended earlier member time inside) (Int.le_trans begun asked)
        · rw [policy, acted]
          rcases List.mem_append.mp member with old | last
          · have cooled : lastAction e.policy ≤ lastAction e.policy + cooldown := Int.le_add_of_nonneg_right (Int.natCast_nonneg _)
            exact Int.le_trans (pausing.moments b old) (Int.le_trans cooled (Int.le_trans warm asked))
          · rw [List.mem_singleton.mp last]
        · rcases List.mem_append.mp member with old | last
          · exact still b old time inside
          · rw [List.mem_singleton.mp last] at inside
            obtain ⟨n, rfl⟩ := stamped_times _ _ _ inside
            exact (logged n).2

theorem bursts_paced (cooldown most : Nat) (lastAction : π → Instant) (cools : Cools π cooldown most lastAction)
    (calls : List EngineCall) (now : Instant) (forward : Forward now calls) (e : TuningEngine π) (bursts : List Burst)
    (pausing : Pausing cooldown most lastAction now bursts e) :
    Paced cooldown most (carried TuningEngine.step (fun e call bursts => bursts ++ e.burst call) e bursts calls) := by
  induction calls generalizing now e bursts with
  | nil => exact pausing.paced
  | cons call later ih =>
      cases call with
      | setEnabled enabled =>
          rw [carried]
          refine ih now forward (e.setEnabled enabled) (bursts ++ []) ?_
          rw [List.append_nil]
          exact ⟨pausing.paced, pausing.moments, pausing.ended⟩
      | process clock snapshot =>
          obtain ⟨begun, asked, finish, ended, logged, onward⟩ := forward
          exact ih finish onward _ _
            (process_pauses cooldown most lastAction cools now finish bursts e clock snapshot pausing begun asked ended logged)

theorem applied_window (cooldown most : Nat) (lastAction : π → Instant) (cools : Cools π cooldown most lastAction)
    (policy : π) (c : TuningConstraints) (calls : List EngineCall) (now : Instant) (forward : Forward now calls) (m : Nat)
    (start : Instant) :
    (appliedOver (.new policy c) calls).countP (inWindow start (m * cooldown)) ≤ (m + 1) * most := by
  have fresh : Pausing cooldown most lastAction now [] (TuningEngine.new policy c) := ⟨Pacing.paced_nil, by simp, by simp⟩
  have paced := bursts_paced cooldown most lastAction cools calls now forward (.new policy c) [] fresh
  have handed := bursts_handed calls (TuningEngine.new policy c) [] [] rfl
  have applied := applied_over c calls (TuningEngine.new policy c) rfl [] [] rfl
  refine le_trans ?_ (Pacing.events_paced _ paced m start)
  rw [appliedOver, applied, handed]
  exact ((List.filter_sublist).map Prod.fst).countP_le

-- The limit of the constraints is not looked at; the cooldown of the policies is
-- what bounds the rate.
theorem applied_paced (c : TuningConstraints) (calls : List EngineCall) (now : Instant) (forward : Forward now calls)
    (rules : AnalysisRules) (built start : Instant) (m : Nat) :
    (appliedOver (.new (ConservativePolicy.new rules built) c) calls).countP (inWindow start (m * ConservativePolicy.cooldown)) ≤
        (m + 1) * 3 ∧
      (appliedOver (.new (AggressivePolicy.new built) c) calls).countP (inWindow start (m * AggressivePolicy.cooldown)) ≤
        (m + 1) * 5 :=
  ⟨applied_window _ _ _ conservative_cools _ c calls now forward m start,
    applied_window _ _ _ aggressive_cools _ c calls now forward m start⟩

theorem minute_paced :
    Forward 0 fourBatches ∧
      (appliedOver (.new (ConservativePolicy.new .default 0) .default) fourBatches).countP
          (inWindow 0 (6 * ConservativePolicy.cooldown)) = 12 ∧
      ∀ start, (appliedOver (.new (ConservativePolicy.new .default 0) .default) fourBatches).countP
          (inWindow start (6 * ConservativePolicy.cooldown)) ≤ 21 := by
  have forward : Forward 0 fourBatches := by
    refine ⟨by decide, by decide, 0, by decide, fun n => ⟨Int.le_refl _, Int.le_refl _⟩, ?_⟩
    refine ⟨by decide, by decide, seconds 11, by decide, fun n => ⟨Int.le_refl _, Int.le_refl _⟩, ?_⟩
    refine ⟨by decide, by decide, seconds 22, by decide, fun n => ⟨Int.le_refl _, Int.le_refl _⟩, ?_⟩
    exact ⟨by decide, by decide, seconds 33, by decide, fun n => ⟨Int.le_refl _, Int.le_refl _⟩, trivial⟩
  exact ⟨forward, by decide +kernel, fun start => (applied_paced .default fourBatches 0 forward .default 0 start 6).1⟩

end Ners.Tuning

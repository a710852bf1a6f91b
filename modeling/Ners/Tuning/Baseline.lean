import Ners.Base.Unsigned
import Ners.Tuning.Rollback

set_option autoImplicit false

namespace Ners.Tuning

open Runs (Run)
open Unsigned

-- No latency at all, or one in the band.
def InBand (m M : Nat) (latency : UInt64) : Prop := latency = 0 ∨ m ≤ latency.toNat ∧ latency.toNat ≤ M

theorem average_in_band (m M : Nat) (b c : UInt64) (small : M < 2 ^ 60) (low : m ≤ b.toNat ∧ m ≤ c.toNat)
    (high : b.toNat ≤ M ∧ c.toNat ≤ M) : m ≤ ((b * 9 + c) / 10).toNat ∧ ((b * 9 + c) / 10).toNat ≤ M := by
  have nine : (9 : UInt64).toNat = 9 := rfl
  have ten : (10 : UInt64).toNat = 10 := rfl
  have product : (b * 9).toNat = b.toNat * 9 := mul_exact b 9 (by rw [nine]; omega)
  have sum : (b * 9 + c).toNat = b.toNat * 9 + c.toNat := by
    rw [← product]
    exact add_exact _ c (by omega)
  rw [UInt64.toNat_div, sum, ten]
  omega

theorem next_baseline_in_band (m M : Nat) (b c : UInt64) (positive : 0 < m) (small : M < 2 ^ 60) (baseline : InBand m M b)
    (latency : InBand m M c) : InBand m M (nextBaseline b c) ∧ (b ≠ 0 → nextBaseline b c ≠ 0) := by
  unfold nextBaseline
  by_cases none : 0 < c
  · have seen : m ≤ c.toNat ∧ c.toNat ≤ M := latency.resolve_left fun zero => by
      rw [zero] at none
      exact absurd none (by decide)
    rw [if_pos none]
    by_cases fresh : b = 0
    · rw [if_pos fresh]
      exact ⟨.inr seen, fun known => absurd fresh known⟩
    · have known := baseline.resolve_left fresh
      have average := average_in_band m M b c small ⟨known.1, seen.1⟩ ⟨known.2, seen.2⟩
      rw [if_neg fresh]
      refine ⟨.inr average, fun _ zero => ?_⟩
      rw [zero] at average
      exact absurd average.1 (Nat.not_le.mpr positive)
  · rw [if_neg none]
    exact ⟨baseline, id⟩

variable {π : Type}

-- The highest latency of the band is at most one and a half times the lowest,
-- also after the division has cut the half off.
theorem no_regression_in_band (m M : Nat) (e : TuningEngine π) (snapshot : MetricsSnapshot) (narrow : 2 * M ≤ 3 * m)
    (small : M < 2 ^ 60) (baseline : InBand m M e.lastBaselineNs) (latency : InBand m M (calculateAvgLatency snapshot)) :
    e.shouldRollback snapshot = false := by
  unfold TuningEngine.shouldRollback
  by_cases fresh : e.lastBaselineNs = 0
  · rw [if_pos fresh]
  · have known := baseline.resolve_left fresh
    have two : (2 : UInt64).toNat = 2 := rfl
    have product : (e.lastBaselineNs * 3).toNat = e.lastBaselineNs.toNat * 3 := by
      have three : (3 : UInt64).toNat = 3 := rfl
      exact mul_exact _ 3 (by rw [three]; omega)
    rw [if_neg fresh, decide_eq_false_iff_not, UInt64.lt_iff_toNat_lt, UInt64.toNat_div, product, two]
    rcases latency with zero | seen
    · rw [zero]
      exact Nat.not_lt_zero _
    · omega

variable [TuningPolicy π]

def Steady (m M : Nat) (_ : TuningEngine π) (call : EngineCall) : Prop :=
  ∀ clock snapshot, call = .process clock snapshot → InBand m M (calculateAvgLatency snapshot)

structure Calm (m M : Nat) (e : TuningEngine π) : Prop where
  baseline : InBand m M e.lastBaselineNs
  standing : ∀ entry ∈ e.actionHistory, entry.result ≠ .rolledBack

theorem step_calm (m M : Nat) (e e' : TuningEngine π) (call : EngineCall) (positive : 0 < m) (narrow : 2 * M ≤ 3 * m)
    (small : M < 2 ^ 60) (calm : Calm m M e) (steady : Steady m M e call) (taken : e.step call = some e') :
    Calm m M e' ∧ (e.lastBaselineNs ≠ 0 → e'.lastBaselineNs ≠ 0) := by
  cases call with
  | setEnabled enabled =>
      obtain rfl := Option.some.inj taken
      exact ⟨⟨calm.baseline, calm.standing⟩, id⟩
  | process clock snapshot =>
      obtain rfl := Option.some.inj taken
      cases enabled : e.enabled with
      | false =>
          rw [process_disabled e clock snapshot enabled]
          exact ⟨calm, id⟩
      | true =>
          have latency := steady clock snapshot rfl
          obtain ⟨_, history, baseline, _⟩ := processed e clock snapshot enabled
          obtain ⟨within, kept⟩ := next_baseline_in_band m M _ _ positive small calm.baseline latency
          rw [no_regression_in_band m M e snapshot narrow small calm.baseline latency, if_neg (by simp)] at history
          refine ⟨⟨baseline ▸ within, fun entry member => ?_⟩, baseline ▸ kept⟩
          rw [history] at member
          rcases Window.mem_push_all _ _ _ entry member with old | judged
          · exact calm.standing entry old
          · obtain ⟨handed, _, rfl⟩ := List.mem_map.mp judged
            exact verdict_stands e.constraints handed

theorem steady_latency_keeps_actions (policy : π) (c : TuningConstraints) (m M : Nat) (e : TuningEngine π) (positive : 0 < m)
    (narrow : 2 * M ≤ 3 * m) (small : M < 2 ^ 60) (run : Run TuningEngine.step (Steady m M) (.new policy c) e) :
    InBand m M e.lastBaselineNs ∧ (∀ entry ∈ e.actionHistory, entry.result ≠ .rolledBack) ∧
      ∀ call e', Steady m M e call → e.step call = some e' → e.lastBaselineNs ≠ 0 → e'.lastBaselineNs ≠ 0 := by
  have calm : Calm m M e := by
    refine Runs.run_invariant (Calm m M) _ e run ⟨.inl rfl, fun entry member => by cases member⟩ ?_
    intro e call e' calm steady taken
    exact (step_calm m M e e' call positive narrow small calm steady taken).1
  exact ⟨calm.baseline, calm.standing, fun call e' steady taken =>
    (step_calm m M e e' call positive narrow small calm steady taken).2⟩

-- The second average is half as much again as the baseline, and no more.
def slowerOnce : List EngineCall :=
  [.process (stopped 0) (oneStage 100 200 10000000), .process (stopped (seconds 6)) (oneStage 100 200 15000000)]

theorem steady_latency_keeps_actions_once :
    (aggressive.after slowerOnce).actionHistory.length = 2 ∧
      (∀ entry ∈ (aggressive.after slowerOnce).actionHistory, entry.result ≠ .rolledBack) ∧
      (aggressive.after slowerOnce).lastBaselineNs = 10500000 ∧
      InBand 10000000 15000000 (aggressive.after slowerOnce).lastBaselineNs := by
  have within : ∀ call ∈ slowerOnce, ∀ e : TuningEngine AggressivePolicy, Steady 10000000 15000000 e call := by
    intro call member e clock snapshot same
    subst same
    rcases List.mem_cons.mp member with first | later
    · obtain ⟨_, rfl⟩ := EngineCall.process.inj first
      exact .inr (by decide +kernel)
    · obtain ⟨_, rfl⟩ := EngineCall.process.inj (List.mem_singleton.mp later)
      exact .inr (by decide +kernel)
  have run : Run TuningEngine.step (Steady 10000000 15000000) aggressive (aggressive.after slowerOnce) :=
    .next _ _ _ (.next _ _ _ .start (within _ (.head _) _) rfl) (within _ (.tail _ (.head _)) _) rfl
  obtain ⟨baseline, standing, _⟩ :=
    steady_latency_keeps_actions _ _ 10000000 15000000 _ (by decide) (by decide) (by decide) run
  exact ⟨by decide +kernel, standing, by decide +kernel, baseline⟩

end Ners.Tuning

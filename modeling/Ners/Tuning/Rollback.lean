import Ners.Base.Runs
import Ners.Tuning.Engine

set_option autoImplicit false

namespace Ners.Tuning

open Runs (execute)
open Window (pushAll)

theorem rollback_snoc (log : List TuningLogEntry) (entry : TuningLogEntry) :
    rollbackBack (log ++ [entry]) = log ++ [if entry.result = .applied then { entry with result := .rolledBack } else entry] := by
  rw [rollbackBack, List.getLast?_concat, List.dropLast_concat]
  dsimp only
  split <;> rfl

section

variable {π : Type} [TuningPolicy π]

-- The log entries that a call has added, as they are when it returns.
def TuningEngine.appended (e : TuningEngine π) (clock : Clock) (snapshot : MetricsSnapshot) : List TuningLogEntry :=
  let history := (e.process clock snapshot).2.actionHistory
  history.drop (history.length - (e.produced clock snapshot).length)

-- A call returns what its entries say was applied, and rolls none of them back.
structure AnswerAgrees (e : TuningEngine π) (clock : Clock) (snapshot : MetricsSnapshot) : Prop where
  returned : (e.process clock snapshot).1 =
    ((e.appended clock snapshot).filter TuningLogEntry.isApplied).map TuningLogEntry.action
  standing : ∀ entry ∈ e.appended clock snapshot, entry.result ≠ .rolledBack

-- The last of the actions produced passes, and the snapshot is a regression.
def TuningEngine.RollsBackOwn (e : TuningEngine π) (clock : Clock) (snapshot : MetricsSnapshot) : Prop :=
  e.shouldRollback snapshot = true ∧ ∃ last, (e.produced clock snapshot).getLast? = some last ∧ e.validateAction last = true

theorem agrees_of_verdicts (e : TuningEngine π) (clock : Clock) (snapshot : MetricsSnapshot) (rest : List TuningLogEntry)
    (enabled : e.enabled = true)
    (history : (e.process clock snapshot).2.actionHistory = rest ++ e.constraints.verdicts clock.logged (e.handed clock snapshot)) :
    AnswerAgrees e clock snapshot := by
  have produced : e.produced clock snapshot = e.handed clock snapshot := if_pos enabled
  have appended : e.appended clock snapshot = e.constraints.verdicts clock.logged (e.handed clock snapshot) := by
    rw [TuningEngine.appended, history, produced, ← verdicts_length e.constraints clock.logged, List.length_append,
      Nat.add_sub_cancel, List.drop_left]
  refine ⟨?_, fun entry member => ?_⟩
  · rw [appended, applied_actions]
    exact (processed e clock snapshot enabled).returned
  · rw [appended] at member
    obtain ⟨handed, _, rfl⟩ := List.mem_map.mp member
    exact verdict_stands e.constraints handed

theorem agrees_of_none (e : TuningEngine π) (clock : Clock) (snapshot : MetricsSnapshot) (none : e.produced clock snapshot = [])
    (returned : (e.process clock snapshot).1 = []) : AnswerAgrees e clock snapshot ∧ ¬ e.RollsBackOwn clock snapshot := by
  have empty : e.appended clock snapshot = [] := by
    rw [TuningEngine.appended, none, List.length_nil, Nat.sub_zero, List.drop_length]
  refine ⟨⟨?_, ?_⟩, ?_⟩
  · rw [empty, returned]
    rfl
  · rw [empty]
    simp
  · rintro ⟨_, last, there, _⟩
    rw [none] at there
    cases there

-- The entry of the last action is the one that a rollback finds at the back.
theorem disagrees_of_last (e : TuningEngine π) (clock : Clock) (snapshot : MetricsSnapshot) (rest : List TuningLogEntry)
    (earlier : List TuningAction) (entry : TuningLogEntry) (produced : (e.produced clock snapshot).length = earlier.length + 1)
    (history : (e.process clock snapshot).2.actionHistory = rest ++ [entry]) (rolled : entry.result = .rolledBack) :
    ¬ AnswerAgrees e clock snapshot := by
  intro agrees
  refine agrees.standing entry ?_ rolled
  rw [TuningEngine.appended, history, produced, List.length_append, List.length_singleton, Nat.add_sub_add_right,
    List.drop_append_of_le_length (Nat.sub_le _ _)]
  exact List.mem_append_right _ List.mem_cons_self

theorem answer_agrees_iff (e : TuningEngine π) (clock : Clock) (snapshot : MetricsSnapshot)
    (few : (e.produced clock snapshot).length ≤ e.maxLogEntries) :
    AnswerAgrees e clock snapshot ↔ ¬ e.RollsBackOwn clock snapshot := by
  cases enabled : e.enabled with
  | false =>
      have none : e.produced clock snapshot = [] := by rw [TuningEngine.produced, enabled, if_neg (by simp)]
      obtain ⟨agrees, own⟩ := agrees_of_none e clock snapshot none (by rw [process_disabled e clock snapshot enabled])
      exact iff_of_true agrees own
  | true =>
      have produced : e.produced clock snapshot = e.handed clock snapshot := if_pos enabled
      obtain ⟨returned, history, _⟩ := processed e clock snapshot enabled
      rw [produced, ← verdicts_length e.constraints clock.logged] at few
      obtain ⟨rest, _, kept⟩ := Window.push_all_keeps e.maxLogEntries e.actionHistory _ few
      rw [TuningEngine.logAfter, kept] at history
      by_cases worse : e.shouldRollback snapshot = true
      · rw [if_pos worse] at history
        cases handed : e.handed clock snapshot using List.reverseRecOn with
        | nil =>
            rw [handed] at produced returned
            obtain ⟨agrees, own⟩ := agrees_of_none e clock snapshot produced returned
            exact iff_of_true agrees own
        | append_singleton earlier last =>
            have back := history
            rw [handed, verdicts_snoc, ← List.append_assoc, rollback_snoc] at back
            by_cases valid : e.constraints.admits last = true
            · refine iff_of_false ?_ ?_
              · refine disagrees_of_last e clock snapshot _ earlier _ ?_ back ?_
                · rw [produced, handed, List.length_append, List.length_singleton]
                · rw [if_pos ((verdict_result _ _).mpr valid)]
              · intro safe
                refine safe ⟨worse, last, ?_, valid⟩
                rw [produced, handed, List.getLast?_concat]
            · refine iff_of_true ?_ ?_
              · refine agrees_of_verdicts e clock snapshot rest enabled ?_
                rw [back, handed, verdicts_snoc, ← List.append_assoc, if_neg fun was => valid ((verdict_result _ _).mp was)]
              · rintro ⟨_, other, there, passes⟩
                rw [produced, handed, List.getLast?_concat] at there
                obtain rfl := Option.some.inj there
                exact valid passes
      · rw [if_neg worse] at history
        exact iff_of_true (agrees_of_verdicts e clock snapshot rest enabled history) fun own => worse own.1

-- One entry changes: the latest that was applied becomes rolled back.
def RollsBackLatest (before after : List TuningLogEntry) : Prop :=
  ∃ early entry late, before = early ++ entry :: late ∧ entry.result = .applied ∧ (∀ other ∈ late, other.result ≠ .applied) ∧
    after = early ++ { entry with result := .rolledBack } :: late

-- The last action handed over passes, or there is none and the last entry of
-- the log was applied.
def TuningEngine.EndsApplied (e : TuningEngine π) (clock : Clock) (snapshot : MetricsSnapshot) : Prop :=
  match (e.handed clock snapshot).getLast? with
  | some last => e.validateAction last = true
  | none => ∃ back, e.actionHistory.getLast? = some back ∧ back.result = .applied

theorem rolls_back_latest_iff (log : List TuningLogEntry) :
    RollsBackLatest log (rollbackBack log) ↔ ∃ back, log.getLast? = some back ∧ back.result = .applied := by
  cases log using List.reverseRecOn with
  | nil =>
      refine iff_of_false ?_ ?_
      · rintro ⟨early, entry, late, shape, _⟩
        simp at shape
      · rintro ⟨back, there, _⟩
        cases there
  | append_singleton log entry =>
      rw [rollback_snoc, List.getLast?_concat]
      by_cases applied : entry.result = .applied
      · rw [if_pos applied]
        exact iff_of_true ⟨log, entry, [], rfl, applied, by simp, rfl⟩ ⟨entry, rfl, applied⟩
      · rw [if_neg applied]
        refine iff_of_false ?_ ?_
        · rintro ⟨early, other, late, before, was, _, after⟩
          have same := List.append_cancel_left (before.symm.trans after)
          have now := congrArg TuningLogEntry.result (List.cons.inj same).1
          rw [was] at now
          cases now
        · rintro ⟨back, there, was⟩
          obtain rfl := Option.some.inj there
          exact applied was

theorem ends_applied_iff (e : TuningEngine π) (clock : Clock) (snapshot : MetricsSnapshot) :
    (∃ back, (e.logAfter clock snapshot).getLast? = some back ∧ back.result = .applied) ↔ e.EndsApplied clock snapshot := by
  unfold TuningEngine.EndsApplied TuningEngine.logAfter
  cases e.handed clock snapshot using List.reverseRecOn with
  | nil => exact Iff.rfl
  | append_singleton earlier last =>
      rw [verdicts_snoc, Window.push_all_last, List.getLast?_concat]
      constructor
      · rintro ⟨back, there, was⟩
        obtain rfl := Option.some.inj there
        exact (verdict_result e.constraints _).mp was
      · intro passes
        exact ⟨_, rfl, (verdict_result e.constraints _).mpr passes⟩

theorem regression_rolls_back_iff (e : TuningEngine π) (clock : Clock) (snapshot : MetricsSnapshot) (enabled : e.enabled = true)
    (worse : e.shouldRollback snapshot = true) :
    ((∃ entry ∈ e.logAfter clock snapshot, entry.result = .applied) →
        RollsBackLatest (e.logAfter clock snapshot) (e.process clock snapshot).2.actionHistory) ↔
      (∀ entry ∈ e.logAfter clock snapshot, entry.result ≠ .applied) ∨ e.EndsApplied clock snapshot := by
  rw [(processed e clock snapshot enabled).history, if_pos worse, rolls_back_latest_iff, ends_applied_iff]
  constructor
  · intro rolls
    by_cases some : ∃ entry ∈ e.logAfter clock snapshot, entry.result = .applied
    · exact .inr (rolls some)
    · exact .inl fun entry member was => some ⟨entry, member, was⟩
  · rintro (none | ends) ⟨entry, member, was⟩
    · exact absurd was (none entry member)
    · exact ends

end

def oneStage (processedCount currentQueueLen avgLatencyNs : UInt64) : MetricsSnapshot :=
  ⟨(∅ : AList fun _ : String => StageMetricsSnapshot).insert "parse" ⟨processedCount, currentQueueLen, processedCount * avgLatencyNs⟩⟩

def stopped (now : Instant) : Clock := ⟨now, now, fun _ => now⟩

def TuningEngine.after {π : Type} [TuningPolicy π] (e : TuningEngine π) (calls : List EngineCall) : TuningEngine π :=
  (execute TuningEngine.step e calls).getD e

def aggressive : TuningEngine AggressivePolicy := .new (.new 0) .default

-- The latency doubles: the increase that the same snapshot asked for is returned
-- as applied and rolled back.
theorem returned_and_rolled_back :
    let e := aggressive.after [.process (stopped 0) (oneStage 100 200 10000000)]
    let snapshot := oneStage 100 200 20000000
    (e.produced (stopped (seconds 6)) snapshot).length ≤ e.maxLogEntries ∧
      (e.process (stopped (seconds 6)) snapshot).1 = [.increaseQueueSize "parse" 240] ∧
      e.appended (stopped (seconds 6)) snapshot = [⟨seconds 6, .increaseQueueSize "parse" 240, .rolledBack⟩] ∧
      ¬ AnswerAgrees e (stopped (seconds 6)) snapshot := by
  refine ⟨by decide +kernel, by decide +kernel, by decide +kernel, fun agrees => ?_⟩
  exact absurd agrees.returned (by decide +kernel)

theorem answer_agrees_first_call :
    AnswerAgrees aggressive (stopped 0) (oneStage 100 200 10000000) ∧
      (aggressive.process (stopped 0) (oneStage 100 200 10000000)).1 = [.increaseQueueSize "parse" 240] := by
  refine ⟨(answer_agrees_iff aggressive _ _ (by decide +kernel)).mpr ?_, by decide +kernel⟩
  rintro ⟨worse, _⟩
  cases worse

def conservative : TuningEngine ConservativePolicy := .new (.new .default 0) ⟨100, 250, 10⟩

-- An increase passes, one that is above the limit is rejected, and the latency
-- doubles while the policy cools down.
def rejectedLast : TuningEngine ConservativePolicy :=
  conservative.after [.process (stopped 0) (oneStage 100 200 10000000),
    .process (stopped (seconds 11)) (oneStage 100 300 10000000)]

theorem rejected_entry_hides_applied :
    let snapshot := oneStage 100 200 20000000
    rejectedLast.enabled = true ∧ rejectedLast.shouldRollback snapshot = true ∧
      rejectedLast.logAfter (stopped (seconds 12)) snapshot =
        [⟨0, .increaseQueueSize "parse" 220, .applied⟩, ⟨seconds 11, .increaseQueueSize "parse" 330, .rejected⟩] ∧
      (rejectedLast.process (stopped (seconds 12)) snapshot).2.actionHistory =
        rejectedLast.logAfter (stopped (seconds 12)) snapshot ∧
      ¬ RollsBackLatest (rejectedLast.logAfter (stopped (seconds 12)) snapshot)
        (rejectedLast.process (stopped (seconds 12)) snapshot).2.actionHistory := by
  have same : (rejectedLast.process (stopped (seconds 12)) (oneStage 100 200 20000000)).2.actionHistory =
      rejectedLast.logAfter (stopped (seconds 12)) (oneStage 100 200 20000000) := by decide +kernel
  refine ⟨by decide +kernel, by decide +kernel, by decide +kernel, same, ?_⟩
  rintro ⟨early, entry, late, before, was, _, after⟩
  have one := List.append_cancel_left (before.symm.trans (same.symm.trans after))
  have now := congrArg TuningLogEntry.result (List.cons.inj one).1
  rw [was] at now
  cases now

def appliedLast : TuningEngine ConservativePolicy := conservative.after [.process (stopped 0) (oneStage 100 200 10000000)]

theorem regression_rolls_back_applied :
    appliedLast.EndsApplied (stopped (seconds 1)) (oneStage 100 200 20000000) ∧
      RollsBackLatest (appliedLast.logAfter (stopped (seconds 1)) (oneStage 100 200 20000000))
        (appliedLast.process (stopped (seconds 1)) (oneStage 100 200 20000000)).2.actionHistory := by
  have ends : appliedLast.EndsApplied (stopped (seconds 1)) (oneStage 100 200 20000000) :=
    (ends_applied_iff _ _ _).mp ⟨⟨0, .increaseQueueSize "parse" 220, .applied⟩, by decide +kernel, rfl⟩
  have rolls := regression_rolls_back_iff appliedLast (stopped (seconds 1)) (oneStage 100 200 20000000) (by decide +kernel)
    (by decide +kernel)
  exact ⟨ends, rolls.mpr (.inr ends) ⟨⟨0, .increaseQueueSize "parse" 220, .applied⟩, by decide +kernel, rfl⟩⟩

end Ners.Tuning

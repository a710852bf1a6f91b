import Ners.Tuning.Policy

set_option autoImplicit false

namespace Ners.Tuning

open Window (pushAll)

inductive TuningResult where
  | applied
  | rejected
  | rolledBack
deriving DecidableEq

structure TuningLogEntry where
  timestamp : Instant
  action : TuningAction
  result : TuningResult
deriving DecidableEq

structure TuningConstraints where
  minQueueSize : Nat
  maxQueueSize : Nat
  maxActionsPerMinute : Nat

def TuningConstraints.default : TuningConstraints := ⟨100, 10000, 10⟩

structure TuningEngine (π : Type) where
  policy : π
  analyzer : MetricsAnalyzer
  constraints : TuningConstraints
  actionHistory : List TuningLogEntry
  lastBaselineNs : UInt64
  maxLogEntries : Nat
  enabled : Bool

-- What the clock shows in one call: to the policy, and at each log entry.
structure Clock where
  asked : Instant
  acted : Instant
  logged : Nat → Instant

variable {π : Type}

def TuningEngine.new (policy : π) (constraints : TuningConstraints) : TuningEngine π where
  policy := policy
  analyzer := .new .default
  constraints := constraints
  actionHistory := []
  lastBaselineNs := 0
  maxLogEntries := 1000
  enabled := true

def TuningEngine.setEnabled (e : TuningEngine π) (enabled : Bool) : TuningEngine π := { e with enabled := enabled }

def TuningConstraints.admits (c : TuningConstraints) : TuningAction → Bool
  | .increaseQueueSize _ newSize => newSize ≤ c.maxQueueSize
  | .decreaseQueueSize _ newSize => c.minQueueSize ≤ newSize
  | .enableBatching _ => true
  | .adjustBackpressure threshold => threshold.inUnit

def TuningEngine.validateAction (e : TuningEngine π) (action : TuningAction) : Bool := e.constraints.admits action

def TuningEngine.logAction (e : TuningEngine π) (now : Instant) (action : TuningAction) (result : TuningResult) : TuningEngine π :=
  { e with actionHistory := Window.push e.maxLogEntries e.actionHistory ⟨now, action, result⟩ }

def calculateAvgLatency (snapshot : MetricsSnapshot) : UInt64 :=
  let total := (snapshot.stages.entries.map (·.2.avgLatencyNs)).sum
  let count := UInt64.ofNat snapshot.stages.entries.length
  if 0 < count then total / count else 0

def TuningEngine.shouldRollback (e : TuningEngine π) (snapshot : MetricsSnapshot) : Bool :=
  if e.lastBaselineNs = 0 then false else e.lastBaselineNs * 3 / 2 < calculateAvgLatency snapshot

-- Only the entry at the back is looked at.
def rollbackBack (history : List TuningLogEntry) : List TuningLogEntry :=
  match history.getLast? with
  | some last => if last.result = .applied then history.dropLast ++ [{ last with result := .rolledBack }] else history
  | none => history

def TuningEngine.rollbackLastAction (e : TuningEngine π) : TuningEngine π :=
  { e with actionHistory := rollbackBack e.actionHistory }

-- An average of no latency leaves the baseline alone.
def nextBaseline (last currentAvg : UInt64) : UInt64 :=
  if 0 < currentAvg then
    if last = 0 then currentAvg else (last * 9 + currentAvg) / 10
  else last

def TuningEngine.updateBaseline (e : TuningEngine π) (snapshot : MetricsSnapshot) : TuningEngine π :=
  { e with lastBaselineNs := nextBaseline e.lastBaselineNs (calculateAvgLatency snapshot) }

-- The loop that validates and applies each action. apply_action only writes a
-- line to the log of the process.
def TuningEngine.applyEach : (Nat → Instant) → List TuningAction → TuningEngine π → List TuningAction × TuningEngine π
  | _, [], e => ([], e)
  | logged, action :: later, e =>
      if e.validateAction action then
        let rest := applyEach (fun n => logged (n + 1)) later (e.logAction (logged 0) action .applied)
        (action :: rest.1, rest.2)
      else applyEach (fun n => logged (n + 1)) later (e.logAction (logged 0) action .rejected)

def TuningEngine.process [TuningPolicy π] (e : TuningEngine π) (clock : Clock) (snapshot : MetricsSnapshot) :
    List TuningAction × TuningEngine π :=
  if e.enabled then
    let analyzer := e.analyzer.addSnapshot snapshot
    let (actions, policy) := TuningPolicy.analyze e.policy clock.asked clock.acted snapshot analyzer
    let (applied, e) := { e with analyzer := analyzer, policy := policy }.applyEach clock.logged actions
    let e := if e.shouldRollback snapshot then e.rollbackLastAction else e
    (applied, e.updateBaseline snapshot)
  else ([], e)

inductive EngineCall where
  | setEnabled (enabled : Bool)
  | process (clock : Clock) (snapshot : MetricsSnapshot)

def TuningEngine.step [TuningPolicy π] (e : TuningEngine π) : EngineCall → Option (TuningEngine π)
  | .setEnabled enabled => some (e.setEnabled enabled)
  | .process clock snapshot => some (e.process clock snapshot).2

-- What the policy hands to the engine in a call.
def TuningEngine.handed [TuningPolicy π] (e : TuningEngine π) (clock : Clock) (snapshot : MetricsSnapshot) : List TuningAction :=
  (TuningPolicy.analyze e.policy clock.asked clock.acted snapshot (e.analyzer.addSnapshot snapshot)).1

-- The policy is not asked while the engine is disabled.
def TuningEngine.produced [TuningPolicy π] (e : TuningEngine π) (clock : Clock) (snapshot : MetricsSnapshot) :
    List TuningAction :=
  if e.enabled then e.handed clock snapshot else []

-- A list of actions with the moments at which the loop comes to each.
def stamped : (Nat → Instant) → List TuningAction → List (Instant × TuningAction)
  | _, [] => []
  | logged, action :: later => (logged 0, action) :: stamped (fun n => logged (n + 1)) later

def TuningConstraints.verdict (c : TuningConstraints) (handed : Instant × TuningAction) : TuningLogEntry :=
  ⟨handed.1, handed.2, if c.admits handed.2 then .applied else .rejected⟩

-- The log entries of a list of actions, each judged by itself.
def TuningConstraints.verdicts (c : TuningConstraints) (logged : Nat → Instant) (actions : List TuningAction) : List TuningLogEntry :=
  (stamped logged actions).map c.verdict

-- The loop returns the actions that pass, and logs them all.
theorem apply_each (logged : Nat → Instant) (actions : List TuningAction) (e : TuningEngine π) :
    e.applyEach logged actions = (actions.filter e.constraints.admits,
      { e with actionHistory := pushAll e.maxLogEntries e.actionHistory (e.constraints.verdicts logged actions) }) := by
  induction actions generalizing logged e with
  | nil => rfl
  | cons action later ih =>
      rw [TuningEngine.applyEach, TuningConstraints.verdicts, stamped, List.map_cons, TuningConstraints.verdict, List.filter_cons,
        TuningEngine.validateAction]
      split
      · rw [ih]
        rfl
      · rw [ih]
        rfl

theorem stamped_actions (logged : Nat → Instant) (actions : List TuningAction) : (stamped logged actions).map Prod.snd = actions := by
  induction actions generalizing logged with
  | nil => rfl
  | cons action later ih => rw [stamped, List.map_cons, ih]

theorem stamped_snoc (logged : Nat → Instant) (actions : List TuningAction) (action : TuningAction) :
    stamped logged (actions ++ [action]) = stamped logged actions ++ [(logged actions.length, action)] := by
  induction actions generalizing logged with
  | nil => rfl
  | cons first later ih => rw [List.cons_append, stamped, stamped, ih, List.cons_append, List.length_cons]

theorem verdicts_length (c : TuningConstraints) (logged : Nat → Instant) (actions : List TuningAction) :
    (c.verdicts logged actions).length = actions.length := by
  rw [TuningConstraints.verdicts, List.length_map, ← List.length_map, stamped_actions]

theorem verdicts_snoc (c : TuningConstraints) (logged : Nat → Instant) (actions : List TuningAction) (action : TuningAction) :
    c.verdicts logged (actions ++ [action]) = c.verdicts logged actions ++ [c.verdict (logged actions.length, action)] := by
  rw [TuningConstraints.verdicts, stamped_snoc, List.map_append, List.map_singleton, TuningConstraints.verdicts]

def TuningLogEntry.isApplied (entry : TuningLogEntry) : Bool := entry.result = .applied

theorem verdict_result (c : TuningConstraints) (handed : Instant × TuningAction) :
    (c.verdict handed).result = .applied ↔ c.admits handed.2 = true := by
  unfold TuningConstraints.verdict
  dsimp only
  split <;> simp_all

theorem verdict_stands (c : TuningConstraints) (handed : Instant × TuningAction) : (c.verdict handed).result ≠ .rolledBack := by
  unfold TuningConstraints.verdict
  dsimp only
  split <;> simp

theorem verdicts_applied (c : TuningConstraints) (logged : Nat → Instant) (actions : List TuningAction) :
    (c.verdicts logged actions).filter TuningLogEntry.isApplied =
      ((stamped logged actions).filter fun handed => c.admits handed.2).map c.verdict := by
  have same : TuningLogEntry.isApplied ∘ c.verdict = fun handed => c.admits handed.2 := by
    funext handed
    rw [Function.comp_apply, TuningLogEntry.isApplied, Bool.eq_iff_iff, decide_eq_true_iff, verdict_result]
  rw [TuningConstraints.verdicts, List.filter_map, same]

theorem applied_actions (c : TuningConstraints) (logged : Nat → Instant) (actions : List TuningAction) :
    ((c.verdicts logged actions).filter TuningLogEntry.isApplied).map TuningLogEntry.action = actions.filter c.admits := by
  have action : TuningLogEntry.action ∘ c.verdict = Prod.snd := rfl
  have filtered : ((stamped logged actions).map Prod.snd).filter c.admits =
      ((stamped logged actions).filter fun handed => c.admits handed.2).map Prod.snd := List.filter_map
  rw [verdicts_applied, List.map_map, action, ← filtered, stamped_actions]

-- The log after a call: the verdicts, and perhaps a rollback of the last entry.
def TuningEngine.logAfter [TuningPolicy π] (e : TuningEngine π) (clock : Clock) (snapshot : MetricsSnapshot) : List TuningLogEntry :=
  pushAll e.maxLogEntries e.actionHistory (e.constraints.verdicts clock.logged (e.handed clock snapshot))

structure Processed [TuningPolicy π] (e : TuningEngine π) (clock : Clock) (snapshot : MetricsSnapshot)
    (returned : List TuningAction) (e' : TuningEngine π) : Prop where
  returned : returned = (e.handed clock snapshot).filter e.constraints.admits
  history : e'.actionHistory = if e.shouldRollback snapshot then rollbackBack (e.logAfter clock snapshot)
    else e.logAfter clock snapshot
  baseline : e'.lastBaselineNs = nextBaseline e.lastBaselineNs (calculateAvgLatency snapshot)
  constraints : e'.constraints = e.constraints
  limit : e'.maxLogEntries = e.maxLogEntries

theorem process_disabled [TuningPolicy π] (e : TuningEngine π) (clock : Clock) (snapshot : MetricsSnapshot)
    (disabled : e.enabled = false) : e.process clock snapshot = ([], e) := by
  rw [TuningEngine.process, disabled]
  rfl

theorem rollback_if (e : TuningEngine π) (snapshot : MetricsSnapshot) :
    (if e.shouldRollback snapshot then e.rollbackLastAction else e) =
      { e with actionHistory := if e.shouldRollback snapshot then rollbackBack e.actionHistory else e.actionHistory } := by
  split <;> rfl

-- Everything a call does while the engine is enabled.
theorem processed [TuningPolicy π] (e : TuningEngine π) (clock : Clock) (snapshot : MetricsSnapshot) (enabled : e.enabled = true) :
    Processed e clock snapshot (e.process clock snapshot).1 (e.process clock snapshot).2 := by
  unfold TuningEngine.process
  rw [if_pos enabled]
  dsimp only
  rw [apply_each, rollback_if]
  exact ⟨rfl, rfl, rfl, rfl, rfl⟩

end Ners.Tuning

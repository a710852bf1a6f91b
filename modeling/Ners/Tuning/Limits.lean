import Ners.Tuning.Rollback

set_option autoImplicit false

namespace Ners.Tuning

open Runs (Reached Taken execute carried)
open Window (pushAll)

variable {π : Type} [TuningPolicy π]

-- What a call returns, and what the policy hands over in it.
def TuningEngine.outcome (e : TuningEngine π) : EngineCall → List TuningAction
  | .setEnabled _ => []
  | .process clock snapshot => (e.process clock snapshot).1

def TuningEngine.offered (e : TuningEngine π) : EngineCall → List TuningAction
  | .setEnabled _ => []
  | .process clock snapshot => e.produced clock snapshot

theorem rollback_applied (log : List TuningLogEntry) (entry : TuningLogEntry) (member : entry ∈ rollbackBack log)
    (applied : entry.result = .applied) : entry ∈ log := by
  cases log using List.reverseRecOn with
  | nil => cases member
  | append_singleton log last =>
      rw [rollback_snoc, List.mem_append, List.mem_singleton] at member
      rcases member with early | rfl
      · exact List.mem_append_left _ early
      · split at applied
        · cases applied
        · rename_i other
          rw [if_neg other]
          exact List.mem_append_right _ List.mem_cons_self

theorem verdict_applied (c : TuningConstraints) (logged : Nat → Instant) (actions : List TuningAction) (entry : TuningLogEntry)
    (member : entry ∈ c.verdicts logged actions) (applied : entry.result = .applied) :
    entry.action ∈ actions ∧ c.admits entry.action = true := by
  obtain ⟨handed, there, rfl⟩ := List.mem_map.mp member
  have listed : handed.2 ∈ (stamped logged actions).map Prod.snd := List.mem_map_of_mem there
  rw [stamped_actions] at listed
  exact ⟨listed, (verdict_result c handed).mp applied⟩

-- What a call may do to the constraints, its answer and the applied entries.
structure Stepped (e : TuningEngine π) (call : EngineCall) (e' : TuningEngine π) : Prop where
  constraints : e'.constraints = e.constraints
  outcome : e.outcome call = (e.offered call).filter e.constraints.admits
  applied : ∀ entry ∈ e'.actionHistory, entry.result = .applied →
    entry ∈ e.actionHistory ∨ (entry.action ∈ e.offered call ∧ e.constraints.admits entry.action = true)

theorem stepped (e e' : TuningEngine π) (call : EngineCall) (taken : e.step call = some e') : Stepped e call e' := by
  cases call with
  | setEnabled enabled =>
      obtain rfl := Option.some.inj taken
      exact ⟨rfl, rfl, fun entry member _ => .inl member⟩
  | process clock snapshot =>
      obtain rfl := Option.some.inj taken
      cases enabled : e.enabled with
      | false =>
          have none : e.produced clock snapshot = [] := by rw [TuningEngine.produced, enabled, if_neg (by simp)]
          have idle := process_disabled e clock snapshot enabled
          refine ⟨by rw [idle], ?_, fun entry member _ => .inl ?_⟩
          · rw [TuningEngine.outcome, TuningEngine.offered, idle, none]
            rfl
          · rwa [idle] at member
      | true =>
          have produced : e.produced clock snapshot = e.handed clock snapshot := if_pos enabled
          obtain ⟨returned, history, _, constraints, _⟩ := processed e clock snapshot enabled
          refine ⟨constraints, ?_, fun entry member applied => ?_⟩
          · rw [TuningEngine.outcome, TuningEngine.offered, produced]
            exact returned
          · have logged : entry ∈ e.logAfter clock snapshot := by
              rw [history] at member
              split at member
              · exact rollback_applied _ entry member applied
              · exact member
            refine (Window.mem_push_all _ _ _ entry logged).imp_right fun judged => ?_
            rw [TuningEngine.offered, produced]
            exact verdict_applied _ _ _ entry judged applied

def TuningConstraints.Bounds (c : TuningConstraints) (action : TuningAction) : Prop :=
  ∀ newSize, action.newSize = some newSize → c.minQueueSize ≤ newSize ∧ newSize ≤ c.maxQueueSize

-- The side on which validate_action does not look.
def TuningConstraints.Slips (c : TuningConstraints) : TuningAction → Prop
  | .increaseQueueSize _ newSize => newSize < c.minQueueSize
  | .decreaseQueueSize _ newSize => c.maxQueueSize < newSize
  | .enableBatching _ => False
  | .adjustBackpressure _ => False

theorem bounds_iff (c : TuningConstraints) (action : TuningAction) (admits : c.admits action = true) :
    c.Bounds action ↔ ¬ c.Slips action := by
  cases action with
  | increaseQueueSize stage newSize =>
      have below : newSize ≤ c.maxQueueSize := of_decide_eq_true admits
      simp only [TuningConstraints.Bounds, TuningAction.newSize, TuningConstraints.Slips, Option.some.injEq]
      exact ⟨fun bounds => Nat.not_lt.mpr (bounds _ rfl).1, fun high other same => same ▸ ⟨Nat.not_lt.mp high, below⟩⟩
  | decreaseQueueSize stage newSize =>
      have above : c.minQueueSize ≤ newSize := of_decide_eq_true admits
      simp only [TuningConstraints.Bounds, TuningAction.newSize, TuningConstraints.Slips, Option.some.injEq]
      exact ⟨fun bounds => Nat.not_lt.mpr (bounds _ rfl).2, fun low other same => same ▸ ⟨above, Nat.not_lt.mp low⟩⟩
  | enableBatching stage => exact iff_of_true (fun _ size => by cases size) id
  | adjustBackpressure threshold => exact iff_of_true (fun _ size => by cases size) id

theorem slips_admitted (c : TuningConstraints) (action : TuningAction) (ordered : c.minQueueSize ≤ c.maxQueueSize)
    (slips : c.Slips action) : c.admits action = true := by
  cases action with
  | increaseQueueSize stage newSize => exact decide_eq_true (Nat.le_trans (Nat.le_of_lt slips) ordered)
  | decreaseQueueSize stage newSize => exact decide_eq_true (Nat.le_trans ordered (Nat.le_of_lt slips))
  | enableBatching stage => exact slips.elim
  | adjustBackpressure threshold => exact slips.elim

structure Bounded (c : TuningConstraints) (e : TuningEngine π) : Prop where
  constraints : e.constraints = c
  applied : ∀ entry ∈ e.actionHistory, entry.result = .applied → c.Bounds entry.action

theorem call_bounded (c : TuningConstraints) (ordered : c.minQueueSize ≤ c.maxQueueSize) (e e' : TuningEngine π) (call : EngineCall)
    (bounded : Bounded c e) (taken : e.step call = some e') :
    ((∀ action ∈ e.offered call, ¬ c.Slips action) → Bounded c e') ∧
      ((∀ action ∈ e.outcome call, c.Bounds action) ↔ ∀ action ∈ e.offered call, ¬ c.Slips action) := by
  obtain ⟨constraints, outcome, applied⟩ := stepped e e' call taken
  rw [bounded.constraints] at constraints outcome applied
  refine ⟨fun safe => ⟨constraints, fun entry member was => ?_⟩, fun returned action there slips => ?_, fun safe action member => ?_⟩
  · rcases applied entry member was with old | ⟨there, admits⟩
    · exact bounded.applied entry old was
    · exact (bounds_iff c entry.action admits).mpr (safe entry.action there)
  · have admits := slips_admitted c action ordered slips
    have bounds := returned action (outcome ▸ List.mem_filter.mpr ⟨there, admits⟩)
    exact (bounds_iff c action admits).mp bounds slips
  · rw [outcome, List.mem_filter] at member
    exact (bounds_iff c action member.2).mpr (safe action member.1)

theorem applied_sizes_bounded_iff (policy : π) (c : TuningConstraints) (calls : List EngineCall)
    (ordered : c.minQueueSize ≤ c.maxQueueSize) :
    (∀ history e, Reached TuningEngine.step (.new policy c) calls history e →
        ∀ entry ∈ e.actionHistory, entry.result = .applied → c.Bounds entry.action) ∧
      (∀ before call e e', Taken TuningEngine.step (.new policy c) calls before call e e' →
        ∀ action ∈ e.outcome call, c.Bounds action) ↔
    ∀ before call e e', Taken TuningEngine.step (.new policy c) calls before call e e' →
      ∀ action ∈ e.offered call, ¬ c.Slips action := by
  refine Runs.each_kept_iff (fun _ e => Bounded c e)
    (fun _ e => ∀ entry ∈ e.actionHistory, entry.result = .applied → c.Bounds entry.action)
    (fun _ e call _ => ∀ action ∈ e.outcome call, c.Bounds action) (fun _ e call _ => ∀ action ∈ e.offered call, ¬ c.Slips action)
    (TuningEngine.new policy c) calls ?_ (fun _ e bounded => bounded.applied) ?_ ?_
  · exact ⟨rfl, fun entry member => by cases member⟩
  · intro before call e e' bounded there safe
    exact (call_bounded c ordered e e' call bounded there.taken).1 safe
  · intro before call e e' bounded there
    obtain ⟨onward, same⟩ := call_bounded c ordered e e' call bounded there.taken
    exact ⟨fun both => same.mp both.2, fun safe => ⟨(onward safe).applied, same.mpr safe⟩⟩

-- A short queue is increased to a size below the minimum.
theorem increase_below_minimum :
    TuningConstraints.default.minQueueSize ≤ TuningConstraints.default.maxQueueSize ∧
      aggressive.outcome (.process (stopped 0) (oneStage 100 10 10000000)) = [.increaseQueueSize "parse" 12] ∧
      (aggressive.after [.process (stopped 0) (oneStage 100 10 10000000)]).actionHistory =
        [⟨0, .increaseQueueSize "parse" 12, .applied⟩] ∧
      ¬ TuningConstraints.default.Bounds (.increaseQueueSize "parse" 12) := by
  refine ⟨by decide, by decide +kernel, by decide +kernel, fun bounds => ?_⟩
  exact absurd (bounds 12 rfl).1 (by decide)

theorem applied_sizes_bounded_once :
    aggressive.outcome (.process (stopped 0) (oneStage 100 200 10000000)) = [.increaseQueueSize "parse" 240] ∧
      TuningConstraints.default.Bounds (.increaseQueueSize "parse" 240) := by
  have answer : aggressive.outcome (.process (stopped 0) (oneStage 100 200 10000000)) = [.increaseQueueSize "parse" 240] := by
    decide +kernel
  have offered : aggressive.offered (.process (stopped 0) (oneStage 100 200 10000000)) = [.increaseQueueSize "parse" 240] := by
    decide +kernel
  have bounded := applied_sizes_bounded_iff (AggressivePolicy.new 0) .default [.process (stopped 0) (oneStage 100 200 10000000)]
    (by decide)
  refine ⟨answer, (bounded.mpr ?_).2 [] _ aggressive _ (Runs.taken_first _ _ _ [] rfl) _ (answer ▸ List.mem_cons_self)⟩
  intro before call e e' there action member
  rcases Runs.taken_cons _ e e' _ call _ before there with ⟨_, rfl, rfl⟩ | ⟨_, rest, _, _, none⟩
  · have listed : action ∈ [TuningAction.increaseQueueSize "parse" 240] := by
      rw [← offered]
      exact member
    rw [List.mem_singleton.mp listed]
    exact Nat.not_lt.mpr (by decide)
  · exact absurd none (Runs.taken_nil _ _ _ _ _)

-- The entries that a call logs, in a log with room for all of them.
def TuningEngine.logs (e : TuningEngine π) (clock : Clock) (snapshot : MetricsSnapshot) : List TuningLogEntry :=
  let actions := e.produced clock snapshot
  ({ e with actionHistory := [], maxLogEntries := actions.length }.applyEach clock.logged actions).2.actionHistory

-- The moments at which a call applies an action.
def TuningEngine.appliedAt (e : TuningEngine π) : EngineCall → List Instant
  | .setEnabled _ => []
  | .process clock snapshot => ((e.logs clock snapshot).filter TuningLogEntry.isApplied).map TuningLogEntry.timestamp

-- The actions that the policy hands over in a call, as the engine comes to each.
def TuningEngine.handedAt (e : TuningEngine π) : EngineCall → List (Instant × TuningAction)
  | .setEnabled _ => []
  | .process clock snapshot => stamped clock.logged (e.produced clock snapshot)

def appliedOver (start : TuningEngine π) (calls : List EngineCall) : List Instant :=
  carried TuningEngine.step (fun e call times => times ++ e.appliedAt call) start [] calls

def handedOver (start : TuningEngine π) (calls : List EngineCall) : List (Instant × TuningAction) :=
  carried TuningEngine.step (fun e call handed => handed ++ e.handedAt call) start [] calls

def inMinute (start now : Instant) : Bool := start ≤ now && now < start + seconds 60

theorem logs_verdicts (e : TuningEngine π) (clock : Clock) (snapshot : MetricsSnapshot) :
    e.logs clock snapshot = e.constraints.verdicts clock.logged (e.produced clock snapshot) := by
  rw [TuningEngine.logs, apply_each]
  obtain ⟨rest, suffix, kept⟩ := Window.push_all_keeps (e.produced clock snapshot).length []
    (e.constraints.verdicts clock.logged (e.produced clock snapshot)) (verdicts_length _ _ _).le
  obtain rfl := List.suffix_nil.mp suffix
  exact kept

theorem applied_at (e : TuningEngine π) (call : EngineCall) :
    e.appliedAt call = ((e.handedAt call).filter fun handed => e.constraints.admits handed.2).map Prod.fst := by
  cases call with
  | setEnabled enabled => rfl
  | process clock snapshot =>
      rw [TuningEngine.appliedAt, logs_verdicts, verdicts_applied, List.map_map, TuningEngine.handedAt]
      rfl

theorem applied_over (c : TuningConstraints) (calls : List EngineCall) (e : TuningEngine π) (constraints : e.constraints = c)
    (times : List Instant) (handed : List (Instant × TuningAction))
    (same : times = (handed.filter fun one => c.admits one.2).map Prod.fst) :
    carried TuningEngine.step (fun e call times => times ++ e.appliedAt call) e times calls =
      ((carried TuningEngine.step (fun e call handed => handed ++ e.handedAt call) e handed calls).filter
        fun one => c.admits one.2).map Prod.fst := by
  induction calls generalizing e times handed with
  | nil => exact same
  | cons call later ih =>
      have onward : times ++ e.appliedAt call = ((handed ++ e.handedAt call).filter fun one => c.admits one.2).map Prod.fst := by
        rw [applied_at, constraints, List.filter_append, List.map_append, same]
      rw [carried, carried]
      cases taken : e.step call with
      | none => exact onward
      | some e' => exact ih e' ((stepped e e' call taken).constraints.trans constraints) _ _ onward

theorem applied_rate_limited_iff (policy : π) (c : TuningConstraints) (calls : List EngineCall) :
    (∀ start, (appliedOver (.new policy c) calls).countP (inMinute start) ≤ c.maxActionsPerMinute) ↔
      ∀ start, (handedOver (.new policy c) calls).countP (fun handed => inMinute start handed.1 && c.admits handed.2) ≤
        c.maxActionsPerMinute := by
  refine forall_congr' fun start => ?_
  rw [appliedOver, handedOver, applied_over c calls (.new policy c) rfl [] [] rfl, List.countP_map, List.countP_filter]
  rfl

def crowded : MetricsSnapshot :=
  ⟨["parse", "route", "app"].foldl (fun stages id => stages.insert id ⟨100, 3000, 0⟩) (∅ : AList fun _ : String => StageMetricsSnapshot)⟩

def fourBatches : List EngineCall :=
  [.process (stopped 0) crowded, .process (stopped (seconds 11)) crowded, .process (stopped (seconds 22)) crowded,
    .process (stopped (seconds 33)) crowded]

-- Under the default limit of ten, the conservative policy has twelve actions
-- applied within 33 seconds.
theorem twelve_applied_in_a_minute :
    (appliedOver (.new (ConservativePolicy.new .default 0) .default) fourBatches).countP (inMinute 0) = 12 ∧
      ¬ ∀ start, (appliedOver (.new (ConservativePolicy.new .default 0) .default) fourBatches).countP (inMinute start) ≤
        TuningConstraints.default.maxActionsPerMinute := by
  have twelve : (appliedOver (.new (ConservativePolicy.new .default 0) .default) fourBatches).countP (inMinute 0) = 12 := by
    decide +kernel
  refine ⟨twelve, fun limited => ?_⟩
  have few := limited 0
  rw [twelve] at few
  exact absurd few (by decide)

end Ners.Tuning

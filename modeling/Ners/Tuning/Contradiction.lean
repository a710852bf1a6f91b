import Ners.Tuning.Rollback

set_option autoImplicit false

namespace Ners.Tuning

theorem lt_raised_iff (stepSize : ℚ) (q : Nat) : q < raisedSize stepSize q ↔ q < 10000 ∧ 1 ≤ q * stepSize := by
  have product : (q : ℚ) * (1 + stepSize) = q + q * stepSize := by rw [mul_add, mul_one]
  rw [raisedSize, asUsize, lt_min_iff, lt_min_iff, Int.lt_toNat, Int.lt_floor_iff, product, Int.cast_natCast, add_le_add_iff_left]
  constructor
  · rintro ⟨⟨enough, _⟩, below⟩
    exact ⟨below, enough⟩
  · rintro ⟨below, enough⟩
    exact ⟨⟨enough, by omega⟩, below⟩

theorem lowered_below (stepSize : ℚ) (q : Nat) (positive : 0 < stepSize) (long : 100 < q) : loweredSize stepSize q < q := by
  have some : (0 : ℚ) < q := Nat.cast_pos.mpr (Nat.zero_lt_of_lt long)
  have below : (q : ℚ) * (1 - stepSize) < q := by
    rw [mul_sub, mul_one]
    exact sub_lt_self _ (mul_pos some positive)
  have floor : ⌊(q : ℚ) * (1 - stepSize)⌋ < (q : ℤ) := Int.floor_lt.mpr (by rwa [Int.cast_natCast])
  rw [loweredSize, asUsize]
  omega

theorem whole_step_iff (q parts : Nat) (positive : 0 < parts) : (1 : ℚ) ≤ q * (1 / parts) ↔ parts ≤ q := by
  rw [mul_one_div, le_div_iff₀ (Nat.cast_pos.mpr positive), one_mul, Nat.cast_le]

theorem conservative_grows_iff (q : Nat) : q < raisedSize ConservativePolicy.stepSize q ↔ 10 ≤ q ∧ q < 10000 := by
  have step : ConservativePolicy.stepSize = 1 / (10 : Nat) := by norm_num [ConservativePolicy.stepSize]
  rw [lt_raised_iff, step, whole_step_iff q 10 (by omega), and_comm]

theorem aggressive_grows_iff (q : Nat) : q < raisedSize AggressivePolicy.stepSize q ↔ 5 ≤ q ∧ q < 10000 := by
  have step : AggressivePolicy.stepSize = 1 / (5 : Nat) := by norm_num [AggressivePolicy.stepSize]
  rw [lt_raised_iff, step, whole_step_iff q 5 (by omega), and_comm]

-- No stage is both raised and lowered, and each action moves its queue the way
-- it says.
structure Consistent (snapshot : MetricsSnapshot) (actions : List TuningAction) : Prop where
  apart : ∀ stage up down, .increaseQueueSize stage up ∈ actions → .decreaseQueueSize stage down ∉ actions
  raises : ∀ stage newSize, .increaseQueueSize stage newSize ∈ actions →
    ∃ metrics, snapshot.stages.lookup stage = some metrics ∧ metrics.currentQueue < newSize
  lowers : ∀ stage newSize, .decreaseQueueSize stage newSize ∈ actions →
    ∃ metrics, snapshot.stages.lookup stage = some metrics ∧ newSize < metrics.currentQueue

-- The stages that memory pressure would shorten, in iteration order.
def crowdedStages (snapshot : MetricsSnapshot) : List String :=
  (snapshot.stages.entries.filter fun stage => 100 < stage.2.currentQueue).map (·.1)

theorem reductions_map (stepSize : ℚ) (snapshot : MetricsSnapshot) :
    reductions stepSize snapshot = (snapshot.stages.entries.filter fun stage => 100 < stage.2.currentQueue).map
      fun stage => .decreaseQueueSize stage.1 (loweredSize stepSize stage.2.currentQueue) := by
  unfold reductions
  induction snapshot.stages.entries with
  | nil => rfl
  | cons stage later ih =>
      by_cases long : 100 < stage.2.currentQueue
      · rw [List.filterMap_cons, if_pos long, List.filter_cons, if_pos (decide_eq_true long), List.map_cons, ih]
      · rw [List.filterMap_cons, if_neg long, List.filter_cons, if_neg (by simpa using long), ih]

theorem reduction_lowers (stepSize : ℚ) (snapshot : MetricsSnapshot) (positive : 0 < stepSize) (action : TuningAction)
    (member : action ∈ reductions stepSize snapshot) :
    ∃ stage newSize metrics, action = .decreaseQueueSize stage newSize ∧ snapshot.stages.lookup stage = some metrics ∧
      newSize < metrics.currentQueue := by
  rw [reductions_map, List.mem_map] at member
  obtain ⟨⟨stage, metrics⟩, there, rfl⟩ := member
  obtain ⟨entry, long⟩ := List.mem_filter.mp there
  exact ⟨stage, _, metrics, rfl, AList.mem_lookup_iff.mpr entry, lowered_below stepSize _ positive (of_decide_eq_true long)⟩

theorem reduced_iff (stepSize : ℚ) (snapshot : MetricsSnapshot) (count : Nat) (stage : String) :
    (∃ newSize, .decreaseQueueSize stage newSize ∈ (reductions stepSize snapshot).take count) ↔
      stage ∈ (crowdedStages snapshot).take count := by
  rw [reductions_map, crowdedStages, ← List.map_take, ← List.map_take]
  constructor
  · rintro ⟨newSize, member⟩
    obtain ⟨entry, there, same⟩ := List.mem_map.mp member
    obtain ⟨rfl, _⟩ := TuningAction.decreaseQueueSize.inj same
    exact List.mem_map.mpr ⟨entry, there, rfl⟩
  · intro member
    obtain ⟨entry, there, rfl⟩ := List.mem_map.mp member
    exact ⟨_, List.mem_map.mpr ⟨entry, there, rfl⟩⟩

-- What is left of a list of decreases and other actions that resize nothing.
theorem decrease_taken (downs others : List TuningAction) (neutral : ∀ action ∈ others, action.newSize = none) (count : Nat)
    (stage : String) (newSize : Nat) :
    .decreaseQueueSize stage newSize ∈ (downs ++ others).take count ↔ .decreaseQueueSize stage newSize ∈ downs.take count := by
  rw [List.take_append, List.mem_append]
  refine or_iff_left fun member => ?_
  cases neutral _ (List.mem_of_mem_take member)

theorem sized_from (stepSize : ℚ) (snapshot : MetricsSnapshot) (positive : 0 < stepSize) (downs others : List TuningAction)
    (reduced : ∀ action ∈ downs, action ∈ reductions stepSize snapshot) (neutral : ∀ action ∈ others, action.newSize = none)
    (count : Nat) (action : TuningAction) (member : action ∈ (downs ++ others).take count) :
    action.newSize = none ∨ ∃ stage newSize metrics, action = .decreaseQueueSize stage newSize ∧
      snapshot.stages.lookup stage = some metrics ∧ newSize < metrics.currentQueue := by
  rcases List.mem_append.mp (List.mem_of_mem_take member) with down | other
  · exact .inr (reduction_lowers stepSize snapshot positive action (reduced action down))
  · exact .inl (neutral action other)

theorem consistent_reduced (stepSize : ℚ) (snapshot : MetricsSnapshot) (positive : 0 < stepSize) (downs others : List TuningAction)
    (reduced : ∀ action ∈ downs, action ∈ reductions stepSize snapshot) (neutral : ∀ action ∈ others, action.newSize = none)
    (count : Nat) : Consistent snapshot ((downs ++ others).take count) := by
  have sized := sized_from stepSize snapshot positive downs others reduced neutral count
  have never (stage : String) (up : Nat) : .increaseQueueSize stage up ∉ (downs ++ others).take count := by
    intro member
    rcases sized _ member with none | ⟨_, _, _, same, _⟩
    · cases none
    · cases same
  refine ⟨fun stage up _ member => absurd member (never stage up), fun stage up member => absurd member (never stage up), ?_⟩
  intro stage newSize member
  rcases sized _ member with none | ⟨_, _, metrics, same, found, below⟩
  · cases none
  · obtain ⟨rfl, rfl⟩ := TuningAction.decreaseQueueSize.inj same
    exact ⟨metrics, found, below⟩

-- An increase in front of the decreases that memory pressure asks for.
theorem consistent_raised_iff (stepSize : ℚ) (snapshot : MetricsSnapshot) (positive : 0 < stepSize) (bottleneck : String)
    (metrics : StageMetricsSnapshot) (newSize : Nat) (found : snapshot.stages.lookup bottleneck = some metrics)
    (pressed : Prop) [Decidable pressed] (others : List TuningAction) (neutral : ∀ action ∈ others, action.newSize = none) (count : Nat) :
    Consistent snapshot (.increaseQueueSize bottleneck newSize ::
        ((if pressed then reductions stepSize snapshot else []) ++ others).take count) ↔
      metrics.currentQueue < newSize ∧ ¬ (pressed ∧ bottleneck ∈ (crowdedStages snapshot).take count) := by
  have reduced : ∀ action ∈ (if pressed then reductions stepSize snapshot else []), action ∈ reductions stepSize snapshot := by
    intro action member
    split at member
    · exact member
    · cases member
  have rest := consistent_reduced stepSize snapshot positive _ others reduced neutral count
  have contradicts : (∃ down, .decreaseQueueSize bottleneck down ∈
      ((if pressed then reductions stepSize snapshot else []) ++ others).take count) ↔
        pressed ∧ bottleneck ∈ (crowdedStages snapshot).take count := by
    rw [← reduced_iff stepSize]
    by_cases high : pressed
    · simp only [decrease_taken _ others neutral, high, if_true, true_and]
    · simp only [decrease_taken _ others neutral, high, if_false, List.take_nil, List.not_mem_nil, exists_false, false_and]
  rw [← contradicts]
  constructor
  · intro consistent
    refine ⟨?_, fun ⟨down, member⟩ => ?_⟩
    · obtain ⟨same, there, below⟩ := consistent.raises bottleneck newSize List.mem_cons_self
      obtain rfl := Option.some.inj (found.symm.trans there)
      exact below
    · exact consistent.apart bottleneck newSize down List.mem_cons_self (List.mem_cons_of_mem _ member)
  · rintro ⟨above, apart⟩
    refine ⟨fun stage up down raised lowered => ?_, fun stage up raised => ?_, fun stage down lowered => ?_⟩
    · have behind := (List.mem_cons.mp lowered).resolve_left (by simp)
      rcases List.mem_cons.mp raised with same | other
      · obtain ⟨rfl, rfl⟩ := TuningAction.increaseQueueSize.inj same
        exact apart ⟨down, behind⟩
      · exact rest.apart stage up down other behind
    · rcases List.mem_cons.mp raised with same | other
      · obtain ⟨rfl, rfl⟩ := TuningAction.increaseQueueSize.inj same
        exact ⟨metrics, found, above⟩
      · exact rest.raises stage up other
    · exact rest.lowers stage down ((List.mem_cons.mp lowered).resolve_left (by simp))

theorem batch_neutral (analyzer : MetricsAnalyzer) (action : TuningAction) (member : action ∈ batch analyzer) :
    action.newSize = none := by
  rw [batch, List.mem_filterMap] at member
  obtain ⟨stageId, _, made⟩ := member
  split at made
  · cases made
  · split at made
    · exact Option.some.inj made ▸ rfl
    · cases made

-- The bottleneck would be raised, and it is one of the first two stages that
-- memory pressure shortens.
def ConservativePolicy.Contradicts (p : ConservativePolicy) (asked : Instant) (snapshot : MetricsSnapshot)
    (analyzer : MetricsAnalyzer) : Prop :=
  p.inCooldown asked = false ∧ ∃ bottleneck metrics, analyzer.identifyBottleneck = some bottleneck ∧
    snapshot.stages.lookup bottleneck = some metrics ∧ p.rules.p99TargetNs < metrics.avgLatencyNs ∧
    metrics.currentQueue < 10000 ∧ p.rules.memoryPressureThreshold.exceededBy analyzer.getMemoryPressure = true ∧
    bottleneck ∈ (crowdedStages snapshot).take 2

-- The bottleneck's queue is too short or too long for a step up, or is one of
-- the first four that memory pressure shortens.
def AggressivePolicy.Contradicts (p : AggressivePolicy) (asked : Instant) (snapshot : MetricsSnapshot)
    (analyzer : MetricsAnalyzer) : Prop :=
  p.inCooldown asked = false ∧ ∃ bottleneck metrics, analyzer.identifyBottleneck = some bottleneck ∧
    snapshot.stages.lookup bottleneck = some metrics ∧
    (metrics.currentQueue < 5 ∨ 10000 ≤ metrics.currentQueue ∨
      7 / 10 < analyzer.getMemoryPressure ∧ bottleneck ∈ (crowdedStages snapshot).take 4)

theorem nothing_consistent (snapshot : MetricsSnapshot) : Consistent snapshot [] := by
  refine ⟨fun _ _ _ member => ?_, fun _ _ member => ?_, fun _ _ member => ?_⟩ <;> cases member

theorem crowded_long (snapshot : MetricsSnapshot) (stage : String) (metrics : StageMetricsSnapshot)
    (found : snapshot.stages.lookup stage = some metrics) (member : stage ∈ crowdedStages snapshot) : 100 < metrics.currentQueue := by
  obtain ⟨⟨id, other⟩, there, rfl⟩ := List.mem_map.mp member
  obtain ⟨entry, long⟩ := List.mem_filter.mp there
  obtain rfl := Option.some.inj (found.symm.trans (AList.mem_lookup_iff.mpr entry))
  exact of_decide_eq_true long

-- Rule 1 adds one increase or nothing.
theorem conservative_relieves (p : ConservativePolicy) (snapshot : MetricsSnapshot) (analyzer : MetricsAnalyzer) :
    (p.relieve snapshot analyzer = [] ∧ ∀ bottleneck metrics, analyzer.identifyBottleneck = some bottleneck →
        snapshot.stages.lookup bottleneck = some metrics → p.rules.p99TargetNs < metrics.avgLatencyNs →
        ¬ metrics.currentQueue < raisedSize ConservativePolicy.stepSize metrics.currentQueue) ∨
      ∃ bottleneck metrics, analyzer.identifyBottleneck = some bottleneck ∧ snapshot.stages.lookup bottleneck = some metrics ∧
        p.rules.p99TargetNs < metrics.avgLatencyNs ∧
        metrics.currentQueue < raisedSize ConservativePolicy.stepSize metrics.currentQueue ∧
        p.relieve snapshot analyzer =
          [.increaseQueueSize bottleneck (raisedSize ConservativePolicy.stepSize metrics.currentQueue)] := by
  unfold ConservativePolicy.relieve
  cases identified : analyzer.identifyBottleneck with
  | none => exact .inl ⟨rfl, fun _ _ other => by cases other⟩
  | some bottleneck =>
      dsimp only
      cases found : snapshot.stages.lookup bottleneck with
      | none =>
          refine .inl ⟨rfl, fun other metrics same there => ?_⟩
          obtain rfl := Option.some.inj same
          cases found.symm.trans there
      | some metrics =>
          dsimp only
          have only (other : String) (more : StageMetricsSnapshot) (same : some bottleneck = some other)
              (there : snapshot.stages.lookup other = some more) : more = metrics := by
            obtain rfl := Option.some.inj same
            exact Option.some.inj (there.symm.trans found)
          by_cases slow : p.rules.p99TargetNs < metrics.avgLatencyNs
          · rw [if_pos slow]
            by_cases grows : metrics.currentQueue < raisedSize ConservativePolicy.stepSize metrics.currentQueue
            · rw [if_pos grows]
              exact .inr ⟨bottleneck, metrics, rfl, found, slow, grows, rfl⟩
            · rw [if_neg grows]
              exact .inl ⟨rfl, fun other more same there _ => only other more same there ▸ grows⟩
          · rw [if_neg slow]
            exact .inl ⟨rfl, fun other more same there high => absurd (only other more same there ▸ high) slow⟩

theorem conservative_consistent_iff (p : ConservativePolicy) (asked acted : Instant) (snapshot : MetricsSnapshot)
    (analyzer : MetricsAnalyzer) :
    Consistent snapshot (p.analyze asked acted snapshot analyzer).1 ↔ ¬ p.Contradicts asked snapshot analyzer := by
  have positive : 0 < ConservativePolicy.stepSize := by norm_num [ConservativePolicy.stepSize]
  unfold ConservativePolicy.analyze
  by_cases cooling : p.inCooldown asked = true
  · rw [if_pos cooling]
    refine iff_of_true (nothing_consistent snapshot) fun ⟨ready, _⟩ => ?_
    cases ready.symm.trans cooling
  · rw [if_neg cooling]
    have neutral := batch_neutral analyzer
    dsimp only
    rcases conservative_relieves p snapshot analyzer with ⟨nothing, short⟩ | ⟨bottleneck, metrics, identified, found, slow, grows, one⟩
    · rw [nothing, List.nil_append, ConservativePolicy.reduce]
      refine iff_of_true (consistent_reduced _ snapshot positive _ _ (fun action member => ?_) neutral 3) ?_
      · split at member
        · exact member
        · cases member
      · rintro ⟨_, bottleneck, metrics, identified, found, slow, below, _, crowded⟩
        have long := crowded_long snapshot bottleneck metrics found (List.mem_of_mem_take crowded)
        refine short bottleneck metrics identified found slow ((conservative_grows_iff _).mpr ⟨?_, below⟩)
        omega
    · rw [one, List.cons_append, List.nil_append, List.cons_append, List.take_succ_cons, ConservativePolicy.reduce,
        consistent_raised_iff _ snapshot positive bottleneck metrics _ found _ _ neutral]
      have below := ((conservative_grows_iff _).mp grows).2
      constructor
      · rintro ⟨_, apart⟩ ⟨_, other, more, same, there, _, _, pressed, crowded⟩
        obtain rfl := Option.some.inj (identified.symm.trans same)
        exact apart ⟨pressed, crowded⟩
      · intro safe
        refine ⟨grows, fun ⟨pressed, crowded⟩ => safe ⟨by simpa using cooling, ?_⟩⟩
        exact ⟨bottleneck, metrics, identified, found, slow, below, pressed, crowded⟩

-- Its rule 1 adds an increase wherever it knows the bottleneck.
theorem aggressive_relieves (snapshot : MetricsSnapshot) (analyzer : MetricsAnalyzer) :
    (AggressivePolicy.relieve snapshot analyzer = [] ∧ ∀ bottleneck metrics,
        analyzer.identifyBottleneck = some bottleneck → snapshot.stages.lookup bottleneck ≠ some metrics) ∨
      ∃ bottleneck metrics, analyzer.identifyBottleneck = some bottleneck ∧ snapshot.stages.lookup bottleneck = some metrics ∧
        AggressivePolicy.relieve snapshot analyzer =
          [.increaseQueueSize bottleneck (raisedSize AggressivePolicy.stepSize metrics.currentQueue)] := by
  unfold AggressivePolicy.relieve
  cases identified : analyzer.identifyBottleneck with
  | none => exact .inl ⟨rfl, fun _ _ other => by cases other⟩
  | some bottleneck =>
      dsimp only
      cases found : snapshot.stages.lookup bottleneck with
      | none =>
          refine .inl ⟨rfl, fun other metrics same there => ?_⟩
          obtain rfl := Option.some.inj same
          cases found.symm.trans there
      | some metrics => exact .inr ⟨bottleneck, metrics, rfl, found, rfl⟩

theorem aggressive_consistent_iff (p : AggressivePolicy) (asked acted : Instant) (snapshot : MetricsSnapshot)
    (analyzer : MetricsAnalyzer) :
    Consistent snapshot (p.analyze asked acted snapshot analyzer).1 ↔ ¬ p.Contradicts asked snapshot analyzer := by
  have positive : 0 < AggressivePolicy.stepSize := by norm_num [AggressivePolicy.stepSize]
  have quiet : ∀ action ∈ ([] : List TuningAction), action.newSize = none := fun _ member => by cases member
  unfold AggressivePolicy.analyze
  by_cases cooling : p.inCooldown asked = true
  · rw [if_pos cooling]
    refine iff_of_true (nothing_consistent snapshot) fun ⟨ready, _⟩ => ?_
    cases ready.symm.trans cooling
  · rw [if_neg cooling]
    dsimp only
    rcases aggressive_relieves snapshot analyzer with ⟨nothing, unknown⟩ | ⟨bottleneck, metrics, identified, found, one⟩
    · rw [nothing, List.nil_append, AggressivePolicy.reduce, ← List.append_nil (ite _ _ _)]
      refine iff_of_true (consistent_reduced _ snapshot positive _ _ (fun action member => ?_) quiet 5) ?_
      · split at member
        · exact member
        · cases member
      · rintro ⟨_, bottleneck, metrics, identified, found, _⟩
        exact unknown bottleneck metrics identified found
    · have raised := consistent_raised_iff _ snapshot positive bottleneck metrics
        (raisedSize AggressivePolicy.stepSize metrics.currentQueue) found (7 / 10 < analyzer.getMemoryPressure) [] quiet 4
      rw [List.append_nil, aggressive_grows_iff] at raised
      rw [one, List.cons_append, List.nil_append, List.take_succ_cons, AggressivePolicy.reduce, raised]
      constructor
      · rintro ⟨⟨long, short⟩, apart⟩ ⟨_, other, more, same, there, fails⟩
        obtain rfl := Option.some.inj (identified.symm.trans same)
        obtain rfl := Option.some.inj (found.symm.trans there)
        rcases fails with tiny | full | pressed
        · exact absurd long (Nat.not_le.mpr tiny)
        · exact absurd short (Nat.not_lt.mpr full)
        · exact apart pressed
      · intro safe
        have ready : p.inCooldown asked = false := by simpa using cooling
        have fine (fails : metrics.currentQueue < 5 ∨ 10000 ≤ metrics.currentQueue ∨
            7 / 10 < analyzer.getMemoryPressure ∧ bottleneck ∈ (crowdedStages snapshot).take 4) : False :=
          safe ⟨ready, bottleneck, metrics, identified, found, fails⟩
        refine ⟨⟨Nat.not_lt.mp fun tiny => fine (.inl tiny), Nat.not_le.mp fun full => fine (.inr (.inl full))⟩, ?_⟩
        exact fun pressed => fine (.inr (.inr pressed))

theorem policies_consistent_iff (conservative : ConservativePolicy) (aggressive : AggressivePolicy) (asked acted : Instant)
    (snapshot : MetricsSnapshot) (analyzer : MetricsAnalyzer) :
    (Consistent snapshot (conservative.analyze asked acted snapshot analyzer).1 ↔
        ¬ conservative.Contradicts asked snapshot analyzer) ∧
      (Consistent snapshot (aggressive.analyze asked acted snapshot analyzer).1 ↔
        ¬ aggressive.Contradicts asked snapshot analyzer) :=
  ⟨conservative_consistent_iff conservative asked acted snapshot analyzer,
    aggressive_consistent_iff aggressive asked acted snapshot analyzer⟩

theorem both_ways_inconsistent (snapshot : MetricsSnapshot) (stage : String) (up down : Nat) :
    ¬ Consistent snapshot [.increaseQueueSize stage up, .decreaseQueueSize stage down] := fun consistent =>
  consistent.apart stage up down List.mem_cons_self (List.mem_cons_of_mem _ List.mem_cons_self)

-- One long and slow queue: each policy raises and lowers it in one call.
theorem raised_and_lowered :
    let snapshot := oneStage 100 9000 10000000
    let analyzer := (MetricsAnalyzer.new .default).addSnapshot snapshot
    ((ConservativePolicy.new .default 0).analyze 0 0 snapshot analyzer).1 =
        [.increaseQueueSize "parse" 9900, .decreaseQueueSize "parse" 8100] ∧
      ((AggressivePolicy.new 0).analyze 0 0 snapshot analyzer).1 =
        [.increaseQueueSize "parse" 10000, .decreaseQueueSize "parse" 7200] ∧
      ¬ Consistent snapshot ((ConservativePolicy.new .default 0).analyze 0 0 snapshot analyzer).1 ∧
      ¬ Consistent snapshot ((AggressivePolicy.new 0).analyze 0 0 snapshot analyzer).1 := by
  intro snapshot analyzer
  have conservative : ((ConservativePolicy.new .default 0).analyze 0 0 snapshot analyzer).1 =
      [.increaseQueueSize "parse" 9900, .decreaseQueueSize "parse" 8100] := by decide +kernel
  have aggressive : ((AggressivePolicy.new 0).analyze 0 0 snapshot analyzer).1 =
      [.increaseQueueSize "parse" 10000, .decreaseQueueSize "parse" 7200] := by decide +kernel
  refine ⟨conservative, aggressive, ?_, ?_⟩
  · rw [conservative]
    exact both_ways_inconsistent snapshot "parse" 9900 8100
  · rw [aggressive]
    exact both_ways_inconsistent snapshot "parse" 10000 7200

end Ners.Tuning

import Ners.Tuning.Analyzer

set_option autoImplicit false

namespace Ners.Tuning

def MetricsAnalyzer.addAll (a : MetricsAnalyzer) (snapshots : List MetricsSnapshot) : MetricsAnalyzer :=
  snapshots.foldl MetricsAnalyzer.addSnapshot a

-- What compute_trends is run on.
def MetricsAnalyzer.evicted (a : MetricsAnalyzer) : MetricsAnalyzer :=
  { a with history := Window.evict a.maxHistory a.history }

-- The values of a stage in the window, where it is present.
def MetricsAnalyzer.historical (a : MetricsAnalyzer) (stageId : String) : List StageMetricsSnapshot :=
  (a.history.drop (a.history.length - a.rules.trendWindow)).filterMap fun s => s.stages.lookup stageId

-- The snapshot gets as far as inserting a trend for the stage.
structure MetricsAnalyzer.Computes (a : MetricsAnalyzer) (stageId : String) (current : StageMetricsSnapshot)
    (snapshot : MetricsSnapshot) : Prop where
  filled : a.rules.trendWindow ≤ a.history.length
  compared : a.historical stageId ≠ []
  here : snapshot.stages.lookup stageId = some current

theorem trends_of_entries (entries : List (Sigma fun _ : String => StageMetricsSnapshot)) (distinct : entries.NodupKeys)
    (trends : AList fun _ : String => StageTrend) (historical : String → List StageMetricsSnapshot) (stageId : String) :
    (entries.foldl (fun trends stage =>
        if historical stage.1 = [] then trends else trends.insert stage.1 (stageTrend (historical stage.1) stage.2)) trends).lookup
      stageId =
      match entries.dlookup stageId with
      | none => trends.lookup stageId
      | some current => if historical stageId = [] then trends.lookup stageId else some (stageTrend (historical stageId) current) := by
  induction entries generalizing trends with
  | nil => rfl
  | cons stage later ih =>
      obtain ⟨fresh, distinct⟩ := List.nodupKeys_cons.mp distinct
      rw [List.foldl_cons, ih distinct]
      by_cases mine : stage.1 = stageId
      · obtain ⟨id, current⟩ := stage
        subst mine
        rw [List.dlookup_eq_none.mpr fresh, List.dlookup_cons_eq]
        dsimp only
        by_cases empty : historical id = []
        · rw [if_pos empty, if_pos empty]
        · rw [if_neg empty, if_neg empty, AList.lookup_insert]
      · rw [List.dlookup_cons_ne _ _ (Ne.symm mine)]
        have same : (if historical stage.1 = [] then trends else
            trends.insert stage.1 (stageTrend (historical stage.1) stage.2)).lookup stageId = trends.lookup stageId := by
          split
          · rfl
          · exact AList.lookup_insert_ne (Ne.symm mine)
        rw [same]

theorem compute_trends_lookup (a : MetricsAnalyzer) (snapshot : MetricsSnapshot) (stageId : String)
    (filled : a.rules.trendWindow ≤ a.history.length) :
    (a.computeTrends snapshot).getTrend stageId =
      match snapshot.stages.lookup stageId with
      | none => a.getTrend stageId
      | some current =>
          if a.historical stageId = [] then a.getTrend stageId else some (stageTrend (a.historical stageId) current) := by
  unfold MetricsAnalyzer.computeTrends
  rw [if_neg (by omega)]
  exact trends_of_entries snapshot.stages.entries snapshot.stages.nodupKeys a.trends a.historical stageId

theorem add_snapshot_trend (a : MetricsAnalyzer) (snapshot : MetricsSnapshot) (stageId : String) :
    (a.addSnapshot snapshot).getTrend stageId = (a.evicted.computeTrends snapshot).getTrend stageId := rfl

theorem computed_trend (a : MetricsAnalyzer) (snapshot : MetricsSnapshot) (stageId : String) (current : StageMetricsSnapshot)
    (computes : a.evicted.Computes stageId current snapshot) :
    (a.addSnapshot snapshot).getTrend stageId = some (stageTrend (a.evicted.historical stageId) current) := by
  rw [add_snapshot_trend, compute_trends_lookup _ _ _ computes.filled, computes.here]
  exact if_neg computes.compared

theorem uncomputed_trend (a : MetricsAnalyzer) (snapshot : MetricsSnapshot) (stageId : String)
    (short : a.evicted.history.length < a.evicted.rules.trendWindow) :
    (a.addSnapshot snapshot).getTrend stageId = a.getTrend stageId := by
  rw [add_snapshot_trend, MetricsAnalyzer.computeTrends, if_pos short]
  rfl

theorem compute_trends_same (a : MetricsAnalyzer) (snapshot : MetricsSnapshot) :
    (a.computeTrends snapshot).history = a.history ∧ (a.computeTrends snapshot).rules = a.rules ∧
      (a.computeTrends snapshot).maxHistory = a.maxHistory := by
  unfold MetricsAnalyzer.computeTrends
  split
  · exact ⟨rfl, rfl, rfl⟩
  · exact ⟨rfl, rfl, rfl⟩

theorem add_all_snoc (a : MetricsAnalyzer) (before : List MetricsSnapshot) (snapshot : MetricsSnapshot) :
    a.addAll (before ++ [snapshot]) = (a.addAll before).addSnapshot snapshot := by
  rw [MetricsAnalyzer.addAll, List.foldl_append]
  rfl

-- The history holds the newest sixty snapshots.
structure MetricsAnalyzer.Follows (a : MetricsAnalyzer) (rules : AnalysisRules) (before : List MetricsSnapshot) : Prop where
  rules : a.rules = rules
  limit : a.maxHistory = 60
  history : a.history = before.drop (before.length - 60)

theorem add_all_follows (rules : AnalysisRules) (before : List MetricsSnapshot) :
    ((MetricsAnalyzer.new rules).addAll before).Follows rules before := by
  have pushed : ((MetricsAnalyzer.new rules).addAll before).rules = rules ∧
      ((MetricsAnalyzer.new rules).addAll before).maxHistory = 60 ∧
      ((MetricsAnalyzer.new rules).addAll before).history = Window.pushAll 60 [] before := by
    induction before using List.reverseRecOn with
    | nil => exact ⟨rfl, rfl, rfl⟩
    | append_singleton before snapshot ih =>
        obtain ⟨sameRules, limit, history⟩ := ih
        rw [add_all_snoc, Window.push_all_snoc]
        generalize (MetricsAnalyzer.new rules).addAll before = a at sameRules limit history
        obtain ⟨kept, keptRules, keptLimit⟩ := compute_trends_same a.evicted snapshot
        refine ⟨keptRules.trans sameRules, keptLimit.trans limit, ?_⟩
        rw [MetricsAnalyzer.addSnapshot, Window.push, ← history, ← limit]
        exact congrArg (· ++ [snapshot]) kept
  obtain ⟨sameRules, limit, history⟩ := pushed
  exact ⟨sameRules, limit, history.trans (Window.push_all_recent 60 before (by decide))⟩

-- The newest snapshot is compared with at most fifty-nine others.
theorem evicted_history (rules : AnalysisRules) (before : List MetricsSnapshot) :
    ((MetricsAnalyzer.new rules).addAll before).evicted.history = before.drop (before.length - 59) := by
  have follows := add_all_follows rules before
  rw [MetricsAnalyzer.evicted, follows.limit, follows.history]
  exact Window.evict_recent 60 before (by decide)

theorem historical_window (rules : AnalysisRules) (before : List MetricsSnapshot) (stageId : String)
    (within : rules.trendWindow ≤ 59) :
    ((MetricsAnalyzer.new rules).addAll before).evicted.historical stageId =
      (before.drop (before.length - rules.trendWindow)).filterMap fun s => s.stages.lookup stageId := by
  have follows := add_all_follows rules before
  rw [MetricsAnalyzer.historical, evicted_history, List.drop_drop]
  have same : ((MetricsAnalyzer.new rules).addAll before).evicted.rules = rules := follows.rules
  rw [same, List.length_drop]
  congr 2
  omega

theorem never_computed (rules : AnalysisRules) (before : List MetricsSnapshot) (stageId : String) (wide : 60 ≤ rules.trendWindow) :
    ((MetricsAnalyzer.new rules).addAll before).getTrend stageId = none := by
  induction before using List.reverseRecOn with
  | nil => rfl
  | append_singleton before snapshot ih =>
      rw [add_all_snoc, uncomputed_trend _ _ _ _, ih]
      have same : ((MetricsAnalyzer.new rules).addAll before).evicted.rules = rules := (add_all_follows rules before).rules
      rw [same, evicted_history, List.length_drop]
      omega

theorem filter_map_present (snapshots : List MetricsSnapshot) (stageId : String) (values : List StageMetricsSnapshot)
    (present : snapshots.map (fun s => s.stages.lookup stageId) = values.map some) :
    snapshots.filterMap (fun s => s.stages.lookup stageId) = values := by
  have same : snapshots.filterMap (fun s => s.stages.lookup stageId) =
      (snapshots.map fun s => s.stages.lookup stageId).filterMap id := by
    rw [List.filterMap_map]
    rfl
  rw [same, present, List.filterMap_map]
  exact List.filterMap_some

-- The stage has been in every snapshot.
theorem window_values (rules : AnalysisRules) (stageId : String) (before : List MetricsSnapshot)
    (values : List StageMetricsSnapshot) (within : rules.trendWindow ≤ 59)
    (present : before.map (fun s => s.stages.lookup stageId) = values.map some) :
    ((MetricsAnalyzer.new rules).addAll before).evicted.historical stageId =
      values.drop (values.length - rules.trendWindow) := by
  have size := congrArg List.length present
  rw [List.length_map, List.length_map] at size
  rw [historical_window rules before stageId within, ← size]
  apply filter_map_present
  rw [List.map_drop, present, List.map_drop]

theorem window_computes (rules : AnalysisRules) (stageId : String) (before : List MetricsSnapshot) (last : MetricsSnapshot)
    (values : List StageMetricsSnapshot) (current : StageMetricsSnapshot) (positive : 1 ≤ rules.trendWindow)
    (within : rules.trendWindow ≤ 59) (filled : rules.trendWindow ≤ before.length)
    (present : before.map (fun s => s.stages.lookup stageId) = values.map some)
    (here : last.stages.lookup stageId = some current) :
    ((MetricsAnalyzer.new rules).addAll before).evicted.Computes stageId current last := by
  have same : ((MetricsAnalyzer.new rules).addAll before).evicted.rules = rules := (add_all_follows rules before).rules
  have size := congrArg List.length present
  rw [List.length_map, List.length_map] at size
  refine ⟨?_, ?_, here⟩
  · rw [same, evicted_history, List.length_drop]
    omega
  · rw [window_values rules stageId before values within present]
    intro empty
    have none := congrArg List.length empty
    rw [List.length_drop, List.length_nil] at none
    omega

-- The stage is in all snapshots before the last one, with these values, and in
-- the last one.
theorem window_exact_iff (rules : AnalysisRules) (stageId : String) (before : List MetricsSnapshot) (last : MetricsSnapshot)
    (values : List StageMetricsSnapshot) (current : StageMetricsSnapshot) (positive : 1 ≤ rules.trendWindow)
    (within : rules.trendWindow ≤ 60) (more : rules.trendWindow < (before ++ [last]).length)
    (present : before.map (fun s => s.stages.lookup stageId) = values.map some)
    (here : last.stages.lookup stageId = some current) :
    ((MetricsAnalyzer.new rules).addAll (before ++ [last])).getTrend stageId =
        some (stageTrend (values.drop (values.length - rules.trendWindow)) current) ↔
      rules.trendWindow < 60 := by
  constructor
  · intro exact
    refine Nat.lt_of_not_le fun wide => ?_
    cases (never_computed rules (before ++ [last]) stageId wide).symm.trans exact
  · intro narrow
    rw [List.length_append, List.length_singleton] at more
    have computes := window_computes rules stageId before last values current positive (by omega) (by omega) present here
    rw [add_all_snoc, computed_trend _ _ _ current computes, window_values rules stageId before values (by omega) present]

-- One stage with a count, and nothing else.
def counted (processedCount : UInt64) : MetricsSnapshot :=
  ⟨(∅ : AList fun _ : String => StageMetricsSnapshot).insert "parse" ⟨processedCount, 0, 0⟩⟩

theorem window_exact_default :
    ((MetricsAnalyzer.new .default).addAll ([counted 1, counted 2, counted 3, counted 4] ++ [counted 5])).getTrend "parse" =
      some (stageTrend [⟨2, 0, 0⟩, ⟨3, 0, 0⟩, ⟨4, 0, 0⟩] ⟨5, 0, 0⟩) :=
  (window_exact_iff .default "parse" [counted 1, counted 2, counted 3, counted 4] (counted 5)
    [⟨1, 0, 0⟩, ⟨2, 0, 0⟩, ⟨3, 0, 0⟩, ⟨4, 0, 0⟩] ⟨5, 0, 0⟩ (by decide) (by decide) (by decide) rfl rfl).mpr (by decide)

-- A window as wide as the history, and one snapshot more than it takes.
theorem widest_window_never_computed :
    let rules : AnalysisRules := { AnalysisRules.default with trendWindow := 60 }
    let before := List.replicate 60 (counted 1)
    before.map (fun s => s.stages.lookup "parse") = (List.replicate 60 (⟨1, 0, 0⟩ : StageMetricsSnapshot)).map some ∧
      rules.trendWindow < (before ++ [counted 1]).length ∧
      ((MetricsAnalyzer.new rules).addAll (before ++ [counted 1])).getTrend "parse" = none := by
  refine ⟨?_, by decide, never_computed _ _ _ (by decide)⟩
  rw [List.map_replicate, List.map_replicate]
  rfl

end Ners.Tuning

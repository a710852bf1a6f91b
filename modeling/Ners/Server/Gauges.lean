import Ners.Base.Unsigned
import Ners.Server.SlabRuns
import Ners.Server.Slots

set_option autoImplicit false

namespace Ners.Server

open Runs (Reached Run Taken anyStep execute)
open Unsigned

def Action.Quiet (a : Action) : Prop := a ≠ .acceptorGauge ∧ ∀ stage io, a ≠ .process stage io

-- Everything a step can do to the slab and the metrics.
inductive Booked (site : Site) (s s' : System) (a : Action) : Prop where
  | neither (quiet : a.Quiet) (slab : s'.slab = s.slab) (metrics : s'.metrics = s.metrics)
  | raised (action : a = .acceptorGauge) (slab : s'.slab = s.slab) (metrics : s'.metrics = s.metrics.incQueueLen "parse")
  | opened (action : a = .insert) (id : ConnId) (inserted : s.slab.insert (.new s.accepted) = (some id, s'.slab))
      (metrics : s'.metrics = s.metrics.incTotalConns)
  | turned (stage : StageId) (io : Io) (id : ConnId) (action : a = .process stage io) (popped : s.executors stage = .popped id)
      (slab : s'.slab = (processOne site stage io id s.slab s.metrics).slab)
      (metrics : s'.metrics = (processOne site stage io id s.slab s.metrics).metrics)

theorem step_booked (site : Site) (s s' : System) (a : Action) (taken : s.step site a = some s') : Booked site s s' a := by
  cases step_cases site s s' a taken with
  | refused waiting slab idle free inserted => exact .neither ⟨by simp, by simp⟩ (insert_none _ _ _ inserted) rfl
  | issued waiting id slab idle free inserted => exact .opened rfl id inserted rfl
  | gauged waiting pushed => exact .raised rfl rfl rfl
  | unwound stage io id fault popped free next => exact .turned stage io id rfl popped rfl rfl
  | processed stage io id next popped free returned => exact .turned stage io id rfl popped rfl rfl
  | accepted => exact .neither ⟨by simp, by simp⟩ rfl rfl
  | acceptorDied => exact .neither ⟨by simp, by simp⟩ rfl rfl
  | acceptorLost => exact .neither ⟨by simp, by simp⟩ rfl rfl
  | acceptorPushed => exact .neither ⟨by simp, by simp⟩ rfl rfl
  | foundNone => exact .neither ⟨by simp, by simp⟩ rfl rfl
  | popped => exact .neither ⟨by simp, by simp⟩ rfl rfl
  | finished => exact .neither ⟨by simp, by simp⟩ rfl rfl
  | panicked => exact .neither ⟨by simp, by simp⟩ rfl rfl
  | passed => exact .neither ⟨by simp, by simp⟩ rfl rfl
  | unlocked => exact .neither ⟨by simp, by simp⟩ rfl rfl

-- A body counts its connection down exactly where it lets go of it.
structure Served.Tallies (served : Served) (metrics : MetricsCollector) : Prop where
  gone : served.conn = none → served.metrics.totalConns = metrics.totalConns - 1
  kept : served.conn ≠ none → served.metrics.totalConns = metrics.totalConns

theorem tallies_kept (served : Served) (metrics : MetricsCollector) (conn : ConnState) (kept : served.conn = some conn)
    (same : served.metrics.totalConns = metrics.totalConns) : served.Tallies metrics :=
  ⟨fun gone => (Option.some_ne_none conn (kept.symm.trans gone)).elim, fun _ => same⟩

theorem tallies_gone (served : Served) (metrics : MetricsCollector) (gone : served.conn = none)
    (fewer : served.metrics.totalConns = metrics.totalConns - 1) : served.Tallies metrics :=
  ⟨fun _ => fewer, fun kept => absurd gone kept⟩

theorem net_out_tallies (io : Io) (conn : ConnState) (metrics : MetricsCollector) :
    (netOutStageMulti io conn metrics).Tallies metrics := by
  unfold netOutStageMulti
  split
  · split
    · exact tallies_kept _ _ conn rfl rfl
    · simp only
      split
      · exact tallies_gone _ _ rfl rfl
      · exact tallies_kept _ _ _ rfl rfl
    · exact tallies_gone _ _ rfl (update_total_conns _ _ _)
  · exact tallies_kept _ _ conn rfl rfl

theorem parse_tallies (io : Io) (conn : ConnState) (metrics : MetricsCollector) :
    (parseStageMulti io conn metrics).Tallies metrics := by
  unfold parseStageMulti
  dsimp only
  split
  · exact tallies_kept _ _ _ rfl rfl
  · exact tallies_kept _ _ _ rfl rfl
  · exact tallies_kept _ _ _ rfl rfl
  · exact tallies_kept _ _ _ rfl (update_total_conns _ _ _)

-- The gauge of connections is the number of occupied slots.
structure Gauged (slab : ConnSlab) (metrics : MetricsCollector) : Prop where
  inStep : slab.InStep
  word : slab.capacity < 2 ^ 64
  agrees : metrics.totalConns.toNat = slab.activeCount

theorem put_in_step (slab : ConnSlab) (id : ConnId) (old new : ConnState) (found : slab.get id = some old)
    (inStep : slab.InStep) : (slab.put id (some new)).InStep := by
  obtain ⟨whole, sum⟩ := (in_step_iff slab).mp inStep
  refine (in_step_iff _).mpr ⟨put_exact slab id old new found whole, ?_⟩
  have counted := put_occupied slab id (some new) (get_within slab id old found)
  rw [found] at counted
  simp only [Option.isSome_some, if_true] at counted
  rw [← Nat.add_right_cancel counted] at sum
  exact sum

theorem remove_counts (slab : ConnSlab) (id : ConnId) (conn : ConnState) (found : slab.get id = some conn)
    (inStep : slab.InStep) : (slab.remove id).InStep ∧ (slab.remove id).activeCount + 1 = slab.activeCount := by
  have within := get_within slab id conn found
  have after := (remove_in_step slab id inStep).mpr fun _ empty => by cases empty.symm.trans found
  refine ⟨after, ?_⟩
  have bound := after.bound
  have list : (slab.remove id).freeList.length = slab.freeList.length + 1 := by
    rw [ConnSlab.remove, dif_pos within, List.length_cons]
  rw [list, remove_capacity] at bound
  rw [ConnSlab.activeCount, ConnSlab.activeCount, list, remove_capacity]
  omega

theorem insert_counts (slab slab' : ConnSlab) (id : ConnId) (conn : ConnState) (inserted : slab.insert conn = (some id, slab'))
    (inStep : slab.InStep) :
    slab'.InStep ∧ slab'.capacity = slab.capacity ∧ slab'.activeCount = slab.activeCount + 1 ∧ slab'.activeCount ≤ slab'.capacity := by
  have after := (insert_in_step slab conn inStep).1
  rw [inserted] at after
  obtain ⟨free, capacity, _⟩ := insert_some slab slab' conn id inserted
  have bound := inStep.bound
  rw [free, List.length_cons] at bound
  refine ⟨after, capacity, ?_, Nat.sub_le _ _⟩
  rw [ConnSlab.activeCount, ConnSlab.activeCount, capacity, free, List.length_cons]
  omega

-- A slot that was occupied is empty afterwards.
def Vacates (slab slab' : ConnSlab) (id : ConnId) : Prop := slab.get id ≠ none ∧ slab'.get id = none

-- The gauge follows one locked turn: lowered where it is above zero as a slot
-- is vacated, and left alone otherwise.
structure Follows (slab : ConnSlab) (metrics : MetricsCollector) (id : ConnId) (turn : Turn) : Prop where
  gauged : Gauged turn.slab turn.metrics
  lowered : Vacates slab turn.slab id → 0 < metrics.totalConns.toNat ∧ turn.metrics.totalConns = metrics.totalConns - 1
  kept : ¬ Vacates slab turn.slab id → turn.metrics.totalConns = metrics.totalConns

theorem with_conn_follows (stage : StageId) (io : Io) (id : ConnId) (slab : ConnSlab) (metrics : MetricsCollector)
    (body : ConnState → MetricsCollector → Served) (gauged : Gauged slab metrics)
    (tallies : ∀ conn, (body conn metrics).Tallies metrics) :
    Follows slab metrics id (withConn stage io id slab metrics body) := by
  cases found : slab.get id with
  | none =>
      simp only [withConn, found]
      exact ⟨gauged, fun vacated => absurd found vacated.1, fun _ => rfl⟩
  | some conn =>
      obtain ⟨inStep, word, agrees⟩ := gauged
      have within := get_within slab id conn found
      simp only [withConn, found]
      cases left : (body conn metrics).conn with
      | some after =>
          have same := (tallies conn).kept (by simp [left])
          have occupied := put_get_same slab id (some after) within
          refine ⟨⟨put_in_step slab id conn after found inStep, word, ?_⟩, fun vacated => ?_, fun _ => same⟩
          · rw [same]
            exact agrees
          · cases occupied.symm.trans vacated.2
      | none =>
          have fewer := (tallies conn).gone left
          have vacated : Vacates slab (slab.remove id) id := ⟨by simp [found], remove_get_same slab id within⟩
          obtain ⟨after, freed⟩ := remove_counts slab id conn found inStep
          have above : 0 < metrics.totalConns.toNat := by omega
          refine ⟨⟨after, (remove_capacity slab id).symm ▸ word, ?_⟩, fun _ => ⟨above, fewer⟩, fun kept => absurd vacated kept⟩
          rw [fewer, dec_exact _ above]
          simp only
          omega

theorem process_follows (site : Site) (stage : StageId) (io : Io) (id : ConnId) (slab : ConnSlab) (metrics : MetricsCollector)
    (gauged : Gauged slab metrics) : Follows slab metrics id (processOne site stage io id slab metrics) := by
  cases stage with
  | parse => exact with_conn_follows .parse io id slab metrics _ gauged fun conn => parse_tallies io conn metrics
  | route => exact with_conn_follows .route io id slab metrics _ gauged fun conn => tallies_kept _ _ _ rfl rfl
  | app => exact with_conn_follows .app io id slab metrics _ gauged fun conn => tallies_kept _ _ _ rfl rfl
  | encode => exact ⟨gauged, fun vacated => absurd vacated.2 vacated.1, fun _ => rfl⟩
  | netOut => exact with_conn_follows .netOut io id slab metrics _ gauged fun conn => net_out_tallies io conn metrics

-- A stage takes its connection out of the slab.
def System.Closes (site : Site) (s : System) (a : Action) : Prop :=
  ∃ stage io id, a = .process stage io ∧ s.executors stage = .popped id ∧
    Vacates s.slab (processOne site stage io id s.slab s.metrics).slab id

-- A step raises the gauge by one, lowers it by one where it is above zero, or
-- leaves it alone, and lowers it exactly where a connection is closed.
structure CountsExactly (site : Site) (s : System) (a : Action) (s' : System) : Prop where
  lowered : s.Closes site a → 0 < s.metrics.totalConns.toNat ∧ s'.metrics.totalConns = s.metrics.totalConns - 1
  otherwise : ¬ s.Closes site a → s'.metrics.totalConns.toNat = s.metrics.totalConns.toNat ∨
    a = .insert ∧ s'.metrics.totalConns.toNat = s.metrics.totalConns.toNat + 1

theorem step_counts (site : Site) (s s' : System) (a : Action) (gauged : Gauged s.slab s.metrics)
    (taken : s.step site a = some s') : Gauged s'.slab s'.metrics ∧ CountsExactly site s a s' := by
  cases step_booked site s s' a taken with
  | neither quiet slab metrics =>
      rw [slab, metrics]
      refine ⟨gauged, fun ⟨stage, io, _, action, _⟩ => absurd action (quiet.2 stage io), fun _ => .inl ?_⟩
      rw [metrics]
  | raised action slab metrics =>
      have same : s'.metrics.totalConns = s.metrics.totalConns := by
        rw [metrics]
        exact update_total_conns _ _ _
      refine ⟨⟨slab ▸ gauged.inStep, slab ▸ gauged.word, ?_⟩, fun ⟨_, _, _, other, _⟩ => ?_, fun _ => .inl ?_⟩
      · rw [same, slab]
        exact gauged.agrees
      · cases action.symm.trans other
      · rw [same]
  | opened action id inserted metrics =>
      obtain ⟨inStep, capacity, more, bound⟩ := insert_counts s.slab s'.slab id _ inserted gauged.inStep
      have word := gauged.word
      have agrees := gauged.agrees
      have raised : s'.metrics.totalConns.toNat = s.metrics.totalConns.toNat + 1 := by
        rw [metrics]
        exact inc_exact _ (by omega)
      refine ⟨⟨inStep, by omega, by omega⟩, fun ⟨_, _, _, other, _⟩ => ?_, fun _ => .inr ⟨action, raised⟩⟩
      cases action.symm.trans other
  | turned stage io id action popped slab metrics =>
      have follows := process_follows site stage io id s.slab s.metrics gauged
      rw [slab, metrics]
      refine ⟨follows.gauged, ?_, ?_⟩
      · rintro ⟨stage', io', id', other, popped', vacated⟩
        obtain ⟨rfl, rfl⟩ := Action.process.inj (action.symm.trans other)
        obtain rfl := Executor.popped.inj (popped.symm.trans popped')
        rw [metrics]
        exact follows.lowered vacated
      · intro open_
        rw [metrics, follows.kept fun vacated => open_ ⟨stage, io, id, action, popped, vacated⟩]
        exact .inl rfl

theorem run_gauged (site : Site) (config : OrchestratorConfig) (s : System)
    (run : Run (System.step site) anyStep (System.new config) s) : Gauged s.slab s.metrics := by
  refine Runs.run_invariant (fun s => Gauged s.slab s.metrics) _ s run ?_ fun s a s' gauged _ taken =>
    (step_counts site s s' a gauged taken).1
  have none : (ConnSlab.new config.slabCapacity).activeCount = 0 := by
    rw [ConnSlab.activeCount, ConnSlab.new, List.length_range, Nat.sub_self]
  exact ⟨new_in_step config.slabCapacity, config.word, none.symm⟩

-- The free list is never longer than the slab, so that active_count does not wrap.
theorem conn_gauge_exact (site : Site) (config : OrchestratorConfig) (s : System)
    (run : Run (System.step site) anyStep (System.new config) s) :
    s.slab.freeList.length ≤ s.slab.capacity ∧ s.metrics.totalConns.toNat = s.slab.activeCount ∧
      ∀ a s', s.step site a = some s' → CountsExactly site s a s' := by
  have gauged := run_gauged site config s run
  exact ⟨gauged.inStep.bound, gauged.agrees, fun a s' taken => (step_counts site s s' a gauged taken).2⟩

theorem conn_gauge_exact_reused :
    (System.after plainSite smallConfig slotReused).metrics.totalConns = 2 ∧
      (System.after plainSite smallConfig slotReused).metrics.totalConns.toNat =
        (System.after plainSite smallConfig slotReused).slab.activeCount :=
  ⟨by decide, (conn_gauge_exact plainSite smallConfig _ (Runs.executed_run _ _)).2.1⟩

end Ners.Server

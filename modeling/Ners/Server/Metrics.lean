import Ners.Base.Machine
import Mathlib.Data.List.AList

set_option autoImplicit false

namespace Ners.Server

-- Counters are AtomicU64 and wrap.
structure StageMetrics where
  id : String
  processedCount : UInt64
  currentQueueLen : UInt64
  latencySumNs : UInt64
  latencyMaxNs : UInt64
  errors : UInt64
deriving DecidableEq

def StageMetrics.new (id : String) : StageMetrics := ⟨id, 0, 0, 0, 0, 0⟩

def StageMetrics.incQueueLen (stage : StageMetrics) : StageMetrics :=
  { stage with currentQueueLen := stage.currentQueueLen + 1 }

def StageMetrics.decQueueLen (stage : StageMetrics) : StageMetrics :=
  { stage with currentQueueLen := stage.currentQueueLen - 1 }

def StageMetrics.incProcessed (stage : StageMetrics) : StageMetrics :=
  { stage with processedCount := stage.processedCount + 1 }

-- A call that no other call overlaps: the exchange is repeated until it stores.
def StageMetrics.recordLatency (stage : StageMetrics) (latencyNs : UInt64) : StageMetrics :=
  { stage with
    latencySumNs := stage.latencySumNs + latencyNs
    latencyMaxNs := if stage.latencyMaxNs < latencyNs then latencyNs else stage.latencyMaxNs }

def StageMetrics.incErrors (stage : StageMetrics) : StageMetrics := { stage with errors := stage.errors + 1 }

theorem record_latency_max (stage : StageMetrics) (latencyNs : UInt64) :
    (stage.recordLatency latencyNs).latencyMaxNs.toNat = max stage.latencyMaxNs.toNat latencyNs.toNat := by
  rw [StageMetrics.recordLatency]
  split
  · rename_i below
    exact (Nat.max_eq_right (Nat.le_of_lt (UInt64.lt_iff_toNat_lt.mp below))).symm
  · rename_i reached
    exact (Nat.max_eq_left (UInt64.le_iff_toNat_le.mp (UInt64.not_lt.mp reached))).symm

structure MetricsCollector where
  stages : AList fun _ : String => StageMetrics
  totalConns : UInt64
  totalRequests : UInt64

def MetricsCollector.new : MetricsCollector where
  stages := ["net_in", "parse", "route", "app", "encode", "net_out"].foldl (fun stages id => stages.insert id (.new id)) ∅
  totalConns := 0
  totalRequests := 0

def MetricsCollector.update (m : MetricsCollector) (stageId : String) (f : StageMetrics → StageMetrics) : MetricsCollector :=
  match m.stages.lookup stageId with
  | some stage => { m with stages := m.stages.insert stageId (f stage) }
  | none => m

def MetricsCollector.incQueueLen (m : MetricsCollector) (stageId : String) : MetricsCollector := m.update stageId (·.incQueueLen)

def MetricsCollector.decQueueLen (m : MetricsCollector) (stageId : String) : MetricsCollector := m.update stageId (·.decQueueLen)

def MetricsCollector.incErrors (m : MetricsCollector) (stageId : String) : MetricsCollector := m.update stageId (·.incErrors)

def MetricsCollector.incTotalConns (m : MetricsCollector) : MetricsCollector := { m with totalConns := m.totalConns + 1 }

def MetricsCollector.decTotalConns (m : MetricsCollector) : MetricsCollector := { m with totalConns := m.totalConns - 1 }

def MetricsCollector.incTotalRequests (m : MetricsCollector) : MetricsCollector :=
  { m with totalRequests := m.totalRequests + 1 }

-- The gauge of a stage, as a snapshot shows it.
def MetricsCollector.currentQueueLen (m : MetricsCollector) (stageId : String) : Option UInt64 :=
  (m.stages.lookup stageId).map StageMetrics.currentQueueLen

@[simp] theorem update_total_conns (m : MetricsCollector) (stageId : String) (f : StageMetrics → StageMetrics) :
    (m.update stageId f).totalConns = m.totalConns := by
  unfold MetricsCollector.update
  split <;> rfl

theorem update_lookup (m : MetricsCollector) (stageId other : String) (f : StageMetrics → StageMetrics) :
    (m.update stageId f).stages.lookup other =
      if stageId = other then (m.stages.lookup other).map f else m.stages.lookup other := by
  unfold MetricsCollector.update
  by_cases mine : stageId = other
  · subst mine
    rw [if_pos rfl]
    cases found : m.stages.lookup stageId with
    | none => simp only [found, Option.map_none]
    | some stage => simp only [AList.lookup_insert, Option.map_some]
  · rw [if_neg mine]
    cases found : m.stages.lookup stageId with
    | none => rfl
    | some stage => simp only [AList.lookup_insert_ne (Ne.symm mine)]

theorem update_queue_len (m : MetricsCollector) (stageId other : String) (f : StageMetrics → StageMetrics) (g : UInt64 → UInt64)
    (moves : ∀ stage, (f stage).currentQueueLen = g stage.currentQueueLen) :
    (m.update stageId f).currentQueueLen other =
      if stageId = other then (m.currentQueueLen other).map g else m.currentQueueLen other := by
  unfold MetricsCollector.currentQueueLen
  rw [update_lookup]
  split
  · rw [Option.map_map, Option.map_map]
    congr 1
    funext stage
    exact moves stage
  · rfl

theorem inc_queue_len (m : MetricsCollector) (stageId other : String) :
    (m.incQueueLen stageId).currentQueueLen other =
      if stageId = other then (m.currentQueueLen other).map (· + 1) else m.currentQueueLen other :=
  update_queue_len m stageId other _ (· + 1) fun _ => rfl

theorem dec_queue_len (m : MetricsCollector) (stageId other : String) :
    (m.decQueueLen stageId).currentQueueLen other =
      if stageId = other then (m.currentQueueLen other).map (· - 1) else m.currentQueueLen other :=
  update_queue_len m stageId other _ (· - 1) fun _ => rfl

@[simp] theorem inc_errors_queue_len (m : MetricsCollector) (stageId other : String) :
    (m.incErrors stageId).currentQueueLen other = m.currentQueueLen other := by
  refine (update_queue_len m stageId other StageMetrics.incErrors id fun _ => rfl).trans ?_
  rw [Option.map_id_fun, id_eq, ite_self]

end Ners.Server

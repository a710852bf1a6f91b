import Ners.Base.Peak
import Ners.Base.Runs
import Ners.Server.Metrics
import Mathlib.Order.Nat

set_option autoImplicit false

namespace Ners.Server

open Peak (peak peak_append peak_cons peak_nil)
open Runs (Reached execute execute_run reached_invariant run_invariant taken_after)

-- What the clock shows a call, in nanoseconds: Instant::now() reads it once and
-- elapsed() once more.
structure Reads where
  now : Nat
  later : Nat
deriving DecidableEq

def Reads.elapsed (reads : Reads) : Nat := reads.later - reads.now

def MetricsCollector.recordStageStart (_ : MetricsCollector) (_stageId : String) (reads : Reads) : Nat := reads.elapsed

def MetricsCollector.recordStageEnd (m : MetricsCollector) (stageId : String) (startTs : Nat) (reads : Reads) :
    MetricsCollector :=
  let endTs := reads.elapsed
  let latency := UInt64.ofNat (endTs - startTs)
  m.update stageId fun stage => (stage.recordLatency latency).incProcessed

-- A call of record_stage_start whose value no call of record_stage_end has had.
structure Started where
  stageId : String
  startTs : Nat
  reads : Reads
deriving DecidableEq

structure Pair where
  stageId : String
  opened : Reads
  closed : Reads
deriving DecidableEq

def Pair.between (pair : Pair) : Nat := pair.closed.now - pair.opened.later

def Pair.whole (pair : Pair) : Nat := pair.closed.later - pair.opened.now

-- The time within the second call beyond that within the first, as a u64.
def Pair.excess (pair : Pair) : Nat := (pair.closed.elapsed - pair.opened.elapsed) % 2 ^ 64

structure Timing where
  collector : MetricsCollector
  clock : Nat
  running : List Started
  pairs : List Pair

inductive Call where
  | start (stageId : String) (reads : Reads)
  | finish (i : Nat) (reads : Reads)

def Timing.new : Timing := ⟨.new, 0, [], []⟩

-- No read of the clock is before an earlier one.
def Timing.step (t : Timing) : Call → Option Timing
  | .start stageId reads =>
      if t.clock ≤ reads.now ∧ reads.now ≤ reads.later then
        some { t with
          clock := reads.later
          running := t.running ++ [⟨stageId, t.collector.recordStageStart stageId reads, reads⟩] }
      else none
  | .finish i reads =>
      match t.running[i]? with
      | none => none
      | some started =>
          if t.clock ≤ reads.now ∧ reads.now ≤ reads.later then
            some {
              collector := t.collector.recordStageEnd started.stageId started.startTs reads
              clock := reads.later
              running := t.running.eraseIdx i
              pairs := t.pairs ++ [⟨started.stageId, started.reads, reads⟩] }
          else none

def Timing.of (t : Timing) (stageId : String) : List Pair := t.pairs.filter fun pair => pair.stageId = stageId

-- The cells of each stage, for a time that passed in each pair.
def Timing.Shows (t : Timing) (took : Pair → Nat) : Prop :=
  ∀ stageId stage, t.collector.stages.lookup stageId = some stage →
    stage.latencySumNs.toNat = ((t.of stageId).map took).sum ∧
      stage.latencyMaxNs.toNat = peak ((t.of stageId).map took) ∧ stage.processedCount.toNat = (t.of stageId).length

-- There are times, each exact up to the reads within the two calls, that the
-- cells show in every state of the run.
def Measured (calls : List Call) : Prop :=
  ∃ took : Pair → Nat, ∀ before t, Reached Timing.step .new calls before t →
    (∀ pair ∈ t.pairs, pair.between ≤ took pair ∧ took pair ≤ pair.whole) ∧ t.Shows took

def Timing.Within (t : Timing) : Prop :=
  ∀ stageId, (t.collector.stages.lookup stageId).isSome →
    (∀ pair ∈ t.of stageId, pair.between ≤ pair.excess) ∧
      ((t.of stageId).map Pair.excess).sum < 2 ^ 64 ∧ (t.of stageId).length < 2 ^ 64

-- Everything a call can do.
inductive Timed (t t' : Timing) : Prop where
  | started (stageId : String) (reads : Reads) (forward : t.clock ≤ reads.now ∧ reads.now ≤ reads.later)
      (same : t' = { t with clock := reads.later, running := t.running ++ [⟨stageId, reads.elapsed, reads⟩] })
  | finished (i : Nat) (started : Started) (reads : Reads) (waiting : t.running[i]? = some started)
      (forward : t.clock ≤ reads.now ∧ reads.now ≤ reads.later)
      (same : t' = ⟨t.collector.recordStageEnd started.stageId started.startTs reads, reads.later, t.running.eraseIdx i,
        t.pairs ++ [⟨started.stageId, started.reads, reads⟩]⟩)

theorem step_timed (t t' : Timing) (a : Call) (taken : t.step a = some t') : Timed t t' := by
  cases a with
  | start stageId reads =>
      obtain ⟨forward, same⟩ := Option.ite_none_right_eq_some.mp taken
      exact .started stageId reads forward (Option.some.inj same).symm
  | finish i reads =>
      rw [Timing.step] at taken
      split at taken
      · cases taken
      · rename_i started found
        obtain ⟨forward, same⟩ := Option.ite_none_right_eq_some.mp taken
        exact .finished i started reads found forward (Option.some.inj same).symm

-- What the cells hold whatever the clock shows.
structure Timing.Kept (t : Timing) : Prop where
  running : ∀ started ∈ t.running, started.startTs = started.reads.elapsed ∧ started.reads.now ≤ started.reads.later ∧
    started.reads.later ≤ t.clock
  ordered : ∀ pair ∈ t.pairs, pair.opened.now ≤ pair.opened.later ∧ pair.opened.later ≤ pair.closed.now ∧
    pair.closed.now ≤ pair.closed.later
  cells : ∀ stageId stage, t.collector.stages.lookup stageId = some stage →
    stage.latencySumNs.toNat = ((t.of stageId).map Pair.excess).sum % 2 ^ 64 ∧
      stage.latencyMaxNs.toNat = peak ((t.of stageId).map Pair.excess) ∧
      stage.processedCount.toNat = (t.of stageId).length % 2 ^ 64

theorem record_lookup (m : MetricsCollector) (stageId other : String) (startTs : Nat) (reads : Reads) :
    (m.recordStageEnd stageId startTs reads).stages.lookup other =
      if stageId = other then
        (m.stages.lookup other).map fun stage => (stage.recordLatency (UInt64.ofNat (reads.elapsed - startTs))).incProcessed
      else m.stages.lookup other :=
  update_lookup m stageId other _

theorem of_snoc (t : Timing) (m : MetricsCollector) (clock : Nat) (running : List Started) (pair : Pair) (stageId : String) :
    Timing.of ⟨m, clock, running, t.pairs ++ [pair]⟩ stageId =
      if pair.stageId = stageId then t.of stageId ++ [pair] else t.of stageId := by
  unfold Timing.of
  rw [List.filter_append]
  split
  · rename_i mine
    simp [mine]
  · rename_i other
    simp [other]

theorem kept_timed (t t' : Timing) (kept : t.Kept) (timed : Timed t t') : t'.Kept := by
  obtain ⟨running, ordered, cells⟩ := kept
  cases timed with
  | started stageId reads forward same =>
      subst same
      refine ⟨fun started member => ?_, ordered, cells⟩
      rcases List.mem_append.mp member with before | last
      · obtain ⟨value, inner, past⟩ := running started before
        exact ⟨value, inner, past.trans (forward.1.trans forward.2)⟩
      · obtain rfl := List.mem_singleton.mp last
        exact ⟨rfl, forward.2, le_refl _⟩
  | finished i started reads waiting forward same =>
      subst same
      obtain ⟨value, inner, past⟩ := running started (List.mem_of_getElem? waiting)
      refine ⟨fun other member => ?_, fun pair member => ?_, fun stageId stage found => ?_⟩
      · obtain ⟨value, inner, past⟩ := running other (List.mem_of_mem_eraseIdx member)
        exact ⟨value, inner, past.trans (forward.1.trans forward.2)⟩
      · rcases List.mem_append.mp member with before | last
        · exact ordered pair before
        · obtain rfl := List.mem_singleton.mp last
          exact ⟨inner, past.trans forward.1, forward.2⟩
      · rw [of_snoc]
        rw [record_lookup] at found
        split at found
        · rename_i mine
          rw [if_pos mine]
          obtain ⟨earlier, there, rfl⟩ := Option.map_eq_some_iff.mp found
          obtain ⟨sum, greatest, count⟩ := cells stageId earlier there
          have latency : (UInt64.ofNat (reads.elapsed - started.startTs)).toNat =
              Pair.excess ⟨started.stageId, started.reads, reads⟩ := by
            rw [UInt64.toNat_ofNat', value]
            rfl
          refine ⟨?_, ?_, ?_⟩
          · change (earlier.latencySumNs + UInt64.ofNat (reads.elapsed - started.startTs)).toNat = _
            rw [UInt64.toNat_add, sum, latency, List.map_append, List.sum_append, List.map_singleton, List.sum_singleton,
              Nat.mod_add_mod]
          · refine (record_latency_max earlier _).trans ?_
            rw [greatest, latency, List.map_append, peak_append, List.map_singleton, peak_cons, peak_nil,
              max_eq_left bot_le]
          · change (earlier.processedCount + 1).toNat = _
            rw [UInt64.toNat_add, count, List.length_append, List.length_singleton]
            exact Nat.mod_add_mod _ _ _
        · rename_i other
          rw [if_neg other]
          exact cells stageId stage found

theorem registered_new (ids : List String) (stages : AList fun _ : String => StageMetrics)
    (fresh : ∀ id stage, stages.lookup id = some stage → stage = .new id) (id : String) (stage : StageMetrics)
    (found : (ids.foldl (fun stages id => stages.insert id (.new id)) stages).lookup id = some stage) : stage = .new id := by
  induction ids generalizing stages with
  | nil => exact fresh id stage found
  | cons first later ih =>
      refine ih (stages.insert first (.new first)) (fun other stage found => ?_) found
      by_cases mine : other = first
      · subst mine
        rw [AList.lookup_insert] at found
        exact (Option.some.inj found).symm
      · rw [AList.lookup_insert_ne mine] at found
        exact fresh other stage found

theorem new_kept : Timing.new.Kept := by
  refine ⟨?_, ?_, fun stageId stage found => ?_⟩
  · intro started member
    cases member
  · intro pair member
    cases member
  · obtain rfl := registered_new _ ∅ (fun _ _ found => by cases found) stageId stage found
    exact ⟨rfl, rfl, rfl⟩

theorem reached_kept (calls before : List Call) (t : Timing) (there : Reached Timing.step .new calls before t) : t.Kept :=
  run_invariant Timing.Kept _ t (execute_run .new .new t before .start there.reached) new_kept
    fun t a t' kept _ taken => kept_timed t t' kept (step_timed t t' a taken)

-- The times that the cells show are those that the calls record.
def Timing.Agrees (t : Timing) (took : Pair → Nat) : Prop :=
  ∀ stageId, (t.collector.stages.lookup stageId).isSome →
    (∀ pair ∈ t.of stageId, took pair = pair.excess) ∧
      ((t.of stageId).map Pair.excess).sum < 2 ^ 64 ∧ (t.of stageId).length < 2 ^ 64

theorem excess_word (pair : Pair) : pair.excess < 2 ^ 64 := Nat.mod_lt _ (Nat.two_pow_pos 64)

theorem agrees_timed (t t' : Timing) (took : Pair → Nat) (agrees : t.Agrees took) (kept : t'.Kept) (shown : t'.Shows took)
    (timed : Timed t t') : t'.Agrees took := by
  cases timed with
  | started stageId reads forward same =>
      subst same
      exact agrees
  | finished i started reads waiting forward same =>
      subst same
      intro stageId registered
      obtain ⟨stage, found⟩ := Option.isSome_iff_exists.mp registered
      obtain ⟨sum, _, count⟩ := kept.cells stageId stage found
      obtain ⟨total, _, number⟩ := shown stageId stage found
      rw [of_snoc] at sum count total number ⊢
      rw [record_lookup] at registered
      by_cases mine : started.stageId = stageId
      · rw [if_pos mine, Option.isSome_map] at registered
        rw [if_pos mine] at sum count total number ⊢
        obtain ⟨same, room, short⟩ := agrees stageId registered
        rw [List.map_append, List.sum_append, List.map_singleton, List.sum_singleton] at sum total ⊢
        rw [List.length_append, List.length_singleton] at count number ⊢
        rw [List.map_congr_left same] at total
        -- A sum that wraps falls below what it was, and no time that passed
        -- takes it there.
        have word := excess_word ⟨started.stageId, started.reads, reads⟩
        have exactly : took ⟨started.stageId, started.reads, reads⟩ = Pair.excess ⟨started.stageId, started.reads, reads⟩ := by
          omega
        refine ⟨fun pair member => ?_, by omega, by omega⟩
        rcases List.mem_append.mp member with before | last
        · exact same pair before
        · obtain rfl := List.mem_singleton.mp last
          exact exactly
      · rw [if_neg mine] at registered ⊢
        exact agrees stageId registered

theorem new_agrees (took : Pair → Nat) : Timing.new.Agrees took := by
  intro stageId _
  refine ⟨fun pair member => ?_, Nat.two_pow_pos 64, Nat.two_pow_pos 64⟩
  cases member

theorem shown_agrees (calls : List Call) (took : Pair → Nat)
    (shown : ∀ before t, Reached Timing.step .new calls before t → t.Shows took) (before : List Call) (t : Timing)
    (there : Reached Timing.step .new calls before t) : t.Agrees took := by
  refine reached_invariant (fun _ t => t.Agrees took) (fun _ _ _ t' => t'.Kept ∧ t'.Shows took) .new calls (new_agrees took)
    (fun _ a t t' agrees taken both => ?_) (fun earlier a t t' taken => ?_) before t there
  · exact agrees_timed t t' took agrees both.1 both.2 (step_timed t t' a taken.taken)
  · have after := taken_after _ _ _ _ _ _ taken
    exact ⟨reached_kept calls _ t' after, shown _ t' after⟩

theorem agreed_shows (t : Timing) (took : Pair → Nat) (kept : t.Kept) (agrees : t.Agrees took) : t.Shows took := by
  intro stageId stage found
  obtain ⟨same, room, short⟩ := agrees stageId (by rw [found]; rfl)
  obtain ⟨sum, greatest, count⟩ := kept.cells stageId stage found
  rw [List.map_congr_left same]
  exact ⟨sum.trans (Nat.mod_eq_of_lt room), greatest, count.trans (Nat.mod_eq_of_lt short)⟩

theorem excess_whole (pair : Pair) (opened : pair.opened.now ≤ pair.opened.later) (apart : pair.opened.later ≤ pair.closed.now) :
    pair.excess ≤ pair.whole := by
  refine (Nat.mod_le _ _).trans ?_
  unfold Pair.whole Reads.elapsed
  omega

theorem measured_iff (calls : List Call) :
    Measured calls ↔ ∀ before t, Reached Timing.step .new calls before t → t.Within := by
  constructor
  · rintro ⟨took, every⟩ before t there stageId registered
    obtain ⟨same, room, short⟩ := shown_agrees calls took (fun before t there => (every before t there).2) before t there
      stageId registered
    refine ⟨fun pair member => ?_, room, short⟩
    rw [← same pair member]
    exact ((every before t there).1 pair (List.mem_of_mem_filter member)).1
  · intro within
    refine ⟨fun pair => max pair.between pair.excess, fun before t there => ?_⟩
    have kept := reached_kept calls before t there
    refine ⟨fun pair member => ⟨le_max_left _ _, ?_⟩, agreed_shows t _ kept fun stageId registered => ?_⟩
    · obtain ⟨opened, apart, closed⟩ := kept.ordered pair member
      refine max_le ?_ (excess_whole pair opened apart)
      unfold Pair.between Pair.whole
      omega
    · obtain ⟨covered, room, short⟩ := within before t there stageId registered
      exact ⟨fun pair member => max_eq_right (covered pair member), room, short⟩

def slowStage : List Call := [.start "app" ⟨0, 1⟩, .finish 0 ⟨1000, 1001⟩]

theorem slow_stage_not_measured : ¬ Measured slowStage := by
  rintro ⟨took, every⟩
  obtain ⟨t, stage, executed, pairs, found, recorded⟩ : ∃ t stage, execute Timing.step .new slowStage = some t ∧
      t.pairs = [⟨"app", ⟨0, 1⟩, ⟨1000, 1001⟩⟩] ∧ t.collector.stages.lookup "app" = some stage ∧ stage.latencySumNs = 0 :=
    ⟨_, _, rfl, rfl, rfl, rfl⟩
  obtain ⟨bounds, shown⟩ := every slowStage t ⟨List.prefix_refl _, executed⟩
  obtain ⟨total, _, _⟩ := shown "app" stage found
  have passed : Pair.between ⟨"app", ⟨0, 1⟩, ⟨1000, 1001⟩⟩ ≤ took ⟨"app", ⟨0, 1⟩, ⟨1000, 1001⟩⟩ :=
    (bounds _ (pairs ▸ List.mem_singleton_self _)).1
  rw [recorded, Timing.of, pairs] at total
  simp [Pair.between] at total passed
  omega

end Ners.Server

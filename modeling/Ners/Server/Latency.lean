import Ners.Base.Peak
import Ners.Base.Runs
import Ners.Base.Unsigned
import Ners.Server.Metrics
import Mathlib.Order.Nat

set_option autoImplicit false

namespace Ners.Server

open Peak (le_peak peak peak_append peak_cons peak_reached)
open Runs (Run anyStep execute executed_run)

-- Where a call of record_latency stands: in front of its fetch_add, in front of
-- its load, in front of an exchange with what it last saw, or returned.
inductive Progress where
  | started
  | added
  | comparing (currentMax : UInt64)
  | finished
deriving DecidableEq

structure LatencyCall where
  latencyNs : UInt64
  progress : Progress
deriving DecidableEq

-- The cells of a stage and all calls so far.
structure Recording where
  stage : StageMetrics
  calls : List LatencyCall
deriving DecidableEq

inductive CellStep where
  | call (latencyNs : UInt64)
  | fetchAdd (i : Nat)
  | load (i : Nat)
  | exchange (i : Nat) (spurious : Bool)
deriving DecidableEq

-- while latency_ns > current_max
def lookedAt (latencyNs currentMax : UInt64) : Progress :=
  if currentMax < latencyNs then .comparing currentMax else .finished

def Recording.proceed (r : Recording) (i : Nat) (latencyNs : UInt64) (progress : Progress) : Recording :=
  { r with calls := r.calls.set i ⟨latencyNs, progress⟩ }

-- compare_exchange_weak may fail although the cell holds what is expected; it
-- then returns what the cell holds as well.
def Recording.step (r : Recording) : CellStep → Option Recording
  | .call latencyNs => some { r with calls := r.calls ++ [⟨latencyNs, .started⟩] }
  | .fetchAdd i =>
      match r.calls[i]? with
      | some ⟨latencyNs, .started⟩ =>
          some ({ r with stage := { r.stage with latencySumNs := r.stage.latencySumNs + latencyNs } }.proceed i latencyNs .added)
      | _ => none
  | .load i =>
      match r.calls[i]? with
      | some ⟨latencyNs, .added⟩ => some (r.proceed i latencyNs (lookedAt latencyNs r.stage.latencyMaxNs))
      | _ => none
  | .exchange i spurious =>
      match r.calls[i]? with
      | some ⟨latencyNs, .comparing currentMax⟩ =>
          if r.stage.latencyMaxNs = currentMax ∧ spurious = false then
            some ({ r with stage := { r.stage with latencyMaxNs := latencyNs } }.proceed i latencyNs .finished)
          else some (r.proceed i latencyNs (lookedAt latencyNs r.stage.latencyMaxNs))
      | _ => none

def LatencyCall.sum (call : LatencyCall) : UInt64 := if call.progress = .started then 0 else call.latencyNs

def LatencyCall.done (call : LatencyCall) : Option Nat :=
  if call.progress = .finished then some call.latencyNs.toNat else none

-- The cells hold what the calls have added to the start: each its latency once
-- it is past its fetch_add, and the greatest of those that have returned.
structure Recording.Exact (start : StageMetrics) (r : Recording) : Prop where
  stage : r.stage = { start with latencySumNs := r.stage.latencySumNs, latencyMaxNs := r.stage.latencyMaxNs }
  total : r.stage.latencySumNs = start.latencySumNs + (r.calls.map LatencyCall.sum).sum
  greatest : r.stage.latencyMaxNs.toNat = max start.latencyMaxNs.toNat (peak (r.calls.filterMap LatencyCall.done))
  ahead : ∀ call ∈ r.calls, ∀ currentMax, call.progress = .comparing currentMax → currentMax < call.latencyNs

theorem set_split {α : Type} (xs : List α) (i : Nat) (x : α) (there : xs[i]? = some x) :
    ∃ front back, xs = front ++ x :: back ∧ ∀ y, xs.set i y = front ++ y :: back := by
  obtain ⟨within, same⟩ := List.getElem?_eq_some_iff.mp there
  refine ⟨xs.take i, xs.drop (i + 1), ?_, fun y => List.set_eq_take_append_cons_drop .. |>.trans (if_pos within)⟩
  rw [← same, List.cons_getElem_drop_succ, List.take_append_drop]

-- Everything a step can do.
inductive Advanced (r r' : Recording) : Prop where
  | called (latencyNs : UInt64) (calls : r'.calls = r.calls ++ [⟨latencyNs, .started⟩]) (stage : r'.stage = r.stage)
  | added (front back : List LatencyCall) (latencyNs : UInt64) (before : r.calls = front ++ ⟨latencyNs, .started⟩ :: back)
      (after : r'.calls = front ++ ⟨latencyNs, .added⟩ :: back)
      (stage : r'.stage = { r.stage with latencySumNs := r.stage.latencySumNs + latencyNs })
  | looked (front back : List LatencyCall) (latencyNs : UInt64) (progress : Progress)
      (before : r.calls = front ++ ⟨latencyNs, progress⟩ :: back) (running : progress ≠ .started ∧ progress ≠ .finished)
      (after : r'.calls = front ++ ⟨latencyNs, lookedAt latencyNs r.stage.latencyMaxNs⟩ :: back) (stage : r'.stage = r.stage)
  | raised (front back : List LatencyCall) (latencyNs : UInt64)
      (before : r.calls = front ++ ⟨latencyNs, .comparing r.stage.latencyMaxNs⟩ :: back)
      (after : r'.calls = front ++ ⟨latencyNs, .finished⟩ :: back)
      (stage : r'.stage = { r.stage with latencyMaxNs := latencyNs })

theorem step_advanced (r r' : Recording) (a : CellStep) (taken : r.step a = some r') : Advanced r r' := by
  cases a with
  | call latencyNs =>
      obtain rfl := Option.some.inj taken
      exact .called latencyNs rfl rfl
  | fetchAdd i =>
      simp only [Recording.step] at taken
      split at taken
      · rename_i latencyNs there
        obtain ⟨front, back, before, after⟩ := set_split _ i _ there
        obtain rfl := Option.some.inj taken
        exact .added front back latencyNs before (after _) rfl
      · cases taken
  | load i =>
      simp only [Recording.step] at taken
      split at taken
      · rename_i latencyNs there
        obtain ⟨front, back, before, after⟩ := set_split _ i _ there
        obtain rfl := Option.some.inj taken
        exact .looked front back latencyNs .added before ⟨by simp, by simp⟩ (after _) rfl
      · cases taken
  | exchange i spurious =>
      simp only [Recording.step] at taken
      split at taken
      · rename_i latencyNs currentMax there
        obtain ⟨front, back, before, after⟩ := set_split _ i _ there
        split at taken
        · rename_i stores
          obtain rfl := stores.1
          obtain rfl := Option.some.inj taken
          exact .raised front back latencyNs before (after _) rfl
        · obtain rfl := Option.some.inj taken
          exact .looked front back latencyNs (.comparing currentMax) before ⟨by simp, by simp⟩ (after _) rfl
      · cases taken

theorem looked_at_ahead (latencyNs seen currentMax : UInt64) (comparing : lookedAt latencyNs seen = .comparing currentMax) :
    currentMax < latencyNs := by
  unfold lookedAt at comparing
  split at comparing
  · rename_i below
    cases comparing
    exact below
  · cases comparing

theorem looked_at_done (latencyNs seen : UInt64) :
    lookedAt latencyNs seen ≠ .started ∧
      (lookedAt latencyNs seen = .finished → latencyNs.toNat ≤ seen.toNat) := by
  unfold lookedAt
  split
  · exact ⟨by simp, by simp⟩
  · rename_i reached
    exact ⟨by simp, fun _ => UInt64.le_iff_toNat_le.mp (UInt64.not_lt.mp reached)⟩

-- One call at a place in the list is replaced by what it has become.
theorem ahead_replaced (front back : List LatencyCall) (old new : LatencyCall)
    (ahead : ∀ call ∈ front ++ old :: back, ∀ currentMax, call.progress = .comparing currentMax → currentMax < call.latencyNs)
    (here : ∀ currentMax, new.progress = .comparing currentMax → currentMax < new.latencyNs) :
    ∀ call ∈ front ++ new :: back, ∀ currentMax, call.progress = .comparing currentMax → currentMax < call.latencyNs := by
  intro call member
  rcases List.mem_append.mp member with inFront | rest
  · exact ahead call (List.mem_append_left _ inFront)
  · rcases List.mem_cons.mp rest with rfl | behind
    · exact here
    · exact ahead call (List.mem_append_right _ (List.mem_cons_of_mem _ behind))

theorem done_split (front back : List LatencyCall) (call : LatencyCall) :
    peak ((front ++ call :: back).filterMap LatencyCall.done) =
      max (peak (front.filterMap LatencyCall.done))
        (max (call.done.getD 0) (peak (back.filterMap LatencyCall.done))) := by
  rw [List.filterMap_append, peak_append]
  congr 1
  cases done : call.done with
  | none => rw [List.filterMap_cons_none done, Option.getD_none, Nat.zero_max]
  | some latency => rw [List.filterMap_cons_some done, peak_cons, Option.getD_some]

theorem advanced_exact (start : StageMetrics) (r r' : Recording) (exact : r.Exact start) (advanced : Advanced r r') :
    r'.Exact start := by
  obtain ⟨stage, total, greatest, ahead⟩ := exact
  cases advanced with
  | called latencyNs calls same =>
      rw [← same] at stage total greatest
      refine ⟨stage, ?_, ?_, ?_⟩
      · rw [total, calls]
        simp [LatencyCall.sum]
      · rw [greatest, calls]
        simp [LatencyCall.done]
      · rw [calls]
        intro call member currentMax comparing
        rcases List.mem_append.mp member with old | new
        · exact ahead call old currentMax comparing
        · obtain rfl := List.mem_singleton.mp new
          cases comparing
  | added front back latencyNs before after same =>
      rw [before] at total greatest ahead
      refine ⟨?_, ?_, ?_, ?_⟩
      · rw [same]
        rw [stage]
      · rw [same, after]
        simp only [total]
        simp [LatencyCall.sum]
        ac_rfl
      · rw [same, after, greatest]
        simp [LatencyCall.done]
      · rw [after]
        exact ahead_replaced front back _ _ ahead fun _ comparing => by cases comparing
  | looked front back latencyNs progress before running after same =>
      rw [← same] at stage
      rw [before] at total greatest ahead
      obtain ⟨counted, done⟩ := looked_at_done latencyNs r.stage.latencyMaxNs
      refine ⟨stage, ?_, ?_, ?_⟩
      · rw [same, after, total]
        simp [LatencyCall.sum, running.1, counted]
      · have old : (LatencyCall.done ⟨latencyNs, progress⟩).getD 0 = 0 := by rw [LatencyCall.done, if_neg running.2, Option.getD_none]
        have new : (LatencyCall.done ⟨latencyNs, lookedAt latencyNs r.stage.latencyMaxNs⟩).getD 0 ≤ r.stage.latencyMaxNs.toNat := by
          rw [LatencyCall.done]
          split
          · rename_i finished
            exact done finished
          · exact Nat.zero_le _
        rw [done_split, old] at greatest
        rw [same, after, done_split]
        omega
      · rw [after]
        exact ahead_replaced front back _ _ ahead fun _ comparing => looked_at_ahead _ _ _ comparing
  | raised front back latencyNs before after same =>
      rw [before] at total greatest ahead
      refine ⟨?_, ?_, ?_, ?_⟩
      · rw [same]
        rw [stage]
      · rw [same, after]
        simp only [total]
        simp [LatencyCall.sum]
      · have below := UInt64.lt_iff_toNat_lt.mp (ahead _ (List.mem_append_right _ List.mem_cons_self) _ rfl)
        rw [done_split] at greatest
        rw [same, after, done_split, LatencyCall.done, if_pos rfl, Option.getD_some]
        dsimp only at below ⊢
        omega
      · rw [after]
        exact ahead_replaced front back _ _ ahead fun _ comparing => by cases comparing

def Recording.new (stage : StageMetrics) : Recording := ⟨stage, []⟩

theorem run_exact (start : StageMetrics) (r : Recording) (run : Run Recording.step anyStep (.new start) r) : r.Exact start := by
  refine Runs.run_invariant (Recording.Exact start) _ r run ?_ fun r a r' exact _ taken =>
    advanced_exact start r r' exact (step_advanced r r' a taken)
  refine ⟨rfl, (add_zero _).symm, (max_eq_left (Nat.zero_le _)).symm, fun call member => ?_⟩
  cases member

theorem advanced_rises (start : StageMetrics) (r r' : Recording) (exact : r.Exact start) (advanced : Advanced r r') :
    r.stage.latencyMaxNs ≤ r'.stage.latencyMaxNs := by
  rw [UInt64.le_iff_toNat_le]
  cases advanced with
  | called _ _ same => rw [same]
  | added _ _ _ _ _ same => rw [same]
  | looked _ _ _ _ _ _ _ same => rw [same]
  | raised front back latencyNs before after same =>
      have below := exact.ahead _ (before ▸ List.mem_append_right _ List.mem_cons_self) _ rfl
      rw [same]
      exact Nat.le_of_lt (UInt64.lt_iff_toNat_lt.mp below)

-- The stage that a lone call leaves.
theorem lone_call_records (start : StageMetrics) (latencyNs : UInt64) (r : Recording)
    (run : Run Recording.step anyStep (.new start) r) (lone : r.calls = [⟨latencyNs, .finished⟩]) :
    r.stage = start.recordLatency latencyNs := by
  obtain ⟨stage, total, greatest, _⟩ := run_exact start r run
  rw [lone] at total greatest
  have sum : r.stage.latencySumNs = start.latencySumNs + latencyNs := by
    rw [total]
    simp [LatencyCall.sum]
  have max : r.stage.latencyMaxNs = (start.recordLatency latencyNs).latencyMaxNs := by
    apply UInt64.toNat_inj.mp
    rw [record_latency_max, greatest]
    simp [LatencyCall.done]
  rw [stage, sum, max]
  rfl

theorem finished_done (calls : List LatencyCall) (quiet : ∀ call ∈ calls, call.progress = .finished) :
    calls.filterMap LatencyCall.done = calls.map (·.latencyNs.toNat) ∧
      calls.map LatencyCall.sum = calls.map (·.latencyNs) := by
  constructor
  · rw [← List.filterMap_eq_map]
    exact List.filterMap_congr fun call member => if_pos (quiet call member)
  · refine List.map_congr_left fun call member => if_neg ?_
    rw [quiet call member]
    simp

theorem latency_max_exact (id : String) (r : Recording) (run : Run Recording.step anyStep (.new (.new id)) r) :
    (r.stage.latencyMaxNs = 0 ∨ ∃ call ∈ r.calls, call.latencyNs = r.stage.latencyMaxNs) ∧
      (∀ a r', r.step a = some r' → r.stage.latencyMaxNs ≤ r'.stage.latencyMaxNs) ∧
      (∀ call ∈ r.calls, call.progress = .finished → call.latencyNs ≤ r.stage.latencyMaxNs) ∧
      ((∀ call ∈ r.calls, call.progress = .finished) →
        r.stage.latencyMaxNs.toNat = peak (r.calls.map (·.latencyNs.toNat)) ∧
          r.stage.latencySumNs.toNat = (r.calls.map (·.latencyNs.toNat)).sum % 2 ^ 64) := by
  have exact := run_exact (.new id) r run
  have greatest : r.stage.latencyMaxNs.toNat = peak (r.calls.filterMap LatencyCall.done) :=
    exact.greatest.trans (max_eq_right (Nat.zero_le _))
  refine ⟨?_, fun a r' taken => advanced_rises _ r r' exact (step_advanced r r' a taken), fun call member finished => ?_,
    fun quiet => ?_⟩
  · rcases peak_reached (r.calls.filterMap LatencyCall.done) with none | reached
    · exact .inl (UInt64.toNat_inj.mp (greatest.trans none))
    · obtain ⟨call, member, done⟩ := List.mem_filterMap.mp reached
      unfold LatencyCall.done at done
      split at done
      · exact .inr ⟨call, member, UInt64.toNat_inj.mp ((Option.some.inj done).trans greatest.symm)⟩
      · cases done
  · rw [UInt64.le_iff_toNat_le, greatest]
    exact le_peak _ _ (List.mem_filterMap.mpr ⟨call, member, if_pos finished⟩)
  · obtain ⟨done, sums⟩ := finished_done r.calls quiet
    refine ⟨by rw [greatest, done], ?_⟩
    have total : r.stage.latencySumNs = (r.calls.map LatencyCall.sum).sum := exact.total.trans (zero_add _)
    rw [total, sums, Unsigned.sum_low, List.map_map]
    rfl

-- The second call stores between the load of the first and its exchange, which
-- then fails once more for no reason.
def overtaken : List CellStep :=
  [.call 20, .call 30, .fetchAdd 0, .load 0, .fetchAdd 1, .load 1, .exchange 1 true, .exchange 1 false, .exchange 0 false]

def Recording.after (id : String) (actions : List CellStep) : Recording :=
  (execute Recording.step (Recording.new (StageMetrics.new id)) actions).getD (Recording.new (StageMetrics.new id))

theorem latency_max_exact_overtaken :
    (Recording.after "app" overtaken).stage.latencyMaxNs.toNat = peak ([20, 30] : List Nat) :=
  ((latency_max_exact "app" _ (executed_run (Recording.new (StageMetrics.new "app")) overtaken)).2.2.2 (by decide)).1

end Ners.Server

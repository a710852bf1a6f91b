import Ners.Base.Ranking
import Ners.Server.Slots

set_option autoImplicit false

namespace Ners.Server

open Function (update)
open Runs (Run anyStep execute)

-- Where a thread is in run_loop: at the test of its flag, in a batch with the
-- turns that are left of a hundred and the items processed, behind the batch,
-- or out of the loop.
inductive Control where
  | checking (idleCount : UInt32)
  | working (left processed : Nat) (idleCount : UInt32)
  | resting (processed : Nat) (idleCount : UInt32)
  | stopped
deriving DecidableEq

-- The executors of an orchestrator, each with the flag that asks it to stop.
structure Threads where
  system : System
  controls : StageId → Control
  flags : StageId → Bool

def Threads.new (config : OrchestratorConfig) : Threads := ⟨.new config, fun _ => .checking 0, fun _ => false⟩

inductive ThreadAction where
  | main (action : Action)
  | shutdown (stage : StageId)
  | check (stage : StageId)
  | pop (stage : StageId)
  | process (stage : StageId) (io : Io)
  | push (stage : StageId)
  | unlock (stage : StageId)
  | rest (stage : StageId)
deriving DecidableEq

def ThreadAction.stage : ThreadAction → Option StageId
  | .main _ | .shutdown _ => none
  | .check stage | .pop stage | .process stage _ | .push stage | .unlock stage | .rest stage => some stage

def Action.ofMain : Action → Bool
  | .accept _ | .insert | .acceptorPush | .acceptorGauge => true
  | .pop _ | .process _ _ | .push _ | .unlock _ => false

-- The adaptive sleep decides nothing else.
def restedCount (processed : Nat) (idleCount : UInt32) : UInt32 := if processed = 0 then idleCount + 1 else 0

def Threads.turn (site : Site) (t : Threads) (stage : StageId) (action : Action) (after : Executor → Control) : Option Threads :=
  (t.system.step site action).map fun s => { t with system := s, controls := update t.controls stage (after (s.executors stage)) }

def Threads.step (site : Site) (t : Threads) : ThreadAction → Option Threads
  | .main action => if action.ofMain then (t.system.step site action).map fun s => { t with system := s } else none
  | .shutdown stage => some { t with flags := update t.flags stage true }
  | .check stage =>
      match t.controls stage with
      | .checking idleCount =>
          some { t with controls := update t.controls stage (if t.flags stage then .stopped else .working 100 0 idleCount) }
      | _ => none
  | .pop stage =>
      match t.controls stage with
      | .working (left + 1) processed idleCount =>
          t.turn site stage (.pop stage) fun executor =>
            if executor = .idle then .resting processed idleCount else .working left processed idleCount
      | _ => none
  | .process stage io =>
      match t.controls stage with
      | .working left processed idleCount => t.turn site stage (.process stage io) fun _ => .working left processed idleCount
      | _ => none
  | .push stage =>
      match t.controls stage with
      | .working left processed idleCount => t.turn site stage (.push stage) fun _ => .working left processed idleCount
      | _ => none
  | .unlock stage =>
      match t.controls stage with
      | .working left processed idleCount => t.turn site stage (.unlock stage) fun _ => .working left (processed + 1) idleCount
      | _ => none
  | .rest stage =>
      match t.controls stage, t.system.executors stage with
      | .working 0 processed idleCount, .idle | .resting processed idleCount, _ =>
          some { t with controls := update t.controls stage (.checking (restedCount processed idleCount)) }
      | _, _ => none

def Action.thread : Action → Option StageId
  | .pop stage | .process stage _ | .push stage | .unlock stage => some stage
  | _ => none

theorem of_main_thread (a : Action) : a.ofMain = true ↔ a.thread = none := by cases a <;> simp [Action.ofMain, Action.thread]

theorem executors_elsewhere (site : Site) (s s' : System) (a : Action) (stage : StageId) (other : a.thread ≠ some stage)
    (taken : s.step site a = some s') : s'.executors stage = s.executors stage := by
  have differ (executor : Executor) (acting : StageId) (same : a.thread = some acting) :
      update s.executors acting executor stage = s.executors stage :=
    Function.update_of_ne (fun equal => other (same.trans (congrArg some equal.symm))) _ _
  cases step_cases site s s' a taken with
  | accepted | refused | issued | acceptorDied | acceptorLost | acceptorPushed | gauged | foundNone => rfl
  | popped acting | unwound acting | processed acting | finished acting | panicked acting | passed acting | unlocked acting =>
      exact differ _ acting rfl

-- What a thread's own steps make of it.
inductive Advances : Executor → Executor → Action → Prop where
  | finds (stage : StageId) : Advances .idle .idle (.pop stage)
  | pops (stage : StageId) (id : ConnId) : Advances .idle (.popped id) (.pop stage)
  | unwinds (stage : StageId) (io : Io) (id : ConnId) : Advances (.popped id) .dead (.process stage io)
  | locks (stage : StageId) (io : Io) (id : ConnId) (next : Option ConnId) :
      Advances (.popped id) (.holding next) (.process stage io)
  | panics (stage : StageId) (id : ConnId) : Advances (.holding (some id)) .dead (.push stage)
  | passes (stage : StageId) (id : ConnId) : Advances (.holding (some id)) (.holding none) (.push stage)
  | unlocks (stage : StageId) : Advances (.holding none) .idle (.unlock stage)

theorem executor_advances (site : Site) (s s' : System) (a : Action) (stage : StageId) (acting : a.thread = some stage)
    (taken : s.step site a = some s') : Advances (s.executors stage) (s'.executors stage) a := by
  cases step_cases site s s' a taken with
  | accepted | refused | issued | acceptorDied | acceptorLost | acceptorPushed | gauged => cases acting
  | foundNone acting' queue idle popped =>
      obtain rfl := Option.some.inj acting
      simp only [idle]
      exact .finds _
  | popped acting' id queue idle popped =>
      obtain rfl := Option.some.inj acting
      simp only [idle, Function.update_self]
      exact .pops _ id
  | unwound acting' io id fault popped free next =>
      obtain rfl := Option.some.inj acting
      simp only [popped, Function.update_self]
      exact .unwinds _ io id
  | processed acting' io id next popped free returned =>
      obtain rfl := Option.some.inj acting
      simp only [popped, Function.update_self]
      exact .locks _ io id next
  | finished acting' id holding last =>
      obtain rfl := Option.some.inj acting
      simp only [holding, Function.update_self]
      exact .passes _ id
  | panicked acting' output id fault holding goes pushed =>
      obtain rfl := Option.some.inj acting
      simp only [holding, Function.update_self]
      exact .panics _ id
  | passed acting' output id result queue holding goes pushed =>
      obtain rfl := Option.some.inj acting
      simp only [holding, Function.update_self]
      exact .passes _ id
  | unlocked acting' holding =>
      obtain rfl := Option.some.inj acting
      simp only [holding, Function.update_self]
      exact .unlocks _

theorem turn_taken (site : Site) (t t' : Threads) (stage : StageId) (action : Action) (after : Executor → Control)
    (taken : t.turn site stage action after = some t') :
    t.system.step site action = some t'.system ∧ t'.flags = t.flags ∧
      t'.controls = update t.controls stage (after (t'.system.executors stage)) := by
  obtain ⟨s, stepped, rfl⟩ := Option.map_eq_some_iff.mp taken
  exact ⟨stepped, rfl, rfl⟩

-- What its own steps make of a thread.
inductive Turns (flag : Bool) : Control → Executor → Control → Executor → ThreadAction → Prop where
  | stops (stage : StageId) (idleCount : UInt32) (executor : Executor) (raised : flag = true) :
      Turns flag (.checking idleCount) executor .stopped executor (.check stage)
  | starts (stage : StageId) (idleCount : UInt32) (executor : Executor) (lowered : flag = false) :
      Turns flag (.checking idleCount) executor (.working 100 0 idleCount) executor (.check stage)
  | finds (stage : StageId) (left processed : Nat) (idleCount : UInt32) :
      Turns flag (.working (left + 1) processed idleCount) .idle (.resting processed idleCount) .idle (.pop stage)
  | pops (stage : StageId) (left processed : Nat) (idleCount : UInt32) (id : ConnId) :
      Turns flag (.working (left + 1) processed idleCount) .idle (.working left processed idleCount) (.popped id) (.pop stage)
  | processes (stage : StageId) (io : Io) (left processed : Nat) (idleCount : UInt32) (executor executor' : Executor)
      (advances : Advances executor executor' (.process stage io)) :
      Turns flag (.working left processed idleCount) executor (.working left processed idleCount) executor' (.process stage io)
  | pushes (stage : StageId) (left processed : Nat) (idleCount : UInt32) (executor executor' : Executor)
      (advances : Advances executor executor' (.push stage)) :
      Turns flag (.working left processed idleCount) executor (.working left processed idleCount) executor' (.push stage)
  | unlocks (stage : StageId) (left processed : Nat) (idleCount : UInt32) :
      Turns flag (.working left processed idleCount) (.holding none) (.working left (processed + 1) idleCount) .idle (.unlock stage)
  | ends (stage : StageId) (processed : Nat) (idleCount : UInt32) :
      Turns flag (.working 0 processed idleCount) .idle (.checking (restedCount processed idleCount)) .idle (.rest stage)
  | rests (stage : StageId) (processed : Nat) (idleCount : UInt32) (executor : Executor) :
      Turns flag (.resting processed idleCount) executor (.checking (restedCount processed idleCount)) executor (.rest stage)

-- A step of a thread, seen from that thread, from another and from the system.
structure Threaded (site : Site) (t t' : Threads) (a : ThreadAction) : Prop where
  own : ∀ stage, a.stage = some stage →
    Turns (t.flags stage) (t.controls stage) (t.system.executors stage) (t'.controls stage) (t'.system.executors stage) a
  others : ∀ stage, a.stage ≠ some stage →
    t'.controls stage = t.controls stage ∧ t'.system.executors stage = t.system.executors stage
  raised : ∀ stage, t.flags stage = true → t'.flags stage = true
  system : t'.system = t.system ∨ ∃ action, t.system.step site action = some t'.system

theorem turned_threaded (site : Site) (t t' : Threads) (stage : StageId) (a : ThreadAction) (action : Action)
    (after : Executor → Control) (mine : a.stage = some stage) (thread : action.thread = some stage)
    (taken : t.turn site stage action after = some t')
    (turns : Advances (t.system.executors stage) (t'.system.executors stage) action →
      Turns (t.flags stage) (t.controls stage) (t.system.executors stage) (after (t'.system.executors stage))
        (t'.system.executors stage) a) : Threaded site t t' a := by
  obtain ⟨stepped, flags, controls⟩ := turn_taken site t t' stage action after taken
  refine ⟨fun other same => ?_, fun other differ => ⟨?_, ?_⟩, fun other raised => flags ▸ raised, .inr ⟨action, stepped⟩⟩
  · obtain rfl := Option.some.inj (mine.symm.trans same)
    rw [controls, Function.update_self]
    exact turns (executor_advances site _ _ action stage thread stepped)
  · rw [controls]
    exact Function.update_of_ne (fun same => differ (mine.trans (congrArg some same.symm))) _ _
  · exact executors_elsewhere site _ _ action other (fun same => differ (mine.trans (thread.symm.trans same))) stepped

theorem alone_threaded (site : Site) (t : Threads) (stage : StageId) (a : ThreadAction) (control : Control) (mine : a.stage = some stage)
    (turns : Turns (t.flags stage) (t.controls stage) (t.system.executors stage) control (t.system.executors stage) a) :
    Threaded site t { t with controls := update t.controls stage control } a := by
  refine ⟨fun other same => ?_, fun other differ => ⟨?_, rfl⟩, fun _ raised => raised, .inl rfl⟩
  · obtain rfl := Option.some.inj (mine.symm.trans same)
    simp only [Function.update_self]
    exact turns
  · exact Function.update_of_ne (fun same => differ (mine.trans (congrArg some same.symm))) _ _

theorem threads_step (site : Site) (t t' : Threads) (a : ThreadAction) (taken : t.step site a = some t') : Threaded site t t' a := by
  cases a with
  | main action =>
      simp only [Threads.step] at taken
      split at taken
      · rename_i ofMain
        obtain ⟨s, stepped, rfl⟩ := Option.map_eq_some_iff.mp taken
        have none := (of_main_thread action).mp ofMain
        refine ⟨nofun, fun stage _ => ⟨rfl, ?_⟩, fun _ raised => raised, .inr ⟨action, stepped⟩⟩
        exact executors_elsewhere site _ s action stage (by rw [none]; nofun) stepped
      · cases taken
  | shutdown stage =>
      obtain rfl := Option.some.inj taken
      refine ⟨nofun, fun _ _ => ⟨rfl, rfl⟩, fun other raised => ?_, .inl rfl⟩
      by_cases same : other = stage
      · subst same
        exact Function.update_self _ _ _
      · exact (Function.update_of_ne same _ _).trans raised
  | check stage =>
      simp only [Threads.step] at taken
      split at taken
      · rename_i idleCount checking
        obtain rfl := Option.some.inj taken
        refine alone_threaded site t stage _ _ rfl ?_
        rw [checking]
        split
        · rename_i raised
          exact .stops stage idleCount _ raised
        · rename_i lowered
          exact .starts stage idleCount _ (Bool.eq_false_iff.mpr lowered)
      · cases taken
  | pop stage =>
      simp only [Threads.step] at taken
      split at taken
      · rename_i left processed idleCount working
        refine turned_threaded site t t' stage _ _ _ rfl rfl taken fun advances => ?_
        rw [working]
        generalize t.system.executors stage = executor at advances ⊢
        generalize t'.system.executors stage = executor' at advances ⊢
        cases advances with
        | finds => exact .finds stage left processed idleCount
        | pops _ id => exact .pops stage left processed idleCount id
      · cases taken
  | process stage io =>
      simp only [Threads.step] at taken
      split at taken
      · rename_i left processed idleCount working
        refine turned_threaded site t t' stage _ _ _ rfl rfl taken fun advances => ?_
        rw [working]
        exact .processes stage io left processed idleCount _ _ advances
      · cases taken
  | push stage =>
      simp only [Threads.step] at taken
      split at taken
      · rename_i left processed idleCount working
        refine turned_threaded site t t' stage _ _ _ rfl rfl taken fun advances => ?_
        rw [working]
        exact .pushes stage left processed idleCount _ _ advances
      · cases taken
  | unlock stage =>
      simp only [Threads.step] at taken
      split at taken
      · rename_i left processed idleCount working
        refine turned_threaded site t t' stage _ _ _ rfl rfl taken fun advances => ?_
        rw [working]
        generalize t.system.executors stage = executor at advances ⊢
        generalize t'.system.executors stage = executor' at advances ⊢
        cases advances with
        | unlocks => exact .unlocks stage left processed idleCount
      · cases taken
  | rest stage =>
      simp only [Threads.step] at taken
      split at taken
      · rename_i processed idleCount working idle
        obtain rfl := Option.some.inj taken
        refine alone_threaded site t stage _ _ rfl ?_
        rw [working, idle]
        exact .ends stage processed idleCount
      · rename_i processed idleCount resting
        obtain rfl := Option.some.inj taken
        refine alone_threaded site t stage _ _ rfl ?_
        rw [resting]
        exact .rests stage processed idleCount _
      · cases taken

-- The batch a thread is in counts the turn it has begun.
def Steady (control : Control) (executor : Executor) : Prop :=
  match control with
  | .working left _ _ => left ≤ 100 ∧ (executor ≠ .idle → left ≤ 99)
  | _ => executor = .idle

theorem turns_steady (flag : Bool) (control control' : Control) (executor executor' : Executor) (a : ThreadAction)
    (turns : Turns flag control executor control' executor' a) (steady : Steady control executor) : Steady control' executor' := by
  cases turns with
  | stops | rests => exact steady
  | starts => exact ⟨Nat.le_refl _, fun busy => absurd steady busy⟩
  | finds | ends => rfl
  | pops => exact ⟨Nat.le_of_succ_le steady.1, fun _ => Nat.le_of_succ_le_succ steady.1⟩
  | processes stage io left processed idleCount _ _ advances =>
      refine ⟨steady.1, fun _ => steady.2 ?_⟩
      cases advances <;> nofun
  | pushes stage left processed idleCount _ _ advances =>
      refine ⟨steady.1, fun _ => steady.2 ?_⟩
      cases advances <;> nofun
  | unlocks => exact ⟨steady.1, fun busy => absurd rfl busy⟩

-- The steps that a thread has still to take when its flag is up.
def Executor.due : Executor → Nat
  | .idle | .dead => 0
  | .popped _ => 3
  | .holding (some _) => 2
  | .holding none => 1

def Control.due : Control → Nat
  | .stopped => 0
  | .checking _ => 1
  | .resting _ _ => 2
  | .working left _ _ => 3 + 4 * left

def Control.left : Control → Nat
  | .working left _ _ => left
  | _ => 0

theorem advances_due (executor executor' : Executor) (a : Action) (advances : Advances executor executor' a)
    (begun : executor ≠ .idle) : executor'.due + 1 ≤ executor.due := by
  cases advances with
  | locks stage io id next => cases next <;> simp only [Executor.due] <;> omega
  | finds | pops => exact absurd rfl begun
  | unwinds | panics | passes | unlocks => simp only [Executor.due]; omega

theorem turns_due (control control' : Control) (executor executor' : Executor) (a : ThreadAction)
    (turns : Turns true control executor control' executor' a) :
    control'.due + executor'.due + 1 ≤ control.due + executor.due := by
  cases turns with
  | stops => simp only [Control.due]; omega
  | starts _ _ _ lowered => cases lowered
  | finds | pops => simp only [Control.due, Executor.due]; omega
  | processes stage io left processed idleCount _ _ advances =>
      have less := advances_due _ _ _ advances (by cases advances <;> nofun)
      simp only [Control.due]
      omega
  | pushes stage left processed idleCount _ _ advances =>
      have less := advances_due _ _ _ advances (by cases advances <;> nofun)
      simp only [Control.due]
      omega
  | unlocks => simp only [Control.due, Executor.due]; omega
  | ends | rests => simp only [Control.due, Executor.due]; omega

theorem turns_left (control control' : Control) (executor executor' : Executor) (a : ThreadAction) (stage : StageId)
    (mine : a.stage = some stage) (turns : Turns true control executor control' executor' a) :
    control'.left + (if a = .pop stage then 1 else 0) ≤ control.left := by
  cases turns with
  | starts _ _ _ lowered => cases lowered
  | finds other left => rw [if_pos (by rw [Option.some.inj mine])]; simp only [Control.left]; omega
  | pops other left => rw [if_pos (by rw [Option.some.inj mine])]; simp only [Control.left]; omega
  | stops | processes | pushes | unlocks | ends | rests => rw [if_neg nofun]; simp only [Control.left]; omega

-- The mutex is taken by the thread that holds its guard.
def LockHeld (s : System) : Prop := ∀ stage, s.lock = some stage ↔ ∃ next, s.executors stage = .holding next

theorem lock_step (site : Site) (s s' : System) (a : Action) (held : LockHeld s) (taken : s.step site a = some s') : LockHeld s' := by
  have released (stage : StageId) (executor : Executor) (nextId : Option ConnId) (holding : s.executors stage = .holding nextId)
      (out : ∀ next, executor ≠ .holding next) (other : StageId) :
      (none : Option StageId) = some other ↔ ∃ next, update s.executors stage executor other = .holding next := by
    refine iff_of_false nofun ?_
    rintro ⟨next, there⟩
    by_cases same : other = stage
    · subst same
      rw [Function.update_self] at there
      exact out next there
    · rw [Function.update_of_ne same] at there
      have both := ((held other).mpr ⟨next, there⟩).symm.trans ((held stage).mpr ⟨nextId, holding⟩)
      exact same (Option.some.inj both)
  have kept (stage : StageId) (executor : Executor)
      (same : (∃ next, executor = .holding next) ↔ ∃ next, s.executors stage = .holding next) (other : StageId) :
      s.lock = some other ↔ ∃ next, update s.executors stage executor other = .holding next := by
    by_cases mine : other = stage
    · subst mine
      rw [Function.update_self, same]
      exact held other
    · rw [Function.update_of_ne mine]
      exact held other
  cases step_cases site s s' a taken with
  | accepted | refused | issued | acceptorDied | acceptorLost | acceptorPushed | gauged | foundNone => exact held
  | popped stage id queue idle popped => exact kept stage _ (by rw [idle]; simp)
  | unwound stage io id fault popped free next => exact kept stage _ (by rw [popped]; simp)
  | processed stage io id next popped free returned =>
      intro other
      by_cases same : other = stage
      · subst same
        exact iff_of_true rfl ⟨next, Function.update_self _ _ _⟩
      · refine iff_of_false (fun equal => same (Option.some.inj equal).symm) ?_
        rintro ⟨other', there⟩
        have there := (Function.update_of_ne same _ _).symm.trans there
        cases free.symm.trans ((held other).mpr ⟨other', there⟩)
  | finished stage id holding last => exact kept stage _ (by rw [holding]; simp)
  | panicked stage output id fault holding goes pushed => exact released stage .dead _ holding nofun
  | passed stage output id result queue holding goes pushed => exact kept stage _ (by rw [holding]; simp)
  | unlocked stage holding => exact released stage .idle _ holding nofun

structure Shuttered (t : Threads) : Prop where
  steady : ∀ stage, Steady (t.controls stage) (t.system.executors stage)
  lock : LockHeld t.system
  asked : ∀ stage, t.controls stage = .stopped → t.flags stage = true

theorem step_shuttered (site : Site) (t t' : Threads) (a : ThreadAction) (shuttered : Shuttered t) (taken : t.step site a = some t') :
    Shuttered t' := by
  have threaded := threads_step site t t' a taken
  refine ⟨fun stage => ?_, ?_, fun stage stopped => ?_⟩
  · by_cases mine : a.stage = some stage
    · exact turns_steady _ _ _ _ _ a (threaded.own stage mine) (shuttered.steady stage)
    · obtain ⟨control, executor⟩ := threaded.others stage mine
      rw [control, executor]
      exact shuttered.steady stage
  · rcases threaded.system with same | ⟨action, stepped⟩
    · exact same ▸ shuttered.lock
    · exact lock_step site _ _ action shuttered.lock stepped
  · refine threaded.raised stage ?_
    by_cases mine : a.stage = some stage
    · have turns := threaded.own stage mine
      rw [stopped] at turns
      generalize t.controls stage = control at turns
      generalize t.system.executors stage = executor at turns
      generalize t'.system.executors stage = executor' at turns
      cases turns with
      | stops _ _ _ raised => exact raised
    · exact shuttered.asked stage ((threaded.others stage mine).1.symm.trans stopped)

theorem run_shuttered (site : Site) (config : OrchestratorConfig) (t : Threads) (run : Run (Threads.step site) anyStep (.new config) t) :
    Shuttered t := by
  refine Runs.run_invariant Shuttered _ t run ⟨fun _ => rfl, fun _ => iff_of_false nofun ?_, nofun⟩
    fun t a t' shuttered _ taken => step_shuttered site t t' a shuttered taken
  rintro ⟨next, there⟩
  cases there

def Threads.due (t : Threads) (stage : StageId) : Nat := (t.controls stage).due + (t.system.executors stage).due

theorem steps_pay (site : Site) (stage : StageId) :
    Ranking.Pays (fun t => t.flags stage = true) (fun t => t.due stage) (fun _ a => if a.stage = some stage then 1 else 0)
      (fun _ _ => 0) (Threads.step site) := by
  refine ⟨fun t a t' raised taken => (threads_step site t t' a taken).raised stage raised, fun t a t' raised taken => ?_⟩
  have threaded := threads_step site t t' a taken
  by_cases mine : a.stage = some stage
  · have turns := threaded.own stage mine
    rw [raised] at turns
    rw [if_pos mine]
    exact turns_due _ _ _ _ a turns
  · obtain ⟨control, executor⟩ := threaded.others stage mine
    rw [if_neg mine, Threads.due, control, executor]
    exact Nat.le_refl _

theorem pops_pay (site : Site) (stage : StageId) :
    Ranking.Pays (fun t => t.flags stage = true) (fun t => (t.controls stage).left) (fun _ a => if a = .pop stage then 1 else 0)
      (fun _ _ => 0) (Threads.step site) := by
  refine ⟨fun t a t' raised taken => (threads_step site t t' a taken).raised stage raised, fun t a t' raised taken => ?_⟩
  have threaded := threads_step site t t' a taken
  by_cases mine : a.stage = some stage
  · have turns := threaded.own stage mine
    rw [raised] at turns
    exact turns_left _ _ _ _ a stage mine turns
  · obtain ⟨control, _⟩ := threaded.others stage mine
    have other : a ≠ .pop stage := by
      rintro rfl
      exact mine rfl
    rw [if_neg other, control]

theorem steady_due (control : Control) (executor : Executor) (steady : Steady control executor) :
    control.due + executor.due ≤ 403 ∧ control.left ≤ 100 := by
  cases control with
  | working left processed idleCount =>
      obtain ⟨within, busy⟩ := steady
      refine ⟨?_, within⟩
      by_cases idle : executor = .idle
      · rw [idle]
        simp only [Control.due, Executor.due]
        omega
      · have begun := busy idle
        have most : executor.due ≤ 3 := by rcases executor with _ | _ | (_ | _) | _ <;> simp only [Executor.due] <;> omega
        simp only [Control.due]
        omega
  | stopped | checking | resting =>
      have idle : executor = .idle := steady
      rw [idle]
      simp only [Control.due, Executor.due, Control.left]
      omega

-- A thread that is out of the loop, or has unwound.
def Threads.Ended (t : Threads) (stage : StageId) : Prop :=
  (t.controls stage = .stopped ∧ t.system.executors stage = .idle) ∨ t.system.executors stage = .dead

def Threads.Stuck (site : Site) (t : Threads) : Prop := ∀ a, a.stage.isSome = true → t.step site a = none

theorem system_pops (site : Site) (s : System) (stage : StageId) (alive : s.acceptor ≠ .dead) (idle : s.executors stage = .idle) :
    ∃ s', s.step site (.pop stage) = some s' := by
  rw [System.step, if_neg alive]
  simp only [System.pop, idle]
  rcases (s.queues stage).pop with ⟨_ | id, queue⟩
  · exact ⟨_, rfl⟩
  · exact ⟨_, rfl⟩

theorem system_processes (site : Site) (s : System) (stage : StageId) (io : Io) (id : ConnId) (alive : s.acceptor ≠ .dead)
    (popped : s.executors stage = .popped id) (free : s.lock = none) : ∃ s', s.step site (.process stage io) = some s' := by
  rw [System.step, if_neg alive]
  simp only [System.process, popped, free]
  split
  · exact ⟨_, rfl⟩
  · exact ⟨_, rfl⟩

theorem system_pushes (site : Site) (s : System) (stage : StageId) (id : ConnId) (alive : s.acceptor ≠ .dead)
    (holding : s.executors stage = .holding (some id)) : ∃ s', s.step site (.push stage) = some s' := by
  rw [System.step, if_neg alive]
  simp only [System.push, holding]
  split
  · exact ⟨_, rfl⟩
  · split
    · exact ⟨_, rfl⟩
    · exact ⟨_, rfl⟩

theorem system_unlocks (site : Site) (s : System) (stage : StageId) (alive : s.acceptor ≠ .dead)
    (holding : s.executors stage = .holding none) : ∃ s', s.step site (.unlock stage) = some s' := by
  rw [System.step, if_neg alive]
  simp only [System.unlock, holding]
  exact ⟨_, rfl⟩

theorem stuck_turn (site : Site) (t : Threads) (stage : StageId) (action : Action) (after : Executor → Control)
    (stuck : t.turn site stage action after = none) : ¬ ∃ s', t.system.step site action = some s' := by
  rintro ⟨s', taken⟩
  rw [Threads.turn, taken] at stuck
  cases stuck

-- The thread that holds the lock can always go on.
theorem stuck_unlocked (site : Site) (t : Threads) (shuttered : Shuttered t) (alive : t.system.acceptor ≠ .dead) (stuck : t.Stuck site) :
    t.system.lock = none := by
  cases held : t.system.lock with
  | none => rfl
  | some stage =>
      obtain ⟨next, holding⟩ := (shuttered.lock stage).mp held
      have steady := shuttered.steady stage
      rw [holding] at steady
      cases control : t.controls stage with
      | working left processed idleCount =>
          cases next with
          | none =>
              have waits := stuck (.unlock stage) rfl
              simp only [Threads.step, control] at waits
              exact absurd (system_unlocks site t.system stage alive holding) (stuck_turn site t stage _ _ waits)
          | some id =>
              have waits := stuck (.push stage) rfl
              simp only [Threads.step, control] at waits
              exact absurd (system_pushes site t.system stage id alive holding) (stuck_turn site t stage _ _ waits)
      | stopped | checking | resting =>
          rw [control] at steady
          cases steady

theorem stuck_ended (site : Site) (t : Threads) (shuttered : Shuttered t) (alive : t.system.acceptor ≠ .dead) (stuck : t.Stuck site)
    (stage : StageId) : t.Ended stage := by
  have steady := shuttered.steady stage
  have free := stuck_unlocked site t shuttered alive stuck
  cases control : t.controls stage with
  | stopped =>
      rw [control] at steady
      exact .inl ⟨control, steady⟩
  | checking idleCount =>
      have waits := stuck (.check stage) rfl
      simp only [Threads.step, control] at waits
      cases waits
  | resting processed idleCount =>
      have waits := stuck (.rest stage) rfl
      simp only [Threads.step, control] at waits
      cases waits
  | working left processed idleCount =>
      cases executor : t.system.executors stage with
      | dead => exact .inr executor
      | idle =>
          cases left with
          | zero =>
              have waits := stuck (.rest stage) rfl
              simp only [Threads.step, control, executor] at waits
              cases waits
          | succ left =>
              have waits := stuck (.pop stage) rfl
              simp only [Threads.step, control] at waits
              exact absurd (system_pops site t.system stage alive executor) (stuck_turn site t stage _ _ waits)
      | popped id =>
          have waits := stuck (.process stage ⟨[], []⟩) rfl
          simp only [Threads.step, control] at waits
          exact absurd (system_processes site t.system stage _ id alive executor free) (stuck_turn site t stage _ _ waits)
      | holding next =>
          cases free.symm.trans ((shuttered.lock stage).mpr ⟨next, executor⟩)

theorem shutdown_completes (site : Site) (config : OrchestratorConfig) (t : Threads)
    (run : Run (Threads.step site) anyStep (.new config) t) :
    (∀ stage, t.flags stage = true → ∀ later t', execute (Threads.step site) t later = some t' →
      later.countP (fun a => a.stage = some stage) ≤ 403 ∧ later.countP (fun a => a = .pop stage) ≤ 100) ∧
    (t.system.acceptor ≠ .dead → t.Stuck site → t.system.lock = none ∧ ∀ stage, t.Ended stage ∧
      t.system.ids (.popped stage) = [] ∧ t.system.ids (.passing stage) = []) ∧
    ∀ stage, t.controls stage = .stopped → t.flags stage = true := by
  have shuttered := run_shuttered site config t run
  refine ⟨fun stage raised later t' executed => ?_, fun alive stuck => ⟨stuck_unlocked site t shuttered alive stuck, fun stage => ?_⟩,
    shuttered.asked⟩
  · obtain ⟨steps, pops⟩ := steady_due _ _ (shuttered.steady stage)
    have counted := Ranking.count_paid (fun a : ThreadAction => a.stage = some stage) (by simpa using steps_pay site stage) t t' later
      raised executed
    have popped := Ranking.count_paid (fun a : ThreadAction => a = .pop stage) (by simpa using pops_pay site stage) t t' later raised
      executed
    exact ⟨Nat.le_trans counted steps, Nat.le_trans popped pops⟩
  · have ended := stuck_ended site t shuttered alive stuck stage
    refine ⟨ended, ?_⟩
    rcases ended with ⟨_, idle⟩ | dead
    · simp only [System.ids, idle]
      exact ⟨rfl, rfl⟩
    · simp only [System.ids, dead]
      exact ⟨rfl, rfl⟩

-- The parser's batch has begun when all are asked to stop.
def stoppedServer : List ThreadAction :=
  .check .parse :: StageId.all.map .shutdown ++ [.check .route, .check .app, .check .encode, .check .netOut, .pop .parse, .rest .parse,
    .check .parse]

theorem stopped_server_ends : ∃ t, execute (Threads.step plainSite) (.new smallConfig) stoppedServer = some t ∧
    t.system.lock = none ∧ ∀ stage, t.Ended stage := by
  refine ⟨_, rfl, ?_⟩
  have ended := (shutdown_completes plainSite smallConfig _ (Runs.execute_run (Threads.new smallConfig) _ _ stoppedServer .start rfl)).2.1
    (by decide) (fun a mine => by
      cases a with
      | main | shutdown => cases mine
      | check stage | pop stage | process stage | push stage | unlock stage | rest stage => cases stage <;> rfl)
  exact ⟨ended.1, fun stage => (ended.2 stage).1⟩

end Ners.Server

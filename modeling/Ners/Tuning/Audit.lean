import Ners.Tuning.Limits

set_option autoImplicit false

namespace Ners.Tuning

open Runs (Taken execute carried carried_snoc execute_snoc)
open Window (pushAll)

variable {π : Type} [TuningPolicy π]

-- Whether a call finds that the latency has grown, and looks at the back of the log.
def TuningEngine.looksBack (e : TuningEngine π) : EngineCall → Bool
  | .setEnabled _ => false
  | .process _ snapshot => e.enabled && e.shouldRollback snapshot

-- A call of the run looked back when this action was the last one handed over.
def FoundLast (start : TuningEngine π) (calls : List EngineCall) (i : Nat) : Prop :=
  ∃ before call e e', Taken TuningEngine.step start calls before call e e' ∧ e.looksBack call = true ∧
    (handedOver start (before ++ [call])).length = i + 1

def returnedOver (start : TuningEngine π) (calls : List EngineCall) : List TuningAction :=
  carried TuningEngine.step (fun e call returned => returned ++ e.outcome call) start [] calls

-- What the log says about an action that was handed over.
structure Entered (c : TuningConstraints) (found : Prop) (handed : Instant × TuningAction) (entry : TuningLogEntry) : Prop where
  timestamp : entry.timestamp = handed.1
  action : entry.action = handed.2
  rejected : entry.result = .rejected ↔ c.admits handed.2 = false
  rolledBack : entry.result = .rolledBack ↔ c.admits handed.2 = true ∧ found

-- A log that has lost nothing yet.
structure Journaled (c : TuningConstraints) (found : Nat → Prop) (handed : List (Instant × TuningAction))
    (journal : List TuningLogEntry) : Prop where
  length : journal.length = handed.length
  entered : ∀ i one entry, handed[i]? = some one → journal[i]? = some entry → Entered c (found i) one entry
  bounded : ∀ i, found i → i < handed.length

theorem verdict_entered (c : TuningConstraints) (found : Prop) (one : Instant × TuningAction) (fresh : ¬ found) :
    Entered c found one (c.verdict one) := by
  refine ⟨rfl, rfl, ?_, ?_⟩
  · unfold TuningConstraints.verdict
    cases c.admits one.2 <;> simp
  · exact iff_of_false (verdict_stands c one) fun both => fresh both.2

theorem journaled_append (c : TuningConstraints) (found : Nat → Prop) (handed more : List (Instant × TuningAction))
    (journal : List TuningLogEntry) (journaled : Journaled c found handed journal) :
    Journaled c found (handed ++ more) (journal ++ more.map c.verdict) := by
  refine ⟨?_, fun i one entry there logged => ?_, fun i was => ?_⟩
  · rw [List.length_append, List.length_append, List.length_map, journaled.length]
  · by_cases old : i < handed.length
    · rw [List.getElem?_append_left old] at there
      rw [List.getElem?_append_left (journaled.length ▸ old)] at logged
      exact journaled.entered i one entry there logged
    · have late := Nat.not_lt.mp old
      rw [List.getElem?_append_right late] at there
      rw [List.getElem?_append_right (journaled.length ▸ late), journaled.length, List.getElem?_map, there] at logged
      obtain rfl := Option.some.inj logged
      exact verdict_entered c (found i) one fun was => old (journaled.bounded i was)
  · rw [List.length_append]
    exact Nat.lt_add_right _ (journaled.bounded i was)

theorem entered_weaken (c : TuningConstraints) (found found' : Prop) (one : Instant × TuningAction) (entry : TuningLogEntry)
    (entered : Entered c found one entry) (same : found ↔ found') : Entered c found' one entry :=
  ⟨entered.timestamp, entered.action, entered.rejected, entered.rolledBack.trans (and_congr_right fun _ => same)⟩

-- Looking back at an entry: only one that was applied changes.
theorem entered_rollback (c : TuningConstraints) (found : Prop) (one : Instant × TuningAction) (entry : TuningLogEntry)
    (entered : Entered c found one entry) :
    Entered c True one (if entry.result = .applied then { entry with result := .rolledBack } else entry) := by
  obtain ⟨timestamp, action, rejected, rolledBack⟩ := entered
  cases result : entry.result with
  | applied =>
      have passes : c.admits one.2 = true := by
        cases admits : c.admits one.2 with
        | true => rfl
        | false => simp [rejected.mpr admits] at result
      rw [if_pos rfl]
      refine ⟨timestamp, action, ?_, ?_⟩
      · simp [passes]
      · simp [passes]
  | rejected =>
      have blocked := rejected.mp result
      rw [if_neg (by simp)]
      refine ⟨timestamp, action, rejected, ?_⟩
      simp [result, blocked]
  | rolledBack =>
      have passes := (rolledBack.mp result).1
      rw [if_neg (by simp)]
      refine ⟨timestamp, action, rejected, ?_⟩
      simp [result, passes]

theorem journaled_rollback (c : TuningConstraints) (found : Nat → Prop) (handed : List (Instant × TuningAction))
    (journal : List TuningLogEntry) (journaled : Journaled c found handed journal) :
    Journaled c (fun i => found i ∨ handed.length = i + 1) handed (rollbackBack journal) := by
  cases journal using List.reverseRecOn with
  | nil =>
      have none : handed = [] := List.length_eq_zero_iff.mp journaled.length.symm
      subst none
      refine ⟨rfl, fun i one entry there logged => ?_, fun i was => ?_⟩
      · rw [List.getElem?_nil] at there
        cases there
      rcases was with was | last
      · exact journaled.bounded i was
      · cases last
  | append_singleton journal entry =>
      have total : journal.length + 1 = handed.length := by
        rw [← journaled.length, List.length_append, List.length_singleton]
      rw [rollback_snoc]
      refine ⟨?_, fun i one after there logged => ?_, fun i was => ?_⟩
      · rw [List.length_append, List.length_singleton, total]
      · by_cases early : i < journal.length
        · rw [List.getElem?_append_left early] at logged
          refine entered_weaken c (found i) _ one after (journaled.entered i one after there ?_) ?_
          · rwa [List.getElem?_append_left early]
          · exact ⟨.inl, fun was => was.resolve_right (by omega)⟩
        · have inside : i < handed.length := (List.getElem?_eq_some_iff.mp there).1
          obtain rfl : i = journal.length := by omega
          rw [List.getElem?_concat_length] at logged
          obtain rfl := Option.some.inj logged
          refine entered_weaken c True _ one _ (entered_rollback c (found journal.length) one entry ?_) ?_
          · exact journaled.entered _ one entry there List.getElem?_concat_length
          · exact ⟨fun _ => .inr total.symm, fun _ => trivial⟩
      · rcases was with was | last
        · exact journaled.bounded i was
        · omega

theorem journaled_same (c : TuningConstraints) (found found' : Nat → Prop) (handed : List (Instant × TuningAction))
    (journal : List TuningLogEntry) (journaled : Journaled c found handed journal) (same : ∀ i, found i ↔ found' i) :
    Journaled c found' handed journal := by
  refine ⟨journaled.length, fun i one entry there logged => ?_, fun i was => journaled.bounded i ((same i).mpr was)⟩
  exact entered_weaken c (found i) (found' i) one entry (journaled.entered i one entry there logged) (same i)

-- The back of a log that has lost its oldest entries is the back of the whole.
theorem rollback_recent (limit : Nat) (journal : List TuningLogEntry) (positive : 0 < limit) :
    rollbackBack (journal.drop (journal.length - limit)) = (rollbackBack journal).drop ((rollbackBack journal).length - limit) := by
  cases journal using List.reverseRecOn with
  | nil => rw [List.drop_nil, show rollbackBack [] = [] from rfl, List.drop_nil]
  | append_singleton journal entry =>
      rw [rollback_snoc, List.length_append, List.length_append, List.length_singleton, List.length_singleton,
        List.drop_append_of_le_length (by omega), List.drop_append_of_le_length (by omega), rollback_snoc]

structure Audited (start : TuningEngine π) (c : TuningConstraints) (calls : List EngineCall) (e : TuningEngine π) : Prop where
  constraints : e.constraints = c
  limit : e.maxLogEntries = 1000
  journal : ∃ journal, e.actionHistory = journal.drop (journal.length - 1000) ∧
    Journaled c (FoundLast start calls) (handedOver start calls) journal
  returned : returnedOver start calls = ((handedOver start calls).filter fun one => c.admits one.2).map Prod.snd

theorem handed_snoc (start e : TuningEngine π) (calls : List EngineCall) (call : EngineCall)
    (executed : execute TuningEngine.step start calls = some e) :
    handedOver start (calls ++ [call]) = handedOver start calls ++ e.handedAt call := by
  rw [handedOver, carried_snoc _ start e [] calls call executed]
  rfl

theorem returned_snoc (start e : TuningEngine π) (calls : List EngineCall) (call : EngineCall)
    (executed : execute TuningEngine.step start calls = some e) :
    returnedOver start (calls ++ [call]) = returnedOver start calls ++ e.outcome call := by
  rw [returnedOver, carried_snoc _ start e [] calls call executed]
  rfl

theorem found_snoc (start e e' : TuningEngine π) (calls : List EngineCall) (call : EngineCall)
    (executed : execute TuningEngine.step start calls = some e) (taken : e.step call = some e') (i : Nat) :
    FoundLast start (calls ++ [call]) i ↔
      FoundLast start calls i ∨ (e.looksBack call = true ∧ (handedOver start (calls ++ [call])).length = i + 1) := by
  constructor
  · rintro ⟨before, last, s, s', there, looks, length⟩
    rcases List.prefix_concat_iff.mp there.within with whole | within
    · obtain ⟨rfl, same⟩ := List.append_inj' whole rfl
      obtain rfl := (List.cons.inj same).1
      obtain rfl := Option.some.inj (executed.symm.trans there.reached)
      exact .inr ⟨looks, length⟩
    · exact .inl ⟨before, last, s, s', ⟨within, there.reached, there.taken⟩, looks, length⟩
  · rintro (⟨before, last, s, s', there, looks, length⟩ | ⟨looks, length⟩)
    · exact ⟨before, last, s, s', ⟨there.within.trans (List.prefix_append _ _), there.reached, there.taken⟩, looks, length⟩
    · exact ⟨calls, call, e, e', ⟨List.prefix_rfl, executed, taken⟩, looks, length⟩

theorem call_returned (e e' : TuningEngine π) (call : EngineCall) (taken : e.step call = some e') :
    e.outcome call = ((e.handedAt call).filter fun one => e.constraints.admits one.2).map Prod.snd := by
  have offered : (e.handedAt call).map Prod.snd = e.offered call := by
    cases call with
    | setEnabled enabled => rfl
    | process clock snapshot => exact stamped_actions _ _
  rw [(stepped e e' call taken).outcome, ← offered, List.filter_map]
  rfl

-- What a call writes at the end of a log of any length, and what it changes there.
structure Wrote (e : TuningEngine π) (call : EngineCall) (e' : TuningEngine π) : Prop where
  limit : e'.maxLogEntries = e.maxLogEntries
  history : e'.actionHistory =
    let written := pushAll e.maxLogEntries e.actionHistory ((e.handedAt call).map e.constraints.verdict)
    if e.looksBack call then rollbackBack written else written

theorem wrote (e e' : TuningEngine π) (call : EngineCall) (taken : e.step call = some e') : Wrote e call e' := by
  cases call with
  | setEnabled enabled =>
      obtain rfl := Option.some.inj taken
      exact ⟨rfl, rfl⟩
  | process clock snapshot =>
      obtain rfl := Option.some.inj taken
      cases enabled : e.enabled with
      | false =>
          have idle := process_disabled e clock snapshot enabled
          refine ⟨by rw [idle], ?_⟩
          rw [idle, TuningEngine.looksBack, TuningEngine.handedAt, TuningEngine.produced, enabled]
          rfl
      | true =>
          obtain ⟨_, history, _, _, limit⟩ := processed e clock snapshot enabled
          refine ⟨limit, ?_⟩
          rw [history, TuningEngine.looksBack, TuningEngine.handedAt, TuningEngine.produced, enabled]
          rfl

theorem audited_step (start e e' : TuningEngine π) (c : TuningConstraints) (calls : List EngineCall) (call : EngineCall)
    (executed : execute TuningEngine.step start calls = some e) (taken : e.step call = some e')
    (audited : Audited start c calls e) : Audited start c (calls ++ [call]) e' := by
  obtain ⟨constraints, limit, ⟨journal, history, journaled⟩, returned⟩ := audited
  have kept := wrote e e' call taken
  have handed := handed_snoc start e calls call executed
  have appended := journaled_append c (FoundLast start calls) (handedOver start calls) (e.handedAt call) journal journaled
  have written : pushAll 1000 e.actionHistory ((e.handedAt call).map c.verdict) =
      (journal ++ (e.handedAt call).map c.verdict).drop ((journal ++ (e.handedAt call).map c.verdict).length - 1000) := by
    rw [history, ← Window.push_all_recent 1000 journal (by decide), ← Window.push_all_recent 1000 _ (by decide), pushAll, pushAll,
      pushAll, List.foldl_append]
  have after := kept.history
  rw [limit, constraints, written] at after
  refine ⟨(stepped e e' call taken).constraints.trans constraints, kept.limit.trans limit, ?_, ?_⟩
  · by_cases looks : e.looksBack call = true
    · rw [if_pos looks, rollback_recent 1000 _ (by decide)] at after
      refine ⟨_, after, ?_⟩
      rw [← handed] at appended
      refine journaled_same c _ _ _ _ (journaled_rollback c _ _ _ appended) fun i => ?_
      rw [found_snoc start e e' calls call executed taken i, and_iff_right looks]
    · rw [if_neg looks] at after
      refine ⟨_, after, ?_⟩
      rw [← handed] at appended
      refine journaled_same c _ _ _ _ appended fun i => ?_
      rw [found_snoc start e e' calls call executed taken i, or_iff_left fun both => looks both.1]
  · rw [returned_snoc start e calls call executed, returned, call_returned e e' call taken, handed, constraints,
      List.filter_append, List.map_append]

theorem audited_run (policy : π) (c : TuningConstraints) (calls : List EngineCall) (e : TuningEngine π)
    (executed : execute TuningEngine.step (.new policy c) calls = some e) : Audited (.new policy c) c calls e := by
  induction calls using List.reverseRecOn generalizing e with
  | nil =>
      obtain rfl := Option.some.inj executed
      refine ⟨rfl, rfl, ⟨[], rfl, rfl, fun i one entry there logged => ?_, ?_⟩, rfl⟩
      · rw [List.getElem?_nil] at logged
        cases logged
      rintro i ⟨before, call, s, s', there, _⟩
      exact absurd there (Runs.taken_nil _ _ _ _ _)
  | append_singleton calls call ih =>
      rw [execute_snoc, Option.bind_eq_some_iff] at executed
      obtain ⟨s, earlier, taken⟩ := executed
      exact audited_step _ s e c calls call earlier taken (ih s earlier)

-- The log is the newest thousand of the actions that the policy handed over, in
-- their order, each with what became of it.
theorem log_audits_run (policy : π) (c : TuningConstraints) (calls : List EngineCall) (e : TuningEngine π)
    (executed : execute TuningEngine.step (.new policy c) calls = some e) :
    let handed := handedOver (.new policy c) calls
    let lost := handed.length - 1000
    e.actionHistory.length = handed.length - lost ∧
      (∀ k entry, e.actionHistory[k]? = some entry →
        ∃ one, handed[lost + k]? = some one ∧ Entered c (FoundLast (.new policy c) calls (lost + k)) one entry) ∧
      returnedOver (.new policy c) calls = (handed.filter fun one => c.admits one.2).map Prod.snd := by
  obtain ⟨_, _, ⟨journal, history, journaled⟩, returned⟩ := audited_run policy c calls e executed
  refine ⟨?_, fun k entry there => ?_, returned⟩
  · rw [history, List.length_drop, journaled.length]
  · rw [history, List.getElem?_drop, journaled.length] at there
    have inside : (handedOver (.new policy c) calls).length - 1000 + k < journal.length := (List.getElem?_eq_some_iff.mp there).1
    rw [journaled.length] at inside
    exact ⟨_, List.getElem?_eq_getElem inside, journaled.entered _ _ entry (List.getElem?_eq_getElem inside) there⟩

def narrowQueues : TuningConstraints := ⟨100, 300, 10⟩

def narrowed : TuningEngine AggressivePolicy := .new (.new 0) narrowQueues

-- The first action asks for too much, and the third is found to have made
-- things worse.
def regression : List EngineCall :=
  [.process (stopped 0) (oneStage 100 300 10000000), .process (stopped (seconds 6)) (oneStage 100 200 10000000),
    .process (stopped (seconds 12)) (oneStage 100 200 20000000)]

theorem regression_audited :
    ∃ e, execute TuningEngine.step narrowed regression = some e ∧
      e.actionHistory = [⟨0, .increaseQueueSize "parse" 360, .rejected⟩, ⟨seconds 6, .increaseQueueSize "parse" 240, .applied⟩,
        ⟨seconds 12, .increaseQueueSize "parse" 240, .rolledBack⟩] ∧
      narrowQueues.admits (.increaseQueueSize "parse" 360) = false ∧
      ¬ FoundLast narrowed regression 1 ∧ FoundLast narrowed regression 2 ∧
      returnedOver narrowed regression = [.increaseQueueSize "parse" 240, .increaseQueueSize "parse" 240] := by
  have executed : execute TuningEngine.step narrowed regression = some (narrowed.after regression) := rfl
  have history : (narrowed.after regression).actionHistory =
      [⟨0, .increaseQueueSize "parse" 360, .rejected⟩, ⟨seconds 6, .increaseQueueSize "parse" 240, .applied⟩,
        ⟨seconds 12, .increaseQueueSize "parse" 240, .rolledBack⟩] := by
    decide +kernel
  have handed : handedOver (TuningEngine.new (AggressivePolicy.new 0) narrowQueues) regression =
      [((0 : Instant), TuningAction.increaseQueueSize "parse" 360), (seconds 6, .increaseQueueSize "parse" 240),
        (seconds 12, .increaseQueueSize "parse" 240)] := by
    decide +kernel
  have audit := log_audits_run (AggressivePolicy.new 0) narrowQueues regression (narrowed.after regression) executed
  dsimp only at audit
  rw [handed, history] at audit
  obtain ⟨_, audit, returned⟩ := audit
  obtain ⟨one, first, rejected⟩ := audit 0 _ rfl
  obtain ⟨two, second, applied⟩ := audit 1 _ rfl
  obtain ⟨three, third, rolled⟩ := audit 2 _ rfl
  obtain rfl := Option.some.inj first
  obtain rfl := Option.some.inj second
  refine ⟨_, executed, history, rejected.rejected.mp rfl, fun found => ?_, (rolled.rolledBack.mp rfl).2, returned⟩
  have impossible := applied.rolledBack.mpr ⟨rfl, found⟩
  cases impossible

end Ners.Tuning

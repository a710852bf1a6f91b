import Ners.Server.Adrift

set_option autoImplicit false

namespace Ners.Server

open Placement (move leave enter)
open Runs (Run anyStep)

-- The parser has an answer to what a visit leaves in the buffer.
def ConnState.Whole (conn : ConnState) (io : Io) : Prop :=
  ∃ answer, Http.parse (readAll io conn.readBuf).1 = .ok answer ∧ answer ≠ .error .incomplete

-- The socket takes the rest of the response, or fails.
def ConnState.Flushed (conn : ConnState) (io : Io) : Prop :=
  ∃ sent result, writeAll io conn.writeBuf conn.bytesWritten = .ok (sent, result) ∧
    ∀ n, result = .ok n → conn.writeBuf.length ≤ conn.bytesWritten + n

def Served.Keeps (served : Served) : Prop :=
  served.next = .ok true ∨ ∀ conn, served.conn = some conn → conn.state = .closed

theorem parse_keeps_iff (io : Io) (conn : ConnState) (metrics : MetricsCollector) (stream : conn.stream.isSome = true)
    (live : conn.state ≠ .closed) : (parseStageMulti io conn metrics).Keeps ↔ conn.Whole io := by
  simp only [parseStageMulti, stream, if_true, ConnState.Whole, Served.Keeps]
  rcases Http.parse (readAll io conn.readBuf).1 with fault | error | ⟨request, n⟩
  · simp [live]
  · cases error with
    | incomplete => simp [live]
    | invalid reason => simp
  · simp

theorem net_out_keeps_iff (io : Io) (conn : ConnState) (metrics : MetricsCollector) (stream : conn.stream.isSome = true)
    (live : conn.state ≠ .closed) : (netOutStageMulti io conn metrics).Keeps ↔ conn.Flushed io := by
  simp only [netOutStageMulti, stream, if_true, ConnState.Flushed, Served.Keeps]
  rcases writeAll io conn.writeBuf conn.bytesWritten with fault | ⟨sent, error | n⟩
  · simp [live]
  · simp
  · by_cases done : conn.writeBuf.length ≤ conn.bytesWritten + n
    · simp [done]
    · simp [done, live]

-- A step that keeps hold of what it handles: queues have room, requests are
-- whole when they are parsed, responses are flushed when they are sent.
structure System.HandsOn (s : System) (a : Action) : Prop where
  room : ∀ output, a.target = some (.queue output) → (s.queues output).HasRoom
  whole : ∀ io id conn, a = .process .parse io → s.executors .parse = .popped id → s.slab.get id = some conn → conn.Whole io
  flushed : ∀ io id conn, a = .process .netOut io → s.executors .netOut = .popped id → s.slab.get id = some conn →
    conn.Flushed io

theorem unlocked_hands_on (s : System) (a : Action) (locked : ∀ stage io, a ≠ .process stage io)
    (room : ∀ output, a.target = some (.queue output) → (s.queues output).HasRoom) : s.HandsOn a :=
  ⟨room, fun io _ _ action => absurd action (locked .parse io), fun io _ _ action => absurd action (locked .netOut io)⟩

theorem turn_keeps_iff (stage : StageId) (io : Io) (id : ConnId) (slab : ConnSlab) (metrics : MetricsCollector)
    (body : ConnState → MetricsCollector → Served) (conn : ConnState) (found : slab.get id = some conn) (whole : slab.Exact) :
    ((withConn stage io id slab metrics body).next = .ok (some id) ∨
      ∀ after, (withConn stage io id slab metrics body).slab.get id = some after → after.state = .closed) ↔
      (body conn metrics).Keeps := by
  obtain ⟨after, _, _, next, _⟩ := with_conn_found stage io id slab metrics body conn found whole
  rw [next, after]
  rfl

theorem process_hands_on_iff (site : Site) (s : System) (t : Tickets) (stage : StageId) (io : Io) (id : ConnId)
    (ledger : Ledger site s t) (front : s.ids (.popped stage) = [id]) :
    ((processOne site stage io id s.slab s.metrics).next = .ok (some id) ∨
      ∀ after, (processOne site stage io id s.slab s.metrics).slab.get id = some after → after.state = .closed) ↔
      s.HandsOn (.process stage io) := by
  obtain ⟨conn, found, stream, live⟩ := popped_conn site s t stage id ledger front
  have popped := (popped_executor s stage id).mp front
  have turn (body : ConnState → MetricsCollector → Served) :=
    turn_keeps_iff stage io id s.slab s.metrics body conn found ledger.slab
  cases stage with
  | parse =>
      refine (turn _).trans ((parse_keeps_iff io conn s.metrics stream live).trans ⟨fun whole => ?_, ?_⟩)
      · refine ⟨by simp [Action.target], ?_, by simp⟩
        rintro _ other conn' ⟨⟩ also found'
        obtain rfl := Executor.popped.inj (popped.symm.trans also)
        exact Option.some.inj (found.symm.trans found') ▸ whole
      · exact fun hands => hands.whole io id conn rfl popped found
  | netOut =>
      refine (turn _).trans ((net_out_keeps_iff io conn s.metrics stream live).trans ⟨fun flushed => ?_, ?_⟩)
      · refine ⟨by simp [Action.target], by simp, ?_⟩
        rintro _ other conn' ⟨⟩ also found'
        obtain rfl := Executor.popped.inj (popped.symm.trans also)
        exact Option.some.inj (found.symm.trans found') ▸ flushed
      · exact fun hands => hands.flushed io id conn rfl popped found
  | route => exact iff_of_true ((turn _).mpr (.inl rfl)) ⟨by simp [Action.target], by simp, by simp⟩
  | app => exact iff_of_true ((turn _).mpr (.inl rfl)) ⟨by simp [Action.target], by simp, by simp⟩
  | encode => exact iff_of_true (.inl rfl) ⟨by simp [Action.target], by simp, by simp⟩

def System.Kept (s : System) : Prop :=
  ∀ id conn, s.slab.get id = some conn → conn.state ≠ .closed → ∃ p, id ∈ s.ids p

theorem net_out_gives_none (site : Site) (s : System) (t : Tickets) (ledger : Ledger site s t) : s.ids (.passing .netOut) = [] := by
  cases held : s.ids (.passing .netOut) with
  | nil => rfl
  | cons id rest =>
      obtain ⟨socket, later, shape, _⟩ := ledger_front site s t _ id rest ledger held
      obtain ⟨conn, _, standing⟩ := ledger.standing _ (id, socket) (shape ▸ List.mem_cons_self)
      cases standing

theorem kept_moved (s s' : System) (p q : Place) (id : ConnId) (rest : List ConnId) (kept : s.Kept) (differ : p ≠ q)
    (front : s.ids p = id :: rest) (ids : s'.ids = move p q s.ids)
    (slots : ∀ other conn, other ≠ id → s'.slab.get other = some conn → s.slab.get other = some conn) : s'.Kept := by
  intro other conn found live
  rw [ids]
  by_cases same : other = id
  · exact ⟨q, same ▸ Placement.arrives_move p q s.ids id rest front⟩
  · obtain ⟨r, here⟩ := kept other conn (slots other conn same found) live
    exact ⟨r, Placement.stays_move p q r s.ids id other rest front differ here same⟩

theorem hands_on_keeps (site : Site) (s s' : System) (t : Tickets) (a : Action) (ledger : Ledger site s t) (kept : s.Kept)
    (taken : s.step site a = some s') (hands : s.HandsOn a) : s'.Kept := by
  cases step_effect site s s' a (ledger_real site s t ledger) taken with
  | quiet action ids same idle =>
      intro id conn found live
      exact ids ▸ kept id conn (same.slab ▸ found) live
  | moved p q id rest source target front ids same locked room =>
      have differ : p ≠ q := fun same => source_not_target a p source (same ▸ target)
      exact kept_moved s s' p q id rest kept differ front ids fun other conn _ found => same.slab ▸ found
  | dropped p id rest source front ids same locked refused =>
      rcases refused with last | ⟨output, target, noRoom⟩
      · rw [last] at source
        obtain rfl := Option.some.inj source
        rw [net_out_gives_none site s t ledger] at front
        cases front
      · exact absurd (hands.room output target) noRoom
  | issued new action empty ids inserted log accepted =>
      obtain ⟨_, _, _, _, others⟩ := insert_issues s.slab s'.slab _ new ledger.slab inserted
      intro id conn found live
      rw [ids]
      by_cases same : id = new
      · exact ⟨.acceptor, by rw [same, enter, Function.update_self]; exact List.mem_append_right _ List.mem_cons_self⟩
      · obtain ⟨p, here⟩ := kept id conn ((others id same).symm.trans found) live
        exact ⟨p, Placement.stays_enter _ p s.ids new id here⟩
  | refused action empty ids slab log accepted =>
      intro id conn found live
      exact ids ▸ kept id conn (slab ▸ found) live
  | served stage io id action front slab log accepted ids =>
      have slots (other : ConnId) (conn : ConnState) (differ : other ≠ id) (found : s'.slab.get other = some conn) :
          s.slab.get other = some conn := by
        rwa [slab, process_elsewhere site stage io id other s.slab s.metrics differ] at found
      rcases (process_hands_on_iff site s t stage io id ledger front).mpr (action ▸ hands) with next | closed
      · rw [onward_some _ stage _ id next] at ids
        exact kept_moved s s' _ _ id [] kept (by simp) front ids slots
      · intro other conn found live
        by_cases same : other = id
        · subst same
          exact absurd (closed conn (slab ▸ found)) live
        · obtain ⟨r, here⟩ := kept other conn (slots other conn same found) live
          refine ⟨r, ?_⟩
          rw [ids]
          rcases onward_either (processOne site stage io id s.slab s.metrics) stage s.ids with on | off
          · rw [on]
            exact Placement.stays_move _ _ r s.ids id other [] front (by simp) here same
          · rw [off]
            exact Placement.stays_leave _ r s.ids id other [] front here same

theorem hands_off_loses (site : Site) (s s' : System) (t : Tickets) (a : Action) (ledger : Ledger site s t)
    (taken : s.step site a = some s') (lets : ¬ s.HandsOn a) : s'.Strands fun conn => conn.state ≠ .closed := by
  cases step_effect site s s' a (ledger_real site s t ledger) taken with
  | quiet action ids same idle =>
      refine absurd ?_ lets
      rcases idle with sourceless | ⟨stage, rfl⟩
      · exact unlocked_hands_on s a (by rintro stage io rfl; cases sourceless) (by simp [no_source_no_target a sourceless])
      · exact unlocked_hands_on s _ (by simp) (by simp [Action.target])
  | moved p q id rest source target front ids same locked room =>
      refine absurd (unlocked_hands_on s a locked ?_) lets
      intro output also
      exact room output (Option.some.inj (target.symm.trans also))
  | dropped p id rest source front ids same locked refused =>
      obtain ⟨socket, later, shape, _⟩ := ledger_front site s t p id rest ledger front
      obtain ⟨conn, found, standing⟩ := ledger.standing p (id, socket) (shape ▸ List.mem_cons_self)
      refine ⟨id, conn, ⟨same.slab ▸ found, ?_⟩, standing_live site socket _ _ conn standing⟩
      intro r member
      rw [ids] at member
      exact Placement.left_apart (fun other => other) p r s.ids id id rest front (ids_apart site s t ledger) member rfl
  | issued new action empty ids inserted log accepted =>
      rw [action] at lets
      exact absurd (unlocked_hands_on s .insert (by simp) (by simp [Action.target])) lets
  | refused action empty ids slab log accepted =>
      rw [action] at lets
      exact absurd (unlocked_hands_on s .insert (by simp) (by simp [Action.target])) lets
  | served stage io id action front slab log accepted ids =>
      rw [action, ← process_hands_on_iff site s t stage io id ledger front, not_or] at lets
      obtain ⟨conn, held⟩ := not_forall.mp lets.2
      obtain ⟨after, live⟩ := Classical.not_imp.mp held
      exact ⟨id, conn, served_adrift site s s' t stage io id conn ledger front slab ids lets.1 after, live⟩

theorem kept_iff_handed_on (site : Site) (config : OrchestratorConfig) (actions : List Action) (s : System)
    (executed : Runs.execute (System.step site) (System.new config) actions = some s) :
    s.Kept ↔ Runs.Meets (System.step site) System.HandsOn (System.new config) actions := by
  refine sound_iff_none_stranded site config actions s System.Kept _ System.HandsOn (hands_on_keeps site) (hands_off_loses site)
    ?_ ?_ executed
  · intro s id conn adrift live kept
    obtain ⟨p, here⟩ := kept id conn adrift.occupied live
    exact adrift.nowhere p here
  · intro s empty id conn found
    rw [empty id] at found
    cases found

theorem kept_iff_handed_on_answered :
    ∃ s, Runs.execute (System.step plainSite) (System.new smallConfig) slotReused = some s ∧
      (s.Kept ↔ Runs.Meets (System.step plainSite) System.HandsOn (System.new smallConfig) slotReused) := by
  obtain ⟨s, executed⟩ := Option.isSome_iff_exists.mp
    (show (Runs.execute (System.step plainSite) (System.new smallConfig) slotReused).isSome = true by decide)
  exact ⟨s, executed, kept_iff_handed_on plainSite smallConfig slotReused s executed⟩

def inPieces : List Action := .accept 1 :: enrol ++ finish .parse (readOnce "GET / HT")

theorem request_in_pieces_is_lost :
    ¬ ∀ site config s, Run (System.step site) anyStep (System.new config) s → s.Kept := by
  intro all
  have kept := all plainSite smallConfig (.after plainSite smallConfig inPieces) (Runs.executed_run _ _)
  have here := (mem_in_flight _ _).mpr (kept 0 { ConnState.new 0 with readBuf := Utf8.asBytes "GET / HT" } (by decide) (by decide))
  exact absurd here (by decide)

end Ners.Server

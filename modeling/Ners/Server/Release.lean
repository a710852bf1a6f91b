import Ners.Server.Adrift

set_option autoImplicit false

namespace Ners.Server

open Runs (Run anyStep)

def System.Released (s : System) : Prop := ∀ id conn, s.slab.get id = some conn → conn.state ≠ .closed

-- A step that does not parse a bad request.
def System.Accepts (s : System) (a : Action) : Prop :=
  ∀ io id conn reason, a = .process .parse io → s.executors .parse = .popped id → s.slab.get id = some conn →
    Http.parse (readAll io conn.readBuf).1 ≠ .ok (.error (.invalid reason))

theorem parse_releases_iff (io : Io) (conn : ConnState) (metrics : MetricsCollector) (stream : conn.stream.isSome = true)
    (live : conn.state ≠ .closed) :
    (∀ after, (parseStageMulti io conn metrics).conn = some after → after.state ≠ .closed) ↔
      ∀ reason, Http.parse (readAll io conn.readBuf).1 ≠ .ok (.error (.invalid reason)) := by
  simp only [parseStageMulti, stream, if_true]
  rcases Http.parse (readAll io conn.readBuf).1 with fault | error | ⟨request, n⟩
  · simp [live]
  · cases error with
    | incomplete => simp [live]
    | invalid reason => simp
  · simp

theorem net_out_releases (io : Io) (conn : ConnState) (metrics : MetricsCollector) (live : conn.state ≠ .closed) :
    ∀ after, (netOutStageMulti io conn metrics).conn = some after → after.state ≠ .closed := by
  unfold netOutStageMulti
  split
  · split
    · simp [live]
    · simp only
      split
      · simp
      · simp [live]
    · simp
  · simp [live]

theorem process_accepts_iff (site : Site) (s : System) (t : Tickets) (stage : StageId) (io : Io) (id : ConnId)
    (ledger : Ledger site s t) (front : s.ids (.popped stage) = [id]) :
    (∀ after, (processOne site stage io id s.slab s.metrics).slab.get id = some after → after.state ≠ .closed) ↔
      s.Accepts (.process stage io) := by
  obtain ⟨conn, found, stream, live⟩ := popped_conn site s t stage id ledger front
  have popped := (popped_executor s stage id).mp front
  have turn (body : ConnState → MetricsCollector → Served) :=
    (with_conn_found stage io id s.slab s.metrics body conn found ledger.slab).1
  have quiet (other : stage ≠ .parse) : s.Accepts (.process stage io) := by
    rintro _ _ _ _ ⟨⟩
    exact absurd rfl other
  cases stage with
  | parse =>
      simp only [processOne, turn]
      refine (parse_releases_iff io conn s.metrics stream live).trans ⟨?_, ?_⟩
      · rintro good _ other conn' reason ⟨⟩ also found'
        obtain rfl := Executor.popped.inj (popped.symm.trans also)
        obtain rfl := Option.some.inj (found.symm.trans found')
        exact good reason
      · exact fun accepts reason => accepts io id conn reason rfl popped found
  | route =>
      simp only [processOne, turn]
      exact iff_of_true (by simp [routeStageMulti]) (quiet (by simp))
  | app =>
      simp only [processOne, turn]
      exact iff_of_true (by simp [appStageMulti]) (quiet (by simp))
  | encode => exact iff_of_true (by simp [processOne, found, live]) (quiet (by simp))
  | netOut =>
      simp only [processOne, turn]
      exact iff_of_true (net_out_releases io conn s.metrics live) (quiet (by simp))

theorem bad_request_stops (site : Site) (s : System) (io : Io) (id : ConnId) (conn : ConnState) (reason : String)
    (found : s.slab.get id = some conn) (stream : conn.stream.isSome = true)
    (bad : Http.parse (readAll io conn.readBuf).1 = .ok (.error (.invalid reason))) :
    (processOne site .parse io id s.slab s.metrics).next = .ok none := by
  simp only [processOne, withConn, found, parseStageMulti, stream, if_true, bad]
  rfl

theorem accepts_releases (site : Site) (s s' : System) (t : Tickets) (a : Action) (ledger : Ledger site s t) (released : s.Released)
    (taken : s.step site a = some s') (accepts : s.Accepts a) : s'.Released := by
  intro id conn found
  cases step_effect site s s' a (ledger_real site s t ledger) taken with
  | quiet action ids same idle => exact released id conn (same.slab ▸ found)
  | moved p q other rest source target front ids same locked room => exact released id conn (same.slab ▸ found)
  | dropped p other rest source front ids same locked refused => exact released id conn (same.slab ▸ found)
  | issued new action empty ids inserted log accepted =>
      obtain ⟨_, _, _, occupied, others⟩ := insert_issues s.slab s'.slab _ new ledger.slab inserted
      by_cases same : id = new
      · subst same
        obtain rfl := Option.some.inj (occupied.symm.trans found)
        simp [ConnState.new]
      · exact released id conn ((others id same).symm.trans found)
  | refused action empty ids slab log accepted => exact released id conn (slab ▸ found)
  | served stage io other action front slab log accepted ids =>
      rw [slab] at found
      by_cases same : id = other
      · subst same
        exact (process_accepts_iff site s t stage io id ledger front).mpr (action ▸ accepts) conn found
      · rw [process_elsewhere site stage io other id s.slab s.metrics same] at found
        exact released id conn found

theorem rejects_leaks (site : Site) (s s' : System) (t : Tickets) (a : Action) (ledger : Ledger site s t)
    (taken : s.step site a = some s') (rejects : ¬ s.Accepts a) : s'.Strands fun conn => conn.state = .closed := by
  unfold System.Accepts at rejects
  push Not at rejects
  obtain ⟨io, id, conn, reason, rfl, popped, found, bad⟩ := rejects
  have front := (popped_executor s .parse id).mpr popped
  obtain ⟨conn', found', stream, live⟩ := popped_conn site s t .parse id ledger front
  obtain rfl := Option.some.inj (found.symm.trans found')
  cases step_effect site s s' _ (ledger_real site s t ledger) taken with
  | quiet action ids same idle => rcases idle with sourceless | ⟨stage, action⟩ <;> cases ‹_›
  | moved p q other rest source target front ids same locked room => exact absurd rfl (locked .parse io)
  | dropped p other rest source front ids same locked refused => exact absurd rfl (locked .parse io)
  | issued new action empty ids inserted log accepted => cases action
  | refused action empty ids slab log accepted => cases action
  | served stage io' other action front' slab log accepted ids =>
      cases action
      obtain rfl : id = other := (List.cons.inj (front.symm.trans front')).1
      have stops := bad_request_stops site s io id conn reason found stream bad
      have held : ¬ s.Accepts (.process .parse io) := fun accepts => accepts io id conn reason rfl popped found bad
      rw [← process_accepts_iff site s t .parse io id ledger front] at held
      obtain ⟨after, left⟩ := not_forall.mp held
      obtain ⟨occupied, closed⟩ := Classical.not_imp.mp left
      exact ⟨id, after, served_adrift site s s' t .parse io id after ledger front slab ids (by rw [stops]; simp) occupied,
        not_not.mp closed⟩

theorem released_iff_accepted (site : Site) (config : OrchestratorConfig) (actions : List Action) (s : System)
    (executed : Runs.execute (System.step site) (System.new config) actions = some s) :
    s.Released ↔ Runs.Meets (System.step site) System.Accepts (System.new config) actions := by
  refine sound_iff_none_stranded site config actions s System.Released _ System.Accepts (accepts_releases site)
    (rejects_leaks site) ?_ ?_ executed
  · intro s id conn adrift closed released
    exact released id conn adrift.occupied closed
  · intro s empty id conn found
    rw [empty id] at found
    cases found

theorem released_iff_accepted_answered :
    ∃ s, Runs.execute (System.step plainSite) (System.new smallConfig) slotReused = some s ∧
      (s.Released ↔ Runs.Meets (System.step plainSite) System.Accepts (System.new smallConfig) slotReused) := by
  obtain ⟨s, executed⟩ := Option.isSome_iff_exists.mp
    (show (Runs.execute (System.step plainSite) (System.new smallConfig) slotReused).isSome = true by decide)
  exact ⟨s, executed, released_iff_accepted plainSite smallConfig slotReused s executed⟩

def badRequest : List Action := .accept 1 :: enrol ++ finish .parse (readOnce "G\r\na:b\r\n\r\n")

theorem bad_request_keeps_its_slot :
    ¬ ∀ site config s, Run (System.step site) anyStep (System.new config) s → s.lock = none → s.Released := by
  intro all
  have released := all plainSite smallConfig (.after plainSite smallConfig badRequest) (Runs.executed_run _ _) (by decide)
  exact released 0 { ConnState.new 0 with readBuf := Utf8.asBytes "G\r\na:b\r\n\r\n", state := .closed } (by decide) rfl

end Ners.Server

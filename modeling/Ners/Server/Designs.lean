import Ners.Server.Courses

set_option autoImplicit false

namespace Ners.Server

open Runs (Run anyStep execute)

-- What a connection may have been sent, by the bytes that came from it.
def Answers (site : Site) (received sent : Bytes) : Prop :=
  sent = [] ∨ ∃ request n, Http.parse received = .ok (.ok (request, n)) ∧ sent <+: responseTo site request.path

theorem posture_answers (site : Site) (socket : Socket) (stage : StageId) (received sent : Bytes) (conn : ConnState)
    (posture : Posture site socket stage received sent conn) : Answers site received sent := by
  cases posture with
  | waiting => exact .inl rfl
  | parsed => exact .inl rfl
  | routed => exact .inl rfl
  | answered => exact .inl rfl
  | sending _ request n count parse within => exact .inr ⟨request, n, parse, List.take_prefix _ _⟩

theorem course_answers (site : Site) (refusals : List Socket) (p : Pipeline) (socket : Socket) (course : Course site refusals p socket) :
    Answers site (receivedOn socket p.log) (sentOn socket p.log) := by
  cases course with
  | refused listed unhoused => exact .inl unhoused.unsent
  | held serving =>
      obtain ⟨_, conn, stage, _, posture⟩ := serving
      exact posture_answers site socket stage _ _ conn posture
  | rejected id conn reason holds closed parse unsent => exact .inl unsent
  | delivered whole =>
      obtain ⟨request, n, _, parse, sent⟩ := whole
      exact .inr ⟨request, n, parse, sent ▸ List.prefix_rfl⟩
  | severed request n gone parse part error => exact .inr ⟨request, n, parse, part⟩

theorem pipeline_answers (site : Site) (config : PipelineConfig) (p : Pipeline) (socket : Socket)
    (run : Run (Pipeline.step site) anyStep (.new config) p) : Answers site (receivedOn socket p.log) (sentOn socket p.log) := by
  obtain ⟨_, roster⟩ := run_roster site config p run
  by_cases older : socket < p.accepted
  · exact course_answers site _ p socket (roster.courses socket older)
  · have never : (p.log.filter fun visit => visit.socket = socket) = [] := by
      rw [List.filter_eq_nil_iff]
      intro visit member here
      have seen := roster.logged visit member
      rw [of_decide_eq_true here] at seen
      exact older seen
    exact .inl (by rw [sentOn, never, List.flatMap_nil])

theorem system_answers (site : Site) (config : OrchestratorConfig) (s : System) (socket : Socket)
    (run : Run (System.step site) anyStep (System.new config) s) : Answers site (receivedOn socket s.log) (sentOn socket s.log) := by
  obtain ⟨t, followed⟩ := ticketed site config s run
  have ledger := run_ledger site config s t followed
  rw [ledger.sent socket, ledger.received socket]
  exact expected_sent_front site (journal socket s.log)

theorem answers_comparable (site : Site) (received sent sent' : Bytes) (answers : Answers site received sent)
    (answers' : Answers site received sent') : sent <+: sent' ∨ sent' <+: sent := by
  rcases answers with rfl | ⟨request, n, parse, part⟩
  · exact .inl (List.nil_prefix)
  · rcases answers' with rfl | ⟨request', n', parse', part'⟩
    · exact .inr (List.nil_prefix)
    · obtain ⟨rfl, _⟩ := Prod.mk.inj (Except.ok.inj (Except.ok.inj (parse.symm.trans parse')))
      exact List.prefix_or_prefix_of_prefix part part'

-- One thread over a slab and five threads over a shared one, with their own
-- loops, orders and clients.
theorem designs_agree (site : Site) (single : PipelineConfig) (multi : OrchestratorConfig) (p : Pipeline) (s : System)
    (socket socket' : Socket) (run : Run (Pipeline.step site) anyStep (.new single) p)
    (run' : Run (System.step site) anyStep (System.new multi) s) (same : receivedOn socket p.log = receivedOn socket' s.log) :
    (sentOn socket p.log <+: sentOn socket' s.log ∨ sentOn socket' s.log <+: sentOn socket p.log) ∧
      (p.Delivered site socket → sentOn socket' s.log <+: sentOn socket p.log) := by
  have answers := pipeline_answers site single p socket run
  have answers' := system_answers site multi s socket' run'
  rw [← same] at answers'
  refine ⟨answers_comparable site _ _ _ answers answers', fun delivered => ?_⟩
  obtain ⟨request, n, _, parse, whole⟩ := delivered
  rcases answers' with none | ⟨request', n', parse', part⟩
  · exact none ▸ List.nil_prefix
  · obtain ⟨rfl, _⟩ := Prod.mk.inj (Except.ok.inj (Except.ok.inj (parse.symm.trans parse')))
    exact whole ▸ part

-- The peer of the five threads takes thirty bytes and then makes them wait.
def slowReader : List Action :=
  .accept 1 :: enrol ++ answer (readOnce "GET / HTTP/1.1\r\na:b\r\n\r\n") ⟨[], [.accepted 30, .wouldBlock]⟩

set_option maxRecDepth 4000 in
theorem slow_reader_agrees : ∃ p, execute (Pipeline.step plainSite) (.new twoSlots) threeClients = some p ∧
    (sentOn 0 (System.after plainSite smallConfig slowReader).log).length = 30 ∧
      sentOn 0 (System.after plainSite smallConfig slowReader).log <+: sentOn 0 p.log := by
  refine ⟨_, rfl, by decide, ?_⟩
  refine (designs_agree plainSite twoSlots smallConfig _ _ 0 0 (Runs.execute_run _ _ _ threeClients .start rfl)
    (Runs.executed_run _ slowReader) (by decide)).1.resolve_left ?_
  exact fun shorter => absurd shorter.length_le (by decide)

end Ners.Server

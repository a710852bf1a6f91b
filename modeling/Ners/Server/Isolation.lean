import Ners.Server.Slots

set_option autoImplicit false

namespace Ners.Server

open Runs (Run anyStep)

theorem responses_stay_home (site : Site) (config : OrchestratorConfig) (s : System) (socket : Socket)
    (run : Run (System.step site) anyStep (System.new config) s) :
    (sentOn socket s.log = [] ∨
      ∃ request n, Http.parse (receivedOn socket s.log) = .ok (.ok (request, n)) ∧
        sentOn socket s.log <+: responseTo site request.path) ∧
      ∀ config' s' socket', Run (System.step site) anyStep (System.new config') s' →
        (journal socket' s'.log).map used = (journal socket s.log).map used → sentOn socket' s'.log = sentOn socket s.log := by
  obtain ⟨t, followed⟩ := ticketed site config s run
  have ledger := run_ledger site config s t followed
  constructor
  · rw [ledger.sent socket, ledger.received socket]
    exact expected_sent_front site (journal socket s.log)
  · intro config' s' socket' other same
    obtain ⟨t', followed'⟩ := ticketed site config' s' other
    have ledger' := run_ledger site config' s' t' followed'
    rw [ledger'.sent socket', ledger.sent socket, ← expected_sent_used, same, expected_sent_used]

def alone : List Action :=
  .accept 1 :: enrol ++ answer (readOnce "GET /api/test HTTP/1.1\r\na:b\r\n\r\n") ⟨[], [.accepted 30, .wouldBlock]⟩

def secondOfTwo : List Action :=
  .accept 2 :: enrol ++ enrol ++ finish .parse (readOnce "\r\n\r\n") ++
    answer (readOnce "GET /api/test HTTP/1.1\r\na:b\r\n\r\n") ⟨[], [.accepted 30, .wouldBlock]⟩

set_option maxRecDepth 2000 in
theorem responses_stay_home_two_clients :
    (sentOn 0 (System.after plainSite smallConfig alone).log).length = 30 ∧
      sentOn 1 (System.after plainSite smallConfig secondOfTwo).log = sentOn 0 (System.after plainSite smallConfig alone).log :=
  ⟨by decide, (responses_stay_home plainSite smallConfig _ 0 (Runs.executed_run _ _)).2 smallConfig _ 1
    (Runs.executed_run _ _) (by decide)⟩

end Ners.Server

import Ners.Server.Tickets

set_option autoImplicit false

namespace Ners.Server

open Placement (Apart)
open Runs (Run anyStep)

def StageId.all : List StageId := [.parse, .route, .app, .encode, .netOut]

def Place.all : List Place := .acceptor :: StageId.all.flatMap fun stage => [.queue stage, .popped stage, .passing stage]

def System.inFlight (s : System) : List ConnId := Place.all.flatMap s.ids

theorem place_listed (p : Place) : p ∈ Place.all := by
  cases p with
  | acceptor => decide
  | queue stage => cases stage <;> decide
  | popped stage => cases stage <;> decide
  | passing stage => cases stage <;> decide

theorem mem_in_flight (s : System) (id : ConnId) : id ∈ s.inFlight ↔ ∃ p, id ∈ s.ids p := by
  rw [System.inFlight, List.mem_flatMap]
  exact ⟨fun ⟨p, _, here⟩ => ⟨p, here⟩, fun ⟨p, here⟩ => ⟨p, place_listed p, here⟩⟩

theorem ids_apart (site : Site) (s : System) (t : Tickets) (ledger : Ledger site s t) : Apart id s.ids := by
  have apart := Placement.apart_map Prod.fst t ledger.idsApart
  rwa [funext ledger.ids] at apart

theorem in_flight_nodup (site : Site) (s : System) (t : Tickets) (ledger : Ledger site s t) : s.inFlight.Nodup :=
  Placement.apart_nodup s.ids Place.all (by decide) (ids_apart site s t ledger)

theorem ticket_occupies (site : Site) (s : System) (t : Tickets) (p : Place) (ticket : Ticket) (ledger : Ledger site s t)
    (member : ticket ∈ t p) : ∃ conn, s.slab.get ticket.1 = some conn ∧ conn.stream = some ticket.2 := by
  obtain ⟨conn, found, standing⟩ := ledger.standing p ticket member
  exact ⟨conn, found, standing_stream site ticket.2 _ _ conn standing⟩

theorem ids_name_their_connections (site : Site) (config : OrchestratorConfig) (s : System)
    (run : Run (System.step site) anyStep (System.new config) s) :
    s.inFlight.Nodup ∧
      (∃ t, TicketedRun site config s t) ∧
      (∀ t, TicketedRun site config s t → ∀ p, (t p).map Prod.fst = s.ids p ∧
        ∀ ticket ∈ t p, ∃ conn, s.slab.get ticket.1 = some conn ∧ conn.stream = some ticket.2) ∧
      s.slab.freeList.Nodup ∧
      (∀ i, i ∈ s.slab.freeList ↔ s.slab.slots[i]? = some none) ∧
      (∀ conn id slab, s.slab.insert conn = (some id, slab) → s.slab.get id = none) := by
  obtain ⟨t, followed⟩ := ticketed site config s run
  have ledger := run_ledger site config s t followed
  refine ⟨in_flight_nodup site s t ledger, ⟨t, followed⟩, ?_, ledger.slab.distinct, ?_, ?_⟩
  · intro t followed p
    have ledger := run_ledger site config s t followed
    exact ⟨ledger.ids p, fun ticket member => ticket_occupies site s t p ticket ledger member⟩
  · exact free_iff_empty s.slab ledger.slab
  · intro conn id slab inserted
    exact (insert_issues s.slab slab conn id ledger.slab inserted).2.2.1

def plainSite : Site := ⟨"", .stored⟩

def smallConfig : OrchestratorConfig := ⟨2, fun _ => 4, by decide⟩

def System.after (site : Site) (config : OrchestratorConfig) (actions : List Action) : System :=
  (Runs.execute (System.step site) (System.new config) actions).getD (System.new config)

def enrol : List Action := [.insert, .acceptorPush, .acceptorGauge]

def pass (stage : StageId) (io : Io) : List Action := [.pop stage, .process stage io, .push stage, .unlock stage]

def finish (stage : StageId) (io : Io) : List Action := [.pop stage, .process stage io, .unlock stage]

def readOnce (text : String) : Io := ⟨[.bytes (Utf8.asBytes text)], []⟩

def answer (read write : Io) : List Action :=
  pass .parse read ++ pass .route ⟨[], []⟩ ++ pass .app ⟨[], []⟩ ++ pass .encode ⟨[], []⟩ ++ finish .netOut write

def slotReused : List Action :=
  .accept 3 :: enrol ++ enrol ++ answer (readOnce "GET / HTTP/1.1\r\na:b\r\n\r\n") ⟨[], [.accepted 1000]⟩ ++ enrol

theorem ids_name_their_connections_reused :
    (System.after plainSite smallConfig slotReused).inFlight = [1, 0] ∧
      ((System.after plainSite smallConfig slotReused).slab.get 0).bind ConnState.stream = some 2 ∧
      (System.after plainSite smallConfig slotReused).inFlight.Nodup :=
  ⟨by decide, by decide, (ids_name_their_connections plainSite smallConfig _ (Runs.executed_run _ _)).1⟩

end Ners.Server

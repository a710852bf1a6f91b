import Ners.H2.Lifecycle

set_option autoImplicit false

namespace Ners.H2

open Hpack (Header)
open History (since since_snoc)
open Runs (Taken execute)

def Signal.fields : Signal → List Header
  | .headers fields _ => fields
  | _ => []

-- END_STREAM on any frame that arrives, or RST_STREAM.
def Signal.finishes : Signal → Bool
  | .headers _ endStream | .refused endStream | .data _ endStream => endStream
  | .reset => true
  | .sentEnd => false

-- The fields of the HEADERS that opened the stream.
def firstFields (history : List Signal) : List Header := (sinceOpened history).head?.elim [] Signal.fields

def finished (history : List Signal) : Bool := history.any Signal.finishes

-- The fields received first are still there, and a request that has ended
-- stays as it was.
structure Kept (history : List Signal) (request after : Request) : Prop where
  fields : (firstFields history).Subperm after.headers
  whole : finished history = true → after.headers = request.headers ∧ after.body = request.body

-- What arrives on an open stream repeats what the stream holds.
def Repeats (history : List Signal) (request : Request) : Signal → Prop
  | .headers fields _ => (firstFields history).Subperm fields ∧ (finished history = true → fields = request.headers)
  | .data bytes _ => finished history = true → request.state.receives = true → bytes = []
  | _ => True

theorem first_fields_snoc (history : List Signal) (signal : Signal) (opened : sinceOpened history ≠ []) :
    firstFields (history ++ [signal]) = firstFields history := by
  rw [sinceOpened] at opened
  rw [firstFields, firstFields, sinceOpened, sinceOpened, since_snoc, if_neg opened]
  cases counted : since Signal.opens history with
  | nil => exact absurd counted opened
  | cons first later => rfl

theorem first_fields_opening (history : List Signal) (fields : List Header) (endStream : Bool)
    (unopened : sinceOpened history = []) : firstFields (history ++ [.headers fields endStream]) = fields := by
  rw [sinceOpened] at unopened
  rw [firstFields, sinceOpened, since_snoc, if_pos unopened]
  rfl

theorem kept_repeats (history : List Signal) (request after : Request) (signal : Signal)
    (advanced : advance (some request) signal = some after) (kept : Kept history request after) :
    Repeats history request signal := by
  obtain ⟨fields, whole⟩ := kept
  cases signal with
  | headers arrived endStream =>
      obtain rfl := Option.some.inj advanced
      exact ⟨fields, fun ended => (whole ended).1⟩
  | data bytes endStream =>
      intro ended receives
      simp only [advance, Option.map_some, receives, if_true, Option.some.injEq] at advanced
      rw [← advanced] at whole
      exact List.append_right_eq_self.mp (whole ended).2
  | _ => trivial

-- The step lemma: a signal that repeats what is there keeps what is there.
theorem repeats_kept (history : List Signal) (request after : Request) (signal : Signal)
    (advanced : advance (some request) signal = some after) (held : (firstFields history).Subperm request.headers)
    (repeats : Repeats history request signal) : Kept history request after := by
  cases signal with
  | headers arrived endStream =>
      obtain rfl := Option.some.inj advanced
      exact ⟨repeats.1, fun ended => ⟨repeats.2 ended, rfl⟩⟩
  | data bytes endStream =>
      simp only [advance, Option.map_some, Option.some.injEq] at advanced
      rw [← advanced]
      by_cases receives : request.state.receives = true
      · rw [if_pos receives]
        refine ⟨held, fun ended => ⟨rfl, ?_⟩⟩
        rw [repeats ended receives, List.append_nil]
      · rw [if_neg receives]
        exact ⟨held, fun _ => ⟨rfl, rfl⟩⟩
  | refused endStream =>
      obtain rfl := Option.some.inj advanced
      exact ⟨held, fun _ => ⟨rfl, rfl⟩⟩
  | reset =>
      obtain rfl := Option.some.inj advanced
      exact ⟨held, fun _ => ⟨rfl, rfl⟩⟩
  | sentEnd =>
      obtain rfl := Option.some.inj advanced
      exact ⟨held, fun _ => ⟨rfl, rfl⟩⟩

-- The run lemma, by induction on the history from its end.
theorem first_fields_held (history : List Signal)
    (repeats : ∀ past signal request, past ++ [signal] <+: history → follow none past = some request →
      Repeats past request signal) (request : Request) (there : follow none history = some request) :
    (firstFields history).Subperm request.headers := by
  induction history using List.reverseRecOn generalizing request with
  | nil => cases there
  | append_singleton earlier signal ih =>
      rw [follow_append] at there
      rcases follow_describes earlier with ⟨unopened, absent⟩ | ⟨before, opened, present, _⟩
      · rw [absent] at there
        cases signal with
        | headers fields endStream =>
            obtain rfl := Option.some.inj there
            rw [first_fields_opening earlier fields endStream unopened]
        | _ => cases there
      · have held := ih (fun past other request within => repeats past other request (within.trans (List.prefix_append _ _)))
          before present
        rw [present] at there
        rw [first_fields_snoc earlier signal opened]
        exact (repeats_kept earlier before request signal there held
          (repeats earlier signal before (List.prefix_refl _) present)).fields

theorem advance_some (request : Request) (signal : Signal) : ∃ after, advance (some request) signal = some after := by
  cases signal <;> exact ⟨_, rfl⟩

theorem request_kept_iff (settings : H2Settings) (events : List Event) (id : UInt32) :
    (∀ before event conn conn' stream stream', Taken H2Connection.step (.new settings) events before event conn conn' →
      conn.getStream id = some stream → conn'.getStream id = some stream' →
      Kept (signals id (.new settings) before) stream.request stream'.request) ↔
    ∀ before event conn conn' stream signal, Taken H2Connection.step (.new settings) events before event conn conn' →
      conn.getStream id = some stream → conn.signal id event = some signal →
      Repeats (signals id (.new settings) before) stream.request signal := by
  constructor
  · intro keeps before event conn conn' stream signal there found meant
    have stepped := step_request conn conn' event id there.taken
    obtain ⟨after, advanced⟩ := advance_some stream.request signal
    rw [found_request conn id stream found, meant] at stepped
    obtain ⟨stream', found', rfl⟩ := request_found conn' id after (stepped.trans advanced)
    exact kept_repeats _ _ _ signal advanced (keeps before event conn conn' stream stream' there found found')
  · intro repeats before event conn conn' stream stream' there found found'
    have present : follow none (signals id (.new settings) before) = some stream.request :=
      (run_request _ conn before id there.reached).symm.trans (found_request conn id stream found)
    have held : (firstFields (signals id (.new settings) before)).Subperm stream.request.headers := by
      refine first_fields_held _ (fun past signal request within followed => ?_) stream.request present
      -- An earlier signal comes from an earlier step, which repeats as well.
      obtain ⟨first, other, c, c', earlier, meant, rfl⟩ := signal_taken id _ conn before past signal there.reached within
      obtain ⟨_, found, rfl⟩ := request_found c id request ((run_request _ c first id earlier.reached).trans followed)
      have onward := earlier.within.trans ((List.prefix_append before [event]).trans there.within)
      exact repeats first other c c' _ signal ⟨onward, earlier.reached, earlier.taken⟩ found meant
    have stepped := step_request conn conn' event id there.taken
    rw [found_request conn id stream found, found_request conn' id stream' found'] at stepped
    cases meant : conn.signal id event with
    | none =>
        rw [meant] at stepped
        rw [Option.some.inj stepped]
        exact ⟨held, fun _ => ⟨rfl, rfl⟩⟩
    | some signal =>
        rw [meant] at stepped
        exact repeats_kept _ _ _ signal stepped.symm held (repeats before event conn conn' stream signal there found meant)

-- HEADERS arrive again on a stream whose request has ended.
theorem second_headers_replace : ∃ conn conn' stream stream', Taken H2Connection.step (.new {})
      [.receive (.headers 1 true true [0x82]), .receive (.headers 1 false true [0x84])] [.receive (.headers 1 true true [0x82])]
      (.receive (.headers 1 false true [0x84])) conn conn' ∧
    conn.getStream 1 = some stream ∧ conn'.getStream 1 = some stream' ∧
    stream.requestHeaders = [(":method", "GET")] ∧ stream'.requestHeaders = [(":path", "/")] ∧
    ¬ Kept (signals 1 (.new {}) [.receive (.headers 1 true true [0x82])]) stream.request stream'.request := by
  refine ⟨_, _, _, _, ⟨List.prefix_refl _, rfl, rfl⟩, rfl, rfl, rfl, rfl, fun kept => ?_⟩
  have same : [((":path", "/") : Header)] = [(":method", "GET")] := (kept.whole rfl).1
  exact absurd same (by decide)

end Ners.H2

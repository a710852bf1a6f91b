import Ners.Base.Conduit
import Ners.H2.Session
import Mathlib.Logic.Function.Basic

set_option autoImplicit false

namespace Ners.H2

open Function (update)
open Hpack (Header HpackEncoder)
open Conduit (Carries)

-- Two connections that write to each other.
inductive Side where
  | near
  | far
deriving DecidableEq

def Side.peer : Side → Side
  | .near => .far
  | .far => .near

-- What went to the outgoing frames of a connection, and why.
inductive Saying where
  | settings (localSettings : H2Settings)
  | ack
  | pong (bytes : Vector UInt8 8)
  | call (encoder : HpackEncoder) (call : SendCall)

def Saying.frame : Saying → Frame
  | .settings own => .settings false [(0x1, own.headerTableSize), (0x3, own.maxConcurrentStreams), (0x4, own.initialWindowSize),
      (0x5, own.maxFrameSize)]
  | .ack => .settings true []
  | .pong bytes => .ping true bytes
  | .call encoder sent => (sent.frame encoder).1

def Frame.answers : Frame → List Saying
  | .settings false _ => [.ack]
  | .ping false bytes => [.pong bytes]
  | _ => []

-- `flight` holds the bytes on their way to the party, `buf` those it has read
-- and not parsed. `said` and `heard` keep the history.
structure Party where
  conn : H2Connection
  buf : Bytes
  flight : Bytes
  said : List Saying
  heard : Nat

abbrev Link := Side → Party

def Link.new (settings : Side → H2Settings) : Link := fun side => ⟨.new (settings side), [], [], [], 0⟩

inductive LinkAction where
  | preface (side : Side) (data : Bytes)
  | send (side : Side) (call : SendCall)
  | flush (side : Side)
  | arrive (side : Side) (n : Nat)
  | poll (side : Side)

-- One turn of the loop over Frame::parse. A call that fails has no result here.
def Party.poll (p : Party) : Option Party :=
  match Frame.parse p.buf with
  | (.error _, _) => none
  | (.ok none, left) => some { p with buf := left }
  | (.ok (some frame), left) =>
      match p.conn.processFrame frame with
      | .ok (.ok _, conn) => some { p with conn := conn, buf := left, said := p.said ++ frame.answers, heard := p.heard + 1 }
      | _ => none

def Link.step (link : Link) : LinkAction → Option Link
  | .preface side data =>
      let p := link side
      let (found, conn) := p.conn.processPreface data
      some (update link side { p with
        conn := conn
        said := if found then p.said ++ [.settings p.conn.localSettings] else p.said })
  | .send side call =>
      let p := link side
      some (update link side { p with conn := p.conn.send call, said := p.said ++ [.call p.conn.hpackEncoder call] })
  | .flush side =>
      let p := link side
      let written := update link side { p with conn := p.conn.takeOutgoing.2 }
      let q := link side.peer
      some (update written side.peer { q with flight := q.flight ++ serializeAll p.conn.takeOutgoing.1 })
  | .arrive side n =>
      let p := link side
      some (update link side { p with buf := p.buf ++ p.flight.take n, flight := p.flight.drop n })
  | .poll side => (link side).poll.map fun p => update link side p

def callsIn (said : List Saying) : List SendCall :=
  said.filterMap fun
    | .call _ call => some call
    | _ => none

def Party.heardFrom (p q : Party) : List Saying := q.said.take p.heard

-- What send_headers and send_data rely on their caller for.
def Sayable (p : Party) (call : SendCall) : Prop :=
  call.Follows (callsIn p.said) ∧ call.Allocated ∧ call.streamId.toNat < 2 ^ 31 ∧
    (call.frame p.conn.hpackEncoder).1.payload.length < 2 ^ 24

def Link.allows (link : Link) : LinkAction → Prop
  | .send side call => Sayable (link side) call
  | _ => True

instance (link : Link) (action : LinkAction) : Decidable (link.allows action) :=
  match action with
  | .send side call => inferInstanceAs (Decidable (call.Follows (callsIn (link side).said) ∧ call.Allocated ∧
      call.streamId.toNat < 2 ^ 31 ∧ (call.frame (link side).conn.hpackEncoder).1.payload.length < 2 ^ 24))
  | .preface _ _ | .flush _ | .arrive _ _ | .poll _ => isTrue trivial

-- A stream whose requester has ended it or has not.
def Awaits (ended : Bool) (state : StreamState) : Prop :=
  if ended then state = .halfClosedRemote ∨ state = .closed else state = .open ∨ state = .halfClosedLocal

def Hears (calls : List SendCall) (conn : H2Connection) : Prop :=
  ∀ id, match conn.request id with
    | none => headersSent id calls = none
    | some request => headersSent id calls = some request.headers ∧ request.body = bodySent id calls ∧
        Awaits (endSent id calls) request.state

def H2Settings.adopt (remote peer : H2Settings) : H2Settings :=
  { remote with
    headerTableSize := peer.headerTableSize
    maxConcurrentStreams := peer.maxConcurrentStreams
    initialWindowSize := peer.initialWindowSize
    maxFrameSize := peer.maxFrameSize }

def Saying.isSettings : Saying → Bool
  | .settings _ => true
  | _ => false

def Saying.isAck : Saying → Bool
  | .ack => true
  | _ => false

def SendCall.meaning (id : UInt32) : SendCall → Option Signal
  | .headers streamId fields endStream => if streamId = id then some (.headers fields endStream) else none
  | .data streamId bytes endStream => if streamId = id then some (.data bytes endStream) else none

theorem meaning_other (id : UInt32) (call : SendCall) (other : call.streamId ≠ id) : call.meaning id = none := by
  cases call with
  | headers streamId fields endStream => exact if_neg other
  | data streamId bytes endStream => exact if_neg other

theorem hears_call (calls : List SendCall) (call : SendCall) (conn conn' : H2Connection) (hears : Hears calls conn)
    (follows : call.Follows calls) (after : ∀ id, conn'.request id = follow (conn.request id) (call.meaning id).toList) :
    Hears (calls ++ [call]) conn' := by
  intro id
  have before := hears id
  by_cases mine : call.streamId = id
  · cases call with
    | headers streamId fields endStream =>
        obtain rfl : streamId = id := mine
        obtain ⟨noHeaders, noBody, noEnd⟩ := untouched_stream streamId calls follows
        have fresh : conn.request streamId = none := by
          cases found : conn.request streamId with
          | none => rfl
          | some request =>
              simp only [found, noHeaders] at before
              cases before.1
        have opened : conn'.request streamId = some ⟨if endStream then .halfClosedRemote else .open, fields, []⟩ := by
          rw [after, fresh, SendCall.meaning, if_pos rfl]
          cases endStream <;> rfl
        simp only [opened]
        refine ⟨?_, ?_, ?_⟩
        · rw [headers_sent_append, noHeaders]
          simp [headersSent]
        · rw [body_sent_append, noBody]
          simp [bodySent]
        · rw [end_sent_append, noEnd]
          cases endStream <;> simp [endSent, SendCall.streamId, SendCall.endStream, Awaits]
    | data streamId bytes endStream =>
        obtain rfl : streamId = id := mine
        obtain ⟨opened, going⟩ := follows
        cases found : conn.request streamId with
        | none =>
            simp only [found] at before
            rw [before] at opened
            cases opened
        | some request =>
            simp only [found, going] at before
            obtain ⟨fields, body, awaits⟩ := before
            have receives : request.state.receives = true := by
              rcases awaits with state | state <;> rw [StreamState.receives, state] <;> rfl
            have next : conn'.request streamId =
                some ⟨if endStream then request.state.endReceive else request.state, request.headers, request.body ++ bytes⟩ := by
              rw [after, found, SendCall.meaning, if_pos rfl, Option.toList_some, follow, List.foldl_cons, List.foldl_nil, advance,
                Option.map_some, if_pos receives]
            simp only [next]
            refine ⟨?_, ?_, ?_⟩
            · rw [headers_sent_append, fields, Option.some_or]
            · rw [body_sent_append, body]
              simp [bodySent]
            · rw [end_sent_append, going]
              rcases awaits with state | state <;> rw [state] <;>
                cases endStream <;> simp [endSent, SendCall.streamId, SendCall.endStream, Awaits, StreamState.endReceive]
  · obtain ⟨noHeaders, noBody, noEnd⟩ := other_stream id call mine
    rw [after, meaning_other id call mine, headers_sent_append, body_sent_append, end_sent_append, noHeaders, noBody, noEnd,
      Option.or_none, List.append_nil, Bool.or_false]
    exact before

theorem hears_same (calls : List SendCall) (conn conn' : H2Connection) (hears : Hears calls conn)
    (same : ∀ id, conn'.request id = conn.request id) : Hears calls conn' := by
  intro id
  rw [same]
  exact hears id

theorem awaits_sent (ended : Bool) (state : StreamState) (awaits : Awaits ended state) : Awaits ended state.endSend := by
  cases ended with
  | false => rcases awaits with rfl | rfl <;> exact .inr rfl
  | true => rcases awaits with rfl | rfl <;> exact .inr rfl

-- The side that is sent to does not read what it sends itself.
theorem hears_send (calls : List SendCall) (conn : H2Connection) (call : SendCall) (hears : Hears calls conn) :
    Hears calls (conn.send call) := by
  intro id
  have before := hears id
  rw [send_request, H2Connection.signal, follow_one]
  by_cases ending : call.streamId = id ∧ call.endStream = true
  · rw [if_pos ending]
    cases found : conn.request id with
    | none =>
        simp only [found] at before
        exact before
    | some request =>
        simp only [found] at before
        exact ⟨before.1, before.2.1, awaits_sent _ _ before.2.2⟩
  · rw [if_neg ending]
    exact before

theorem answers_replies (frame : Frame) : frame.answers.map Saying.frame = frame.replies := by
  cases frame with
  | settings ack pairs => cases ack <;> rfl
  | ping ack bytes => cases ack <;> rfl
  | _ => rfl

-- What a connection makes of what it has heard.
structure Ear (conn : H2Connection) (said heard : List Saying) (peer : H2Settings) : Prop where
  requests : Hears (callsIn heard) conn
  remote : conn.remoteSettings = if heard.any Saying.isSettings then H2Settings.adopt {} peer else {}
  acked : conn.settingsAcked = heard.any Saying.isAck
  answers : said.countP Saying.isAck = heard.countP Saying.isSettings

-- What the other side may have said next.
structure Proper (heard : List Saying) (peer : H2Settings) (saying : Saying) : Prop where
  settings : ∀ own, saying = .settings own → own = peer
  calls : ∀ encoder call, saying = .call encoder call → call.Follows (callsIn heard) ∧ call.Allocated

theorem calls_snoc (heard : List Saying) (saying : Saying) (silent : ∀ encoder call, saying ≠ .call encoder call) :
    callsIn (heard ++ [saying]) = callsIn heard := by
  cases saying with
  | call encoder call => exact absurd rfl (silent encoder call)
  | _ => simp [callsIn]

theorem quiet_hears (conn conn' : H2Connection) (heard : List Saying) (saying : Saying) (hears : Hears (callsIn heard) conn)
    (processed : conn.processFrame saying.frame = .ok (.ok (), conn')) (silent : ∀ encoder call, saying ≠ .call encoder call)
    (meaningless : ∀ id, conn.signal id (.receive saying.frame) = none) : Hears (callsIn (heard ++ [saying])) conn' := by
  rw [calls_snoc heard saying silent]
  refine hears_same _ conn conn' hears fun id => ?_
  rw [step_request conn conn' (.receive saying.frame) id (by rw [H2Connection.step, processed]), meaningless]
  rfl

theorem settings_heard (conn : H2Connection) (said heard : List Saying) (peer : H2Settings) (ear : Ear conn said heard peer) :
    ∃ conn', conn.processFrame (Saying.settings peer).frame = .ok (.ok (), conn') ∧
      Ear conn' (said ++ (Saying.settings peer).frame.answers) (heard ++ [.settings peer]) peer := by
  refine ⟨_, rfl, quiet_hears conn _ heard (.settings peer) ear.requests rfl nofun fun _ => rfl, ?_, ?_, ?_⟩
  · have adopted : (conn.remoteSettings.adopt peer) = H2Settings.adopt {} peer := by
      rw [ear.remote]
      split <;> rfl
    rw [List.any_append, List.any_cons, Saying.isSettings, Bool.true_or, Bool.or_true, if_pos rfl, ← adopted]
    rfl
  · rw [List.any_append, ← ear.acked]
    exact (Bool.or_false _).symm
  · rw [List.countP_append, List.countP_append, ear.answers]
    rfl

theorem ack_heard (conn : H2Connection) (said heard : List Saying) (peer : H2Settings) (ear : Ear conn said heard peer) :
    ∃ conn', conn.processFrame Saying.ack.frame = .ok (.ok (), conn') ∧
      Ear conn' (said ++ Saying.ack.frame.answers) (heard ++ [.ack]) peer := by
  refine ⟨_, rfl, quiet_hears conn _ heard .ack ear.requests rfl nofun fun _ => rfl, ?_, ?_, ?_⟩
  · rw [List.any_append]
    exact ear.remote.trans (by simp [Saying.isSettings])
  · rw [List.any_append]
    simp [Saying.isAck]
  · rw [List.countP_append, List.countP_append, ear.answers]
    rfl

theorem pong_heard (conn : H2Connection) (said heard : List Saying) (peer : H2Settings) (bytes : Vector UInt8 8)
    (ear : Ear conn said heard peer) :
    ∃ conn', conn.processFrame (Saying.pong bytes).frame = .ok (.ok (), conn') ∧
      Ear conn' (said ++ (Saying.pong bytes).frame.answers) (heard ++ [.pong bytes]) peer := by
  refine ⟨_, rfl, quiet_hears conn _ heard (.pong bytes) ear.requests rfl nofun fun _ => rfl, ?_, ?_, ?_⟩
  · rw [List.any_append]
    exact ear.remote.trans (by simp [Saying.isSettings])
  · rw [List.any_append]
    exact ear.acked.trans (by simp [Saying.isAck])
  · rw [List.countP_append, List.countP_append, ear.answers]
    rfl

-- HEADERS and DATA touch neither the settings nor what is said.
structure Aside (conn conn' : H2Connection) : Prop where
  remote : conn'.remoteSettings = conn.remoteSettings
  acked : conn'.settingsAcked = conn.settingsAcked

theorem call_processed (conn : H2Connection) (encoder : HpackEncoder) (call : SendCall) (short : call.Allocated) :
    ∃ conn', conn.processFrame (call.frame encoder).1 = .ok (.ok (), conn') ∧ Aside conn conn' ∧
      ∀ id, conn.signal id (.receive (call.frame encoder).1) = call.meaning id := by
  cases call with
  | headers streamId fields endStream =>
      obtain ⟨decoder, walk, _⟩ := Hpack.decode_encoded fields short encoder conn.hpackDecoder
      have decoded := Hpack.walk_to_end _ _ _ _ walk
      refine ⟨_, process_headers conn streamId endStream true _ fields decoder decoded, ⟨rfl, rfl⟩, fun id => ?_⟩
      simp only [SendCall.frame, H2Connection.signal, decoded, SendCall.meaning]
  | data streamId bytes endStream =>
      simp only [SendCall.frame, H2Connection.processFrame]
      cases conn.streams.lookup streamId with
      | none => exact ⟨conn, rfl, ⟨rfl, rfl⟩, fun _ => rfl⟩
      | some stream =>
          by_cases receives : stream.canReceive = true
          · simp only [if_pos receives]
            exact ⟨_, rfl, ⟨rfl, rfl⟩, fun _ => rfl⟩
          · simp only [if_neg receives]
            exact ⟨conn, rfl, ⟨rfl, rfl⟩, fun _ => rfl⟩

theorem call_heard (conn : H2Connection) (said heard : List Saying) (peer : H2Settings) (encoder : HpackEncoder) (call : SendCall)
    (ear : Ear conn said heard peer) (follows : call.Follows (callsIn heard)) (short : call.Allocated) :
    ∃ conn', conn.processFrame (Saying.call encoder call).frame = .ok (.ok (), conn') ∧
      Ear conn' (said ++ (Saying.call encoder call).frame.answers) (heard ++ [.call encoder call]) peer := by
  obtain ⟨conn', processed, aside, meant⟩ := call_processed conn encoder call short
  have silent : (call.frame encoder).1.answers = [] := by cases call <;> rfl
  have calls : callsIn (heard ++ [.call encoder call]) = callsIn heard ++ [call] := by
    rw [callsIn, List.filterMap_append]
    rfl
  refine ⟨conn', processed, ?_, ?_, ?_, ?_⟩
  · rw [calls]
    refine hears_call _ call conn conn' ear.requests follows fun id => ?_
    rw [step_request conn conn' (.receive (call.frame encoder).1) id (by rw [H2Connection.step, processed]), meant]
  · rw [aside.remote, List.any_append]
    exact ear.remote.trans (by simp [Saying.isSettings])
  · rw [aside.acked, List.any_append]
    exact ear.acked.trans (by simp [Saying.isAck])
  · rw [Saying.frame, silent, List.append_nil, List.countP_append, ear.answers]
    rfl

theorem saying_heard (conn : H2Connection) (said heard : List Saying) (peer : H2Settings) (saying : Saying)
    (ear : Ear conn said heard peer) (proper : Proper heard peer saying) :
    ∃ conn', conn.processFrame saying.frame = .ok (.ok (), conn') ∧
      Ear conn' (said ++ saying.frame.answers) (heard ++ [saying]) peer := by
  cases saying with
  | settings own =>
      obtain rfl := proper.settings own rfl
      exact settings_heard conn said heard own ear
  | ack => exact ack_heard conn said heard peer ear
  | pong bytes => exact pong_heard conn said heard peer bytes ear
  | call encoder call =>
      obtain ⟨follows, short⟩ := proper.calls encoder call rfl
      exact call_heard conn said heard peer encoder call ear follows short

-- What a connection has said: its own settings, and calls in their order.
structure Voice (conn : H2Connection) (said : List Saying) (own : H2Settings) : Prop where
  settings : ∀ front saying later, said = front ++ saying :: later → Proper front own saying
  fits : ∀ saying ∈ said, saying.frame.Fits
  localSettings : conn.localSettings = own

theorem voice_speaks (conn conn' : H2Connection) (said : List Saying) (own : H2Settings) (saying : Saying)
    (voice : Voice conn said own) (proper : Proper said own saying) (fits : saying.frame.Fits)
    (same : conn'.localSettings = conn.localSettings) : Voice conn' (said ++ [saying]) own := by
  refine ⟨fun front other later split => ?_, fun other member => ?_, same.trans voice.localSettings⟩
  · rcases List.append_eq_append_iff.mp split with ⟨more, parts, rest⟩ | ⟨more, parts, rest⟩
    · cases more with
      | nil =>
          obtain ⟨rfl, _⟩ := List.cons.inj rest
          rw [List.append_nil] at parts
          exact parts ▸ proper
      | cons first more => simp at rest
    · cases more with
      | nil =>
          obtain ⟨rfl, _⟩ := List.cons.inj rest
          rw [List.append_nil] at parts
          exact parts ▸ proper
      | cons first more =>
          obtain ⟨rfl, _⟩ := List.cons.inj rest
          exact voice.settings front other more parts
  · rcases List.mem_append.mp member with old | new
    · exact voice.fits other old
    · exact List.mem_singleton.mp new ▸ fits

theorem whole_connection : (0 : UInt32).toNat < 2 ^ 31 := by decide

theorem voice_answers (conn conn' : H2Connection) (said : List Saying) (own : H2Settings) (frame : Frame) (voice : Voice conn said own)
    (same : conn'.localSettings = conn.localSettings) : Voice conn' (said ++ frame.answers) own := by
  have unsaid : Voice conn' (said ++ []) own := by
    rw [List.append_nil]
    exact ⟨voice.settings, voice.fits, same.trans voice.localSettings⟩
  cases frame with
  | settings ack pairs =>
      cases ack with
      | true => exact unsaid
      | false => exact voice_speaks conn conn' said own .ack voice ⟨nofun, nofun⟩ ⟨whole_connection, by decide, trivial⟩ same
  | ping ack bytes =>
      cases ack with
      | true => exact unsaid
      | false =>
          refine voice_speaks conn conn' said own (.pong bytes) voice ⟨nofun, nofun⟩ ⟨whole_connection, ?_, trivial⟩ same
          rw [Saying.frame, Frame.payload, Frame.parts, Vector.length_toList]
          decide
  | _ => exact unsaid

-- One direction of a link.
structure Hearing (p q : Party) (own : H2Settings) : Prop where
  voice : Voice p.conn p.said own
  bound : q.heard ≤ p.said.length
  ear : Ear q.conn q.said (q.heardFrom p) own
  carried : Carries Frame.wire (p.said.map Saying.frame) ((q.heardFrom p).map Saying.frame) p.conn.outgoing q.flight q.buf

def Link.Joined (settings : Side → H2Settings) (link : Link) : Prop := ∀ side, Hearing (link side) (link side.peer) (settings side)

theorem peer_peer (side : Side) : side.peer.peer = side := by cases side <;> rfl

theorem joined_other (settings : Side → H2Settings) (link : Link) (side : Side) (joined : link.Joined settings) :
    Hearing (link side.peer) (link side) (settings side.peer) := by
  have there := joined side.peer
  rwa [peer_peer] at there

theorem joined_both (settings : Side → H2Settings) (link : Link) (side : Side) (p q : Party) (here : Hearing p q (settings side))
    (there : Hearing q p (settings side.peer)) : Link.Joined settings (update (update link side p) side.peer q) := by
  intro other
  cases side <;> cases other <;> assumption

theorem joined_one (settings : Side → H2Settings) (link : Link) (side : Side) (p : Party)
    (here : Hearing p (link side.peer) (settings side)) (there : Hearing (link side.peer) p (settings side.peer)) :
    Link.Joined settings (update link side p) := by
  intro other
  cases side <;> cases other <;> assumption

-- A party says something more.
theorem says_hearing (p p' q : Party) (own : H2Settings) (more : List Saying) (hearing : Hearing p q own)
    (said : p'.said = p.said ++ more) (voice : Voice p'.conn p'.said own)
    (outgoing : p'.conn.outgoing = p.conn.outgoing ++ more.map Saying.frame) : Hearing p' q own := by
  have heard : q.heardFrom p' = q.heardFrom p := by
    rw [Party.heardFrom, said]
    exact List.take_append_of_le_length hearing.bound
  refine ⟨voice, ?_, heard ▸ hearing.ear, ?_⟩
  · rw [said, List.length_append]
    exact Nat.le_add_right_of_le hearing.bound
  · rw [heard, outgoing, said, List.map_append]
    exact Conduit.carries_say _ _ _ _ _ _ hearing.carried

theorem saying_hearing (p q : Party) (conn : H2Connection) (own : H2Settings) (saying : Saying) (hearing : Hearing q p own)
    (other : saying.isAck = false) (hears : Hears (callsIn (p.heardFrom q)) conn)
    (remote : conn.remoteSettings = p.conn.remoteSettings) (acked : conn.settingsAcked = p.conn.settingsAcked) :
    Hearing q { p with conn := conn, said := p.said ++ [saying] } own := by
  refine ⟨hearing.voice, hearing.bound, ⟨hears, remote.trans hearing.ear.remote, acked.trans hearing.ear.acked, ?_⟩, hearing.carried⟩
  rw [List.countP_append, List.countP_singleton, other]
  exact hearing.ear.answers

theorem preface_joined (settings : Side → H2Settings) (link : Link) (side : Side) (data : Bytes) (joined : link.Joined settings) :
    Link.Joined settings (update link side { link side with
      conn := ((link side).conn.processPreface data).2
      said := if ((link side).conn.processPreface data).1 then (link side).said ++ [.settings (link side).conn.localSettings]
        else (link side).said }) := by
  have here := joined side
  have there := joined_other settings link side joined
  by_cases found : h2Preface.length ≤ data.length ∧ data.take h2Preface.length = h2Preface
  · rw [H2Connection.processPreface, if_pos found, if_pos rfl]
    refine joined_one settings link side _ (says_hearing _ _ _ _ _ here rfl (voice_speaks _ _ _ _ _ here.voice ⟨fun own same => ?_, nofun⟩
      ⟨whole_connection, ?_, trivial⟩ rfl) rfl) (saying_hearing _ _ _ _ _ there rfl there.ear.requests rfl rfl)
    · rw [← Saying.settings.inj same]
      exact here.voice.localSettings
    · simp [Saying.frame, Frame.payload, Frame.parts, putU16, putU32]
  · rw [H2Connection.processPreface, if_neg found, if_neg Bool.false_ne_true]
    exact joined_one settings link side _ here there

theorem send_joined (settings : Side → H2Settings) (link : Link) (side : Side) (call : SendCall) (joined : link.Joined settings)
    (sayable : Sayable (link side) call) : Link.Joined settings (update link side { link side with
      conn := (link side).conn.send call
      said := (link side).said ++ [.call (link side).conn.hpackEncoder call] }) := by
  obtain ⟨follows, short, id, length⟩ := sayable
  have here := joined side
  have there := joined_other settings link side joined
  have kept : ((link side).conn.send call).localSettings = (link side).conn.localSettings ∧
      ((link side).conn.send call).remoteSettings = (link side).conn.remoteSettings ∧
      ((link side).conn.send call).settingsAcked = (link side).conn.settingsAcked := by cases call <;> exact ⟨rfl, rfl, rfl⟩
  refine joined_one settings link side _ (says_hearing _ _ _ _ _ here rfl (voice_speaks _ _ _ _ _ here.voice
    ⟨nofun, fun encoder other same => ?_⟩ ?_ kept.1) (send_frame _ call).1)
    (saying_hearing _ _ _ _ _ there rfl (hears_send _ _ call there.ear.requests) kept.2.1 kept.2.2)
  · obtain ⟨_, rfl⟩ := Saying.call.inj same
    exact ⟨follows, short⟩
  · cases call <;> exact ⟨id, length, trivial⟩

theorem flush_joined (settings : Side → H2Settings) (link : Link) (side : Side) (joined : link.Joined settings) :
    Link.Joined settings (update (update link side { link side with conn := (link side).conn.takeOutgoing.2 }) side.peer
      { link side.peer with flight := (link side.peer).flight ++ serializeAll (link side).conn.takeOutgoing.1 }) := by
  have here := joined side
  have there := joined_other settings link side joined
  refine joined_both settings link side _ _ ⟨⟨here.voice.settings, here.voice.fits, here.voice.localSettings⟩, here.bound, here.ear, ?_⟩
    ⟨there.voice, there.bound, ⟨there.ear.requests, there.ear.remote, there.ear.acked, there.ear.answers⟩, there.carried⟩
  rw [serialize_all_stream]
  exact Conduit.carries_write _ _ _ _ _ here.carried

theorem arrive_joined (settings : Side → H2Settings) (link : Link) (side : Side) (n : Nat) (joined : link.Joined settings) :
    Link.Joined settings (update link side { link side with
      buf := (link side).buf ++ (link side).flight.take n
      flight := (link side).flight.drop n }) := by
  have here := joined side
  have there := joined_other settings link side joined
  exact joined_one settings link side _ ⟨here.voice, here.bound, here.ear, here.carried⟩
    ⟨there.voice, there.bound, there.ear, Conduit.carries_arrive _ _ _ _ _ n there.carried⟩

-- The message behind the next frame.
theorem next_saying (said : List Saying) (k : Nat) (frame : Frame) (rest : List Frame)
    (parts : said.map Saying.frame = (said.take k).map Saying.frame ++ frame :: rest) :
    ∃ saying later, saying.frame = frame ∧ said = said.take k ++ saying :: later ∧ said.take (k + 1) = said.take k ++ [saying] ∧
      k < said.length := by
  have behind : (said.drop k).map Saying.frame = frame :: rest := by
    rw [← List.take_append_drop k said, List.map_append, List.take_append_drop k said] at parts
    exact List.append_cancel_left parts
  obtain ⟨saying, later, dropped, same, _⟩ := List.map_eq_cons_iff.mp behind
  have there : said[k]? = some saying := by
    have first : (said.drop k)[0]? = said[k + 0]? := List.getElem?_drop
    rw [dropped] at first
    exact first.symm
  refine ⟨saying, later, same, ?_, ?_, (List.getElem?_eq_some_iff.mp there).1⟩
  · rw [← dropped, List.take_append_drop]
  · rw [List.take_add_one, there, Option.toList_some]

theorem poll_joined (settings : Side → H2Settings) (link : Link) (side : Side) (joined : link.Joined settings) :
    ∃ p', (link side).poll = some p' ∧ Link.Joined settings (update link side p') := by
  have here := joined side
  have there := joined_other settings link side joined
  have fits : ∀ frame ∈ (link side.peer).said.map Saying.frame, frame.Fits := by
    intro frame member
    obtain ⟨saying, said, rfl⟩ := List.mem_map.mp member
    exact there.voice.fits saying said
  rcases Conduit.carries_parse _ _ _ _ _ frames_delimit fits there.carried with none | ⟨frame, left, parsed, carried⟩
  · refine ⟨link side, by simp only [Party.poll, none], ?_⟩
    rw [Function.update_eq_self]
    exact joined
  · obtain ⟨between, parts, _⟩ := id carried
    rw [List.append_assoc, List.append_assoc] at parts
    obtain ⟨saying, later, rfl, split, longer, within⟩ := next_saying _ _ _ _ parts
    obtain ⟨conn, processed, ear⟩ := saying_heard _ _ _ _ saying there.ear (there.voice.settings _ saying later split)
    have effect := frame_effect _ conn _ _ processed
    refine ⟨{ link side with
      conn := conn
      buf := left
      said := (link side).said ++ saying.frame.answers
      heard := (link side).heard + 1 }, by simp only [Party.poll, parsed, processed], joined_one settings link side _ ?_ ?_⟩
    · refine says_hearing _ _ _ _ _ here rfl (voice_answers _ conn _ _ _ here.voice effect.localSettings) ?_
      rw [answers_replies]
      exact effect.outgoing
    · refine ⟨there.voice, within, ?_, ?_⟩
      · rw [Party.heardFrom, longer]
        exact ear
      · rw [Party.heardFrom, longer, List.map_append]
        exact carried

theorem step_joined (settings : Side → H2Settings) (link : Link) (action : LinkAction) (joined : link.Joined settings)
    (may : link.allows action) : ∃ link', link.step action = some link' ∧ Link.Joined settings link' := by
  cases action with
  | preface side data => exact ⟨_, rfl, preface_joined settings link side data joined⟩
  | send side call => exact ⟨_, rfl, send_joined settings link side call joined may⟩
  | flush side =>
      refine ⟨_, ?_, flush_joined settings link side joined⟩
      exact congrArg some (congrArg _ (by cases side <;> rfl))
  | arrive side n => exact ⟨_, rfl, arrive_joined settings link side n joined⟩
  | poll side =>
      obtain ⟨p', polled, kept⟩ := poll_joined settings link side joined
      exact ⟨_, by simp only [Link.step, polled, Option.map_some], kept⟩

theorem new_joined (settings : Side → H2Settings) : (Link.new settings).Joined settings := by
  intro side
  refine ⟨⟨fun front saying later split => ?_, nofun, rfl⟩, Nat.le_refl _, ⟨fun _ => rfl, rfl, rfl, rfl⟩, Conduit.carries_start⟩
  cases front <;> cases split

theorem run_joined (settings : Side → H2Settings) (link : Link) (run : Runs.Run Link.step Link.allows (.new settings) link) :
    link.Joined settings := by
  refine Runs.run_invariant (fun link => link.Joined settings) _ link run (new_joined settings) fun link action link' joined may taken => ?_
  obtain ⟨after, stepped, kept⟩ := step_joined settings link action joined may
  exact Option.some.inj (stepped.symm.trans taken) ▸ kept

-- All that a side has said has been heard.
structure Link.Settled (link : Link) (side : Side) : Prop where
  written : (link side).conn.outgoing = []
  arrived : (link side.peer).flight = []
  parsed : Frame.parse (link side.peer).buf = (.ok none, (link side.peer).buf)

theorem settled_heard (settings : Side → H2Settings) (link : Link) (side : Side) (joined : link.Joined settings)
    (settled : link.Settled side) : (link side.peer).heardFrom (link side) = (link side).said := by
  have here := joined side
  have carried := here.carried
  rw [settled.written, settled.arrived] at carried
  have fits : ∀ frame ∈ (link side).said.map Saying.frame, frame.Fits := by
    intro frame member
    obtain ⟨saying, said, rfl⟩ := List.mem_map.mp member
    exact here.voice.fits saying said
  have lengths := congrArg List.length (Conduit.carries_settled _ _ _ frames_delimit fits carried settled.parsed).1
  rw [List.length_map, List.length_map, Party.heardFrom, List.length_take] at lengths
  exact List.take_of_length_le (by omega)

-- The streams of each side are what the other has said of them so far, in both
-- directions at once, and in the end all of it.
theorem link_reconstructs (settings : Side → H2Settings) (link : Link) (side : Side)
    (run : Runs.Run Link.step Link.allows (.new settings) link) :
    Hears (callsIn ((link side.peer).heardFrom (link side))) (link side.peer).conn ∧ (∃ p', (link side.peer).poll = some p') ∧
      (link.Settled side → Hears (callsIn (link side).said) (link side.peer).conn) := by
  have joined := run_joined settings link run
  have hears := (joined side).ear.requests
  refine ⟨hears, ?_, fun settled => ?_⟩
  · obtain ⟨p', polled, _⟩ := poll_joined settings link side.peer joined
    exact ⟨p', polled⟩
  · rwa [settled_heard settings link side joined settled] at hears

def unlikeSettings : Side → H2Settings
  | .near => { maxFrameSize := 32768 }
  | .far => {}

-- Both sides speak on one stream, and its bytes arrive in pieces.
def exchange : List LinkAction := [
  .preface .near h2Preface, .send .near (.headers 1 [("x", "y")] false), .flush .near, .send .near (.data 1 [0x61] true),
  .arrive .far 20, .poll .far, .flush .near, .arrive .far 100, .poll .far, .send .far (.headers 1 [] true), .poll .far, .poll .far,
  .flush .far, .arrive .near 100, .poll .near, .poll .near, .poll .near]

def exchanged : Link := (Runs.execute Link.step (.new unlikeSettings) exchange).getD (.new unlikeSettings)

set_option maxRecDepth 8000 in
theorem exchange_run : Runs.Run Link.step Link.allows (.new unlikeSettings) exchanged :=
  Runs.meets_run _ _ _ exchange .start (by decide) rfl

theorem exchange_reconstructs : callsIn (exchanged .near).said = [.headers 1 [("x", "y")] false, .data 1 [0x61] true] ∧
    Hears (callsIn (exchanged .near).said) (exchanged .far).conn :=
  ⟨rfl, (link_reconstructs unlikeSettings exchanged .near exchange_run).2.2 ⟨by decide, by decide, by decide⟩⟩

theorem acknowledged_settings_applied (settings : Side → H2Settings) (link : Link) (side : Side)
    (run : Runs.Run Link.step Link.allows (.new settings) link) :
    ((link side).conn.settingsAcked = true → (link side.peer).conn.remoteSettings = H2Settings.adopt {} (settings side)) ∧
      ((link side.peer).conn.remoteSettings = {} ∨ (link side.peer).conn.remoteSettings = H2Settings.adopt {} (settings side)) ∧
      (link.Settled side → link.Settled side.peer → (∃ own, .settings own ∈ (link side).said) → (link side).conn.settingsAcked = true) := by
  have joined := run_joined settings link run
  have here := joined side
  have there := joined_other settings link side joined
  have remote := here.ear.remote
  refine ⟨fun acked => ?_, ?_, fun settled back said => ?_⟩
  · rw [there.ear.acked, List.any_eq_true] at acked
    obtain ⟨saying, heard, ack⟩ := acked
    have answered : 0 < (link side.peer).said.countP Saying.isAck :=
      List.countP_pos_iff.mpr ⟨saying, List.mem_of_mem_take heard, ack⟩
    rw [here.ear.answers, List.countP_pos_iff] at answered
    rw [remote, if_pos (List.any_eq_true.mpr answered)]
  · split at remote
    · exact .inr remote
    · exact .inl remote
  · obtain ⟨own, said⟩ := said
    have heard := settled_heard settings link side joined settled
    have answered : 0 < (link side.peer).said.countP Saying.isAck := by
      rw [here.ear.answers, heard, List.countP_pos_iff]
      exact ⟨_, said, rfl⟩
    have back := settled_heard settings link side.peer joined back
    rw [peer_peer] at back
    rw [there.ear.acked, back, List.any_eq_true]
    exact List.countP_pos_iff.mp answered

theorem exchange_acknowledged : (exchanged .near).conn.settingsAcked = true ∧
    (exchanged .far).conn.remoteSettings = { maxFrameSize := 32768 } :=
  ⟨by decide, (acknowledged_settings_applied unlikeSettings exchanged .near exchange_run).1 (by decide)⟩

end Ners.H2

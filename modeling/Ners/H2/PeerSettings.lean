import Ners.H2.Windows

set_option autoImplicit false

namespace Ners.H2

open Runs (Reached Taken each_state_iff execute execute_one execute_snoc reached_invariant taken_before taken_cons taken_nil)
open Signed

-- A window that is the peer's setting and the stream's increments.
def Follows (settings : H2Settings) (history : List Event) (conn : H2Connection) : Prop :=
  ∀ id, (conn.getStream id).map (fun stream => stream.sendWindow.toInt) =
    (accountOf id settings history).map fun a => (conn.remoteSettings.initialWindowSize.toNat : Int) + a.increments

-- Values and partial sums that stay within 0..2^31-1, at each setting of each frame.
def Ranged (settings : H2Settings) (events : List Event) : Prop :=
  ∀ history conn, Cut events history → execute H2Connection.step (.new settings) history = some conn →
    conn.remoteSettings.initialWindowSize.toNat < 2 ^ 31 ∧
      ∀ id a, accountOf id settings history = some a → conn.remoteSettings.initialWindowSize.toNat + a.increments < 2 ^ 31

-- HEADERS open no stream while the peer's setting differs from the connection's own.
def H2Connection.OpensAlike (conn : H2Connection) : Event → Prop
  | .receive (.headers streamId _ _ headerBlock) =>
      ∀ fields decoder, conn.hpackDecoder.decode headerBlock = .ok (.ok fields, decoder) → conn.getStream streamId = none →
        conn.remoteSettings.initialWindowSize = conn.localSettings.initialWindowSize
  | _ => True

theorem follows_window (settings : H2Settings) (before : List Event) (conn : H2Connection) (id : UInt32) (stream : Stream)
    (follows : Follows settings before conn) (found : conn.getStream id = some stream) :
    ∃ a, accountOf id settings before = some a ∧
      stream.sendWindow.toInt = conn.remoteSettings.initialWindowSize.toNat + a.increments := by
  have here := follows id
  rw [found, Option.map_some, eq_comm, Option.map_eq_some_iff] at here
  obtain ⟨a, there, same⟩ := here
  exact ⟨a, there, same.symm⟩

theorem follows_none (settings : H2Settings) (before : List Event) (conn : H2Connection) (id : UInt32)
    (follows : Follows settings before conn) (unopened : conn.getStream id = none) : accountOf id settings before = none := by
  have here := follows id
  rw [unopened, Option.map_none, eq_comm, Option.map_eq_none_iff] at here
  exact here

theorem follows_snoc (settings : H2Settings) (before : List Event) (conn conn' : H2Connection) (event : Event)
    (reached : execute H2Connection.step (.new settings) before = some conn) :
    Follows settings (before ++ [event]) conn' ↔
      ∀ id, (conn'.getStream id).map (fun stream => stream.sendWindow.toInt) =
        (conn.account id event (accountOf id settings before)).map fun a =>
          (conn'.remoteSettings.initialWindowSize.toNat : Int) + a.increments := by
  constructor
  · intro follows id
    rw [← account_snoc id settings before conn event reached]
    exact follows id
  · intro every id
    rw [account_snoc id settings before conn event reached]
    exact every id

theorem follows_quiet (settings : H2Settings) (before : List Event) (conn conn' : H2Connection) (event : Event)
    (reached : execute H2Connection.step (.new settings) before = some conn) (follows : Follows settings before conn)
    (remote : conn'.remoteSettings.initialWindowSize = conn.remoteSettings.initialWindowSize)
    (account : ∀ id a, conn.account id event a = a)
    (streams : ∀ id, (conn'.getStream id).map Stream.sendWindow = (conn.getStream id).map Stream.sendWindow) :
    Follows settings (before ++ [event]) conn' := by
  refine (follows_snoc settings before conn conn' event reached).mpr fun id => ?_
  rw [account, remote, ← follows id]
  exact same_numbers _ _ _ (streams id)

theorem opened_follow_iff (settings : H2Settings) (before : List Event) (conn : H2Connection) (streamId : UInt32)
    (headers : List Hpack.Header) (endStream : Bool) (small : conn.remoteSettings.initialWindowSize.toNat < 2 ^ 31)
    (fresh : accountOf streamId settings before = none) :
    (some ((Stream.new streamId conn.localSettings.initialWindowSize.toInt32).receiveHeaders headers endStream)).map
        (fun stream => stream.sendWindow.toInt) =
      (some ((accountOf streamId settings before).getD ⟨0, 0⟩)).map
        (fun a => (conn.remoteSettings.initialWindowSize.toNat : Int) + a.increments) ↔
    conn.remoteSettings.initialWindowSize = conn.localSettings.initialWindowSize := by
  rw [fresh, Option.getD_none, Option.map_some, Option.map_some, Option.some.injEq, receive_headers_window, Nat.cast_zero,
    Int.add_zero]
  exact cast_agrees_iff conn.localSettings.initialWindowSize conn.remoteSettings.initialWindowSize small

theorem headers_follow (settings : H2Settings) (before : List Event) (conn conn' : H2Connection) (streamId : UInt32)
    (endStream endHeaders : Bool) (headerBlock : Bytes) (small : conn.remoteSettings.initialWindowSize.toNat < 2 ^ 31)
    (reached : execute H2Connection.step (.new settings) before = some conn) (follows : Follows settings before conn)
    (taken : conn.step (.receive (.headers streamId endStream endHeaders headerBlock)) = some conn') :
    Follows settings (before ++ [.receive (.headers streamId endStream endHeaders headerBlock)]) conn' ↔
      conn.OpensAlike (.receive (.headers streamId endStream endHeaders headerBlock)) := by
  have loop := receive_effect conn conn' _ taken
  have remote : conn'.remoteSettings.initialWindowSize = conn.remoteSettings.initialWindowSize := loop.initialWindowSize
  rw [follows_snoc settings before conn conn' _ reached, remote]
  simp only [loop.streams]
  by_cases decodes : ∃ fields decoder, conn.hpackDecoder.decode headerBlock = .ok (.ok fields, decoder)
  · obtain ⟨fields, decoder, decoded⟩ := decodes
    simp only [H2Connection.account, H2Connection.streamAfter, decoded]
    cases found : conn.getStream streamId with
    | some stream =>
        refine iff_of_true (fun id => ?_) fun fields decoder _ unopened => by rw [found] at unopened; cases unopened
        by_cases mine : streamId = id
        · subst mine
          obtain ⟨a, there, window⟩ := follows_window settings before conn streamId stream follows found
          rw [if_pos rfl, if_pos rfl, there, found, Option.getD_some, Option.getD_some, Option.map_some, Option.map_some,
            receive_headers_window, window]
        · rw [if_neg mine, if_neg mine]
          exact follows id
    | none =>
        have fresh := follows_none settings before conn streamId follows found
        have opens := opened_follow_iff settings before conn streamId fields endStream small fresh
        constructor
        · intro every fields' decoder' _ _
          have here := every streamId
          rw [if_pos rfl, if_pos rfl, found, Option.getD_none] at here
          exact opens.mp here
        · intro alike id
          by_cases mine : streamId = id
          · subst mine
            rw [if_pos rfl, if_pos rfl, found, Option.getD_none]
            exact opens.mpr (alike fields decoder decoded found)
          · rw [if_neg mine, if_neg mine]
            exact follows id
  · refine iff_of_true (fun id => ?_) fun fields decoder also => absurd ⟨fields, decoder, also⟩ decodes
    obtain ⟨account, stream⟩ := headers_undecoded conn streamId endStream endHeaders headerBlock
      (fun headers decoder also => decodes ⟨headers, decoder, also⟩) id (accountOf id settings before)
    rw [account, stream]
    exact follows id

theorem update_follows (settings : H2Settings) (before : List Event) (conn conn' : H2Connection) (streamId increment : UInt32)
    (reached : execute H2Connection.step (.new settings) before = some conn) (follows : Follows settings before conn)
    (taken : conn.step (.receive (.windowUpdate streamId increment)) = some conn')
    (ranged : ∀ id a, accountOf id settings (before ++ [.receive (.windowUpdate streamId increment)]) = some a →
      conn.remoteSettings.initialWindowSize.toNat + a.increments < 2 ^ 31) :
    Follows settings (before ++ [.receive (.windowUpdate streamId increment)]) conn' := by
  have loop := receive_effect conn conn' _ taken
  have remote : conn'.remoteSettings.initialWindowSize = conn.remoteSettings.initialWindowSize := loop.initialWindowSize
  refine (follows_snoc settings before conn conn' _ reached).mpr fun id => ?_
  have room := ranged id
  rw [account_snoc id settings before conn _ reached] at room
  rw [remote, loop.streams]
  simp only [H2Connection.account, H2Connection.streamAfter] at room ⊢
  by_cases mine : streamId ≠ 0 ∧ streamId = id
  · rw [if_pos mine] at room ⊢
    rw [if_pos mine]
    cases found : conn.getStream id with
    | none => rw [follows_none settings before conn id follows found, Option.map_none, Option.map_none, Option.map_none]; rfl
    | some stream =>
        obtain ⟨a, there, window⟩ := follows_window settings before conn id stream follows found
        rw [there] at room ⊢
        have sum := room _ rfl
        simp only at sum
        rw [Option.map_some, Option.map_some, Option.map_some, Option.map_some, Option.some.injEq]
        refine ((clamp_increment_iff stream.sendWindow increment (by omega)).mpr (by omega)).trans ?_
        rw [window]
        simp only
        omega
  · rw [if_neg mine, if_neg mine]
    exact follows id

theorem settings_follow (settings : H2Settings) (before : List Event) (conn conn' : H2Connection)
    (pairs : List (UInt16 × UInt32)) (reached : execute H2Connection.step (.new settings) before = some conn)
    (follows : Follows settings before conn) (taken : conn.step (.receive (.settings false pairs)) = some conn')
    (values : ∀ value ∈ conn.remoteSettings.initialWindowSize :: initialValues pairs, value.toNat < 2 ^ 31 ∧
      ∀ id a, accountOf id settings before = some a → value.toNat + a.increments < 2 ^ 31) :
    Follows settings (before ++ [.receive (.settings false pairs)]) conn' := by
  have loop := receive_effect conn conn' _ taken
  have remote : conn'.remoteSettings.initialWindowSize = latest 0x4 conn.remoteSettings.initialWindowSize pairs :=
    loop.initialWindowSize
  refine (follows_snoc settings before conn conn' _ reached).mpr fun id => ?_
  rw [remote, loop.streams]
  simp only [H2Connection.account, H2Connection.streamAfter]
  cases found : conn.getStream id with
  | none => rw [follows_none settings before conn id follows found, Option.map_none, Option.map_none, Option.map_none]; rfl
  | some stream =>
      obtain ⟨a, there, window⟩ := follows_window settings before conn id stream follows found
      have moved := settle_exact pairs conn.remoteSettings.initialWindowSize stream
        (fun x first y second => by
          have one := (values x first).1
          have two := (values y second).1
          constructor <;> omega)
        (fun value member => by
          have sum := (values value (List.mem_cons_of_mem _ member)).2 id a there
          rw [window]
          constructor <;> omega)
      rw [there, Option.map_some, Option.map_some, Option.map_some, Option.map_some, Option.some.injEq, moved, window]
      simp only
      omega

theorem cut_before (events before : List Event) (within : before <+: events) : Cut events before := by
  cases before using List.reverseRecOn with
  | nil => exact .start
  | append_singleton earlier event => exact .behind earlier event event within (.inl rfl)

-- The values that the windows of a connection are moved between by a frame.
theorem ranged_values (settings : H2Settings) (events before : List Event) (conn conn' : H2Connection)
    (pairs : List (UInt16 × UInt32)) (ranged : Ranged settings events)
    (there : Taken H2Connection.step (.new settings) events before (.receive (.settings false pairs)) conn conn') :
    ∀ value ∈ conn.remoteSettings.initialWindowSize :: initialValues pairs, value.toNat < 2 ^ 31 ∧
      ∀ id a, accountOf id settings before = some a → value.toNat + a.increments < 2 ^ 31 := by
  intro value member
  rcases List.mem_cons.mp member with rfl | listed
  · exact ranged before conn (cut_before events before ((List.prefix_append _ _).trans there.within)) there.reached
  · obtain ⟨front, back, rfl⟩ := initial_value_split pairs value listed
    have part : Event.Part (.receive (.settings false (front ++ [(0x4, value)])))
        (.receive (.settings false (front ++ (0x4, value) :: back))) :=
      .inr ⟨front ++ [(0x4, value)], back, by rw [List.append_assoc]; rfl, rfl⟩
    obtain ⟨p, taken⟩ : ∃ p, conn.step (.receive (.settings false (front ++ [(0x4, value)]))) = some p := ⟨_, rfl⟩
    have here := ranged _ p (.behind before _ _ there.within part) (by rw [execute_snoc, there.reached]; exact taken)
    have remote := (receive_effect conn p _ taken).initialWindowSize
    rw [Frame.peerSettings, latest_snoc] at remote
    rw [remote] at here
    refine ⟨here.1, fun id a account => ?_⟩
    have sums := here.2 id
    rw [account_snoc id settings before conn _ there.reached, account] at sums
    have sum := sums _ rfl
    exact sum

theorem follows_iff (settings : H2Settings) (events before : List Event) (conn conn' : H2Connection) (event : Event)
    (ranged : Ranged settings events) (follows : Follows settings before conn)
    (there : Taken H2Connection.step (.new settings) events before event conn conn') :
    Follows settings (before ++ [event]) conn' ↔ conn.OpensAlike event := by
  have taken := there.taken
  cases event with
  | send call =>
      obtain rfl := Option.some.inj taken
      refine iff_of_true (follows_quiet settings before conn _ _ there.reached follows ?_ (fun _ _ => rfl) fun id => ?_) trivial
      · cases call <;> rfl
      · rw [send_stream]
        split
        · exact unchanged_map _ _ _ fun stream => answer_keeps Stream.sendWindow (fun _ _ => rfl) call stream fun _ _ => rfl
        · rfl
  | receive frame =>
      have loop := receive_effect conn conn' frame taken
      have quiet (headers : ∀ streamId endStream endHeaders headerBlock, frame ≠ .headers streamId endStream endHeaders headerBlock)
          (grant : ∀ streamId increment, frame ≠ .windowUpdate streamId increment)
          (whole : ∀ pairs, frame ≠ .settings false pairs) (none : frame.peerSettings = []) :
          Follows settings (before ++ [.receive frame]) conn' := by
        refine follows_quiet settings before conn conn' _ there.reached follows ?_ (fun id a => ?_) fun id => ?_
        · rw [loop.initialWindowSize, none]
          rfl
        · exact (frame_quiet conn frame id headers grant whole).1 a
        · rw [loop.streams]
          exact (frame_quiet conn frame id headers grant whole).2
      cases frame with
      | headers streamId endStream endHeaders headerBlock =>
          have small := ranged before conn (cut_before events before ((List.prefix_append _ _).trans there.within)) there.reached
          exact headers_follow settings before conn conn' streamId endStream endHeaders headerBlock small.1 there.reached follows taken
      | windowUpdate streamId increment =>
          have after := ranged _ conn' (cut_before events _ there.within) (by rw [execute_snoc, there.reached]; exact taken)
          have remote : conn'.remoteSettings.initialWindowSize = conn.remoteSettings.initialWindowSize := loop.initialWindowSize
          rw [remote] at after
          exact iff_of_true
            (update_follows settings before conn conn' streamId increment there.reached follows taken after.2) trivial
      | settings ack pairs =>
          cases ack with
          | true => exact iff_of_true (quiet (by simp) (by simp) (by simp) rfl) trivial
          | false =>
              have values := ranged_values settings events before conn conn' pairs ranged there
              exact iff_of_true (settings_follow settings before conn conn' pairs there.reached follows taken values) trivial
      | _ => exact iff_of_true (quiet (by simp) (by simp) (by simp) rfl) trivial

-- One SETTINGS frame before, and behind, the HEADERS that open a stream.
structure Swapped (conn : H2Connection) (streamId : UInt32) (headers : Event) (pairs : List (UInt16 × UInt32))
    (first second : H2Connection) : Prop where
  opens : ∃ endStream endHeaders headerBlock fields decoder,
    headers = .receive (.headers streamId endStream endHeaders headerBlock) ∧
      conn.hpackDecoder.decode headerBlock = .ok (.ok fields, decoder)
  unopened : conn.getStream streamId = none
  before : execute H2Connection.step conn [.receive (.settings false pairs), headers] = some first
  behind : execute H2Connection.step conn [headers, .receive (.settings false pairs)] = some second
  values : ∀ value ∈ conn.localSettings.initialWindowSize :: conn.remoteSettings.initialWindowSize :: initialValues pairs,
    value.toNat < 2 ^ 31
  sums : ∀ value ∈ initialValues pairs,
    0 ≤ (conn.localSettings.initialWindowSize.toNat : Int) + (value.toNat - conn.remoteSettings.initialWindowSize.toNat) ∧
      (conn.localSettings.initialWindowSize.toNat : Int) + (value.toNat - conn.remoteSettings.initialWindowSize.toNat) < 2 ^ 31

theorem settings_decoder (conn conn' : H2Connection) (pairs : List (UInt16 × UInt32))
    (taken : conn.step (.receive (.settings false pairs)) = some conn') : conn'.hpackDecoder = conn.hpackDecoder := by
  obtain rfl := Option.some.inj taken
  exact (apply_settings_effect pairs conn).hpackDecoder

theorem opened_window (conn conn' : H2Connection) (streamId : UInt32) (endStream endHeaders : Bool) (headerBlock : Bytes)
    (fields : List Hpack.Header) (decoder : Hpack.HpackDecoder)
    (decoded : conn.hpackDecoder.decode headerBlock = .ok (.ok fields, decoder)) (unopened : conn.getStream streamId = none)
    (taken : conn.step (.receive (.headers streamId endStream endHeaders headerBlock)) = some conn') :
    ∃ stream, conn'.getStream streamId = some stream ∧
      stream.sendWindow = conn.localSettings.initialWindowSize.toInt32 := by
  have opened := (receive_effect conn conn' _ taken).streams streamId
  simp only [H2Connection.streamAfter, decoded, if_true, unopened, Option.getD_none] at opened
  exact ⟨_, opened, receive_headers_window _ fields endStream⟩

theorem swapped_iff (conn : H2Connection) (streamId : UInt32) (headers : Event) (pairs : List (UInt16 × UInt32))
    (first second : H2Connection) (swapped : Swapped conn streamId headers pairs first second) :
    (first.getStream streamId).map Stream.sendWindow = (second.getStream streamId).map Stream.sendWindow ↔
      latest 0x4 conn.remoteSettings.initialWindowSize pairs = conn.remoteSettings.initialWindowSize := by
  obtain ⟨⟨endStream, endHeaders, headerBlock, fields, decoder, rfl, decoded⟩, unopened, before, behind, values, sums⟩ := swapped
  have own := (cast_exact_iff conn.localSettings.initialWindowSize).mpr (values _ List.mem_cons_self)
  have set := (fun value member => values value (List.mem_cons_of_mem _ member) :
    ∀ value ∈ conn.remoteSettings.initialWindowSize :: initialValues pairs, value.toNat < 2 ^ 31)
  -- SETTINGS find no stream to change.
  obtain ⟨middle, setting, opening⟩ := Option.bind_eq_some_iff.mp before
  rw [execute_one] at opening
  have changed := receive_effect conn middle _ setting
  obtain ⟨early, found, window⟩ := opened_window middle first streamId endStream endHeaders headerBlock fields decoder
    (by rw [settings_decoder conn middle pairs setting, decoded])
    (by rw [changed.streams, H2Connection.streamAfter, unopened, Option.map_none]) opening
  rw [changed.localSettings] at window
  -- SETTINGS move the window that the stream began with.
  obtain ⟨middle, opening, setting⟩ := Option.bind_eq_some_iff.mp behind
  rw [execute_one] at setting
  obtain ⟨late, there, started⟩ := opened_window conn middle streamId endStream endHeaders headerBlock fields decoder decoded
    unopened opening
  have moved := (receive_effect middle second _ setting).streams streamId
  have remote : middle.remoteSettings.initialWindowSize = conn.remoteSettings.initialWindowSize :=
    (receive_effect conn middle _ opening).initialWindowSize
  rw [H2Connection.streamAfter, there, Option.map_some, remote] at moved
  have settled := settle_exact pairs conn.remoteSettings.initialWindowSize late
    (fun a one b two => by
      have low := set a one
      have high := set b two
      constructor <;> omega)
    (fun value member => by
      have sum := sums value member
      rw [started, own]
      constructor <;> omega)
  rw [started, own] at settled
  rw [found, moved, Option.map_some, Option.map_some, Option.some.injEq, window, ← Int32.toInt_inj, own, settled,
    ← UInt32.toNat_inj]
  omega

-- Events that raise no window by an increment or a value out of range.
def Event.Calm : Event → Prop
  | .receive (.windowUpdate _ _) => False
  | .receive (.settings false pairs) => ∀ value ∈ initialValues pairs, value.toNat < 2 ^ 31
  | _ => True

def Unraised (settings : H2Settings) (history : List Event) (conn : H2Connection) : Prop :=
  conn.remoteSettings.initialWindowSize.toNat < 2 ^ 31 ∧ ∀ id a, accountOf id settings history = some a → a.increments = 0

theorem calm_account (id : UInt32) (conn : H2Connection) (event : Event) (old : Option Account) (a : Account)
    (calm : event.Calm) (unraised : ∀ a, old = some a → a.increments = 0) (there : conn.account id event old = some a) :
    a.increments = 0 := by
  cases event with
  | send call => exact unraised a there
  | receive frame =>
      cases frame with
      | windowUpdate streamId increment => exact calm.elim
      | headers streamId endStream endHeaders headerBlock =>
          rcases decoded : conn.hpackDecoder.decode headerBlock with fault | ⟨e | fields, decoder⟩
          · simp only [H2Connection.account, decoded] at there
            exact unraised a there
          · simp only [H2Connection.account, decoded] at there
            exact unraised a there
          · simp only [H2Connection.account, decoded] at there
            split at there
            · obtain rfl := Option.some.inj there
              cases old with
              | none => rfl
              | some b => exact unraised b rfl
            · exact unraised a there
      | settings ack pairs =>
          cases ack with
          | true => exact unraised a there
          | false =>
              obtain ⟨b, same, rfl⟩ := Option.map_eq_some_iff.mp there
              exact unraised b same
      | _ => exact unraised a there

theorem calm_step (settings : H2Settings) (before : List Event) (conn conn' : H2Connection) (event : Event) (calm : event.Calm)
    (reached : execute H2Connection.step (.new settings) before = some conn) (unraised : Unraised settings before conn)
    (taken : conn.step event = some conn') : Unraised settings (before ++ [event]) conn' := by
  refine ⟨?_, fun id a there => ?_⟩
  · cases event with
    | send call =>
        obtain rfl := Option.some.inj taken
        cases call <;> exact unraised.1
    | receive frame =>
        rw [(receive_effect conn conn' frame taken).initialWindowSize]
        cases frame with
        | settings ack pairs =>
            cases ack with
            | true => exact unraised.1
            | false =>
                rcases List.mem_cons.mp (latest_listed conn.remoteSettings.initialWindowSize pairs) with same | listed
                · exact same.symm ▸ unraised.1
                · exact calm _ listed
        | _ => exact unraised.1
  · rw [account_snoc id settings before conn event reached] at there
    exact calm_account id conn event _ a calm (unraised.2 id) there

theorem calm_ranged (settings : H2Settings) (events : List Event) (calm : ∀ event ∈ events, event.Calm) :
    Ranged settings events := by
  intro history conn cut executed
  suffices whole : Unraised settings history conn by
    refine ⟨whole.1, fun id a there => ?_⟩
    rw [whole.2 id a there]
    exact whole.1
  have parts : ∀ event ∈ history, event.Calm := by
    cases cut with
    | start => exact fun event member => by cases member
    | behind before event part within cut =>
        intro other member
        rcases List.mem_append.mp member with early | last
        · exact calm other (within.subset (List.mem_append_left _ early))
        · obtain rfl := List.mem_singleton.mp last
          have whole := calm event (within.subset (List.mem_append_right _ (List.mem_singleton_self _)))
          rcases cut with rfl | ⟨done, rest, rfl, rfl⟩
          · exact whole
          · intro value listed
            refine whole value ?_
            rw [initial_values_append]
            exact List.mem_append_left _ listed
  exact reached_invariant (Unraised settings) (fun _ _ event _ => event.Calm) _ history
    ⟨(by decide : (65535 : UInt32).toNat < 2 ^ 31), fun id a there => by cases there⟩
    (fun before event conn conn' unraised there calm => calm_step settings before conn conn' event calm there.reached unraised there.taken)
    (fun before event conn conn' there => parts event (there.within.subset (List.mem_append_right _ (List.mem_singleton_self _))))
    history conn ⟨List.prefix_refl _, executed⟩

theorem send_window_follows_iff (settings : H2Settings) (frames : List Frame) (ranged : Ranged settings (frames.map .receive)) :
    ((∀ history conn, Reached H2Connection.step (.new settings) (frames.map .receive) history conn →
        Follows settings history conn) ↔
      ∀ before event conn conn', Taken H2Connection.step (.new settings) (frames.map .receive) before event conn conn' →
        conn.OpensAlike event) ∧
    ∀ conn streamId headers pairs first second, Swapped conn streamId headers pairs first second →
      ((first.getStream streamId).map Stream.sendWindow = (second.getStream streamId).map Stream.sendWindow ↔
        latest 0x4 conn.remoteSettings.initialWindowSize pairs = conn.remoteSettings.initialWindowSize) := by
  refine ⟨each_state_iff (Follows settings) (fun _ conn event _ => conn.OpensAlike event) _ _ (fun id => rfl) ?_, swapped_iff⟩
  intro before event conn conn' follows there
  exact follows_iff settings _ before conn conn' event ranged follows there

theorem settings_behind_follow : ∃ conn, execute H2Connection.step (.new {})
      [.receive (.headers 1 true true [0x82]), .receive (.settings false [(0x4, 100)])] = some conn ∧
    Follows {} [.receive (.headers 1 true true [0x82]), .receive (.settings false [(0x4, 100)])] conn := by
  refine ⟨_, rfl, (send_window_follows_iff {} [.headers 1 true true [0x82], .settings false [(0x4, 100)]]
    (calm_ranged _ _ ?_)).1.mpr ?_ _ _ ⟨List.prefix_refl _, rfl⟩⟩
  · intro event member
    rcases List.mem_cons.mp member with rfl | last
    · exact trivial
    · obtain rfl := List.mem_singleton.mp last
      intro value listed
      obtain rfl : value = 100 := List.mem_singleton.mp listed
      decide
  · intro before event conn conn' there
    rcases taken_cons _ _ _ _ _ _ _ there with ⟨_, rfl, rfl⟩ | ⟨middle, rest, first, _, later⟩
    · exact fun _ _ _ _ => rfl
    · rcases taken_cons _ _ _ _ _ _ _ later with ⟨_, rfl, _⟩ | ⟨_, _, _, _, none⟩
      · exact trivial
      · exact absurd none (taken_nil _ _ _ _ _)

-- The same frames the other way round: the stream keeps a window of 65535.
theorem settings_before_missed : ∃ conn, execute H2Connection.step (.new {})
      [.receive (.settings false [(0x4, 100)]), .receive (.headers 1 true true [0x82])] = some conn ∧
    Ranged {} [.receive (.settings false [(0x4, 100)]), .receive (.headers 1 true true [0x82])] ∧
    (conn.getStream 1).map (fun stream => stream.sendWindow.toInt) = some 65535 ∧ conn.remoteSettings.initialWindowSize = 100 ∧
    ¬ Follows {} [.receive (.settings false [(0x4, 100)]), .receive (.headers 1 true true [0x82])] conn := by
  refine ⟨_, rfl, calm_ranged _ _ ?_, by decide, rfl, fun follows => absurd (follows 1) (by decide)⟩
  intro event member
  rcases List.mem_cons.mp member with rfl | last
  · intro value listed
    obtain rfl : value = 100 := List.mem_singleton.mp listed
    decide
  · obtain rfl := List.mem_singleton.mp last
    exact trivial

end Ners.H2

import Ners.H2.FrameCodec

set_option autoImplicit false

namespace Ners.H2

-- flags::PADDED and flags::PRIORITY. No function of the source reads them.
def paddedFlag : UInt8 := 0x8
def priorityFlag : UInt8 := 0x20

-- The kinds of frame that may be padded. Only HEADERS has priority fields.
inductive Carrier where
  | data
  | headers
deriving DecidableEq

def Carrier.frameType : Carrier → FrameType
  | .data => .data
  | .headers => .headers

def Carrier.frame (kind : Carrier) (flags : UInt8) (streamId : UInt32) (content : Bytes) : Frame :=
  match kind with
  | .data => .data streamId (flags &&& endStreamFlag ≠ 0) content
  | .headers => .headers streamId (flags &&& endStreamFlag ≠ 0) (flags &&& endHeadersFlag ≠ 0) content

def Padded (flags : UInt8) : Prop := flags &&& paddedFlag ≠ 0

def Prioritised (kind : Carrier) (flags : UInt8) : Prop := kind = .headers ∧ flags &&& priorityFlag ≠ 0

instance (flags : UInt8) : Decidable (Padded flags) := inferInstanceAs (Decidable (_ ≠ _))

instance (kind : Carrier) (flags : UInt8) : Decidable (Prioritised kind flags) := inferInstanceAs (Decidable (_ ∧ _))

-- A payload as its flags lay it out, or one whose pad length does not fit in
-- what follows it.
inductive Layout (kind : Carrier) (flags : UInt8) where
  | fitting (padding priority fragment : Bytes) (count : UInt8) (exactly : padding.length = count.toNat)
      (five : priority.length = 5)
  | overlong (count : UInt8) (rest : Bytes) (padded : Padded flags)
      (beyond : rest.length < (if Prioritised kind flags then 5 else 0) + count.toNat)

def Layout.payload {kind : Carrier} {flags : UInt8} : Layout kind flags → Bytes
  | .fitting padding priority fragment count _ _ =>
      (if Padded flags then [count] else []) ++ (if Prioritised kind flags then priority else []) ++ fragment ++
        if Padded flags then padding else []
  | .overlong count rest _ _ => count :: rest

-- A frame that may be on the wire.
structure Carried where
  kind : Carrier
  flags : UInt8
  streamId : UInt32
  layout : Layout kind flags
  reserved : streamId.toNat < 2 ^ 31
  short : layout.payload.length < 2 ^ 24

def Carried.wire (sent : Carried) : Bytes :=
  frameHeader sent.layout.payload.length sent.kind.frameType sent.flags sent.streamId ++ sent.layout.payload

-- What a call of parse owes the frame in front of other bytes.
def Carried.Stripped (sent : Carried) (suffix : Bytes) : Prop :=
  match sent.layout with
  | .fitting _ _ fragment _ _ _ =>
      Frame.parse (sent.wire ++ suffix) = (.ok (some (sent.kind.frame sent.flags sent.streamId fragment)), suffix)
  | .overlong _ _ _ _ => ∃ e, (Frame.parse (sent.wire ++ suffix)).1 = .error e

theorem parse_carrier (kind : Carrier) (flags : UInt8) (streamId : UInt32) (payload : Bytes) :
    parsePayload kind.frameType flags streamId payload = .ok (kind.frame flags streamId payload) := by
  cases kind <;> rfl

-- The content that parse returns is the whole payload, whatever the flags say.
theorem carried_parsed (sent : Carried) (suffix : Bytes) :
    Frame.parse (sent.wire ++ suffix) =
      (.ok (some (sent.kind.frame sent.flags sent.streamId sent.layout.payload)), suffix) := by
  have enough : ¬ (sent.layout.payload ++ suffix).length < sent.layout.payload.length := by
    rw [List.length_append]
    omega
  rw [Carried.wire, List.append_assoc, parse_header _ _ _ _ _ sent.short sent.reserved, if_neg enough, List.take_left,
    List.drop_left, parse_carrier]

theorem frame_content (kind : Carrier) (flags : UInt8) (streamId : UInt32) (a b : Bytes)
    (same : kind.frame flags streamId a = kind.frame flags streamId b) : a = b := by
  cases kind with
  | data => exact (Frame.data.inj same).2.2
  | headers => exact (Frame.headers.inj same).2.2.2

theorem payload_fragment_iff (kind : Carrier) (flags : UInt8) (padding priority fragment : Bytes) (count : UInt8)
    (exactly : padding.length = count.toNat) (five : priority.length = 5) :
    (Layout.fitting padding priority fragment count exactly five : Layout kind flags).payload = fragment ↔
      ¬ Padded flags ∧ ¬ Prioritised kind flags := by
  dsimp only [Layout.payload]
  constructor
  · intro same
    have lengths := congrArg List.length same
    simp only [List.length_append] at lengths
    refine ⟨fun padded => ?_, fun prioritised => ?_⟩
    · rw [if_pos padded, List.length_singleton] at lengths
      omega
    · rw [if_pos prioritised] at lengths
      omega
  · rintro ⟨plain, level⟩
    rw [if_neg plain, if_neg plain, if_neg level, List.append_nil]
    rfl

theorem stripped_iff (sent : Carried) (suffix : Bytes) :
    sent.Stripped suffix ↔ ¬ Padded sent.flags ∧ ¬ Prioritised sent.kind sent.flags := by
  have parsed := carried_parsed sent suffix
  obtain ⟨kind, flags, streamId, layout, reserved, short⟩ := sent
  cases layout with
  | fitting padding priority fragment count exactly five =>
      refine Iff.trans ?_ (payload_fragment_iff kind flags padding priority fragment count exactly five)
      unfold Carried.Stripped
      rw [parsed]
      constructor
      · intro same
        exact frame_content _ _ _ _ _ (Option.some.inj (Except.ok.inj (Prod.mk.inj same).1))
      · intro same
        dsimp only
        rw [same]
  | overlong count rest padded beyond =>
      refine iff_of_false ?_ fun plain => plain.1 padded
      rintro ⟨e, failed⟩
      rw [parsed] at failed
      cases failed

-- One byte of padding around "hi".
def paddedData : Carried where
  kind := .data
  flags := 0x9
  streamId := 1
  layout := .fitting [0] [0, 0, 0, 0, 0] [0x68, 0x69] 1 rfl rfl
  reserved := by decide
  short := by decide

def overlongHeaders : Carried where
  kind := .headers
  flags := 0xc
  streamId := 1
  layout := .overlong 2 [0x82] (by decide) (by decide)
  reserved := by decide
  short := by decide

theorem padding_kept : ¬ paddedData.Stripped [] ∧ ¬ overlongHeaders.Stripped [] := by
  constructor
  · intro stripped
    have only : Frame.parse (paddedData.wire ++ []) = (.ok (some (.data 1 true [0x68, 0x69])), []) := stripped
    exact absurd only (by decide)
  · rintro ⟨e, failed⟩
    cases failed

end Ners.H2

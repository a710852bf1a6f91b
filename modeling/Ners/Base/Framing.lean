import Ners.Base.Machine

set_option autoImplicit false

namespace Ners.Framing

variable {φ ε : Type} (parse : Bytes → Except ε (Option φ) × Bytes)

structure Received (φ ε : Type) where
  frames : List φ
  failure : Option ε
  buf : Bytes
deriving DecidableEq

-- Parse until the buffer holds no whole frame. Frames take at least a byte each,
-- so one more turn than the buffer has bytes is enough.
def drain : Nat → Bytes → Received φ ε
  | 0, buf => ⟨[], none, buf⟩
  | fuel + 1, buf =>
      match parse buf with
      | (.error e, left) => ⟨[], some e, left⟩
      | (.ok none, left) => ⟨[], none, left⟩
      | (.ok (some frame), left) =>
          let later := drain fuel left
          { later with frames := frame :: later.frames }

-- Append each chunk as it arrives and drain; the first error ends the stream.
def feed (buf : Bytes) : List Bytes → Received φ ε
  | [] => ⟨[], none, buf⟩
  | chunk :: more =>
      let got := drain parse ((buf ++ chunk).length + 1) (buf ++ chunk)
      match got.failure with
      | some _ => got
      | none =>
          let later := feed got.buf more
          { later with frames := got.frames ++ later.frames }

-- A wire format that parse reads back: whole frames one at a time, and nothing
-- while a frame is still incomplete.
structure Delimits (wire : φ → Bytes) (Fits : φ → Prop) : Prop where
  nonempty : ∀ frame, wire frame ≠ []
  empty : parse [] = (.ok none, [])
  whole : ∀ frame suffix, Fits frame → parse (wire frame ++ suffix) = (.ok (some frame), suffix)
  cut : ∀ frame front rest, Fits frame → wire frame = front ++ rest → rest ≠ [] → parse front = (.ok none, front)

variable {parse} {wire : φ → Bytes} {Fits : φ → Prop}

def stream (wire : φ → Bytes) (frames : List φ) : Bytes := frames.flatMap wire

theorem drain_frame (fuel : Nat) (frame : φ) (suffix : Bytes) (format : Delimits parse wire Fits) (fits : Fits frame) :
    drain parse (fuel + 1) (wire frame ++ suffix) =
      { drain parse fuel suffix with frames := frame :: (drain parse fuel suffix).frames } := by
  rw [drain, format.whole frame suffix fits]

-- The buffer holds some whole frames and a part of the next: those frames come
-- out, and what is left still starts the others.
theorem drain_stream (frames : List φ) (buf rest : Bytes) (fuel : Nat) (format : Delimits parse wire Fits)
    (fits : ∀ frame ∈ frames, Fits frame) (split : stream wire frames = buf ++ rest) (enough : buf.length < fuel) :
    ∃ done later left, frames = done ++ later ∧ drain parse fuel buf = ⟨done, none, left⟩ ∧
      stream wire later = left ++ rest ∧ (rest = [] → later = []) := by
  induction frames generalizing buf fuel with
  | nil =>
      obtain ⟨rfl, rfl⟩ := List.append_eq_nil_iff.mp split.symm
      obtain ⟨fuel, rfl⟩ : ∃ k, fuel = k + 1 := ⟨fuel - 1, by omega⟩
      exact ⟨[], [], [], rfl, by rw [drain, format.empty], rfl, fun _ => rfl⟩
  | cons frame tail ih =>
      obtain ⟨fuel, rfl⟩ : ∃ k, fuel = k + 1 := ⟨fuel - 1, by omega⟩
      have fitsTail : ∀ other ∈ tail, Fits other := fun other member => fits other (List.mem_cons_of_mem _ member)
      rw [stream, List.flatMap_cons] at split
      rcases List.append_eq_append_iff.mp split with ⟨suffix, whole, behind⟩ | ⟨missing, cut, behind⟩
      · subst whole
        have nonempty := List.length_pos_iff.mpr (format.nonempty frame)
        rw [List.length_append] at enough
        obtain ⟨done, later, left, parts, drained, same, last⟩ := ih suffix fuel fitsTail behind (by omega)
        refine ⟨frame :: done, later, left, by rw [parts, List.cons_append], ?_, same, last⟩
        rw [drain_frame fuel frame suffix format (fits frame List.mem_cons_self), drained]
      · by_cases arrived : missing = []
        · subst arrived
          obtain ⟨done, later, left, parts, drained, same, last⟩ :=
            ih [] fuel fitsTail behind.symm (by
              have nonempty := List.length_pos_iff.mpr (format.nonempty frame)
              rw [cut, List.append_nil] at nonempty
              simp only [List.length_nil]
              omega)
          refine ⟨frame :: done, later, left, by rw [parts, List.cons_append], ?_, same, last⟩
          have whole : buf = wire frame ++ [] := by simpa using cut.symm
          rw [whole, drain_frame fuel frame [] format (fits frame List.mem_cons_self), drained]
        · refine ⟨[], frame :: tail, buf, rfl, ?_, ?_, ?_⟩
          · rw [drain, format.cut frame buf missing (fits frame List.mem_cons_self) cut arrived]
          · rw [stream, List.flatMap_cons, split]
          · intro ended
            rw [ended] at behind
            exact absurd (List.append_eq_nil_iff.mp behind.symm).1 arrived

theorem feed_rest (frames : List φ) (buf : Bytes) (chunks : List Bytes) (format : Delimits parse wire Fits)
    (fits : ∀ frame ∈ frames, Fits frame) (split : stream wire frames = buf ++ chunks.flatten)
    (last : chunks.flatten = [] → frames = []) : feed parse buf chunks = ⟨frames, none, []⟩ := by
  induction chunks generalizing frames buf with
  | nil =>
      obtain rfl := last rfl
      obtain ⟨rfl, _⟩ := List.append_eq_nil_iff.mp split.symm
      rfl
  | cons chunk more ih =>
      rw [List.flatten_cons, ← List.append_assoc] at split
      obtain ⟨done, later, left, rfl, drained, same, ended⟩ :=
        drain_stream frames (buf ++ chunk) more.flatten _ format fits split (Nat.lt_succ_self _)
      have tail := ih later left (fun frame member => fits frame (List.mem_append_right _ member)) same ended
      simp only [feed, drained, tail]

theorem feed_stream (frames : List φ) (chunks : List Bytes) (format : Delimits parse wire Fits)
    (fits : ∀ frame ∈ frames, Fits frame) (split : chunks.flatten = stream wire frames) :
    feed parse [] chunks = ⟨frames, none, []⟩ := by
  refine feed_rest frames [] chunks format fits (by rw [split, List.nil_append]) ?_
  intro empty
  rw [split] at empty
  cases frames with
  | nil => rfl
  | cons frame tail =>
      rw [stream, List.flatMap_cons] at empty
      exact absurd (List.append_eq_nil_iff.mp empty).1 (format.nonempty frame)

theorem drain_parsed (fuel : Nat) (buf : Bytes) (frame : φ) (member : frame ∈ (drain parse fuel buf).frames) :
    ∃ input left, parse input = (.ok (some frame), left) := by
  induction fuel generalizing buf with
  | zero => cases member
  | succ fuel ih =>
      rw [drain] at member
      rcases parsed : parse buf with ⟨e | none | first, left⟩
      · rw [parsed] at member
        cases member
      · rw [parsed] at member
        cases member
      · rw [parsed] at member
        rcases List.mem_cons.mp member with rfl | later
        · exact ⟨buf, left, parsed⟩
        · exact ih left later

theorem feed_parsed (buf : Bytes) (chunks : List Bytes) (frame : φ) (member : frame ∈ (feed parse buf chunks).frames) :
    ∃ input left, parse input = (.ok (some frame), left) := by
  induction chunks generalizing buf with
  | nil => cases member
  | cons chunk more ih =>
      simp only [feed] at member
      cases failed : (drain parse ((buf ++ chunk).length + 1) (buf ++ chunk)).failure with
      | some e =>
          simp only [failed] at member
          exact drain_parsed _ _ frame member
      | none =>
          simp only [failed] at member
          rcases List.mem_append.mp member with now | later
          · exact drain_parsed _ _ frame now
          · exact ih _ later

-- What is written is read back if and only if it could have been read.
theorem reads_back_iff (frames : List φ) (format : Delimits parse wire Fits)
    (only : ∀ input left frame, parse input = (.ok (some frame), left) → Fits frame) :
    feed parse [] [stream wire frames] = ⟨frames, none, []⟩ ↔ ∀ frame ∈ frames, Fits frame := by
  constructor
  · intro back frame member
    have came : frame ∈ (feed parse [] [stream wire frames]).frames := by
      rw [back]
      exact member
    obtain ⟨input, left, parsed⟩ := feed_parsed _ _ frame came
    exact only input left frame parsed
  · intro fits
    exact feed_stream frames _ format fits (List.append_nil _)

end Ners.Framing

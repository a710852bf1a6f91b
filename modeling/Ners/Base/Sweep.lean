import Ners.Base.Machine

set_option autoImplicit false

namespace Ners.Sweep

variable {φ ε : Type} (parse : Bytes → Except ε (Option φ) × Bytes) (front : Bytes → Option Nat)

-- Call parse until it finds nothing more, whatever it answers before; there is
-- no result when the turns run out first.
def sweep : Nat → Bytes → Option (List (Except ε (Option φ)) × Bytes)
  | 0, _ => none
  | fuel + 1, buf =>
      match parse buf with
      | (.ok none, left) => some ([], left)
      | (answer, left) => (sweep fuel left).map fun (answers, rest) => (answer :: answers, rest)

-- The whole frames at the front of some bytes, and the bytes behind them.
def cut : Nat → Bytes → List Bytes × Bytes
  | 0, buf => ([], buf)
  | fuel + 1, buf =>
      match front buf with
      | none => ([], buf)
      | some n => (buf.take n :: (cut fuel (buf.drop n)).1, (cut fuel (buf.drop n)).2)

-- What parse does to what is in front: it takes a clear frame and nothing else,
-- waits for more of it, or stays where it is for ever.
structure Steps (Clear : Bytes → Prop) : Prop where
  within : ∀ buf n, front buf = some n → 0 < n ∧ n ≤ buf.length
  takes : ∀ buf n, front buf = some n → Clear buf →
    (parse buf).2 = buf.drop n ∧ (parse buf).1 = (parse (buf.take n)).1 ∧ (parse buf).1 ≠ .ok none
  waits : ∀ buf, front buf = none → Clear buf → parse buf = (.ok none, buf)
  stuck : ∀ buf, ¬ Clear buf → ∃ e, parse buf = (.error e, buf)
  clear : ∀ buf n, front buf = some n → (Clear (buf.take n) ↔ Clear buf)

variable {parse front} {Clear : Bytes → Prop}

theorem sweep_answer (fuel : Nat) (buf left : Bytes) (answer : Except ε (Option φ)) (found : answer ≠ .ok none)
    (parsed : parse buf = (answer, left)) :
    sweep parse (fuel + 1) buf = (sweep parse fuel left).map fun (answers, rest) => (answer :: answers, rest) := by
  rw [sweep, parsed]
  split
  · rename_i same
    cases same
    exact absurd rfl found
  · rename_i same
    cases same
    rfl

theorem sweep_stuck (fuel : Nat) (buf : Bytes) (steps : Steps parse front Clear) (unclear : ¬ Clear buf) :
    sweep parse fuel buf = none := by
  obtain ⟨e, stays⟩ := steps.stuck buf unclear
  induction fuel with
  | zero => rfl
  | succ fuel ih => rw [sweep_answer fuel buf buf (.error e) (by simp) stays, ih, Option.map_none]

theorem cut_none (fuel : Nat) (buf : Bytes) (size : front buf = none) : cut front fuel buf = ([], buf) := by
  cases fuel with
  | zero => rfl
  | succ fuel => rw [cut, size]

theorem cut_some (fuel n : Nat) (buf : Bytes) (size : front buf = some n) :
    cut front (fuel + 1) buf = (buf.take n :: (cut front fuel (buf.drop n)).1, (cut front fuel (buf.drop n)).2) := by
  rw [cut, size]

theorem cut_joined (fuel : Nat) (buf : Bytes) : (cut front fuel buf).1.flatten ++ (cut front fuel buf).2 = buf := by
  induction fuel generalizing buf with
  | zero => rfl
  | succ fuel ih =>
      cases size : front buf with
      | none => rw [cut_none (fuel + 1) buf size, List.flatten_nil, List.nil_append]
      | some n => rw [cut_some fuel n buf size, List.flatten_cons, List.append_assoc, ih, List.take_append_drop]

theorem cut_whole (fuel : Nat) (buf : Bytes) (within : ∀ buf n, front buf = some n → 0 < n ∧ n ≤ buf.length)
    (alone : ∀ buf n, front buf = some n → front (buf.take n) = some n) (enough : buf.length ≤ fuel) :
    (∀ frame ∈ (cut front fuel buf).1, front frame = some frame.length) ∧ front (cut front fuel buf).2 = none := by
  induction fuel generalizing buf with
  | zero =>
      cases size : front buf with
      | none => exact ⟨List.forall_mem_nil _, size⟩
      | some n =>
          have bounds := within buf n size
          omega
  | succ fuel ih =>
      cases size : front buf with
      | none =>
          rw [cut_none (fuel + 1) buf size]
          exact ⟨List.forall_mem_nil _, size⟩
      | some n =>
          obtain ⟨positive, fits⟩ := within buf n size
          obtain ⟨later, rest⟩ := ih (buf.drop n) (by rw [List.length_drop]; omega)
          rw [cut_some fuel n buf size]
          refine ⟨List.forall_mem_cons.mpr ⟨?_, later⟩, rest⟩
          rw [alone buf n size, List.length_take, Nat.min_eq_left fits]

-- One frame more is one turn more.
theorem sweep_frame_iff (n : Nat) (buf tail : Bytes) (frames : List Bytes) (steps : Steps parse front Clear)
    (size : front buf = some n) (clear : Clear buf) :
    (∃ turns, sweep parse turns buf = some ((buf.take n :: frames).map fun frame => (parse frame).1, tail)) ↔
      ∃ turns, sweep parse turns (buf.drop n) = some (frames.map fun frame => (parse frame).1, tail) := by
  obtain ⟨left, alone, answered⟩ := steps.takes buf n size clear
  have turn (fuel : Nat) := sweep_answer fuel buf (buf.drop n) (parse buf).1 answered (Prod.ext rfl left)
  rw [List.map_cons, ← alone]
  constructor
  · rintro ⟨turns, swept⟩
    cases turns with
    | zero => cases swept
    | succ turns =>
        rw [turn] at swept
        obtain ⟨⟨answers, rest⟩, later, same⟩ := Option.map_eq_some_iff.mp swept
        obtain ⟨heads, rfl⟩ := Prod.mk.inj same
        exact ⟨turns, (List.cons.inj heads).2 ▸ later⟩
  · rintro ⟨turns, swept⟩
    exact ⟨turns + 1, by rw [turn, swept, Option.map_some]⟩

theorem sweep_rest_iff (buf : Bytes) (steps : Steps parse front Clear) (size : front buf = none) :
    (∃ turns, sweep parse turns buf = some ([], buf)) ↔ Clear buf := by
  by_cases clear : Clear buf
  · refine iff_of_true ⟨1, ?_⟩ clear
    rw [sweep, steps.waits buf size clear]
  · refine iff_of_false ?_ clear
    rintro ⟨turns, swept⟩
    cases (sweep_stuck turns buf steps clear).symm.trans swept

-- The turns come to an end, with one answer for each whole frame and nothing
-- else taken, if and only if all of the bytes are clear.
theorem sweep_iff (fuel : Nat) (buf : Bytes) (steps : Steps parse front Clear) (enough : buf.length ≤ fuel) :
    (∃ turns, sweep parse turns buf = some ((cut front fuel buf).1.map fun frame => (parse frame).1, (cut front fuel buf).2)) ↔
      (∀ frame ∈ (cut front fuel buf).1, Clear frame) ∧ Clear (cut front fuel buf).2 := by
  induction fuel generalizing buf with
  | zero =>
      have size : front buf = none := by
        cases size : front buf with
        | none => rfl
        | some n =>
            have bounds := steps.within buf n size
            omega
      rw [cut_none 0 buf size]
      exact (sweep_rest_iff buf steps size).trans (and_iff_right (List.forall_mem_nil _)).symm
  | succ fuel ih =>
      cases size : front buf with
      | none =>
          rw [cut_none (fuel + 1) buf size]
          exact (sweep_rest_iff buf steps size).trans (and_iff_right (List.forall_mem_nil _)).symm
      | some n =>
          obtain ⟨positive, within⟩ := steps.within buf n size
          rw [cut_some fuel n buf size, List.forall_mem_cons, steps.clear buf n size, and_assoc]
          by_cases clear : Clear buf
          · rw [and_iff_right clear, sweep_frame_iff n buf _ _ steps size clear]
            refine ih (buf.drop n) ?_
            rw [List.length_drop]
            omega
          · refine iff_of_false ?_ fun all => clear all.1
            rintro ⟨turns, swept⟩
            cases (sweep_stuck turns buf steps clear).symm.trans swept

end Ners.Sweep

import Mathlib.Data.List.Induction

set_option autoImplicit false

namespace Ners.Pacing

-- A moment and the events that follow it.
structure Burst where
  moment : Int
  times : List Int

-- A burst comes a pause after the moment of an earlier one, and after its events.
structure Spaced (pause : Nat) (b b' : Burst) : Prop where
  pause : b.moment + pause ≤ b'.moment
  ended : ∀ time ∈ b.times, time ≤ b'.moment

structure Paced (pause size : Nat) (bursts : List Burst) : Prop where
  small : ∀ b ∈ bursts, b.times.length ≤ size
  follow : ∀ b ∈ bursts, ∀ time ∈ b.times, b.moment ≤ time
  spaced : bursts.Pairwise (Spaced pause)

def events (bursts : List Burst) : List Int := bursts.flatMap Burst.times

def inWindow (start : Int) (length : Nat) (time : Int) : Bool := start ≤ time && time < start + length

variable {pause size : Nat}

theorem paced_nil : Paced pause size [] := ⟨by simp, by simp, .nil⟩

theorem paced_tail (b : Burst) (later : List Burst) (paced : Paced pause size (b :: later)) : Paced pause size later :=
  ⟨fun b' member => paced.small b' (List.mem_cons_of_mem b member), fun b' member => paced.follow b' (List.mem_cons_of_mem b member),
    paced.spaced.of_cons⟩

theorem paced_snoc (bursts : List Burst) (b : Burst) (paced : Paced pause size bursts) (small : b.times.length ≤ size)
    (follow : ∀ time ∈ b.times, b.moment ≤ time) (spaced : ∀ earlier ∈ bursts, Spaced pause earlier b) :
    Paced pause size (bursts ++ [b]) := by
  refine ⟨fun b' member => ?_, fun b' member => ?_, ?_⟩
  · rcases List.mem_append.mp member with old | last
    · exact paced.small b' old
    · rwa [List.mem_singleton.mp last]
  · rcases List.mem_append.mp member with old | last
    · exact paced.follow b' old
    · rwa [List.mem_singleton.mp last]
  · refine List.pairwise_append.mpr ⟨paced.spaced, List.pairwise_singleton _ b, fun earlier member last there => ?_⟩
    rw [List.mem_singleton.mp there]
    exact spaced earlier member

-- From the moment of a burst on, each pause has room for one.
theorem events_from (bursts : List Burst) (paced : Paced pause size bursts) (m : Nat) (start : Int)
    (after : ∀ b ∈ bursts, start ≤ b.moment) :
    (events bursts).countP (fun time => time < start + (m * pause : Nat)) ≤ m * size := by
  induction bursts generalizing m start with
  | nil => exact Nat.zero_le _
  | cons b later ih =>
      have rest := paced_tail b later paced
      have first := after b List.mem_cons_self
      have spaced := (List.pairwise_cons.mp paced.spaced).1
      cases m with
      | zero =>
          have none : ∀ time ∈ events (b :: later), ¬ decide (time < start + ((0 * pause : Nat) : Int)) = true := by
            intro time member early
            obtain ⟨b', there, inside⟩ := List.mem_flatMap.mp member
            have follows := paced.follow b' there time inside
            have late := after b' there
            rw [decide_eq_true_iff, Nat.zero_mul] at early
            omega
          rw [List.countP_eq_zero.mpr none]
          exact Nat.zero_le _
      | succ m =>
          have mine := paced.small b List.mem_cons_self
          have theirs := ih rest m (start + pause) fun b' member => by
            have apart := (spaced b' member).pause
            omega
          have same : start + ((m + 1) * pause : Nat) = start + pause + (m * pause : Nat) := by
            rw [Nat.succ_mul]
            omega
          rw [events, List.flatMap_cons, List.countP_append, same, Nat.succ_mul, Nat.add_comm]
          exact Nat.add_le_add theirs (Nat.le_trans List.countP_le_length mine)

-- A window may open after the moment of a burst and before its events, so it has
-- room for one more.
theorem events_paced (bursts : List Burst) (paced : Paced pause size bursts) (m : Nat) (start : Int) :
    (events bursts).countP (inWindow start (m * pause)) ≤ (m + 1) * size := by
  induction bursts with
  | nil => exact Nat.zero_le _
  | cons b later ih =>
      have rest := paced_tail b later paced
      have spaced := (List.pairwise_cons.mp paced.spaced).1
      rw [events, List.flatMap_cons, List.countP_append]
      by_cases touched : ∃ time ∈ b.times, start ≤ time
      · obtain ⟨time, inside, late⟩ := touched
        have mine := paced.small b List.mem_cons_self
        have theirs := events_from later rest m start fun b' member => Int.le_trans late ((spaced b' member).ended time inside)
        have fewer : (events later).countP (inWindow start (m * pause)) ≤
            (events later).countP fun time => time < start + (m * pause : Nat) := by
          refine List.countP_mono_left fun time _ open' => ?_
          exact (Bool.and_eq_true_iff.mp open').2
        rw [Nat.succ_mul, Nat.add_comm]
        exact Nat.add_le_add (Nat.le_trans fewer theirs) (Nat.le_trans List.countP_le_length mine)
      · have none : b.times.countP (inWindow start (m * pause)) = 0 := by
          refine List.countP_eq_zero.mpr fun time inside open' => touched ⟨time, inside, ?_⟩
          exact of_decide_eq_true (Bool.and_eq_true_iff.mp open').1
        rw [none, Nat.zero_add]
        exact ih rest

end Ners.Pacing

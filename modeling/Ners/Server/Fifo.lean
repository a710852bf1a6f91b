import Ners.Base.Answers
import Ners.Server.Queue

set_option autoImplicit false

namespace Ners.Server

open Answers (answers answers_refine specified)

inductive QueueCall where
  | push (id : ConnId)
  | pop
  | len
  | isEmpty

inductive QueueAnswer where
  | pushed (result : Except ConnId Unit)
  | popped (id : Option ConnId)
  | held (n : Nat)
  | vacant (answer : Bool)

def RingQueue.call (q : RingQueue) : QueueCall → Option (QueueAnswer × RingQueue)
  | .push id =>
      match q.push id with
      | .error _ => none
      | .ok (result, q) => some (.pushed result, q)
  | .pop => some (.popped q.pop.1, q.pop.2)
  | .len => some (.held q.len, q)
  | .isEmpty => some (.vacant q.isEmpty, q)

-- What the queue is for: a list with a bound, in at the back and out at the front.
def fifo (bound : Nat) (held : List ConnId) : QueueCall → QueueAnswer × List ConnId
  | .push id => if held.length = bound then (.pushed (.error id), held) else (.pushed (.ok ()), held ++ [id])
  | .pop =>
      match held with
      | [] => (.popped none, [])
      | id :: rest => (.popped (some id), rest)
  | .len => (.held held.length, held)
  | .isEmpty => (.vacant held.isEmpty, held)

structure Holds (capacity : Nat) (q : RingQueue) (held : List ConnId) : Prop where
  capacity : q.capacity = capacity
  contents : q.contents = held
  real : ∀ id ∈ held, id ≠ usizeMax

def QueueCall.Real : QueueCall → Prop
  | .push id => id ≠ usizeMax
  | _ => True

instance (call : QueueCall) : Decidable call.Real :=
  match call with
  | .push id => inferInstanceAs (Decidable (id ≠ usizeMax))
  | .pop | .len | .isEmpty => .isTrue trivial

theorem new_holds (capacity : Nat) : Holds capacity (.new capacity) [] := ⟨rfl, rfl, fun _ member => by cases member⟩

theorem call_holds (capacity : Nat) (cells : 1 ≤ capacity) (q : RingQueue) (held : List ConnId) (call : QueueCall)
    (holds : Holds capacity q held) (real : call.Real) :
    ∃ q', q.call call = some ((fifo (capacity - 1) held call).1, q') ∧ Holds capacity q' (fifo (capacity - 1) held call).2 := by
  obtain ⟨rfl, rfl, ids⟩ := holds
  have nonzero : q.capacity ≠ 0 := Nat.ne_of_gt cells
  cases call with
  | push id =>
      by_cases full : q.contents.length = q.capacity - 1
      · rw [fifo, if_pos full]
        exact ⟨q, by rw [RingQueue.call, push_full q id nonzero full], rfl, rfl, ids⟩
      · rw [fifo, if_neg full]
        obtain ⟨q', pushed, contents, same⟩ := push_room q id nonzero full
        refine ⟨q', by rw [RingQueue.call, pushed], same, contents, fun other member => ?_⟩
        rcases List.mem_append.mp member with old | last
        · exact ids other old
        · exact List.mem_singleton.mp last ▸ real
  | pop =>
      cases front : q.contents with
      | nil => exact ⟨q, by rw [RingQueue.call, pop_empty q front]; rfl, rfl, front, fun _ member => by cases member⟩
      | cons id rest =>
          rw [front] at ids
          obtain ⟨q', popped, contents, same⟩ := pop_front q id rest front (ids id List.mem_cons_self)
          exact ⟨q', by rw [RingQueue.call, popped]; rfl, same, contents, fun other member => ids other (List.mem_cons_of_mem _ member)⟩
  | len => exact ⟨q, by rw [RingQueue.call, ← contents_length]; rfl, rfl, rfl, ids⟩
  | isEmpty =>
      refine ⟨q, ?_, rfl, rfl, ids⟩
      rw [RingQueue.call, RingQueue.isEmpty, ← contents_length, fifo]
      cases q.contents <;> rfl

theorem queue_is_fifo (capacity : Nat) (calls : List QueueCall) (cells : 1 ≤ capacity) (real : ∀ call ∈ calls, call.Real) :
    ∃ q, answers RingQueue.call (.new capacity) calls = some ((specified (fifo (capacity - 1)) [] calls).1, q) ∧
      q.contents = (specified (fifo (capacity - 1)) [] calls).2 ∧
      ∀ id, q.contents.length = capacity - 1 → q.push id = .ok (.error id, q) := by
  obtain ⟨q, answered, holds⟩ :=
    answers_refine (Holds capacity) QueueCall.Real (call_holds capacity cells) calls _ [] (new_holds capacity) real
  refine ⟨q, answered, holds.contents, fun id full => push_full q id ?_ (holds.capacity ▸ full)⟩
  have same := holds.capacity
  omega

theorem queue_wraps : ∃ q, answers RingQueue.call (.new 2) [.push 5, .push 6, .pop, .push 7, .len, .pop, .pop, .isEmpty] =
    some ([.pushed (.ok ()), .pushed (.error 6), .popped (some 5), .pushed (.ok ()), .held 1, .popped (some 7), .popped none,
      .vacant true], q) := by
  obtain ⟨q, answered, _⟩ := queue_is_fifo 2 [.push 5, .push 6, .pop, .push 7, .len, .pop, .pop, .isEmpty] (by decide) (by decide)
  exact ⟨q, answered⟩

end Ners.Server

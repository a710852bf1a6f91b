import Ners.Base.Framing

set_option autoImplicit false

namespace Ners.Framing

variable {φ ε : Type} (parse : Bytes → Except ε (Option φ) × Bytes)

-- An answer that bytes which arrive later do not change.
def Settles (buf : Bytes) (answer : Except ε (Option φ)) (left : Bytes) : Prop :=
  ∀ suffix, parse (buf ++ suffix) = (answer, left ++ suffix)

-- Every answer is such a one, except that the parser waits.
def Stable : Prop :=
  ∀ buf, parse buf = (.ok none, buf) ∨ (∃ e left, Settles parse buf (.error e) left) ∨
    ∃ frame left, left.length < buf.length ∧ Settles parse buf (.ok (some frame)) left

-- What a buffer drains to, however many turns it takes.
inductive Drained : Bytes → Received φ ε → Prop where
  | waits (buf left : Bytes) (answer : parse buf = (.ok none, left)) : Drained buf ⟨[], none, left⟩
  | refuses (buf left : Bytes) (e : ε) (answer : parse buf = (.error e, left)) : Drained buf ⟨[], some e, left⟩
  | frame (buf left : Bytes) (frame : φ) (later : Received φ ε) (answer : parse buf = (.ok (some frame), left))
      (rest : Drained left later) : Drained buf { later with frames := frame :: later.frames }

variable {parse}

theorem settles_now (buf left : Bytes) (answer : Except ε (Option φ)) (settles : Settles parse buf answer left) :
    parse buf = (answer, left) := by
  simpa using settles []

theorem stable_waits (buf left : Bytes) (stable : Stable parse) (answer : parse buf = (.ok none, left)) : left = buf := by
  obtain waits | ⟨e, rest, refuses⟩ | ⟨frame, rest, _, takes⟩ := stable buf
  · exact (Prod.mk.inj (answer.symm.trans waits)).2
  · cases answer.symm.trans (settles_now _ _ _ refuses)
  · cases answer.symm.trans (settles_now _ _ _ takes)

theorem stable_refuses (buf left : Bytes) (e : ε) (stable : Stable parse) (answer : parse buf = (.error e, left)) :
    Settles parse buf (.error e) left := by
  obtain waits | ⟨e, rest, refuses⟩ | ⟨frame, rest, _, takes⟩ := stable buf
  · cases answer.symm.trans waits
  · cases answer.symm.trans (settles_now _ _ _ refuses)
    exact refuses
  · cases answer.symm.trans (settles_now _ _ _ takes)

theorem stable_takes (buf left : Bytes) (frame : φ) (stable : Stable parse) (answer : parse buf = (.ok (some frame), left)) :
    left.length < buf.length ∧ Settles parse buf (.ok (some frame)) left := by
  obtain waits | ⟨e, rest, refuses⟩ | ⟨frame, rest, shorter, takes⟩ := stable buf
  · cases answer.symm.trans waits
  · cases answer.symm.trans (settles_now _ _ _ refuses)
  · cases answer.symm.trans (settles_now _ _ _ takes)
    exact ⟨shorter, takes⟩

theorem drained_unique (buf : Bytes) (one other : Received φ ε) (first : Drained parse buf one)
    (second : Drained parse buf other) : one = other := by
  induction first generalizing other with
  | waits buf left answer =>
      cases second with
      | waits _ _ also => rw [(Prod.mk.inj (answer.symm.trans also)).2]
      | refuses _ _ _ also => cases answer.symm.trans also
      | frame _ _ _ _ also _ => cases answer.symm.trans also
  | refuses buf left e answer =>
      cases second with
      | waits _ _ also => cases answer.symm.trans also
      | refuses _ _ _ also =>
          cases answer.symm.trans also
          rfl
      | frame _ _ _ _ also _ => cases answer.symm.trans also
  | frame buf left frame later answer rest ih =>
      cases second with
      | waits _ _ also => cases answer.symm.trans also
      | refuses _ _ _ also => cases answer.symm.trans also
      | frame _ _ _ later' also rest' =>
          cases answer.symm.trans also
          rw [ih later' rest']

theorem drain_drained (fuel : Nat) (buf : Bytes) (stable : Stable parse) (enough : buf.length < fuel) :
    Drained parse buf (drain parse fuel buf) := by
  induction fuel generalizing buf with
  | zero => exact absurd enough (Nat.not_lt_zero _)
  | succ fuel ih =>
      rw [drain]
      cases answer : parse buf with
      | mk result left =>
          cases result with
          | error e => exact .refuses buf left e answer
          | ok found =>
              cases found with
              | none => exact .waits buf left answer
              | some frame =>
                  have shorter := (stable_takes buf left frame stable answer).1
                  exact .frame buf left frame _ answer (ih left (by omega))

theorem drained_append (buf suffix : Bytes) (early later : Received φ ε) (stable : Stable parse)
    (first : Drained parse buf early) (unfailed : early.failure = none) (second : Drained parse (early.buf ++ suffix) later) :
    Drained parse (buf ++ suffix) { later with frames := early.frames ++ later.frames } := by
  induction first with
  | waits buf left answer =>
      obtain rfl := stable_waits buf left stable answer
      exact second
  | refuses buf left e answer => cases unfailed
  | frame buf left frame rest answer _ ih =>
      exact .frame _ _ frame _ ((stable_takes buf left frame stable answer).2 suffix) (ih unfailed second)

theorem drained_refused (buf suffix : Bytes) (early : Received φ ε) (e : ε) (stable : Stable parse)
    (first : Drained parse buf early) (failed : early.failure = some e) :
    ∃ left, Drained parse (buf ++ suffix) ⟨early.frames, some e, left⟩ := by
  induction first with
  | waits buf left answer => cases failed
  | refuses buf left e' answer =>
      obtain rfl := Option.some.inj failed
      exact ⟨_, .refuses _ _ e' (stable_refuses buf left e' stable answer suffix)⟩
  | frame buf left frame later answer _ ih =>
      obtain ⟨rest, drained⟩ := ih failed
      exact ⟨rest, .frame _ _ frame _ ((stable_takes buf left frame stable answer).2 suffix) drained⟩

theorem drained_settled (buf : Bytes) (received : Received φ ε) (stable : Stable parse) (drained : Drained parse buf received)
    (unfailed : received.failure = none) : parse received.buf = (.ok none, received.buf) := by
  induction drained with
  | waits buf left answer =>
      obtain rfl := stable_waits buf left stable answer
      exact answer
  | refuses buf left e answer => cases unfailed
  | frame buf left frame later answer _ ih => exact ih unfailed

-- Equal but for the bytes behind an error, which the driver never looks at.
def Agree (one other : Received φ ε) : Prop :=
  one.frames = other.frames ∧ one.failure = other.failure ∧ (one.failure = none → one.buf = other.buf)

theorem feed_drained (buf : Bytes) (chunks : List Bytes) (stable : Stable parse) (settled : parse buf = (.ok none, buf)) :
    ∃ received, Drained parse (buf ++ chunks.flatten) received ∧ Agree (feed parse buf chunks) received := by
  induction chunks generalizing buf with
  | nil =>
      rw [List.flatten_nil, List.append_nil]
      exact ⟨_, .waits buf buf settled, rfl, rfl, fun _ => rfl⟩
  | cons chunk more ih =>
      have first := drain_drained _ (buf ++ chunk) stable (Nat.lt_succ_self _)
      rw [feed, List.flatten_cons, ← List.append_assoc]
      generalize drain parse ((buf ++ chunk).length + 1) (buf ++ chunk) = got at first
      cases failure : got.failure with
      | some e =>
          obtain ⟨left, drained⟩ := drained_refused _ more.flatten got e stable first failure
          refine ⟨_, drained, ?_⟩
          refine ⟨rfl, failure, fun unfailed => ?_⟩
          cases failure.symm.trans unfailed
      | none =>
          obtain ⟨received, drained, frames, failures, left⟩ := ih got.buf (drained_settled _ got stable first failure)
          refine ⟨_, drained_append _ _ got received stable first failure drained, ?_⟩
          exact ⟨congrArg (got.frames ++ ·) frames, failures, left⟩

theorem feed_agrees (chunks others : List Bytes) (stable : Stable parse) (empty : parse [] = (.ok none, []))
    (same : chunks.flatten = others.flatten) : Agree (feed parse [] chunks) (feed parse [] others) := by
  obtain ⟨one, drained, frames, failure, left⟩ := feed_drained [] chunks stable empty
  obtain ⟨other, also, frames', failure', left'⟩ := feed_drained [] others stable empty
  rw [← same] at also
  obtain rfl := drained_unique _ one other drained also
  refine ⟨frames.trans frames'.symm, failure.trans failure'.symm, fun unfailed => ?_⟩
  exact (left unfailed).trans (left' (failure'.trans (failure.symm.trans unfailed))).symm

end Ners.Framing

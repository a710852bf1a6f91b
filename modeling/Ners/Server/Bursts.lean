import Ners.Server.Interleaving

set_option autoImplicit false

namespace Ners.Server

open Function (update update_eq_self)
open Refinement (burst_cons completed run_performed)
open Runs (execute)

theorem step_alive (site : Site) (s s' : System) (a : Action) (taken : s.step site a = some s') : s.acceptor ≠ .dead := by
  intro dead
  unfold System.step at taken
  rw [if_pos dead] at taken
  cases taken

theorem push_offers (site : Site) (s s' : System) (queue : StageId) (taken : s.step site (pushInto queue) = some s') :
    ∃ id, s.offers queue = some id := by
  have stepped := step_cases site s s' _ taken
  cases source : queue.source with
  | none =>
      simp only [offers_inserted s queue _ source]
      simp only [pushInto, source] at stepped
      cases stepped with
      | acceptorDied id waiting fault inserted => exact ⟨id, waiting, inserted⟩
      | acceptorLost id back waiting queue inserted => exact ⟨id, waiting, inserted⟩
      | acceptorPushed id waiting queue inserted => exact ⟨id, waiting, inserted⟩
  | some stage =>
      simp only [offers_holding s queue stage _ source]
      simp only [pushInto, source] at stepped
      cases stepped with
      | finished _ id holding => exact ⟨id, holding⟩
      | panicked _ output id fault holding => exact ⟨id, holding⟩
      | passed _ output id result queue holding => exact ⟨id, holding⟩

theorem pop_idle (site : Site) (s s' : System) (queue : StageId) (taken : s.step site (.pop queue) = some s') :
    s.executors queue = .idle := by
  cases step_cases site s s' _ taken with
  | foundNone _ queue idle => exact idle
  | popped _ id queue idle => exact idle

theorem calls_queue (a : Action) (calls : a.calls = true) : (∃ queue, a = pushInto queue) ∨ ∃ queue, a = .pop queue := by
  cases a with
  | acceptorPush => exact .inl ⟨.parse, rfl⟩
  | pop stage => exact .inr ⟨stage, rfl⟩
  | push stage =>
      cases stage with
      | parse => exact .inl ⟨.route, rfl⟩
      | route => exact .inl ⟨.app, rfl⟩
      | app => exact .inl ⟨.encode, rfl⟩
      | encode => exact .inl ⟨.netOut, rfl⟩
      | netOut => cases calls
  | accept | insert | acceptorGauge | process | unlock => cases calls

theorem hears_quiet (s : System) (queue : StageId) (shown : Option Access) (quiet : callBehind queue shown = none) :
    s.hears queue shown = s := by
  cases shown with
  | none => rfl
  | some access =>
      cases access with
      | published | refused | returned => cases quiet
      | wrote | read => rfl

theorem put_put (w : Interleaved) (queue : StageId) (ring ring' : Spsc) :
    (w.put queue ring).put queue ring' = w.put queue ring' := by
  simp only [Interleaved.put, Function.update_idem]

theorem outside_put (s : System) (queue : StageId) : s.outside.put queue ⟨s.queues queue, .idle, .idle⟩ = s.outside := by
  simp only [Interleaved.put, System.outside, update_eq_self]

theorem put_access (w : Interleaved) (queue : StageId) (move : Move) (ring ring' : Spsc) (moved : ring.step move = some ring') :
    (w.put queue ring).access queue move =
      some { w.put queue ring' with system := (w.put queue ring').system.hears queue (ring.observe move) } := by
  rw [Interleaved.access, ring_put, moved, Option.map_some, put_put]

theorem put_quiet (w : Interleaved) (queue : StageId) (move : Move) (ring ring' : Spsc) (moved : ring.step move = some ring')
    (quiet : callBehind queue (ring.observe move) = none) : (w.put queue ring).access queue move = some (w.put queue ring') := by
  rw [put_access w queue move ring ring' moved, hears_quiet _ queue _ quiet]

theorem put_produces (site : Site) (w : Interleaved) (queue : StageId) (ring : Spsc) (alive : w.system.acceptor ≠ .dead) :
    (w.put queue ring).step site (.produce queue) = (w.put queue ring).access queue .producer ∧
      (w.put queue ring).call (.produce queue) = callBehind queue (ring.observe .producer) := by
  refine ⟨?_, ?_⟩
  · unfold Interleaved.step
    exact if_neg alive
  · rw [Interleaved.call, ring_put]

theorem put_consumes (site : Site) (w : Interleaved) (queue : StageId) (ring : Spsc) (alive : w.system.acceptor ≠ .dead)
    (idle : w.system.executors queue = .idle) :
    (w.put queue ring).step site (.consume queue) = (w.put queue ring).access queue .consumer ∧
      (w.put queue ring).call (.consume queue) = callBehind queue (ring.observe .consumer) := by
  refine ⟨?_, ?_⟩
  · unfold Interleaved.step
    exact (if_neg alive).trans (if_pos idle)
  · rw [Interleaved.call, ring_put]

-- The state behind a call that nothing came between.
theorem put_outside (s : System) (queue : StageId) (q : RingQueue) (shown : Option Access) :
    ({ s.outside.put queue ⟨q, .idle, .idle⟩ with
      system := (s.outside.put queue ⟨q, .idle, .idle⟩).system.hears queue shown } : Interleaved) =
        (System.hears { s with queues := update s.queues queue q } queue shown).outside := by
  simp only [Interleaved.put, System.outside]
  congr 1
  · exact update_eq_self queue fun _ => Producer.idle
  · exact update_eq_self queue fun _ => Consumer.idle

theorem beat_on (site : Site) (start middle last : Interleaved) (beat : Beat) (later : List Beat) (done : List Action)
    (taken : start.step site beat = some middle)
    (rest : execute (Interleaved.step site) middle later = some last ∧
      completed (Interleaved.step site) Interleaved.call middle later = done) :
    execute (Interleaved.step site) start (beat :: later) = some last ∧
      completed (Interleaved.step site) Interleaved.call start (beat :: later) = (start.call beat).toList ++ done :=
  burst_cons start middle last beat later done taken rest

theorem outside_pushes (site : Site) (s : System) (queue : StageId) (id : ConnId) (alive : s.acceptor ≠ .dead)
    (offers : s.offers queue = some id) :
    s.outside.step site (.push queue) =
      if (s.queues queue).capacity = 0 then some (s.unwinds queue).outside else s.outside.access queue (.push id) := by
  unfold Interleaved.step
  rw [if_neg (show s.outside.system.acceptor ≠ .dead from alive)]
  simp only [System.outside, offers]
  rfl

-- The division panics before the first store.
theorem unwound_burst (site : Site) (s : System) (queue : StageId) (id : ConnId) (alive : s.acceptor ≠ .dead)
    (offers : s.offers queue = some id) (zero : (s.queues queue).capacity = 0) :
    execute (Interleaved.step site) s.outside [.push queue] = some (s.unwinds queue).outside ∧
      completed (Interleaved.step site) Interleaved.call s.outside [.push queue] = [pushInto queue] := by
  have begun := (outside_pushes site s queue id alive offers).trans (if_pos zero)
  have call : s.outside.call (.push queue) = some (pushInto queue) := if_pos zero
  have run := beat_on site _ _ _ _ [] _ begun ⟨rfl, rfl⟩
  rw [call] at run
  exact run

theorem push_begins (site : Site) (s : System) (queue : StageId) (id : ConnId) (alive : s.acceptor ≠ .dead)
    (offers : s.offers queue = some id) (nonzero : (s.queues queue).capacity ≠ 0) :
    s.outside.step site (.push queue) =
        some (s.outside.put queue ⟨s.queues queue, .loadedTail id (s.queues queue).tail, .idle⟩) ∧
      s.outside.call (.push queue) = none := by
  have moved : Spsc.step ⟨s.queues queue, .idle, .idle⟩ (.push id) =
      some ⟨s.queues queue, .loadedTail id (s.queues queue).tail, .idle⟩ := if_neg nonzero
  have quiet := put_quiet s.outside queue (.push id) _ _ moved rfl
  rw [outside_put] at quiet
  exact ⟨(outside_pushes site s queue id alive offers).trans ((if_neg nonzero).trans quiet), if_neg nonzero⟩

-- Two loads find the queue full.
theorem refused_burst (site : Site) (s : System) (queue : StageId) (id : ConnId) (alive : s.acceptor ≠ .dead)
    (offers : s.offers queue = some id) (nonzero : (s.queues queue).capacity ≠ 0)
    (full : ((s.queues queue).tail + 1) % (s.queues queue).capacity = (s.queues queue).head) :
    execute (Interleaved.step site) s.outside [.push queue, .produce queue] =
        some (System.pushed { s with queues := update s.queues queue (s.queues queue) } queue false).outside ∧
      completed (Interleaved.step site) Interleaved.call s.outside [.push queue, .produce queue] = [pushInto queue] := by
  obtain ⟨begun, unsaid⟩ := push_begins site s queue id alive offers nonzero
  have produces (ring : Spsc) := put_produces site s.outside queue ring alive
  have moved : Spsc.step ⟨s.queues queue, .loadedTail id (s.queues queue).tail, .idle⟩ .producer =
      some ⟨s.queues queue, .idle, .idle⟩ := if_pos full
  have shown : Spsc.observe ⟨s.queues queue, .loadedTail id (s.queues queue).tail, .idle⟩ .producer = some (.refused id) :=
    if_pos full
  have last := (produces _).1.trans (put_access s.outside queue .producer _ _ moved)
  rw [shown, put_outside] at last
  have run := beat_on site _ _ _ _ _ _ begun (beat_on site _ _ _ _ [] _ last ⟨rfl, rfl⟩)
  rw [unsaid, (produces _).2, shown] at run
  exact run

-- The store of the tail comes fourth.
theorem stored_burst (site : Site) (s : System) (queue : StageId) (id : ConnId) (alive : s.acceptor ≠ .dead)
    (offers : s.offers queue = some id) (nonzero : (s.queues queue).capacity ≠ 0)
    (free : ((s.queues queue).tail + 1) % (s.queues queue).capacity ≠ (s.queues queue).head) :
    execute (Interleaved.step site) s.outside [.push queue, .produce queue, .produce queue, .produce queue] =
        some (System.pushed { s with queues := update s.queues queue ((s.queues queue).store id nonzero) } queue true).outside ∧
      completed (Interleaved.step site) Interleaved.call s.outside [.push queue, .produce queue, .produce queue, .produce queue] =
        [pushInto queue] := by
  obtain ⟨begun, unsaid⟩ := push_begins site s queue id alive offers nonzero
  have produces (ring : Spsc) := put_produces site s.outside queue ring alive
  have within := tail_within (s.queues queue) nonzero
  have second : Spsc.step ⟨s.queues queue, .loadedTail id (s.queues queue).tail, .idle⟩ .producer =
      some ⟨s.queues queue, .foundRoom id (s.queues queue).tail, .idle⟩ := if_neg free
  have silent : Spsc.observe ⟨s.queues queue, .loadedTail id (s.queues queue).tail, .idle⟩ .producer = none := if_neg free
  have third : Spsc.step ⟨s.queues queue, .foundRoom id (s.queues queue).tail, .idle⟩ .producer =
      some ⟨(s.queues queue).storeCell (s.queues queue).tail id, .storedCell id (s.queues queue).tail, .idle⟩ := if_pos within
  have fourth : Spsc.step
        ⟨(s.queues queue).storeCell (s.queues queue).tail id, .storedCell id (s.queues queue).tail, .idle⟩ .producer =
      some ⟨(s.queues queue).store id nonzero, .idle, .idle⟩ := dif_neg nonzero
  have last := (produces _).1.trans (put_access s.outside queue .producer _ _ fourth)
  rw [Spsc.observe, put_outside] at last
  have run := beat_on site _ _ _ _ _ _ begun
    (beat_on site _ _ _ _ _ _ ((produces _).1.trans (put_quiet s.outside queue .producer _ _ second (by rw [silent]; rfl)))
      (beat_on site _ _ _ _ _ _ ((produces _).1.trans (put_quiet s.outside queue .producer _ _ third rfl))
        (beat_on site _ _ _ _ [] _ last ⟨rfl, rfl⟩)))
  rw [unsaid, (produces _).2, (produces _).2, (produces _).2, silent] at run
  exact run

theorem push_burst (site : Site) (s s' : System) (queue : StageId) (taken : s.step site (pushInto queue) = some s') :
    ∃ burst, execute (Interleaved.step site) s.outside burst = some s'.outside ∧
      completed (Interleaved.step site) Interleaved.call s.outside burst = [pushInto queue] := by
  have alive := step_alive site s s' _ taken
  obtain ⟨id, offers⟩ := push_offers site s s' queue taken
  by_cases zero : (s.queues queue).capacity = 0
  · have unwound := push_unwound site s queue id .panic alive offers (push_panics _ id zero)
    obtain rfl := Option.some.inj (taken.symm.trans unwound)
    exact ⟨_, unwound_burst site s queue id alive offers zero⟩
  · by_cases full : ((s.queues queue).tail + 1) % (s.queues queue).capacity = (s.queues queue).head
    · have refused : (s.queues queue).push id = .ok (.error id, s.queues queue) := by
        rw [RingQueue.push, dif_neg zero, if_pos full]
      obtain rfl := Option.some.inj (taken.symm.trans (push_taken site s queue id _ _ alive offers refused))
      exact ⟨_, refused_burst site s queue id alive offers zero full⟩
    · have stored : (s.queues queue).push id = .ok (.ok (), (s.queues queue).store id zero) := by
        rw [RingQueue.push, dif_neg zero, if_neg full]
      obtain rfl := Option.some.inj (taken.symm.trans (push_taken site s queue id _ _ alive offers stored))
      exact ⟨_, stored_burst site s queue id alive offers zero full⟩

theorem pop_burst (site : Site) (s s' : System) (queue : StageId) (taken : s.step site (.pop queue) = some s') :
    ∃ burst, execute (Interleaved.step site) s.outside burst = some s'.outside ∧
      completed (Interleaved.step site) Interleaved.call s.outside burst = [.pop queue] := by
  have alive := step_alive site s s' _ taken
  have idle := pop_idle site s s' queue taken
  have consumes (ring : Spsc) := put_consumes site s.outside queue ring alive idle
  have first : Spsc.step ⟨s.queues queue, .idle, .idle⟩ .consumer =
      some ⟨s.queues queue, .idle, .loadedHead (s.queues queue).head⟩ := rfl
  have begun := (consumes _).1.trans (put_quiet s.outside queue .consumer _ _ first rfl)
  have unsaid := (consumes ⟨s.queues queue, .idle, .idle⟩).2
  rw [outside_put] at begun unsaid
  by_cases same : (s.queues queue).head = (s.queues queue).tail
  · have popped : (s.queues queue).pop = (none, s.queues queue) := dif_pos same
    obtain rfl := Option.some.inj (taken.symm.trans (pop_taken site s queue _ _ alive idle popped))
    have moved : Spsc.step ⟨s.queues queue, .idle, .loadedHead (s.queues queue).head⟩ .consumer =
        some ⟨s.queues queue, .idle, .idle⟩ := if_pos same
    have shown : Spsc.observe ⟨s.queues queue, .idle, .loadedHead (s.queues queue).head⟩ .consumer = some (.returned none) :=
      if_pos same
    have last := (consumes _).1.trans (put_access s.outside queue .consumer _ _ moved)
    rw [shown, put_outside] at last
    have run := beat_on site _ _ _ _ _ _ begun (beat_on site _ _ _ _ [] _ last ⟨rfl, rfl⟩)
    rw [unsaid, (consumes _).2, shown] at run
    exact ⟨_, run⟩
  · have nonzero := differ_nonzero (s.queues queue) same
    have within := head_within (s.queues queue) nonzero
    have loaded := List.getElem?_eq_getElem within
    have front : (s.queues queue).buffer.getD (s.queues queue).head usizeMax = (s.queues queue).buffer[(s.queues queue).head] := by
      rw [List.getD_eq_getElem?_getD, loaded, Option.getD_some]
    generalize (s.queues queue).buffer[(s.queues queue).head] = value at loaded front
    have popped : (s.queues queue).pop = (if value = usizeMax then none else some value, (s.queues queue).advance nonzero) := by
      rw [RingQueue.pop, dif_neg same]
      simp only [front]
    obtain rfl := Option.some.inj (taken.symm.trans (pop_taken site s queue _ _ alive idle popped))
    have second : Spsc.step ⟨s.queues queue, .idle, .loadedHead (s.queues queue).head⟩ .consumer =
        some ⟨s.queues queue, .idle, .foundItem (s.queues queue).head⟩ := if_neg same
    have silent : Spsc.observe ⟨s.queues queue, .idle, .loadedHead (s.queues queue).head⟩ .consumer = none := if_neg same
    have third : Spsc.step ⟨s.queues queue, .idle, .foundItem (s.queues queue).head⟩ .consumer =
        some ⟨s.queues queue, .idle, .loadedCell (s.queues queue).head value⟩ := by
      simp only [Spsc.step, loaded, Option.map_some]
    have read : Spsc.observe ⟨s.queues queue, .idle, .foundItem (s.queues queue).head⟩ .consumer =
        some (.read (s.queues queue).head value) := by simp only [Spsc.observe, loaded, Option.map_some]
    have fourth : Spsc.step ⟨s.queues queue, .idle, .loadedCell (s.queues queue).head value⟩ .consumer =
        some ⟨(s.queues queue).advance nonzero, .idle, .idle⟩ := dif_neg nonzero
    have last := (consumes _).1.trans (put_access s.outside queue .consumer _ _ fourth)
    rw [Spsc.observe, put_outside] at last
    have run := beat_on site _ _ _ _ _ _ begun
      (beat_on site _ _ _ _ _ _ ((consumes _).1.trans (put_quiet s.outside queue .consumer _ _ second (by rw [silent]; rfl)))
        (beat_on site _ _ _ _ _ _ ((consumes _).1.trans (put_quiet s.outside queue .consumer _ _ third (by rw [read]; rfl)))
          (beat_on site _ _ _ _ [] _ last ⟨rfl, rfl⟩)))
    rw [unsaid, (consumes _).2, (consumes _).2, (consumes _).2, silent, read] at run
    exact ⟨_, run⟩

theorem action_burst (site : Site) (s s' : System) (a : Action) (taken : s.step site a = some s') :
    ∃ burst, execute (Interleaved.step site) s.outside burst = some s'.outside ∧
      completed (Interleaved.step site) Interleaved.call s.outside burst = [a] := by
  cases calls : a.calls with
  | true =>
      rcases calls_queue a calls with ⟨queue, rfl⟩ | ⟨queue, rfl⟩
      · exact push_burst site s s' queue taken
      · exact pop_burst site s s' queue taken
  | false =>
      have step : s.outside.step site (.whole a) = some s'.outside := by
        unfold Interleaved.step
        rw [if_neg (show s.outside.system.acceptor ≠ .dead from step_alive site s s' a taken)]
        simp only [calls, System.outside, taken, Option.map_some, Bool.false_eq_true, if_false]
      exact ⟨[.whole a], beat_on site _ _ _ _ [] _ step ⟨rfl, rfl⟩⟩

-- Loads and stores in any order amount to the calls in the order of their last
-- accesses, and every order of calls is one of loads and stores.
theorem accesses_amount_to_calls (site : Site) (config : OrchestratorConfig) :
    (∀ beats w, execute (Interleaved.step site) (System.new config).outside beats = some w →
      ∃ s, execute (System.step site) (.new config)
          (completed (Interleaved.step site) Interleaved.call (System.new config).outside beats) = some s ∧
        { w.system with queues := s.queues } = s ∧
        (∀ queue, (w.system.queues queue).contents = (s.queues queue).contents) ∧
        (s.acceptor ≠ .dead → w.WaitFree site)) ∧
    ∀ actions s, execute (System.step site) (.new config) actions = some s →
      ∃ beats, execute (Interleaved.step site) (System.new config).outside beats = some s.outside ∧
        completed (Interleaved.step site) Interleaved.call (System.new config).outside beats = actions := by
  constructor
  · intro beats w executed
    obtain ⟨queues, reached, refines⟩ := interleaved_run site config beats w executed
    exact ⟨w.atop queues, reached, rfl, fun queue => (refines.alike queue).contents, refines_wait_free site w queues refines⟩
  · intro actions s executed
    exact run_performed System.outside (fun s a s' taken => action_burst site s s' a taken) actions (.new config) s executed

-- The pop begins behind the push and still takes effect before it: the tail is
-- loaded while the cell is written and not yet published.
def racingCalls : List Beat :=
  [.whole (.accept 1), .whole .insert, .push .parse, .consume .parse, .produce .parse, .produce .parse, .consume .parse,
    .produce .parse, .whole .acceptorGauge, .consume .parse, .consume .parse, .consume .parse, .consume .parse]

theorem racing_calls_amount : ∃ w s,
    execute (Interleaved.step plainSite) (System.new smallConfig).outside racingCalls = some w ∧
    execute (System.step plainSite) (.new smallConfig)
      [.accept 1, .insert, .pop .parse, .acceptorPush, .acceptorGauge, .pop .parse] = some s ∧
    { w.system with queues := s.queues } = s ∧ s.executors .parse = .popped 0 := by
  obtain ⟨s, reached, same, _⟩ := (accesses_amount_to_calls plainSite smallConfig).1 racingCalls _ rfl
  refine ⟨_, s, rfl, reached, same, ?_⟩
  rw [← same]
  rfl

end Ners.Server

import Ners.Server.Slots

set_option autoImplicit false

namespace Ners.Server

open Placement (move leave enter)

-- An occupied slot whose id is in no queue and in no hands.
structure System.Adrift (s : System) (id : ConnId) (conn : ConnState) : Prop where
  occupied : s.slab.get id = some conn
  nowhere : ∀ p, id ∉ s.ids p

theorem adrift_stays (site : Site) (s s' : System) (t : Tickets) (a : Action) (id : ConnId) (conn : ConnState)
    (ledger : Ledger site s t) (adrift : s.Adrift id conn) (taken : s.step site a = some s') : s'.Adrift id conn := by
  have elsewhere (p : Place) (other : ConnId) (rest : List ConnId) (front : s.ids p = other :: rest) : id ≠ other := by
    rintro rfl
    exact adrift.nowhere p (front ▸ List.mem_cons_self)
  have left (p q : Place) : id ∉ leave p s.ids q := fun member => adrift.nowhere q (Placement.mem_leave p q s.ids id member)
  have moved (p q : Place) (other : ConnId) (rest : List ConnId) (front : s.ids p = other :: rest) (differ : p ≠ q) (r : Place) :
      id ∉ move p q s.ids r := by
    intro member
    rcases Placement.mem_move p q r s.ids other id rest front differ member with old | ⟨_, same⟩
    · exact adrift.nowhere r old
    · exact elsewhere p other rest front same
  cases step_effect site s s' a (ledger_real site s t ledger) taken with
  | quiet action ids same idle => exact ⟨same.slab ▸ adrift.occupied, ids ▸ adrift.nowhere⟩
  | moved p q other rest source target front ids same locked room =>
      have differ : p ≠ q := fun same => source_not_target a p source (same ▸ target)
      exact ⟨same.slab ▸ adrift.occupied, ids ▸ moved p q other rest front differ⟩
  | dropped p other rest source front ids same locked refused => exact ⟨same.slab ▸ adrift.occupied, ids ▸ left p⟩
  | issued new action empty ids inserted log accepted =>
      obtain ⟨_, _, empty, _, others⟩ := insert_issues s.slab s'.slab _ new ledger.slab inserted
      have differ : id ≠ new := by
        rintro rfl
        cases empty.symm.trans adrift.occupied
      refine ⟨(others id differ).trans adrift.occupied, ?_⟩
      intro r member
      rw [ids] at member
      rcases Placement.mem_enter _ r s.ids new id member with old | ⟨_, same⟩
      · exact adrift.nowhere r old
      · exact differ same
  | refused action empty ids slab log accepted => exact ⟨slab ▸ adrift.occupied, ids ▸ adrift.nowhere⟩
  | served stage io other action front slab log accepted ids =>
      refine ⟨?_, ?_⟩
      · rw [slab, process_elsewhere site stage io other id s.slab s.metrics (elsewhere _ other [] front)]
        exact adrift.occupied
      · rw [ids]
        rcases onward_either (processOne site stage io other s.slab s.metrics) stage s.ids with on | off
        · rw [on]
          exact moved _ _ other [] front (by simp)
        · rw [off]
          exact left _

def System.Strands (s : System) (kind : ConnState → Prop) : Prop := ∃ id conn, s.Adrift id conn ∧ kind conn

theorem sound_iff_none_stranded (site : Site) (config : OrchestratorConfig) (actions : List Action) (s : System)
    (Sound : System → Prop) (kind : ConnState → Prop) (allowed : System → Action → Prop)
    (keeps : ∀ s s' t a, Ledger site s t → Sound s → s.step site a = some s' → allowed s a → Sound s')
    (strands : ∀ s s' t a, Ledger site s t → s.step site a = some s' → ¬ allowed s a → s'.Strands kind)
    (apart : ∀ s id conn, s.Adrift id conn → kind conn → ¬ Sound s) (empty : ∀ s, (∀ id, s.slab.get id = none) → Sound s)
    (executed : Runs.execute (System.step site) (System.new config) actions = some s) :
    Sound s ↔ Runs.Meets (System.step site) allowed (System.new config) actions := by
  refine Runs.sound_iff_meets (fun s => ∃ t, Ledger site s t) Sound (System.Strands · kind) _ s actions ?_ ?_ ?_ ?_ ?_
    ⟨_, new_ledger site config⟩ (empty _ (new_get config.slabCapacity)) executed
  · intro s a s' known taken
    obtain ⟨t, ledger⟩ := known
    exact ⟨_, ledger_step site s s' t a ledger taken⟩
  · intro s a s' known sound taken may
    obtain ⟨t, ledger⟩ := known
    exact keeps s s' t a ledger sound taken may
  · intro s a s' known _ taken not
    obtain ⟨t, ledger⟩ := known
    exact strands s s' t a ledger taken not
  · intro s a s' known stranded taken
    obtain ⟨t, ledger⟩ := known
    obtain ⟨id, conn, adrift, same⟩ := stranded
    exact ⟨id, conn, adrift_stays site s s' t a id conn ledger adrift taken, same⟩
  · intro s stranded
    obtain ⟨id, conn, adrift, same⟩ := stranded
    exact apart s id conn adrift same

theorem served_adrift (site : Site) (s s' : System) (t : Tickets) (stage : StageId) (io : Io) (id : ConnId) (conn : ConnState)
    (ledger : Ledger site s t) (front : s.ids (.popped stage) = [id])
    (slab : s'.slab = (processOne site stage io id s.slab s.metrics).slab)
    (ids : s'.ids = (processOne site stage io id s.slab s.metrics).onward stage s.ids)
    (stops : (processOne site stage io id s.slab s.metrics).next ≠ .ok (some id))
    (after : (processOne site stage io id s.slab s.metrics).slab.get id = some conn) : s'.Adrift id conn := by
  have left : s'.ids = leave (.popped stage) s.ids := by
    rw [ids]
    apply onward_none
    intro other next
    obtain rfl := process_keeps_id site stage io id other s.slab s.metrics next
    exact stops next
  refine ⟨slab ▸ after, ?_⟩
  intro p member
  rw [left] at member
  exact Placement.left_apart (fun other => other) _ p s.ids id id [] front (ids_apart site s t ledger) member rfl

theorem popped_executor (s : System) (stage : StageId) (id : ConnId) :
    s.ids (.popped stage) = [id] ↔ s.executors stage = .popped id := by
  simp only [System.ids]
  cases s.executors stage with
  | popped other => simp [Executor.poppedIds]
  | _ => simp [Executor.poppedIds]

theorem standing_live (site : Site) (socket : Socket) (phase : Phase) (visits : List (StageId × Io)) (conn : ConnState)
    (standing : Standing site socket phase visits conn) : conn.state ≠ .closed := by
  cases standing <;> simp [ConnState.new, parsedConn, routedConn, answeredConn]

theorem popped_conn (site : Site) (s : System) (t : Tickets) (stage : StageId) (id : ConnId) (ledger : Ledger site s t)
    (front : s.ids (.popped stage) = [id]) :
    ∃ conn, s.slab.get id = some conn ∧ conn.stream.isSome = true ∧ conn.state ≠ .closed := by
  obtain ⟨socket, later, shape, _⟩ := ledger_front site s t _ id [] ledger front
  obtain ⟨conn, found, standing⟩ := ledger.standing _ (id, socket) (shape ▸ List.mem_cons_self)
  exact ⟨conn, found, by rw [standing_stream _ _ _ _ _ standing]; rfl, standing_live _ _ _ _ _ standing⟩

end Ners.Server

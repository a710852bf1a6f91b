import Mathlib.Data.List.Induction
import Mathlib.Order.Basic

set_option autoImplicit false

namespace Ners.Recall

variable {α β : Type}

-- The newest of some inputs, and one remembered answer with the moment it was
-- stored.
structure Memo (α β : Type) where
  newest : Option α
  entry : Option (β × Nat)

-- A question reads the clock when it looks at the memory and when it stores.
inductive Event (α : Type) where
  | note (now : Nat) (a : α)
  | ask (checked stored : Nat)

def Event.readings : Event α → List Nat
  | .note now _ => [now]
  | .ask checked stored => [checked, stored]

def Forward (events : List (Event α)) : Prop := (events.flatMap Event.readings).Pairwise (· ≤ ·)

def Event.noted : Event α → Option (Nat × α)
  | .note now a => some (now, a)
  | .ask _ _ => none

def noted (events : List (Event α)) : List (Nat × α) := events.filterMap Event.noted

def start : Memo α β := ⟨none, none⟩

variable (f : α → β) (life : Nat)

def Memo.remembered (m : Memo α β) (checked : Nat) : Option β :=
  m.entry.bind fun entry => if checked - entry.2 < life then some entry.1 else none

def Memo.answer (m : Memo α β) (checked : Nat) : Option β :=
  match m.remembered life checked with
  | some b => some b
  | none => m.newest.map f

def Memo.next (m : Memo α β) : Event α → Memo α β
  | .note _ a => { m with newest := some a }
  | .ask checked stored =>
      match m.remembered life checked, m.newest with
      | none, some a => { m with entry := some (f a, stored) }
      | _, _ => m

-- The moments at which answers are stored.
def Memo.stores (m : Memo α β) : Event α → List Nat
  | .note _ _ => []
  | .ask checked stored =>
      match m.remembered life checked, m.newest with
      | none, some _ => [stored]
      | _, _ => []

def after (events : List (Event α)) : Memo α β := events.foldl (Memo.next f life) start

def storesFrom (m : Memo α β) : List (Event α) → List Nat
  | [] => []
  | event :: later => m.stores life event ++ storesFrom (m.next f life event) later

def stores (events : List (Event α)) : List Nat := storesFrom f life start events

theorem after_snoc (events : List (Event α)) (event : Event α) :
    after f life (events ++ [event]) = (after f life events).next f life event := by
  rw [after, List.foldl_append]
  rfl

theorem stores_from_snoc (m : Memo α β) (events : List (Event α)) (event : Event α) :
    storesFrom f life m (events ++ [event]) = storesFrom f life m events ++ (events.foldl (Memo.next f life) m).stores life event := by
  induction events generalizing m with
  | nil => exact List.append_nil _
  | cons first later ih => rw [List.cons_append, storesFrom, ih, storesFrom, List.append_assoc, List.foldl_cons]

theorem stores_snoc (events : List (Event α)) (event : Event α) :
    stores f life (events ++ [event]) = stores f life events ++ (after f life events).stores life event :=
  stores_from_snoc f life start events event

-- What an answer leaves out was noted less than a lifetime before.
def Covers (checked : Nat) (notes : List (Nat × α)) (b : β) : Prop :=
  ∃ (k now : Nat) (a : α), notes[k]? = some (now, a) ∧ b = f a ∧
    ∀ (j later : Nat) (missed : α), k < j → notes[j]? = some (later, missed) → checked < later + life

-- An answer that was stored came from the newest input there was.
def StoredFrom (stored : Nat) (notes : List (Nat × α)) (b : β) : Prop :=
  ∃ (k now : Nat) (a : α), notes[k]? = some (now, a) ∧ b = f a ∧
    ∀ (j later : Nat) (missed : α), k < j → notes[j]? = some (later, missed) → stored ≤ later

structure Tended (events : List (Event α)) (m : Memo α β) : Prop where
  newest : m.newest = (noted events).getLast?.map Prod.snd
  entry : ∀ b stored, m.entry = some (b, stored) → StoredFrom f stored (noted events) b ∧ stored ∈ stores f life events ∧
    ∀ moment ∈ stores f life events, moment ≤ stored
  none : m.entry = none → stores f life events = []
  spaced : (stores f life events).Pairwise fun early late => early + life ≤ late
  known : ∀ moment ∈ stores f life events, moment ∈ events.flatMap Event.readings
  read : ∀ note ∈ noted events, note.1 ∈ events.flatMap Event.readings

omit f life in
theorem noted_snoc (events : List (Event α)) (event : Event α) :
    noted (events ++ [event]) = noted events ++ event.noted.toList := by
  rw [noted, List.filterMap_append]
  cases event <;> rfl

theorem forward_snoc (events : List (Event α)) (event : Event α) (forward : Forward (events ++ [event])) :
    Forward events ∧ event.readings.Pairwise (· ≤ ·) ∧
      ∀ early ∈ events.flatMap Event.readings, ∀ late ∈ event.readings, early ≤ late := by
  rw [Forward, List.flatMap_append, List.pairwise_append, List.flatMap_singleton] at forward
  exact forward

variable {f life}

theorem read_earlier (events : List (Event α)) (event : Event α) (moment : Nat) (there : moment ∈ events.flatMap Event.readings) :
    moment ∈ (events ++ [event]).flatMap Event.readings := by
  rw [List.flatMap_append]
  exact List.mem_append_left _ there

theorem tended_note (events : List (Event α)) (m : Memo α β) (now : Nat) (a : α) (tended : Tended f life events m)
    (forward : Forward (events ++ [.note now a])) :
    Tended f life (events ++ [.note now a]) (m.next f life (.note now a)) := by
  obtain ⟨_, _, ordered⟩ := forward_snoc events _ forward
  have stored : stores f life (events ++ [.note now a]) = stores f life events := by
    rw [stores_snoc]
    exact List.append_nil _
  refine ⟨?_, fun b moment there => ?_, fun none => stored.trans (tended.none none), stored ▸ tended.spaced, ?_, ?_⟩
  · rw [noted_snoc]
    simp [Memo.next, Event.noted]
  · obtain ⟨⟨k, at', input, here, answer, later⟩, mine, last⟩ := tended.entry b moment there
    rw [stored, noted_snoc]
    refine ⟨⟨k, at', input, ?_, answer, fun j when missed above found => ?_⟩, mine, last⟩
    · exact (List.getElem?_append_left (List.getElem?_eq_some_iff.mp here).1).trans here
    · by_cases old : j < (noted events).length
      · rw [List.getElem?_append_left old] at found
        exact later j when missed above found
      · rw [List.getElem?_append_right (Nat.le_of_not_lt old)] at found
        obtain ⟨rfl, _⟩ := Prod.mk.inj (List.mem_singleton.mp (List.mem_of_getElem? found))
        exact ordered moment (tended.known moment mine) _ List.mem_cons_self
  · rw [stored]
    exact fun moment member => read_earlier events _ moment (tended.known moment member)
  · rw [noted_snoc]
    intro note member
    rcases List.mem_append.mp member with old | new
    · exact read_earlier events _ _ (tended.read note old)
    · rw [List.mem_singleton.mp new, List.flatMap_append]
      exact List.mem_append_right _ List.mem_cons_self

theorem remembered_none (m : Memo α β) (checked : Nat) (forgotten : m.remembered life checked = none) (b : β) (stored : Nat)
    (entry : m.entry = some (b, stored)) (past : stored ≤ checked) : stored + life ≤ checked := by
  rw [Memo.remembered, entry, Option.bind_some] at forgotten
  split at forgotten
  · cases forgotten
  · omega

theorem remembered_some (m : Memo α β) (checked : Nat) (b : β) (remembered : m.remembered life checked = some b) :
    ∃ stored, m.entry = some (b, stored) ∧ checked < stored + life := by
  obtain ⟨⟨answer, stored⟩, entry, young⟩ := Option.bind_eq_some_iff.mp remembered
  split at young
  · obtain rfl := Option.some.inj young
    exact ⟨stored, entry, by omega⟩
  · cases young

theorem newest_noted (events : List (Event α)) (m : Memo α β) (tended : Tended f life events m) (a : α) (newest : m.newest = some a) :
    ∃ now, (noted events)[(noted events).length - 1]? = some (now, a) := by
  rw [tended.newest, List.getLast?_eq_getElem?] at newest
  obtain ⟨note, here, rfl⟩ := Option.map_eq_some_iff.mp newest
  exact ⟨note.1, here⟩

theorem tended_ask (events : List (Event α)) (m : Memo α β) (checked stored : Nat) (tended : Tended f life events m)
    (same : m = after f life events) (forward : Forward (events ++ [.ask checked stored])) :
    Tended f life (events ++ [.ask checked stored]) (m.next f life (.ask checked stored)) := by
  obtain ⟨_, within, ordered⟩ := forward_snoc events _ forward
  have notes : noted (events ++ [.ask checked stored]) = noted events := by
    rw [noted_snoc]
    exact List.append_nil _
  have read : ∀ note ∈ noted events, note.1 ∈ (events ++ [Event.ask checked stored]).flatMap Event.readings :=
    fun note member => read_earlier events _ _ (tended.read note member)
  have known : ∀ moment ∈ stores f life events, moment ∈ (events ++ [Event.ask checked stored]).flatMap Event.readings :=
    fun moment member => read_earlier events _ _ (tended.known moment member)
  by_cases computes : ∃ a, m.remembered life checked = none ∧ m.newest = some a
  · obtain ⟨a, forgotten, newest⟩ := computes
    have added : stores f life (events ++ [.ask checked stored]) = stores f life events ++ [stored] := by
      rw [stores_snoc, ← same, Memo.stores, forgotten, newest]
    have next : m.next f life (.ask checked stored) = { m with entry := some (f a, stored) } := by
      rw [Memo.next, forgotten, newest]
    have later : ∀ moment ∈ stores f life events, moment ≤ stored := fun moment member =>
      ordered moment (tended.known moment member) stored (List.mem_cons_of_mem _ List.mem_cons_self)
    rw [next]
    refine ⟨notes ▸ tended.newest, ?_, nofun, ?_, ?_, notes ▸ read⟩
    · rintro _ _ ⟨⟩
      obtain ⟨now, here⟩ := newest_noted events m tended a newest
      rw [notes, added]
      refine ⟨⟨_, now, a, here, rfl, fun j when missed above found => ?_⟩, List.mem_append_right _ List.mem_cons_self, ?_⟩
      · have inside := (List.getElem?_eq_some_iff.mp found).1
        omega
      · intro moment member
        rcases List.mem_append.mp member with old | new
        · exact later moment old
        · exact Nat.le_of_eq (List.mem_singleton.mp new)
    · rw [added, List.pairwise_append]
      refine ⟨tended.spaced, List.pairwise_singleton _ _, fun early before late here => ?_⟩
      obtain rfl := List.mem_singleton.mp here
      -- The answer before was stored last, and is forgotten.
      cases entry : m.entry with
      | none =>
          rw [tended.none entry] at before
          cases before
      | some old =>
          obtain ⟨_, mine, last⟩ := tended.entry old.1 old.2 entry
          have past := ordered old.2 (tended.known old.2 mine) checked List.mem_cons_self
          have spent := remembered_none m checked forgotten old.1 old.2 entry past
          have first := last early before
          have turn := List.rel_of_pairwise_cons within List.mem_cons_self
          omega
    · rw [added]
      intro moment member
      rcases List.mem_append.mp member with old | new
      · exact known moment old
      · rw [List.mem_singleton.mp new, List.flatMap_append]
        exact List.mem_append_right _ (List.mem_cons_of_mem _ List.mem_cons_self)
  · have added : stores f life (events ++ [.ask checked stored]) = stores f life events := by
      rw [stores_snoc, ← same, Memo.stores]
      split
      · exact absurd ⟨_, ‹_›, ‹_›⟩ computes
      · exact List.append_nil _
    have next : m.next f life (.ask checked stored) = m := by
      rw [Memo.next]
      split
      · exact absurd ⟨_, ‹_›, ‹_›⟩ computes
      · rfl
    rw [next]
    exact ⟨notes ▸ tended.newest, fun b moment there => notes ▸ added ▸ tended.entry b moment there,
      fun none => added.trans (tended.none none), added ▸ tended.spaced, added ▸ known, notes ▸ read⟩

theorem after_tended (events : List (Event α)) (forward : Forward events) : Tended f life events (after f life events) := by
  induction events using List.reverseRecOn with
  | nil => exact ⟨rfl, nofun, fun _ => rfl, List.Pairwise.nil, nofun, nofun⟩
  | append_singleton events event ih =>
      have tended := ih (forward_snoc events event forward).1
      rw [after_snoc]
      cases event with
      | note now a => exact tended_note events _ now a tended forward
      | ask checked stored => exact tended_ask events _ checked stored tended rfl forward

-- Answers are stored a lifetime apart.
theorem stores_spaced (events : List (Event α)) (forward : Forward events) :
    (stores f life events).Pairwise fun early late => early + life ≤ late := (after_tended events forward).spaced

theorem answer_covers (events : List (Event α)) (checked : Nat) (b : β) (forward : Forward events)
    (answered : (after f life events).answer f life checked = some b) :
    Covers f life checked (noted events) b := by
  have tended := @after_tended _ _ f life events forward
  unfold Memo.answer at answered
  split at answered
  · rename_i remembered
    obtain rfl := Option.some.inj answered
    obtain ⟨stored, entry, young⟩ := remembered_some _ checked _ remembered
    obtain ⟨⟨k, now, a, here, answer, later⟩, _, _⟩ := tended.entry _ stored entry
    refine ⟨k, now, a, here, answer, fun j when missed above found => ?_⟩
    have after := later j when missed above found
    omega
  · obtain ⟨a, newest, rfl⟩ := Option.map_eq_some_iff.mp answered
    obtain ⟨now, here⟩ := newest_noted events _ tended a newest
    refine ⟨_, now, a, here, rfl, fun j when missed above found => ?_⟩
    have inside := (List.getElem?_eq_some_iff.mp found).1
    omega

theorem answer_none_iff (events : List (Event α)) (checked : Nat) (forward : Forward events) :
    (after f life events).answer f life checked = none ↔ noted events = [] := by
  have tended := @after_tended _ _ f life events forward
  have newest : (after f life events).newest = none ↔ noted events = [] := by
    rw [tended.newest, Option.map_eq_none_iff, List.getLast?_eq_none_iff]
  unfold Memo.answer
  split
  · rename_i remembered
    obtain ⟨stored, entry, _⟩ := remembered_some _ checked _ remembered
    obtain ⟨⟨k, now, a, here, _⟩, _⟩ := tended.entry _ stored entry
    refine iff_of_false nofun fun empty => ?_
    rw [empty] at here
    cases here
  · rw [Option.map_eq_none_iff]
    exact newest

end Ners.Recall

import Mathlib.Data.List.Induction

set_option autoImplicit false

namespace Ners.Runs

variable {σ τ α : Type} (step : σ → α → Option σ)

-- States reached from a start by steps that each meet a condition on the state
-- they are taken in.
inductive Run (allowed : σ → α → Prop) (start : σ) : σ → Prop where
  | start : Run allowed start start
  | next (s s' : σ) (a : α) (earlier : Run allowed start s) (may : allowed s a) (taken : step s a = some s') :
      Run allowed start s'

def anyStep (_ : σ) (_ : α) : Prop := True

variable {step} {allowed : σ → α → Prop}

theorem run_invariant (Inv : σ → Prop) (start s : σ) (run : Run step allowed start s) (base : Inv start)
    (preserved : ∀ s a s', Inv s → allowed s a → step s a = some s' → Inv s') : Inv s := by
  induction run with
  | start => exact base
  | next s s' a earlier may taken ih => exact preserved s a s' ih may taken

variable (step) in
-- A history variable: it follows the steps and does not decide them.
def instrument (carry : α → σ → σ → τ → τ) (st : σ × τ) (a : α) : Option (σ × τ) :=
  (step st.1 a).map fun s' => (s', carry a st.1 s' st.2)

theorem instrument_run (carry : α → σ → σ → τ → τ) (t : τ) (start s : σ) (run : Run step allowed start s) :
    ∃ ghost, Run (instrument step carry) (fun st => allowed st.1) (start, t) (s, ghost) := by
  induction run with
  | start => exact ⟨t, .start⟩
  | next s s' a earlier may taken ih =>
      obtain ⟨ghost, follows⟩ := ih
      exact ⟨_, .next _ _ a follows may (by rw [instrument, taken, Option.map_some])⟩

variable (step) in
def execute (s : σ) : List α → Option σ
  | [] => some s
  | a :: later => (step s a).bind fun s' => execute s' later

theorem execute_run (start s s' : σ) (actions : List α) (run : Run step anyStep start s)
    (executed : execute step s actions = some s') : Run step anyStep start s' := by
  induction actions generalizing s with
  | nil =>
      obtain rfl := Option.some.inj executed
      exact run
  | cons a later ih =>
      obtain ⟨middle, taken, rest⟩ := Option.bind_eq_some_iff.mp executed
      exact ih middle (.next s middle a run trivial taken) rest

theorem executed_run (start : σ) (actions : List α) : Run step anyStep start ((execute step start actions).getD start) := by
  cases executed : execute step start actions with
  | none => exact .start
  | some s => exact execute_run start start s actions .start executed

variable (step) in
-- One step of a run of actions, with what came before it.
structure Taken (start : σ) (actions before : List α) (a : α) (s s' : σ) : Prop where
  within : before ++ [a] <+: actions
  reached : execute step start before = some s
  taken : step s a = some s'

theorem taken_first (start s : σ) (a : α) (later : List α) (taken : step start a = some s) :
    Taken step start (a :: later) [] a start s := ⟨List.prefix_append [a] later, rfl, taken⟩

theorem taken_later (start middle s s' : σ) (a first : α) (later before : List α) (taken : step start first = some middle)
    (there : Taken step middle later before a s s') : Taken step start (first :: later) (first :: before) a s s' := by
  refine ⟨List.cons_prefix_cons.mpr ⟨rfl, there.within⟩, ?_, there.taken⟩
  rw [execute, taken]
  exact there.reached

theorem taken_nil (start s s' : σ) (before : List α) (a : α) : ¬ Taken step start [] before a s s' := by
  intro there
  have short := there.within.length_le
  rw [List.length_append, List.length_singleton, List.length_nil] at short
  omega

theorem taken_cons (start s s' : σ) (first a : α) (later before : List α)
    (there : Taken step start (first :: later) before a s s') :
    (before = [] ∧ a = first ∧ s = start) ∨
      ∃ middle rest, step start first = some middle ∧ before = first :: rest ∧ Taken step middle later rest a s s' := by
  obtain ⟨within, reached, taken⟩ := there
  cases before with
  | nil =>
      obtain ⟨same, _⟩ := List.cons_prefix_cons.mp within
      exact .inl ⟨rfl, same, (Option.some.inj reached).symm⟩
  | cons b rest =>
      obtain ⟨rfl, inside⟩ := List.cons_prefix_cons.mp within
      obtain ⟨middle, first, onward⟩ := Option.bind_eq_some_iff.mp reached
      exact .inr ⟨middle, rest, first, rfl, inside, onward, taken⟩

variable (step) in
structure Reached (start : σ) (actions before : List α) (s : σ) : Prop where
  within : before <+: actions
  reached : execute step start before = some s

theorem execute_append (s : σ) (early late : List α) :
    execute step s (early ++ late) = (execute step s early).bind fun s' => execute step s' late := by
  induction early generalizing s with
  | nil => rw [List.nil_append, execute, Option.bind_some]
  | cons a later ih =>
      rw [List.cons_append, execute, execute, Option.bind_assoc]
      congr 1
      funext s'
      exact ih s'

theorem execute_one (s : σ) (a : α) : execute step s [a] = step s a := Option.bind_fun_some (step s a)

theorem execute_snoc (s : σ) (actions : List α) (a : α) :
    execute step s (actions ++ [a]) = (execute step s actions).bind fun s' => step s' a := by
  rw [execute_append]
  congr 1
  funext s'
  exact execute_one s' a

-- The rest of a run starts where a part of it has come to.
theorem reached_rest (start s final : σ) (actions before : List α) (there : Reached step start actions before s)
    (executed : execute step start actions = some final) : ∃ later, execute step s later = some final := by
  obtain ⟨later, rfl⟩ := there.within
  rw [execute_append, there.reached] at executed
  exact ⟨later, executed⟩

theorem taken_before (start s s' : σ) (actions before : List α) (a : α) (there : Taken step start actions before a s s') :
    Reached step start actions before s := ⟨(List.prefix_append before [a]).trans there.within, there.reached⟩

theorem taken_after (start s s' : σ) (actions before : List α) (a : α) (there : Taken step start actions before a s s') :
    Reached step start actions (before ++ [a]) s' := by
  refine ⟨there.within, ?_⟩
  rw [execute_snoc, there.reached]
  exact there.taken

theorem reached_snoc (start s' : σ) (actions before : List α) (a : α) (there : Reached step start actions (before ++ [a]) s') :
    ∃ s, Taken step start actions before a s s' := by
  have reached := there.reached
  rw [execute_snoc, Option.bind_eq_some_iff] at reached
  obtain ⟨s, earlier, taken⟩ := reached
  exact ⟨s, there.within, earlier, taken⟩

theorem reached_invariant (Inv : List α → σ → Prop) (may : List α → σ → α → σ → Prop) (start : σ) (actions : List α)
    (base : Inv [] start)
    (keeps : ∀ before a s s', Inv before s → Taken step start actions before a s s' → may before s a s' → Inv (before ++ [a]) s')
    (every : ∀ before a s s', Taken step start actions before a s s' → may before s a s') (before : List α) (s : σ)
    (there : Reached step start actions before s) : Inv before s := by
  induction before using List.reverseRecOn generalizing s with
  | nil => exact Option.some.inj there.reached ▸ base
  | append_singleton earlier a ih =>
      obtain ⟨s0, taken⟩ := reached_snoc start s actions earlier a there
      exact keeps earlier a s0 s (ih s0 (taken_before _ _ _ _ _ _ taken)) taken (every _ _ _ _ taken)

-- Two conditions on steps agree over whole runs if they agree on each step that
-- is taken where the invariant holds.
theorem each_step_iff (Inv : List α → σ → Prop) (holds may : List α → σ → α → σ → Prop) (start : σ) (actions : List α)
    (base : Inv [] start)
    (same : ∀ before a s s', Inv before s → Taken step start actions before a s s' → (holds before s a s' ↔ may before s a s'))
    (keeps : ∀ before a s s', Inv before s → Taken step start actions before a s s' → holds before s a s' →
      Inv (before ++ [a]) s') :
    (∀ before a s s', Taken step start actions before a s s' → holds before s a s') ↔
      ∀ before a s s', Taken step start actions before a s s' → may before s a s' := by
  constructor
  · intro every before a s s' there
    have inv := reached_invariant Inv holds start actions base keeps every before s (taken_before _ _ _ _ _ _ there)
    exact (same before a s s' inv there).mp (every before a s s' there)
  · intro every before a s s' there
    have inv := reached_invariant Inv may start actions base
      (fun before a s s' inv there met => keeps before a s s' inv there ((same before a s s' inv there).mpr met))
      every before s (taken_before _ _ _ _ _ _ there)
    exact (same before a s s' inv there).mpr (every before a s s' there)

theorem each_reached_iff (Good : List α → σ → Prop) (start : σ) (actions : List α) :
    (∀ before s, Reached step start actions before s → Good before s) ↔
      Good [] start ∧ ∀ before a s s', Taken step start actions before a s s' → Good (before ++ [a]) s' := by
  constructor
  · intro every
    refine ⟨every [] start ⟨List.nil_prefix, rfl⟩, fun before a s s' there => ?_⟩
    exact every _ s' (taken_after _ _ _ _ _ _ there)
  · rintro ⟨base, every⟩ before s there
    cases before using List.reverseRecOn with
    | nil => exact Option.some.inj there.reached ▸ base
    | append_singleton earlier a =>
        obtain ⟨s0, taken⟩ := reached_snoc start s actions earlier a there
        exact every earlier a s0 s taken

-- A condition on states holds in all states of a run, and one on its steps with
-- it, if and only if each step keeps the two of them where the invariant holds.
theorem each_kept_iff (Inv Good : List α → σ → Prop) (holds may : List α → σ → α → σ → Prop) (start : σ) (actions : List α)
    (base : Inv [] start) (good : ∀ before s, Inv before s → Good before s)
    (keeps : ∀ before a s s', Inv before s → Taken step start actions before a s s' → may before s a s' →
      Inv (before ++ [a]) s')
    (same : ∀ before a s s', Inv before s → Taken step start actions before a s s' →
      (Good (before ++ [a]) s' ∧ holds before s a s' ↔ may before s a s')) :
    (∀ before s, Reached step start actions before s → Good before s) ∧
        (∀ before a s s', Taken step start actions before a s s' → holds before s a s') ↔
      ∀ before a s s', Taken step start actions before a s s' → may before s a s' := by
  rw [each_reached_iff, and_iff_right (good [] start base)]
  refine Iff.trans ?_ (each_step_iff Inv (fun before s a s' => Good (before ++ [a]) s' ∧ holds before s a s') may start actions
    base same fun before a s s' inv there both => keeps before a s s' inv there ((same before a s s' inv there).mp both))
  constructor
  · rintro ⟨held, steps⟩ before a s s' there
    exact ⟨held before a s s' there, steps before a s s' there⟩
  · intro every
    exact ⟨fun before a s s' there => (every before a s s' there).1, fun before a s s' there => (every before a s s' there).2⟩

theorem each_state_and_step_iff (Good : List α → σ → Prop) (holds may : List α → σ → α → σ → Prop) (start : σ)
    (actions : List α) (base : Good [] start)
    (same : ∀ before a s s', Good before s → Taken step start actions before a s s' →
      (Good (before ++ [a]) s' ∧ holds before s a s' ↔ may before s a s')) :
    (∀ before s, Reached step start actions before s → Good before s) ∧
        (∀ before a s s', Taken step start actions before a s s' → holds before s a s') ↔
      ∀ before a s s', Taken step start actions before a s s' → may before s a s' :=
  each_kept_iff Good Good holds may start actions base (fun _ _ good => good)
    (fun before a s s' good there met => ((same before a s s' good there).mpr met).1) same

theorem each_state_iff (Good : List α → σ → Prop) (may : List α → σ → α → σ → Prop) (start : σ) (actions : List α)
    (base : Good [] start)
    (same : ∀ before a s s', Good before s → Taken step start actions before a s s' →
      (Good (before ++ [a]) s' ↔ may before s a s')) :
    (∀ before s, Reached step start actions before s → Good before s) ↔
      ∀ before a s s', Taken step start actions before a s s' → may before s a s' := by
  rw [each_reached_iff, and_iff_right base]
  exact each_step_iff Good (fun before _ a s' => Good (before ++ [a]) s') may start actions base same
    fun before a s s' _ _ good => good

variable (step) in
-- A value carried along a run, changed by each action in the state it is taken in.
def carried (carry : σ → α → τ → τ) : σ → τ → List α → τ
  | _, t, [] => t
  | s, t, a :: later =>
      match step s a with
      | none => carry s a t
      | some s' => carried carry s' (carry s a t) later

theorem carried_snoc (carry : σ → α → τ → τ) (start s : σ) (t : τ) (before : List α) (a : α)
    (reached : execute step start before = some s) :
    carried step carry start t (before ++ [a]) = carry s a (carried step carry start t before) := by
  induction before generalizing start t with
  | nil =>
      obtain rfl := Option.some.inj reached
      rw [List.nil_append, carried, carried]
      cases step start a <;> rfl
  | cons b later ih =>
      obtain ⟨middle, taken, rest⟩ := Option.bind_eq_some_iff.mp reached
      rw [List.cons_append, carried, carried, taken]
      exact ih middle _ rest

variable (step) in
-- Every action of a schedule meets the condition where it is taken.
def Meets (allowed : σ → α → Prop) : σ → List α → Prop
  | _, [] => True
  | s, a :: later => allowed s a ∧ ∀ s', step s a = some s' → Meets allowed s' later

instance meetsDecidable (allowed : σ → α → Prop) [each : ∀ s a, Decidable (allowed s a)] (s : σ) :
    (actions : List α) → Decidable (Meets step allowed s actions)
  | [] => isTrue trivial
  | a :: later =>
      have : Decidable (∀ s', step s a = some s' → Meets step allowed s' later) :=
        match _taken : step s a with
        | none => isTrue nofun
        | some s' =>
            have := meetsDecidable allowed s' later
            decidable_of_iff (Meets step allowed s' later)
              ⟨fun meets _ same => Option.some.inj same ▸ meets, fun every => every s' rfl⟩
      inferInstanceAs (Decidable (allowed s a ∧ ∀ s', step s a = some s' → Meets step allowed s' later))

theorem meets_run (start s s' : σ) (actions : List α) (run : Run step allowed start s) (meets : Meets step allowed s actions)
    (executed : execute step s actions = some s') : Run step allowed start s' := by
  induction actions generalizing s with
  | nil =>
      obtain rfl := Option.some.inj executed
      exact run
  | cons a later ih =>
      obtain ⟨middle, taken, rest⟩ := Option.bind_eq_some_iff.mp executed
      exact ih middle (.next s middle a run meets.1 taken) (meets.2 middle taken) rest

-- Where actions outside a condition do damage that lasts, a schedule leaves
-- none if and only if all its actions meet the condition.
theorem sound_iff_meets (Inv Sound Damaged : σ → Prop) (s s' : σ) (actions : List α)
    (inv : ∀ s a s', Inv s → step s a = some s' → Inv s')
    (keeps : ∀ s a s', Inv s → Sound s → step s a = some s' → allowed s a → Sound s')
    (breaks : ∀ s a s', Inv s → Sound s → step s a = some s' → ¬ allowed s a → Damaged s')
    (lasts : ∀ s a s', Inv s → Damaged s → step s a = some s' → Damaged s')
    (apart : ∀ s, Damaged s → ¬ Sound s) (here : Inv s) (sound : Sound s) (executed : execute step s actions = some s') :
    Sound s' ↔ Meets step allowed s actions := by
  have damage (actions : List α) (s : σ) (here : Inv s) (damaged : Damaged s) (executed : execute step s actions = some s') :
      Damaged s' := by
    induction actions generalizing s with
    | nil => exact Option.some.inj executed ▸ damaged
    | cons a later ih =>
        obtain ⟨middle, taken, rest⟩ := Option.bind_eq_some_iff.mp executed
        exact ih middle (inv s a middle here taken) (lasts s a middle here damaged taken) rest
  induction actions generalizing s with
  | nil =>
      obtain rfl := Option.some.inj executed
      exact ⟨fun _ => trivial, fun _ => sound⟩
  | cons a later ih =>
      obtain ⟨middle, taken, rest⟩ := Option.bind_eq_some_iff.mp executed
      have onward := inv s a middle here taken
      by_cases may : allowed s a
      · have met := ih middle onward (keeps s a middle here sound taken may) rest
        refine ⟨fun result => ⟨may, ?_⟩, fun meets => met.mpr (meets.2 middle taken)⟩
        intro other also
        exact Option.some.inj (taken.symm.trans also) ▸ met.mp result
      · have lost := damage later middle onward (breaks s a middle here sound taken may) rest
        exact ⟨fun result => absurd result (apart s' lost), fun meets => absurd meets.1 may⟩

end Ners.Runs

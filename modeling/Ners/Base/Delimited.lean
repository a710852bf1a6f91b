import Ners.Base.Search

set_option autoImplicit false

namespace Ners.Delimited

open Search

variable {α : Type} (a b : α)

def Clear (piece : List α) : Prop := ∀ i, ¬ Occurs [a, b] piece i

-- Lines with a delimiter between any two of them.
def joined : List (List α) → List α
  | [] => []
  | [piece] => piece
  | piece :: next :: later => piece ++ a :: b :: joined (next :: later)

-- The text between the delimiters.
def pieces [DecidableEq α] : List α → List (List α)
  | [] => [[]]
  | [x] => [[x]]
  | x :: y :: rest => if x = a ∧ y = b then [] :: pieces rest else (pieces (y :: rest)).modifyHead (x :: ·)

theorem joined_cons (piece : List α) (later : List (List α)) (more : later ≠ []) :
    joined a b (piece :: later) = piece ++ a :: b :: joined a b later := by
  cases later with
  | nil => exact absurd rfl more
  | cons next later => rfl

theorem joined_ended (lines : List (List α)) (some : lines ≠ []) :
    joined a b lines ++ [a, b] = lines.flatMap (· ++ [a, b]) := by
  induction lines with
  | nil => exact absurd rfl some
  | cons piece later ih =>
      by_cases more : later = []
      · subst more
        rw [List.flatMap_cons, List.flatMap_nil, List.append_nil, joined]
      · rw [joined_cons a b piece later more, List.flatMap_cons, ← ih more]
        simp only [List.append_assoc, List.cons_append, List.nil_append]

variable {a b}

theorem clear_tail (x : α) (piece : List α) (clear : Clear a b (x :: piece)) : Clear a b piece :=
  fun i here => clear (i + 1) ((occurs_succ _ _ _ _).mpr here)

theorem clear_apart (x : α) (piece : List α) (clear : Clear a b (x :: piece)) : x = a → piece[0]? ≠ some b := by
  rintro rfl next
  cases piece with
  | nil => cases next
  | cons y piece =>
      obtain rfl := Option.some.inj next
      exact clear 0 ((occurs_zero _ _).mpr (List.prefix_append [x, y] piece))

theorem clear_missing (piece : List α) (missing : a ∉ piece) : Clear a b piece :=
  fun _ here => missing (List.mem_of_getElem? (occurs_member [b] piece a _ here))

theorem clear_cons (x : α) (piece : List α) (clear : Clear a b piece) (apart : x = a → piece[0]? ≠ some b) : Clear a b (x :: piece) := by
  intro i here
  cases i with
  | succ i => exact clear i ((occurs_succ _ _ _ _).mp here)
  | zero =>
      obtain ⟨rest, same⟩ := (occurs_zero _ _).mp here
      obtain ⟨rfl, behind⟩ := List.cons.inj same
      exact apart rfl (behind ▸ rfl)

-- A text that is clear stays so in front of something other than the end of
-- the delimiter, and so does the text behind it.
theorem clear_append_iff (front later : List α) (x : α) (notEnd : x ≠ b) (notStart : x ≠ a) :
    Clear a b (front ++ x :: later) ↔ Clear a b front ∧ Clear a b later := by
  constructor
  · intro clear
    refine ⟨fun i here => clear i (occurs_append _ _ _ _ here), fun i here => clear (front.length + (i + 1)) ?_⟩
    exact (occurs_behind _ _ _ _).mpr ((occurs_succ _ _ _ _).mpr here)
  · rintro ⟨one, other⟩ i here
    have foreign : x ∉ [a, b] := by
      rw [List.mem_pair]
      exact not_or.mpr ⟨notStart, notEnd⟩
    by_cases before : i ≤ front.length
    · exact one i (occurs_front _ _ _ i here (occurs_apart _ _ _ x i foreign before here))
    · obtain ⟨k, rfl⟩ : ∃ k, i = front.length + (k + 1) := ⟨i - front.length - 1, by omega⟩
      exact other k ((occurs_succ _ _ _ _).mp ((occurs_behind _ _ _ _).mp here))

section First

variable (differ : a ≠ b)
include differ

-- The delimiter behind a clear piece is the first one.
theorem delimiter_behind (piece rest : List α) (i : Nat) (clear : Clear a b piece) (here : Occurs [a, b] (piece ++ a :: rest) i) :
    piece.length ≤ i := by
  induction piece generalizing i with
  | nil => exact Nat.zero_le i
  | cons x piece ih =>
      cases i with
      | succ i => exact Nat.succ_le_succ (ih i (clear_tail x piece clear) ((occurs_succ _ _ _ _).mp here))
      | zero =>
          exfalso
          obtain ⟨behind, same⟩ := (occurs_zero _ _).mp here
          obtain ⟨rfl, next⟩ := List.cons.inj same
          cases piece with
          | nil => exact differ (List.cons.inj next).1.symm
          | cons y piece =>
              obtain ⟨rfl, _⟩ := List.cons.inj next
              exact clear 0 ((occurs_zero _ _).mpr (List.prefix_append [a, b] piece))

theorem first_ended (piece rest : List α) (clear : Clear a b piece) :
    First [a, b, a, b] (piece ++ [a, b, a, b] ++ rest) piece.length := by
  refine ⟨⟨piece, rest, rfl, rfl⟩, fun j before here => ?_⟩
  obtain ⟨front, back, split, rfl⟩ := here
  have single : Occurs [a, b] (piece ++ a :: (b :: a :: b :: rest)) front.length :=
    ⟨front, [a, b] ++ back, by simpa using split, rfl⟩
  exact Nat.not_lt.mpr (delimiter_behind differ piece _ _ clear single) before

theorem first_later (piece later : List α) (i : Nat) (clear : Clear a b piece) (filled : ¬ Occurs [a, b] later 0)
    (first : First [a, b, a, b] later i) : First [a, b, a, b] (piece ++ a :: b :: later) (piece.length + (i + 2)) := by
  refine ⟨(occurs_behind _ _ _ _).mpr ((occurs_succ _ _ _ _).mpr ((occurs_succ _ _ _ _).mpr first.1)), fun j before here => ?_⟩
  obtain ⟨front, back, split, rfl⟩ := here
  have single : Occurs [a, b] (piece ++ a :: b :: later) front.length := ⟨front, [a, b] ++ back, by simpa using split, rfl⟩
  obtain ⟨k, place⟩ := Nat.exists_eq_add_of_le (delimiter_behind differ piece _ _ clear single)
  have twice : Occurs [a, b, a, b] (piece ++ a :: b :: later) front.length := ⟨front, back, split, rfl⟩
  rw [place, occurs_behind] at twice
  match k, place, twice with
  | 0, _, twice =>
      -- A second delimiter would follow the first at once.
      obtain ⟨rest, same⟩ := (occurs_zero _ _).mp twice
      exact filled ((occurs_zero _ _).mpr ⟨rest, (List.cons.inj (List.cons.inj same).2).2⟩)
  | 1, _, twice =>
      obtain ⟨_, same⟩ := (occurs_zero _ _).mp ((occurs_succ _ _ _ _).mp twice)
      exact differ (List.cons.inj same).1
  | k + 2, place, twice => exact first.2 k (by omega) ((occurs_succ _ _ _ _).mp ((occurs_succ _ _ _ _).mp twice))

-- No piece is empty, so that the first two delimiters in a row stand behind all
-- of them.
theorem first_blank (lines : List (List α)) (rest : List α) (some : lines ≠ [])
    (each : ∀ piece ∈ lines, Clear a b piece ∧ piece ≠ []) :
    First [a, b, a, b] (joined a b lines ++ [a, b, a, b] ++ rest) (joined a b lines).length := by
  induction lines with
  | nil => exact absurd rfl some
  | cons piece later ih =>
      obtain ⟨clear, _⟩ := each piece List.mem_cons_self
      cases later with
      | nil => exact first_ended differ piece rest clear
      | cons next last =>
          have onward := ih (List.cons_ne_nil _ _) fun other member => each other (List.mem_cons_of_mem piece member)
          have filled : ¬ Occurs [a, b] (joined a b (next :: last) ++ [a, b, a, b] ++ rest) 0 := by
            intro here
            obtain ⟨clear, nonempty⟩ := each next (List.mem_cons_of_mem piece List.mem_cons_self)
            obtain ⟨behind, shape⟩ : ∃ behind, joined a b (next :: last) ++ [a, b, a, b] ++ rest = next ++ a :: behind := by
              cases last <;> exact ⟨_, by simp only [joined, List.append_assoc, List.cons_append]; rfl⟩
            have empty := delimiter_behind differ next _ 0 clear (shape ▸ here)
            exact nonempty (List.length_eq_zero_iff.mp (Nat.le_zero.mp empty))
          have whole := first_later differ piece _ _ clear filled onward
          have size : (joined a b (piece :: next :: last)).length = piece.length + ((joined a b (next :: last)).length + 2) := by
            rw [joined, List.length_append, List.length_cons, List.length_cons]
          rw [size]
          simpa only [joined, List.append_assoc, List.cons_append] using whole

end First

variable [DecidableEq α]

theorem pieces_cons (x : α) (piece : List α) (apart : x = a → piece[0]? ≠ some b) :
    pieces a b (x :: piece) = (pieces a b piece).modifyHead (x :: ·) := by
  cases piece with
  | nil => rfl
  | cons y piece =>
      have other : ¬ (x = a ∧ y = b) := by
        rintro ⟨rfl, rfl⟩
        exact apart rfl rfl
      rw [pieces, if_neg other]

theorem pieces_clear (piece : List α) (clear : Clear a b piece) : pieces a b piece = [piece] := by
  induction piece with
  | nil => rfl
  | cons x piece ih =>
      rw [pieces_cons x piece (clear_apart x piece clear), ih (clear_tail x piece clear), List.modifyHead_cons]

theorem piece_front (text first : List α) (later : List (List α)) (cut : pieces a b text = first :: later) : first <+: text := by
  fun_induction pieces a b text generalizing first later with
  | case1 => exact (List.cons.inj cut).1 ▸ List.nil_prefix
  | case2 x => exact (List.cons.inj cut).1 ▸ List.prefix_rfl
  | case3 x y rest ends ih => exact (List.cons.inj cut).1 ▸ List.nil_prefix
  | case4 x y rest goes ih =>
      obtain ⟨front, behind, shape⟩ : ∃ front behind, pieces a b (y :: rest) = front :: behind := by
        cases shape : pieces a b (y :: rest) with
        | nil => rw [shape] at cut; cases cut
        | cons front behind => exact ⟨front, behind, rfl⟩
      rw [shape, List.modifyHead_cons] at cut
      obtain ⟨rfl, _⟩ := List.cons.inj cut
      exact List.cons_prefix_cons.mpr ⟨rfl, ih front behind shape⟩

theorem clear_pieces (text piece : List α) (member : piece ∈ pieces a b text) : Clear a b piece := by
  fun_induction pieces a b text generalizing piece with
  | case1 =>
      obtain rfl := List.mem_singleton.mp member
      exact clear_missing [] List.not_mem_nil
  | case2 x =>
      obtain rfl := List.mem_singleton.mp member
      exact clear_cons x [] (clear_missing [] List.not_mem_nil) fun _ => nofun
  | case3 x y rest ends ih =>
      rcases List.mem_cons.mp member with rfl | behind
      · exact clear_missing [] List.not_mem_nil
      · exact ih piece behind
  | case4 x y rest goes ih =>
      cases shape : pieces a b (y :: rest) with
      | nil =>
          rw [shape] at member
          cases member
      | cons front behind =>
          rw [shape, List.modifyHead_cons, List.mem_cons] at member
          rcases member with rfl | later
          · refine clear_cons x front (ih front (shape ▸ List.mem_cons_self)) ?_
            rintro rfl next
            obtain ⟨_, whole⟩ := piece_front (y :: rest) front behind shape
            cases front with
            | nil => cases next
            | cons z front =>
                obtain ⟨rfl, _⟩ := List.cons.inj whole
                exact goes ⟨rfl, Option.some.inj next⟩
          · exact ih piece (shape ▸ List.mem_cons_of_mem front later)

theorem pieces_clear_append (differ : a ≠ b) (piece rest : List α) (clear : Clear a b piece) :
    pieces a b (piece ++ a :: b :: rest) = piece :: pieces a b rest := by
  induction piece with
  | nil => rw [List.nil_append, pieces, if_pos ⟨rfl, rfl⟩]
  | cons x piece ih =>
      have apart : x = a → (piece ++ a :: b :: rest)[0]? ≠ some b := by
        cases piece with
        | nil => exact fun _ next => differ (Option.some.inj next)
        | cons y piece => exact clear_apart x (y :: piece) clear
      rw [List.cons_append, pieces_cons x _ apart, ih (clear_tail x piece clear), List.modifyHead_cons]

theorem pieces_joined (differ : a ≠ b) (lines : List (List α)) (some : lines ≠ []) (each : ∀ piece ∈ lines, Clear a b piece) :
    pieces a b (joined a b lines) = lines := by
  induction lines with
  | nil => exact absurd rfl some
  | cons piece later ih =>
      cases later with
      | nil => exact pieces_clear piece (each piece List.mem_cons_self)
      | cons next last =>
          rw [joined, pieces_clear_append differ piece _ (each piece List.mem_cons_self),
            ih (List.cons_ne_nil _ _) fun other member => each other (List.mem_cons_of_mem piece member)]

end Ners.Delimited

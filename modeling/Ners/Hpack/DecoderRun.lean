import Ners.Hpack.DecoderSteps

set_option autoImplicit false

namespace Ners.Hpack

-- What one turn of the loop can do to the table: nothing, an insertion, or the
-- resize that a size update in front of the remaining bytes asks for.
inductive TableStep (d : HpackDecoder) (data : Bytes) : HpackDecoder → Prop where
  | kept : TableStep d data d
  | added (name value : String) : TableStep d data (d.addEntry name value)
  | resized (first : UInt8) (tail : Bytes) (newSize n : Nat) (front : data = first :: tail) (low : 32 ≤ first.toNat)
      (high : first.toNat < 64) (read : decodeInteger data 5 = .ok (newSize, n)) : TableStep d data (d.resize newSize)

theorem decode_field_cases (d d' : HpackDecoder) (first : UInt8) (tail : Bytes)
    (result : Except String (Option Header × Nat)) (returned : d.decodeField first (first :: tail) = .ok (result, d')) :
    TableStep d (first :: tail) d' ∧ ∀ header n, result = .ok (header, n) → 1 ≤ n ∧ n ≤ (first :: tail).length := by
  cases kind : literalKind first with
  | some pair =>
      obtain ⟨pfx, index⟩ := pair
      have narrow := literal_kind_narrow first pfx index kind
      rw [decode_field_literal d first _ pfx index kind] at returned
      cases literal : d.decodeLiteral (first :: tail) pfx index with
      | error fault => simp [literal] at returned
      | ok pair =>
          obtain ⟨read, after⟩ := pair
          simp only [literal, Except.ok.injEq, Prod.mk.injEq] at returned
          obtain ⟨rfl, rfl⟩ := returned
          rcases decode_literal_cases d after _ pfx index read narrow literal with ⟨e, rfl, rfl⟩ | ⟨name, value, n, rfl, one, within, rfl⟩
          · exact ⟨.kept, by simp [pushed]⟩
          · refine ⟨?_, ?_⟩
            · cases index
              · exact .kept
              · exact .added name value
            · rintro header m same
              simp only [pushed, Except.ok.injEq, Prod.mk.injEq] at same
              omega
  | none =>
      rcases literal_kind_none first kind with indexed | ⟨low, high⟩
      · rw [decode_field_indexed d first _ indexed] at returned
        cases integer : decodeInteger (first :: tail) 7 with
        | error e =>
            simp only [integer, Except.ok.injEq, Prod.mk.injEq] at returned
            obtain ⟨rfl, rfl⟩ := returned
            exact ⟨.kept, by simp⟩
        | ok pair =>
            obtain ⟨i, n⟩ := pair
            have bounds := decode_integer_bounds _ 7 i n (by decide) integer
            obtain ⟨found, isFound⟩ := get_indexed_returns d i
            simp only [integer, isFound] at returned
            cases found with
            | error e =>
                simp only [Except.ok.injEq, Prod.mk.injEq] at returned
                obtain ⟨rfl, rfl⟩ := returned
                exact ⟨.kept, by simp⟩
            | ok header =>
                simp only [Except.ok.injEq, Prod.mk.injEq] at returned
                obtain ⟨rfl, rfl⟩ := returned
                refine ⟨.kept, ?_⟩
                rintro other m same
                simp only [Except.ok.injEq, Prod.mk.injEq] at same
                omega
      · rw [decode_field_update d first _ low high] at returned
        cases integer : decodeInteger (first :: tail) 5 with
        | error e =>
            simp only [integer, Except.ok.injEq, Prod.mk.injEq] at returned
            obtain ⟨rfl, rfl⟩ := returned
            exact ⟨.kept, by simp⟩
        | ok pair =>
            obtain ⟨newSize, n⟩ := pair
            have bounds := decode_integer_bounds _ 5 newSize n (by decide) integer
            simp only [integer, Except.ok.injEq, Prod.mk.injEq] at returned
            obtain ⟨rfl, rfl⟩ := returned
            refine ⟨.resized first tail newSize n rfl low high integer, ?_⟩
            rintro other m same
            simp only [Except.ok.injEq, Prod.mk.injEq] at same
            omega

-- The loop of decode has taken the instructions in front of `rest`, each
-- without an error, and stands at its head again.
inductive Walk : HpackDecoder → Bytes → List Header → HpackDecoder → Bytes → Prop where
  | here (d : HpackDecoder) (data : Bytes) : Walk d data [] d data
  | turn (d d1 d2 : HpackDecoder) (first : UInt8) (tail rest : Bytes) (header : Option Header) (n : Nat)
      (headers : List Header) (field : d.decodeField first (first :: tail) = .ok (.ok (header, n), d1))
      (later : Walk d1 ((first :: tail).drop n) headers d2 rest) :
      Walk d (first :: tail) (header.toList ++ headers) d2 rest

abbrev Decoded := Except Fault (Except String (List Header) × HpackDecoder)

def prepend (front : List Header) : Decoded → Decoded
  | .error fault => .error fault
  | .ok (.error e, d) => .ok (.error e, d)
  | .ok (.ok headers, d) => .ok (.ok (front ++ headers), d)

theorem prepend_nil (result : Decoded) : prepend [] result = result := by
  rcases result with fault | ⟨e | headers, d⟩ <;> rfl

theorem prepend_append (a b : List Header) (result : Decoded) : prepend (a ++ b) result = prepend a (prepend b result) := by
  rcases result with fault | ⟨e | headers, d⟩ <;> simp [prepend]

-- Once the fuel covers the bytes its amount does not matter, and headers found
-- earlier are only put in front.
theorem decode_loop_decode (fuel : Nat) (d : HpackDecoder) (data : Bytes) (headers : List Header)
    (enough : data.length ≤ fuel) : decodeLoop fuel d data headers = prepend headers (d.decode data) := by
  induction fuel using Nat.strongRecOn generalizing d data headers with
  | ind fuel ih =>
      cases data with
      | nil => simp [decodeLoop, HpackDecoder.decode, prepend]
      | cons first tail =>
          obtain ⟨fuel, rfl⟩ : ∃ k, fuel = k + 1 := ⟨fuel - 1, by rw [List.length_cons] at enough; omega⟩
          rw [List.length_cons] at enough
          rw [HpackDecoder.decode, List.length_cons, decodeLoop, decodeLoop]
          cases field : d.decodeField first (first :: tail) with
          | error fault => rfl
          | ok pair =>
              obtain ⟨result, d1⟩ := pair
              cases result with
              | error e => rfl
              | ok found =>
                  obtain ⟨header, n⟩ := found
                  have bounds := (decode_field_cases d d1 first tail _ field).2 header n rfl
                  have shorter : ((first :: tail).drop n).length ≤ tail.length := by
                    rw [List.length_drop, List.length_cons]
                    omega
                  simp only
                  rw [ih fuel (by omega) d1 _ _ (by omega), List.nil_append]
                  by_cases same : tail.length = fuel
                  · rw [same, ih fuel (by omega) d1 _ _ (by omega), prepend_append]
                  · rw [ih tail.length (by omega) d1 _ _ shorter, prepend_append]

theorem decode_nil (d : HpackDecoder) : d.decode [] = .ok (.ok [], d) := rfl

theorem decode_cons (d : HpackDecoder) (first : UInt8) (tail : Bytes) :
    d.decode (first :: tail) =
      match d.decodeField first (first :: tail) with
      | .error fault => .error fault
      | .ok (.error e, d1) => .ok (.error e, d1)
      | .ok (.ok (header, n), d1) => prepend header.toList (d1.decode ((first :: tail).drop n)) := by
  rw [HpackDecoder.decode, List.length_cons, decodeLoop]
  cases field : d.decodeField first (first :: tail) with
  | error fault => rfl
  | ok pair =>
      obtain ⟨result, d1⟩ := pair
      cases result with
      | error e => rfl
      | ok found =>
          obtain ⟨header, n⟩ := found
          have bounds := (decode_field_cases d d1 first tail _ field).2 header n rfl
          simp only [List.nil_append]
          apply decode_loop_decode
          rw [List.length_drop, List.length_cons]
          omega

theorem walk_decode (d d' : HpackDecoder) (data rest : Bytes) (headers : List Header)
    (walk : Walk d data headers d' rest) : d.decode data = prepend headers (d'.decode rest) := by
  induction walk with
  | here d data => rw [prepend_nil]
  | turn d d1 d2 first tail rest header n headers field later ih => rw [decode_cons, field, prepend_append, ← ih]

theorem walk_trans (d d1 d2 : HpackDecoder) (data middle rest : Bytes) (a b : List Header)
    (front : Walk d data a d1 middle) (back : Walk d1 middle b d2 rest) : Walk d data (a ++ b) d2 rest := by
  induction front with
  | here d data => exact back
  | turn d d3 d4 first tail middle header n headers field later ih =>
      rw [List.append_assoc]
      exact .turn d d3 d2 first tail rest header n _ field (ih back)

theorem decode_walk (d : HpackDecoder) (data : Bytes) :
    (∃ headers d', Walk d data headers d' [] ∧ d.decode data = .ok (.ok headers, d')) ∨
    (∃ headers d1 d' first tail e, Walk d data headers d1 (first :: tail) ∧
      d1.decodeField first (first :: tail) = .ok (.error e, d') ∧ d.decode data = .ok (.error e, d')) ∨
    (∃ headers d1 first tail fault, Walk d data headers d1 (first :: tail) ∧
      d1.decodeField first (first :: tail) = .error fault ∧ d.decode data = .error fault) := by
  induction bytes : data.length using Nat.strongRecOn generalizing d data with
  | ind count ih =>
      cases data with
      | nil => exact .inl ⟨[], d, .here d [], rfl⟩
      | cons first tail =>
          cases field : d.decodeField first (first :: tail) with
          | error fault => exact .inr (.inr ⟨[], d, first, tail, fault, .here d _, field, by rw [decode_cons, field]⟩)
          | ok pair =>
              obtain ⟨result, d1⟩ := pair
              cases result with
              | error e => exact .inr (.inl ⟨[], d, d1, first, tail, e, .here d _, field, by rw [decode_cons, field]⟩)
              | ok found =>
                  obtain ⟨header, n⟩ := found
                  have bounds := (decode_field_cases d d1 first tail _ field).2 header n rfl
                  have step (hs : List Header) (d2 : HpackDecoder) (rest : Bytes)
                      (later : Walk d1 ((first :: tail).drop n) hs d2 rest) := Walk.turn d d1 d2 first tail rest header n hs field later
                  have unfolded : d.decode (first :: tail) = prepend header.toList (d1.decode ((first :: tail).drop n)) := by
                    rw [decode_cons, field]
                  have shorter : ((first :: tail).drop n).length < count := by
                    rw [List.length_drop, bytes]
                    omega
                  rcases ih _ shorter d1 _ rfl with ⟨hs, d2, walk, result⟩ | ⟨hs, d2, d3, f, t, e, walk, failed, result⟩ |
                    ⟨hs, d2, f, t, fault, walk, failed, result⟩
                  · exact .inl ⟨_, d2, step hs d2 [] walk, by rw [unfolded, result]; rfl⟩
                  · exact .inr (.inl ⟨_, d2, d3, f, t, e, step hs d2 _ walk, failed, by rw [unfolded, result]; rfl⟩)
                  · exact .inr (.inr ⟨_, d2, f, t, fault, step hs d2 _ walk, failed, by rw [unfolded, result]; rfl⟩)

-- A call that returns leaves the table of the last head of its loop, or what
-- the failing instruction there made of it.
theorem decode_ends (d d' : HpackDecoder) (data : Bytes) (result : Except String (List Header))
    (returned : d.decode data = .ok (result, d')) :
    ∃ headers d1 rest, Walk d data headers d1 rest ∧ TableStep d1 rest d' := by
  rcases decode_walk d data with ⟨headers, d1, walk, same⟩ | ⟨headers, d1, d2, first, tail, e, walk, field, same⟩ |
    ⟨headers, d1, first, tail, fault, walk, field, same⟩
  · simp only [same, Except.ok.injEq, Prod.mk.injEq] at returned
    exact ⟨headers, d1, [], walk, returned.2 ▸ .kept⟩
  · simp only [same, Except.ok.injEq, Prod.mk.injEq] at returned
    exact ⟨headers, d1, first :: tail, walk, returned.2 ▸ (decode_field_cases d1 d2 first tail _ field).1⟩
  · simp [same] at returned

end Ners.Hpack

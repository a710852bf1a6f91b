import Ners.Hpack.DecoderRun

set_option autoImplicit false

namespace Ners.Hpack

theorem decode_loop_append (rest more : Bytes) (value m pos v n : Nat)
    (read : decodeIntegerLoop rest value m pos = .ok (v, n)) : decodeIntegerLoop (rest ++ more) value m pos = .ok (v, n) := by
  induction rest generalizing value m pos with
  | nil => cases read
  | cons b tail ih =>
      rw [List.cons_append]
      rw [decodeIntegerLoop] at read ⊢
      by_cases last : b.toNat &&& 0x80 = 0
      · simp only [if_pos last] at read ⊢
        exact read
      · simp only [if_neg last] at read ⊢
        exact ih _ _ _ read

theorem decode_integer_append (data more : Bytes) (pfx v n : Nat) (read : decodeInteger data pfx = .ok (v, n)) :
    decodeInteger (data ++ more) pfx = .ok (v, n) := by
  cases data with
  | nil => cases read
  | cons first tail =>
      rw [List.cons_append]
      simp only [decodeInteger] at read ⊢
      by_cases small : first.toNat &&& ((1 <<< pfx) - 1) < (1 <<< pfx) - 1
      · rw [if_pos small] at read ⊢
        exact read
      · rw [if_neg small] at read ⊢
        exact decode_loop_append tail more _ 0 1 v n read

theorem decode_string_append (data more : Bytes) (s : String) (n : Nat) (read : decodeString data = .ok (.ok (s, n))) :
    decodeString (data ++ more) = .ok (.ok (s, n)) := by
  obtain ⟨len, pos, integer, fits, enough, rfl, rfl⟩ := decode_string_read data s n read
  have still : ¬ (data ++ more).length < pos + len := by
    rw [List.length_append]
    omega
  have bytes : ((data ++ more).drop pos).take len = (data.drop pos).take len := by
    rw [List.drop_append_of_le_length (by omega), List.take_append_of_le_length]
    rw [List.length_drop]
    omega
  rw [decode_string_within _ len pos (decode_integer_append data more 7 len pos integer) fits, if_neg still, bytes]

theorem read_string_append (data more : Bytes) (pos : Nat) (s : String) (n : Nat) (within : pos ≤ data.length)
    (read : readString data pos = .ok (.ok (s, n))) : readString (data ++ more) pos = .ok (.ok (s, n)) := by
  rw [read_string_within data pos within] at read
  rw [read_string_within _ pos (by rw [List.length_append]; omega), List.drop_append_of_le_length within]
  rcases decoded : decodeString (data.drop pos) with fault | e | ⟨s', consumed⟩
  · simp only [decoded, reduceCtorEq] at read
  · simp only [decoded, Except.ok.injEq, reduceCtorEq] at read
  · rw [decode_string_append _ more s' consumed decoded]
    simp only [decoded] at read
    exact read

theorem literal_name_append (d : HpackDecoder) (data more : Bytes) (nameIndex pos : Nat) (name : String) (n : Nat)
    (within : pos ≤ data.length) (read : d.literalName data nameIndex pos = .ok (.ok (name, n))) :
    d.literalName (data ++ more) nameIndex pos = .ok (.ok (name, n)) := by
  by_cases fresh : nameIndex = 0
  · rw [HpackDecoder.literalName, if_pos fresh] at read ⊢
    exact read_string_append data more pos name n within read
  · rw [HpackDecoder.literalName, if_neg fresh] at read ⊢
    exact read

theorem decode_literal_append (d d' : HpackDecoder) (data more : Bytes) (pfx : Nat) (index : Bool) (header : Header) (n : Nat)
    (narrow : pfx ≤ 8) (read : d.decodeLiteral data pfx index = .ok (.ok (header, n), d')) :
    d.decodeLiteral (data ++ more) pfx index = .ok (.ok (header, n), d') := by
  cases integer : decodeInteger data pfx with
  | error e =>
      simp only [HpackDecoder.decodeLiteral, integer] at read
      cases read
  | ok pair =>
      obtain ⟨nameIndex, pos⟩ := pair
      have bounds := decode_integer_bounds data pfx nameIndex pos narrow integer
      rcases named : d.literalName data nameIndex pos with fault | e | ⟨name, m⟩
      · simp only [HpackDecoder.decodeLiteral, integer, named] at read
        cases read
      · simp only [HpackDecoder.decodeLiteral, integer, named] at read
        cases read
      · have nameBounds := literal_name_bounds d data nameIndex pos name m bounds.2.1 named
        rcases valued : readString data m with fault | e | ⟨value, k⟩
        · simp only [HpackDecoder.decodeLiteral, integer, named, valued] at read
          cases read
        · simp only [HpackDecoder.decodeLiteral, integer, named, valued] at read
          cases read
        · simp only [HpackDecoder.decodeLiteral, integer, named, valued] at read
          simp only [HpackDecoder.decodeLiteral, decode_integer_append data more pfx nameIndex pos integer,
            literal_name_append d data more nameIndex pos name m bounds.2.1 named,
            read_string_append data more m value k nameBounds.2 valued]
          exact read

theorem decode_field_append (d d' : HpackDecoder) (first : UInt8) (tail more : Bytes) (header : Option Header) (n : Nat)
    (read : d.decodeField first (first :: tail) = .ok (.ok (header, n), d')) :
    d.decodeField first (first :: tail ++ more) = .ok (.ok (header, n), d') := by
  cases kind : literalKind first with
  | some pair =>
      obtain ⟨pfx, index⟩ := pair
      have narrow := literal_kind_narrow first pfx index kind
      rw [decode_field_literal d first _ pfx index kind] at read ⊢
      rcases literal : d.decodeLiteral (first :: tail) pfx index with fault | ⟨e | ⟨field, m⟩, after⟩
      · simp only [literal] at read
        cases read
      · simp only [literal, pushed] at read
        cases read
      · rw [decode_literal_append d after _ more pfx index field m narrow literal]
        simp only [literal] at read
        exact read
  | none =>
      rcases literal_kind_none first kind with indexed | ⟨low, high⟩
      · rw [decode_field_indexed d first _ indexed] at read ⊢
        rcases integer : decodeInteger (first :: tail) 7 with e | ⟨i, m⟩
        · simp only [integer] at read
          cases read
        · rw [decode_integer_append _ more 7 i m integer]
          simp only [integer] at read
          exact read
      · rw [decode_field_update d first _ low high] at read ⊢
        rcases integer : decodeInteger (first :: tail) 5 with e | ⟨newSize, m⟩
        · simp only [integer] at read
          cases read
        · rw [decode_integer_append _ more 5 newSize m integer]
          simp only [integer] at read
          exact read

theorem walk_append (d d' : HpackDecoder) (data rest more : Bytes) (headers : List Header) (walk : Walk d data headers d' rest) :
    Walk d (data ++ more) headers d' (rest ++ more) := by
  induction walk with
  | here d data => exact .here d _
  | turn d d1 d2 first tail rest header n headers field later ih =>
      have bounds := (decode_field_cases d d1 first tail _ field).2 header n rfl
      have same : (first :: tail ++ more).drop n = (first :: tail).drop n ++ more := List.drop_append_of_le_length bounds.2
      exact .turn d d1 d2 first (tail ++ more) (rest ++ more) header n headers
        (decode_field_append d d1 first tail more header n field) (same ▸ ih)

theorem decode_append (d d' : HpackDecoder) (block more : Bytes) (headers : List Header)
    (decoded : d.decode block = .ok (.ok headers, d')) : d.decode (block ++ more) = prepend headers (d'.decode more) := by
  obtain ⟨found, d1, walk, same⟩ | ⟨_, _, _, _, _, _, _, _, same⟩ | ⟨_, _, _, _, _, _, _, same⟩ := decode_walk d block
  · cases same.symm.trans decoded
    exact walk_decode d d' _ more headers (walk_append d d' block [] more headers walk)
  · cases same.symm.trans decoded
  · cases same.symm.trans decoded

theorem decode_composes (d s : HpackDecoder) (a b : Bytes) (h1 : List Header) (decoded : d.decode a = .ok (.ok h1, s)) :
    (∀ h2 s', s.decode b = .ok (.ok h2, s') → d.decode (a ++ b) = .ok (.ok (h1 ++ h2), s')) ∧
      (∀ e s', s.decode b = .ok (.error e, s') → d.decode (a ++ b) = .ok (.error e, s')) ∧
      ∀ fault, s.decode b = .error fault → d.decode (a ++ b) = .error fault := by
  rw [decode_append d s a b h1 decoded]
  refine ⟨fun h2 s' later => ?_, fun e s' later => ?_, fun fault later => ?_⟩
  all_goals
    rw [later]
    rfl

-- The second string names the entry that the first one has put into the table.
theorem decode_composes_entry :
    (HpackDecoder.new 4096).decode ([0x40, 1, 0x61, 1, 0x62] ++ [0xbe]) =
      .ok (.ok ([("a", "b")] ++ [("a", "b")]), (HpackDecoder.new 4096).addEntry "a" "b") :=
  (decode_composes (HpackDecoder.new 4096) ((HpackDecoder.new 4096).addEntry "a" "b") [0x40, 1, 0x61, 1, 0x62] [0xbe]
    [("a", "b")] (by decide +kernel)).1 [("a", "b")] _ (by decide +kernel)

end Ners.Hpack

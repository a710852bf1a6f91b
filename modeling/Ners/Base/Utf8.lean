import Ners.Base.Machine

set_option autoImplicit false

namespace Ners.Utf8

open String (utf8EncodeChar)

def continuation (b : UInt8) : Bool := decide (0x80 ≤ b.toNat ∧ b.toNat ≤ 0xBF)

-- The second byte of a three- or four-byte sequence is narrowed by its lead, so
-- that overlong forms, surrogates and values above 10FFFF are never completed.
def second3 (lead b : UInt8) : Bool :=
  if lead.toNat = 0xE0 then decide (0xA0 ≤ b.toNat ∧ b.toNat ≤ 0xBF)
  else if lead.toNat = 0xED then decide (0x80 ≤ b.toNat ∧ b.toNat ≤ 0x9F)
  else continuation b

def second4 (lead b : UInt8) : Bool :=
  if lead.toNat = 0xF0 then decide (0x90 ≤ b.toNat ∧ b.toNat ≤ 0xBF)
  else if lead.toNat = 0xF4 then decide (0x80 ≤ b.toNat ∧ b.toNat ≤ 0x8F)
  else continuation b

def scalar2 (a b : UInt8) : Char := .ofNat ((a.toNat - 0xC0) * 64 + (b.toNat - 0x80))
def scalar3 (a b c : UInt8) : Char :=
  .ofNat ((a.toNat - 0xE0) * 4096 + (b.toNat - 0x80) * 64 + (c.toNat - 0x80))
def scalar4 (a b c d : UInt8) : Char :=
  .ofNat ((a.toNat - 0xF0) * 262144 + (b.toNat - 0x80) * 4096 + (c.toNat - 0x80) * 64 + (d.toNat - 0x80))

-- One entry for each scalar value and none for each maximal ill-formed piece,
-- which ends in front of the first byte that cannot continue it.
def scan : Bytes → List (Option Char)
  | [] => []
  | a :: r1 =>
      if a.toNat < 0x80 then some (.ofNat a.toNat) :: scan r1
      else if 0xC2 ≤ a.toNat ∧ a.toNat ≤ 0xDF then
        match r1 with
        | [] => [none]
        | b :: r2 => if continuation b then some (scalar2 a b) :: scan r2 else none :: scan (b :: r2)
      else if 0xE0 ≤ a.toNat ∧ a.toNat ≤ 0xEF then
        match r1 with
        | [] => [none]
        | b :: r2 =>
            if second3 a b then
              match r2 with
              | [] => [none]
              | c :: r3 => if continuation c then some (scalar3 a b c) :: scan r3 else none :: scan (c :: r3)
            else none :: scan (b :: r2)
      else if 0xF0 ≤ a.toNat ∧ a.toNat ≤ 0xF4 then
        match r1 with
        | [] => [none]
        | b :: r2 =>
            if second4 a b then
              match r2 with
              | [] => [none]
              | c :: r3 =>
                  if continuation c then
                    match r3 with
                    | [] => [none]
                    | d :: r4 => if continuation d then some (scalar4 a b c d) :: scan r4 else none :: scan (d :: r4)
                  else none :: scan (c :: r3)
            else none :: scan (b :: r2)
      else none :: scan r1

theorem scan_single (a : UInt8) (rest : Bytes) (ascii : a.toNat < 0x80) :
    scan (a :: rest) = some (.ofNat a.toNat) :: scan rest := by
  rw [scan.eq_def]
  exact if_pos ascii

theorem scan_pair (a b : UInt8) (rest : Bytes) (low : 0xC2 ≤ a.toNat) (high : a.toNat ≤ 0xDF)
    (follows : continuation b = true) : scan (a :: b :: rest) = some (scalar2 a b) :: scan rest := by
  rw [scan.eq_def]
  simp only
  rw [if_neg (by omega), if_pos ⟨low, high⟩, if_pos follows]

theorem scan_triple (a b c : UInt8) (rest : Bytes) (low : 0xE0 ≤ a.toNat) (high : a.toNat ≤ 0xEF)
    (narrowed : second3 a b = true) (follows : continuation c = true) :
    scan (a :: b :: c :: rest) = some (scalar3 a b c) :: scan rest := by
  rw [scan.eq_def]
  simp only
  rw [if_neg (by omega), if_neg (by omega), if_pos ⟨low, high⟩, if_pos narrowed, if_pos follows]

theorem scan_quad (a b c d : UInt8) (rest : Bytes) (low : 0xF0 ≤ a.toNat) (high : a.toNat ≤ 0xF4)
    (narrowed : second4 a b = true) (follows : continuation c = true) (last : continuation d = true) :
    scan (a :: b :: c :: d :: rest) = some (scalar4 a b c d) :: scan rest := by
  rw [scan.eq_def]
  simp only
  rw [if_neg (by omega), if_neg (by omega), if_neg (by omega), if_pos ⟨low, high⟩, if_pos narrowed, if_pos follows, if_pos last]

theorem char_range (c : Char) :
    c.val.toNat < 0xD800 ∨ (0xDFFF < c.val.toNat ∧ c.val.toNat < 0x110000) := c.valid

theorem char_of_value (c : Char) (v : Nat) (value : c.val.toNat = v) : Char.ofNat v = c := by
  rw [← value]
  exact Char.ofNat_toNat c

theorem scan_char (c : Char) (rest : Bytes) : scan (utf8EncodeChar c ++ rest) = some c :: scan rest := by
  have range := char_range c
  generalize value : c.val.toNat = v at range
  have same := char_of_value c v value
  have low := byte_value (v % 64 + 128) (by omega)
  have middle := byte_value (v / 64 % 64 + 128) (by omega)
  have upper := byte_value (v / 4096 % 64 + 128) (by omega)
  by_cases one : v ≤ 0x7F
  · have lead := byte_value v (by omega)
    simp only [utf8EncodeChar, value, if_pos one, List.singleton_append]
    rw [scan_single _ _ (by omega), lead, same]
  · by_cases two : v ≤ 0x7FF
    · have lead := byte_value (v / 64 % 32 + 192) (by omega)
      simp only [utf8EncodeChar, value, if_neg one, if_pos two, List.cons_append, List.nil_append]
      rw [scan_pair _ _ _ (by omega) (by omega) (decide_eq_true (by omega)), scalar2, lead, low,
        show (v / 64 % 32 + 192 - 0xC0) * 64 + (v % 64 + 128 - 0x80) = v by omega, same]
    · by_cases three : v ≤ 0xFFFF
      · have lead := byte_value (v / 4096 % 16 + 224) (by omega)
        have narrowed : second3 (.ofNat (v / 4096 % 16 + 224)) (.ofNat (v / 64 % 64 + 128)) = true := by
          rw [second3, continuation, lead, middle]
          split
          · exact decide_eq_true (by omega)
          · split <;> exact decide_eq_true (by omega)
        simp only [utf8EncodeChar, value, if_neg one, if_neg two, if_pos three, List.cons_append, List.nil_append]
        rw [scan_triple _ _ _ _ (by omega) (by omega) narrowed (decide_eq_true (by omega)), scalar3, lead, middle, low,
          show (v / 4096 % 16 + 224 - 0xE0) * 4096 + (v / 64 % 64 + 128 - 0x80) * 64 + (v % 64 + 128 - 0x80) = v by omega, same]
      · have lead := byte_value (v / 262144 % 8 + 240) (by omega)
        have narrowed : second4 (.ofNat (v / 262144 % 8 + 240)) (.ofNat (v / 4096 % 64 + 128)) = true := by
          rw [second4, continuation, lead, upper]
          split
          · exact decide_eq_true (by omega)
          · split <;> exact decide_eq_true (by omega)
        simp only [utf8EncodeChar, value, if_neg one, if_neg two, if_neg three, List.cons_append, List.nil_append]
        rw [scan_quad _ _ _ _ _ (by omega) (by omega) narrowed (decide_eq_true (by omega)) (decide_eq_true (by omega)),
          scalar4, lead, upper, middle, low,
          show (v / 262144 % 8 + 240 - 0xF0) * 262144 + (v / 4096 % 64 + 128 - 0x80) * 4096 +
            (v / 64 % 64 + 128 - 0x80) * 64 + (v % 64 + 128 - 0x80) = v by omega, same]

theorem scan_chars (chars : List Char) : scan (chars.flatMap utf8EncodeChar) = chars.map some := by
  induction chars with
  | nil => rfl
  | cons c tail ih => rw [List.flatMap_cons, scan_char, ih, List.map_cons]

def Ascii (bytes : Bytes) : Prop := ∀ b ∈ bytes, b.toNat < 0x80

instance (bytes : Bytes) : Decidable (Ascii bytes) := List.decidableBAll _ bytes

theorem ascii_append (front back : Bytes) (one : Ascii front) (other : Ascii back) : Ascii (front ++ back) := by
  intro b member
  exact (List.mem_append.mp member).elim (one b) (other b)

theorem scan_ascii (bytes : Bytes) (ascii : Ascii bytes) :
    scan bytes = bytes.map fun b => some (.ofNat b.toNat) := by
  induction bytes with
  | nil => rfl
  | cons b rest ih =>
      have tail : Ascii rest := fun c member => ascii c (List.mem_cons_of_mem b member)
      rw [scan_single b rest (ascii b List.mem_cons_self), ih tail, List.map_cons]

theorem ascii_whole (bytes : Bytes) (ascii : Ascii bytes) : none ∉ scan bytes := by
  rw [scan_ascii bytes ascii, List.mem_map]
  rintro ⟨b, _, same⟩
  cases same

theorem scan_lone (b : UInt8) (high : 0x80 ≤ b.toNat) : scan [b] = [none] := by
  rw [scan.eq_def]
  simp only [scan]
  rw [if_neg (by omega)]
  split
  · rfl
  · split
    · rfl
    · split <;> rfl

theorem scan_append (front back : Bytes) (whole : none ∉ scan front) : scan (front ++ back) = scan front ++ scan back := by
  have later (c : Char) (rest : List (Option Char)) (clean : none ∉ some c :: rest) : none ∉ rest :=
    fun member => clean (List.mem_cons_of_mem _ member)
  fun_induction scan front with
  | case1 => rfl
  | case2 a r1 ascii ih => exact (scan_single a _ ascii).trans (congrArg _ (ih (later _ _ whole)))
  | case4 a _ lead b r2 follows ih =>
      exact (scan_pair a b _ lead.1 lead.2 follows).trans (congrArg _ (ih (later _ _ whole)))
  | case8 a _ _ lead b narrowed c r3 follows ih =>
      exact (scan_triple a b c _ lead.1 lead.2 narrowed follows).trans (congrArg _ (ih (later _ _ whole)))
  | case14 a _ _ _ lead b narrowed c follows d r4 last ih =>
      exact (scan_quad a b c d _ lead.1 lead.2 narrowed follows last).trans (congrArg _ (ih (later _ _ whole)))
  | _ => exact absurd List.mem_cons_self whole

theorem first_high (bytes : Bytes) (other : ¬ Ascii bytes) :
    ∃ front b back, bytes = front ++ b :: back ∧ Ascii front ∧ 0x80 ≤ b.toNat := by
  induction bytes with
  | nil => exact absurd (by decide) other
  | cons b rest ih =>
      by_cases low : b.toNat < 0x80
      · have tail : ¬ Ascii rest := fun ascii => other fun c member => (List.mem_cons.mp member).elim (· ▸ low) (ascii c)
        obtain ⟨front, c, back, rfl, ascii, high⟩ := ih tail
        exact ⟨b :: front, c, back, rfl, fun d member => (List.mem_cons.mp member).elim (· ▸ low) (ascii d), high⟩
      · exact ⟨[], b, rest, rfl, by decide, Nat.le_of_not_lt low⟩

theorem high_torn (front : Bytes) (b : UInt8) (whole : none ∉ scan front) (high : 0x80 ≤ b.toNat) :
    none ∈ scan (front ++ [b]) := by
  rw [scan_append front [b] whole, scan_lone b high]
  exact List.mem_append_right _ List.mem_cons_self

theorem append_whole (front back : Bytes) (one : none ∉ scan front) (other : none ∉ scan back) :
    none ∉ scan (front ++ back) := by
  rw [scan_append front back one, List.mem_append]
  exact fun either => either.elim one other

def encode (chars : List Char) : Bytes := chars.flatMap utf8EncodeChar

theorem encode_append (front back : List Char) : encode (front ++ back) = encode front ++ encode back := List.flatMap_append

def AsciiText (chars : List Char) : Prop := ∀ c ∈ chars, c.toNat < 0x80

instance (chars : List Char) : Decidable (AsciiText chars) := List.decidableBAll _ chars

theorem encode_ascii (chars : List Char) (ascii : AsciiText chars) : encode chars = chars.map fun c => .ofNat c.toNat := by
  induction chars with
  | nil => rfl
  | cons c rest ih =>
      have one : c.val.toNat ≤ 0x7f := Nat.le_of_lt_succ (ascii c List.mem_cons_self)
      have tail : AsciiText rest := fun d member => ascii d (List.mem_cons_of_mem c member)
      rw [encode, List.flatMap_cons, utf8EncodeChar]
      rw [if_pos one, List.singleton_append, List.map_cons]
      exact congrArg _ (ih tail)

theorem ascii_encode (chars : List Char) (ascii : AsciiText chars) : Ascii (encode chars) := by
  rw [encode_ascii chars ascii]
  intro b member
  obtain ⟨c, inside, rfl⟩ := List.mem_map.mp member
  have small : c.toNat < 0x80 := ascii c inside
  rw [byte_value c.toNat (by omega)]
  exact small

theorem encode_member (chars : List Char) (d : Char) (ascii : AsciiText chars) (low : d.toNat < 0x80)
    (member : UInt8.ofNat d.toNat ∈ encode chars) : d ∈ chars := by
  rw [encode_ascii chars ascii, List.mem_map] at member
  obtain ⟨c, inside, same⟩ := member
  have small : c.toNat < 0x80 := ascii c inside
  have value := congrArg UInt8.toNat same
  rw [byte_value _ (by omega), byte_value _ (by omega)] at value
  have equal : c = d := (Char.ofNat_toNat c).symm.trans ((congrArg Char.ofNat value).trans (Char.ofNat_toNat d))
  exact equal ▸ inside

def asBytes (s : String) : Bytes := s.toByteArray.data.toList

theorem as_bytes_chars (s : String) : asBytes s = s.toList.flatMap utf8EncodeChar := by
  have encoded : s.toByteArray = s.toList.utf8Encode := by
    rw [← String.toByteArray_ofList, String.ofList_toList]
  rw [asBytes, encoded, List.utf8Encode]
  simp

theorem as_bytes_append (s t : String) : asBytes (s ++ t) = asBytes s ++ asBytes t := by
  rw [as_bytes_chars, as_bytes_chars, as_bytes_chars, String.toList_append, List.flatMap_append]

def fromUtf8Lossy (bytes : Bytes) : String := .ofList ((scan bytes).map (·.getD '\uFFFD'))

def fromUtf8 (bytes : Bytes) : Option String :=
  if none ∈ scan bytes then none else some (fromUtf8Lossy bytes)

theorem from_utf8_lossy_bytes (s : String) : fromUtf8Lossy (asBytes s) = s := by
  rw [fromUtf8Lossy, as_bytes_chars, scan_chars]
  simp [Function.comp_def, String.ofList_toList]

end Ners.Utf8

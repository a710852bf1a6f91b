import Ners.Hpack.DecoderRun
import Ners.Hpack.Encoder
import Mathlib.Order.Nat

set_option autoImplicit false

namespace Ners.Hpack

open Utf8 (asBytes)
open Eviction (LongestFit)

-- A finished call of decode, with the decoder as the call found it.
structure Call where
  decoder : HpackDecoder
  block : Bytes
  result : Except String (List Header)

-- Calls on one decoder since new(N), latest first. A call that returned Err
-- keeps whatever it did to the table before the error.
inductive HpackDecoder.Run (N : Nat) : List Call → HpackDecoder → Prop where
  | new : Run N [] (.new N)
  | call (calls : List Call) (d d' : HpackDecoder) (block : Bytes) (result : Except String (List Header))
      (earlier : Run N calls d) (returned : d.decode block = .ok (result, d')) : Run N (⟨d, block, result⟩ :: calls) d'

def HpackDecoder.Reachable (N : Nat) (d : HpackDecoder) : Prop := ∃ calls, HpackDecoder.Run N calls d

theorem table_step_sized (d d' : HpackDecoder) (data : Bytes) (step : TableStep d data d')
    (sized : d.toHpackTable.Sized) : d'.toHpackTable.Sized := by
  cases step with
  | kept => exact sized
  | added name value => exact add_entry_sized d.toHpackTable name value sized
  | resized first tail newSize n front low high read => exact resize_sized d.toHpackTable newSize sized

theorem walk_sized (d d' : HpackDecoder) (data rest : Bytes) (headers : List Header) (walk : Walk d data headers d' rest)
    (sized : d.toHpackTable.Sized) : d'.toHpackTable.Sized := by
  induction walk with
  | here d data => exact sized
  | turn d d1 d2 first tail rest header n headers field later ih =>
      exact ih (table_step_sized d d1 _ (decode_field_cases d d1 first tail _ field).1 sized)

theorem decode_sized (d d' : HpackDecoder) (data : Bytes) (result : Except String (List Header))
    (returned : d.decode data = .ok (result, d')) (sized : d.toHpackTable.Sized) : d'.toHpackTable.Sized := by
  obtain ⟨headers, d1, rest, walk, step⟩ := decode_ends d d' data result returned
  exact table_step_sized d1 d' rest step (walk_sized d d1 data rest headers walk sized)

theorem run_sized (N : Nat) (calls : List Call) (d : HpackDecoder) (run : HpackDecoder.Run N calls d) :
    d.toHpackTable.Sized := by
  induction run with
  | new => exact new_sized N
  | call calls d d' block result earlier returned ih => exact decode_sized d d' block result returned ih

-- add_entry and resize on this table: every subtraction is exact, and what
-- stays is the longest front part within the limit.
def HpackTable.AddsLongest (t : HpackTable) : Prop :=
  ∀ name value,
    EvictionExact (DynamicEntry.new name value).size t.maxSize t.dynamicTable.reverse t.currentSize ∧
    LongestFit DynamicEntry.size t.maxSize (.new name value :: t.dynamicTable) (t.addEntry name value).dynamicTable ∧
    (t.maxSize < (DynamicEntry.new name value).size → (t.addEntry name value).dynamicTable = [])

def HpackTable.ResizesLongest (t : HpackTable) : Prop :=
  ∀ newSize,
    EvictionExact 0 newSize t.dynamicTable.reverse t.currentSize ∧
    LongestFit DynamicEntry.size newSize t.dynamicTable (t.resize newSize).dynamicTable

theorem sized_adds_longest (t : HpackTable) (sized : t.Sized) : t.AddsLongest := by
  intro name value
  refine ⟨eviction_exact _ _ _ _ (by simpa using sized.counted), add_entry_fits t name value sized, ?_⟩
  intro beyond
  rw [add_entry_oversize t name value beyond, evict_oversize t _ beyond]

theorem sized_resizes_longest (t : HpackTable) (sized : t.Sized) : t.ResizesLongest := fun newSize =>
  ⟨eviction_exact _ _ _ _ (by simpa using sized.counted), resize_fits t newSize sized⟩

theorem sized_counts (t : HpackTable) (sized : t.Sized) :
    t.currentSize = (t.dynamicTable.map fun entry => 32 + (asBytes entry.name).length + (asBytes entry.value).length).sum := by
  have sizes : (fun entry : DynamicEntry => 32 + (asBytes entry.name).length + (asBytes entry.value).length) =
      DynamicEntry.size := funext fun entry => entry.sized.symm
  rw [sizes]
  exact sized.counted

inductive HpackEncoder.Reachable (N : Nat) : HpackEncoder → Prop where
  | new : Reachable N (.new N)
  | encode (e : HpackEncoder) (headers : List Header) (earlier : Reachable N e) : Reachable N (e.encode headers).2

theorem encode_header_sized (e : HpackEncoder) (name value : String) (sized : e.toHpackTable.Sized) :
    (e.encodeHeader name value).2.toHpackTable.Sized := by
  unfold HpackEncoder.encodeHeader
  rcases findStatic name value with _ | ⟨index, _ | _⟩
  · exact add_entry_sized e.toHpackTable name value sized
  · exact add_entry_sized e.toHpackTable name value sized
  · exact sized

theorem encode_sized (e : HpackEncoder) (headers : List Header) (sized : e.toHpackTable.Sized) :
    (e.encode headers).2.toHpackTable.Sized := by
  induction headers generalizing e with
  | nil => exact sized
  | cons header rest ih => exact ih _ (encode_header_sized e header.1 header.2 sized)

theorem encoder_sized (N : Nat) (e : HpackEncoder) (reachable : e.Reachable N) : e.toHpackTable.Sized := by
  induction reachable with
  | new => exact new_sized N
  | encode e headers earlier ih => exact encode_sized e headers ih

-- A table that counts its entries exactly, stays within its bound and treats
-- every insertion as the eviction table does.
structure HpackTable.Evicting (t : HpackTable) : Prop where
  counts : t.currentSize =
    (t.dynamicTable.map fun entry => 32 + (asBytes entry.name).length + (asBytes entry.value).length).sum
  bounded : t.currentSize ≤ t.maxSize
  adds : t.AddsLongest

theorem sized_evicting (t : HpackTable) (sized : t.Sized) : t.Evicting :=
  ⟨sized_counts t sized, sized.bounded, sized_adds_longest t sized⟩

-- The decoder's table at the head of every turn of the loop of decode, hence in
-- front of every insertion and resize, and the encoder's between blocks.
theorem tables_evict_longest (N : Nat) :
    (∀ d : HpackDecoder, d.Reachable N → ∀ block headers d1 rest, Walk d block headers d1 rest →
      d1.toHpackTable.Evicting ∧ d1.toHpackTable.ResizesLongest) ∧
    (∀ e : HpackEncoder, e.Reachable N → e.toHpackTable.Evicting) := by
  constructor
  · rintro d ⟨calls, run⟩ block headers d1 rest walk
    have sized := walk_sized d d1 block rest headers walk (run_sized N calls d run)
    exact ⟨sized_evicting _ sized, sized_resizes_longest _ sized⟩
  · intro e reachable
    exact sized_evicting _ (encoder_sized N e reachable)

theorem tables_evict_longest_new :
    ((HpackDecoder.new 64).toHpackTable.Evicting ∧ (HpackDecoder.new 64).toHpackTable.ResizesLongest) ∧
      ((HpackEncoder.new 64).encode [("a", "b")]).2.toHpackTable.Evicting :=
  ⟨(tables_evict_longest 64).1 (.new 64) ⟨[], .new⟩ [] [] (.new 64) [] (.here _ _),
    (tables_evict_longest 64).2 _ (.encode (.new 64) [("a", "b")] .new)⟩

def UpdatesWithin (N : Nat) (d : HpackDecoder) (block : Bytes) : Prop :=
  ∀ headers d1 first tail, Walk d block headers d1 (first :: tail) → 32 ≤ first.toNat → first.toNat < 64 →
    ∀ newSize n, decodeInteger (first :: tail) 5 = .ok (newSize, n) → newSize ≤ N

theorem updates_within_later (N : Nat) (d d1 : HpackDecoder) (first : UInt8) (tail : Bytes) (header : Option Header) (n : Nat)
    (field : d.decodeField first (first :: tail) = .ok (.ok (header, n), d1)) (within : UpdatesWithin N d (first :: tail)) :
    UpdatesWithin N d1 ((first :: tail).drop n) := by
  intro headers d2 other rest walk
  exact within _ d2 other rest (.turn d d1 d2 first tail _ header n headers field walk)

theorem table_step_limit (N : Nat) (d d' : HpackDecoder) (data : Bytes) (step : TableStep d data d')
    (within : UpdatesWithin N d data) (limit : d.maxSize ≤ N) : d'.maxSize ≤ N := by
  cases step with
  | kept => exact limit
  | added name value => exact (add_entry_max_size d.toHpackTable name value).trans_le limit
  | resized first tail newSize n front low high read =>
      subst front
      exact within [] d first tail (.here d _) low high newSize n read

theorem walk_limit (N : Nat) (d d' : HpackDecoder) (data rest : Bytes) (headers : List Header)
    (walk : Walk d data headers d' rest) (within : UpdatesWithin N d data) (limit : d.maxSize ≤ N) :
    d'.maxSize ≤ N ∧ UpdatesWithin N d' rest := by
  induction walk with
  | here d data => exact ⟨limit, within⟩
  | turn d d1 d2 first tail rest header n headers field later ih =>
      have step := (decode_field_cases d d1 first tail _ field).1
      exact ih (updates_within_later N d d1 first tail header n field within) (table_step_limit N d d1 _ step within limit)

theorem decode_limit (N : Nat) (d d' : HpackDecoder) (block : Bytes) (result : Except String (List Header))
    (returned : d.decode block = .ok (result, d')) (within : UpdatesWithin N d block) (limit : d.maxSize ≤ N) :
    d'.maxSize ≤ N := by
  obtain ⟨headers, d1, rest, walk, step⟩ := decode_ends d d' block result returned
  obtain ⟨before, inside⟩ := walk_limit N d d1 block rest headers walk within limit
  exact table_step_limit N d1 d' rest step inside before

def HpackTable.Within (t : HpackTable) (N : Nat) : Prop := t.maxSize ≤ N ∧ t.currentSize ≤ N

theorem sized_within (t : HpackTable) (N : Nat) (sized : t.Sized) (limit : t.maxSize ≤ N) : t.Within N :=
  ⟨limit, sized.bounded.trans limit⟩

def Call.KeepsLimit (N : Nat) (call : Call) : Prop :=
  (∀ headers d1 rest, Walk call.decoder call.block headers d1 rest → d1.toHpackTable.Within N) ∧
    (¬ UpdatesWithin N call.decoder call.block → ∃ e, call.result = .error e)

theorem run_limit (N : Nat) (calls : List Call) (d : HpackDecoder) (run : HpackDecoder.Run N calls d)
    (within : ∀ call ∈ calls, UpdatesWithin N call.decoder call.block) :
    d.maxSize ≤ N ∧ ∀ call ∈ calls, call.KeepsLimit N := by
  induction run with
  | new => exact ⟨Nat.le_refl N, by simp⟩
  | call calls d d' block result earlier returned ih =>
      obtain ⟨limit, kept⟩ := ih (fun call member => within call (List.mem_cons_of_mem _ member))
      have inside := within ⟨d, block, result⟩ List.mem_cons_self
      have sized := run_sized N calls d earlier
      refine ⟨decode_limit N d d' block result returned inside limit, ?_⟩
      intro call member
      rcases List.mem_cons.mp member with rfl | older
      · refine ⟨?_, fun outside => absurd inside outside⟩
        intro headers d1 rest walk
        exact sized_within _ N (walk_sized d d1 block rest headers walk sized)
          (walk_limit N d d1 block rest headers walk inside limit).1
      · exact kept call older

theorem keeps_limit_updates (N : Nat) (call : Call) (kept : call.KeepsLimit N) : UpdatesWithin N call.decoder call.block := by
  intro headers d1 first tail walk low high newSize n read
  have field : d1.decodeField first (first :: tail) = .ok (.ok (none, n), d1.resize newSize) := by
    rw [decode_field_update d1 first _ low high, read]
  have turn := Walk.turn d1 (d1.resize newSize) _ first tail _ none n [] field (.here _ _)
  exact (kept.1 _ _ _ (walk_trans _ _ _ _ _ _ _ _ walk turn)).1

theorem limit_kept_iff_updates_within (N : Nat) (calls : List Call) (d : HpackDecoder) (run : HpackDecoder.Run N calls d) :
    (d.toHpackTable.Within N ∧ ∀ call ∈ calls, call.KeepsLimit N) ↔
      ∀ call ∈ calls, UpdatesWithin N call.decoder call.block := by
  constructor
  · rintro ⟨_, kept⟩ call member
    exact keeps_limit_updates N call (kept call member)
  · intro within
    obtain ⟨limit, kept⟩ := run_limit N calls d run within
    exact ⟨sized_within _ N (run_sized N calls d run) limit, kept⟩

-- Two size updates, to 64 and back to 4096.
def lowerAndRaise : Call := ⟨.new 4096, [0x3f, 0x21, 0x3f, 0xe1, 0x1f], .ok []⟩

theorem limit_kept_iff_updates_within_pair :
    ((HpackDecoder.new 4096).toHpackTable.Within 4096 ∧ ∀ call ∈ [lowerAndRaise], call.KeepsLimit 4096) ↔
      ∀ call ∈ [lowerAndRaise], UpdatesWithin 4096 call.decoder call.block :=
  limit_kept_iff_updates_within 4096 [lowerAndRaise] (.new 4096)
    (.call [] (.new 4096) (.new 4096) lowerAndRaise.block (.ok []) .new (by decide))

def raisingBlock : Bytes := [0x3f, 0xe2, 0x1f]

theorem update_raises_limit :
    ¬ ∀ (N : Nat) (calls : List Call) (d : HpackDecoder), HpackDecoder.Run N calls d →
      d.toHpackTable.Within N ∧ ∀ call ∈ calls, call.KeepsLimit N := by
  intro always
  have returned : (HpackDecoder.new 4096).decode raisingBlock = .ok (.ok [], .new 4097) := by decide
  have kept := (always 4096 _ _ (.call [] (.new 4096) (.new 4097) raisingBlock (.ok []) .new returned)).1
  exact absurd kept.1 (by decide)

end Ners.Hpack

import Ners.Base.Utf8
import Ners.Base.Eviction

set_option autoImplicit false

namespace Ners.Hpack

open Utf8 (asBytes)
open Eviction (total LongestFit)

def staticTable : List (String × String) := [
  (":authority", ""), (":method", "GET"), (":method", "POST"), (":path", "/"), (":path", "/index.html"),
  (":scheme", "http"), (":scheme", "https"), (":status", "200"), (":status", "204"), (":status", "206"),
  (":status", "304"), (":status", "400"), (":status", "404"), (":status", "500"), ("accept-charset", ""),
  ("accept-encoding", "gzip, deflate"), ("accept-language", ""), ("accept-ranges", ""), ("accept", ""),
  ("access-control-allow-origin", ""), ("age", ""), ("allow", ""), ("authorization", ""), ("cache-control", ""),
  ("content-disposition", ""), ("content-encoding", ""), ("content-language", ""), ("content-length", ""),
  ("content-location", ""), ("content-range", ""), ("content-type", ""), ("cookie", ""), ("date", ""), ("etag", ""),
  ("expect", ""), ("expires", ""), ("from", ""), ("host", ""), ("if-match", ""), ("if-modified-since", ""),
  ("if-none-match", ""), ("if-range", ""), ("if-unmodified-since", ""), ("last-modified", ""), ("link", ""),
  ("location", ""), ("max-forwards", ""), ("proxy-authenticate", ""), ("proxy-authorization", ""), ("range", ""),
  ("referer", ""), ("refresh", ""), ("retry-after", ""), ("server", ""), ("set-cookie", ""),
  ("strict-transport-security", ""), ("transfer-encoding", ""), ("user-agent", ""), ("vary", ""), ("via", ""),
  ("www-authenticate", "")]

structure DynamicEntry where
  name : String
  value : String
  size : Nat
  sized : size = 32 + (asBytes name).length + (asBytes value).length
deriving DecidableEq

def DynamicEntry.new (name value : String) : DynamicEntry :=
  ⟨name, value, 32 + (asBytes name).length + (asBytes value).length, rfl⟩

-- The three fields the decoder and the encoder have in common. The deque is
-- listed from its front: push_front adds the newest entry, pop_back takes the
-- oldest. Entries lie in memory, so sums of their sizes never reach 2 ^ 64.
structure HpackTable where
  dynamicTable : List DynamicEntry
  maxSize : Nat
  currentSize : Nat
deriving DecidableEq

def HpackTable.new (maxSize : Nat) : HpackTable := ⟨[], maxSize, 0⟩

-- while current_size + need > max_size && !dynamic_table.is_empty(), over the
-- deque read from its back.
def evictLoop (need maxSize : Nat) : List DynamicEntry → Nat → List DynamicEntry × Nat
  | [], currentSize => ([], currentSize)
  | oldest :: rest, currentSize =>
      if maxSize < currentSize + need then evictLoop need maxSize rest (currentSize - oldest.size)
      else (oldest :: rest, currentSize)

def HpackTable.evict (t : HpackTable) (need : Nat) : HpackTable :=
  let left := evictLoop need t.maxSize t.dynamicTable.reverse t.currentSize
  { t with dynamicTable := left.1.reverse, currentSize := left.2 }

def HpackTable.addEntry (t : HpackTable) (name value : String) : HpackTable :=
  let entry := DynamicEntry.new name value
  let t := t.evict entry.size
  if entry.size ≤ t.maxSize then
    { t with currentSize := t.currentSize + entry.size, dynamicTable := entry :: t.dynamicTable }
  else t

def HpackTable.resize (t : HpackTable) (newSize : Nat) : HpackTable :=
  HpackTable.evict { t with maxSize := newSize } 0

def EvictionExact (need maxSize : Nat) : List DynamicEntry → Nat → Prop
  | [], _ => True
  | oldest :: rest, currentSize =>
      maxSize < currentSize + need →
        oldest.size ≤ currentSize ∧ EvictionExact need maxSize rest (currentSize - oldest.size)

structure HpackTable.Sized (t : HpackTable) : Prop where
  counted : t.currentSize = total DynamicEntry.size t.dynamicTable
  bounded : t.currentSize ≤ t.maxSize

theorem eviction_exact (need maxSize : Nat) (entries : List DynamicEntry) (currentSize : Nat)
    (counted : currentSize = total DynamicEntry.size entries) : EvictionExact need maxSize entries currentSize := by
  induction entries generalizing currentSize with
  | nil => trivial
  | cons oldest rest ih =>
      intro _
      rw [Eviction.total_cons] at counted
      exact ⟨by omega, ih (currentSize - oldest.size) (by omega)⟩

theorem evict_loop_counted (need maxSize : Nat) (entries : List DynamicEntry) (currentSize : Nat)
    (counted : currentSize = total DynamicEntry.size entries) :
    (evictLoop need maxSize entries currentSize).2 =
      total DynamicEntry.size (evictLoop need maxSize entries currentSize).1.reverse := by
  induction entries generalizing currentSize with
  | nil => simpa [evictLoop] using counted
  | cons oldest rest ih =>
      by_cases beyond : maxSize < currentSize + need
      · rw [evictLoop, if_pos beyond]
        rw [Eviction.total_cons] at counted
        exact ih (currentSize - oldest.size) (by omega)
      · rw [evictLoop, if_neg beyond, counted]
        simp [Nat.add_comm]

theorem evict_loop_fits (need maxSize : Nat) (entries : List DynamicEntry) (currentSize : Nat) (room : need ≤ maxSize)
    (counted : currentSize = total DynamicEntry.size entries) :
    LongestFit DynamicEntry.size (maxSize - need) entries.reverse (evictLoop need maxSize entries currentSize).1.reverse := by
  induction entries generalizing currentSize with
  | nil => exact Eviction.longest_fit_all _ _ _ (Nat.zero_le _)
  | cons oldest rest ih =>
      have whole : total DynamicEntry.size (rest.reverse ++ [oldest]) = currentSize := by
        rw [counted]
        simp [Nat.add_comm]
      by_cases beyond : maxSize < currentSize + need
      · rw [evictLoop, if_pos beyond, List.reverse_cons]
        rw [Eviction.total_cons] at counted
        exact Eviction.longest_fit_drop _ _ _ _ _ (by omega) (ih (currentSize - oldest.size) (by omega))
      · rw [evictLoop, if_neg beyond, List.reverse_cons]
        exact Eviction.longest_fit_all _ _ _ (by omega)

theorem evict_loop_oversize (need maxSize : Nat) (entries : List DynamicEntry) (currentSize : Nat) (beyond : maxSize < need) :
    (evictLoop need maxSize entries currentSize).1 = [] := by
  induction entries generalizing currentSize with
  | nil => rfl
  | cons oldest rest ih => rw [evictLoop, if_pos (by omega), ih]

@[simp] theorem evict_max_size (t : HpackTable) (need : Nat) : (t.evict need).maxSize = t.maxSize := rfl

theorem evict_counted (t : HpackTable) (need : Nat) (counted : t.currentSize = total DynamicEntry.size t.dynamicTable) :
    (t.evict need).currentSize = total DynamicEntry.size (t.evict need).dynamicTable :=
  evict_loop_counted need t.maxSize t.dynamicTable.reverse t.currentSize (by simpa using counted)

theorem evict_fits (t : HpackTable) (need : Nat) (counted : t.currentSize = total DynamicEntry.size t.dynamicTable)
    (room : need ≤ t.maxSize) :
    LongestFit DynamicEntry.size (t.maxSize - need) t.dynamicTable (t.evict need).dynamicTable := by
  have fits := evict_loop_fits need t.maxSize t.dynamicTable.reverse t.currentSize room (by simpa using counted)
  rwa [List.reverse_reverse] at fits

theorem evict_oversize (t : HpackTable) (need : Nat) (beyond : t.maxSize < need) : (t.evict need).dynamicTable = [] := by
  simp only [HpackTable.evict, evict_loop_oversize need t.maxSize _ _ beyond, List.reverse_nil]

theorem add_entry_room (t : HpackTable) (name value : String) (room : (DynamicEntry.new name value).size ≤ t.maxSize) :
    t.addEntry name value =
      { t.evict (DynamicEntry.new name value).size with
        currentSize := (t.evict (DynamicEntry.new name value).size).currentSize + (DynamicEntry.new name value).size
        dynamicTable := .new name value :: (t.evict (DynamicEntry.new name value).size).dynamicTable } :=
  if_pos room

theorem add_entry_oversize (t : HpackTable) (name value : String) (beyond : t.maxSize < (DynamicEntry.new name value).size) :
    t.addEntry name value = t.evict (DynamicEntry.new name value).size :=
  if_neg (by rw [evict_max_size]; omega)

@[simp] theorem add_entry_max_size (t : HpackTable) (name value : String) : (t.addEntry name value).maxSize = t.maxSize := by
  by_cases room : (DynamicEntry.new name value).size ≤ t.maxSize
  · rw [add_entry_room t name value room]
    rfl
  · rw [add_entry_oversize t name value (by omega), evict_max_size]

@[simp] theorem resize_max_size (t : HpackTable) (newSize : Nat) : (t.resize newSize).maxSize = newSize := rfl

-- One call of add_entry: the longest front part of the new entry followed by
-- the old table that fits, which is empty when the entry alone does not.
theorem add_entry_fits (t : HpackTable) (name value : String) (sized : t.Sized) :
    LongestFit DynamicEntry.size t.maxSize (.new name value :: t.dynamicTable) (t.addEntry name value).dynamicTable := by
  by_cases room : (DynamicEntry.new name value).size ≤ t.maxSize
  · rw [add_entry_room t name value room]
    exact Eviction.longest_fit_cons _ _ _ _ _ room (evict_fits t _ sized.counted room)
  · rw [add_entry_oversize t name value (by omega), evict_oversize t _ (by omega)]
    exact Eviction.longest_fit_oversize _ _ _ _ (by omega)

theorem add_entry_counted (t : HpackTable) (name value : String) (sized : t.Sized) :
    (t.addEntry name value).currentSize = total DynamicEntry.size (t.addEntry name value).dynamicTable := by
  have evicted := evict_counted t (DynamicEntry.new name value).size sized.counted
  by_cases room : (DynamicEntry.new name value).size ≤ t.maxSize
  · rw [add_entry_room t name value room, evicted, Eviction.total_cons, Nat.add_comm]
  · rw [add_entry_oversize t name value (by omega), evicted]

theorem add_entry_sized (t : HpackTable) (name value : String) (sized : t.Sized) : (t.addEntry name value).Sized := by
  have counted := add_entry_counted t name value sized
  refine ⟨counted, ?_⟩
  rw [counted, add_entry_max_size]
  exact (add_entry_fits t name value sized).within

theorem resize_fits (t : HpackTable) (newSize : Nat) (sized : t.Sized) :
    LongestFit DynamicEntry.size newSize t.dynamicTable (t.resize newSize).dynamicTable :=
  evict_fits { t with maxSize := newSize } 0 sized.counted (Nat.zero_le _)

theorem resize_sized (t : HpackTable) (newSize : Nat) (sized : t.Sized) : (t.resize newSize).Sized := by
  have counted := evict_counted { t with maxSize := newSize } 0 sized.counted
  exact ⟨counted, counted ▸ (resize_fits t newSize sized).within⟩

theorem new_sized (maxSize : Nat) : (HpackTable.new maxSize).Sized := ⟨rfl, Nat.zero_le _⟩

end Ners.Hpack

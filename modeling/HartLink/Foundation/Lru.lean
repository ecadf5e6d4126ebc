import Mathlib.Data.List.Find
import HartLink.Foundation.Table

/-!
# Caches in order of use

A cache is a list of keys with their values, the least recently refreshed entry
first.  An implementation keeps the values in a table and the order of the keys
beside it; `Represents` says that the two together are the cache.
-/

namespace HartLink.Foundation

namespace Lru

variable {Key Value Stored : Type*} [DecidableEq Key]

def forget (cache : List (Key × Value)) (key : Key) : List (Key × Value) :=
  cache.filter fun entry => entry.1 ≠ key

/-- The entry of the key is taken out, or the oldest one of a full cache. -/
def makeRoom (capacity : Nat) (cache : List (Key × Value)) (key : Key) :
    List (Key × Value) :=
  if key ∈ cache.map Prod.fst then forget cache key
  else if cache.length = capacity then cache.tail
  else cache

def refresh (capacity : Nat) (cache : List (Key × Value)) (key : Key)
    (value : Value) : List (Key × Value) :=
  makeRoom capacity cache key ++ [(key, value)]

theorem findKey?_forget (cache : List (Key × Value)) (key other : Key) :
    findKey? (forget cache key) other =
      if other = key then none else findKey? cache other := by
  unfold findKey? forget
  rw [List.find?_filter]
  split_ifs with hkey
  · subst hkey
    simp only [Option.map_eq_none_iff, List.find?_eq_none]
    intro entry _
    simp
  · congr 1
    apply List.find?_congr
    intro entry _
    by_cases hother : entry.1 = other
    · simp [hother, hkey]
    · simp [hother]

theorem keys_forget (cache : List (Key × Value)) (key : Key) :
    (forget cache key).map Prod.fst =
      (cache.map Prod.fst).filter fun other => other ≠ key := by
  rw [List.filter_map]
  rfl

theorem findKey?_concat {cache : List (Key × Value)} {key : Key}
    (h : key ∉ cache.map Prod.fst) (value : Value) (other : Key) :
    findKey? (cache ++ [(key, value)]) other =
      if other = key then some value else findKey? cache other := by
  unfold findKey?
  rw [List.find?_append]
  split_ifs with hkey
  · subst hkey
    have hnone := findKey?_eq_none_iff.mpr h
    unfold findKey? at hnone
    rw [Option.map_eq_none_iff] at hnone
    simp [hnone]
  · simp [Ne.symm hkey]

theorem length_refresh_le {capacity : Nat} (hcapacity : 0 < capacity)
    {cache : List (Key × Value)} (hlength : cache.length ≤ capacity)
    (key : Key) (value : Value) :
    (refresh capacity cache key value).length ≤ capacity := by
  unfold refresh makeRoom
  rw [List.length_append, List.length_singleton]
  split_ifs with hmem hfull
  · obtain ⟨entry, hentry, hkey⟩ := List.mem_map.mp hmem
    have hshorter : (forget cache key).length < cache.length := by
      apply List.length_filter_lt_length_iff_exists.mpr
      exact ⟨entry, hentry, by simp [hkey]⟩
    omega
  · rw [List.length_tail]
    omega
  · omega

/-! ## A table and the order of its keys -/

structure Represents (stored : Value → Stored) (cache : List (Key × Value))
    (table : Table Key Stored) (order : List Key) : Prop where
  ordered : order = cache.map Prod.fst
  distinct : order.Nodup
  found : ∀ key, table.lookup key = (findKey? cache key).map stored

section Represents

variable {stored : Value → Stored} {cache : List (Key × Value)}
  {table : Table Key Stored} {order : List Key}

theorem represents_empty :
    Represents stored ([] : List (Key × Value)) ∅ [] :=
  ⟨rfl, List.nodup_nil, fun _ => rfl⟩

theorem Represents.mem_iff (h : Represents stored cache table order)
    (key : Key) : key ∈ table ↔ key ∈ order := by
  rw [← not_iff_not, ← Finmap.lookup_eq_none, h.found, Option.map_eq_none_iff,
    findKey?_eq_none_iff, h.ordered]

theorem Represents.keys (h : Represents stored cache table order) :
    table.keys = order.toFinset := by
  ext key
  rw [Finmap.mem_keys, h.mem_iff, List.mem_toFinset]

theorem Represents.card_keys (h : Represents stored cache table order) :
    table.keys.card = order.length := by
  rw [h.keys, List.toFinset_card_of_nodup h.distinct]

theorem Represents.length (h : Represents stored cache table order) :
    order.length = cache.length := by
  rw [h.ordered, List.length_map]

theorem Represents.forget (h : Represents stored cache table order)
    (key : Key) : Represents stored (forget cache key) (table.erase key)
      (order.filter fun other => other ≠ key) := by
  refine ⟨?_, h.distinct.filter _, ?_⟩
  · rw [keys_forget, h.ordered]
  · intro other
    rw [Table.lookup_erase_eq, findKey?_forget, h.found]
    split_ifs <;> rfl

theorem Represents.tail {oldest : Key} {rest : List Key}
    (h : Represents stored cache table (oldest :: rest)) :
    Represents stored cache.tail (table.erase oldest) rest := by
  have hdistinct := List.nodup_cons.mp h.distinct
  cases cache with
  | nil => exact absurd h.ordered (List.cons_ne_nil _ _)
  | cons entry cache =>
      obtain ⟨holdest, hrest⟩ := List.cons.inj h.ordered
      have hkept : Lru.forget (entry :: cache) oldest = cache := by
        unfold Lru.forget
        rw [List.filter_cons_of_neg (by simp [holdest]), List.filter_eq_self]
        intro other hother
        have : other.1 ∈ rest := hrest ▸ List.mem_map_of_mem hother
        simp only [ne_eq, decide_eq_true_eq]
        rintro rfl
        exact hdistinct.1 this
      refine ⟨hrest, hdistinct.2, ?_⟩
      have hforget := (h.forget oldest).found
      rwa [hkept] at hforget

/-- A key that is not held is added at the back. -/
theorem Represents.concat (h : Represents stored cache table order)
    {key : Key} (hkey : key ∉ order) (value : Value) :
    Represents stored (cache ++ [(key, value)])
      (table.insert key (stored value)) (order ++ [key]) := by
  have hcache : key ∉ cache.map Prod.fst := h.ordered ▸ hkey
  refine ⟨?_, ?_, ?_⟩
  · simp [h.ordered]
  · rw [List.nodup_append]
    exact ⟨h.distinct, List.nodup_singleton key, by
      rintro other hother _ hlast rfl
      exact hkey (List.mem_singleton.mp hlast ▸ hother)⟩
  · intro other
    rw [Table.lookup_insert_eq, findKey?_concat hcache, h.found]
    split_ifs <;> rfl

theorem Represents.move (h : Represents stored cache table order)
    (key : Key) (value : Value) :
    Represents stored (Lru.forget cache key ++ [(key, value)])
      (table.insert key (stored value))
      (order.filter (fun other => other ≠ key) ++ [key]) := by
  have hmoved := (h.forget key).concat (by simp : key ∉ _) value
  refine ⟨hmoved.ordered, hmoved.distinct, ?_⟩
  intro other
  rw [← hmoved.found, Table.lookup_insert_eq, Table.lookup_insert_eq,
    Table.lookup_erase_eq]
  split_ifs <;> rfl

end Represents

end Lru

end HartLink.Foundation

import Mathlib.Data.Nat.Cast.Basic
import Mathlib.Data.List.Basic
import HartLink.Foundation.Table

/-!
# Ordered maps

An ordered map is the list of its entries, in ascending order of their keys.  A
loop over the map sees the entries in this order.
-/

namespace HartLink.Foundation

structure OrderedMap (Key Value : Type*) [LinearOrder Key] where
  entries : List (Key × Value) := []
  ascending : (entries.map Prod.fst).Pairwise (· < ·) := by simp

namespace OrderedMap

variable {Key Value : Type*} [LinearOrder Key]

instance [DecidableEq Value] : DecidableEq (OrderedMap Key Value) :=
  fun first second =>
    decidable_of_iff (first.entries = second.entries)
      ⟨fun h => by cases first; cases second; simpa using h,
        fun h => h ▸ rfl⟩

def keys (map : OrderedMap Key Value) : List Key :=
  map.entries.map Prod.fst

def length (map : OrderedMap Key Value) : Nat :=
  map.entries.length

def lookup (map : OrderedMap Key Value) (key : Key) : Option Value :=
  findKey? map.entries key

/-! ## Insertion -/

def insertEntry (key : Key) (value : Value) :
    List (Key × Value) → List (Key × Value)
  | [] => [(key, value)]
  | entry :: entries =>
      if key < entry.1 then (key, value) :: entry :: entries
      else if key = entry.1 then (key, value) :: entries
      else entry :: insertEntry key value entries

theorem mem_keys_insertEntry {key other : Key} {value : Value}
    {entries : List (Key × Value)}
    (h : other ∈ (insertEntry key value entries).map Prod.fst) :
    other = key ∨ other ∈ entries.map Prod.fst := by
  induction entries with
  | nil => simpa [insertEntry] using h
  | cons entry entries ih =>
      unfold insertEntry at h
      split_ifs at h with hbefore hsame
      · simpa using h
      · simp only [List.map_cons, List.mem_cons] at h ⊢
        tauto
      · simp only [List.map_cons, List.mem_cons] at h ⊢
        tauto

theorem ascending_insertEntry (key : Key) (value : Value)
    {entries : List (Key × Value)}
    (h : (entries.map Prod.fst).Pairwise (· < ·)) :
    ((insertEntry key value entries).map Prod.fst).Pairwise (· < ·) := by
  induction entries with
  | nil => simp [insertEntry]
  | cons entry entries ih =>
      rw [List.map_cons, List.pairwise_cons] at h
      unfold insertEntry
      split_ifs with hbefore hsame
      · simp only [List.map_cons, List.pairwise_cons, List.mem_cons]
        refine ⟨?_, h⟩
        rintro other (rfl | hother)
        · exact hbefore
        · exact hbefore.trans (h.1 other hother)
      · subst hsame
        simpa using h
      · rw [List.map_cons, List.pairwise_cons]
        refine ⟨?_, ih h.2⟩
        intro other hother
        rcases mem_keys_insertEntry hother with rfl | hother
        · exact lt_of_le_of_ne (not_lt.mp hbefore) fun h => hsame h.symm
        · exact h.1 other hother

theorem insertEntry_of_last {key : Key} (value : Value)
    {entries : List (Key × Value)}
    (h : ∀ other ∈ entries.map Prod.fst, other < key) :
    insertEntry key value entries = entries ++ [(key, value)] := by
  induction entries with
  | nil => rfl
  | cons entry entries ih =>
      simp only [List.map_cons, List.mem_cons, forall_eq_or_imp] at h
      rw [insertEntry, if_neg h.1.not_gt, if_neg h.1.ne', ih h.2,
        List.cons_append]

theorem mem_insertEntry {key other : Key} {value found : Value}
    {entries : List (Key × Value)}
    (h : (entries.map Prod.fst).Pairwise (· < ·)) :
    (other, found) ∈ insertEntry key value entries ↔
      (other, found) = (key, value) ∨
        other ≠ key ∧ (other, found) ∈ entries := by
  induction entries with
  | nil => simp [insertEntry]
  | cons entry entries ih =>
      obtain ⟨first, kept⟩ := entry
      rw [List.map_cons, List.pairwise_cons] at h
      have habsent : ∀ {found : Value}, (first, found) ∉ entries := by
        intro found hmem
        exact (h.1 first (List.mem_map_of_mem hmem)).ne rfl
      unfold insertEntry
      split_ifs with hbefore hsame
      · have hnew : ∀ {found : Value}, (key, found) ∉ (first, kept) :: entries := by
          intro found hmem
          rcases List.mem_cons.mp hmem with heq | hmem
          · exact hbefore.ne (Prod.mk.inj heq).1
          · exact (hbefore.trans (h.1 key (List.mem_map_of_mem hmem))).ne rfl
        rw [List.mem_cons]
        refine or_congr_right ?_
        constructor
        · intro hmem
          exact ⟨fun hkey => hnew (hkey ▸ hmem), hmem⟩
        · exact And.right
      · dsimp only at hsame
        subst hsame
        rw [List.mem_cons, List.mem_cons]
        refine or_congr_right ?_
        constructor
        · intro hmem
          exact ⟨fun hkey => habsent (hkey ▸ hmem), .inr hmem⟩
        · rintro ⟨hkey, heq | hmem⟩
          · exact absurd (Prod.mk.inj heq).1 hkey
          · exact hmem
      · rw [List.mem_cons, List.mem_cons, ih h.2]
        constructor
        · rintro (heq | hnew | ⟨hkey, hmem⟩)
          · exact .inr ⟨(Prod.mk.inj heq).1 ▸ fun hkey => hsame hkey.symm,
              .inl heq⟩
          · exact .inl hnew
          · exact .inr ⟨hkey, .inr hmem⟩
        · rintro (hnew | ⟨hkey, heq | hmem⟩)
          · exact .inr (.inl hnew)
          · exact .inl heq
          · exact .inr (.inr ⟨hkey, hmem⟩)

theorem insertEntry_perm {key : Key} (value : Value)
    {entries : List (Key × Value)} (h : key ∉ entries.map Prod.fst) :
    (insertEntry key value entries).Perm ((key, value) :: entries) := by
  induction entries with
  | nil => rfl
  | cons entry entries ih =>
      simp only [List.map_cons, List.mem_cons, not_or] at h
      rw [insertEntry]
      split_ifs with hbefore
      · rfl
      · exact absurd ‹key = entry.1› h.1
      · exact ((ih h.2).cons entry).trans (List.Perm.swap ..)

def insert (map : OrderedMap Key Value) (key : Key) (value : Value) :
    OrderedMap Key Value :=
  ⟨insertEntry key value map.entries,
    ascending_insertEntry key value map.ascending⟩

/-! ## Removal and update -/

def erase (map : OrderedMap Key Value) (key : Key) : OrderedMap Key Value :=
  ⟨map.entries.filter fun entry => entry.1 ≠ key,
    map.ascending.sublist (List.filter_sublist.map Prod.fst)⟩

def mapValues (change : Key → Value → Value) (map : OrderedMap Key Value) :
    OrderedMap Key Value :=
  ⟨map.entries.map fun entry => (entry.1, change entry.1 entry.2), by
    simpa [Function.comp_def] using map.ascending⟩

def modify (map : OrderedMap Key Value) (key : Key)
    (change : Value → Value) : OrderedMap Key Value :=
  map.mapValues fun other value => if other = key then change value else value

/-! ## Entries -/

section Entries

variable (map : OrderedMap Key Value)

theorem nodup_keys : map.keys.Nodup :=
  map.ascending.imp fun h => h.ne

theorem lookup_eq_some_iff {key : Key} {value : Value} :
    map.lookup key = some value ↔ (key, value) ∈ map.entries :=
  findKey?_eq_some_iff map.nodup_keys

theorem lookup_eq_none_iff {key : Key} :
    map.lookup key = none ↔ key ∉ map.keys :=
  findKey?_eq_none_iff

theorem entries_insert_of_last {key : Key} (value : Value)
    (h : ∀ other ∈ map.keys, other < key) :
    (map.insert key value).entries = map.entries ++ [(key, value)] :=
  insertEntry_of_last value h

@[simp] theorem keys_mapValues (change : Key → Value → Value) :
    (map.mapValues change).keys = map.keys := by
  simp [mapValues, keys, Function.comp_def]

theorem lookup_mapValues (change : Key → Value → Value) (key : Key) :
    (map.mapValues change).lookup key =
      (map.lookup key).map (change key) := by
  apply Option.ext
  intro value
  rw [lookup_eq_some_iff, Option.map_eq_some_iff]
  simp only [mapValues, List.mem_map, Prod.mk.injEq, Prod.exists,
    lookup_eq_some_iff]
  constructor
  · rintro ⟨other, found, hmem, rfl, rfl⟩
    exact ⟨found, hmem, rfl⟩
  · rintro ⟨found, hmem, rfl⟩
    exact ⟨key, found, hmem, rfl, rfl⟩

theorem lookup_erase (key other : Key) :
    (map.erase key).lookup other =
      if other = key then none else map.lookup other := by
  apply Option.ext
  intro value
  rw [lookup_eq_some_iff]
  simp only [erase, List.mem_filter, ← lookup_eq_some_iff, ne_eq,
    decide_eq_true_eq]
  split_ifs with hkey
  · simp [hkey]
  · simp [hkey]

theorem lookup_insert_of_last {key : Key} (value : Value)
    (h : ∀ other ∈ map.keys, other < key) (other : Key) :
    (map.insert key value).lookup other =
      if other = key then some value else map.lookup other := by
  have hkey : map.lookup key = none :=
    map.lookup_eq_none_iff.mpr fun hmem => (h key hmem).ne rfl
  apply Option.ext
  intro found
  rw [lookup_eq_some_iff, map.entries_insert_of_last value h]
  simp only [List.mem_append, List.mem_singleton, Prod.mk.injEq,
    ← lookup_eq_some_iff]
  split_ifs with hother
  · subst hother
    simp [hkey, eq_comm]
  · simp [hother]

theorem lookup_insert (key : Key) (value : Value) (other : Key) :
    (map.insert key value).lookup other =
      if other = key then some value else map.lookup other := by
  apply Option.ext
  intro found
  rw [lookup_eq_some_iff]
  have hmem : (other, found) ∈ (map.insert key value).entries ↔
      (other, found) = (key, value) ∨
        other ≠ key ∧ (other, found) ∈ map.entries :=
    mem_insertEntry map.ascending
  rw [hmem, Prod.mk.injEq, ← lookup_eq_some_iff]
  split_ifs with hkey
  · simp [hkey, eq_comm]
  · simp [hkey]

theorem mem_keys_erase {key other : Key} :
    other ∈ (map.erase key).keys ↔ other ∈ map.keys ∧ other ≠ key := by
  simp [erase, keys]

/-! ## Totals -/

def total (measure : Value → Nat) : Nat :=
  (map.entries.map fun entry => measure entry.2).sum

theorem total_insert_of_last (measure : Value → Nat) {key : Key}
    (value : Value) (h : ∀ other ∈ map.keys, other < key) :
    (map.insert key value).total measure =
      map.total measure + measure value := by
  simp [total, map.entries_insert_of_last value h]

theorem total_insert (measure : Value → Nat) (key : Key) (value : Value) :
    (map.insert key value).total measure +
        ((map.lookup key).map measure).getD 0 =
      map.total measure + measure value := by
  obtain ⟨entries, hascending⟩ := map
  simp only [total, insert, lookup]
  induction entries with
  | nil => simp [insertEntry, findKey?]
  | cons entry entries ih =>
      obtain ⟨first, kept⟩ := entry
      rw [List.map_cons, List.pairwise_cons] at hascending
      unfold insertEntry
      split_ifs with hbefore hsame
      · have hnone : findKey? ((first, kept) :: entries) key = none := by
          rw [findKey?_eq_none_iff, List.map_cons, List.mem_cons]
          rintro (heq | hmem)
          · exact hbefore.ne heq
          · exact (hbefore.trans (hascending.1 key hmem)).ne rfl
        rw [hnone]
        simp only [List.map_cons, List.sum_cons, Option.map_none,
          Option.getD_none]
        omega
      · dsimp only at hsame
        subst hsame
        have hfound : findKey? ((key, kept) :: entries) key = some kept := by
          simp [findKey?]
        rw [hfound]
        simp only [List.map_cons, List.sum_cons, Option.map_some,
          Option.getD_some]
        omega
      · have hrest : findKey? ((first, kept) :: entries) key =
            findKey? entries key := by
          have hother : first ≠ key := fun heq => hsame heq.symm
          simp [findKey?, hother]
        have hlater := ih hascending.2
        rw [hrest, List.map_cons, List.map_cons, List.sum_cons, List.sum_cons]
        omega

theorem length_insert (key : Key) (value : Value) :
    (map.insert key value).length + (if key ∈ map.keys then 1 else 0) =
      map.length + 1 := by
  have htotal := map.total_insert (fun _ => 1) key value
  have hone : ∀ other : OrderedMap Key Value,
      other.total (fun _ => 1) = other.length := by
    intro other
    simp [total, length]
  rw [hone, hone] at htotal
  rw [← htotal]
  congr 1
  split_ifs with hmem
  · cases hlookup : map.lookup key with
    | none => exact absurd hmem (map.lookup_eq_none_iff.mp hlookup)
    | some found => rfl
  · rw [map.lookup_eq_none_iff.mpr hmem]
    rfl

theorem total_erase (measure : Value → Nat) {key : Key} {value : Value}
    (h : map.lookup key = some value) :
    (map.erase key).total measure + measure value = map.total measure := by
  obtain ⟨entries, hascending⟩ := map
  rw [lookup_eq_some_iff] at h
  simp only [total, erase] at h ⊢
  induction entries with
  | nil => contradiction
  | cons entry entries ih =>
      rw [List.map_cons, List.pairwise_cons] at hascending
      rcases List.mem_cons.mp h with rfl | hmem
      · -- The other entries have larger keys, and none of them is removed.
        have hkept : entries.filter (fun other => other.1 ≠ key) = entries := by
          rw [List.filter_eq_self]
          intro other hother
          have := hascending.1 other.1 (List.mem_map_of_mem hother)
          simpa using this.ne'
        simp only [ne_eq, not_true_eq_false, decide_false, Bool.false_eq_true,
          not_false_eq_true, List.filter_cons_of_neg, List.map_cons,
          List.sum_cons] at hkept ⊢
        rw [hkept, Nat.add_comm]
      · have hkey : entry.1 ≠ key :=
          (hascending.1 key (List.mem_map_of_mem hmem)).ne
        have := ih hascending.2 hmem
        simp only [ne_eq, hkey, not_false_eq_true, decide_true,
          List.filter_cons_of_pos, List.map_cons, List.sum_cons] at this ⊢
        omega

theorem length_erase {key : Key} {value : Value}
    (h : map.lookup key = some value) :
    (map.erase key).length + 1 = map.length := by
  simpa [total, length] using map.total_erase (fun _ => 1) h

theorem total_mapValues (measure : Value → Nat)
    {change : Key → Value → Value}
    (h : ∀ key value, measure (change key value) = measure value) :
    (map.mapValues change).total measure = map.total measure := by
  simp [total, mapValues, Function.comp_def, h]

end Entries

end OrderedMap

end HartLink.Foundation

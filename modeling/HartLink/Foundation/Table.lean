import Mathlib.Data.Finmap

/-!
# Tables

A table is a finite map.  Two tables with the same entries are equal, whatever
the order in which the entries came.  Where the order matters, the entries are a
list, and `findKey?` looks a key up in it.
-/

namespace HartLink.Foundation

abbrev Table (Key Value : Type*) := Finmap fun _ : Key => Value

namespace Table

variable {Key Value : Type*} [DecidableEq Key]

/-- The entries that satisfy a predicate. -/
def retain (p : Key → Value → Bool) (table : Table Key Value) :
    Table Key Value where
  entries := table.entries.filter fun entry => p entry.1 entry.2
  nodupKeys := by
    rw [← Multiset.nodup_keys]
    refine Multiset.nodup_of_le ?_ (Multiset.nodup_keys.mpr table.nodupKeys)
    exact Multiset.map_le_map (Multiset.filter_le _ _)

def modify (key : Key) (change : Value → Value) (table : Table Key Value) :
    Table Key Value :=
  match table.lookup key with
  | some value => table.insert key (change value)
  | none => table

theorem insert_of_lookup {table : Table Key Value} {key : Key} {value : Value}
    (h : table.lookup key = some value) : table.insert key value = table := by
  apply Finmap.ext_lookup
  intro other
  by_cases hkey : other = key
  · subst hkey
    rw [Finmap.lookup_insert, h]
  · rw [Finmap.lookup_insert_of_ne table hkey]

theorem lookup_insert_eq (table : Table Key Value) (key other : Key)
    (value : Value) :
    (table.insert key value).lookup other =
      if other = key then some value else table.lookup other := by
  split_ifs with hkey
  · subst hkey
    exact Finmap.lookup_insert table
  · exact Finmap.lookup_insert_of_ne table hkey

theorem lookup_erase_eq (table : Table Key Value) (key other : Key) :
    (table.erase key).lookup other =
      if other = key then none else table.lookup other := by
  split_ifs with hkey
  · subst hkey
    exact Finmap.lookup_erase other table
  · exact Finmap.lookup_erase_ne hkey

theorem lookup_modify (table : Table Key Value) (key other : Key)
    (change : Value → Value) :
    (modify key change table).lookup other =
      if other = key then (table.lookup key).map change
      else table.lookup other := by
  unfold modify
  cases hlookup : table.lookup key with
  | some value => exact lookup_insert_eq table key other (change value)
  | none =>
      split_ifs with hkey
      · rw [hkey, hlookup]
        rfl
      · rfl

theorem lookup_retain (p : Key → Value → Bool) (table : Table Key Value)
    (key : Key) :
    (retain p table).lookup key = (table.lookup key).filter (p key) := by
  apply Option.ext
  intro value
  rw [Option.filter_eq_some_iff, Finmap.lookup_eq_some_iff,
    Finmap.lookup_eq_some_iff, retain, Multiset.mem_filter]

end Table

/-! ## Lists of entries -/

section Entries

variable {Key Value : Type*} [DecidableEq Key]

def findKey? (entries : List (Key × Value)) (key : Key) : Option Value :=
  (entries.find? fun entry => entry.1 = key).map Prod.snd

theorem findKey?_eq_none_iff {entries : List (Key × Value)} {key : Key} :
    findKey? entries key = none ↔ key ∉ entries.map Prod.fst := by
  simp only [findKey?, Option.map_eq_none_iff, List.find?_eq_none,
    List.mem_map, decide_eq_true_eq]
  constructor
  · rintro h ⟨entry, hentry, hkey⟩
    exact h entry hentry hkey
  · intro h entry hentry hkey
    exact h ⟨entry, hentry, hkey⟩

theorem findKey?_eq_some_iff {entries : List (Key × Value)}
    (h : (entries.map Prod.fst).Nodup) {key : Key} {value : Value} :
    findKey? entries key = some value ↔ (key, value) ∈ entries := by
  unfold findKey?
  rw [Option.map_eq_some_iff]
  constructor
  · rintro ⟨⟨other, found⟩, hfind, rfl⟩
    have hkey : other = key := by simpa using List.find?_some hfind
    subst hkey
    exact List.mem_of_find?_eq_some hfind
  · intro hmem
    cases hfind : entries.find? fun entry => entry.1 = key with
    | none =>
        have := List.find?_eq_none.mp hfind _ hmem
        simp at this
    | some found =>
        have hkey : found.1 = key := by simpa using List.find?_some hfind
        refine ⟨found, rfl, ?_⟩
        rw [List.inj_on_of_nodup_map h (List.mem_of_find?_eq_some hfind) hmem
          hkey]

end Entries

end HartLink.Foundation

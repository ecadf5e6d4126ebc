import HartLink.Device.Schema

/-!
# Common tables

A repository holds one revision of each common table.  The number of tables and
the number of entries of all of them are limited, and the second is counted along
with every replacement.
-/

namespace HartLink.Device

open HartLink.Foundation

def maximumCommonTableEntries : Nat := 65536
def maximumCommonTableTextBytes : Nat := 1024
def maximumTables : Nat := 4096
def maximumTableEntries : Nat := 4194304

structure TableRepositoryLimits where
  tables : Nat := 1024
  entries : Nat := 1048576
  deriving DecidableEq, Repr

inductive TableError where
  | zeroRepositoryLimit
  | repositoryTableLimit (limit : Nat)
  | repositoryEntryLimit (limit : Nat)
  | missingRevision (number : UInt16)
  | mismatchedCode (key value : UInt32)
  | emptyLabel (code : UInt32)
  | textTooLong (text : String) (bytes : Nat)
  | tooManyEntries (count : Nat)
  deriving DecidableEq, Repr

def TableRepositoryLimits.validate (limits : TableRepositoryLimits) :
    Except TableError Unit :=
  if limits.tables = 0 ∨ limits.entries = 0 then .error .zeroRepositoryLimit
  else if limits.tables > maximumTables then
    .error (.repositoryTableLimit limits.tables)
  else if limits.entries > maximumTableEntries then
    .error (.repositoryEntryLimit limits.entries)
  else .ok ()

structure TableEntry where
  code : UInt32
  label : String
  deriving DecidableEq, Repr

structure CommonTable where
  number : UInt16
  revision : String
  entries : OrderedMap (Fin (2 ^ 32)) TableEntry := {}
  deriving DecidableEq

inductive ResolvedCode where
  | known (entry : TableEntry)
  | unknown (code : UInt32)
  deriving DecidableEq, Repr

namespace CommonTable

def validateEntries : List (Fin (2 ^ 32) × TableEntry) → Except TableError Unit
  | [] => .ok ()
  | (code, entry) :: entries =>
      if UInt32.ofFin code ≠ entry.code then
        .error (.mismatchedCode (UInt32.ofFin code) entry.code)
      else if isBlank entry.label then
        .error (.emptyLabel (UInt32.ofFin code))
      else if entry.label.utf8ByteSize > maximumCommonTableTextBytes then
        .error (.textTooLong "entry label" entry.label.utf8ByteSize)
      else validateEntries entries

def validate (table : CommonTable) : Except TableError Unit :=
  if isBlank table.revision then .error (.missingRevision table.number)
  else if table.revision.utf8ByteSize > maximumCommonTableTextBytes then
    .error (.textTooLong "revision" table.revision.utf8ByteSize)
  else if table.entries.length > maximumCommonTableEntries then
    .error (.tooManyEntries table.entries.length)
  else validateEntries table.entries.entries

def resolve (table : CommonTable) (code : UInt32) : ResolvedCode :=
  match table.entries.lookup code.toFin with
  | some entry => .known entry
  | none => .unknown code

end CommonTable

structure TableRepository where
  tables : OrderedMap (Fin (2 ^ 16)) CommonTable := {}
  limits : TableRepositoryLimits := {}
  totalEntries : Nat := 0
  deriving DecidableEq

namespace TableRepository

def withLimits (limits : TableRepositoryLimits) :
    Except TableError TableRepository := do
  limits.validate
  return { limits }

def get (repository : TableRepository) (number : UInt16) :
    Option CommonTable :=
  repository.tables.lookup number.toFin

/-- The entries of a table that is replaced are given up; the words are checked. -/
def replace (repository : TableRepository) (table : CommonTable) :
    Except TableError (Option CommonTable) × TableRepository :=
  match table.validate with
  | .error error => (.error error, repository)
  | .ok _ =>
      let previous := repository.get table.number
      let previousEntries :=
        (previous.map fun table => table.entries.length).getD 0
      if previous.isNone ∧
          repository.tables.length ≥ repository.limits.tables then
        (.error (.repositoryTableLimit repository.limits.tables), repository)
      else if repository.totalEntries < previousEntries then
        (.error (.repositoryEntryLimit repository.limits.entries), repository)
      else
        let totalEntries :=
          repository.totalEntries - previousEntries + table.entries.length
        if totalEntries ≥ 2 ^ 64 then
          (.error (.repositoryEntryLimit repository.limits.entries), repository)
        else if totalEntries > repository.limits.entries then
          (.error (.repositoryEntryLimit repository.limits.entries), repository)
        else
          (.ok previous,
            { repository with
              tables := repository.tables.insert table.number.toFin table
              totalEntries })

/-! ## Consistent repositories -/

def countEntries (tables : OrderedMap (Fin (2 ^ 16)) CommonTable) : Nat :=
  tables.total fun table => table.entries.length

/-- The count is right, the limits hold, and every table is valid. -/
structure Consistent (repository : TableRepository) : Prop where
  total : repository.totalEntries = countEntries repository.tables
  tables : repository.tables.length ≤ repository.limits.tables
  entries : repository.totalEntries ≤ repository.limits.entries
  valid : ∀ number table, repository.get number = some table →
    table.validate = .ok () ∧ table.number = number

/-- What a replacement asks of the tables after it. -/
structure Admits (repository : TableRepository) (table : CommonTable) :
    Prop where
  valid : table.validate = .ok ()
  tables : (repository.tables.insert table.number.toFin table).length ≤
    repository.limits.tables
  entries : countEntries (repository.tables.insert table.number.toFin table) ≤
    repository.limits.entries

theorem consistent_new {limits : TableRepositoryLimits} :
    Consistent { limits } :=
  ⟨rfl, Nat.zero_le _, Nat.zero_le _, nofun⟩

theorem entries_of_valid {table : CommonTable} (h : table.validate = .ok ()) :
    table.entries.length ≤ maximumCommonTableEntries := by
  unfold CommonTable.validate at h
  split_ifs at h with hblank hlong hmany
  exact Nat.le_of_not_lt hmany

theorem countEntries_insert (tables : OrderedMap (Fin (2 ^ 16)) CommonTable)
    (table : CommonTable) :
    countEntries (tables.insert table.number.toFin table) +
        ((tables.lookup table.number.toFin).map fun table =>
          table.entries.length).getD 0 =
      countEntries tables + table.entries.length :=
  tables.total_insert _ _ _

/-- What is given up is part of the count. -/
theorem previous_le_countEntries (repository : TableRepository)
    (number : UInt16) :
    ((repository.get number).map fun table => table.entries.length).getD 0 ≤
      countEntries repository.tables := by
  cases hlookup : repository.get number with
  | none => exact Nat.zero_le _
  | some table =>
      have htotal := repository.tables.total_erase
        (fun table => table.entries.length) hlookup
      change table.entries.length ≤ _
      unfold countEntries
      omega

/-- A new table needs room; a known one has it. -/
theorem length_insert_le_iff {repository : TableRepository}
    (h : repository.tables.length ≤ repository.limits.tables)
    (table : CommonTable) :
    (repository.tables.insert table.number.toFin table).length ≤
        repository.limits.tables ↔
      ¬ ((repository.get table.number).isNone = true ∧
        repository.tables.length ≥ repository.limits.tables) := by
  have hlength := repository.tables.length_insert table.number.toFin table
  have hkey := @OrderedMap.lookup_eq_none_iff _ _ _ repository.tables
    table.number.toFin
  rw [Option.isNone_iff_eq_none, get, hkey]
  split_ifs at hlength with hmem
  · exact iff_of_true (by omega) fun hboth => hboth.1 hmem
  · constructor
    · rintro hroom ⟨-, hfull⟩
      omega
    · intro hroom
      rw [not_and_or, not_not] at hroom
      have := hroom.resolve_left hmem
      omega

/-- A repository takes exactly the tables that fit, and refuses without effect. -/
theorem replace_of_consistent {repository : TableRepository}
    (h : repository.Consistent)
    (hlimits : repository.limits.entries ≤ maximumTableEntries)
    (table : CommonTable) :
    (repository.Admits table ∧
        repository.replace table =
          (.ok (repository.get table.number),
            { repository with
              tables := repository.tables.insert table.number.toFin table
              totalEntries := countEntries
                (repository.tables.insert table.number.toFin table) })) ∨
      ¬ repository.Admits table ∧
        ∃ error, repository.replace table = (.error error, repository) := by
  have hroom := length_insert_le_iff h.tables table
  have hcount := countEntries_insert repository.tables table
  have htotal := h.total
  unfold maximumTableEntries at hlimits
  unfold replace
  cases hvalid : table.validate with
  | error error =>
      refine .inr ⟨fun hadmits => ?_, error, rfl⟩
      rw [hadmits.valid] at hvalid
      contradiction
  | ok value =>
      have hfew := entries_of_valid hvalid
      have hentries := h.entries
      unfold maximumCommonTableEntries at hfew
      change countEntries _ + ((repository.get table.number).map fun table =>
        table.entries.length).getD 0 = _ at hcount
      dsimp only
      split_ifs with hfull hless hword hmany
      · exact .inr ⟨fun hadmits => hroom.mp hadmits.tables hfull, _, rfl⟩
      · exact absurd (previous_le_countEntries repository table.number)
          (by omega)
      · omega
      · refine .inr ⟨fun hadmits => ?_, _, rfl⟩
        have := hadmits.entries
        omega
      · have heq : countEntries
            (repository.tables.insert table.number.toFin table) =
              repository.totalEntries -
                ((repository.get table.number).map fun table =>
                  table.entries.length).getD 0 + table.entries.length := by
          omega
        refine .inl ⟨⟨hvalid, hroom.mpr hfull, by omega⟩, ?_⟩
        rw [heq]

/-! ## Runs -/

/-- The tables of a run, each with whether it was taken. -/
def replaceAll : TableRepository → List CommonTable →
    List Bool × TableRepository
  | repository, [] => ([], repository)
  | repository, table :: tables =>
      let (result, repository) := repository.replace table
      let (results, final) := replaceAll repository tables
      (result.isOk :: results, final)

theorem Consistent.replace {repository : TableRepository}
    (h : repository.Consistent)
    (hlimits : repository.limits.entries ≤ maximumTableEntries)
    (table : CommonTable) : (repository.replace table).2.Consistent := by
  obtain ⟨hadmits, hreplace⟩ | ⟨-, error, hreplace⟩ :=
    replace_of_consistent h hlimits table
  · rw [hreplace]
    refine ⟨rfl, hadmits.tables, hadmits.entries, ?_⟩
    intro number found hfound
    dsimp only [get] at hfound
    rw [OrderedMap.lookup_insert] at hfound
    split_ifs at hfound with hnumber
    · injection hfound with hfound
      rw [← hfound]
      exact ⟨hadmits.valid, (UInt16.toFin_inj.mp hnumber).symm⟩
    · exact h.valid number found hfound
  · rw [hreplace]
    exact h

theorem limits_replace (repository : TableRepository) (table : CommonTable) :
    (repository.replace table).2.limits = repository.limits := by
  unfold TableRepository.replace
  cases table.validate with
  | error error => rfl
  | ok value =>
      dsimp only
      split_ifs <;> rfl

def taken (tables : List CommonTable) (results : List Bool) :
    List CommonTable :=
  (tables.zip results).filterMap fun (table, accepted) =>
    if accepted then some table else none

theorem taken_cons (table : CommonTable) (tables : List CommonTable)
    (accepted : Bool) (results : List Bool) :
    taken (table :: tables) (accepted :: results) =
      (if accepted then [table] else []) ++ taken tables results := by
  cases accepted <;> rfl

theorem get_replace {repository : TableRepository} (h : repository.Consistent)
    (hlimits : repository.limits.entries ≤ maximumTableEntries)
    (table : CommonTable) (number : UInt16) :
    (repository.replace table).2.get number =
      if (repository.replace table).1.isOk ∧ table.number = number then
        some table
      else repository.get number := by
  obtain ⟨-, hreplace⟩ | ⟨-, error, hreplace⟩ :=
    replace_of_consistent h hlimits table
  · rw [hreplace]
    dsimp only [get]
    rw [OrderedMap.lookup_insert]
    refine if_congr ?_ rfl rfl
    rw [UInt16.toFin_inj, eq_comm]
    exact (and_iff_right rfl).symm
  · rw [hreplace]
    simp [Except.isOk, Except.toBool]

theorem replaceAll_spec {repository : TableRepository}
    (h : repository.Consistent)
    (hlimits : repository.limits.entries ≤ maximumTableEntries)
    (tables : List CommonTable) :
    (replaceAll repository tables).2.Consistent ∧
      (replaceAll repository tables).2.limits = repository.limits ∧
      ∀ number, (replaceAll repository tables).2.get number =
        ((taken tables (replaceAll repository tables).1).reverse.find?
          fun table => table.number = number).or (repository.get number) := by
  induction tables generalizing repository with
  | nil => exact ⟨h, rfl, fun _ => rfl⟩
  | cons table tables ih =>
      have hsame := repository.limits_replace table
      obtain ⟨hconsistent, hlimit, hget⟩ :=
        ih (h.replace hlimits table) (hsame.symm ▸ hlimits)
      refine ⟨hconsistent, hlimit.trans hsame, ?_⟩
      intro number
      change (replaceAll (repository.replace table).2 tables).2.get number =
        ((taken (table :: tables) ((repository.replace table).1.isOk ::
          (replaceAll (repository.replace table).2 tables).1)).reverse.find?
            fun table => table.number = number).or (repository.get number)
      rw [hget, get_replace h hlimits, taken_cons, List.reverse_append,
        List.find?_append, Option.or_assoc]
      congr 1
      cases (repository.replace table).1.isOk with
      | false => simp
      | true =>
          by_cases hnumber : table.number = number <;> simp [hnumber]

/--
Whatever tables have been offered to a repository with valid limits: what is found
under a number is the last table that was taken for it, and valid; the count of
entries is their number, and both limits hold.  A further table is taken exactly
when it is valid and the tables with it in place keep both limits, and is refused
without an effect otherwise.
-/
theorem repository_takes_what_fits {limits : TableRepositoryLimits}
    {start : TableRepository} (h : withLimits limits = .ok start)
    (offered : List CommonTable) :
    let run := replaceAll start offered
    run.2.Consistent ∧
      run.2.limits = limits ∧
      (∀ number, run.2.get number =
        (taken offered run.1).reverse.find?
          fun table => table.number = number) ∧
      ∀ table,
        ((run.2.replace table).1.isOk = true ↔ run.2.Admits table) ∧
          ((run.2.replace table).1.isOk = false →
            (run.2.replace table).2 = run.2) := by
  have hstart : limits.validate = .ok () ∧ start = { limits } := by
    rw [withLimits] at h
    cases hvalid : limits.validate with
    | error error =>
        rw [hvalid] at h
        contradiction
    | ok value =>
        rw [hvalid] at h
        injection h with h
        exact ⟨rfl, h.symm⟩
  obtain ⟨hvalid, rfl⟩ := hstart
  have hentries : limits.entries ≤ maximumTableEntries := by
    unfold TableRepositoryLimits.validate at hvalid
    split_ifs at hvalid with hzero htables hmany
    exact Nat.le_of_not_lt hmany
  intro run
  obtain ⟨hconsistent, hlimits, hget⟩ :=
    replaceAll_spec (consistent_new : Consistent { limits }) hentries offered
  refine ⟨hconsistent, hlimits, ?_, ?_⟩
  · intro number
    rw [hget number]
    exact Option.or_none
  · intro table
    obtain ⟨hadmits, hreplace⟩ | ⟨hrefused, error, hreplace⟩ :=
      replace_of_consistent hconsistent
        (show run.2.limits.entries ≤ _ from hlimits.symm ▸ hentries) table
    · have hreplace : run.2.replace table = _ := hreplace
      rw [hreplace]
      exact ⟨iff_of_true rfl hadmits, fun hfailed => nomatch hfailed⟩
    · have hreplace : run.2.replace table = _ := hreplace
      rw [hreplace]
      exact ⟨iff_of_false nofun hrefused, fun _ => rfl⟩

def unitTable (revision : String) (units : List TableEntry) : CommonTable where
  number := 2
  revision := revision
  entries := units.foldl (fun entries unit =>
    entries.insert unit.code.toFin unit) {}

/-- With room for one entry, a revision of two is refused and one of one taken. -/
theorem repository_takes_what_fits_units :
    let offered := [unitTable "1" [⟨32, "degC"⟩],
      unitTable "2" [⟨32, "degC"⟩, ⟨33, "degF"⟩], unitTable "3" [⟨35, "K"⟩]]
    let run := replaceAll { limits := ⟨1, 1⟩ } offered
    run.1 = [true, false, true] ∧
      run.2.get 2 = some (unitTable "3" [⟨35, "K"⟩]) := by
  intro offered run
  refine ⟨by decide +kernel, ?_⟩
  have h := (@repository_takes_what_fits ⟨1, 1⟩ _ rfl offered).2.2.1 2
  exact h.trans (by decide +kernel)

end TableRepository

end HartLink.Device

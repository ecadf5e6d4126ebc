import HartLink.Device.Catalog

/-!
# Importing packages

A package is an archive whose JSON entries are profiles.  The archive reader and
the JSON reader stand outside and are parameters.  An import takes in every
profile of the archive or leaves the catalog as it was.
-/

namespace HartLink.Device

open HartLink.Foundation

def maximumPackageArchiveBytes : Nat := 256 * 1024 * 1024
def maximumPackageFiles : Nat := 65536
def maximumPackageFileNameBytes : Nat := 16 * 1024
def maximumPackageUncompressedBytes : Nat := 1024 * 1024 * 1024
def maximumPackageFileBytes : Nat := 64 * 1024 * 1024

structure PackageLimits where
  archiveBytes : Nat := 64 * 1024 * 1024
  files : Nat := 1024
  fileNameBytes : Nat := 1024
  uncompressedBytes : Nat := 64 * 1024 * 1024
  fileBytes : Nat := 8 * 1024 * 1024
  deriving DecidableEq, Repr

structure PackageReport where
  devices : List DeviceKey
  inspectedFiles : Nat
  skippedJson : List String
  deriving DecidableEq, Repr

/-- The errors of an import; the parameters are those of the readers. -/
inductive PackageError (ZipError IoError JsonError : Type) where
  | zeroLimit
  | limitTooLarge (limit : String)
  | archiveSize (actual maximum : Nat)
  | zip (error : ZipError)
  | io (error : IoError)
  | fileCount
  | fileNameSize (bytes : Nat)
  | fileSize (name : String)
  | totalSize
  | unsafePath (name : String)
  | device (error : CatalogLoadError JsonError)
  | duplicateDevice (expandedType : UInt16) (deviceRevision : UInt8)
  deriving DecidableEq, Repr

/--
An entry as the archive reader shows it: `enclosed` says that its path stays in
the archive, `size` is the declared size, and `read` gives the content up to a
number of bytes.
-/
structure PackageEntry (IoError : Type) where
  name : String
  enclosed : Bool
  size : UInt64
  isFile : Bool
  read : Nat → Except IoError Bytes

/-- An entry that is taken for a profile. -/
def PackageEntry.isJson {IoError : Type} (entry : PackageEntry IoError) : Bool :=
  entry.isFile && ".json".toList.isSuffixOf (entry.name.toList.map Char.toLower)

def PackageEntry.content {IoError : Type} (limits : PackageLimits)
    (entry : PackageEntry IoError) : Bytes :=
  match entry.read (limits.fileBytes + 1) with
  | .ok content => content
  | .error _ => []

section Import

variable {ZipError IoError JsonError : Type}
  (fromSlice : Bytes → Except JsonError DeviceProfile)
  (openArchive :
    Bytes → Except ZipError (List (Except ZipError (PackageEntry IoError))))

def PackageLimits.validate (limits : PackageLimits) :
    Except (PackageError ZipError IoError JsonError) Unit :=
  if limits.archiveBytes = 0 ∨ limits.files = 0 ∨ limits.fileNameBytes = 0 ∨
      limits.uncompressedBytes = 0 ∨ limits.fileBytes = 0 then .error .zeroLimit
  else if limits.archiveBytes > maximumPackageArchiveBytes then
    .error (.limitTooLarge "archive_bytes")
  else if limits.files > maximumPackageFiles then
    .error (.limitTooLarge "files")
  else if limits.fileNameBytes > maximumPackageFileNameBytes then
    .error (.limitTooLarge "file_name_bytes")
  else if limits.uncompressedBytes > maximumPackageUncompressedBytes then
    .error (.limitTooLarge "uncompressed_bytes")
  else if limits.fileBytes > maximumPackageFileBytes then
    .error (.limitTooLarge "file_bytes")
  else .ok ()

/-- The loop's variables; `devices` also serves for the set of their keys. -/
structure Importing where
  total : Nat := 0
  actualJsonBytes : Nat := 0
  devices : List DeviceKey := []
  skippedJson : List String := []
  staging : DeviceCatalog

/-- The checks that every entry passes, and the declared total with it. -/
def admitEntry (limits : PackageLimits) (total : Nat)
    (entry : PackageEntry IoError) :
    Except (PackageError ZipError IoError JsonError) Nat :=
  if entry.name.utf8ByteSize > limits.fileNameBytes then
    .error (.fileNameSize entry.name.utf8ByteSize)
  else if !entry.enclosed then .error (.unsafePath entry.name)
  else if entry.size.toNat > limits.fileBytes then
    .error (.fileSize entry.name)
  else if total + entry.size.toNat ≥ 2 ^ 64 then .error .totalSize
  else if total + entry.size.toNat > limits.uncompressedBytes then
    .error .totalSize
  else .ok (total + entry.size.toNat)

def loadEntry (importing : Importing) (name : String) (content : Bytes) :
    Except (PackageError ZipError IoError JsonError) Importing :=
  match importing.staging.loadJson fromSlice content with
  | (.ok key, staging) =>
      if key ∈ importing.devices then
        .error (.duplicateDevice key.expandedType key.deviceRevision)
      else
        .ok { importing with
          devices := importing.devices ++ [key]
          staging }
  | (.error (.jsonLimit actual maximum), _) =>
      .error (.device (.jsonLimit actual maximum))
  | (.error (.schema (.catalogProfileLimit limit)), _) =>
      .error (.device (.schema (.catalogProfileLimit limit)))
  | (.error _, staging) =>
      .ok { importing with
        skippedJson := importing.skippedJson ++ [name]
        staging }

def importEntry (limits : PackageLimits) (importing : Importing)
    (entry : PackageEntry IoError) :
    Except (PackageError ZipError IoError JsonError) Importing :=
  match admitEntry limits importing.total entry with
  | .error error => .error error
  | .ok total =>
      let importing := { importing with total }
      if entry.isJson then
        match entry.read (limits.fileBytes + 1) with
        | .error error => .error (.io error)
        | .ok content =>
            if content.length > limits.fileBytes then
              .error (.fileSize entry.name)
            else
              let actual := importing.actualJsonBytes + content.length
              if actual ≥ 2 ^ 64 then .error .totalSize
              else if actual > limits.uncompressedBytes then .error .totalSize
              else
                loadEntry fromSlice
                  { importing with actualJsonBytes := actual } entry.name
                  content
      else .ok importing

def importEntries (limits : PackageLimits) :
    Importing → List (Except ZipError (PackageEntry IoError)) →
      Except (PackageError ZipError IoError JsonError) Importing
  | importing, [] => .ok importing
  | _, .error error :: _ => .error (.zip error)
  | importing, .ok entry :: entries =>
      match importEntry fromSlice limits importing entry with
      | .error error => .error error
      | .ok importing => importEntries limits importing entries

def importPackage (bytes : Bytes) (catalog : DeviceCatalog)
    (limits : PackageLimits) :
    Except (PackageError ZipError IoError JsonError) PackageReport ×
      DeviceCatalog :=
  match limits.validate with
  | .error error => (.error error, catalog)
  | .ok _ =>
      if bytes.length > limits.archiveBytes then
        (.error (.archiveSize bytes.length limits.archiveBytes), catalog)
      else
        match openArchive bytes with
        | .error error => (.error (.zip error), catalog)
        | .ok archive =>
            if archive.length > limits.files then (.error .fileCount, catalog)
            else
              match importEntries fromSlice limits { staging := catalog }
                archive with
              | .error error => (.error error, catalog)
              | .ok importing =>
                  (.ok
                    { devices := importing.devices
                      inspectedFiles := archive.length
                      skippedJson := importing.skippedJson },
                    importing.staging)

/-! ## What becomes of the entries -/

/-- A content is a valid profile, or it is skipped because it is none. -/
inductive Loads (content : Bytes) : Option DeviceProfile → Prop
  | profile {profile : DeviceProfile} (hparsed : fromSlice content = .ok profile)
      (hvalid : profile.validate = .ok ()) : Loads content (some profile)
  | unreadable {error : JsonError} (hparsed : fromSlice content = .error error) :
      Loads content none
  | invalid {profile : DeviceProfile} {error : ProfileError}
      (hparsed : fromSlice content = .ok profile)
      (hinvalid : profile.validate = .error error) : Loads content none

structure Admitted (limits : PackageLimits) (entry : PackageEntry IoError) :
    Prop where
  name : entry.name.utf8ByteSize ≤ limits.fileNameBytes
  enclosed : entry.enclosed = true
  size : entry.size.toNat ≤ limits.fileBytes

/-- What the JSON entries among those that were imported have become. -/
structure Imported (limits : PackageLimits) (catalog : DeviceCatalog)
    (entries : List (PackageEntry IoError))
    (outcomes : List (PackageEntry IoError × Option DeviceProfile))
    (importing : Importing) : Prop where
  admitted : ∀ entry ∈ entries, Admitted limits entry
  total : importing.total =
    (entries.map fun entry => entry.size.toNat).sum
  bounded : importing.total ≤ limits.uncompressedBytes
  json : outcomes.map Prod.fst = entries.filter PackageEntry.isJson
  actual : importing.actualJsonBytes =
    (outcomes.map fun outcome => (outcome.1.content limits).length).sum
  actualBounded : importing.actualJsonBytes ≤ limits.uncompressedBytes
  loaded : ∀ outcome ∈ outcomes, ∃ content,
    outcome.1.read (limits.fileBytes + 1) = .ok content ∧
      content.length ≤ limits.fileBytes ∧ Loads fromSlice content outcome.2
  taken : catalog.Takes (outcomes.filterMap Prod.snd) importing.staging
  devices : importing.devices =
    (outcomes.filterMap Prod.snd).map DeviceProfile.key
  nodup : importing.devices.Nodup
  skipped : importing.skippedJson =
    (outcomes.filter fun outcome => outcome.2.isNone).map fun outcome =>
      outcome.1.name

section Steps

variable {fromSlice} {limits : PackageLimits} {importing next : Importing}

omit fromSlice in
theorem admitEntry_ok {total sum : Nat} {entry : PackageEntry IoError}
    (h : admitEntry limits total entry =
      (.ok sum : Except (PackageError ZipError IoError JsonError) Nat)) :
    Admitted limits entry ∧ sum = total + entry.size.toNat ∧
      sum ≤ limits.uncompressedBytes := by
  unfold admitEntry at h
  split_ifs at h with hname hpath hsize hword htotal
  injection h with h
  rw [Bool.not_eq_true', Bool.not_eq_false] at hpath
  exact ⟨⟨by omega, hpath, by omega⟩, h.symm, by omega⟩

theorem loadEntry_ok {name : String} {content : Bytes}
    (h : loadEntry fromSlice importing name content =
      (.ok next : Except (PackageError ZipError IoError JsonError) Importing)) :
    (∃ profile, Loads fromSlice content (some profile) ∧
        profile.key ∉ importing.devices ∧
        importing.staging.Takes [profile] next.staging ∧
        next = { importing with
          devices := importing.devices ++ [profile.key]
          staging := next.staging }) ∨
      Loads fromSlice content none ∧
        next = { importing with
          skippedJson := importing.skippedJson ++ [name] } := by
  unfold loadEntry at h
  obtain ⟨error, hload, hreason⟩ | ⟨profile, staging, hparsed, hload, htakes⟩ :=
    importing.staging.loadJson_cases fromSlice content
  · rw [hload] at h
    refine .inr ?_
    obtain ⟨actual, maximum, rfl⟩ | ⟨limit, rfl⟩ | ⟨reason, hunreadable⟩ |
      ⟨profile, reason, hparsed, hinvalid⟩ := hreason
    · contradiction
    · contradiction
    · split at h
      · next heq => simp at heq
      · contradiction
      · contradiction
      · next heq =>
          injection h with h
          injection heq with heq hstaging
          rw [← h, ← hstaging]
          exact ⟨.unreadable hunreadable, rfl⟩
    · split at h
      · next heq => simp at heq
      · contradiction
      · contradiction
      · next heq =>
          injection h with h
          injection heq with heq hstaging
          rw [← h, ← hstaging]
          exact ⟨.invalid hparsed hinvalid, rfl⟩
  · rw [hload] at h
    dsimp only at h
    split_ifs at h with hknown
    injection h with h
    rw [← h]
    exact .inl ⟨profile,
      .profile hparsed (htakes.valid profile List.mem_cons_self), hknown,
      htakes, rfl⟩

theorem importEntry_ok {entry : PackageEntry IoError}
    (h : importEntry fromSlice limits importing entry =
      (.ok next : Except (PackageError ZipError IoError JsonError) Importing)) :
    Admitted limits entry ∧
      importing.total + entry.size.toNat ≤ limits.uncompressedBytes ∧
      (entry.isJson = false ∧
          next = { importing with
            total := importing.total + entry.size.toNat } ∨
        entry.isJson = true ∧ ∃ content,
          entry.read (limits.fileBytes + 1) = .ok content ∧
          content.length ≤ limits.fileBytes ∧
          importing.actualJsonBytes + content.length ≤
            limits.uncompressedBytes ∧
          loadEntry fromSlice
              { importing with
                total := importing.total + entry.size.toNat
                actualJsonBytes :=
                  importing.actualJsonBytes + content.length } entry.name
              content =
            (.ok next :
              Except (PackageError ZipError IoError JsonError) Importing)) := by
  unfold importEntry at h
  cases hentry : (admitEntry limits importing.total entry :
      Except (PackageError ZipError IoError JsonError) Nat) with
  | error error =>
      rw [hentry] at h
      contradiction
  | ok total =>
      obtain ⟨hadmitted, rfl, htotal⟩ := admitEntry_ok hentry
      refine ⟨hadmitted, htotal, ?_⟩
      rw [hentry] at h
      cases hjson : entry.isJson with
      | false =>
          simp only [hjson, Bool.false_eq_true, if_false, Except.ok.injEq] at h
          exact .inl ⟨rfl, h.symm⟩
      | true =>
          simp only [hjson, if_true] at h
          cases hread : entry.read (limits.fileBytes + 1) with
          | error error =>
              rw [hread] at h
              contradiction
          | ok content =>
              rw [hread] at h
              dsimp only at h
              split_ifs at h with hlong hword hactual
              exact .inr ⟨rfl, content, rfl, by omega, by omega, h⟩

theorem Imported.step {catalog : DeviceCatalog}
    {entries : List (PackageEntry IoError)} {entry : PackageEntry IoError}
    {outcomes : List (PackageEntry IoError × Option DeviceProfile)}
    (h : Imported fromSlice limits catalog entries outcomes importing)
    (hstep : importEntry fromSlice limits importing entry =
      (.ok next : Except (PackageError ZipError IoError JsonError) Importing)) :
    ∃ outcomes, Imported fromSlice limits catalog (entries ++ [entry]) outcomes
      next := by
  obtain ⟨hadmitted, htotal, hcases⟩ := importEntry_ok hstep
  have hall : ∀ other ∈ entries ++ [entry], Admitted limits other := by
    intro other hother
    rcases List.mem_append.mp hother with hother | hother
    · exact h.admitted other hother
    · rw [List.mem_singleton] at hother
      exact hother ▸ hadmitted
  have hsum : importing.total + entry.size.toNat =
      ((entries ++ [entry]).map fun entry => entry.size.toNat).sum := by
    rw [List.map_append, List.sum_append, h.total]
    simp
  obtain ⟨hjson, rfl⟩ | ⟨hjson, content, hread, hlength, hactual, hload⟩ :=
    hcases
  · refine ⟨outcomes, hall, hsum, htotal, ?_, h.actual, h.actualBounded,
      h.loaded, h.taken, h.devices, h.nodup, h.skipped⟩
    rw [h.json, List.filter_append, List.filter_cons_of_neg (by simp [hjson]),
      List.filter_nil, List.append_nil]
  · have hlater : ∀ outcome : Option DeviceProfile,
        (outcomes ++ [(entry, outcome)]).map Prod.fst =
          (entries ++ [entry]).filter PackageEntry.isJson := by
      intro outcome
      rw [List.map_append, h.json, List.filter_append,
        List.filter_cons_of_pos hjson]
      rfl
    have hcontent : entry.content limits = content := by
      rw [PackageEntry.content, hread]
    have hbytes : ∀ outcome : Option DeviceProfile,
        importing.actualJsonBytes + content.length =
          ((outcomes ++ [(entry, outcome)]).map fun outcome =>
            (outcome.1.content limits).length).sum := by
      intro outcome
      rw [List.map_append, List.sum_append, h.actual, List.map_singleton,
        hcontent, List.sum_singleton]
    have hloaded : ∀ outcome : Option DeviceProfile,
        Loads fromSlice content outcome →
        ∀ found ∈ outcomes ++ [(entry, outcome)], ∃ content,
          found.1.read (limits.fileBytes + 1) = .ok content ∧
            content.length ≤ limits.fileBytes ∧
            Loads fromSlice content found.2 := by
      intro outcome hloads found hfound
      rcases List.mem_append.mp hfound with hfound | hfound
      · exact h.loaded found hfound
      · rw [List.mem_singleton] at hfound
        rw [hfound]
        exact ⟨content, hread, hlength, hloads⟩
    obtain ⟨profile, hloads, hfresh, htakes, hnext⟩ | ⟨hloads, hnext⟩ :=
      loadEntry_ok hload
    · refine ⟨outcomes ++ [(entry, some profile)], hall, ?_, ?_,
        hlater (some profile), ?_, ?_, hloaded (some profile) hloads, ?_, ?_,
        ?_, ?_⟩
      · rw [hnext]
        exact hsum
      · rw [hnext]
        exact htotal
      · rw [hnext]
        exact hbytes (some profile)
      · rw [hnext]
        exact hactual
      · rw [List.filterMap_append]
        exact h.taken.trans htakes
      · rw [hnext, List.filterMap_append, List.map_append]
        exact congrArg (· ++ [profile.key]) h.devices
      · rw [hnext]
        exact List.nodup_append.mpr ⟨h.nodup, List.nodup_singleton _, by
          intro key hkey other hother
          rw [List.mem_singleton] at hother
          rintro rfl
          exact hfresh (hother ▸ hkey)⟩
      · rw [hnext, List.filter_append, List.map_append]
        exact h.skipped.trans (List.append_nil _).symm
    · refine ⟨outcomes ++ [(entry, none)], hall, ?_, ?_, hlater none, ?_, ?_,
        hloaded none hloads, ?_, ?_, ?_, ?_⟩
      · rw [hnext]
        exact hsum
      · rw [hnext]
        exact htotal
      · rw [hnext]
        exact hbytes none
      · rw [hnext]
        exact hactual
      · rw [hnext, List.filterMap_append]
        exact h.taken.trans (.refl _)
      · rw [hnext, List.filterMap_append, List.map_append]
        exact h.devices.trans (List.append_nil _).symm
      · rw [hnext]
        exact h.nodup
      · rw [hnext, List.filter_append, List.map_append]
        exact congrArg (· ++ [entry.name]) h.skipped

theorem Imported.run {catalog : DeviceCatalog}
    {entries : List (PackageEntry IoError)}
    {archive : List (Except ZipError (PackageEntry IoError))}
    {outcomes : List (PackageEntry IoError × Option DeviceProfile)}
    (h : Imported fromSlice limits catalog entries outcomes importing)
    (hrun : importEntries fromSlice limits importing archive =
      (.ok next : Except (PackageError ZipError IoError JsonError) Importing)) :
    ∃ later outcomes, archive = later.map .ok ∧
      Imported fromSlice limits catalog (entries ++ later) outcomes next := by
  induction archive generalizing entries importing outcomes with
  | nil =>
      injection hrun with hrun
      refine ⟨[], outcomes, rfl, ?_⟩
      rw [List.append_nil, ← hrun]
      exact h
  | cons entry archive ih =>
      cases entry with
      | error error => contradiction
      | ok entry =>
          rw [importEntries] at hrun
          cases hstep : (importEntry fromSlice limits importing entry :
              Except (PackageError ZipError IoError JsonError) Importing) with
          | error error =>
              rw [hstep] at hrun
              contradiction
          | ok middle =>
              rw [hstep] at hrun
              obtain ⟨outcomes, himported⟩ := h.step hstep
              obtain ⟨later, outcomes, rfl, hfinal⟩ := ih himported hrun
              refine ⟨entry :: later, outcomes, rfl, ?_⟩
              rw [List.append_assoc, List.singleton_append] at hfinal
              exact hfinal

end Steps

theorem importPackage_cases (bytes : Bytes) (catalog : DeviceCatalog)
    (limits : PackageLimits) :
    (∃ error : PackageError ZipError IoError JsonError,
      importPackage fromSlice openArchive bytes catalog limits =
        (.error error, catalog)) ∨
      ∃ entries outcomes importing,
        openArchive bytes = .ok (entries.map .ok) ∧
        bytes.length ≤ limits.archiveBytes ∧
        entries.length ≤ limits.files ∧
        Imported fromSlice limits catalog entries outcomes importing ∧
        importPackage fromSlice openArchive bytes catalog limits =
          (.ok
            { devices := importing.devices
              inspectedFiles := entries.length
              skippedJson := importing.skippedJson },
            importing.staging) := by
  unfold importPackage
  cases (limits.validate :
      Except (PackageError ZipError IoError JsonError) Unit) with
  | error error => exact .inl ⟨error, rfl⟩
  | ok value =>
      dsimp only
      split_ifs with hsize
      · exact .inl ⟨_, rfl⟩
      cases openArchive bytes with
      | error error => exact .inl ⟨_, rfl⟩
      | ok archive =>
          dsimp only
          split_ifs with hfiles
          · exact .inl ⟨_, rfl⟩
          cases hrun : (importEntries fromSlice limits { staging := catalog }
              archive :
              Except (PackageError ZipError IoError JsonError) Importing) with
          | error error => exact .inl ⟨error, rfl⟩
          | ok importing =>
              have hnew : @Imported IoError JsonError fromSlice limits catalog
                  [] [] { staging := catalog } :=
                ⟨nofun, rfl, Nat.zero_le _, rfl, rfl, Nat.zero_le _, nofun,
                  .refl catalog, rfl, List.nodup_nil, rfl⟩
              obtain ⟨entries, outcomes, rfl, himported⟩ := hnew.run hrun
              rw [List.nil_append] at himported
              rw [List.length_map] at hfiles ⊢
              exact .inr ⟨entries, outcomes, importing, rfl, by omega, by omega,
                himported, rfl⟩

/--
An import that fails leaves the catalog as it was.  One that succeeds has read
every entry of the archive within the limits for the archive, its entries, their
declared sizes and the bytes that are really read; each JSON entry is a valid
profile that the catalog has taken in, or is no valid profile and reported as
skipped; and no two of the profiles are for the same device revision.
-/
theorem package_import_atomic (bytes : Bytes) (catalog : DeviceCatalog)
    (limits : PackageLimits) :
    let imported : Except (PackageError ZipError IoError JsonError)
        PackageReport × DeviceCatalog :=
      importPackage fromSlice openArchive bytes catalog limits
    (∀ error, imported.1 = .error error → imported.2 = catalog) ∧
      ∀ report, imported.1 = .ok report →
        ∃ (entries : List (PackageEntry IoError))
          (outcomes : List (PackageEntry IoError × Option DeviceProfile)),
        openArchive bytes = .ok (entries.map .ok) ∧
        bytes.length ≤ limits.archiveBytes ∧
        entries.length ≤ limits.files ∧
        report.inspectedFiles = entries.length ∧
        (∀ entry ∈ entries, Admitted limits entry) ∧
        (entries.map fun entry => entry.size.toNat).sum ≤
          limits.uncompressedBytes ∧
        outcomes.map Prod.fst = entries.filter PackageEntry.isJson ∧
        (∀ outcome ∈ outcomes, ∃ content,
          outcome.1.read (limits.fileBytes + 1) = .ok content ∧
            content.length ≤ limits.fileBytes ∧
            Loads fromSlice content outcome.2) ∧
        (outcomes.map fun outcome => (outcome.1.content limits).length).sum ≤
          limits.uncompressedBytes ∧
        catalog.Takes (outcomes.filterMap Prod.snd) imported.2 ∧
        report.devices = (outcomes.filterMap Prod.snd).map DeviceProfile.key ∧
        report.devices.Nodup ∧
        report.skippedJson =
          (outcomes.filter fun outcome => outcome.2.isNone).map
            fun outcome => outcome.1.name := by
  intro imported
  obtain ⟨error, hfailed⟩ |
    ⟨entries, outcomes, importing, hopen, harchive, hfiles, himported,
      hdone⟩ := @importPackage_cases ZipError IoError JsonError fromSlice
        openArchive bytes catalog limits
  · have hfailed : imported = _ := hfailed
    rw [hfailed]
    exact ⟨fun _ _ => rfl, fun report hok => nomatch hok⟩
  · have hdone : imported = _ := hdone
    rw [hdone]
    refine ⟨(fun error hfailed => nomatch hfailed), ?_⟩
    intro report hreport
    injection hreport with hreport
    rw [← hreport]
    exact ⟨entries, outcomes, hopen, harchive, hfiles, rfl,
      himported.admitted, himported.total ▸ himported.bounded, himported.json,
      himported.loaded, himported.actual ▸ himported.actualBounded,
      himported.taken, himported.devices, himported.nodup, himported.skipped⟩

/-! ## Runs -/

inductive CatalogCall where
  | insert (profile : DeviceProfile)
  | loadJson (bytes : Bytes)
  | importPackage (bytes : Bytes) (limits : PackageLimits)

def DeviceCatalog.call (catalog : DeviceCatalog) :
    CatalogCall → Bool × DeviceCatalog
  | .insert profile =>
      let (result, catalog) := catalog.insert profile
      (result.isOk, catalog)
  | .loadJson bytes =>
      let (result, catalog) := catalog.loadJson fromSlice bytes
      (result.isOk, catalog)
  | .importPackage bytes limits =>
      let (result, catalog) :=
        importPackage fromSlice openArchive bytes catalog limits
      (result.isOk, catalog)

def DeviceCatalog.calls : DeviceCatalog → List CatalogCall →
    List Bool × DeviceCatalog
  | catalog, [] => ([], catalog)
  | catalog, call :: rest =>
      let (succeeded, catalog) :=
        DeviceCatalog.call fromSlice openArchive catalog call
      let (results, final) := DeviceCatalog.calls catalog rest
      (succeeded :: results, final)

inductive Brings : CatalogCall → Bool → List DeviceProfile → Prop
  | failed {call : CatalogCall} : Brings call false []
  | insert {profile : DeviceProfile} : Brings (.insert profile) true [profile]
  | loadJson {bytes : Bytes} {profile : DeviceProfile}
      (hparsed : fromSlice bytes = .ok profile) :
      Brings (.loadJson bytes) true [profile]
  | importPackage {bytes : Bytes} {limits : PackageLimits}
      {entries : List (PackageEntry IoError)}
      {outcomes : List (PackageEntry IoError × Option DeviceProfile)}
      (hopen : openArchive bytes = .ok (entries.map .ok))
      (hjson : outcomes.map Prod.fst = entries.filter PackageEntry.isJson)
      (hloaded : ∀ outcome ∈ outcomes, ∃ content,
        outcome.1.read (limits.fileBytes + 1) = .ok content ∧
          content.length ≤ limits.fileBytes ∧
          Loads fromSlice content outcome.2) :
      Brings (.importPackage bytes limits) true (outcomes.filterMap Prod.snd)

theorem DeviceCatalog.call_takes (catalog : DeviceCatalog) (call : CatalogCall) :
    ∃ taken,
      Brings fromSlice openArchive call
        (DeviceCatalog.call fromSlice openArchive catalog call).1 taken ∧
      catalog.Takes taken
        (DeviceCatalog.call fromSlice openArchive catalog call).2 := by
  cases call with
  | insert profile =>
      obtain ⟨error, hinsert, -⟩ | ⟨next, hinsert, htakes⟩ :=
        catalog.insert_cases profile
      · rw [DeviceCatalog.call, hinsert]
        exact ⟨[], .failed, .refl catalog⟩
      · rw [DeviceCatalog.call, hinsert]
        exact ⟨[profile], .insert, htakes⟩
  | loadJson bytes =>
      obtain ⟨error, hload, -⟩ | ⟨profile, next, hparsed, hload, htakes⟩ :=
        catalog.loadJson_cases fromSlice bytes
      · rw [DeviceCatalog.call, hload]
        exact ⟨[], .failed, .refl catalog⟩
      · rw [DeviceCatalog.call, hload]
        exact ⟨[profile], .loadJson hparsed, htakes⟩
  | importPackage bytes limits =>
      obtain ⟨error, hfailed⟩ |
        ⟨entries, outcomes, importing, hopen, -, -, himported, hdone⟩ :=
          importPackage_cases fromSlice openArchive bytes catalog limits
      · rw [DeviceCatalog.call, hfailed]
        exact ⟨[], .failed, .refl catalog⟩
      · rw [DeviceCatalog.call, hdone]
        exact ⟨_, .importPackage hopen himported.json himported.loaded,
          himported.taken⟩

theorem DeviceCatalog.calls_take (catalog : DeviceCatalog)
    (calls : List CatalogCall) :
    ∃ taken,
      List.Forall₂
        (fun called taken => Brings fromSlice openArchive called.1 called.2 taken)
        (calls.zip
          (DeviceCatalog.calls fromSlice openArchive catalog calls).1) taken ∧
      catalog.Takes taken.flatten
        (DeviceCatalog.calls fromSlice openArchive catalog calls).2 := by
  induction calls generalizing catalog with
  | nil => exact ⟨[], .nil, .refl catalog⟩
  | cons call calls ih =>
      obtain ⟨first, hfirst, htakes⟩ :=
        DeviceCatalog.call_takes fromSlice openArchive catalog call
      obtain ⟨taken, hlater, hrest⟩ :=
        ih (DeviceCatalog.call fromSlice openArchive catalog call).2
      exact ⟨first :: taken, .cons hfirst hlater, htakes.trans hrest⟩

/--
Whatever calls have been made of a new catalog, and with whatever result: what is
found for a revision is the last profile that a successful call has brought for it,
it is valid and under its own key, and there are no more profiles than allowed.
-/
theorem catalog_holds_last_taken (limits : CatalogLimits)
    (calls : List CatalogCall) :
    let run := DeviceCatalog.calls fromSlice openArchive { limits } calls
    ∃ taken,
      List.Forall₂
        (fun called taken => Brings fromSlice openArchive called.1 called.2 taken)
        (calls.zip run.1) taken ∧
      (∀ profile ∈ taken.flatten, profile.validate = .ok ()) ∧
      (∀ key, run.2.resolve key =
        taken.flatten.reverse.find? fun profile => profile.key = key) ∧
      run.2.Sound ∧ run.2.limits = limits := by
  intro run
  obtain ⟨taken, hresults, htakes⟩ :=
    DeviceCatalog.calls_take fromSlice openArchive { limits } calls
  refine ⟨taken, hresults, htakes.valid, ?_,
    htakes.sound (DeviceCatalog.sound_new limits), htakes.limits⟩
  intro key
  rw [htakes.resolve key]
  exact Option.or_none

end Import

end HartLink.Device

import HartLink.Device.Schema
import Mathlib.Order.Lattice

/-!
# The device catalog

A catalog holds one profile for each exact device revision.  It takes in valid
profiles only, up to a limit, from a caller, from JSON or from a package; the JSON
reader stands outside and is a parameter.
-/

namespace HartLink.Device

open HartLink.Foundation
open HartLink.Operation

def maximumCatalogProfiles : Nat := 65536
def maximumCatalogJsonBytes : Nat := 64 * 1024 * 1024
def maximumProfileTextBytes : Nat := 1024
def maximumProfileCommands : Nat := 4096

/-! ## Profiles -/

structure DeviceKey where
  expandedType : UInt16
  deviceRevision : UInt8
  deriving DecidableEq, Repr

/-- Keys are ordered by their type, and then by their revision. -/
def DeviceKey.rank (key : DeviceKey) : Nat :=
  256 * key.expandedType.toNat + key.deviceRevision.toNat

theorem DeviceKey.rank_injective : Function.Injective DeviceKey.rank := by
  rintro ⟨type, revision⟩ ⟨otherType, otherRevision⟩ h
  have hrevision := revision.toNat_lt
  have hother := otherRevision.toNat_lt
  simp only [DeviceKey.rank] at h
  rw [DeviceKey.mk.injEq, ← UInt16.toNat_inj, ← UInt8.toNat_inj]
  omega

instance : LinearOrder DeviceKey :=
  LinearOrder.lift' DeviceKey.rank DeviceKey.rank_injective

inductive ResponseCodeStatus where
  | success
  | warning
  | error
  deriving DecidableEq, Repr

structure ResponseCodeDefinition where
  status : ResponseCodeStatus
  description : String
  deriving DecidableEq, Repr

/-- The errors of profiles and catalogs, apart from those of one schema. -/
inductive ProfileError where
  | expandedDeviceType (expandedType : UInt16)
  | emptyProfileName
  | missingSourceRevision
  | profileTextTooLong (field : String) (bytes : Nat)
  | tooManyProfileCommands (count : Nat)
  | schema (error : SchemaError)
  | responseCode (code : UInt8)
  | emptyResponseCodeDescription (code : UInt8)
  | catalogProfileLimit (limit : Nat)
  deriving DecidableEq, Repr

def DeviceKey.new (expandedType : UInt16) (deviceRevision : UInt8) :
    Except ProfileError DeviceKey :=
  if expandedType > 0x3fff then .error (.expandedDeviceType expandedType)
  else .ok { expandedType, deviceRevision }

abbrev ResponseCodes := OrderedMap (Fin 256) ResponseCodeDefinition

structure DeviceProfile where
  key : DeviceKey
  displayName : String
  sourceRevision : String
  responses : OrderedMap (Fin 65536) DataSchema := {}
  responseCodes : OrderedMap (Fin 65536) ResponseCodes := {}
  deriving DecidableEq

namespace DeviceProfile

def withResponse (profile : DeviceProfile) (command : CommandCode)
    (schema : DataSchema) : DeviceProfile :=
  { profile with
    responses := profile.responses.insert command.get.toFin schema }

def withResponseCode (profile : DeviceProfile) (command : CommandCode)
    (code : UInt8) (definition : ResponseCodeDefinition) : DeviceProfile :=
  let codes := (profile.responseCodes.lookup command.get.toFin).getD {}
  { profile with
    responseCodes := profile.responseCodes.insert command.get.toFin
      (codes.insert code.toFin definition) }

def response (profile : DeviceProfile) (command : CommandCode) :
    Option DataSchema :=
  profile.responses.lookup command.get.toFin

def responseCode (profile : DeviceProfile) (command : CommandCode)
    (code : UInt8) : Option ResponseCodeDefinition :=
  (profile.responseCodes.lookup command.get.toFin).bind
    fun codes => codes.lookup code.toFin

def warningCodes (profile : DeviceProfile) (command : CommandCode) : Bytes :=
  ((profile.responseCodes.lookup command.get.toFin).map fun codes =>
    codes.entries.filterMap fun (code, definition) =>
      if definition.status = .warning then some (UInt8.ofFin code)
      else none).getD []

/-! ## Validation -/

def validateResponses :
    List (Fin 65536 × DataSchema) → Except ProfileError Unit
  | [] => .ok ()
  | (_, schema) :: responses =>
      match schema.validate with
      | .error error => .error (.schema error)
      | .ok _ => validateResponses responses

/-- The inner loop over the codes of one command. -/
def validateCodes :
    List (Fin 256 × ResponseCodeDefinition) → Except ProfileError Unit
  | [] => .ok ()
  | (code, definition) :: codes =>
      if UInt8.ofFin code &&& 0x80 ≠ 0 then
        .error (.responseCode (UInt8.ofFin code))
      else if isBlank definition.description then
        .error (.emptyResponseCodeDescription (UInt8.ofFin code))
      else if definition.description.utf8ByteSize > maximumProfileTextBytes then
        .error (.profileTextTooLong "response code description"
          definition.description.utf8ByteSize)
      else validateCodes codes

def validateAllCodes :
    List (Fin 65536 × ResponseCodes) → Except ProfileError Unit
  | [] => .ok ()
  | (_, codes) :: commands =>
      match validateCodes codes.entries with
      | .error error => .error error
      | .ok _ => validateAllCodes commands

def validate (profile : DeviceProfile) : Except ProfileError Unit :=
  if profile.key.expandedType > 0x3fff then
    .error (.expandedDeviceType profile.key.expandedType)
  else if isBlank profile.displayName then .error .emptyProfileName
  else if isBlank profile.sourceRevision then .error .missingSourceRevision
  else if profile.displayName.utf8ByteSize > maximumProfileTextBytes then
    .error (.profileTextTooLong "display_name" profile.displayName.utf8ByteSize)
  else if profile.sourceRevision.utf8ByteSize > maximumProfileTextBytes then
    .error (.profileTextTooLong "source_revision"
      profile.sourceRevision.utf8ByteSize)
  else if profile.responses.length > maximumProfileCommands ∨
      profile.responseCodes.length > maximumProfileCommands then
    .error (.tooManyProfileCommands
      (max profile.responses.length profile.responseCodes.length))
  else
    match validateResponses profile.responses.entries with
    | .error error => .error error
    | .ok _ => validateAllCodes profile.responseCodes.entries

end DeviceProfile

/-! ## Catalogs -/

structure CatalogLimits where
  profiles : Nat := 4096
  jsonBytes : Nat := 8 * 1024 * 1024
  deriving DecidableEq, Repr

/-- The errors of loading; `json` is what the JSON reader reports. -/
inductive CatalogLoadError (JsonError : Type) where
  | json (error : JsonError)
  | schema (error : ProfileError)
  | zeroLimit
  | profileConfigurationLimit (profiles : Nat)
  | jsonConfigurationLimit (bytes : Nat)
  | jsonLimit (actual maximum : Nat)
  deriving DecidableEq, Repr

def CatalogLimits.validate {JsonError : Type} (limits : CatalogLimits) :
    Except (CatalogLoadError JsonError) Unit :=
  if limits.profiles = 0 ∨ limits.jsonBytes = 0 then .error .zeroLimit
  else if limits.profiles > maximumCatalogProfiles then
    .error (.profileConfigurationLimit limits.profiles)
  else if limits.jsonBytes > maximumCatalogJsonBytes then
    .error (.jsonConfigurationLimit limits.jsonBytes)
  else .ok ()

structure DeviceCatalog where
  profiles : OrderedMap DeviceKey DeviceProfile := {}
  limits : CatalogLimits := {}
  deriving DecidableEq

namespace DeviceCatalog

def withLimits {JsonError : Type} (limits : CatalogLimits) :
    Except (CatalogLoadError JsonError) DeviceCatalog := do
  limits.validate
  return { limits }

/-- A profile of a new revision needs room; one of a known revision has it. -/
def insert (catalog : DeviceCatalog) (profile : DeviceProfile) :
    Except ProfileError (Option DeviceProfile) × DeviceCatalog :=
  match profile.validate with
  | .error error => (.error error, catalog)
  | .ok _ =>
      if (catalog.profiles.lookup profile.key).isNone ∧
          catalog.profiles.length ≥ catalog.limits.profiles then
        (.error (.catalogProfileLimit catalog.limits.profiles), catalog)
      else
        (.ok (catalog.profiles.lookup profile.key),
          { catalog with
            profiles := catalog.profiles.insert profile.key profile })

def resolve (catalog : DeviceCatalog) (key : DeviceKey) :
    Option DeviceProfile :=
  catalog.profiles.lookup key

section Json

variable {JsonError : Type} (fromSlice : Bytes → Except JsonError DeviceProfile)

def loadJson (catalog : DeviceCatalog) (bytes : Bytes) :
    Except (CatalogLoadError JsonError) DeviceKey × DeviceCatalog :=
  if bytes.length > catalog.limits.jsonBytes then
    (.error (.jsonLimit bytes.length catalog.limits.jsonBytes), catalog)
  else
    match fromSlice bytes with
    | .error error => (.error (.json error), catalog)
    | .ok profile =>
        match catalog.insert profile with
        | (.error error, catalog) => (.error (.schema error), catalog)
        | (.ok _, catalog) => (.ok profile.key, catalog)

end Json

/-! ## What a catalog grows by -/

/-- Every profile is valid and under its own key, and there is room for all. -/
structure Sound (catalog : DeviceCatalog) : Prop where
  valid : ∀ key profile, catalog.resolve key = some profile →
    profile.validate = .ok () ∧ profile.key = key
  bounded : catalog.profiles.length ≤ catalog.limits.profiles

structure Takes (catalog : DeviceCatalog) (taken : List DeviceProfile)
    (next : DeviceCatalog) : Prop where
  valid : ∀ profile ∈ taken, profile.validate = .ok ()
  profiles : next.profiles = taken.foldl
    (fun profiles profile => profiles.insert profile.key profile)
    catalog.profiles
  limits : next.limits = catalog.limits
  bounded : catalog.profiles.length ≤ catalog.limits.profiles →
    next.profiles.length ≤ next.limits.profiles

theorem Takes.refl (catalog : DeviceCatalog) : catalog.Takes [] catalog :=
  ⟨nofun, rfl, rfl, id⟩

theorem Takes.trans {catalog middle next : DeviceCatalog}
    {taken later : List DeviceProfile} (h : catalog.Takes taken middle)
    (hlater : middle.Takes later next) :
    catalog.Takes (taken ++ later) next := by
  refine ⟨?_, ?_, hlater.limits.trans h.limits, ?_⟩
  · intro profile hprofile
    exact (List.mem_append.mp hprofile).elim (h.valid profile)
      (hlater.valid profile)
  · rw [hlater.profiles, h.profiles, List.foldl_append]
  · exact fun hbounded => hlater.bounded (h.bounded hbounded)

theorem insert_cases (catalog : DeviceCatalog) (profile : DeviceProfile) :
    (∃ error, catalog.insert profile = (.error error, catalog) ∧
        (profile.validate = .error error ∨
          error = .catalogProfileLimit catalog.limits.profiles)) ∨
      ∃ next, catalog.insert profile =
          (.ok (catalog.resolve profile.key), next) ∧
        catalog.Takes [profile] next := by
  unfold insert
  cases hvalid : profile.validate with
  | error error => exact .inl ⟨error, rfl, .inl rfl⟩
  | ok value =>
      dsimp only
      split_ifs with hfull
      · exact .inl ⟨_, rfl, .inr rfl⟩
      · refine .inr ⟨_, rfl, ?_, rfl, rfl, ?_⟩
        · intro other hother
          rw [List.mem_singleton] at hother
          rw [hother]
          exact hvalid
        · intro hbounded
          have hlength := catalog.profiles.length_insert profile.key profile
          have hkey := @OrderedMap.lookup_eq_none_iff _ _ _ catalog.profiles
            profile.key
          rw [not_and_or, Option.isNone_iff_eq_none] at hfull
          dsimp only
          split_ifs at hlength with hmem
          · omega
          · have hroom := hfull.resolve_left (not_not.mpr (hkey.mpr hmem))
            omega

theorem loadJson_cases {JsonError : Type}
    (fromSlice : Bytes → Except JsonError DeviceProfile)
    (catalog : DeviceCatalog) (bytes : Bytes) :
    (∃ error, catalog.loadJson fromSlice bytes = (.error error, catalog) ∧
        ((∃ actual maximum, error = .jsonLimit actual maximum) ∨
          (∃ limit, error = .schema (.catalogProfileLimit limit)) ∨
          (∃ reason, fromSlice bytes = .error reason) ∨
          ∃ profile reason, fromSlice bytes = .ok profile ∧
            profile.validate = .error reason)) ∨
      ∃ profile next, fromSlice bytes = .ok profile ∧
        catalog.loadJson fromSlice bytes = (.ok profile.key, next) ∧
        catalog.Takes [profile] next := by
  unfold loadJson
  split_ifs with hlong
  · exact .inl ⟨_, rfl, .inl ⟨_, _, rfl⟩⟩
  cases hparsed : fromSlice bytes with
  | error error => exact .inl ⟨_, rfl, .inr (.inr (.inl ⟨error, rfl⟩))⟩
  | ok profile =>
      dsimp only
      obtain ⟨error, hinsert, hreason⟩ | ⟨next, hinsert, htakes⟩ :=
        catalog.insert_cases profile
      · rw [hinsert]
        refine .inl ⟨_, rfl, ?_⟩
        rcases hreason with hinvalid | rfl
        · exact .inr (.inr (.inr ⟨profile, error, rfl, hinvalid⟩))
        · exact .inr (.inl ⟨_, rfl⟩)
      · rw [hinsert]
        exact .inr ⟨profile, next, rfl, rfl, htakes⟩

theorem lookup_foldl_insert (profiles : OrderedMap DeviceKey DeviceProfile)
    (taken : List DeviceProfile) (key : DeviceKey) :
    (taken.foldl (fun profiles profile => profiles.insert profile.key profile)
        profiles).lookup key =
      (taken.reverse.find? fun profile => profile.key = key).or
        (profiles.lookup key) := by
  induction taken generalizing profiles with
  | nil => rfl
  | cons profile taken ih =>
      rw [List.foldl_cons, ih, OrderedMap.lookup_insert, List.reverse_cons,
        List.find?_append, Option.or_assoc]
      congr 1
      by_cases hkey : profile.key = key
      · rw [if_pos hkey.symm]
        simp [hkey]
      · rw [if_neg (Ne.symm hkey)]
        simp [hkey]

theorem Takes.resolve {catalog next : DeviceCatalog}
    {taken : List DeviceProfile} (h : catalog.Takes taken next)
    (key : DeviceKey) :
    next.resolve key =
      (taken.reverse.find? fun profile => profile.key = key).or
        (catalog.resolve key) := by
  rw [DeviceCatalog.resolve, h.profiles, lookup_foldl_insert]
  rfl

theorem Takes.sound {catalog next : DeviceCatalog}
    {taken : List DeviceProfile} (h : catalog.Takes taken next)
    (hsound : catalog.Sound) : next.Sound := by
  refine ⟨?_, h.bounded hsound.bounded⟩
  intro key profile hprofile
  rw [h.resolve key, Option.or_eq_some_iff] at hprofile
  rcases hprofile with hfound | ⟨-, hold⟩
  · have hkey := List.find?_some hfound
    have hmem := List.mem_of_find?_eq_some hfound
    rw [List.mem_reverse] at hmem
    exact ⟨h.valid profile hmem, of_decide_eq_true hkey⟩
  · exact hsound.valid key profile hold

theorem sound_new (limits : CatalogLimits) :
    Sound { limits } :=
  ⟨(fun _ _ h => nomatch h), Nat.zero_le _⟩

end DeviceCatalog

end HartLink.Device

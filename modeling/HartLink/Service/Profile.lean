import HartLink.Foundation.Table
import HartLink.Operation.Text
import HartLink.Service.Link

/-!
# Line profiles

A profile lists the modules of a line with the polling addresses behind each of
them.  `validate` walks over all translated addresses and refuses a profile in
which one of them comes up twice.
-/

namespace HartLink.Service

open HartLink.Foundation
open HartLink.Wire
open HartLink.Operation (isWhitespace)

def maximumProfileNameBytes : Nat := 256
def maximumProfileModules : Nat := 64
def maximumProfileDuration : Nat := 24 * 60 * 60 * 1000000000
def maximumProfileWakePrefix : Nat := 256

inductive ProfileError where
  | emptyName
  | nameLength (length : Nat)
  | pollingWindow (first last : UInt8)
  | preambles (count : UInt8)
  | wakePrefix (length : Nat)
  | zeroTimeout
  | duration (duration : Nat)
  | noModules
  | moduleLimit (count : Nat)
  | duplicateModule (module : UInt16)
  | unreachableModule (module : UInt16)
  | addressOverlap (address : UInt8) (firstModule secondModule : UInt16)
  deriving DecidableEq, Repr

/-! ## Windows -/

structure PollingWindow where
  first : UInt8
  last : UInt8
  deriving DecidableEq, Repr

namespace PollingWindow

def new (first last : UInt8) : Except ProfileError PollingWindow :=
  if last < first ∨ 63 < last then .error (.pollingWindow first last)
  else .ok { first, last }

def iter (window : PollingWindow) : List UInt8 :=
  (List.range' window.first.toNat
    (window.last.toNat + 1 - window.first.toNat)).map UInt8.ofNat

def contains (window : PollingWindow) (localAddress : UInt8) : Bool :=
  window.first ≤ localAddress ∧ localAddress ≤ window.last

end PollingWindow

structure ModuleWindow where
  module : UInt16
  polling : PollingWindow
  addressShift : Int8
  deriving DecidableEq, Repr

def shiftedAddress (module : ModuleWindow) (localAddress : UInt8) :
    Option UInt8 :=
  if ¬ module.polling.contains localAddress then none
  else
    let shifted : Int := localAddress.toNat + module.addressShift.toInt
    (if 0 ≤ shifted ∧ shifted ≤ 255 then some (UInt8.ofNat shifted.toNat)
      else none).filter fun value => value ≤ 63

/-! ## Timing -/

structure TimingProfile where
  connectSettle : Nat := 500000000
  firstResponse : Nat := 5000000000
  steadyResponse : Nat := 1600000000
  scanInterval : Nat := 100000000
  deriving DecidableEq, Repr

def TimingProfile.validate (timing : TimingProfile) :
    Except ProfileError Unit :=
  if timing.firstResponse = 0 ∨ timing.steadyResponse = 0 then
    .error .zeroTimeout
  else
    [timing.connectSettle, timing.firstResponse, timing.steadyResponse,
      timing.scanInterval].forM fun duration =>
        if maximumProfileDuration < duration then .error (.duration duration)
        else .ok ()

structure AddressTiming where
  delayBeforeProbe : Nat := 0
  responseTimeout : Option Nat := none
  deriving DecidableEq, Repr

inductive AddressTimingError where
  | pollingAddress (address : UInt8)
  | zeroTimeout
  | duration (duration : Nat)
  deriving DecidableEq, Repr

def AddressTiming.validate (timing : AddressTiming) :
    Except AddressTimingError Unit :=
  if timing.responseTimeout = some 0 then .error .zeroTimeout
  else
    [timing.delayBeforeProbe, timing.responseTimeout.getD 0].forM
      fun duration =>
        if maximumProfileDuration < duration then .error (.duration duration)
        else .ok ()

structure AddressTimings where
  values : Table UInt8 AddressTiming := ∅

namespace AddressTimings

def insert (timings : AddressTimings) (pollingAddress : UInt8)
    (timing : AddressTiming) : Except AddressTimingError AddressTimings :=
  if 64 ≤ pollingAddress.toNat then .error (.pollingAddress pollingAddress)
  else timing.validate.map fun _ =>
    { values := timings.values.insert pollingAddress timing }

def get (timings : AddressTimings) (pollingAddress : UInt8) :
    Option AddressTiming :=
  timings.values.lookup pollingAddress

end AddressTimings

/-! ## Profiles -/

structure LineProfile where
  name : String
  timing : TimingProfile := {}
  modules : List ModuleWindow := []
  discoveryPreambles : UInt8 := 20
  wakePrefix : Bytes := []
  deriving DecidableEq, Repr

namespace LineProfile

def claimAddresses (current : ModuleWindow) :
    List UInt8 → Table UInt8 UInt16 → Bool →
      Except ProfileError (Table UInt8 UInt16 × Bool)
  | [], physicalAddresses, reachable => .ok (physicalAddresses, reachable)
  | localAddress :: locals, physicalAddresses, reachable =>
      match shiftedAddress current localAddress with
      | none => claimAddresses current locals physicalAddresses reachable
      | some address =>
          match physicalAddresses.lookup address with
          | some previous =>
              .error (.addressOverlap address previous current.module)
          | none =>
              claimAddresses current locals
                (physicalAddresses.insert address current.module) true

def validateModules :
    List ModuleWindow → Table UInt8 UInt16 → Except ProfileError Unit
  | [], _ => .ok ()
  | current :: rest, physicalAddresses => do
      let _ ← PollingWindow.new current.polling.first current.polling.last
      if rest.any fun other => other.module = current.module then
        .error (.duplicateModule current.module)
      let (physicalAddresses, reachable) ←
        claimAddresses current current.polling.iter physicalAddresses false
      if ¬ reachable then .error (.unreachableModule current.module)
      validateModules rest physicalAddresses

def validate (profile : LineProfile) : Except ProfileError Unit := do
  if profile.name.toList.all isWhitespace then .error .emptyName
  if maximumProfileNameBytes < profile.name.utf8ByteSize then
    .error (.nameLength profile.name.utf8ByteSize)
  if profile.discoveryPreambles < 2 ∨ 40 < profile.discoveryPreambles then
    .error (.preambles profile.discoveryPreambles)
  if maximumProfileWakePrefix < profile.wakePrefix.length then
    .error (.wakePrefix profile.wakePrefix.length)
  profile.timing.validate
  if profile.modules = [] then .error .noModules
  if maximumProfileModules < profile.modules.length then
    .error (.moduleLimit profile.modules.length)
  validateModules profile.modules ∅

/-! ## Physical addresses -/

def physicalAddresses (modules : List ModuleWindow) : List UInt8 :=
  modules.flatMap fun module =>
    module.polling.iter.filterMap (shiftedAddress module)

def Claimed (addresses : List UInt8) (table : Table UInt8 UInt16) : Prop :=
  addresses.Nodup ∧ ∀ address, address ∈ table ↔ address ∈ addresses

theorem claimed_of_claimAddresses {current : ModuleWindow}
    {locals : List UInt8} {addresses : List UInt8}
    {table next : Table UInt8 UInt16} {reachable found : Bool}
    (h : Claimed addresses table)
    (hloop : claimAddresses current locals table reachable =
      .ok (next, found)) :
    Claimed (addresses ++ locals.filterMap (shiftedAddress current)) next := by
  induction locals generalizing addresses table reachable with
  | nil =>
      simp only [claimAddresses, Except.ok.injEq, Prod.mk.injEq] at hloop
      simpa [← hloop.1] using h
  | cons localAddress locals ih =>
      rw [claimAddresses] at hloop
      cases hshifted : shiftedAddress current localAddress with
      | none =>
          rw [hshifted] at hloop
          rw [List.filterMap_cons_none hshifted]
          exact ih h hloop
      | some address =>
          rw [hshifted] at hloop
          dsimp only at hloop
          cases hprevious : table.lookup address with
          | some previous =>
              rw [hprevious] at hloop
              contradiction
          | none =>
              rw [hprevious] at hloop
              have hfree : address ∉ addresses := by
                rw [← h.2]
                exact Finmap.lookup_eq_none.mp hprevious
              have hclaimed : Claimed (addresses ++ [address])
                  (table.insert address current.module) := by
                refine ⟨?_, ?_⟩
                · simpa [List.nodup_append] using ⟨h.1, fun other hother =>
                    ne_of_mem_of_not_mem hother hfree⟩
                · intro other
                  rw [Finmap.mem_insert, h.2]
                  simp [or_comm]
              have hrest := ih hclaimed hloop
              rw [List.filterMap_cons_some hshifted]
              simpa using hrest

theorem nodup_of_validateModules {modules : List ModuleWindow}
    {addresses : List UInt8} {table : Table UInt8 UInt16}
    (h : Claimed addresses table)
    (hloop : validateModules modules table = .ok ()) :
    (addresses ++ physicalAddresses modules).Nodup := by
  induction modules generalizing addresses table with
  | nil => simpa [physicalAddresses] using h.1
  | cons current rest ih =>
      simp only [validateModules, bind, Except.bind] at hloop
      split at hloop
      · contradiction
      split_ifs at hloop
      split at hloop
      · contradiction
      next claimed hclaims =>
        split_ifs at hloop
        have hcurrent := claimed_of_claimAddresses h hclaims
        simpa [physicalAddresses] using ih hcurrent hloop

theorem validateModules_of_validate {profile : LineProfile}
    (h : profile.validate = .ok ()) :
    validateModules profile.modules ∅ = .ok () := by
  simp only [validate, bind, Except.bind] at h
  cases htiming : profile.timing.validate with
  | error error =>
      rw [htiming] at h
      split_ifs at h
  | ok value =>
      rw [htiming] at h
      split_ifs at h
      exact h

theorem nodup_physicalAddresses {profile : LineProfile}
    (h : profile.validate = .ok ()) :
    (physicalAddresses profile.modules).Nodup := by
  have hempty : Claimed [] ∅ :=
    ⟨List.nodup_nil, fun address => iff_of_false Finmap.notMem_empty (by simp)⟩
  exact nodup_of_validateModules hempty (validateModules_of_validate h)

theorem le_of_shiftedAddress {module : ModuleWindow}
    {localAddress address : UInt8}
    (h : shiftedAddress module localAddress = some address) :
    address ≤ 63 := by
  unfold shiftedAddress at h
  split_ifs at h
  simpa using (Option.mem_filter_iff.mp h).2

end LineProfile

end HartLink.Service

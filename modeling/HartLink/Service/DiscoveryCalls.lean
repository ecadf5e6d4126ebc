import HartLink.Service.Discovery

/-!
# The entry points of discovery

Three functions start a scan.  All of them check the profile, two the options,
and one the policies that the timeouts of single addresses lead to.
-/

namespace HartLink.Service

open HartLink.Foundation
open HartLink.Wire
open HartLink.Operation

/-! ## Entry points -/

inductive DiscoveryError where
  | profile (error : ProfileError)
  | retry (error : RetryPolicyError)
  | passDelay (delay : Nat)
  deriving DecidableEq, Repr

def discoverLine (profile : LineProfile) (master : Master)
    (outcomes : Nat → Except RequestError DeviceReply) :
    Except ProfileError (List PassLog × DiscoveryReport) := do
  profile.validate
  return Discovery.discoverValidated { profile, master, outcomes }

def discoverLineWithOptions (profile : LineProfile) (master : Master)
    (options : DiscoveryOptions)
    (outcomes : Nat → Except RequestError DeviceReply) :
    Except DiscoveryError (List PassLog × DiscoveryReport) := do
  profile.validate.mapError .profile
  options.retry.validate.mapError .retry
  if maximumProfileDuration < options.passDelay then
    throw (.passDelay options.passDelay)
  return Discovery.discoverValidated { profile, master, options, outcomes }

def checkTimings (horizon : Nat) (readings : UInt8 → Nat)
    (retry : RetryPolicy) (addressTimings : AddressTimings) :
    Except RetryPolicyError Unit :=
  ((List.range 256).map UInt8.ofNat).forM fun address =>
    match (addressTimings.get address).bind (·.responseTimeout) with
    | some responseTimeout =>
        (discoveryRetry retry responseTimeout true).validateRuntime horizon
          (readings address)
    | none => .ok ()

def discoverLineWithAddressTimings (horizon : Nat) (readings : UInt8 → Nat)
    (profile : LineProfile) (master : Master) (options : DiscoveryOptions)
    (addressTimings : AddressTimings)
    (outcomes : Nat → Except RequestError DeviceReply) :
    Except DiscoveryError (List PassLog × DiscoveryReport) := do
  profile.validate.mapError .profile
  options.retry.validate.mapError .retry
  if maximumProfileDuration < options.passDelay then
    throw (.passDelay options.passDelay)
  (checkTimings horizon readings options.retry addressTimings).mapError .retry
  return Discovery.discoverValidated { profile, master, options
                                       addressTimings := some addressTimings
                                       outcomes }

/-- A call of one of the three entry points, with what it is given. -/
inductive DiscoveryCall where
  | line
  | withOptions (options : DiscoveryOptions)
  | withAddressTimings (options : DiscoveryOptions)
      (addressTimings : AddressTimings)

namespace DiscoveryCall

def run (call : DiscoveryCall) (horizon : Nat) (readings : UInt8 → Nat)
    (profile : LineProfile) (master : Master)
    (outcomes : Nat → Except RequestError DeviceReply) :
    Except DiscoveryError (List PassLog × DiscoveryReport) :=
  match call with
  | .line => (discoverLine profile master outcomes).mapError .profile
  | .withOptions options =>
      discoverLineWithOptions profile master options outcomes
  | .withAddressTimings options addressTimings =>
      discoverLineWithAddressTimings horizon readings profile master options
        addressTimings outcomes

def discovery (call : DiscoveryCall) (profile : LineProfile)
    (master : Master) (outcomes : Nat → Except RequestError DeviceReply) :
    Discovery :=
  match call with
  | .line => { profile, master, outcomes }
  | .withOptions options => { profile, master, options, outcomes }
  | .withAddressTimings options addressTimings =>
      { profile, master, options, addressTimings := some addressTimings
        outcomes }

def options : DiscoveryCall → DiscoveryOptions
  | .line => {}
  | .withOptions options => options
  | .withAddressTimings options _ => options

def addressTimings : DiscoveryCall → Option AddressTimings
  | .line => none
  | .withOptions _ => none
  | .withAddressTimings _ addressTimings => some addressTimings

end DiscoveryCall

/-! ## Accepted calls -/

theorem forM_eq_ok {Error Entry : Type} {check : Entry → Except Error Unit}
    {entries : List Entry} (h : entries.forM check = .ok ()) :
    ∀ entry ∈ entries, check entry = .ok () := by
  induction entries with
  | nil => simp
  | cons first entries ih =>
      simp only [List.forM_eq_forM, List.forM_cons, bind, Except.bind] at h ih
      split at h
      · contradiction
      next value hfirst =>
        rw [List.forall_mem_cons]
        exact ⟨hfirst, ih h⟩

namespace LineProfile

theorem timing_of_validate {profile : LineProfile}
    (h : profile.validate = .ok ()) :
    0 < profile.timing.firstResponse ∧ 0 < profile.timing.steadyResponse := by
  simp only [validate, bind, Except.bind] at h
  cases htiming : profile.timing.validate with
  | error error =>
      rw [htiming] at h
      split_ifs at h
  | ok value =>
      unfold TimingProfile.validate at htiming
      split_ifs at htiming
      omega

theorem exists_of_claimAddresses {current : ModuleWindow}
    {locals : List UInt8} {table next : Table UInt8 UInt16}
    {reachable : Bool}
    (h : claimAddresses current locals table reachable = .ok (next, true)) :
    reachable = true ∨ locals.filterMap (shiftedAddress current) ≠ [] := by
  induction locals generalizing table reachable with
  | nil =>
      simp only [claimAddresses, Except.ok.injEq, Prod.mk.injEq] at h
      exact .inl h.2
  | cons localAddress locals ih =>
      rw [claimAddresses] at h
      cases hshifted : shiftedAddress current localAddress with
      | none =>
          rw [hshifted] at h
          rw [List.filterMap_cons_none hshifted]
          exact ih h
      | some address =>
          rw [List.filterMap_cons_some hshifted]
          exact .inr (List.cons_ne_nil _ _)

theorem physicalAddresses_ne_nil {profile : LineProfile}
    (h : profile.validate = .ok ()) :
    physicalAddresses profile.modules ≠ [] := by
  have hmodules : profile.modules ≠ [] := by
    simp only [validate, bind, Except.bind] at h
    cases htiming : profile.timing.validate with
    | error error =>
        rw [htiming] at h
        split_ifs at h
    | ok value =>
        rw [htiming] at h
        split_ifs at h
        assumption
  have hloop := validateModules_of_validate h
  cases hlist : profile.modules with
  | nil => exact absurd hlist hmodules
  | cons current rest =>
      rw [hlist] at hloop
      simp only [validateModules, bind, Except.bind] at hloop
      split at hloop
      · contradiction
      split_ifs at hloop
      split at hloop
      · contradiction
      next claimed hclaims =>
        obtain ⟨next, reachable⟩ := claimed
        split_ifs at hloop with hreachable
        have hreachable : reachable = true := hreachable
        subst hreachable
        have hsome := (exists_of_claimAddresses hclaims).resolve_left (by simp)
        rw [physicalAddresses, List.flatMap_cons]
        exact List.append_ne_nil_of_left_ne_nil hsome _

end LineProfile

namespace Discovery

/-- What the entry points have checked of a scan. -/
structure Accepted (discovery : Discovery) : Prop where
  profile : discovery.profile.validate = .ok ()
  timings : ∀ node responseTimeout,
    (discovery.addressTiming node).responseTimeout = some responseTimeout →
      0 < responseTimeout ∧ (discoveryRetry discovery.options.retry
        responseTimeout true).Executable

theorem accepted_of_none {discovery : Discovery}
    (hprofile : discovery.profile.validate = .ok ())
    (htimings : discovery.addressTimings = none) : discovery.Accepted := by
  refine ⟨hprofile, ?_⟩
  intro node responseTimeout htimeout
  simp [addressTiming, htimings] at htimeout

end Discovery

theorem executable_of_checkTimings {horizon : Nat} {readings : UInt8 → Nat}
    {retry : RetryPolicy} {addressTimings : AddressTimings}
    (h : checkTimings horizon readings retry addressTimings = .ok ())
    {node : UInt8} {responseTimeout : Nat}
    (htimeout : (addressTimings.get node).bind (·.responseTimeout) =
      some responseTimeout) :
    0 < responseTimeout ∧
      (discoveryRetry retry responseTimeout true).Executable := by
  have hmem : node ∈ (List.range 256).map UInt8.ofNat := by
    rw [List.mem_map]
    exact ⟨node.toNat, List.mem_range.mpr node.toNat_lt, by simp⟩
  have hcheck := forM_eq_ok h node hmem
  rw [htimeout] at hcheck
  obtain ⟨hpositive, hlimits, -⟩ :=
    (RetryPolicy.validateRuntime_ok_iff _ _ _).mp hcheck
  exact ⟨hpositive.1, (RetryPolicy.executable_iff _).mpr
    ⟨hpositive, hlimits⟩⟩

namespace DiscoveryCall

def check (call : DiscoveryCall) (horizon : Nat) (readings : UInt8 → Nat)
    (profile : LineProfile) : Except DiscoveryError Unit := do
  profile.validate.mapError .profile
  match call with
  | .line => return
  | .withOptions options =>
      options.retry.validate.mapError .retry
      if maximumProfileDuration < options.passDelay then
        throw (.passDelay options.passDelay)
  | .withAddressTimings options addressTimings =>
      options.retry.validate.mapError .retry
      if maximumProfileDuration < options.passDelay then
        throw (.passDelay options.passDelay)
      (checkTimings horizon readings options.retry
        addressTimings).mapError .retry

variable {call : DiscoveryCall} {horizon : Nat} {readings : UInt8 → Nat}
  {profile : LineProfile} {master : Master}

/-- Whether a call is accepted does not depend on what the link does. -/
theorem run_eq (call : DiscoveryCall) (horizon : Nat)
    (readings : UInt8 → Nat) (profile : LineProfile) (master : Master)
    (outcomes : Nat → Except RequestError DeviceReply) :
    call.run horizon readings profile master outcomes =
      (call.check horizon readings profile).map fun _ =>
        (call.discovery profile master outcomes).discoverValidated := by
  unfold run check discovery
  cases hprofile : profile.validate with
  | error error =>
      cases call with
      | line => simp [discoverLine, hprofile, bind, Except.bind,
          Except.mapError, Except.map]
      | withOptions options => simp [discoverLineWithOptions, hprofile, bind,
          Except.bind, Except.mapError, Except.map]
      | withAddressTimings options addressTimings =>
          simp [discoverLineWithAddressTimings, hprofile, bind, Except.bind,
            Except.mapError, Except.map]
  | ok value =>
  cases call with
  | line => simp [discoverLine, hprofile, bind, Except.bind, Except.mapError,
      Except.map, pure, Except.pure]
  | withOptions options =>
      simp only [discoverLineWithOptions, hprofile, bind, Except.bind,
        Except.mapError, pure, Except.pure]
      cases options.retry.validate with
      | error error => rfl
      | ok value =>
          dsimp only
          split_ifs <;> rfl
  | withAddressTimings options addressTimings =>
      simp only [discoverLineWithAddressTimings, hprofile, bind, Except.bind,
        Except.mapError, pure, Except.pure]
      cases options.retry.validate with
      | error error => rfl
      | ok value =>
          cases checkTimings horizon readings options.retry
              addressTimings with
          | error error =>
              dsimp only
              split_ifs <;> rfl
          | ok value =>
              dsimp only
              split_ifs <;> rfl

theorem accepted_of_check
    (h : call.check horizon readings profile = .ok ())
    (outcomes : Nat → Except RequestError DeviceReply) :
    (call.discovery profile master outcomes).Accepted := by
  unfold check at h
  cases hprofile : profile.validate with
  | error error => simp [hprofile, Except.mapError, bind, Except.bind] at h
  | ok value =>
  cases call with
  | line => exact Discovery.accepted_of_none hprofile rfl
  | withOptions options => exact Discovery.accepted_of_none hprofile rfl
  | withAddressTimings options addressTimings =>
      refine ⟨hprofile, ?_⟩
      have hchecked : checkTimings horizon readings options.retry
          addressTimings = .ok () := by
        rw [hprofile] at h
        cases hretry : options.retry.validate with
        | error error => simp [hretry, Except.mapError, bind, Except.bind] at h
        | ok value =>
            cases hcheck : checkTimings horizon readings options.retry
                addressTimings with
            | ok value => rfl
            | error error =>
                simp only [hretry, hcheck, Except.mapError, bind,
                  Except.bind] at h
                split_ifs at h
      intro node responseTimeout htimeout
      refine @executable_of_checkTimings _ _ _ _ hchecked node _ ?_
      change ((addressTimings.get node).getD {}).responseTimeout =
        some responseTimeout at htimeout
      cases hget : addressTimings.get node with
      | none =>
          rw [hget] at htimeout
          contradiction
      | some timing =>
          rw [hget] at htimeout
          exact htimeout

end DiscoveryCall

end HartLink.Service

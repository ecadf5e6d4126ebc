import HartLink.Service.DiscoveryCalls

/-!
# The policies of probes

A scan derives the policy of every probe from the options, the timing of the
profile and the timing of the address.  The total is the time of all attempts
and waits, and a link takes no policy whose total exceeds a day.  In settings
that last, no scan comes to such a policy.
-/

namespace HartLink.Service

open HartLink.Foundation
open HartLink.Wire
open HartLink.Operation

/-! ## Totals -/

def RetryPolicy.FitsDay (retry : RetryPolicy)
    (responseTimeout transportRetries : Nat) : Prop :=
  responseTimeout * (1 + transportRetries + (retry.busyRetries.toNat +
      retry.delayedResponsePolls.toNat)) +
    retry.retryDelay * (retry.busyRetries.toNat +
      retry.delayedResponsePolls.toNat) ≤ maximumRetryDuration

instance (retry : RetryPolicy) (responseTimeout transportRetries : Nat) :
    Decidable (retry.FitsDay responseTimeout transportRetries) :=
  inferInstanceAs (Decidable (_ ≤ _))

theorem RetryPolicy.FitsDay.mono {retry : RetryPolicy}
    {responseTimeout transportRetries fewer : Nat}
    (h : retry.FitsDay responseTimeout transportRetries)
    (hfewer : fewer ≤ transportRetries) :
    retry.FitsDay responseTimeout fewer := by
  unfold FitsDay at h ⊢
  refine le_trans (Nat.add_le_add_right (Nat.mul_le_mul_left _ ?_) _) h
  omega

/-- The sums saturate only far above a day. -/
theorem executable_discoveryRetry_iff (retry : RetryPolicy)
    {responseTimeout : Nat} (hpositive : 0 < responseTimeout)
    (allowTransportRetries : Bool) :
    (discoveryRetry retry responseTimeout
        allowTransportRetries).Executable ↔
      retry.retryDelay ≤ maximumRetryDuration ∧
        retry.FitsDay responseTimeout
          (if allowTransportRetries then retry.transportRetries.toNat
            else 0) := by
  rw [RetryPolicy.executable_iff]
  have htransport : (if allowTransportRetries then retry.transportRetries
      else 0).toNat = if allowTransportRetries then
        retry.transportRetries.toNat else 0 := by
    cases allowTransportRetries <;> rfl
  simp only [discoveryRetry, RetryPolicy.FitsDay, htransport]
  generalize (if allowTransportRetries = true then
    retry.transportRetries.toNat else 0) = transportRetries
  generalize retry.busyRetries.toNat + retry.delayedResponsePolls.toNat = waits
  have hattempt : responseTimeout ≤
      responseTimeout * (1 + transportRetries + waits) :=
    Nat.le_mul_of_pos_right _ (by omega)
  generalize responseTimeout * (1 + transportRetries + waits) = attempts at *
  generalize retry.retryDelay * waits = delays
  unfold maximumRetryDuration maximumDuration
  omega

/-! ## The policies of a visit -/

namespace Discovery

section Visits

variable {discovery : Discovery}

def probePolicy (discovery : Discovery) (node : UInt8)
    (hintedProbe noDevicesFound : Bool) : RetryPolicy :=
  discoveryRetry discovery.options.retry
    (discoveryResponseTimeout discovery.profile (discovery.addressTiming node)
      hintedProbe noDevicesFound) (!hintedProbe)

theorem retry_sendProbe (discovery : Discovery) (module : UInt16)
    (address : Address) (node : UInt8) (hinted : Option UInt8) (probe : Nat)
    (preambles : UInt8) (scan : Scan) :
    (discovery.sendProbe module address (discovery.addressTiming node) hinted
        probe preambles scan).1.retry =
      discovery.probePolicy node (hinted.isSome ∧ probe = 0)
        scan.report.devices.isEmpty := by
  have hallow : decide (probe ≠ 0 ∨ hinted = none) =
      !decide (hinted.isSome ∧ probe = 0) := by
    cases hinted <;> by_cases hprobe : probe = 0 <;> simp [hprobe]
  simp only [sendProbe, probePolicy, hallow]

theorem probeAddress_eq (discovery : Discovery) (pass : Nat)
    (module : UInt16) (node : UInt8) (address : Address) (scan : Scan) :
    let hinted := discovery.hinted pass address
    let conservative := discovery.profile.discoveryPreambles
    let first := discovery.sendProbe module address
      (discovery.addressTiming node) hinted 0 (hinted.getD conservative) scan
    let second := discovery.sendProbe module address
      (discovery.addressTiming node) hinted 1 conservative first.2.1
    discovery.probeAddress pass module node address scan =
      if first.2.2 = true ∧ hinted.isSome then
        ([first.1, second.1], second.2.1)
      else ([first.1], first.2.1) := by
  intro hinted conservative first second
  have hfirst : discovery.sendProbe module address
      (discovery.addressTiming node) hinted 0 (hinted.getD conservative)
      scan = first := rfl
  unfold probeAddress
  simp only [probeLoop]
  rw [if_neg (by simp), hfirst]
  cases hagain : first.2.2 with
  | false => simp
  | true =>
      by_cases hsome : hinted = none
      · have hnone : discovery.hinted pass address = none := hsome
        simp [hnone, hsome]
      · have hnotNone : discovery.hinted pass address ≠ none := hsome
        have hisSome : hinted.isSome = true :=
          Option.isSome_iff_ne_none.mpr hsome
        simp only [hnotNone, hisSome, and_false, if_false, and_true, if_true]
        split_ifs <;> rfl

/-- Another probe follows only when nothing was found. -/
theorem devices_conclude_of_again {report : DiscoveryReport}
    {module : UInt16} {address : Address} {hintedProbe : Bool}
    {outcome : Except RequestError DeviceReply}
    (h : (conclude report module address hintedProbe outcome).2 = true) :
    (conclude report module address hintedProbe outcome).1.devices =
      report.devices := by
  unfold conclude at h ⊢
  cases outcome with
  | ok reply =>
      dsimp only at h
      split at h <;> contradiction
  | error error =>
      dsimp only at h ⊢
      split_ifs at h ⊢
      rfl

theorem retry_of_mem_probeAddress {pass : Nat} {module : UInt16}
    {node : UInt8} {address : Address} {scan : Scan} {probe : Probe}
    (h : probe ∈
      (discovery.probeAddress pass module node address scan).1) :
    (discovery.hinted pass address).isSome ∧ probe.retry =
        discovery.probePolicy node true scan.report.devices.isEmpty ∨
      probe.retry =
        discovery.probePolicy node false scan.report.devices.isEmpty := by
  have hfirst := discovery.retry_sendProbe module address node
    (discovery.hinted pass address) 0 ((discovery.hinted pass address).getD
      discovery.profile.discoveryPreambles) scan
  have heq := discovery.probeAddress_eq pass module node address scan
  dsimp only at heq
  rw [heq] at h
  split_ifs at h with hagain
  · rw [List.mem_cons, List.mem_singleton] at h
    rcases h with rfl | rfl
    · refine .inl ⟨hagain.2, ?_⟩
      rw [hfirst]
      simp [hagain.2]
    · right
      rw [retry_sendProbe]
      congr 1
      · simp
      · rw [sendProbe, devices_conclude_of_again hagain.1]
  · rw [List.mem_singleton] at h
    subst h
    rw [hfirst]
    cases hsome : (discovery.hinted pass address).isSome with
    | true => exact .inl ⟨rfl, by simp⟩
    | false => exact .inr (by simp)

end Visits

/-! ## The stops of a pass -/

section Stops

variable {discovery : Discovery}

def stops (modules : List ModuleWindow) : List (UInt16 × UInt8) :=
  modules.flatMap fun module =>
    (module.polling.iter.filterMap (shiftedAddress module)).map
      fun node => (module.module, node)

theorem map_snd_stops (modules : List ModuleWindow) :
    (stops modules).map Prod.snd = LineProfile.physicalAddresses modules := by
  simp [stops, LineProfile.physicalAddresses, List.map_flatMap,
    Function.comp_def]

def visitStop (discovery : Discovery) (pass : Nat) (state : PassState)
    (stop : UInt16 × UInt8) : PassState :=
  discovery.visitAddress pass stop.1 stop.2
    (.Polling stop.2 discovery.master) state

theorem visits_visitStop (discovery : Discovery) (pass : Nat)
    (state : PassState) (stop : UInt16 × UInt8) :
    (discovery.visitStop pass state stop).visits =
      if .Polling stop.2 discovery.master ∈ state.visited ∨
          state.scan.report.devices.any (fun device =>
            device.address = .Polling stop.2 discovery.master) then
        state.visits
      else
        state.visits ++ [⟨.Polling stop.2 discovery.master,
          (discovery.probeAddress pass stop.1 stop.2
            (.Polling stop.2 discovery.master) state.scan).1⟩] := by
  unfold visitStop visitAddress
  dsimp only
  split_ifs <;> rfl

theorem foldl_visitLocal (pass : Nat) (module : ModuleWindow)
    (locals : List UInt8) (state : PassState) :
    locals.foldl (discovery.visitLocal pass module) state =
      ((locals.filterMap (shiftedAddress module)).map
        fun node => (module.module, node)).foldl
          (discovery.visitStop pass) state := by
  induction locals generalizing state with
  | nil => rfl
  | cons localAddress locals ih =>
      rw [List.foldl_cons, ih]
      cases hshifted : shiftedAddress module localAddress with
      | none =>
          rw [List.filterMap_cons_none hshifted]
          simp [visitLocal, hshifted]
      | some node =>
          rw [List.filterMap_cons_some hshifted, List.map_cons,
            List.foldl_cons, visitLocal_of_some state hshifted]
          rfl

theorem scanPass_eq (discovery : Discovery) (pass : Nat) (scan : Scan) :
    discovery.scanPass pass scan =
      (stops discovery.profile.modules).foldl (discovery.visitStop pass)
        { scan } := by
  unfold scanPass stops
  generalize ({ scan } : PassState) = state
  induction discovery.profile.modules generalizing state with
  | nil => rfl
  | cons module modules ih =>
      rw [List.foldl_cons, ih, List.flatMap_cons, List.foldl_append,
        foldl_visitLocal]

end Stops

end Discovery

/-! ## Settings that last -/

def ownTimeout (addressTimings : Option AddressTimings) (node : UInt8) :
    Option Nat :=
  (addressTimings.bind fun timings => timings.get node).bind
    (·.responseTimeout)

/-- The first pass tries the address with fewer preambles. -/
def UsesHint (profile : LineProfile) (master : Master)
    (options : DiscoveryOptions) (node : UInt8) : Prop :=
  ∃ preambles, options.preambleHints.get (.Polling node master) =
    some preambles ∧ preambles < profile.discoveryPreambles

/--
The retry delay fits into a day, and so do the totals that an address without a
timeout of its own comes to: the one before a device is found, the one of a
hint, and the one after a device is found, if another address can have one by
then.
-/
structure Lasting (profile : LineProfile) (master : Master)
    (options : DiscoveryOptions) (addressTimings : Option AddressTimings) :
    Prop where
  delay : options.retry.retryDelay ≤ maximumRetryDuration
  first : ∀ node ∈ LineProfile.physicalAddresses profile.modules,
    ownTimeout addressTimings node = none →
    options.retry.FitsDay profile.timing.firstResponse
      options.retry.transportRetries.toNat
  hint : ∀ node ∈ LineProfile.physicalAddresses profile.modules,
    ownTimeout addressTimings node = none →
    UsesHint profile master options node →
    options.retry.FitsDay profile.timing.steadyResponse 0
  steady : ∀ index node,
    (LineProfile.physicalAddresses profile.modules)[index]? = some node →
    ownTimeout addressTimings node = none →
    (index ≠ 0 ∨ 2 ≤ options.passes.val.toNat ∧
      2 ≤ (LineProfile.physicalAddresses profile.modules).length) →
    options.retry.FitsDay profile.timing.steadyResponse
      options.retry.transportRetries.toNat

namespace Discovery

section Policies

variable {discovery : Discovery}

theorem addressTiming_responseTimeout (discovery : Discovery)
    (node : UInt8) :
    (discovery.addressTiming node).responseTimeout =
      ownTimeout discovery.addressTimings node := by
  unfold addressTiming ownTimeout
  cases discovery.addressTimings.bind fun timings => timings.get node <;> rfl

theorem Accepted.executable_of_own (h : discovery.Accepted) {node : UInt8}
    {responseTimeout : Nat}
    (hown : ownTimeout discovery.addressTimings node = some responseTimeout)
    (hintedProbe noDevicesFound : Bool) :
    (discovery.probePolicy node hintedProbe noDevicesFound).Executable := by
  rw [← addressTiming_responseTimeout] at hown
  obtain ⟨hpositive, hchecked⟩ := h.timings node responseTimeout hown
  have htimeout : discoveryResponseTimeout discovery.profile
      (discovery.addressTiming node) hintedProbe noDevicesFound =
        responseTimeout := by
    rw [discoveryResponseTimeout, hown, Option.getD_some]
  rw [executable_discoveryRetry_iff _ hpositive] at hchecked
  rw [probePolicy, htimeout, executable_discoveryRetry_iff _ hpositive]
  refine ⟨hchecked.1, hchecked.2.mono ?_⟩
  cases hintedProbe <;> simp

theorem Accepted.executable_iff (h : discovery.Accepted) {node : UInt8}
    (hown : ownTimeout discovery.addressTimings node = none)
    (hintedProbe noDevicesFound : Bool) :
    (discovery.probePolicy node hintedProbe noDevicesFound).Executable ↔
      discovery.options.retry.retryDelay ≤ maximumRetryDuration ∧
        discovery.options.retry.FitsDay
          (if hintedProbe ∨ ¬ noDevicesFound then
            discovery.profile.timing.steadyResponse
            else discovery.profile.timing.firstResponse)
          (if hintedProbe then 0
            else discovery.options.retry.transportRetries.toNat) := by
  obtain ⟨hfirst, hsteady⟩ := LineProfile.timing_of_validate h.profile
  rw [← addressTiming_responseTimeout] at hown
  rw [probePolicy, discoveryResponseTimeout, hown, Option.getD_none,
    executable_discoveryRetry_iff]
  · cases hintedProbe <;> rfl
  · split_ifs
    · exact hsteady
    · exact hfirst

theorem Accepted.executable_probePolicy (h : discovery.Accepted)
    (hlasting : Lasting discovery.profile discovery.master discovery.options
      discovery.addressTimings) {index : Nat} {node : UInt8}
    (hnode : (LineProfile.physicalAddresses
      discovery.profile.modules)[index]? = some node)
    {hintedProbe noDevicesFound : Bool}
    (hhinted : hintedProbe = true →
      UsesHint discovery.profile discovery.master discovery.options node)
    (hfound : noDevicesFound = false → index ≠ 0 ∨
      2 ≤ discovery.options.passes.val.toNat ∧
        2 ≤ (LineProfile.physicalAddresses
          discovery.profile.modules).length) :
    (discovery.probePolicy node hintedProbe noDevicesFound).Executable := by
  have hmem := List.mem_of_getElem? hnode
  cases hown : ownTimeout discovery.addressTimings node with
  | some responseTimeout =>
      exact h.executable_of_own hown hintedProbe noDevicesFound
  | none =>
      rw [h.executable_iff hown]
      refine ⟨hlasting.delay, ?_⟩
      cases hintedProbe with
      | true => exact hlasting.hint node hmem hown (hhinted rfl)
      | false =>
          cases noDevicesFound with
          | true => exact hlasting.first node hmem hown
          | false => exact hlasting.steady index node hnode hown (hfound rfl)

end Policies

/-! ## Lasting settings give executable probes -/

section Sufficient

variable {discovery : Discovery} {pass : Nat} {start : DiscoveryReport}

def stopAddress (discovery : Discovery) (stop : UInt16 × UInt8) : Address :=
  .Polling stop.2 discovery.master

theorem map_stopAddress_stops (discovery : Discovery) :
    (stops discovery.profile.modules).map discovery.stopAddress =
      discovery.addresses := by
  unfold addresses
  rw [← map_snd_stops, List.map_map]
  rfl

structure Begins (discovery : Discovery) (pass : Nat)
    (start : DiscoveryReport) : Prop where
  distinct : discovery.Distinct start
  bound : pass < discovery.options.passes.val.toNat
  first : pass = 0 → start.devices = []

theorem Begins.meets (hbegins : discovery.Begins pass start)
    {passed : List Address} {state : PassState}
    (h : Passing discovery pass start passed state) {address : Address}
    (hmem : address ∈ discovery.addresses)
    (hmissing : address ∉ start.devices.map DiscoveredDevice.address)
    (hfound : state.scan.report.devices.isEmpty = false) :
    passed.length ≠ 0 ∨ 2 ≤ discovery.options.passes.val.toNat ∧
      2 ≤ (LineProfile.physicalAddresses
        discovery.profile.modules).length := by
  by_cases hpassed : passed = []
  swap
  · exact .inl fun hlength => hpassed (List.length_eq_zero_iff.mp hlength)
  right
  have hvisits : state.visits = [] := by
    have hnone := h.visits
    rw [hpassed, List.filter_nil] at hnone
    exact List.map_eq_nil_iff.mp hnone
  have hdevices := h.devices
  rw [hvisits, found, List.filter_nil, List.map_nil,
    List.append_nil] at hdevices
  obtain ⟨other, hother⟩ : ∃ other,
      other ∈ start.devices.map DiscoveredDevice.address := by
    rw [← hdevices]
    cases hlist : state.scan.report.devices with
    | nil =>
        rw [hlist] at hfound
        contradiction
    | cons device devices => exact ⟨device.address, by simp⟩
  have hlater : pass ≠ 0 := by
    intro hzero
    rw [hbegins.first hzero] at hother
    contradiction
  have hbound := hbegins.bound
  refine ⟨by omega, ?_⟩
  have hlength : discovery.addresses.length = (LineProfile.physicalAddresses
      discovery.profile.modules).length := by
    rw [addresses, List.length_map]
  rw [← hlength]
  have hpair : [address, other].Subperm discovery.addresses := by
    refine List.subperm_of_subset ?_ ?_
    · rw [List.nodup_cons, List.mem_singleton]
      exact ⟨fun hsame => hmissing (hsame ▸ hother), List.nodup_singleton _⟩
    · intro member hmember
      rw [List.mem_cons, List.mem_singleton] at hmember
      rcases hmember with rfl | rfl
      · exact hmem
      · exact hbegins.distinct.2 _ hother
  exact hpair.length_le

/-- Every probe so far has an executable policy. -/
def AllExecutable (visits : List Visit) : Prop :=
  ∀ visit ∈ visits, ∀ probe ∈ visit.probes, probe.retry.Executable

theorem Begins.visitStop (hbegins : discovery.Begins pass start)
    (haccepted : discovery.Accepted)
    (hlasting : Lasting discovery.profile discovery.master discovery.options
      discovery.addressTimings)
    {before after : List (UInt16 × UInt8)} {stop : UInt16 × UInt8}
    (hstops : stops discovery.profile.modules = before ++ stop :: after)
    {state : PassState}
    (h : Passing discovery pass start (before.map discovery.stopAddress)
      state) (hall : AllExecutable state.visits) :
    Passing discovery pass start
        ((before ++ [stop]).map discovery.stopAddress)
        (discovery.visitStop pass state stop) ∧
      AllExecutable (discovery.visitStop pass state stop).visits := by
  have haddresses := discovery.map_stopAddress_stops
  rw [hstops, List.map_append, List.map_cons] at haddresses
  have hnodup := nodup_addresses haccepted.profile
  rw [← haddresses, List.nodup_middle, List.nodup_cons,
    List.mem_append, not_or] at hnodup
  have hmem : discovery.stopAddress stop ∈ discovery.addresses := by
    rw [← haddresses]
    exact List.mem_append_right _ List.mem_cons_self
  have hnode : (LineProfile.physicalAddresses
      discovery.profile.modules)[before.length]? = some stop.2 := by
    rw [← map_snd_stops, hstops]
    simp
  have hnew := hnodup.1.1
  refine ⟨?_, ?_⟩
  · rw [List.map_append]
    exact h.visitAddress stop.1 stop.2 hnew
  · rw [visits_visitStop]
    split_ifs with hskip
    · exact hall
    · have hmissing : discovery.stopAddress stop ∉
          start.devices.map DiscoveredDevice.address :=
        fun hmem => hskip ((h.skips_iff hnew).mpr hmem)
      intro visit hvisit
      rcases List.mem_append.mp hvisit with hvisit | hvisit
      · exact hall visit hvisit
      · rw [List.mem_singleton] at hvisit
        subst hvisit
        intro probe hprobe
        have hmeets := hbegins.meets h hmem hmissing
        rw [List.length_map] at hmeets
        rcases retry_of_mem_probeAddress hprobe with ⟨hhinted, hretry⟩ | hretry
        · rw [hretry]
          refine haccepted.executable_probePolicy hlasting hnode ?_ hmeets
          intro _
          exact ((discovery.hinted_isSome_iff pass _).mp hhinted).2
        · rw [hretry]
          exact haccepted.executable_probePolicy hlasting hnode nofun hmeets

theorem Begins.visitStops (hbegins : discovery.Begins pass start)
    (haccepted : discovery.Accepted)
    (hlasting : Lasting discovery.profile discovery.master discovery.options
      discovery.addressTimings)
    {before after : List (UInt16 × UInt8)}
    (hstops : stops discovery.profile.modules = before ++ after)
    {state : PassState}
    (h : Passing discovery pass start (before.map discovery.stopAddress)
      state) (hall : AllExecutable state.visits) :
    AllExecutable (after.foldl (discovery.visitStop pass) state).visits := by
  induction after generalizing before state with
  | nil => exact hall
  | cons stop after ih =>
      obtain ⟨hnext, hmore⟩ := hbegins.visitStop haccepted hlasting hstops h
        hall
      rw [List.foldl_cons]
      exact ih (by rw [hstops, List.append_assoc, List.singleton_append])
        hnext hmore

theorem executable_scanPass (haccepted : discovery.Accepted)
    (hlasting : Lasting discovery.profile discovery.master discovery.options
      discovery.addressTimings) {scan : Scan}
    (hbegins : discovery.Begins pass scan.report) :
    AllExecutable (discovery.scanPass pass scan).visits := by
  rw [scanPass_eq]
  refine hbegins.visitStops haccepted hlasting (List.nil_append _).symm
    (passing_start pass scan) ?_
  intro visit hvisit
  contradiction

def afterPass (discovery : Discovery) (pass : Nat) (scan : Scan) : Scan :=
  { (discovery.scanPass pass scan).scan with
    report := { (discovery.scanPass pass scan).scan.report with
      passesCompleted := min (pass + 1) 255 } }

theorem requests_scanPasses (discovery : Discovery) (remaining pass : Nat)
    (scan : Scan) :
    requests (discovery.scanPasses (remaining + 1) pass scan).1 =
      (discovery.scanPass pass scan).visits.flatMap Visit.probes ++
        if (discovery.scanPass pass scan).visited.length ≤
            (discovery.scanPass pass scan).scan.report.devices.length then []
        else requests (discovery.scanPasses remaining (pass + 1)
          (discovery.afterPass pass scan)).1 := by
  simp only [scanPasses]
  split_ifs
  · simp [requests]
  · simp only [requests, List.flatMap_cons]
    rfl

theorem executable_scanPasses (haccepted : discovery.Accepted)
    (hlasting : Lasting discovery.profile discovery.master discovery.options
      discovery.addressTimings) {remaining : Nat} {scan : Scan}
    (hdistinct : discovery.Distinct scan.report)
    (hbound : pass + remaining ≤ discovery.options.passes.val.toNat)
    (hfirst : pass = 0 → scan.report.devices = []) :
    ∀ probe ∈ requests (discovery.scanPasses remaining pass scan).1,
      probe.retry.Executable := by
  induction remaining generalizing pass scan with
  | zero =>
      intro probe hprobe
      contradiction
  | succ remaining ih =>
      have hpass : AllExecutable (discovery.scanPass pass scan).visits :=
        executable_scanPass haccepted hlasting
          ⟨hdistinct, by omega, hfirst⟩
      have hnext : discovery.Distinct
          (discovery.scanPass pass scan).scan.report :=
        (passing_scanPass haccepted.profile pass scan).distinct
          haccepted.profile hdistinct
      have hvisited : ∀ probe ∈
          (discovery.scanPass pass scan).visits.flatMap Visit.probes,
          probe.retry.Executable := by
        intro probe hprobe
        obtain ⟨visit, hvisit, hmem⟩ := List.mem_flatMap.mp hprobe
        exact hpass visit hvisit probe hmem
      intro probe hprobe
      rw [requests_scanPasses] at hprobe
      rcases List.mem_append.mp hprobe with hprobe | hprobe
      · exact hvisited probe hprobe
      · split_ifs at hprobe
        · contradiction
        · exact @ih (pass + 1) (discovery.afterPass pass scan) hnext
            (by omega) (by simp) probe hprobe

theorem executable_discoverValidated (haccepted : discovery.Accepted)
    (hlasting : Lasting discovery.profile discovery.master discovery.options
      discovery.addressTimings) :
    ∀ probe ∈ requests discovery.discoverValidated.1,
      probe.retry.Executable :=
  executable_scanPasses haccepted hlasting ⟨List.nodup_nil, by simp⟩
    (by omega) fun _ => rfl

end Sufficient

end Discovery

end HartLink.Service

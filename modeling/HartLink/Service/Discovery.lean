import HartLink.Operation.Identity
import HartLink.Service.Health
import HartLink.Service.Profile

/-!
# Discovery

A scan walks over the modules of a profile, pass after pass, and asks every
address for its identity until a device has answered there.  A hint replaces
the number of preambles of the first probe; if that probe is not answered, the
number of the profile is tried at once.  The link decides how each request
ends: the outcomes come from outside, one for each request in turn.  Beside its
report a scan returns what it sent, address by address and pass by pass.
-/

namespace HartLink.Service

open HartLink.Foundation
open HartLink.Wire
open HartLink.Operation

/-! ## Reports, hints and options -/

structure DiscoveredDevice where
  module : UInt16
  address : Address
  identity : DeviceIdentity
  deriving DecidableEq, Repr

inductive DiscoveryFault where
  | exchange (error : RequestError)
  | operation (error : CodecError)
  deriving DecidableEq, Repr

structure DiscoveryReport where
  attempts : Nat := 0
  hintedAttempts : Nat := 0
  hintFallbacks : Nat := 0
  passesCompleted : Nat := 0
  devices : List DiscoveredDevice := []
  errors : List (Address × DiscoveryFault) := []
  deriving DecidableEq, Repr

def maximumDiscoveryHints : Nat := 128

inductive DiscoveryHintError where
  | uniqueAddress
  | preambles (count : UInt8)
  | limit (limit : Nat)
  deriving DecidableEq, Repr

structure DiscoveryHints where
  preambles : Table Address UInt8 := ∅

namespace DiscoveryHints

def insert (hints : DiscoveryHints) (address : Address) (preambles : UInt8) :
    Except DiscoveryHintError DiscoveryHints :=
  match address with
  | .Unique _ _ _ => .error .uniqueAddress
  | .Polling _ _ =>
      if preambles < 2 ∨ 40 < preambles then .error (.preambles preambles)
      else if address ∉ hints.preambles ∧
          maximumDiscoveryHints ≤ hints.preambles.keys.card then
        .error (.limit maximumDiscoveryHints)
      else .ok { preambles := hints.preambles.insert address preambles }

def get (hints : DiscoveryHints) (address : Address) : Option UInt8 :=
  hints.preambles.lookup address

end DiscoveryHints

structure DiscoveryOptions where
  passes : { passes : UInt8 // passes ≠ 0 } := ⟨1, by decide⟩
  queue : QueueId := ⟨0⟩
  retry : RetryPolicy := RetryPolicy.default
  passDelay : Nat := 0
  preambleHints : DiscoveryHints := {}

/-! ## Timeouts of a probe -/

def discoveryResponseTimeout (profile : LineProfile)
    (addressTiming : AddressTiming) (hintedProbe noDevicesFound : Bool) :
    Nat :=
  addressTiming.responseTimeout.getD
    (if hintedProbe ∨ ¬ noDevicesFound then profile.timing.steadyResponse
      else profile.timing.firstResponse)

/-- The operands stay far below the limits of `u32`. -/
def discoveryRetry (base : RetryPolicy) (responseTimeout : Nat)
    (allowTransportRetries : Bool) : RetryPolicy :=
  let transportRetries :=
    if allowTransportRetries then base.transportRetries else 0
  let transientWaits := base.busyRetries.toNat +
    base.delayedResponsePolls.toNat
  let maximumAttempts := 1 + transportRetries.toNat + transientWaits
  let waits := min (base.retryDelay * transientWaits) maximumDuration
  { base with
    transportRetries
    responseTimeout
    totalTimeout := min
      (min (responseTimeout * maximumAttempts) maximumDuration + waits)
      maximumDuration }

/-! ## What a scan sends -/

structure Probe where
  request : Request
  transmitPrefix : Bytes
  queue : QueueId
  retry : RetryPolicy
  outcome : Except RequestError DeviceReply
  deriving DecidableEq, Repr

structure Visit where
  address : Address
  probes : List Probe
  deriving DecidableEq, Repr

/-- A pass starts with some devices known. -/
structure PassLog where
  known : List Address
  visits : List Visit
  deriving DecidableEq, Repr

def isTimeout : RequestError → Bool
  | .runner .responseTimeout | .runner .deadline => true
  | _ => false

def Probe.timedOut (probe : Probe) : Bool :=
  match probe.outcome with
  | .ok _ => false
  | .error error => isTimeout error

def Probe.finds (probe : Probe) : Bool :=
  match probe.outcome with
  | .ok reply => (ReadDeviceIdentity.decodeReply reply).isOk
  | .error _ => false

def Visit.finds (visit : Visit) : Bool :=
  visit.probes.any Probe.finds

/-! ## Scanning -/

/-- `outcomes` is how the requests end, in the order in which they are sent. -/
structure Discovery where
  profile : LineProfile
  master : Master
  options : DiscoveryOptions := {}
  addressTimings : Option AddressTimings := none
  outcomes : Nat → Except RequestError DeviceReply

structure Scan where
  report : DiscoveryReport := {}
  wakePrefix : Option Bytes
  sent : Nat := 0
  deriving DecidableEq, Repr

structure PassState where
  scan : Scan
  visited : List Address := []
  visits : List Visit := []
  deriving DecidableEq, Repr

namespace Discovery

section Loops

variable (discovery : Discovery)

def hinted (pass : Nat) (address : Address) : Option UInt8 :=
  (if pass = 0 then discovery.options.preambleHints.get address
    else none).filter fun preambles =>
      preambles < discovery.profile.discoveryPreambles

def addressTiming (pollingAddress : UInt8) : AddressTiming :=
  (discovery.addressTimings.bind fun timings =>
    timings.get pollingAddress).getD {}

def conclude (report : DiscoveryReport) (module : UInt16) (address : Address)
    (hintedProbe : Bool) (outcome : Except RequestError DeviceReply) :
    DiscoveryReport × Bool :=
  match outcome with
  | .ok reply =>
      match ReadDeviceIdentity.decodeReply reply with
      | .ok identity =>
          ({ report with
            devices := report.devices ++ [⟨module, address, identity⟩] },
            false)
      | .error error =>
          ({ report with
            errors := report.errors ++ [(address, .operation error)] }, false)
  | .error error =>
      if isTimeout error then
        if hintedProbe then
          ({ report with hintFallbacks := report.hintFallbacks + 1 }, true)
        else (report, false)
      else
        ({ report with
          errors := report.errors ++ [(address, .exchange error)] }, false)

def sendProbe (module : UInt16) (address : Address) (timing : AddressTiming)
    (hinted : Option UInt8) (probe : Nat) (preambles : UInt8) (scan : Scan) :
    Probe × Scan × Bool :=
  let hintedProbe : Bool := hinted.isSome ∧ probe = 0
  let report := { scan.report with
    hintedAttempts :=
      scan.report.hintedAttempts + if hintedProbe then 1 else 0
    attempts := scan.report.attempts + 1 }
  let responseTimeout := discoveryResponseTimeout discovery.profile timing
    hintedProbe report.devices.isEmpty
  let outcome := discovery.outcomes scan.sent
  let sent : Probe :=
    { request := { Request.new address ⟨0⟩ [] with preambles }
      transmitPrefix := scan.wakePrefix.getD []
      queue := discovery.options.queue
      retry := discoveryRetry discovery.options.retry responseTimeout
        (probe ≠ 0 ∨ hinted = none)
      outcome }
  let (report, again) := conclude report module address hintedProbe outcome
  (sent, { report, wakePrefix := none, sent := scan.sent + 1 }, again)

def probeLoop (module : UInt16) (address : Address) (timing : AddressTiming)
    (hinted : Option UInt8) :
    List (Nat × UInt8) → Scan → List Probe × Scan
  | [], scan => ([], scan)
  | (probe, preambles) :: probes, scan =>
      if probe = 1 ∧ hinted = none then ([], scan)
      else
        let (sent, scan, again) := discovery.sendProbe module address timing
          hinted probe preambles scan
        if again then
          let (rest, scan) := probeLoop module address timing hinted probes scan
          (sent :: rest, scan)
        else ([sent], scan)

def probeAddress (pass : Nat) (module : UInt16) (node : UInt8)
    (address : Address) (scan : Scan) : List Probe × Scan :=
  let hinted := discovery.hinted pass address
  let conservative := discovery.profile.discoveryPreambles
  discovery.probeLoop module address (discovery.addressTiming node) hinted
    [(0, hinted.getD conservative), (1, conservative)] scan

def visitAddress (pass : Nat) (module : UInt16) (node : UInt8)
    (address : Address) (state : PassState) : PassState :=
  let visited :=
    if address ∈ state.visited then state.visited
    else state.visited ++ [address]
  if address ∈ state.visited ∨ state.scan.report.devices.any
      (fun device => device.address = address) then
    { state with visited }
  else
    let (probes, scan) :=
      discovery.probeAddress pass module node address state.scan
    { scan, visited, visits := state.visits ++ [⟨address, probes⟩] }

def visitLocal (pass : Nat) (module : ModuleWindow) (state : PassState)
    (localAddress : UInt8) : PassState :=
  match shiftedAddress module localAddress with
  | none => state
  | some node =>
      match Address.polling node discovery.master with
      | .error _ => state
      | .ok address =>
          discovery.visitAddress pass module.module node address state

def scanPass (pass : Nat) (scan : Scan) : PassState :=
  discovery.profile.modules.foldl (fun state module =>
    module.polling.iter.foldl (discovery.visitLocal pass module) state)
    { scan }

/-- The passes from `pass` on, `remaining` of them at most. -/
def scanPasses : Nat → Nat → Scan → List PassLog × Scan
  | 0, _, scan => ([], scan)
  | remaining + 1, pass, scan =>
      let state := discovery.scanPass pass scan
      let log : PassLog :=
        ⟨scan.report.devices.map DiscoveredDevice.address, state.visits⟩
      let scan := { state.scan with
        report := { state.scan.report with
          passesCompleted := min (pass + 1) 255 } }
      if state.visited.length ≤ scan.report.devices.length then ([log], scan)
      else
        let (logs, scan) := scanPasses remaining (pass + 1) scan
        (log :: logs, scan)

def discoverValidated : List PassLog × DiscoveryReport :=
  let (logs, scan) := discovery.scanPasses
    discovery.options.passes.val.toNat 0
    { wakePrefix := some discovery.profile.wakePrefix }
  (logs, scan.report)

end Loops

/-! ## One address -/

section Visits

variable {discovery : Discovery}

structure Visited (hinted : Bool) (before after : DiscoveryReport)
    (visit : Visit) : Prop where
  addressed : ∀ probe ∈ visit.probes, probe.request.address = visit.address
  unanswered : ∀ probe ∈ visit.probes.dropLast, probe.finds = false
  length : visit.probes.length =
    if hinted ∧ visit.probes.head?.any Probe.timedOut then 2 else 1
  attempts : after.attempts = before.attempts + visit.probes.length
  hintedAttempts : after.hintedAttempts =
    before.hintedAttempts + if hinted then 1 else 0
  hintFallbacks : after.hintFallbacks + 1 =
    before.hintFallbacks + visit.probes.length
  devices : after.devices.map DiscoveredDevice.address =
    before.devices.map DiscoveredDevice.address ++
      if visit.finds then [visit.address] else []

structure Concluded (hintedProbe : Bool) (address : Address) (probe : Probe)
    (before after : DiscoveryReport) (again : Bool) : Prop where
  repeats : again = (hintedProbe && probe.timedOut)
  attempts : after.attempts = before.attempts
  hintedAttempts : after.hintedAttempts = before.hintedAttempts
  hintFallbacks : after.hintFallbacks =
    before.hintFallbacks + if again then 1 else 0
  devices : after.devices.map DiscoveredDevice.address =
    before.devices.map DiscoveredDevice.address ++
      if probe.finds then [address] else []

theorem concluded (report : DiscoveryReport) (module : UInt16)
    (address : Address) (hintedProbe : Bool) (probe : Probe) :
    Concluded hintedProbe address probe report
      (conclude report module address hintedProbe probe.outcome).1
      (conclude report module address hintedProbe probe.outcome).2 := by
  cases houtcome : probe.outcome with
  | ok reply =>
      cases hreply : ReadDeviceIdentity.decodeReply reply with
      | ok identity =>
          constructor <;>
            simp [conclude, hreply, Probe.timedOut, Probe.finds, houtcome,
              Except.isOk, Except.toBool]
      | error error =>
          constructor <;>
            simp [conclude, hreply, Probe.timedOut, Probe.finds, houtcome,
              Except.isOk, Except.toBool]
  | error error =>
      cases htimeout : isTimeout error with
      | true =>
          cases hintedProbe with
          | true =>
              constructor <;>
                simp [conclude, htimeout, Probe.timedOut, Probe.finds,
                  houtcome]
          | false =>
              constructor <;>
                simp [conclude, htimeout, Probe.timedOut, Probe.finds,
                  houtcome]
      | false =>
          constructor <;>
            simp [conclude, htimeout, Probe.timedOut, Probe.finds, houtcome]

def counted (report : DiscoveryReport) (hintedProbe : Bool) :
    DiscoveryReport :=
  { report with
    hintedAttempts := report.hintedAttempts + if hintedProbe then 1 else 0
    attempts := report.attempts + 1 }

theorem concluded_sendProbe (discovery : Discovery) (module : UInt16)
    (address : Address) (timing : AddressTiming) (hinted : Option UInt8)
    (probe : Nat) (preambles : UInt8) (scan : Scan) :
    (discovery.sendProbe module address timing hinted probe preambles
        scan).1.request.address = address ∧
      Concluded (hinted.isSome ∧ probe = 0) address
        (discovery.sendProbe module address timing hinted probe preambles
          scan).1
        (counted scan.report (hinted.isSome ∧ probe = 0))
        (discovery.sendProbe module address timing hinted probe preambles
          scan).2.1.report
        (discovery.sendProbe module address timing hinted probe preambles
          scan).2.2 :=
  ⟨rfl, concluded _ module address _ (discovery.sendProbe module address
    timing hinted probe preambles scan).1⟩

theorem visited_once {hinted : Bool} {before after : DiscoveryReport}
    {sent : Probe} {address : Address}
    (haddress : sent.request.address = address)
    (h : Concluded hinted address sent (counted before hinted) after false) :
    Visited hinted before after ⟨address, [sent]⟩ := by
  have hrepeats := h.repeats.symm
  refine ⟨?_, by simp, ?_, h.attempts, h.hintedAttempts, ?_, ?_⟩
  · simpa using haddress
  · rw [if_neg]
    · rfl
    · simpa using hrepeats
  · have := h.hintFallbacks
    simpa [counted] using this
  · simpa [Visit.finds, counted] using h.devices

theorem finds_of_timedOut {probe : Probe} (h : probe.timedOut = true) :
    probe.finds = false := by
  cases houtcome : probe.outcome with
  | ok reply => simp [Probe.timedOut, houtcome] at h
  | error error => simp [Probe.finds, houtcome]

theorem visited_twice {before middle after : DiscoveryReport}
    {sent repeated : Probe} {address : Address} {again : Bool}
    (haddress : sent.request.address = address)
    (hrepeated : repeated.request.address = address)
    (hfirst : Concluded true address sent (counted before true) middle true)
    (hsecond : Concluded false address repeated (counted middle false) after
      again) :
    Visited true before after ⟨address, [sent, repeated]⟩ := by
  have htimedOut : sent.timedOut = true := by
    simpa using hfirst.repeats.symm
  have hagain : again = false := by simpa using hsecond.repeats
  subst hagain
  have hsilent := finds_of_timedOut htimedOut
  refine ⟨?_, ?_, ?_, ?_, ?_, ?_, ?_⟩
  · simp [haddress, hrepeated]
  · simpa using hsilent
  · simp [htimedOut]
  · have := hsecond.attempts
    have := hfirst.attempts
    simp only [counted] at *
    simp
    omega
  · have := hsecond.hintedAttempts
    have := hfirst.hintedAttempts
    simp_all [counted]
  · have := hsecond.hintFallbacks
    have := hfirst.hintFallbacks
    simp_all [counted]
  · have hdevices := hsecond.devices
    simp only [counted] at hdevices
    rw [hdevices, hfirst.devices]
    simp [hsilent, Visit.finds, counted]

theorem visited_probeAddress (discovery : Discovery) (pass : Nat)
    (module : UInt16) (node : UInt8) (address : Address) (scan : Scan) :
    Visited (discovery.hinted pass address).isSome scan.report
      (discovery.probeAddress pass module node address scan).2.report
      ⟨address, (discovery.probeAddress pass module node address scan).1⟩ := by
  unfold probeAddress probeLoop
  dsimp only
  generalize discovery.hinted pass address = hinted
  generalize discovery.addressTiming node = timing
  obtain ⟨hfirstAddress, hfirst⟩ := discovery.concluded_sendProbe module
    address timing hinted 0 (hinted.getD discovery.profile.discoveryPreambles)
    scan
  generalize discovery.sendProbe module address timing hinted 0
    (hinted.getD discovery.profile.discoveryPreambles) scan = first at *
  obtain ⟨sent, next, again⟩ := first
  simp only [and_true, Bool.decide_eq_true] at hfirst
  rw [if_neg (by simp)]
  cases again with
  | false => exact visited_once hfirstAddress hfirst
  | true =>
      have hhinted : hinted.isSome = true := by
        have := hfirst.repeats
        simp_all
      rw [hhinted] at hfirst ⊢
      obtain ⟨hsecondAddress, hsecond⟩ := discovery.concluded_sendProbe module
        address timing hinted 1 discovery.profile.discoveryPreambles next
      unfold probeLoop
      dsimp only
      generalize discovery.sendProbe module address timing hinted 1
        discovery.profile.discoveryPreambles next = second at *
      obtain ⟨repeated, last, more⟩ := second
      have hunhinted : hinted ≠ none := by
        rintro rfl
        contradiction
      have hmore : more = false := by simpa using hsecond.repeats
      subst hmore
      simp only [hunhinted, and_false, if_false, if_true, Bool.false_eq_true]
      exact visited_twice hfirstAddress hsecondAddress hfirst
        (by simpa using hsecond)

end Visits

/-! ## One pass -/

section Passes

variable {discovery : Discovery}

def found (visits : List Visit) : List Address :=
  (visits.filter Visit.finds).map Visit.address

/-- A visit sends one request, or two when a hint was of no use. -/
def Measured (discovery : Discovery) (pass : Nat) (visit : Visit) : Prop :=
  (∀ probe ∈ visit.probes, probe.request.address = visit.address) ∧
    (∀ probe ∈ visit.probes.dropLast, probe.finds = false) ∧
    visit.probes.length =
      if (discovery.hinted pass visit.address).isSome ∧
        visit.probes.head?.any Probe.timedOut then 2 else 1

/-- Where a pass stands when it has come past these addresses. -/
structure Passing (discovery : Discovery) (pass : Nat)
    (start : DiscoveryReport) (passed : List Address) (state : PassState) :
    Prop where
  visited : state.visited = passed
  visits : state.visits.map Visit.address = passed.filter fun address =>
    address ∉ start.devices.map DiscoveredDevice.address
  measured : ∀ visit ∈ state.visits, discovery.Measured pass visit
  devices : state.scan.report.devices.map DiscoveredDevice.address =
    start.devices.map DiscoveredDevice.address ++ found state.visits
  attempts : state.scan.report.attempts = start.attempts +
    (state.visits.map fun visit => visit.probes.length).sum
  hintFallbacks : state.scan.report.hintFallbacks + state.visits.length =
    start.hintFallbacks +
      (state.visits.map fun visit => visit.probes.length).sum
  hintedAttempts : state.scan.report.hintedAttempts = start.hintedAttempts +
    state.visits.countP fun visit =>
      (discovery.hinted pass visit.address).isSome

theorem passing_start (pass : Nat) (scan : Scan) :
    Passing discovery pass scan.report [] { scan } := by
  constructor <;> simp [found]

theorem Passing.skips_iff {pass : Nat} {start : DiscoveryReport}
    {passed : List Address} {state : PassState}
    (h : Passing discovery pass start passed state) {address : Address}
    (hnew : address ∉ passed) :
    (address ∈ state.visited ∨ state.scan.report.devices.any
        (fun device => device.address = address) = true) ↔
      address ∈ start.devices.map DiscoveredDevice.address := by
  have hany : state.scan.report.devices.any
      (fun device => device.address = address) = true ↔
        address ∈ state.scan.report.devices.map DiscoveredDevice.address := by
    simp
  have hfound : address ∉ found state.visits := by
    intro hmem
    obtain ⟨visit, hvisit, rfl⟩ := List.mem_map.mp hmem
    have hpassed : visit.address ∈ state.visits.map Visit.address :=
      List.mem_map_of_mem (List.mem_of_mem_filter hvisit)
    rw [h.visits] at hpassed
    exact hnew (List.mem_of_mem_filter hpassed)
  rw [hany, h.visited, h.devices, List.mem_append]
  tauto

theorem Passing.visitAddress {pass : Nat} {start : DiscoveryReport}
    {passed : List Address} {state : PassState}
    (h : Passing discovery pass start passed state) (module : UInt16)
    (node : UInt8) {address : Address} (hnew : address ∉ passed) :
    Passing discovery pass start (passed ++ [address])
      (discovery.visitAddress pass module node address state) := by
  have hvisited : address ∉ state.visited := h.visited ▸ hnew
  unfold Discovery.visitAddress
  dsimp only
  rw [if_neg hvisited, h.visited]
  have hskips := h.skips_iff hnew
  rw [h.visited] at hskips
  by_cases hknown : address ∈ start.devices.map DiscoveredDevice.address
  · rw [if_pos (hskips.mpr hknown)]
    refine ⟨rfl, ?_, h.measured, h.devices, h.attempts, h.hintFallbacks,
      h.hintedAttempts⟩
    rw [List.filter_append, ← h.visits, List.filter_cons_of_neg
      (by simpa using hknown), List.filter_nil, List.append_nil]
  · rw [if_neg fun hskip => hknown (hskips.mp hskip)]
    have hvisit := discovery.visited_probeAddress pass module node address
      state.scan
    generalize discovery.probeAddress pass module node address state.scan =
      probed at *
    obtain ⟨probes, scan⟩ := probed
    refine ⟨rfl, ?_, ?_, ?_, ?_, ?_, ?_⟩
    · rw [List.filter_append, ← h.visits, List.filter_cons_of_pos
        (by simpa using hknown), List.filter_nil, List.map_append]
      rfl
    · intro visit hmem
      rcases List.mem_append.mp hmem with hmem | hmem
      · exact h.measured visit hmem
      · rw [List.mem_singleton.mp hmem]
        exact ⟨hvisit.addressed, hvisit.unanswered, hvisit.length⟩
    · rw [hvisit.devices, h.devices]
      cases hfinds : (Visit.mk address probes).finds with
      | true => simp [found, hfinds]
      | false => simp [found, hfinds]
    · have := hvisit.attempts
      have := h.attempts
      simp only [List.map_append, List.map_cons, List.map_nil,
        List.sum_append, List.sum_cons, List.sum_nil] at *
      omega
    · have := hvisit.hintFallbacks
      have := h.hintFallbacks
      simp only [List.map_append, List.map_cons, List.map_nil,
        List.sum_append, List.sum_cons, List.sum_nil, List.length_append,
        List.length_singleton] at *
      omega
    · rw [hvisit.hintedAttempts, h.hintedAttempts, List.countP_append,
        List.countP_singleton, Nat.add_assoc]

def addresses (discovery : Discovery) : List Address :=
  (LineProfile.physicalAddresses discovery.profile.modules).map fun node =>
    .Polling node discovery.master

theorem visitLocal_of_some {pass : Nat} {module : ModuleWindow}
    {localAddress node : UInt8} (state : PassState)
    (h : shiftedAddress module localAddress = some node) :
    discovery.visitLocal pass module state localAddress =
      discovery.visitAddress pass module.module node
        (.Polling node discovery.master) state := by
  have hnode : ¬ node > 63 :=
    UInt8.not_lt.mpr (LineProfile.le_of_shiftedAddress h)
  simp only [visitLocal, h, Address.polling, if_neg hnode]

theorem Passing.module {pass : Nat} {start : DiscoveryReport}
    {passed : List Address} {state : PassState} (module : ModuleWindow)
    {locals : List UInt8} (h : Passing discovery pass start passed state)
    (hdistinct : (passed ++ (locals.filterMap (shiftedAddress module)).map
      fun node => Address.Polling node discovery.master).Nodup) :
    Passing discovery pass start
      (passed ++ (locals.filterMap (shiftedAddress module)).map
        fun node => Address.Polling node discovery.master)
      (locals.foldl (discovery.visitLocal pass module) state) := by
  induction locals generalizing passed state with
  | nil => simpa using h
  | cons localAddress locals ih =>
      rw [List.foldl_cons]
      cases hshifted : shiftedAddress module localAddress with
      | none =>
          rw [List.filterMap_cons_none hshifted] at hdistinct ⊢
          have hsame : discovery.visitLocal pass module state localAddress =
              state := by simp [visitLocal, hshifted]
          rw [hsame]
          exact ih h hdistinct
      | some node =>
          rw [List.filterMap_cons_some hshifted, List.map_cons] at hdistinct ⊢
          rw [visitLocal_of_some state hshifted]
          have hnew : Address.Polling node discovery.master ∉ passed := by
            intro hmem
            exact (List.nodup_append.mp hdistinct).2.2 _ hmem _
              List.mem_cons_self rfl
          have hnext := ih (h.visitAddress module.module node hnew)
            (by simpa using hdistinct)
          simpa using hnext

theorem Passing.modules {pass : Nat} {start : DiscoveryReport}
    {passed : List Address} {state : PassState}
    {modules : List ModuleWindow}
    (h : Passing discovery pass start passed state)
    (hdistinct : (passed ++ (LineProfile.physicalAddresses modules).map
      fun node => Address.Polling node discovery.master).Nodup) :
    Passing discovery pass start
      (passed ++ (LineProfile.physicalAddresses modules).map
        fun node => Address.Polling node discovery.master)
      (modules.foldl (fun state module =>
        module.polling.iter.foldl (discovery.visitLocal pass module) state)
        state) := by
  induction modules generalizing passed state with
  | nil => simpa [LineProfile.physicalAddresses] using h
  | cons module modules ih =>
      have hsplit : LineProfile.physicalAddresses (module :: modules) =
          module.polling.iter.filterMap (shiftedAddress module) ++
            LineProfile.physicalAddresses modules := rfl
      rw [hsplit, List.map_append, ← List.append_assoc] at hdistinct ⊢
      rw [List.foldl_cons]
      exact ih (h.module module (List.nodup_append.mp hdistinct).1) hdistinct

theorem nodup_addresses (h : discovery.profile.validate = .ok ()) :
    discovery.addresses.Nodup := by
  apply (LineProfile.nodup_physicalAddresses h).map
  intro first second hsame
  injection hsame

theorem passing_scanPass (h : discovery.profile.validate = .ok ())
    (pass : Nat) (scan : Scan) :
    Passing discovery pass scan.report discovery.addresses
      (discovery.scanPass pass scan) := by
  have hstart : Passing discovery pass scan.report [] { scan } :=
    passing_start pass scan
  exact hstart.modules (nodup_addresses h)

end Passes

/-! ## All passes -/

def requests (logs : List PassLog) : List Probe :=
  logs.flatMap fun log => log.visits.flatMap Visit.probes

def foundIn (logs : List PassLog) : List Address :=
  logs.flatMap fun log => found log.visits

/-- Once a request has found a device, its address is left alone. -/
def LeavesFound (earlier later : Probe) : Prop :=
  earlier.finds = true → later.request.address ≠ earlier.request.address

def Distinct (discovery : Discovery) (report : DiscoveryReport) : Prop :=
  (report.devices.map DiscoveredDevice.address).Nodup ∧
    ∀ address ∈ report.devices.map DiscoveredDevice.address,
      address ∈ discovery.addresses

section Runs

variable {discovery : Discovery}

theorem Measured.length_le {pass : Nat} {visit : Visit}
    (h : discovery.Measured pass visit) : visit.probes.length ≤
      1 + if (discovery.hinted pass visit.address).isSome then 1 else 0 := by
  rw [h.2.2]
  split_ifs <;> simp_all

theorem sum_length_le {pass : Nat} {visits : List Visit}
    (h : ∀ visit ∈ visits, discovery.Measured pass visit) :
    (visits.map fun visit => visit.probes.length).sum ≤ visits.length +
      visits.countP fun visit =>
        (discovery.hinted pass visit.address).isSome := by
  induction visits with
  | nil => simp
  | cons visit visits ih =>
      have hfirst := (h visit List.mem_cons_self).length_le
      have hrest := ih fun other hother =>
        h other (List.mem_cons_of_mem _ hother)
      rw [List.map_cons, List.sum_cons, List.length_cons, List.countP_cons]
      omega

theorem countP_hinted_of_later (discovery : Discovery) {pass : Nat}
    (hpass : pass ≠ 0) (visits : List Visit) :
    (visits.countP fun visit =>
      (discovery.hinted pass visit.address).isSome) = 0 := by
  rw [List.countP_eq_zero]
  intro visit _
  simp [hinted, hpass]

theorem length_requests_single (log : PassLog) :
    (requests [log]).length =
      (log.visits.map fun visit => visit.probes.length).sum := by
  simp [requests, List.length_flatMap]

theorem pairwise_of_dropLast {probes : List Probe}
    (h : ∀ probe ∈ probes.dropLast, probe.finds = false) :
    probes.Pairwise LeavesFound := by
  induction probes with
  | nil => exact List.Pairwise.nil
  | cons first probes ih =>
      cases probes with
      | nil => exact List.pairwise_singleton _ _
      | cons second probes =>
          rw [List.dropLast_cons_cons] at h
          refine List.pairwise_cons.mpr ⟨?_, ih fun probe hprobe =>
            h probe (List.mem_cons_of_mem _ hprobe)⟩
          intro later _ hfinds
          rw [h first List.mem_cons_self] at hfinds
          contradiction

theorem pairwise_visits {pass : Nat} {visits : List Visit}
    (h : ∀ visit ∈ visits, discovery.Measured pass visit)
    (hdistinct : (visits.map Visit.address).Nodup) :
    (visits.flatMap Visit.probes).Pairwise LeavesFound := by
  rw [List.pairwise_flatMap]
  refine ⟨fun visit hvisit => pairwise_of_dropLast (h visit hvisit).2.1, ?_⟩
  refine (List.pairwise_map.mp hdistinct).imp_of_mem ?_
  intro first second hfirst hsecond hdifferent earlier hearlier later hlater _
  rw [(h first hfirst).1 earlier hearlier, (h second hsecond).1 later hlater]
  exact hdifferent.symm

/-- What passes come to, counted from the report they start with. -/
structure Scanned (discovery : Discovery) (pass : Nat)
    (start : DiscoveryReport) (logs : List PassLog)
    (report : DiscoveryReport) : Prop where
  passes : ∀ index log, logs[index]? = some log →
    log.known = start.devices.map DiscoveredDevice.address ++
      foundIn (logs.take index) ∧
    (log.visits.map Visit.address = discovery.addresses.filter fun address =>
      address ∉ log.known) ∧
    ∀ visit ∈ log.visits, discovery.Measured (pass + index) visit
  devices : report.devices.map DiscoveredDevice.address =
    start.devices.map DiscoveredDevice.address ++ foundIn logs
  distinct : discovery.Distinct report
  attempts : report.attempts = start.attempts + (requests logs).length
  bounded : report.attempts + start.hintFallbacks ≤ start.attempts +
    logs.length * discovery.addresses.length + report.hintFallbacks
  fallbacks : report.hintFallbacks + start.hintedAttempts ≤
    report.hintedAttempts + start.hintFallbacks
  hinted : report.hintedAttempts ≤ start.hintedAttempts +
    if pass = 0 then discovery.addresses.length else 0
  unknown : ∀ probe ∈ requests logs,
    probe.request.address ∉ start.devices.map DiscoveredDevice.address
  leaves : (requests logs).Pairwise LeavesFound

theorem found_sublist (visits : List Visit) :
    (found visits).Sublist (visits.map Visit.address) :=
  List.filter_sublist.map Visit.address

section Pass

variable {pass : Nat} {start : DiscoveryReport} {state : PassState}

theorem Passing.missing
    (h : Passing discovery pass start discovery.addresses state)
    {address : Address} (hmem : address ∈ state.visits.map Visit.address) :
    address ∈ discovery.addresses ∧
      address ∉ start.devices.map DiscoveredDevice.address := by
  rw [h.visits, List.mem_filter, decide_eq_true_eq] at hmem
  exact hmem

theorem Passing.length_visits_le
    (h : Passing discovery pass start discovery.addresses state) :
    state.visits.length ≤ discovery.addresses.length := by
  have hlength := congrArg List.length h.visits
  rw [List.length_map] at hlength
  rw [hlength]
  exact List.length_filter_le _ _

theorem Passing.nodup_visits (hvalid : discovery.profile.validate = .ok ())
    (h : Passing discovery pass start discovery.addresses state) :
    (state.visits.map Visit.address).Nodup := by
  rw [h.visits]
  exact (nodup_addresses hvalid).filter _

/-- The devices a pass finds are not among those known before it. -/
theorem Passing.distinct (hvalid : discovery.profile.validate = .ok ())
    (hstart : discovery.Distinct start)
    (h : Passing discovery pass start discovery.addresses state) :
    discovery.Distinct state.scan.report := by
  rw [Distinct, h.devices]
  have hfound := found_sublist state.visits
  constructor
  · rw [List.nodup_append]
    refine ⟨hstart.1, (h.nodup_visits hvalid).sublist hfound, ?_⟩
    rintro address hknown _ hnew rfl
    exact (h.missing (hfound.subset hnew)).2 hknown
  · intro address hmem
    rcases List.mem_append.mp hmem with hmem | hmem
    · exact hstart.2 address hmem
    · exact (h.missing (hfound.subset hmem)).1

theorem Passing.hintedAttempts_le
    (h : Passing discovery pass start discovery.addresses state) :
    state.scan.report.hintedAttempts ≤ start.hintedAttempts +
      if pass = 0 then discovery.addresses.length else 0 := by
  have hhinted := h.hintedAttempts
  have hlength := h.length_visits_le
  have hcount := List.countP_le_length
    (p := fun visit => (discovery.hinted pass visit.address).isSome)
    (l := state.visits)
  split_ifs with hpass
  · omega
  · have := discovery.countP_hinted_of_later hpass state.visits
    omega

theorem scanned_pass (hvalid : discovery.profile.validate = .ok ())
    (hstart : discovery.Distinct start)
    (h : Passing discovery pass start discovery.addresses state) :
    Scanned discovery pass start
      [⟨start.devices.map DiscoveredDevice.address, state.visits⟩]
      state.scan.report := by
  have hlength := h.length_visits_le
  have hsum := sum_length_le h.measured
  have hattempts := h.attempts
  have hfallbacks := h.hintFallbacks
  have hhinted := h.hintedAttempts
  refine ⟨?_, ?_, h.distinct hvalid hstart, ?_, ?_, ?_, h.hintedAttempts_le,
    ?_, ?_⟩
  · intro index log hlog
    cases index with
    | zero =>
        injection hlog with hlog
        subst hlog
        refine ⟨?_, h.visits, h.measured⟩
        simp [foundIn]
    | succ index => contradiction
  · rw [h.devices]
    simp [foundIn]
  · rw [h.attempts, length_requests_single]
  · rw [List.length_singleton, Nat.one_mul]
    omega
  · omega
  · intro probe hprobe
    simp only [requests, List.flatMap_cons, List.flatMap_nil, List.append_nil,
      List.mem_flatMap] at hprobe
    obtain ⟨visit, hvisit, hmem⟩ := hprobe
    rw [(h.measured visit hvisit).1 probe hmem]
    exact (h.missing (List.mem_map_of_mem hvisit)).2
  · simp only [requests, List.flatMap_cons, List.flatMap_nil,
      List.append_nil]
    exact pairwise_visits h.measured (h.nodup_visits hvalid)

end Pass

theorem Scanned.mem_devices {pass : Nat} {start report : DiscoveryReport}
    {log : PassLog} (h : Scanned discovery pass start [log] report)
    {probe : Probe} (hprobe : probe ∈ requests [log])
    (hfinds : probe.finds = true) :
    probe.request.address ∈ report.devices.map DiscoveredDevice.address := by
  simp only [requests, List.flatMap_cons, List.flatMap_nil, List.append_nil,
    List.mem_flatMap] at hprobe
  obtain ⟨visit, hvisit, hmem⟩ := hprobe
  have hmeasured := (h.passes 0 log rfl).2.2 visit hvisit
  rw [hmeasured.1 probe hmem, h.devices]
  apply List.mem_append_right
  simp only [foundIn, List.flatMap_cons, List.flatMap_nil, List.append_nil]
  apply List.mem_map_of_mem
  rw [List.mem_filter]
  exact ⟨hvisit, List.any_eq_true.mpr ⟨probe, hmem, hfinds⟩⟩

theorem Scanned.cons {pass : Nat} {start middle report : DiscoveryReport}
    {log : PassLog} {logs : List PassLog}
    (hfirst : Scanned discovery pass start [log] middle)
    (hrest : Scanned discovery (pass + 1) middle logs report) :
    Scanned discovery pass start (log :: logs) report := by
  have hrequests : requests (log :: logs) =
      requests [log] ++ requests logs := by
    simp [requests]
  have hfound (later : List PassLog) :
      foundIn (log :: later) = foundIn [log] ++ foundIn later := by
    simp [foundIn]
  refine ⟨?_, ?_, hrest.distinct, ?_, ?_, ?_, ?_, ?_, ?_⟩
  · intro index other hother
    cases index with
    | zero =>
        injection hother with hother
        subst hother
        exact hfirst.passes 0 log rfl
    | succ index =>
        obtain ⟨hknown, hvisits, hmeasured⟩ := hrest.passes index other hother
        refine ⟨?_, hvisits, ?_⟩
        · rw [hknown, hfirst.devices, List.take_succ_cons,
            hfound (logs.take index), List.append_assoc]
        · rwa [Nat.add_right_comm, Nat.add_assoc] at hmeasured
  · rw [hrest.devices, hfirst.devices, hfound logs, List.append_assoc]
  · rw [hrest.attempts, hfirst.attempts, hrequests, List.length_append,
      Nat.add_assoc]
  · have := hfirst.bounded
    have := hrest.bounded
    simp only [List.length_cons, List.length_nil, Nat.zero_add, Nat.one_mul,
      Nat.add_mul] at *
    omega
  · have := hfirst.fallbacks
    have := hrest.fallbacks
    omega
  · have hmiddle := hfirst.hinted
    have hlast := hrest.hinted
    rw [if_neg (Nat.succ_ne_zero pass)] at hlast
    omega
  · intro probe hprobe hknown
    rw [hrequests, List.mem_append] at hprobe
    rcases hprobe with hprobe | hprobe
    · exact hfirst.unknown probe hprobe hknown
    · apply hrest.unknown probe hprobe
      rw [hfirst.devices]
      exact List.mem_append_left _ hknown
  · rw [hrequests, List.pairwise_append]
    refine ⟨hfirst.leaves, hrest.leaves, ?_⟩
    intro earlier hearlier later hlater hfinds hsame
    apply hrest.unknown later hlater
    rw [hsame]
    exact hfirst.mem_devices hearlier hfinds

theorem scanned_nil {pass : Nat} {start : DiscoveryReport}
    (h : discovery.Distinct start) : Scanned discovery pass start [] start := by
  refine ⟨by simp, ?_, h, ?_, ?_, (Nat.add_comm _ _).le,
    Nat.le_add_right _ _, ?_, ?_⟩
  · simp [foundIn]
  · simp [requests]
  · simp
  · simp [requests]
  · exact List.Pairwise.nil

theorem Distinct.covers {report : DiscoveryReport}
    (h : discovery.Distinct report)
    (hlength : discovery.addresses.length ≤ report.devices.length) :
    ∀ address ∈ discovery.addresses,
      address ∈ report.devices.map DiscoveredDevice.address := by
  have hperm : (report.devices.map DiscoveredDevice.address).Perm
      discovery.addresses := by
    apply (h.1.subperm h.2).perm_of_length_le
    rwa [List.length_map]
  intro address hmem
  exact hperm.mem_iff.mpr hmem

theorem scanned_scanPasses (hvalid : discovery.profile.validate = .ok ())
    (remaining pass : Nat) (scan : Scan)
    (h : discovery.Distinct scan.report) :
    Scanned discovery pass scan.report
        (discovery.scanPasses remaining pass scan).1
        (discovery.scanPasses remaining pass scan).2.report ∧
      (discovery.scanPasses remaining pass scan).1.length ≤ remaining ∧
      ((discovery.scanPasses remaining pass scan).1.length < remaining →
        ∀ address ∈ discovery.addresses, address ∈
          (discovery.scanPasses remaining pass scan).2.report.devices.map
            DiscoveredDevice.address) := by
  induction remaining generalizing pass scan with
  | zero => exact ⟨scanned_nil h, Nat.le_refl _, by simp⟩
  | succ remaining ih =>
      have hpassing := passing_scanPass hvalid pass scan
      have hpass := scanned_pass hvalid h hpassing
      have hvisited := hpassing.visited
      -- Counting the pass leaves everything else in the report alone.
      have hcounted : Scanned discovery pass scan.report
          [⟨scan.report.devices.map DiscoveredDevice.address,
            (discovery.scanPass pass scan).visits⟩]
          { (discovery.scanPass pass scan).scan.report with
            passesCompleted := min (pass + 1) 255 } :=
        ⟨hpass.passes, hpass.devices, hpass.distinct, hpass.attempts,
          hpass.bounded, hpass.fallbacks, hpass.hinted, hpass.unknown,
          hpass.leaves⟩
      simp only [scanPasses]
      split_ifs with hall
      · refine ⟨hcounted, by simp, ?_⟩
        intro _
        rw [hvisited] at hall
        exact hcounted.distinct.covers hall
      · obtain ⟨hrest, hlength, hcovers⟩ := ih (pass + 1)
          { (discovery.scanPass pass scan).scan with
            report := { (discovery.scanPass pass scan).scan.report with
              passesCompleted := min (pass + 1) 255 } } hcounted.distinct
        refine ⟨hcounted.cons hrest, ?_, ?_⟩
        · rw [List.length_cons]
          exact Nat.succ_le_succ hlength
        · intro hfewer
          rw [List.length_cons] at hfewer
          exact hcovers (Nat.lt_of_succ_lt_succ hfewer)

theorem passesCompleted_scanPasses (discovery : Discovery)
    (remaining pass : Nat) (scan : Scan) :
    (discovery.scanPasses (remaining + 1) pass scan).2.report.passesCompleted =
      min (pass + (discovery.scanPasses (remaining + 1) pass scan).1.length)
        255 := by
  induction remaining generalizing pass scan with
  | zero =>
      simp only [scanPasses]
      split_ifs <;> rfl
  | succ remaining ih =>
      rw [scanPasses]
      dsimp only
      split_ifs
      · rfl
      · rw [ih, List.length_cons, Nat.add_right_comm, Nat.add_assoc]

end Runs

theorem hinted_isSome_iff (discovery : Discovery) (pass : Nat)
    (address : Address) :
    (discovery.hinted pass address).isSome ↔
      pass = 0 ∧ ∃ preambles,
        discovery.options.preambleHints.get address = some preambles ∧
        preambles < discovery.profile.discoveryPreambles := by
  unfold hinted
  split_ifs with hpass
  · cases discovery.options.preambleHints.get address with
    | none => simp
    | some preambles => simp [hpass]
  · simp [hpass]

theorem Measured.length_cases {discovery : Discovery} {pass : Nat}
    {visit : Visit} (h : discovery.Measured pass visit) :
    (visit.probes.length = 1 ∨ visit.probes.length = 2) ∧
      (visit.probes.length = 2 ↔ pass = 0 ∧
        (∃ preambles,
          discovery.options.preambleHints.get visit.address = some preambles ∧
          preambles < discovery.profile.discoveryPreambles) ∧
        ∃ probe, visit.probes.head? = some probe ∧
          probe.timedOut = true) := by
  have hlength := h.2.2
  have hhead : visit.probes.head?.any Probe.timedOut = true ↔
      ∃ probe, visit.probes.head? = some probe ∧ probe.timedOut = true := by
    cases visit.probes.head? <;> simp
  rw [← hhead, ← and_assoc, ← hinted_isSome_iff]
  split_ifs at hlength with hfallback
  · exact ⟨.inr hlength, iff_of_true hlength hfallback⟩
  · exact ⟨.inl hlength, iff_of_false (by omega) hfallback⟩

/--
A scan of an accepted profile, however its requests end.  Every pass goes
through the addresses without a device in order, and sends one request to each
of them, or two when a hint below the preambles of the profile was of no use in
the first pass.  The devices have distinct addresses of the line, and none of
them is asked again.  The counters count the requests, and passes are left out
only when every address has a device.
-/
theorem discovery_probes_missing_addresses (discovery : Discovery)
    (hvalid : discovery.profile.validate = .ok ()) (logs : List PassLog)
    (report : DiscoveryReport)
    (hscan : discovery.discoverValidated = (logs, report)) :
    (∀ index log, logs[index]? = some log →
      log.known = foundIn (logs.take index) ∧
      (log.visits.map Visit.address = discovery.addresses.filter
        fun address => address ∉ log.known) ∧
      ∀ visit ∈ log.visits,
        (∀ probe ∈ visit.probes, probe.request.address = visit.address) ∧
        (visit.probes.length = 1 ∨ visit.probes.length = 2) ∧
        (visit.probes.length = 2 ↔ index = 0 ∧
          (∃ preambles,
            discovery.options.preambleHints.get visit.address =
              some preambles ∧
            preambles < discovery.profile.discoveryPreambles) ∧
          ∃ probe, visit.probes.head? = some probe ∧
            probe.timedOut = true)) ∧
    report.devices.map DiscoveredDevice.address = foundIn logs ∧
    (report.devices.map DiscoveredDevice.address).Nodup ∧
    (∀ device ∈ report.devices, device.address ∈ discovery.addresses) ∧
    (requests logs).Pairwise LeavesFound ∧
    report.attempts = (requests logs).length ∧
    report.attempts ≤ discovery.options.passes.val.toNat *
      discovery.addresses.length + report.hintFallbacks ∧
    report.hintFallbacks ≤ report.hintedAttempts ∧
    report.hintedAttempts ≤ discovery.addresses.length ∧
    report.passesCompleted = logs.length ∧
    logs.length ≤ discovery.options.passes.val.toNat ∧
    (logs.length < discovery.options.passes.val.toNat →
      ∀ address ∈ discovery.addresses,
        ∃ device ∈ report.devices, device.address = address) := by
  have hpasses : discovery.options.passes.val.toNat ≠ 0 := by
    intro hzero
    exact discovery.options.passes.property (UInt8.toNat_inj.mp hzero)
  have hlimit := discovery.options.passes.val.toNat_lt
  obtain ⟨remaining, hremaining⟩ := Nat.exists_eq_succ_of_ne_zero hpasses
  have hinitial : discovery.Distinct {} := ⟨List.nodup_nil, by simp⟩
  obtain ⟨hscanned, hlength, hcovers⟩ := scanned_scanPasses hvalid
    discovery.options.passes.val.toNat 0
    { wakePrefix := some discovery.profile.wakePrefix } hinitial
  have hcompleted := discovery.passesCompleted_scanPasses remaining 0
    { wakePrefix := some discovery.profile.wakePrefix }
  rw [← Nat.succ_eq_add_one, ← hremaining] at hcompleted
  simp only [discoverValidated, Prod.mk.injEq] at hscan
  obtain ⟨rfl, rfl⟩ := hscan
  generalize discovery.scanPasses discovery.options.passes.val.toNat 0
    { wakePrefix := some discovery.profile.wakePrefix } = final at *
  refine ⟨?_, hscanned.devices, hscanned.distinct.1, ?_, hscanned.leaves, ?_,
    ?_, ?_, ?_, ?_, hlength, ?_⟩
  · intro index log hlog
    obtain ⟨hknown, hvisits, hmeasured⟩ := hscanned.passes index log hlog
    refine ⟨hknown, hvisits, ?_⟩
    intro visit hvisit
    have hvisited := hmeasured visit hvisit
    rw [Nat.zero_add] at hvisited
    exact ⟨hvisited.1, hvisited.length_cases⟩
  · intro device hdevice
    exact hscanned.distinct.2 _ (List.mem_map_of_mem hdevice)
  · simpa using hscanned.attempts
  · have hbounded := hscanned.bounded
    have := Nat.mul_le_mul_right discovery.addresses.length hlength
    dsimp only at hbounded
    omega
  · simpa using hscanned.fallbacks
  · simpa using hscanned.hinted
  · rw [hcompleted]
    omega
  · intro hfewer address hmem
    exact List.mem_map.mp (hcovers hfewer address hmem)

def sampleDiscovery : Discovery :=
  let reply : DeviceReply :=
    { address := .Polling 1 .primary, command := ⟨0⟩, responseCode := 0
      deviceStatus := 0
      data := [0xfe, 1, 2, 5, 5, 1, 1, 8, 0, 0, 0, 1]
      burst := false, physicalLayer := .fsk, responsePreambles := 5
      frameExpansion := [] }
  { profile :=
      { name := "line", modules := [⟨1, ⟨0, 1⟩, 0⟩] }
    master := .primary
    options :=
      { passes := ⟨2, by decide⟩
        preambleHints := ⟨(∅ : Table Address UInt8).insert
          (.Polling 0 .primary) 5⟩ }
    outcomes := fun index =>
      if index = 2 then .ok reply else .error (.runner .responseTimeout) }

theorem discovery_probes_missing_addresses_staleHint :
    sampleDiscovery.profile.validate = .ok () ∧
      sampleDiscovery.discoverValidated.2.attempts = 4 ∧
      sampleDiscovery.discoverValidated.2.attempts =
        (requests sampleDiscovery.discoverValidated.1).length ∧
      (requests sampleDiscovery.discoverValidated.1).Pairwise LeavesFound := by
  have hvalid : sampleDiscovery.profile.validate = .ok () := by
    decide +kernel
  obtain ⟨-, -, -, -, hleaves, hattempts, -⟩ :=
    discovery_probes_missing_addresses sampleDiscovery hvalid _ _ rfl
  exact ⟨hvalid, by decide +kernel, hattempts, hleaves⟩

end Discovery

end HartLink.Service

import HartLink.Service.ProbePolicies

/-!
# Probes that a link refuses

Only the timeouts of single addresses are checked before a scan.  Three scans
between them come to every other policy: a silent line, a line whose first
address answers, and one whose second address answers before a second pass.  So
a link takes every probe exactly when the settings last.
-/

namespace HartLink.Service

open HartLink.Foundation
open HartLink.Wire
open HartLink.Operation

namespace Discovery

/-! ## Visits with a known end -/

section Ends

variable {discovery : Discovery}

def silence : Except RequestError DeviceReply :=
  .error (.runner .responseTimeout)

theorem sendProbe_silence {module : UInt16} {address : Address}
    {timing : AddressTiming} {hinted : Option UInt8} {probe : Nat}
    {preambles : UInt8} {scan : Scan}
    (h : discovery.outcomes scan.sent = silence) :
    let sent := discovery.sendProbe module address timing hinted probe
      preambles scan
    sent.2.1.report.devices = scan.report.devices ∧
      sent.2.1.sent = scan.sent + 1 ∧
      sent.2.2 = decide (hinted.isSome ∧ probe = 0) := by
  intro sent
  have hconclude : ∀ report hintedProbe,
      (conclude report module address hintedProbe silence).1.devices =
        report.devices ∧
      (conclude report module address hintedProbe silence).2 =
        hintedProbe := by
    intro report hintedProbe
    cases hintedProbe <;> exact ⟨rfl, rfl⟩
  refine ⟨?_, rfl, ?_⟩
  · simp only [sent, sendProbe, h, hconclude]
  · simp only [sent, sendProbe, h, hconclude]

def unansweredProbes (discovery : Discovery) (pass : Nat)
    (address : Address) : Nat :=
  if (discovery.hinted pass address).isSome then 2 else 1

/-- The policies of the probes of an unanswered visit. -/
structure Tries (discovery : Discovery) (pass : Nat) (node : UInt8)
    (address : Address) (noDevicesFound : Bool) (probes : List Probe) :
    Prop where
  conservative : ∃ probe ∈ probes,
    probe.retry = discovery.probePolicy node false noDevicesFound
  hinted : (discovery.hinted pass address).isSome → ∃ probe ∈ probes,
    probe.retry = discovery.probePolicy node true noDevicesFound

/-- A visit that is not answered tries every policy and finds nothing. -/
theorem probeAddress_silence {pass : Nat} {module : UInt16} {node : UInt8}
    {address : Address} {scan : Scan}
    (h : ∀ index, scan.sent ≤ index →
      index < scan.sent + discovery.unansweredProbes pass address →
      discovery.outcomes index = silence) :
    let probed := discovery.probeAddress pass module node address scan
    discovery.Tries pass node address scan.report.devices.isEmpty probed.1 ∧
      probed.2.report.devices = scan.report.devices ∧
      probed.2.sent =
        scan.sent + discovery.unansweredProbes pass address := by
  intro probed
  have hpositive : 0 < discovery.unansweredProbes pass address := by
    unfold unansweredProbes
    split_ifs <;> omega
  have heq := discovery.probeAddress_eq pass module node address scan
  have hfirstRetry := discovery.retry_sendProbe module address node
    (discovery.hinted pass address) 0 ((discovery.hinted pass address).getD
      discovery.profile.discoveryPreambles) scan
  obtain ⟨hdevices, hsent, hagain⟩ := @sendProbe_silence discovery module
    address (discovery.addressTiming node) (discovery.hinted pass address) 0
    ((discovery.hinted pass address).getD
      discovery.profile.discoveryPreambles) scan
    (h scan.sent le_rfl (by omega))
  dsimp only at heq
  generalize discovery.sendProbe module address
    (discovery.addressTiming node) (discovery.hinted pass address) 0
    ((discovery.hinted pass address).getD
      discovery.profile.discoveryPreambles) scan = first at *
  cases hsome : (discovery.hinted pass address).isSome with
  | true =>
      have hprobes : discovery.unansweredProbes pass address = 2 := by
        rw [unansweredProbes, if_pos hsome]
      have hsecondRetry := discovery.retry_sendProbe module address node
        (discovery.hinted pass address) 1
        discovery.profile.discoveryPreambles first.2.1
      obtain ⟨hsecondDevices, hsecondSent, -⟩ := @sendProbe_silence discovery
        module address (discovery.addressTiming node)
        (discovery.hinted pass address) 1
        discovery.profile.discoveryPreambles first.2.1
        (h first.2.1.sent (by omega) (by omega))
      rw [if_pos ⟨by simpa [hsome] using hagain, hsome⟩] at heq
      generalize discovery.sendProbe module address
        (discovery.addressTiming node) (discovery.hinted pass address) 1
        discovery.profile.discoveryPreambles first.2.1 = second at *
      simp only [probed, heq]
      refine ⟨⟨⟨second.1, by simp, ?_⟩, fun _ => ⟨first.1, by simp, ?_⟩⟩,
        hsecondDevices.trans hdevices, by omega⟩
      · rw [hsecondRetry, hdevices]
        congr 1
        simp
      · rw [hfirstRetry]
        congr 1
        simp [hsome]
  | false =>
      have hprobes : discovery.unansweredProbes pass address = 1 := by
        rw [unansweredProbes, if_neg (by simp [hsome])]
      rw [if_neg (by simp [hsome])] at heq
      simp only [probed, heq]
      refine ⟨⟨⟨first.1, by simp, ?_⟩, fun hhinted => ?_⟩, hdevices,
        by omega⟩
      · rw [hfirstRetry]
        congr 1
        simp [hsome]
      · rw [hsome] at hhinted
        contradiction

def identityData : Bytes := [0xfe, 1, 2, 5, 5, 1, 1, 8, 0, 0, 0, 1]

def identityReply (address : Address) : DeviceReply :=
  { address, command := ⟨0⟩, responseCode := 0, deviceStatus := 0
    data := identityData
    burst := false, physicalLayer := .fsk, responsePreambles := 5
    frameExpansion := [] }

theorem decodeReply_identityReply (address : Address) :
    ∃ identity, ReadDeviceIdentity.decodeReply (identityReply address) =
      .ok identity := by
  have hsuccess : (identityReply address).requireSuccess ⟨0⟩ = .ok () := by
    simp [DeviceReply.requireSuccess, DeviceReply.requireCommand,
      identityReply, bind, Except.bind]
  have hdata : (decodeIdentityData identityData).isOk = true := by
    decide +kernel
  have hreply : ReadDeviceIdentity.decodeReply (identityReply address) =
      decodeIdentityData identityData := by
    unfold ReadDeviceIdentity.decodeReply
    rw [hsuccess]
    rfl
  rw [hreply]
  cases hdecoded : decodeIdentityData identityData with
  | ok identity => exact ⟨identity, rfl⟩
  | error error =>
      rw [hdecoded] at hdata
      contradiction

/-- A visit that is answered at once finds the device. -/
theorem probeAddress_identity {pass : Nat} {module : UInt16} {node : UInt8}
    {address : Address} {scan : Scan} {replier : Address}
    (h : discovery.outcomes scan.sent = .ok (identityReply replier)) :
    let probed := discovery.probeAddress pass module node address scan
    (∃ identity, probed.2.report.devices =
      scan.report.devices ++ [⟨module, address, identity⟩]) ∧
      probed.2.sent = scan.sent + 1 := by
  intro probed
  obtain ⟨identity, hidentity⟩ := decodeReply_identityReply replier
  have hconclude : ∀ report hintedProbe,
      conclude report module address hintedProbe (.ok (identityReply
        replier)) = ({ report with
          devices := report.devices ++ [⟨module, address, identity⟩] },
            false) := by
    intro report hintedProbe
    simp only [conclude, hidentity]
  have heq := discovery.probeAddress_eq pass module node address scan
  dsimp only at heq
  rw [if_neg (by simp [sendProbe, h, hconclude])] at heq
  simp only [probed, heq]
  refine ⟨⟨identity, ?_⟩, rfl⟩
  simp only [sendProbe, h, hconclude]

end Ends

/-! ## Scans that need every policy -/

section Necessary

variable {discovery : Discovery} {pass : Nat}

structure Open (discovery : Discovery) (state : PassState)
    (stop : UInt16 × UInt8) : Prop where
  unvisited : discovery.stopAddress stop ∉ state.visited
  missing : discovery.stopAddress stop ∉
    state.scan.report.devices.map DiscoveredDevice.address

theorem visitStop_of_open {state : PassState} {stop : UInt16 × UInt8}
    (h : discovery.Open state stop) :
    discovery.visitStop pass state stop =
      ⟨(discovery.probeAddress pass stop.1 stop.2
          (discovery.stopAddress stop) state.scan).2,
        state.visited ++ [discovery.stopAddress stop],
        state.visits ++ [⟨discovery.stopAddress stop,
          (discovery.probeAddress pass stop.1 stop.2
            (discovery.stopAddress stop) state.scan).1⟩]⟩ := by
  have hskip : ¬ (discovery.stopAddress stop ∈ state.visited ∨
      state.scan.report.devices.any (fun device =>
        device.address = discovery.stopAddress stop) = true) := by
    rintro (hvisited | hknown)
    · exact h.unvisited hvisited
    · refine h.missing ?_
      simpa using hknown
  have hunvisited := h.unvisited
  unfold stopAddress at *
  unfold visitStop visitAddress
  dsimp only
  rw [if_neg hskip, if_neg hunvisited]

theorem visitStop_of_known {state : PassState} {stop : UInt16 × UInt8}
    (h : discovery.stopAddress stop ∈
      state.scan.report.devices.map DiscoveredDevice.address)
    (hunvisited : discovery.stopAddress stop ∉ state.visited) :
    discovery.visitStop pass state stop =
      { state with visited :=
          state.visited ++ [discovery.stopAddress stop] } := by
  have hskip : discovery.stopAddress stop ∈ state.visited ∨
      state.scan.report.devices.any (fun device =>
        device.address = discovery.stopAddress stop) = true := by
    right
    simpa using h
  unfold stopAddress at *
  unfold visitStop visitAddress
  dsimp only
  rw [if_pos hskip, if_neg hunvisited]

/-- Nothing answers from some request on. -/
def QuietFrom (discovery : Discovery) (sent : Nat) : Prop :=
  ∀ index, sent ≤ index → discovery.outcomes index = silence

/-- Stops that nobody answers at leave their probes and nothing else. -/
structure Unanswered (discovery : Discovery) (pass : Nat)
    (state next : PassState) (stops : List (UInt16 × UInt8)) : Prop where
  devices : next.scan.report.devices = state.scan.report.devices
  sent : state.scan.sent ≤ next.scan.sent
  visits : ∀ visit ∈ state.visits, visit ∈ next.visits
  tries : ∀ stop ∈ stops, discovery.stopAddress stop ∉
      state.scan.report.devices.map DiscoveredDevice.address →
    ∃ visit ∈ next.visits, discovery.Tries pass stop.2
      (discovery.stopAddress stop) state.scan.report.devices.isEmpty
      visit.probes

theorem unanswered_visitStop {state : PassState} {stop : UInt16 × UInt8}
    (hunvisited : discovery.stopAddress stop ∉ state.visited)
    (hquiet : discovery.QuietFrom state.scan.sent) :
    discovery.Unanswered pass state (discovery.visitStop pass state stop)
        [stop] ∧
      (discovery.visitStop pass state stop).visited =
        state.visited ++ [discovery.stopAddress stop] := by
  by_cases hknown : discovery.stopAddress stop ∈
      state.scan.report.devices.map DiscoveredDevice.address
  · rw [visitStop_of_known hknown hunvisited]
    refine ⟨⟨rfl, le_rfl, fun _ => id, ?_⟩, rfl⟩
    intro other hother hmissing
    rw [List.mem_singleton.mp hother] at hmissing
    exact absurd hknown hmissing
  · obtain ⟨htries, hdevices, hsent⟩ := @probeAddress_silence discovery pass
      stop.1 stop.2 (discovery.stopAddress stop) state.scan
      fun index hindex _ => hquiet index hindex
    rw [visitStop_of_open ⟨hunvisited, hknown⟩]
    refine ⟨⟨hdevices, by dsimp only; omega,
      fun visit hvisit => List.mem_append_left _ hvisit, ?_⟩, rfl⟩
    intro other hother _
    rw [List.mem_singleton.mp hother]
    exact ⟨_, List.mem_append_right _ (List.mem_singleton_self _), htries⟩

theorem Unanswered.cons {state middle next : PassState}
    {stop : UInt16 × UInt8} {stops : List (UInt16 × UInt8)}
    (hfirst : discovery.Unanswered pass state middle [stop])
    (hrest : discovery.Unanswered pass middle next stops) :
    discovery.Unanswered pass state next (stop :: stops) := by
  refine ⟨hrest.devices.trans hfirst.devices,
    hfirst.sent.trans hrest.sent,
    fun visit hvisit => hrest.visits visit (hfirst.visits visit hvisit), ?_⟩
  intro other hother hmissing
  rcases List.mem_cons.mp hother with rfl | hother
  · obtain ⟨visit, hvisit, htries⟩ := hfirst.tries other
      (List.mem_singleton_self _) hmissing
    exact ⟨visit, hrest.visits visit hvisit, htries⟩
  · have hlater := hrest.tries other hother
    rw [hfirst.devices] at hlater
    exact hlater hmissing

theorem unanswered_visitStops {state : PassState}
    {stops : List (UInt16 × UInt8)}
    (hnodup : (state.visited ++ stops.map discovery.stopAddress).Nodup)
    (hquiet : discovery.QuietFrom state.scan.sent) :
    discovery.Unanswered pass state
      (stops.foldl (discovery.visitStop pass) state) stops := by
  induction stops generalizing state with
  | nil => exact ⟨rfl, le_rfl, fun _ => id, by simp⟩
  | cons stop stops ih =>
      have hunvisited : discovery.stopAddress stop ∉ state.visited := by
        rw [List.map_cons, List.nodup_middle, List.nodup_cons,
          List.mem_append, not_or] at hnodup
        exact hnodup.1.1
      obtain ⟨hfirst, hvisited⟩ :=
        @unanswered_visitStop discovery pass state stop hunvisited hquiet
      rw [List.foldl_cons]
      refine hfirst.cons (ih ?_ ?_)
      · rw [hvisited, List.append_assoc]
        exact hnodup
      · intro index hindex
        exact hquiet index (hfirst.sent.trans hindex)

theorem visitStop_identity {state : PassState} {stop : UInt16 × UInt8}
    {replier : Address} (hopen : discovery.Open state stop)
    (h : discovery.outcomes state.scan.sent = .ok (identityReply replier)) :
    let next := discovery.visitStop pass state stop
    next.scan.report.devices.map DiscoveredDevice.address =
        state.scan.report.devices.map DiscoveredDevice.address ++
          [discovery.stopAddress stop] ∧
      next.scan.sent = state.scan.sent + 1 ∧
      next.visited = state.visited ++ [discovery.stopAddress stop] := by
  intro next
  obtain ⟨⟨identity, hdevices⟩, hsent⟩ := @probeAddress_identity discovery
    pass stop.1 stop.2 (discovery.stopAddress stop) state.scan replier h
  simp only [next, visitStop_of_open hopen]
  refine ⟨?_, hsent, trivial⟩
  rw [hdevices, List.map_append]
  rfl

/-- A stop that is not answered only moves on. -/
theorem visitStop_silence {state : PassState} {stop : UInt16 × UInt8}
    (hopen : discovery.Open state stop)
    (h : ∀ index, state.scan.sent ≤ index →
      index < state.scan.sent +
        discovery.unansweredProbes pass (discovery.stopAddress stop) →
      discovery.outcomes index = silence) :
    let next := discovery.visitStop pass state stop
    next.scan.report.devices = state.scan.report.devices ∧
      next.scan.sent = state.scan.sent +
        discovery.unansweredProbes pass (discovery.stopAddress stop) ∧
      next.visited = state.visited ++ [discovery.stopAddress stop] := by
  intro next
  obtain ⟨-, hdevices, hsent⟩ := @probeAddress_silence discovery pass stop.1
    stop.2 (discovery.stopAddress stop) state.scan h
  simp only [next, visitStop_of_open hopen]
  exact ⟨hdevices, hsent, trivial⟩

theorem unanswered_scanPass (hvalid : discovery.profile.validate = .ok ())
    {scan : Scan} (hquiet : discovery.QuietFrom scan.sent) :
    discovery.Unanswered pass { scan } (discovery.scanPass pass scan)
      (stops discovery.profile.modules) := by
  rw [scanPass_eq]
  refine unanswered_visitStops ?_ hquiet
  rw [List.nil_append, map_stopAddress_stops]
  exact nodup_addresses hvalid

def initialScan (discovery : Discovery) : Scan :=
  { wakePrefix := some discovery.profile.wakePrefix }

/-- The first pass is always made. -/
theorem mem_requests_of_first {visit : Visit} {probe : Probe}
    (hvisit : visit ∈
      (discovery.scanPass 0 discovery.initialScan).visits)
    (hprobe : probe ∈ visit.probes) :
    probe ∈ requests discovery.discoverValidated.1 := by
  have hpasses : discovery.options.passes.val.toNat ≠ 0 := by
    intro hzero
    exact discovery.options.passes.property (UInt8.toNat_inj.mp hzero)
  obtain ⟨remaining, hremaining⟩ := Nat.exists_eq_succ_of_ne_zero hpasses
  have hscan : requests discovery.discoverValidated.1 = requests
      (discovery.scanPasses (remaining + 1) 0 discovery.initialScan).1 := by
    simp only [discoverValidated, hremaining]
    rfl
  rw [hscan, requests_scanPasses]
  exact List.mem_append_left _ (List.mem_flatMap_of_mem hvisit hprobe)

theorem mem_requests_of_second {visit : Visit} {probe : Probe}
    (hpasses : 2 ≤ discovery.options.passes.val.toNat)
    (hleft : (discovery.scanPass 0
        discovery.initialScan).scan.report.devices.length <
      (discovery.scanPass 0 discovery.initialScan).visited.length)
    (hvisit : visit ∈ (discovery.scanPass 1
      (discovery.afterPass 0 discovery.initialScan)).visits)
    (hprobe : probe ∈ visit.probes) :
    probe ∈ requests discovery.discoverValidated.1 := by
  obtain ⟨remaining, hremaining⟩ := Nat.exists_eq_add_of_le' hpasses
  have hscan : requests discovery.discoverValidated.1 = requests
      (discovery.scanPasses (remaining + 1 + 1) 0
        discovery.initialScan).1 := by
    simp only [discoverValidated, hremaining]
    rfl
  rw [hscan, requests_scanPasses, if_neg (by omega), requests_scanPasses]
  exact List.mem_append_right _ (List.mem_append_left _
    (List.mem_flatMap_of_mem hvisit hprobe))

/-- A silent line is asked everywhere before a device is found. -/
theorem tries_of_silent (hvalid : discovery.profile.validate = .ok ())
    (hquiet : discovery.QuietFrom 0) {stop : UInt16 × UInt8}
    (hstop : stop ∈ stops discovery.profile.modules) :
    ∃ probes : List Probe, discovery.Tries 0 stop.2
        (discovery.stopAddress stop) true probes ∧
      ∀ probe ∈ probes, probe ∈ requests discovery.discoverValidated.1 := by
  have hunanswered := @unanswered_scanPass discovery 0 hvalid
    discovery.initialScan hquiet
  obtain ⟨visit, hvisit, htries⟩ := hunanswered.tries stop hstop (by
    simp [initialScan])
  exact ⟨visit.probes, htries, fun probe =>
    mem_requests_of_first hvisit⟩

/-- The first address answers, and the later ones are asked after that. -/
theorem tries_of_first (hvalid : discovery.profile.validate = .ok ())
    {first : UInt16 × UInt8} {rest : List (UInt16 × UInt8)}
    (hstops : stops discovery.profile.modules = first :: rest)
    (hanswer : discovery.outcomes 0 =
      .ok (identityReply (discovery.stopAddress first)))
    (hquiet : discovery.QuietFrom 1) {stop : UInt16 × UInt8}
    (hstop : stop ∈ rest) :
    ∃ probes : List Probe, discovery.Tries 0 stop.2
        (discovery.stopAddress stop) false probes ∧
      ∀ probe ∈ probes, probe ∈ requests discovery.discoverValidated.1 := by
  have hnodup := nodup_addresses hvalid
  rw [← map_stopAddress_stops, hstops, List.map_cons] at hnodup
  have hopen : discovery.Open { scan := discovery.initialScan } first :=
    ⟨List.not_mem_nil, List.not_mem_nil⟩
  obtain ⟨hdevices, hsent, hvisited⟩ :=
    @visitStop_identity discovery 0 _ first _ hopen hanswer
  have hscan := discovery.scanPass_eq 0 discovery.initialScan
  rw [hstops, List.foldl_cons] at hscan
  generalize discovery.visitStop 0 { scan := discovery.initialScan } first =
    state at *
  have hunanswered : discovery.Unanswered 0 state
      (discovery.scanPass 0 discovery.initialScan) rest := by
    rw [hscan]
    refine unanswered_visitStops ?_ ?_
    · rw [hvisited]
      exact hnodup
    · rw [hsent]
      exact hquiet
  have hmissing : discovery.stopAddress stop ∉
      state.scan.report.devices.map DiscoveredDevice.address := by
    rw [hdevices]
    intro hmem
    have hsame := List.mem_singleton.mp hmem
    refine (List.nodup_cons.mp hnodup).1 ?_
    rw [← hsame]
    exact List.mem_map_of_mem hstop
  obtain ⟨visit, hvisit, htries⟩ := hunanswered.tries stop hstop hmissing
  refine ⟨visit.probes, ?_, fun probe => mem_requests_of_first hvisit⟩
  have hfound : state.scan.report.devices.isEmpty = false := by
    cases hlist : state.scan.report.devices with
    | nil =>
        rw [hlist] at hdevices
        contradiction
    | cons device devices => rfl
  rwa [hfound] at htries

theorem tries_of_second (hvalid : discovery.profile.validate = .ok ())
    (hpasses : 2 ≤ discovery.options.passes.val.toNat)
    {first second : UInt16 × UInt8} {rest : List (UInt16 × UInt8)}
    (hstops : stops discovery.profile.modules = first :: second :: rest)
    (houtcomes : ∀ index, discovery.outcomes index =
      if index = discovery.unansweredProbes 0 (discovery.stopAddress first)
      then .ok (identityReply (discovery.stopAddress second))
      else silence) :
    ∃ probes : List Probe, discovery.Tries 1 first.2
        (discovery.stopAddress first) false probes ∧
      ∀ probe ∈ probes, probe ∈ requests discovery.discoverValidated.1 := by
  have hnodup := nodup_addresses hvalid
  have hlength := (passing_scanPass hvalid 0 discovery.initialScan).visited
  rw [← map_stopAddress_stops, hstops, List.map_cons,
    List.map_cons] at hnodup hlength
  have hscan := discovery.scanPass_eq 0 discovery.initialScan
  rw [hstops, List.foldl_cons, List.foldl_cons] at hscan
  -- The first address does not answer.
  obtain ⟨hdevices, hsent, hvisited⟩ := @visitStop_silence discovery 0
    { scan := discovery.initialScan } first
    ⟨List.not_mem_nil, List.not_mem_nil⟩ (by
      intro index _ hindex
      rw [houtcomes, if_neg]
      change index < 0 + _ at hindex
      omega)
  generalize discovery.visitStop 0 { scan := discovery.initialScan } first =
    silent at *
  change silent.scan.report.devices = [] at hdevices
  change silent.scan.sent = 0 + _ at hsent
  rw [Nat.zero_add] at hsent
  have hopen : discovery.Open silent second := by
    constructor
    · rw [hvisited]
      intro hmem
      have hsame := List.mem_singleton.mp hmem
      refine (List.nodup_cons.mp hnodup).1 ?_
      rw [← hsame]
      exact List.mem_cons_self
    · rw [hdevices]
      exact List.not_mem_nil
  -- The second address answers.
  obtain ⟨hfound, hnext, hpassed⟩ := @visitStop_identity discovery 0 silent
    second (discovery.stopAddress second) hopen (by
      rw [houtcomes, if_pos hsent])
  rw [hdevices] at hfound
  generalize discovery.visitStop 0 silent second = answered at *
  have hquiet : discovery.QuietFrom answered.scan.sent := by
    intro index hindex
    rw [houtcomes, if_neg (by omega)]
  have hrest : discovery.Unanswered 0 answered
      (discovery.scanPass 0 discovery.initialScan) rest := by
    rw [hscan]
    refine unanswered_visitStops ?_ hquiet
    rw [hpassed, hvisited]
    exact hnodup
  have hknown : (discovery.scanPass 0
      discovery.initialScan).scan.report.devices.map
        DiscoveredDevice.address = [discovery.stopAddress second] := by
    rw [hrest.devices]
    exact hfound
  -- An address is left, so that a silent pass follows.
  have hafter := @unanswered_scanPass discovery 1 hvalid
    (discovery.afterPass 0 discovery.initialScan)
    fun index hindex => hquiet index (hrest.sent.trans hindex)
  have hmissing : discovery.stopAddress first ∉
      (discovery.afterPass 0
        discovery.initialScan).report.devices.map
          DiscoveredDevice.address := by
    change discovery.stopAddress first ∉ (discovery.scanPass 0
      discovery.initialScan).scan.report.devices.map DiscoveredDevice.address
    rw [hknown, List.mem_singleton]
    rintro hsame
    refine (List.nodup_cons.mp hnodup).1 ?_
    rw [hsame]
    exact List.mem_cons_self
  obtain ⟨visit, hvisit, htries⟩ := hafter.tries first
    (by rw [hstops]; exact List.mem_cons_self) hmissing
  refine ⟨visit.probes, ?_, ?_⟩
  · have hsome : (discovery.afterPass 0
        discovery.initialScan).report.devices.isEmpty = false := by
      change (discovery.scanPass 0
        discovery.initialScan).scan.report.devices.isEmpty = false
      cases hlist : (discovery.scanPass 0
          discovery.initialScan).scan.report.devices with
      | nil =>
          rw [hlist] at hknown
          contradiction
      | cons device devices => rfl
    rwa [hsome] at htries
  · intro probe
    refine mem_requests_of_second hpasses ?_ hvisit
    have hone := congrArg List.length hknown
    rw [List.length_map, List.length_singleton] at hone
    rw [hone, hlength]
    simp

def withOutcomes (discovery : Discovery)
    (outcomes : Nat → Except RequestError DeviceReply) : Discovery :=
  { discovery with outcomes }

theorem Tries.executable {node : UInt8} {address : Address}
    {noDevicesFound : Bool} {probes : List Probe}
    (h : discovery.Tries pass node address noDevicesFound probes)
    (hall : ∀ probe ∈ probes, probe.retry.Executable) :
    (discovery.probePolicy node false noDevicesFound).Executable ∧
      ((discovery.hinted pass address).isSome →
        (discovery.probePolicy node true noDevicesFound).Executable) := by
  constructor
  · obtain ⟨probe, hprobe, hretry⟩ := h.conservative
    exact hretry ▸ hall probe hprobe
  · intro hhinted
    obtain ⟨probe, hprobe, hretry⟩ := h.hinted hhinted
    exact hretry ▸ hall probe hprobe

theorem exists_stop {node : UInt8}
    (h : node ∈ LineProfile.physicalAddresses discovery.profile.modules) :
    ∃ module, (module, node) ∈ stops discovery.profile.modules := by
  rw [← map_snd_stops] at h
  obtain ⟨⟨module, other⟩, hstop, rfl⟩ := List.mem_map.mp h
  exact ⟨module, hstop⟩

section

variable (haccepted : discovery.Accepted)
  (hall : ∀ outcomes, ∀ probe ∈
    requests (discovery.withOutcomes outcomes).discoverValidated.1,
      probe.retry.Executable)
include haccepted hall

/-- The policies of a scan that no device answers. -/
theorem executable_of_silent {node : UInt8}
    (hnode : node ∈
      LineProfile.physicalAddresses discovery.profile.modules) :
    (discovery.probePolicy node false true).Executable ∧
      (UsesHint discovery.profile discovery.master discovery.options node →
        (discovery.probePolicy node true true).Executable) := by
  obtain ⟨module, hstop⟩ := exists_stop hnode
  obtain ⟨probes, htries, hmem⟩ := @tries_of_silent
    (discovery.withOutcomes fun _ => silence) haccepted.profile
    (fun _ _ => rfl) (module, node) hstop
  obtain ⟨hconservative, hhinted⟩ := htries.executable fun probe hprobe =>
    hall _ probe (hmem probe hprobe)
  refine ⟨hconservative, fun hhint => hhinted ?_⟩
  rw [hinted_isSome_iff]
  exact ⟨rfl, hhint⟩

theorem executable_of_found {index : Nat} {node : UInt8}
    (hnode : (LineProfile.physicalAddresses
      discovery.profile.modules)[index]? = some node)
    (hlater : index ≠ 0 ∨ 2 ≤ discovery.options.passes.val.toNat ∧
      2 ≤ (LineProfile.physicalAddresses
        discovery.profile.modules).length) :
    (discovery.probePolicy node false false).Executable := by
  rw [← map_snd_stops] at hnode hlater
  cases hstops : stops discovery.profile.modules with
  | nil =>
      rw [hstops] at hnode
      contradiction
  | cons first rest =>
  rw [hstops, List.map_cons] at hnode hlater
  cases index with
  | succ index =>
      rw [List.getElem?_cons_succ] at hnode
      obtain ⟨stop, hstop, rfl⟩ :=
        List.mem_map.mp (List.mem_of_getElem? hnode)
      obtain ⟨probes, htries, hmem⟩ := @tries_of_first
        (discovery.withOutcomes fun index =>
          if index = 0 then .ok (identityReply (discovery.stopAddress first))
          else silence) haccepted.profile first rest hstops rfl
        (fun index hindex => if_neg (by omega)) stop hstop
      exact (htries.executable fun probe hprobe =>
        hall _ probe (hmem probe hprobe)).1
  | zero =>
      rw [List.getElem?_cons_zero, Option.some.injEq] at hnode
      subst hnode
      obtain ⟨hpasses, hlength⟩ := hlater.resolve_left (by simp)
      cases rest with
      | nil => simp at hlength
      | cons second rest =>
          obtain ⟨probes, htries, hmem⟩ := @tries_of_second
            (discovery.withOutcomes fun index =>
              if index = discovery.unansweredProbes 0
                (discovery.stopAddress first)
              then .ok (identityReply (discovery.stopAddress second))
              else silence) haccepted.profile hpasses first second rest
            hstops fun _ => rfl
          exact (htries.executable fun probe hprobe =>
            hall _ probe (hmem probe hprobe)).1

theorem lasting_of_executable :
    Lasting discovery.profile discovery.master discovery.options
      discovery.addressTimings := by
  constructor
  · obtain ⟨node, nodes, hnodes⟩ := List.exists_cons_of_ne_nil
      (LineProfile.physicalAddresses_ne_nil haccepted.profile)
    have hnode : node ∈
        LineProfile.physicalAddresses discovery.profile.modules := by
      rw [hnodes]
      exact List.mem_cons_self
    have hsilent := (executable_of_silent haccepted hall hnode).1
    exact ((RetryPolicy.executable_iff _).mp hsilent).2.2.2
  · intro node hnode hown
    have hsilent := (executable_of_silent haccepted hall hnode).1
    exact ((haccepted.executable_iff hown false true).mp hsilent).2
  · intro node hnode hown hhint
    have hsilent := (executable_of_silent haccepted hall hnode).2 hhint
    exact ((haccepted.executable_iff hown true true).mp hsilent).2
  · intro index node hnode hown hlater
    have hfound := executable_of_found haccepted hall hnode hlater
    exact ((haccepted.executable_iff hown false false).mp hfound).2

end

end Necessary

end Discovery

namespace DiscoveryCall

def Accepts (call : DiscoveryCall) (horizon : Nat) (readings : UInt8 → Nat)
    (profile : LineProfile) (master : Master) : Prop :=
  ∃ outcomes result,
    call.run horizon readings profile master outcomes = .ok result

theorem check_of_accepts {call : DiscoveryCall} {horizon : Nat}
    {readings : UInt8 → Nat} {profile : LineProfile} {master : Master}
    (h : call.Accepts horizon readings profile master) :
    call.check horizon readings profile = .ok () := by
  obtain ⟨outcomes, result, hrun⟩ := h
  rw [run_eq] at hrun
  cases hcheck : call.check horizon readings profile with
  | error error =>
      rw [hcheck] at hrun
      contradiction
  | ok value => rfl

theorem run_of_check {call : DiscoveryCall} {horizon : Nat}
    {readings : UInt8 → Nat} {profile : LineProfile} (master : Master)
    (h : call.check horizon readings profile = .ok ())
    (outcomes : Nat → Except RequestError DeviceReply) :
    call.run horizon readings profile master outcomes =
      .ok (call.discovery profile master outcomes).discoverValidated := by
  rw [run_eq, h]
  rfl

/--
A link takes every probe of the scans of an accepted call, however its requests
end, exactly when the settings last.  The requests before the first probe that
is refused were all taken, so that they may end in any way.
-/
theorem discovery_probes_executable_iff (call : DiscoveryCall)
    (horizon : Nat) (readings : UInt8 → Nat) (profile : LineProfile)
    (master : Master)
    (haccepts : call.Accepts horizon readings profile master) :
    (∀ outcomes logs report,
      call.run horizon readings profile master outcomes =
        .ok (logs, report) →
      ∀ probe ∈ Discovery.requests logs, probe.retry.Executable) ↔
    Lasting profile master call.options call.addressTimings := by
  have hcheck := check_of_accepts haccepts
  have hrun := run_of_check master hcheck
  have hlasts : ∀ outcomes,
      Lasting (call.discovery profile master outcomes).profile
        (call.discovery profile master outcomes).master
        (call.discovery profile master outcomes).options
        (call.discovery profile master outcomes).addressTimings ↔
      Lasting profile master call.options call.addressTimings := by
    intro outcomes
    cases call <;> exact Iff.rfl
  constructor
  · intro hall
    rw [← hlasts fun _ => Discovery.silence]
    refine Discovery.lasting_of_executable (accepted_of_check hcheck _) ?_
    intro outcomes
    have hsame : (call.discovery profile master fun _ =>
        Discovery.silence).withOutcomes outcomes =
          call.discovery profile master outcomes := by
      cases call <;> rfl
    rw [hsame]
    exact hall outcomes _ _ (hrun outcomes)
  · intro hlasting outcomes logs report hresult
    rw [hrun outcomes, Except.ok.injEq] at hresult
    have hall := Discovery.executable_discoverValidated
      (accepted_of_check hcheck outcomes) ((hlasts outcomes).mpr hlasting)
    rw [hresult] at hall
    exact hall

def twoAddresses (firstResponse : Nat) : LineProfile :=
  { name := "line", timing := { firstResponse }
    modules := [⟨1, ⟨0, 1⟩, 0⟩] }

theorem discovery_probes_executable_iff_default :
    line.Accepts 0 (fun _ => 0) (twoAddresses 5000000000) .primary ∧
      ∀ outcomes logs report,
        line.run 0 (fun _ => 0) (twoAddresses 5000000000) .primary outcomes =
          .ok (logs, report) →
        ∀ probe ∈ Discovery.requests logs, probe.retry.Executable := by
  have haccepts : line.Accepts 0 (fun _ => 0) (twoAddresses 5000000000)
      .primary := ⟨fun _ => Discovery.silence, _, run_of_check .primary
        (by decide +kernel) _⟩
  refine ⟨haccepts, (discovery_probes_executable_iff line 0 (fun _ => 0)
    (twoAddresses 5000000000) .primary haccepts).mpr ?_⟩
  constructor
  · decide
  · intro _ _ _
    decide
  · intro _ _ _ _
    decide
  · intro _ _ _ _ _
    decide

def threeHours : Nat := 3 * 60 * 60 * 1000000000

def refusals (_ : Nat) : Except RequestError DeviceReply :=
  .error (.retryPolicy .totalTimeoutLimit)

/-- Twelve attempts of three hours are accepted, and no probe is taken. -/
theorem discovery_probes_refused :
    ∃ logs report,
      line.run 0 (fun _ => 0) (twoAddresses threeHours) .primary refusals =
        .ok (logs, report) ∧
      Discovery.requests logs ≠ [] ∧
      ∀ probe ∈ Discovery.requests logs, probe.retry.validateRuntime
        (2 * maximumRetryDuration) 0 = .error .totalTimeoutLimit := by
  refine ⟨_, _, run_of_check .primary (by decide +kernel) refusals, ?_, ?_⟩
  · decide +kernel
  · decide +kernel

end DiscoveryCall

end HartLink.Service

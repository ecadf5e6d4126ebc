import HartLink.Command.Accepting
import HartLink.Command.Sessions

/-!
# Plans, campaigns and recovery

Three loops over requests on one link.  A plan stops at its first failure unless it
is told to continue, a campaign judges all of its cases, and the recovery of a link
asks every known address who is there.  The calls of a loop are handled one after
the other; the handlings are numbered.
-/

namespace HartLink.Command

open HartLink.Foundation
open HartLink.Wire
open HartLink.Operation
open HartLink.Service

/-! ## Plans -/

inductive PlanExpectation where
  | success
  | responseCodes (codes : Bytes)
  | dataPrefix (front : Bytes)
  deriving DecidableEq, Repr

def expectationMatches (expectation : PlanExpectation) (reply : DeviceReply) :
    Bool :=
  match expectation with
  | .success => reply.responseCode = 0
  | .responseCodes codes =>
      !hasCommunicationError reply && codes.contains reply.responseCode
  | .dataPrefix front =>
      reply.responseCode = 0 && !hasCommunicationError reply &&
        front.isPrefixOf reply.data

structure PlanStep where
  name : String
  request : Request
  queue : QueueId
  retry : RetryPolicy
  expectation : PlanExpectation

structure Plan where
  steps : List PlanStep
  continueAfterFailure : Bool := false

structure StepReport where
  name : String
  result : Except RequestError DeviceReply
  expectationMet : Bool

def isOk {Error Value : Type} (result : Except Error Value) : Bool :=
  match result with
  | .ok _ => true
  | .error _ => false

def PlanStep.run (step : PlanStep) (link : SharedLink) (handling : Handling) :
    StepReport × List Transmission :=
  let run := link.request handling step.request step.queue step.retry
  ({ name := step.name, result := run.result
     expectationMet := match run.result with
      | .ok reply => expectationMatches step.expectation reply
      | .error _ => false }, run.transmissions)

/-- The loop of `Plan::execute` from the step with a number on. -/
def executeSteps (link : SharedLink) (handlings : Nat → Handling)
    (continueAfterFailure : Bool) :
    Nat → List PlanStep → List StepReport × List Transmission
  | _, [] => ([], [])
  | index, step :: steps =>
      let (report, transmissions) := step.run link (handlings index)
      let exchangeFailed := !isOk report.result
      if (exchangeFailed || !report.expectationMet) &&
          !continueAfterFailure then
        ([report], transmissions)
      else
        let (reports, later) :=
          executeSteps link handlings continueAfterFailure (index + 1) steps
        (report :: reports, transmissions ++ later)

def Plan.continuingAfterFailure (plan : Plan) (enabled : Bool) : Plan :=
  { plan with continueAfterFailure := enabled }

def Plan.execute (plan : Plan) (link : SharedLink)
    (handlings : Nat → Handling) : List StepReport × List Transmission :=
  executeSteps link handlings plan.continueAfterFailure 0 plan.steps

/-! ## Campaigns -/

structure CaseExpectation where
  responseCodes : Bytes
  dataPrefix : Option Bytes
  deriving DecidableEq, Repr

structure VerificationCase where
  name : String
  request : Request
  expectation : CaseExpectation
  retry : RetryPolicy

structure CaseResult where
  name : String
  elapsed : Nat
  passed : Bool
  error : Option RequestError
  deriving DecidableEq

def CaseExpectation.holds (expectation : CaseExpectation)
    (reply : DeviceReply) : Bool :=
  let codeOk := expectation.responseCodes.contains reply.responseCode &&
    !hasCommunicationError reply
  let dataOk := expectation.dataPrefix.all fun front =>
    front.isPrefixOf reply.data
  codeOk && dataOk

def VerificationCase.run (verification : VerificationCase) (link : HostLink)
    (handling : Handling) : CaseResult × List Transmission :=
  let run := link.request handling verification.request link.defaultQueue
    verification.retry
  let (passed, error) := match run.result with
    | .ok reply => (verification.expectation.holds reply, none)
    | .error error => (false, some error)
  ({ name := verification.name
     elapsed := handling.endedAt - handling.startedAt, passed, error },
    run.transmissions)

/-- The loop of `run_campaign` from the case with a number on. -/
def runCampaign (link : HostLink) (handlings : Nat → Handling) :
    Nat → List VerificationCase → List CaseResult × List Transmission
  | _, [] => ([], [])
  | index, verification :: cases =>
      let (result, transmissions) := verification.run link (handlings index)
      let (results, later) := runCampaign link handlings (index + 1) cases
      (result :: results, transmissions ++ later)

/-- `VerificationReport::passed`. -/
def campaignPassed (results : List CaseResult) : Bool :=
  !results.isEmpty && results.all (·.passed)

/-! ## A campaign beside a plan -/

def PlanExpectation.toCase : PlanExpectation → CaseExpectation
  | .success => ⟨[0], none⟩
  | .responseCodes codes => ⟨codes, none⟩
  | .dataPrefix front => ⟨[0], some front⟩

def PlanStep.toCase (step : PlanStep) : VerificationCase where
  name := step.name
  request := step.request
  expectation := step.expectation.toCase
  retry := step.retry

theorem holds_toCase (expectation : PlanExpectation) (reply : DeviceReply) :
    expectation.toCase.holds reply = expectationMatches expectation reply := by
  have hzero : reply.responseCode = 0 →
      hasCommunicationError reply = false := by
    intro hcode
    rw [hasCommunicationError, hcode]
    rfl
  cases expectation with
  | success =>
      by_cases hcode : reply.responseCode = 0
      · simp [PlanExpectation.toCase, CaseExpectation.holds,
          expectationMatches, hcode, hzero hcode]
      · simp [PlanExpectation.toCase, CaseExpectation.holds,
          expectationMatches, hcode]
  | responseCodes codes =>
      simp [PlanExpectation.toCase, CaseExpectation.holds,
        expectationMatches, Bool.and_comm]
  | dataPrefix front =>
      by_cases hcode : reply.responseCode = 0
      · simp [PlanExpectation.toCase, CaseExpectation.holds,
          expectationMatches, hcode]
      · simp [PlanExpectation.toCase, CaseExpectation.holds,
          expectationMatches, hcode]

def errorOf {Error Value : Type} (result : Except Error Value) :
    Option Error :=
  match result with
  | .ok _ => none
  | .error error => some error

theorem run_toCase {step : PlanStep} {link : HostLink}
    (hqueue : step.queue = link.defaultQueue) (handling : Handling) :
    let result := (step.toCase.run link handling).1
    let report := (step.run link.toSharedLink handling).1
    (result.name, result.passed, result.error) =
        (report.name, report.expectationMet, errorOf report.result) ∧
      (step.toCase.run link handling).2 =
        (step.run link.toSharedLink handling).2 := by
  simp only [VerificationCase.run, PlanStep.run, PlanStep.toCase, hqueue]
  cases (link.request handling step.request link.defaultQueue
      step.retry).result with
  | error error => exact ⟨rfl, trivial⟩
  | ok reply =>
      dsimp only
      rw [holds_toCase]
      exact ⟨rfl, trivial⟩

theorem isOk_of_expectationMet {step : PlanStep} {link : SharedLink}
    {handling : Handling}
    (h : (step.run link handling).1.expectationMet = true) :
    isOk (step.run link handling).1.result = true := by
  unfold PlanStep.run at h ⊢
  cases hresult : (link.request handling step.request step.queue
      step.retry).result with
  | error error =>
      simp only [hresult] at h
      contradiction
  | ok reply =>
      dsimp only
      rw [hresult]
      rfl

section Loops

variable (link : SharedLink) (handlings : Nat → Handling)

theorem executeSteps_continuing (index : Nat) (step : PlanStep)
    (steps : List PlanStep) :
    executeSteps link handlings true index (step :: steps) =
      ((step.run link (handlings index)).1 ::
          (executeSteps link handlings true (index + 1) steps).1,
        (step.run link (handlings index)).2 ++
          (executeSteps link handlings true (index + 1) steps).2) := by
  simp [executeSteps]

theorem executeSteps_stopping (index : Nat) (step : PlanStep)
    (steps : List PlanStep) :
    executeSteps link handlings false index (step :: steps) =
      if (step.run link (handlings index)).1.expectationMet then
        ((step.run link (handlings index)).1 ::
            (executeSteps link handlings false (index + 1) steps).1,
          (step.run link (handlings index)).2 ++
            (executeSteps link handlings false (index + 1) steps).2)
      else ([(step.run link (handlings index)).1],
        (step.run link (handlings index)).2) := by
  cases hmet : (step.run link (handlings index)).1.expectationMet with
  | true => simp [executeSteps, hmet, isOk_of_expectationMet hmet]
  | false => simp [executeSteps, hmet]

theorem length_continuing (index : Nat) (steps : List PlanStep) :
    (executeSteps link handlings true index steps).1.length =
      steps.length := by
  induction steps generalizing index with
  | nil => rfl
  | cons step steps ih =>
      rw [executeSteps_continuing, List.length_cons, List.length_cons, ih]

theorem stopping_prefix (index : Nat) (steps : List PlanStep) :
    (executeSteps link handlings false index steps).1 <+:
        (executeSteps link handlings true index steps).1 ∧
      (executeSteps link handlings false index steps).2 <+:
        (executeSteps link handlings true index steps).2 := by
  induction steps generalizing index with
  | nil => exact ⟨List.prefix_refl [], List.prefix_refl []⟩
  | cons step steps ih =>
      rw [executeSteps_continuing, executeSteps_stopping]
      obtain ⟨hreports, htransmissions⟩ := ih (index + 1)
      split_ifs
      · exact ⟨List.cons_prefix_cons.mpr ⟨rfl, hreports⟩,
          (List.prefix_append_right_inj _).mpr htransmissions⟩
      · exact ⟨List.cons_prefix_cons.mpr ⟨rfl, List.nil_prefix⟩,
          List.prefix_append _ _⟩

theorem met_of_mem_dropLast (index : Nat) (steps : List PlanStep) :
    ∀ report ∈ (executeSteps link handlings false index steps).1.dropLast,
      report.expectationMet = true := by
  induction steps generalizing index with
  | nil => simp [executeSteps]
  | cons step steps ih =>
      rw [executeSteps_stopping]
      split_ifs with hmet
      · intro report hreport
        cases hlater : (executeSteps link handlings false (index + 1)
            steps).1 with
        | nil => simp [hlater] at hreport
        | cons next later =>
            dsimp only at hreport
            rw [hlater, List.dropLast_cons_of_ne_nil (by simp), List.mem_cons]
              at hreport
            rcases hreport with rfl | hreport
            · exact hmet
            · exact ih (index + 1) report (by rw [hlater]; exact hreport)
      · simp

theorem failed_of_short (index : Nat) (steps : List PlanStep)
    (h : (executeSteps link handlings false index steps).1.length <
      steps.length) :
    ∃ report, (executeSteps link handlings false index steps).1.getLast? =
        some report ∧ report.expectationMet = false := by
  induction steps generalizing index with
  | nil => simp at h
  | cons step steps ih =>
      rw [executeSteps_stopping] at h ⊢
      split_ifs at h ⊢ with hmet
      · rw [List.length_cons, List.length_cons] at h
        obtain ⟨report, hlast, hfailed⟩ := ih (index + 1) (by omega)
        refine ⟨report, ?_, hfailed⟩
        dsimp only
        rw [List.getLast?_cons, hlast]
        rfl
      · exact ⟨_, rfl, Bool.eq_false_iff.mpr hmet⟩

end Loops

theorem runCampaign_toCase {link : HostLink} (handlings : Nat → Handling)
    (index : Nat) {steps : List PlanStep}
    (hqueue : ∀ step ∈ steps, step.queue = link.defaultQueue) :
    (runCampaign link handlings index (steps.map PlanStep.toCase)).1.map
          (fun result => (result.name, result.passed, result.error)) =
        (executeSteps link.toSharedLink handlings true index steps).1.map
          (fun report =>
            (report.name, report.expectationMet, errorOf report.result)) ∧
      (runCampaign link handlings index (steps.map PlanStep.toCase)).2 =
        (executeSteps link.toSharedLink handlings true index steps).2 := by
  induction steps generalizing index with
  | nil => exact ⟨rfl, rfl⟩
  | cons step steps ih =>
      obtain ⟨hverdict, htransmissions⟩ :=
        run_toCase (hqueue step List.mem_cons_self) (handlings index)
      obtain ⟨hverdicts, hlater⟩ := ih (index + 1)
        fun other hother => hqueue other (List.mem_cons_of_mem _ hother)
      rw [executeSteps_continuing, List.map_cons, List.map_cons, ← hverdicts,
        ← hverdict, ← htransmissions, ← hlater]
      exact ⟨rfl, rfl⟩

/--
A campaign, the plan that continues and the plan that stops, over the same steps
and handlings: the campaign judges and transmits as the plan that continues does;
the plan that stops does the same up to its first failure and no more; and the
campaign passes exactly if there is something to do and the plan that stops does it
all.
-/
structure JudgesAlike (steps : List PlanStep)
    (campaign : List CaseResult × List Transmission)
    (continuing stopping : List StepReport × List Transmission) : Prop where
  verdicts :
    campaign.1.map (fun result => (result.name, result.passed, result.error)) =
      continuing.1.map fun report =>
        (report.name, report.expectationMet, errorOf report.result)
  transmissions : campaign.2 = continuing.2
  first : stopping.1 <+: continuing.1 ∧ stopping.2 <+: continuing.2
  met : ∀ report ∈ stopping.1.dropLast, report.expectationMet = true
  failed : stopping.1.length < steps.length →
    ∃ report, stopping.1.getLast? = some report ∧
      report.expectationMet = false
  passed : campaignPassed campaign.1 = true ↔
    steps ≠ [] ∧ stopping.1.length = steps.length ∧
      ∀ report ∈ stopping.1, report.expectationMet = true

theorem campaignPassed_iff {results : List CaseResult}
    {reports : List StepReport}
    (h : results.map (fun result =>
        (result.name, result.passed, result.error)) =
      reports.map fun report =>
        (report.name, report.expectationMet, errorOf report.result)) :
    campaignPassed results = true ↔
      reports ≠ [] ∧ ∀ report ∈ reports, report.expectationMet = true := by
  have hverdicts : results.map (·.passed) = reports.map (·.expectationMet) := by
    have hsecond := congrArg (List.map fun verdict => verdict.2.1) h
    rw [List.map_map, List.map_map] at hsecond
    exact hsecond
  have hempty : results = [] ↔ reports = [] := by
    rw [← List.map_eq_nil_iff (f := CaseResult.passed), hverdicts,
      List.map_eq_nil_iff]
  have hall : (∀ result ∈ results, result.passed = true) ↔
      ∀ report ∈ reports, report.expectationMet = true := by
    have hresults : (∀ result ∈ results, result.passed = true) ↔
        ∀ passed ∈ results.map (·.passed), passed = true := by simp
    rw [hresults, hverdicts]
    simp
  rw [campaignPassed, Bool.and_eq_true, List.all_eq_true, hall,
    Bool.not_eq_true', ← Bool.not_eq_true, List.isEmpty_iff, hempty]

theorem campaign_judges_as_plan (link : HostLink)
    (handlings : Nat → Handling) {plan : Plan}
    (hqueue : ∀ step ∈ plan.steps, step.queue = link.defaultQueue) :
    JudgesAlike plan.steps
      (runCampaign link handlings 0 (plan.steps.map PlanStep.toCase))
      ((plan.continuingAfterFailure true).execute link.toSharedLink handlings)
      ((plan.continuingAfterFailure false).execute link.toSharedLink
        handlings) := by
  obtain ⟨hverdicts, htransmissions⟩ :=
    runCampaign_toCase handlings 0 hqueue
  have hfirst := stopping_prefix link.toSharedLink handlings 0 plan.steps
  have hfailed := failed_of_short link.toSharedLink handlings 0 plan.steps
  have hlength := length_continuing link.toSharedLink handlings 0 plan.steps
  refine ⟨hverdicts, htransmissions, hfirst,
    met_of_mem_dropLast _ _ _ _, hfailed, ?_⟩
  rw [campaignPassed_iff hverdicts, ← List.length_pos_iff, hlength,
    List.length_pos_iff]
  refine and_congr_right' ⟨fun hmet => ⟨?_, ?_⟩, fun ⟨hall, hmet⟩ => ?_⟩
  · -- A plan that had stopped early would have a failure to show.
    refine (hlength ▸ hfirst.1.length_le).antisymm
      (Nat.le_of_not_lt fun hshort => ?_)
    obtain ⟨report, hlast, hnot⟩ := hfailed hshort
    have hmem := hfirst.1.subset (List.mem_of_getLast? hlast)
    rw [hmet report hmem] at hnot
    contradiction
  · exact fun report hreport => hmet report (hfirst.1.subset hreport)
  · have hsame := hfirst.1.eq_of_length (hall.trans hlength.symm)
    rw [← hsame]
    exact hmet

/-- Three readings of the device at polling address 0. -/
def stoppedPlan : Plan where
  steps :=
    [⟨"identity", identifyRequest, ⟨0⟩, .default, .success⟩,
      ⟨"variable", .new (.Polling 0 .primary) ⟨1⟩ [], ⟨0⟩, .default,
        .dataPrefix [39]⟩,
      ⟨"current", .new (.Polling 0 .primary) ⟨2⟩ [], ⟨0⟩, .default, .success⟩]

def stoppedLink : HostLink where
  client := ⟨.allowAll, .preserveRequested⟩
  queues := [⟨0⟩]
  horizon := 10 ^ 18
  defaultQueue := ⟨0⟩
  defaultRetry := .default

def stoppedHandlings : Nat → Handling
  | 0 => ⟨0, 0, 0, {}, 0, .exchanged 0
      (fun _ => ⟨0, ⟨0, none⟩, [⟨1, .read identifyResponse.encoding⟩], 1, 1⟩)
      { decoder := .new ⟨4096, 2, .strict⟩, readBufferSize := 512
        burstHub := false }, 1⟩
  | _ => ⟨1, 1, 1, {}, 1, .stopped, 1⟩

theorem campaign_judges_as_plan_stopped :
    JudgesAlike stoppedPlan.steps
      (runCampaign stoppedLink stoppedHandlings 0
        (stoppedPlan.steps.map PlanStep.toCase))
      ((stoppedPlan.continuingAfterFailure true).execute
        stoppedLink.toSharedLink stoppedHandlings)
      ((stoppedPlan.continuingAfterFailure false).execute
        stoppedLink.toSharedLink stoppedHandlings) ∧
    ((stoppedPlan.continuingAfterFailure true).execute
      stoppedLink.toSharedLink stoppedHandlings).1.map
        (·.expectationMet) = [true, false, false] ∧
    ((stoppedPlan.continuingAfterFailure false).execute
      stoppedLink.toSharedLink stoppedHandlings).1.map
        (·.expectationMet) = [true, false] :=
  ⟨campaign_judges_as_plan stoppedLink stoppedHandlings (by decide),
    by decide +kernel, by decide +kernel⟩

/-! ## Recovery of a link -/

structure KnownDevice where
  address : Address
  identity : DeviceIdentity

inductive RecoveryStatus where
  | restored (identity : DeviceIdentity)
  | replaced (identity : DeviceIdentity)
  | unavailable (error : ExecuteError)

def sameDevice (left right : DeviceIdentity) : Bool :=
  left.manufacturerId = right.manufacturerId &&
    left.addressDeviceType = right.addressDeviceType &&
    left.deviceId = right.deviceId

def KnownDevice.ask (previous : KnownDevice) (link : HostLink)
    (retry : RetryPolicy) (handling : Handling) :
    (Address × RecoveryStatus) × List Transmission :=
  let run := link.execute handling previous.address readDeviceIdentity
    link.defaultQueue retry
  let status := match run.result with
    | .ok identity =>
        if sameDevice identity previous.identity then .restored identity
        else .replaced identity
    | .error error => .unavailable error
  ((previous.address, status), run.transmissions)

def reconcileDevices (link : HostLink) (retry : RetryPolicy)
    (handlings : Nat → Handling) :
    Nat → List KnownDevice →
      List (Address × RecoveryStatus) × List Transmission
  | _, [] => ([], [])
  | index, previous :: known =>
      let (status, transmissions) :=
        previous.ask link retry (handlings index)
      let (statuses, later) :=
        reconcileDevices link retry handlings (index + 1) known
      (status :: statuses, transmissions ++ later)

def sessionAddress (link : HostLink) (address : Address)
    (identity : DeviceIdentity) : Except OpeningError Address :=
  (IdentifiedSession.fromIdentity link address identity).map
    (·.profile.address)

theorem sessionAddress_of_sameDevice {left right : DeviceIdentity}
    (h : sameDevice left right = true) (link : HostLink)
    (address : Address) :
    sessionAddress link address left = sessionAddress link address right := by
  simp only [sameDevice, Bool.and_eq_true, decide_eq_true_eq] at h
  obtain ⟨⟨-, htype⟩, hid⟩ := h
  unfold sessionAddress IdentifiedSession.fromIdentity
  cases address with
  | Polling node master =>
      have hunique : left.uniqueAddress master = right.uniqueAddress master := by
        rw [DeviceIdentity.uniqueAddress, DeviceIdentity.uniqueAddress, htype,
          hid]
      dsimp only
      rw [hunique]
      cases right.uniqueAddress master <;> rfl
  | Unique expandedType deviceId master => rfl

def RecoveryStatus.Holds (link : HostLink) (retry : RetryPolicy)
    (handling : Handling) (previous : KnownDevice) :
    RecoveryStatus → Prop
  | .restored identity =>
      (link.execute handling previous.address readDeviceIdentity
        link.defaultQueue retry).result = .ok identity ∧
      identity.manufacturerId = previous.identity.manufacturerId ∧
      identity.deviceId = previous.identity.deviceId ∧
      ∀ address, sessionAddress link address identity =
        sessionAddress link address previous.identity
  | .replaced identity =>
      (link.execute handling previous.address readDeviceIdentity
        link.defaultQueue retry).result = .ok identity ∧
      (identity.manufacturerId ≠ previous.identity.manufacturerId ∨
        identity.addressDeviceType ≠ previous.identity.addressDeviceType ∨
        identity.deviceId ≠ previous.identity.deviceId)
  | .unavailable error =>
      (link.execute handling previous.address readDeviceIdentity
        link.defaultQueue retry).result = .error error

theorem KnownDevice.ask_holds (previous : KnownDevice) (link : HostLink)
    (retry : RetryPolicy) (handling : Handling) :
    (previous.ask link retry handling).1.2.Holds link retry handling
      previous := by
  unfold KnownDevice.ask
  cases hresult : (link.execute handling previous.address readDeviceIdentity
      link.defaultQueue retry).result with
  | error error =>
      simp only [hresult]
      exact hresult
  | ok identity =>
      cases hsame : sameDevice identity previous.identity with
      | true =>
          have hfields := hsame
          simp only [sameDevice, Bool.and_eq_true, decide_eq_true_eq]
            at hfields
          simp only [hresult, hsame, if_true]
          exact ⟨hresult, hfields.1.1, hfields.2,
            sessionAddress_of_sameDevice hsame link⟩
      | false =>
          have hfields := hsame
          simp only [sameDevice, Bool.and_eq_false_iff, decide_eq_false_iff_not]
            at hfields
          simp only [hresult, hsame, Bool.false_eq_true, if_false]
          exact ⟨hresult, by tauto⟩

/--
Every known device has a status, in order and at its address.  A restored device is
called at the address it was called at before, also if it was known at a polling
address; a replaced one differs in what identifies it; and only a device that did
not give its identity is unavailable.
-/
theorem reconcile_keeps_addresses (link : HostLink) (retry : RetryPolicy)
    (handlings : Nat → Handling) (known : List KnownDevice) :
    (reconcileDevices link retry handlings 0 known).1.length =
        known.length ∧
      ∀ (index : Nat) (previous : KnownDevice),
        known[index]? = some previous →
        ∃ status, (reconcileDevices link retry handlings 0 known).1[index]? =
            some (previous.address, status) ∧
          status.Holds link retry (handlings index) previous := by
  have hall : ∀ first,
      (reconcileDevices link retry handlings first known).1.length =
          known.length ∧
        ∀ (index : Nat) (previous : KnownDevice),
          known[index]? = some previous →
          ∃ status,
            (reconcileDevices link retry handlings first known).1[index]? =
              some (previous.address, status) ∧
            status.Holds link retry (handlings (first + index)) previous := by
    induction known with
    | nil => simp [reconcileDevices]
    | cons device known ih =>
        intro first
        obtain ⟨hlength, hlater⟩ := ih (first + 1)
        refine ⟨?_, fun index previous hknown => ?_⟩
        · simp only [reconcileDevices, List.length_cons, hlength]
        · cases index with
          | zero =>
              rw [List.getElem?_cons_zero, Option.some.injEq] at hknown
              subst hknown
              exact ⟨_, rfl, device.ask_holds link retry _⟩
          | succ index =>
              rw [List.getElem?_cons_succ] at hknown
              have hstatus := hlater index previous hknown
              rwa [Nat.add_assoc, Nat.add_comm 1 index] at hstatus
  have hzero := hall 0
  simp only [Nat.zero_add] at hzero
  exact hzero

end HartLink.Command

import HartLink.Command.Typed
import HartLink.Device.Catalog
import HartLink.Service.Retry

/-!
# Warnings that the caller accepts

An operation decodes a reply with a warning code that its caller lists as it
decodes a successful one.  A validated profile of the device lists the codes that
it describes as warnings; the runner delivers no code that asks to wait.
-/

namespace HartLink.Command

open HartLink.Foundation
open HartLink.Wire
open HartLink.Operation
open HartLink.Service
open HartLink.Device

/-- A value with the result bytes that allowed its decoding. -/
structure CommandOutcome (Value : Type) where
  value : Value
  responseCode : UInt8
  deviceStatus : UInt8
  deriving DecidableEq, Repr

def CommandOutcome.isWarning {Value : Type} (outcome : CommandOutcome Value) :
    Bool :=
  outcome.responseCode ≠ 0

/-- The first status byte summarizes communication errors. -/
def hasCommunicationError (reply : DeviceReply) : Bool :=
  reply.responseCode &&& 0x80 ≠ 0

section Accepting

variable {Output : Type}

def decodeReplyAccepting (operation : DeviceOperation Output)
    (reply : DeviceReply) (acceptedWarnings : Bytes) :
    Except CodecError (CommandOutcome Output) := do
  reply.requireCommand operation.command
  if hasCommunicationError reply then
    .error (.communicationStatus reply.responseCode reply.deviceStatus)
  else if reply.responseCode ≠ 0 ∧
      !acceptedWarnings.contains reply.responseCode then
    .error (.deviceStatus reply.responseCode reply.deviceStatus)
  else do
    let value ← operation.decodeReply { reply with responseCode := 0 }
    return { value, responseCode := reply.responseCode
             deviceStatus := reply.deviceStatus }

/-- `DeviceSession::execute_accepting`. -/
def executeAccepting (session : DeviceSession) (handling : Handling)
    (operation : DeviceOperation Output) (acceptedWarnings : Bytes)
    (queue : QueueId) (policy : RetryPolicy) :
    CallRun SessionError (CommandOutcome Output) :=
  match session.request operation with
  | .error error => ⟨.error (.operation error), []⟩
  | .ok request =>
      let run := session.link.request handling request queue policy
      ⟨match run.result with
        | .error error => .error (.exchange error)
        | .ok reply =>
            (decodeReplyAccepting operation reply
              acceptedWarnings).mapError .operation, run.transmissions⟩

/-! ## Replies that are accepted -/

structure Admissible (command : CommandCode) (acceptedWarnings : Bytes)
    (reply : DeviceReply) : Prop where
  command_eq : reply.command = command
  summary : hasCommunicationError reply = false
  code : reply.responseCode = 0 ∨ reply.responseCode ∈ acceptedWarnings

theorem decodeReplyAccepting_eq_ok_iff {operation : DeviceOperation Output}
    {reply : DeviceReply} {acceptedWarnings : Bytes}
    {outcome : CommandOutcome Output} :
    decodeReplyAccepting operation reply acceptedWarnings = .ok outcome ↔
      Admissible operation.command acceptedWarnings reply ∧
        operation.decodeReply { reply with responseCode := 0 } =
          .ok outcome.value ∧
        outcome.responseCode = reply.responseCode ∧
        outcome.deviceStatus = reply.deviceStatus := by
  unfold decodeReplyAccepting DeviceReply.requireCommand
  by_cases hcommand : reply.command = operation.command
  · rw [if_neg (not_not.mpr hcommand)]
    simp only [bind, Except.bind]
    split_ifs with hsummary hcode
    · exact iff_of_false (by simp) fun h => absurd hsummary (by
        simp [h.1.summary])
    · rw [Bool.not_eq_true', List.contains_eq_mem, decide_eq_false_iff_not]
        at hcode
      exact iff_of_false (by simp) fun h => h.1.code.elim hcode.1 hcode.2
    · have hadmissible :
          Admissible operation.command acceptedWarnings reply := by
        refine ⟨hcommand, Bool.eq_false_iff.mpr hsummary, ?_⟩
        rw [not_and_or, not_not] at hcode
        simpa using hcode
      rw [and_iff_right hadmissible]
      cases operation.decodeReply { reply with responseCode := 0 } with
      | error error => simp
      | ok value =>
          obtain ⟨found, code, status⟩ := outcome
          simp only [pure, Except.pure, Except.ok.injEq,
            CommandOutcome.mk.injEq]
          rw [eq_comm (a := code), eq_comm (a := status)]
  · rw [if_pos hcommand]
    exact iff_of_false (by simp [bind, Except.bind])
      fun h => hcommand h.1.command_eq

def Delivers (session : DeviceSession) (handling : Handling)
    (operation : DeviceOperation Output) (queue : QueueId)
    (policy : RetryPolicy) (reply : DeviceReply) : Prop :=
  ∃ request, session.request operation = .ok request ∧
    (session.link.request handling request queue policy).result = .ok reply

section Calls

variable {session : DeviceSession} {handling : Handling}
  {operation : DeviceOperation Output} {queue : QueueId}
  {policy : RetryPolicy} {acceptedWarnings : Bytes}

theorem executeAccepting_eq_ok_iff {outcome : CommandOutcome Output} :
    (executeAccepting session handling operation acceptedWarnings queue
        policy).result = .ok outcome ↔
      ∃ reply, Delivers session handling operation queue policy reply ∧
        decodeReplyAccepting operation reply acceptedWarnings =
          .ok outcome := by
  unfold executeAccepting Delivers
  cases hrequest : session.request operation with
  | error error => simp
  | ok request =>
      cases hresult :
          (session.link.request handling request queue policy).result with
      | error error => simp [hresult]
      | ok reply =>
          cases hdecode :
              decodeReplyAccepting operation reply acceptedWarnings with
          | error error => simp [hresult, hdecode, Except.mapError]
          | ok found => simp [hresult, hdecode, Except.mapError]

theorem execute_eq_ok_iff {output : Output} :
    (session.execute handling operation queue policy).result = .ok output ↔
      ∃ reply, Delivers session handling operation queue policy reply ∧
        operation.decodeReply reply = .ok output := by
  unfold DeviceSession.execute Delivers
  cases hrequest : session.request operation with
  | error error => simp
  | ok request =>
      cases hresult :
          (session.link.request handling request queue policy).result with
      | error error => simp [DeviceSession.decode, hresult]
      | ok reply =>
          cases hdecode : operation.decodeReply reply with
          | error error =>
              simp [DeviceSession.decode, hresult, hdecode, Except.mapError]
          | ok found =>
              simp [DeviceSession.decode, hresult, hdecode, Except.mapError]

theorem transmissions_executeAccepting :
    (executeAccepting session handling operation acceptedWarnings queue
        policy).transmissions =
      (session.execute handling operation queue policy).transmissions := by
  unfold executeAccepting DeviceSession.execute
  cases session.request operation <;> rfl

/-- What the runner exchanges is delivered only if it does not ask to wait. -/
theorem Delivers.finished {reply : DeviceReply}
    (h : Delivers session handling operation queue policy reply)
    (hown : ∀ other, handling.delivery ≠ .coalesced other) :
    reply.responseCode ≠ 32 ∧ reply.responseCode ≠ 33 ∧
      reply.responseCode ≠ 34 := by
  obtain ⟨request, -, hresult⟩ := h
  unfold SharedLink.request at hresult
  cases hjob : session.link.makeJob handling request queue policy with
  | error error =>
      rw [hjob] at hresult
      contradiction
  | ok job =>
      rw [hjob] at hresult
      unfold SharedLink.deliver at hresult
      cases hdelivery : handling.delivery with
      | refused error => simp [hdelivery] at hresult
      | expired => simp [hdelivery] at hresult
      | stopped => simp [hdelivery] at hresult
      | coalesced other => exact absurd hdelivery (hown other)
      | exchanged now surroundings port =>
          simp only [hdelivery] at hresult
          cases hrun : (exchange session.link.horizon now job surroundings
              port).result with
          | error error => simp [hrun, Except.mapError] at hresult
          | ok found =>
              rw [hrun] at hresult
              injection hresult with hresult
              subst hresult
              have hcause := (exchange_delivers hrun).1
              simp only [retryCause] at hcause
              split_ifs at hcause with hbusy hdelayed
              rw [not_or] at hdelayed
              exact ⟨hbusy, hdelayed⟩

end Calls

end Accepting

/-! ## The warnings of a profile -/

theorem mem_warningCodes_iff {profile : DeviceProfile}
    {command : CommandCode} {code : UInt8} :
    code ∈ profile.warningCodes command ↔
      ∃ definition, profile.responseCode command code = some definition ∧
        definition.status = .warning := by
  unfold DeviceProfile.warningCodes DeviceProfile.responseCode
  cases profile.responseCodes.lookup command.get.toFin with
  | none => simp
  | some codes =>
      simp only [Option.map_some, Option.getD_some, List.mem_filterMap,
        Option.bind_some, OrderedMap.lookup_eq_some_iff]
      constructor
      · rintro ⟨⟨found, definition⟩, hmem, hfound⟩
        dsimp only at hfound
        split_ifs at hfound with hwarning
        injection hfound with hfound
        subst hfound
        exact ⟨definition, hmem, hwarning⟩
      · rintro ⟨definition, hmem, hwarning⟩
        exact ⟨(code.toFin, definition), hmem, by simp [hwarning]⟩

theorem summary_of_validateCodes
    {codes : List (Fin 256 × ResponseCodeDefinition)}
    (h : DeviceProfile.validateCodes codes = .ok ()) :
    ∀ entry ∈ codes, UInt8.ofFin entry.1 &&& 0x80 = 0 := by
  induction codes with
  | nil => simp
  | cons entry codes ih =>
      obtain ⟨code, definition⟩ := entry
      rw [DeviceProfile.validateCodes] at h
      split_ifs at h with hsummary hblank hlong
      intro other hother
      rcases List.mem_cons.mp hother with rfl | hother
      · exact not_not.mp hsummary
      · exact ih h other hother

theorem validateCodes_of_validateAllCodes
    {commands : List (Fin 65536 × ResponseCodes)}
    (h : DeviceProfile.validateAllCodes commands = .ok ()) :
    ∀ entry ∈ commands,
      DeviceProfile.validateCodes entry.2.entries = .ok () := by
  induction commands with
  | nil => simp
  | cons entry commands ih =>
      obtain ⟨command, codes⟩ := entry
      rw [DeviceProfile.validateAllCodes] at h
      cases hcodes : DeviceProfile.validateCodes codes.entries with
      | error error =>
          rw [hcodes] at h
          contradiction
      | ok value =>
          rw [hcodes] at h
          intro other hother
          rcases List.mem_cons.mp hother with rfl | hother
          · exact hcodes
          · exact ih h other hother

theorem summary_of_validate {profile : DeviceProfile}
    (h : profile.validate = .ok ()) {command : CommandCode} {code : UInt8}
    {definition : ResponseCodeDefinition}
    (hcode : profile.responseCode command code = some definition) :
    code &&& 0x80 = 0 := by
  unfold DeviceProfile.validate at h
  split_ifs at h
  split at h
  · contradiction
  · unfold DeviceProfile.responseCode at hcode
    rw [Option.bind_eq_some_iff] at hcode
    obtain ⟨codes, hcommand, hcode⟩ := hcode
    rw [OrderedMap.lookup_eq_some_iff] at hcommand hcode
    exact summary_of_validateCodes
      (validateCodes_of_validateAllCodes h _ hcommand) _ hcode

def Described (profile : DeviceProfile) (command : CommandCode)
    (reply : DeviceReply) : Prop :=
  reply.command = command ∧ (reply.responseCode = 0 ∨
    ∃ definition, profile.responseCode command reply.responseCode =
      some definition ∧ definition.status = .warning)

theorem admissible_iff_described {profile : DeviceProfile}
    (h : profile.validate = .ok ()) {command : CommandCode}
    {reply : DeviceReply} :
    Admissible command (profile.warningCodes command) reply ↔
      Described profile command reply := by
  constructor
  · rintro ⟨hcommand, -, hcode⟩
    exact ⟨hcommand, hcode.imp_right mem_warningCodes_iff.mp⟩
  · rintro ⟨hcommand, hcode⟩
    refine ⟨hcommand, ?_, hcode.imp_right mem_warningCodes_iff.mpr⟩
    have hclear : reply.responseCode &&& 0x80 = 0 := by
      rcases hcode with hcode | ⟨definition, hdefinition, -⟩
      · rw [hcode]
        rfl
      · exact summary_of_validate h hdefinition
    simp [hasCommunicationError, hclear]

/--
A call that accepts the warnings of a profile: it transmits what the plain one
does, it has an outcome exactly for a delivered reply that is a result or a
described warning and whose data stands for the value, and the outcome keeps both
result bytes.  Without a warning the value is that of the plain call.
-/
structure AcceptsDescribed {Output : Type} (profile : DeviceProfile)
    (operation : DeviceOperation Output) (meaning : Meaning Output)
    (session : DeviceSession) (handling : Handling) (queue : QueueId)
    (policy : RetryPolicy) : Prop where
  transmissions : (executeAccepting session handling operation
      (profile.warningCodes operation.command) queue policy).transmissions =
    (session.execute handling operation queue policy).transmissions
  result : ∀ outcome, (executeAccepting session handling operation
      (profile.warningCodes operation.command) queue policy).result =
        .ok outcome ↔
    ∃ reply, Delivers session handling operation queue policy reply ∧
      Described profile operation.command reply ∧
      meaning outcome.value { reply with responseCode := 0 } ∧
      outcome.responseCode = reply.responseCode ∧
      outcome.deviceStatus = reply.deviceStatus
  finished : (∀ other, handling.delivery ≠ .coalesced other) →
    ∀ outcome, (executeAccepting session handling operation
      (profile.warningCodes operation.command) queue policy).result =
        .ok outcome →
      outcome.responseCode ≠ 32 ∧ outcome.responseCode ≠ 33 ∧
        outcome.responseCode ≠ 34
  plain : ∀ output, (session.execute handling operation queue policy).result =
      .ok output ↔
    ∃ outcome, (executeAccepting session handling operation
      (profile.warningCodes operation.command) queue policy).result =
        .ok outcome ∧ outcome.isWarning = false ∧ outcome.value = output

/--
Every typed operation accepts the warnings of a valid profile.  What its own
exchange delivers never asks to wait, whatever the profile says.
-/
theorem accepts_described {profile : DeviceProfile}
    (hprofile : profile.validate = .ok ()) {Output : Type}
    {operation : DeviceOperation Output} {meaning : Meaning Output}
    (htyped : Typed operation meaning) (session : DeviceSession)
    (handling : Handling) (queue : QueueId) (policy : RetryPolicy) :
    AcceptsDescribed profile operation meaning session handling queue
      policy := by
  have haccept : ∀ reply outcome, decodeReplyAccepting operation reply
      (profile.warningCodes operation.command) = .ok outcome ↔
        Described profile operation.command reply ∧
          meaning outcome.value { reply with responseCode := 0 } ∧
          outcome.responseCode = reply.responseCode ∧
          outcome.deviceStatus = reply.deviceStatus := by
    intro reply outcome
    rw [decodeReplyAccepting_eq_ok_iff, admissible_iff_described hprofile,
      htyped.decodeReply_eq_ok_iff]
    constructor
    · rintro ⟨hdescribed, ⟨-, hmeaning⟩, hbytes⟩
      exact ⟨hdescribed, hmeaning, hbytes⟩
    · rintro ⟨hdescribed, hmeaning, hbytes⟩
      exact ⟨hdescribed, ⟨⟨hdescribed.1, rfl⟩, hmeaning⟩, hbytes⟩
  have hresult : ∀ outcome, (executeAccepting session handling operation
      (profile.warningCodes operation.command) queue policy).result =
        .ok outcome ↔
      ∃ reply, Delivers session handling operation queue policy reply ∧
        Described profile operation.command reply ∧
        meaning outcome.value { reply with responseCode := 0 } ∧
        outcome.responseCode = reply.responseCode ∧
        outcome.deviceStatus = reply.deviceStatus := by
    intro outcome
    rw [executeAccepting_eq_ok_iff]
    exact exists_congr fun reply => and_congr_right' (haccept reply outcome)
  refine ⟨transmissions_executeAccepting, hresult, ?_, ?_⟩
  · intro hown outcome houtcome
    obtain ⟨reply, hdelivers, -, -, hcode, -⟩ := (hresult outcome).mp houtcome
    rw [hcode]
    exact hdelivers.finished hown
  · intro output
    rw [execute_eq_ok_iff]
    constructor
    · rintro ⟨reply, hdelivers, hdecode⟩
      obtain ⟨⟨hcommand, hcode⟩, hmeaning⟩ :=
        htyped.decodeReply_eq_ok_iff.mp hdecode
      have hplain : { reply with responseCode := 0 } = reply := by
        rw [← hcode]
      refine ⟨⟨output, 0, reply.deviceStatus⟩, (hresult _).mpr ⟨reply,
        hdelivers, ⟨hcommand, .inl hcode⟩, ?_, hcode.symm, rfl⟩, rfl, rfl⟩
      rw [hplain]
      exact hmeaning
    · rintro ⟨outcome, houtcome, hwarning, rfl⟩
      obtain ⟨reply, hdelivers, hdescribed, hmeaning, hcode, -⟩ :=
        (hresult outcome).mp houtcome
      have hzero : reply.responseCode = 0 := by
        rw [CommandOutcome.isWarning, hcode] at hwarning
        simpa using hwarning
      have hplain : { reply with responseCode := 0 } = reply := by
        rw [← hzero]
      rw [hplain] at hmeaning
      exact ⟨reply, hdelivers, htyped.decodeReply_eq_ok_iff.mpr
        ⟨⟨hdescribed.1, hzero⟩, hmeaning⟩⟩

def warningProfile : DeviceProfile :=
  DeviceProfile.withResponseCode
    { key := ⟨0x26, 1⟩, displayName := "transmitter", sourceRevision := "1" }
    ⟨1⟩ 8 ⟨.warning, "update in progress"⟩

def idleSession : DeviceSession where
  link := ⟨⟨.allowAll, .preserveRequested⟩, [⟨0⟩], 10 ^ 18⟩
  profile := ⟨.Polling 0 .primary, 5⟩

theorem accepts_described_warningProfile :
    AcceptsDescribed warningProfile readPrimaryValue
      (Meaning.data (Grammar.encoded PrimaryValue.encoding)) idleSession
      ⟨0, 0, 0, {}, 0, .stopped, 0⟩ ⟨0⟩ .default :=
  accepts_described (by decide +kernel) .readPrimaryValue idleSession _ ⟨0⟩ _

end HartLink.Command

import HartLink.Service.Link

/-!
# Admission of requests

A client validates a request, asks the command policy and makes a job.  The
built-in policies look at the request's command field.  `judgesWire_iff` says
for which requests this is a judgement about the command that reaches the
device.
-/

namespace HartLink.Service

open HartLink.Foundation
open HartLink.Wire
open HartLink.Operation

/-! ## Policies -/

structure CommandContext where
  request : Request
  safety : OperationSafety
  catalogSafety : Option OperationSafety
  queue : QueueId
  deriving DecidableEq, Repr

def commandContext (request : Request) (queue : QueueId) : CommandContext :=
  { request
    safety := resolvedSafety request
    catalogSafety := catalogSafety request
    queue }

structure CommandPolicy where
  guard : CommandContext → Bool

namespace CommandPolicy

def admits (policy : CommandPolicy) (context : CommandContext) : Bool :=
  policy.guard context

def allowAll : CommandPolicy := ⟨fun _ => true⟩

def readOnly : CommandPolicy :=
  ⟨fun context => context.catalogSafety = some .readOnly⟩

def retrySafe : CommandPolicy :=
  ⟨fun context => context.catalogSafety.any (· ≠ .action)⟩

def allowCommands (commands : List CommandCode) : CommandPolicy :=
  ⟨fun context => commands.contains context.request.command⟩

def denyCommands (commands : List CommandCode) : CommandPolicy :=
  ⟨fun context => !commands.contains context.request.command⟩

def queueAllowlist (queue : QueueId) (commands : List CommandCode) :
    CommandPolicy :=
  ⟨fun context => context.queue ≠ queue ||
    commands.contains context.request.command⟩

def and (first second : CommandPolicy) : CommandPolicy :=
  ⟨fun context => first.admits context && second.admits context⟩

def or (first second : CommandPolicy) : CommandPolicy :=
  ⟨fun context => first.admits context || second.admits context⟩

/-- The policies built without application-defined guards. -/
inductive BuiltIn : CommandPolicy → Prop
  | allowAll : BuiltIn allowAll
  | readOnly : BuiltIn readOnly
  | retrySafe : BuiltIn retrySafe
  | allowCommands (commands : List CommandCode) :
      BuiltIn (allowCommands commands)
  | denyCommands (commands : List CommandCode) :
      BuiltIn (denyCommands commands)
  | queueAllowlist (queue : QueueId) (commands : List CommandCode) :
      BuiltIn (queueAllowlist queue commands)
  | and {first second : CommandPolicy} (hfirst : BuiltIn first)
      (hsecond : BuiltIn second) : BuiltIn (first.and second)
  | or {first second : CommandPolicy} (hfirst : BuiltIn first)
      (hsecond : BuiltIn second) : BuiltIn (first.or second)

theorem BuiltIn.admits_congr {policy : CommandPolicy} (h : policy.BuiltIn)
    {first second : Request} (hcommand : first.command = second.command)
    (queue : QueueId) :
    policy.admits (commandContext first queue) =
      policy.admits (commandContext second queue) := by
  have hcatalog : catalogSafety first = catalogSafety second := by
    simp only [catalogSafety, hcommand]
  induction h with
  | allowAll => rfl
  | readOnly => simp only [admits, CommandPolicy.readOnly, commandContext, hcatalog]
  | retrySafe => simp only [admits, CommandPolicy.retrySafe, commandContext, hcatalog]
  | allowCommands commands =>
      simp only [admits, CommandPolicy.allowCommands, commandContext, hcommand]
  | denyCommands commands =>
      simp only [admits, CommandPolicy.denyCommands, commandContext, hcommand]
  | queueAllowlist restricted commands =>
      simp only [admits, CommandPolicy.queueAllowlist, commandContext, hcommand]
  | and _ _ ihfirst ihsecond =>
      exact congrArg₂ Bool.and ihfirst ihsecond
  | or _ _ ihfirst ihsecond =>
      exact congrArg₂ Bool.or ihfirst ihsecond

end CommandPolicy

structure CommandRouting where
  router : CommandContext → QueueId

namespace CommandRouting

def preserveRequested : CommandRouting := ⟨fun context => context.queue⟩

def commandsTo (queue : QueueId) (commands : List CommandCode) :
    CommandRouting :=
  ⟨fun context =>
    if commands.contains context.request.command then queue
    else context.queue⟩

def route (routing : CommandRouting) (context : CommandContext) : QueueId :=
  routing.router context

end CommandRouting

/-! ## Making a job -/

structure LinkClient where
  commandPolicy : CommandPolicy
  commandRouting : CommandRouting

/--
What one call of `make_job` reads from its surroundings: the clock when the
policy is checked and when the deadline is set, and the new oneshot channel.
-/
structure JobOrigin where
  horizon : Nat
  checkedAt : Nat
  acceptedAt : Nat
  reply : ReplyId
  deriving DecidableEq, Repr

namespace LinkClient

def resolveQueue (client : LinkClient) (configured : List QueueId)
    (request : Request) (requested : QueueId) : Except StartError QueueId :=
  if !configured.contains requested then .error (.unknownQueue requested)
  else
    let queue :=
      client.commandRouting.route (commandContext request requested)
    if !configured.contains queue then .error (.unknownQueue queue)
    else .ok queue

def makeJob (client : LinkClient) (origin : JobOrigin) (counters : Counters)
    (request : Request) (transmitPrefix : Bytes) (queue : QueueId)
    (policy : RetryPolicy) :
    Except StartError Job × Counters × List LinkEvent :=
  match policy.validateRuntime origin.horizon origin.checkedAt with
  | .error error => (.error (.retryPolicy error), counters, [])
  | .ok _ =>
  match request.validate with
  | .error error => (.error (.operation error), counters, [])
  | .ok _ =>
  let safety := resolvedSafety request
  if !client.commandPolicy.admits (commandContext request queue) then
    (.error (.commandDenied request.command.get safety queue),
      { counters with denied := counters.denied + 1 },
      [.denied request.command.get safety queue])
  else if transmitPrefix.length > maximumTransmitPrefix then
    (.error (.transmitPrefix transmitPrefix.length), counters, [])
  else
    let counters := { counters with nextId := counters.nextId + 1 }
    match checkedAdd origin.horizon origin.acceptedAt policy.totalTimeout with
    | none => (.error (.retryPolicy .deadlineOverflow), counters, [])
    | some deadline =>
        (.ok { id := counters.nextId, request, transmitPrefix, policy
               deadline, reply := some origin.reply }, counters, [])

theorem makeJob_ok {client : LinkClient} {origin : JobOrigin}
    {counters : Counters} {request : Request} {transmitPrefix : Bytes}
    {queue : QueueId} {policy : RetryPolicy} {job : Job}
    (h : (client.makeJob origin counters request transmitPrefix queue
      policy).1 = .ok job) :
    request.validate = .ok () ∧
      client.commandPolicy.admits (commandContext request queue) = true ∧
      job.request = request ∧ job.transmitPrefix = transmitPrefix ∧
      job.policy = policy ∧ job.reply = some origin.reply := by
  unfold makeJob at h
  split at h
  · contradiction
  split at h
  · contradiction
  next hvalidate =>
    simp only at h
    split_ifs at h with hdenied hprefix
    split at h
    · contradiction
    · simp only [Except.ok.injEq] at h
      subst h
      refine ⟨hvalidate, ?_, rfl, rfl, rfl, rfl⟩
      simpa using hdenied

theorem makeJob_counters (client : LinkClient) (origin : JobOrigin)
    (counters : Counters) (request : Request) (transmitPrefix : Bytes)
    (queue : QueueId) (policy : RetryPolicy) :
    let made := client.makeJob origin counters request transmitPrefix queue
      policy
    made.2.1.completed = counters.completed ∧
      made.2.1.failed = counters.failed ∧
      made.2.1.cancelled = counters.cancelled := by
  unfold makeJob
  split
  · exact ⟨rfl, rfl, rfl⟩
  split
  · exact ⟨rfl, rfl, rfl⟩
  dsimp only
  split_ifs
  · exact ⟨rfl, rfl, rfl⟩
  · exact ⟨rfl, rfl, rfl⟩
  · split <;> exact ⟨rfl, rfl, rfl⟩

end LinkClient

/-! ## What a policy judges -/

def LinkClient.Admits (client : LinkClient) (request : Request)
    (queue : QueueId) : Prop :=
  ∃ origin counters transmitPrefix policy job,
    (client.makeJob origin counters request transmitPrefix queue
      policy).1 = .ok job

/-- Every built-in policy that admits the request admits what it sends. -/
def JudgesWire (request : Request) : Prop :=
  ∀ (client : LinkClient) (queue : QueueId) (frame : Frame),
    client.commandPolicy.BuiltIn → client.Admits request queue →
      request.toFrame = .ok frame →
        client.commandPolicy.admits (commandContext
          { request with command := logicalCommand frame } queue) = true

/-- No built-in policy admits the request and denies one with its bytes. -/
def JudgesBytes (request : Request) : Prop :=
  ∀ (client : LinkClient) (queue : QueueId) (other : Request)
    (encoded : Bytes), client.commandPolicy.BuiltIn →
      client.Admits request queue → request.encodedFrame = .ok encoded →
        other.encodedFrame = .ok encoded →
          client.commandPolicy.admits (commandContext other queue) = true

theorem LinkClient.admits_of_policy {client : LinkClient} {request : Request}
    {queue : QueueId} (hvalid : request.validate = .ok ())
    (hpolicy : client.commandPolicy.admits (commandContext request queue) =
      true) :
    client.Admits request queue := by
  have hretry : RetryPolicy.default.validateRuntime
      RetryPolicy.default.totalTimeout 0 = .ok () := by decide
  have hdeadline : checkedAdd RetryPolicy.default.totalTimeout 0
      RetryPolicy.default.totalTimeout =
        some RetryPolicy.default.totalTimeout := by decide
  refine ⟨⟨RetryPolicy.default.totalTimeout, 0, 0, 0⟩, {}, [],
    RetryPolicy.default, ?_⟩
  simp [makeJob, hretry, hvalid, hpolicy, hdeadline, maximumTransmitPrefix]

def LinkClient.only (command : CommandCode) : LinkClient :=
  { commandPolicy := .allowCommands [command]
    commandRouting := .preserveRequested }

theorem LinkClient.only_admits_iff (command : CommandCode) (request : Request)
    (queue : QueueId) :
    (LinkClient.only command).commandPolicy.admits
      (commandContext request queue) = true ↔ request.command = command := by
  simp [only, CommandPolicy.admits, CommandPolicy.allowCommands,
    commandContext]

theorem judgesWire_iff {request : Request}
    (hvalid : request.validate = .ok ()) :
    JudgesWire request ↔ ¬ request.Disguised := by
  rw [← Request.logicalCommand_eq_iff]
  have hframe := (Request.toFrame_of_validate hvalid).1
  constructor
  · intro hjudges
    have hadmits := (LinkClient.only_admits_iff request.command request
      ⟨0⟩).mpr rfl
    have hlogical := hjudges (.only request.command) ⟨0⟩ request.frame
      (.allowCommands _) (LinkClient.admits_of_policy hvalid hadmits) hframe
    exact (LinkClient.only_admits_iff ..).mp hlogical
  · rintro hlogical client queue frame hbuiltIn
      ⟨origin, counters, transmitPrefix, policy, job, hjob⟩ hother
    obtain ⟨-, hadmits, -⟩ := LinkClient.makeJob_ok hjob
    rw [hframe] at hother
    injection hother with hother
    rw [← hother, hlogical]
    exact hadmits

theorem judgesBytes_iff {request : Request}
    (hvalid : request.validate = .ok ()) :
    JudgesBytes request ↔ ¬ request.Relayed := by
  have hbytes := Request.encodedFrame_of_validate hvalid
  constructor
  · intro hjudges hrelayed
    obtain ⟨other, hframe, hpayload, hexpansion, hcommand⟩ :=
      Request.exists_twin_of_relayed hrelayed
    have hother : other.validate = .ok () := by
      rw [Request.validate_ok_iff, hpayload, hexpansion,
        ← Request.validate_ok_iff]
      exact hvalid
    have hsame : other.encodedFrame = .ok request.frame.encoding := by
      rw [Request.encodedFrame_of_validate hother, hframe]
    have hadmits := (LinkClient.only_admits_iff request.command request
      ⟨0⟩).mpr rfl
    exact hcommand ((LinkClient.only_admits_iff ..).mp
      (hjudges (.only request.command) ⟨0⟩ other _ (.allowCommands _)
        (LinkClient.admits_of_policy hvalid hadmits) hbytes hsame))
  · rintro hplain client queue other encoded hbuiltIn
      ⟨origin, counters, transmitPrefix, policy, job, hjob⟩ hfirst hsecond
    obtain ⟨-, hadmits, -⟩ := LinkClient.makeJob_ok hjob
    obtain ⟨-, hencoded⟩ := Request.encodedFrame_ok hfirst
    obtain ⟨hother, hencoded'⟩ := Request.encodedFrame_ok hsecond
    obtain ⟨hwire, hpayload⟩ := encoding_inj
      ((Request.validate_ok_iff _).mp hvalid).2
      ((Request.validate_ok_iff _).mp hother).2
      (hencoded.trans hencoded'.symm)
    have hcommand := Request.command_eq_of_wire hplain hwire hpayload
    rw [← hbuiltIn.admits_congr hcommand queue]
    exact hadmits

/--
Exactly the requests for command 31 with another number in their data escape
the judgement of the wire command, and exactly the relayed requests share their
bytes with a request that a policy can judge differently.
-/
theorem admission_judges_wire (request : Request)
    (hvalid : request.validate = .ok ()) :
    (JudgesWire request ↔ ¬ request.Disguised) ∧
      (JudgesBytes request ↔ ¬ request.Relayed) :=
  ⟨judgesWire_iff hvalid, judgesBytes_iff hvalid⟩

def disguisedRequest : Request :=
  .new (.Polling 0 .primary) ⟨31⟩ [0x01, 0x2c]

theorem admission_judges_wire_disguised :
    (JudgesWire disguisedRequest ↔ ¬ disguisedRequest.Disguised) ∧
      (JudgesBytes disguisedRequest ↔ ¬ disguisedRequest.Relayed) :=
  admission_judges_wire disguisedRequest (by decide)

/-- A deny list for command 300 lets it through inside command 31. -/
theorem denyCommands_admits_disguised :
    (⟨.denyCommands [⟨300⟩], .preserveRequested⟩ : LinkClient).Admits
        disguisedRequest ⟨0⟩ ∧
      disguisedRequest.toFrame = .ok disguisedRequest.frame ∧
      (CommandPolicy.denyCommands [⟨300⟩]).admits (commandContext
        { disguisedRequest with
          command := logicalCommand disguisedRequest.frame } ⟨0⟩) = false ∧
      disguisedRequest.encodedFrame =
        (Request.new (.Polling 0 .primary) ⟨300⟩ []).encodedFrame ∧
      (CommandPolicy.denyCommands [⟨300⟩]).admits (commandContext
        (.new (.Polling 0 .primary) ⟨300⟩ []) ⟨0⟩) = false := by
  refine ⟨LinkClient.admits_of_policy (by decide) (by decide), by decide,
    by decide, by decide, by decide⟩

end HartLink.Service

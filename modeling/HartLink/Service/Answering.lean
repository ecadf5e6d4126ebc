import HartLink.Service.Retry

/-!
# A device that repeats one response code

The runner's retry loop against two simple devices: one that answers every
request with the same response code, and one whose channel reports a timeout at
once.  The first uses up a whole retry limit, the second ends an exchange that
has no transport retry left.
-/

namespace HartLink.Service

open HartLink.Foundation
open HartLink.Wire
open HartLink.Operation

/-! ## The reply -/

def codeFrame (request : Frame) (responseCode : UInt8) : Frame :=
  { preambles := 5, kind := .response, physicalLayer := request.physicalLayer
    address := request.address, expansion := request.expansion
    wireCommand := request.wireCommand
    payload := responseCode :: 0 ::
      if request.wireCommand = 31 then (logicalCommand request).toBeBytes
      else []
    repair := none }

theorem logicalCommand_of_ne {frame : Frame} (h : frame.wireCommand ≠ 31) :
    logicalCommand frame = .ofByte frame.wireCommand := by
  unfold logicalCommand
  split
  · rw [if_neg h]
  · rfl

theorem fromBeBytes_toBeBytes (command : CommandCode) :
    ∃ high low, command.toBeBytes = [high, low] ∧
      (⟨fromBeBytes high low⟩ : CommandCode) = command := by
  have hlt := command.get.toNat_lt
  refine ⟨_, _, rfl, CommandCode.ext_toNat ?_⟩
  simp only [toNat_fromBeBytes, UInt8.toNat_ofNat']
  omega

theorem fromFrame_codeFrame (request : Frame) (responseCode : UInt8) :
    ∃ reply, DeviceReply.fromFrame (codeFrame request responseCode) =
        .ok reply ∧ reply.responseCode = responseCode ∧
      reply.burst = false ∧ answers request reply = true := by
  by_cases hwire : request.wireCommand = 31
  · obtain ⟨high, low, hbytes, hcommand⟩ :=
      fromBeBytes_toBeBytes (logicalCommand request)
    refine ⟨.ofParts (codeFrame request responseCode) responseCode 0
      ⟨fromBeBytes high low⟩ [], ?_, rfl, rfl, ?_⟩
    · simp [DeviceReply.fromFrame, codeFrame, hwire, hbytes]
    · simp [answers, DeviceReply.ofParts, codeFrame, hcommand]
  · refine ⟨.ofParts (codeFrame request responseCode) responseCode 0
      (.ofByte request.wireCommand) [], ?_, rfl, rfl, ?_⟩
    · simp [DeviceReply.fromFrame, codeFrame, hwire]
    · simp [answers, DeviceReply.ofParts, codeFrame,
        logicalCommand_of_ne hwire]

theorem encodable_codeFrame {request : Frame}
    (haddress : request.address.Accepted)
    (hexpansion : request.expansion.length ≤ 3) (responseCode : UInt8) :
    (codeFrame request responseCode).Encodable := by
  refine ⟨haddress, hexpansion, ?_, rfl⟩
  simp only [codeFrame, List.length_cons]
  split_ifs <;> simp [CommandCode.toBeBytes]

theorem length_encoding_codeFrame {request : Frame}
    (hexpansion : request.expansion.length ≤ 3) (responseCode : UInt8) :
    1 ≤ (codeFrame request responseCode).encoding.length ∧
      (codeFrame request responseCode).encoding.length ≤ 32 := by
  have haddress : request.address.encodedLen ≤ 5 := by
    cases request.address <;> simp [Address.encodedLen]
  have hpayload : (codeFrame request responseCode).payload.length ≤ 4 := by
    simp only [codeFrame, List.length_cons]
    split_ifs <;> simp [CommandCode.toBeBytes]
  have hlength := Frame.length_encoding (codeFrame request responseCode)
  rw [Frame.length_body] at hlength
  have hpreambles : (codeFrame request responseCode).preambles.toNat = 5 := rfl
  have hsame : (codeFrame request responseCode).address = request.address ∧
      (codeFrame request responseCode).expansion = request.expansion :=
    ⟨rfl, rfl⟩
  rw [hsame.1, hsame.2, hpreambles] at hlength
  omega

/-! ## Ports that can take the reply -/

namespace LinkPort

/-- Nothing is left over, and a short reply fits. -/
structure Ready (port : LinkPort) : Prop where
  empty : port.decoder.bytes = []
  preambles : port.decoder.limits.minimumPreambles ≤ 5
  capacity : 32 ≤ port.decoder.limits.bufferCapacity
  buffer : 32 ≤ port.readBufferSize

theorem Ready.sameChannel {port other : LinkPort} (h : port.Ready)
    (hsame : port.SameChannel other) : other.Ready := by
  refine ⟨?_, ?_, ?_, ?_⟩
  · rw [hsame.decoder]
    exact h.empty
  · rw [hsame.decoder]
    exact h.preambles
  · rw [hsame.decoder]
    exact h.capacity
  · rw [hsame.readBufferSize]
    exact h.buffer

theorem push_encoding {decoder : FrameDecoder} {frame : Frame}
    (hempty : decoder.bytes = []) (hframe : frame.Encodable)
    (hpreambles : decoder.limits.minimumPreambles ≤ frame.preambles)
    (hfits : frame.encoding.length ≤ decoder.limits.bufferCapacity) :
    ∃ statistics, decoder.push frame.encoding =
      ([.frame frame], { decoder with bytes := [], statistics }) := by
  obtain ⟨final, hscan, -⟩ := scan_encodings [frame]
    (by simpa using ⟨hframe, hpreambles⟩) [] decoder.statistics
  have hpush : decoder.scanPush frame.encoding =
      ([], [.frame frame], final) := by
    simpa [FrameDecoder.scanPush, hempty] using hscan
  refine ⟨final, ?_⟩
  rw [FrameDecoder.push_eq_of_fits (by simpa [hempty] using hfits)
    (by simp [hpush, maximumDecodeEventsPerPush]), FrameDecoder.afterScan,
    hpush]

end LinkPort

/-! ## Attempts -/

def answeredAttempt (instant delay : Nat) (fragment : Bytes) : Attempt :=
  { startedAt := instant, sent := ⟨instant, none⟩
    arrivals := [⟨instant, .read fragment⟩]
    pausedAt := instant, checkedAt := instant + delay }

def silentAttempt (instant : Nat) : Attempt :=
  { startedAt := instant, sent := ⟨instant, none⟩
    arrivals := [⟨instant, .error (.timeout "receive")⟩]
    pausedAt := instant, checkedAt := instant }

namespace LinkPort

theorem exchangeOnce_answeredAttempt {port : LinkPort} (h : port.Ready)
    (id : UInt64) {requestFrame : Frame}
    (haddress : requestFrame.address.Accepted)
    (hexpansion : requestFrame.expansion.length ≤ 3) (responseCode : UInt8)
    (encoded : Bytes) {deadline instant : Nat} (delay : Nat)
    (hdeadline : instant ≤ deadline) :
    ∃ next reply, port.exchangeOnce id requestFrame encoded deadline
        (answeredAttempt instant delay
          (codeFrame requestFrame responseCode).encoding).sent
        (answeredAttempt instant delay
          (codeFrame requestFrame responseCode).encoding).arrivals =
        (next, .ok reply) ∧
      reply.responseCode = responseCode ∧ next.Ready := by
  obtain ⟨reply, hreply, hcode, hburst, hanswers⟩ :=
    fromFrame_codeFrame requestFrame responseCode
  obtain ⟨hpositive, hlength⟩ :=
    length_encoding_codeFrame hexpansion responseCode
  have hcapacity := h.capacity
  have hbuffer := h.buffer
  obtain ⟨statistics, hpush⟩ := push_encoding h.empty
    (encodable_codeFrame haddress hexpansion responseCode) h.preambles
    (by omega)
  have hecho : isEcho requestFrame
      (codeFrame requestFrame responseCode) = false := by
    simp [isEcho, codeFrame]
  have hnotEmpty : ¬ (codeFrame requestFrame
      responseCode).encoding.length = 0 := by omega
  have hnotLong : ¬ (codeFrame requestFrame
      responseCode).encoding.length > port.readBufferSize := by omega
  have hnotLate := Nat.not_lt.mpr hdeadline
  simp only [exchangeOnce, answeredAttempt, if_neg hnotLate, awaitReply,
    if_neg hnotEmpty, if_neg hnotLong, LinkPort.push, hpush, acceptEvents,
    acceptEvent, hecho, hreply, hburst, hanswers, Bool.false_eq_true,
    if_false, if_true]
  exact ⟨_, reply, rfl, hcode, rfl, h.preambles, h.capacity, h.buffer⟩

theorem exchangeOnce_silentAttempt (port : LinkPort) (id : UInt64)
    (requestFrame : Frame) (encoded : Bytes) {deadline instant : Nat}
    (hdeadline : instant ≤ deadline) :
    port.exchangeOnce id requestFrame encoded deadline
        (silentAttempt instant).sent (silentAttempt instant).arrivals =
      ({ port with sent := port.sent ++ [encoded] },
        .error .responseTimeout) := by
  have hnotLate := Nat.not_lt.mpr hdeadline
  simp [exchangeOnce, silentAttempt, awaitReply, hnotLate, isReceiveTimeout]

end LinkPort

/-! ## The retry loop -/

def causes (transmissions : List Transmission) : List (Option RetryCause) :=
  transmissions.map fun transmission => retryCause transmission.outcome

/-- The causes that make the loop pause before it tries again. -/
def RetryCause.pauses : RetryCause → Bool
  | .transport => false
  | .busy => true
  | .delayedResponse => true

theorem le_exchangeDeadline (horizon : Nat) {instant : Nat} {job : Job}
    (h : instant ≤ job.deadline) :
    instant ≤ exchangeDeadline horizon instant job := by
  unfold exchangeDeadline checkedAdd
  split_ifs <;> simp <;> omega

theorem judgeAttempt_of_cause {job : Job} {retries : Retries}
    {reply : DeviceReply} {cause : RetryCause}
    (h : retryCause (.ok reply) = some cause) :
    (retryLimit job cause ≤ retries.used cause →
      ∃ result, judgeAttempt job retries (.ok reply) = .finish result) ∧
    (retries.used cause < retryLimit job cause →
      ∃ next, judgeAttempt job retries (.ok reply) = .retry cause next
        true) := by
  simp only [retryCause] at h
  split_ifs at h with hbusy hdelayed
  · injection h with h
    subst h
    simp only [judgeAttempt, if_pos hbusy, retryLimit, Retries.used,
      ← UInt8.le_iff_toNat_le, ← UInt8.lt_iff_toNat_lt, ge_iff_le]
    refine ⟨fun hle => ?_, fun hlt => ?_⟩
    · rw [if_pos hle]
      exact ⟨_, rfl⟩
    · rw [if_neg (UInt8.not_le.mpr hlt)]
      exact ⟨_, rfl⟩
  · injection h with h
    subst h
    simp only [judgeAttempt, if_neg hbusy, if_pos hdelayed, retryLimit,
      Retries.used, ← UInt8.le_iff_toNat_le, ← UInt8.lt_iff_toNat_lt,
      ge_iff_le]
    refine ⟨fun hle => ?_, fun hlt => ?_⟩
    · rw [if_pos hle]
      exact ⟨_, rfl⟩
    · rw [if_neg (UInt8.not_le.mpr hlt)]
      exact ⟨_, rfl⟩

theorem turn_of_pause {horizon : Nat} {job : Job} {retries next : Retries}
    {outcome : Except ExchangeError DeviceReply} {cause : RetryCause}
    {fragment : Bytes} {instant : Nat} (port : LinkPort)
    (hjudge : judgeAttempt job retries outcome = .retry cause next true)
    (hwake : instant + job.policy.retryDelay < job.deadline)
    (hhorizon : job.deadline ≤ horizon) :
    turn horizon job (answeredAttempt instant job.policy.retryDelay fragment)
        retries outcome port =
      (port.emit (.retrying job.id next.attemptNumber cause),
        .again next) := by
  have hwait : waitBeforeRetry horizon instant job.policy.retryDelay
      job.deadline = .ok () := by
    unfold waitBeforeRetry checkedAdd
    split_ifs with hzero hfits
    · rfl
    · simp [Nat.not_le.mpr hwake]
    · omega
  simp [turn, hjudge, answeredAttempt, hwait, Nat.not_le.mpr hwake]

section Loop

variable {horizon : Nat} {job : Job} {frame : Frame} (encoded : Bytes)
  {surroundings : Nat → Attempt}

theorem exchangeLoop_silent {instant index : Nat} {retries : Retries}
    (hattempt : surroundings index = silentAttempt instant)
    (hinstant : instant ≤ job.deadline)
    (hlimit : transportLimit job ≤ retries.transport)
    (bound checkedAt : Nat) (port : LinkPort) :
    (exchangeLoop horizon job frame encoded surroundings (bound + 1) index
        checkedAt retries port).result = .error .responseTimeout ∧
      (exchangeLoop horizon job frame encoded surroundings (bound + 1) index
        checkedAt retries port).transmissions =
        [⟨checkedAt, .error .responseTimeout⟩] := by
  have honce := port.exchangeOnce_silentAttempt job.id frame encoded
    (le_exchangeDeadline horizon hinstant)
  have hjudge : judgeAttempt job retries (.error .responseTimeout) =
      .finish (.error .responseTimeout) := by
    simp [judgeAttempt, UInt8.not_lt.mpr hlimit]
  have hstarted : (silentAttempt instant).startedAt = instant := rfl
  simp only [exchangeLoop, hattempt, hstarted, honce, turn, hjudge, and_self]

theorem exchangeLoop_answered {instant index : Nat} {retries : Retries}
    {responseCode : UInt8} {cause : RetryCause} {port : LinkPort}
    (hattempt : surroundings index = answeredAttempt instant
      job.policy.retryDelay (codeFrame frame responseCode).encoding)
    (haddress : frame.address.Accepted)
    (hexpansion : frame.expansion.length ≤ 3)
    (hcause : ∀ reply : DeviceReply, reply.responseCode = responseCode →
      retryCause (.ok reply) = some cause)
    (hleft : retries.used cause < retryLimit job cause)
    (hwake : instant + job.policy.retryDelay < job.deadline)
    (hhorizon : job.deadline ≤ horizon) (bound checkedAt : Nat)
    (hready : port.Ready) :
    ∃ reply next nextPort, retryCause (.ok reply) = some cause ∧
      nextPort.Ready ∧ budget job next + 1 = budget job retries ∧
      (∀ other, next.used other =
        retries.used other + if other = cause then 1 else 0) ∧
      exchangeLoop horizon job frame encoded surroundings (bound + 1) index
          checkedAt retries port =
        (exchangeLoop horizon job frame encoded surroundings bound (index + 1)
          (instant + job.policy.retryDelay) next nextPort).prepend
            ⟨checkedAt, .ok reply⟩ := by
  obtain ⟨answered, reply, honce, hcode, hanswered⟩ :=
    LinkPort.exchangeOnce_answeredAttempt hready job.id haddress hexpansion
      responseCode encoded job.policy.retryDelay
      (le_exchangeDeadline horizon (show instant ≤ job.deadline by omega))
  have hreply := hcause reply hcode
  obtain ⟨next, hjudge⟩ := (judgeAttempt_of_cause hreply).2 hleft
  obtain ⟨-, -, hused⟩ := judgeAttempt_retry hjudge
  refine ⟨reply, next, _, hreply,
    hanswered.sameChannel (answered.sameChannel_emit
      (.retrying job.id next.attemptNumber cause)), budget_retry hjudge,
    hused, ?_⟩
  simp only [exchangeLoop, hattempt]
  have hstarted : (answeredAttempt instant job.policy.retryDelay
      (codeFrame frame responseCode).encoding).startedAt = instant := rfl
  have hchecked : (answeredAttempt instant job.policy.retryDelay
      (codeFrame frame responseCode).encoding).checkedAt =
        instant + job.policy.retryDelay := rfl
  simp only [hstarted, honce, turn_of_pause answered hjudge hwake hhorizon,
    hchecked]

theorem causes_exchangeLoop_answered {start : Nat} {responseCode : UInt8}
    {cause : RetryCause}
    (hattempts : ∀ index, surroundings index = answeredAttempt
      (start + index * job.policy.retryDelay) job.policy.retryDelay
      (codeFrame frame responseCode).encoding)
    (haddress : frame.address.Accepted)
    (hexpansion : frame.expansion.length ≤ 3)
    (hcause : ∀ reply : DeviceReply, reply.responseCode = responseCode →
      retryCause (.ok reply) = some cause)
    (hhorizon : job.deadline ≤ horizon) {count bound index : Nat}
    (checkedAt : Nat) {retries : Retries} {port : LinkPort}
    (hcount : retries.used cause + count = retryLimit job cause)
    (hdeadline : start + (index + count) * job.policy.retryDelay <
      job.deadline)
    (hbound : budget job retries < bound) (hready : port.Ready) :
    causes (exchangeLoop horizon job frame encoded surroundings bound index
        checkedAt retries port).transmissions =
      List.replicate (count + 1) (some cause) := by
  induction count generalizing bound index checkedAt retries port with
  | zero =>
      obtain _ | bound := bound
      · omega
      obtain ⟨answered, reply, honce, hcode, -⟩ :=
        LinkPort.exchangeOnce_answeredAttempt hready job.id haddress
          hexpansion responseCode encoded job.policy.retryDelay
          (le_exchangeDeadline horizon (Nat.le_of_lt hdeadline))
      have hreply := hcause reply hcode
      obtain ⟨result, hjudge⟩ :=
        (@judgeAttempt_of_cause job retries reply cause hreply).1 (by omega)
      have hstarted : (answeredAttempt
          (start + index * job.policy.retryDelay) job.policy.retryDelay
          (codeFrame frame responseCode).encoding).startedAt =
            start + index * job.policy.retryDelay := rfl
      rw [Nat.add_zero] at honce
      simp only [exchangeLoop, hattempts index, hstarted, honce, turn, hjudge,
        causes, List.map_cons, List.map_nil, hreply]
      rfl
  | succ count ih =>
      obtain _ | bound := bound
      · omega
      have hmore : index + (count + 1) = index + 1 + count := by omega
      have hwake : start + index * job.policy.retryDelay +
          job.policy.retryDelay < job.deadline := by
        rw [hmore, Nat.add_mul, Nat.add_mul] at hdeadline
        omega
      obtain ⟨reply, next, nextPort, hreply, hnext, hbudget, hused, hloop⟩ :=
        exchangeLoop_answered encoded (hattempts index) haddress hexpansion
          hcause (show retries.used cause < _ by omega) hwake hhorizon bound
          checkedAt hready
      have hsame := hused cause
      rw [if_pos rfl] at hsame
      rw [hloop, List.replicate_succ]
      have hlater := ih (start + index * job.policy.retryDelay +
        job.policy.retryDelay) (show next.used cause + count = _ by omega)
        (by rw [← hmore]; exact hdeadline) (show _ < bound by omega) hnext
      simp only [causes, ExchangeRun.prepend, List.map_cons, hreply] at hlater ⊢
      rw [hlater]

end Loop

/-! ## Addresses that can answer -/

theorem accepted_of_readFrom {bytes : Bytes} {long : Bool} {address : Address}
    (h : Address.readFrom bytes long = .ok address) : address.Accepted := by
  unfold Address.readFrom at h
  split at h
  · contradiction
  simp only at h
  split_ifs at h
  · exact .inl ⟨_, _, h⟩
  · split at h
    · exact .inr ⟨_, _, _, h⟩
    · contradiction

theorem accepted_of_analyzeComplete {bytes : Bytes} {policy : ChecksumPolicy}
    {delimiterIndex preambleCount countIndex checksumIndex consumed : Nat}
    {delimiter : UInt8} {repair : Option FrameRepair} {frame : Frame}
    {repaired : Bool}
    (h : analyzeComplete bytes policy delimiterIndex preambleCount countIndex
      checksumIndex delimiter repair = .frame frame consumed repaired) :
    frame.address.Accepted := by
  unfold analyzeComplete at h
  cases haddress : Address.readFrom (slice bytes (delimiterIndex + 1)
      (delimiterIndex + 1 + addressLen delimiter)) (isLong delimiter) with
  | error error =>
      simp only [haddress] at h
      split_ifs at h
  | ok address =>
      cases hkind : FrameKind.fromDelimiter delimiter with
      | none =>
          simp only [haddress, hkind] at h
          split_ifs at h
      | some kind =>
          simp only [haddress, hkind] at h
          have hframe : frame.address = address := by
            split_ifs at h
            all_goals
              injection h with h
              rw [← h]
          rw [hframe]
          exact accepted_of_readFrom haddress

theorem accepted_of_analyze {bytes : Bytes} {limits : DecodeLimits}
    {frame : Frame} {consumed : Nat} {repaired : Bool}
    (h : analyze bytes limits = .frame frame consumed repaired) :
    frame.address.Accepted := by
  unfold analyze at h
  split at h
  · contradiction
  simp only at h
  split_ifs at h
  exact accepted_of_analyzeComplete h

def AcceptedFrames (events : List DecodeEvent) : Prop :=
  ∀ frame, .frame frame ∈ events → frame.address.Accepted

theorem acceptedFrames_collectEvents (room : Nat) (decoder : FrameDecoder) :
    AcceptedFrames (FrameDecoder.collectEvents room decoder).1 := by
  have hnext : ∀ (fuel : Nat) (decoder : FrameDecoder) (frame : Frame),
      (FrameDecoder.nextEventLoop fuel decoder).1 = some (.frame frame) →
        frame.address.Accepted := by
    intro fuel
    induction fuel with
    | zero => simp [FrameDecoder.nextEventLoop]
    | succ fuel ih =>
        intro decoder frame h
        unfold FrameDecoder.nextEventLoop at h
        split at h
        · contradiction
        · contradiction
        · exact ih _ _ h
        · simp at h
        next hanalyze =>
          simp only [Option.some.injEq, DecodeEvent.frame.injEq] at h
          exact h ▸ accepted_of_analyze hanalyze
  induction room generalizing decoder with
  | zero => simp [AcceptedFrames, FrameDecoder.collectEvents]
  | succ room ih =>
      unfold FrameDecoder.collectEvents
      split
      · simp [AcceptedFrames]
      next event next hevent =>
        intro frame hmem
        rcases List.mem_cons.mp hmem with hsame | hmem
        · exact hnext _ decoder frame (by
            rw [← FrameDecoder.nextEvent, hevent, hsame])
        · exact ih next frame hmem

theorem acceptedFrames_push (decoder : FrameDecoder) (fragment : Bytes) :
    AcceptedFrames (decoder.push fragment).1 := by
  have hevents := acceptedFrames_collectEvents maximumDecodeEventsPerPush
    (decoder.appendBounded fragment)
  unfold FrameDecoder.push
  simp only
  split_ifs <;> exact hevents

theorem acceptedFrames_pushAll (decoder : FrameDecoder)
    (fragments : List Bytes) :
    AcceptedFrames (decoder.pushAll fragments).1 := by
  induction fragments generalizing decoder with
  | nil => simp [AcceptedFrames, FrameDecoder.pushAll]
  | cons fragment fragments ih =>
      intro frame hmem
      rcases List.mem_append.mp hmem with hmem | hmem
      · exact acceptedFrames_push decoder fragment frame hmem
      · exact ih _ frame hmem

theorem accepted_of_answerOf {requestFrame : Frame} {event : DecodeEvent}
    {reply : DeviceReply} (h : LinkPort.answerOf requestFrame event =
      some reply) (hevent : ∀ frame, event = .frame frame →
        frame.address.Accepted) :
    requestFrame.address.Accepted := by
  have hanswers := LinkPort.answers_of_answerOf h
  unfold LinkPort.answerOf at h
  split at h
  · contradiction
  next frame =>
    split at h
    · contradiction
    split at h
    · contradiction
    next found hfound =>
      split_ifs at h
      injection h with h
      subst h
      obtain ⟨_, _, _, _, hparts, -⟩ := DeviceReply.fromFrame_ok hfound
      have haddress : found.address = requestFrame.address := by
        simp only [answers, decide_eq_true_eq] at hanswers
        exact hanswers.2.1
      rw [← haddress, hparts]
      exact hevent frame rfl

theorem LinkPort.accepted_of_exchangeOnce {port : LinkPort} {id : UInt64}
    {requestFrame : Frame} {encoded : Bytes} {deadline : Nat} {sent : Sent}
    {arrivals : List Arrival} {reply : DeviceReply}
    (h : (port.exchangeOnce id requestFrame encoded deadline sent
      arrivals).2 = .ok reply) :
    requestFrame.address.Accepted := by
  simp only [exchangeOnce] at h
  split at h
  · contradiction
  split at h
  · contradiction
  rw [awaitReply_eq] at h
  generalize hfirst : List.findSome? (answerOf requestFrame) _ = first at h
  cases first with
  | none => contradiction
  | some found =>
      obtain ⟨event, hmem, hevent⟩ := List.exists_of_findSome?_eq_some hfirst
      refine accepted_of_answerOf hevent ?_
      rintro frame rfl
      exact acceptedFrames_pushAll _ _ frame hmem

/-- Whoever answers a request has an address that a frame can carry. -/
theorem accepted_of_exchangeLoop {horizon : Nat} {job : Job} {frame : Frame}
    {encoded : Bytes} {surroundings : Nat → Attempt}
    {bound index checkedAt : Nat} {retries : Retries} {port : LinkPort} :
    ∀ transmission ∈ (exchangeLoop horizon job frame encoded surroundings
        bound index checkedAt retries port).transmissions,
      ∀ reply, transmission.outcome = .ok reply →
        frame.address.Accepted := by
  induction bound generalizing index checkedAt retries port with
  | zero => simp [exchangeLoop]
  | succ bound ih =>
      intro transmission hmem reply houtcome
      simp only [exchangeLoop] at hmem
      split at hmem
      · rw [List.mem_singleton.mp hmem] at houtcome
        exact LinkPort.accepted_of_exchangeOnce houtcome
      · rcases List.mem_cons.mp hmem with hfirst | hmem
        · rw [hfirst] at houtcome
          exact LinkPort.accepted_of_exchangeOnce houtcome
        · exact ih transmission hmem reply houtcome

end HartLink.Service

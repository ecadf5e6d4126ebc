import HartLink.Ip.Framing

/-!
# Transfers under interruption

What a call may leave behind when its awaits fail, run into a timer or are
dropped: the bytes that have moved, the sequence number, and whether the
session is still usable.
-/

namespace HartLink.Ip

open HartLink.Foundation
open HartLink.Operation

/-- The part of a packet that has been read when a read is interrupted. -/
def Torn (point : AwaitPoint) (moved : Nat) (bytes : Bytes) : Prop :=
  match point with
  | .header => bytes.length = moved ∧ moved < headerSize
  | .body | .discard =>
      headerSize ≤ bytes.length ∧ bytes.length < declaredLength bytes
  | .write | .flush => False

/-- What has been written of a packet when its transfer is interrupted. -/
def PartlyWritten (encoded : Bytes) (point : AwaitPoint) (moved : Nat)
    (bytes : Bytes) : Prop :=
  point = .flush ∧ bytes = encoded ∨
    point = .write ∧ bytes = encoded.take moved ∧
      (moved < encoded.length ∨ moved = 0)

namespace IpSession

/-- How a receive may end before the timer around it is looked at. -/
inductive ReceivesUnbounded (session : IpSession) :
    IpSession → Flow IpPacket → Prop
  | whole {stream : Duplex AwaitPoint} {bytes : Bytes}
      {result : Except IpError IpPacket}
      (reads : Duplex.Reads bytes session.stream stream)
      (packet : IsPacket bytes)
      (log : Duplex.Undisturbed session.stream stream)
      (content : ∀ error, result = .error error →
        IpPacket.IsContentError error) :
      ReceivesUnbounded session { session with stream } (.returned result)
  | failed {stream : Duplex AwaitPoint} {error : IpError}
      (log : Duplex.Undisturbed session.stream stream)
      (framing : IsFramingError error) :
      ReceivesUnbounded session { session with stream }
        (.returned (.error error))
  | interrupted {stream : Duplex AwaitPoint} {bytes : Bytes}
      {point : AwaitPoint} {interruption : Interruption} {moved : Nat}
      (reads : Duplex.Reads bytes session.stream stream)
      (log : Duplex.Disturbed point interruption moved session.stream stream)
      (torn : Torn point moved bytes) :
      ReceivesUnbounded session { session with stream }
        (.interrupted interruption)

theorem torn_append {point : AwaitPoint} (hpoint : point = .body ∨
    point = .discard) {header rest : Bytes} {moved : Nat}
    (hheader : header.length = headerSize)
    (hrest : rest.length < declaredLength header - headerSize) :
    Torn point moved (header ++ rest) := by
  have hlength : (header ++ rest).length = headerSize + rest.length := by
    rw [List.length_append, hheader]
  have htorn : headerSize ≤ (header ++ rest).length ∧
      (header ++ rest).length < declaredLength (header ++ rest) := by
    rw [declaredLength_append hheader.ge, hlength]
    omega
  rcases hpoint with rfl | rfl
  · exact htorn
  · exact htorn

theorem isPacket_append {header rest : Bytes}
    (hheader : header.length = headerSize)
    (hdeclared : headerSize ≤ declaredLength header)
    (hrest : rest.length = declaredLength header - headerSize) :
    IsPacket (header ++ rest) := by
  have hlength : (header ++ rest).length = headerSize + rest.length := by
    rw [List.length_append, hheader]
  refine ⟨by omega, ?_⟩
  rw [declaredLength_append hheader.ge, hlength]
  omega

theorem receivesUnbounded (session : IpSession) :
    ReceivesUnbounded session session.receiveUnbounded.1
      session.receiveUnbounded.2 := by
  rw [receiveUnbounded, awaited]
  have hheader := session.stream.fills_readExact AwaitPoint.header headerSize
  generalize session.stream.readExact .header headerSize = read
    at hheader ⊢
  obtain ⟨middle, outcome⟩ := read
  cases hheader with
  | failed reads log => exact .failed log trivial
  | interrupted reads log length => exact .interrupted reads log ⟨rfl, length⟩
  | @done header reads log length =>
      dsimp only
      split_ifs with hsmall hlimit
      · exact .failed log trivial
      · -- an oversized body is read and forgotten
        have hskips := middle.skips_discardExact AwaitPoint.discard
          (by decide : 0 < 1024) (declaredLength header - headerSize)
        rw [awaited]
        generalize middle.discardExact .discard 1024
          (declaredLength header - headerSize) = discarded at hskips ⊢
        obtain ⟨stream, outcome⟩ := discarded
        cases hskips with
        | failed reads' log' => exact .failed (log.trans log') trivial
        | interrupted reads' log' length' =>
            exact .interrupted (reads.trans reads') (log.disturbed log')
              (torn_append (.inr rfl) length length')
        | done reads' log' length' =>
            refine .whole (reads.trans reads')
              (isPacket_append length (Nat.le_of_not_lt hsmall) length')
              (log.trans log') ?_
            intro error herror
            injection herror with herror
            rw [← herror]
            trivial
      · have hfills := middle.fills_readExact AwaitPoint.body
          (declaredLength header - headerSize)
        rw [awaited]
        generalize middle.readExact .body
          (declaredLength header - headerSize) = read at hfills ⊢
        obtain ⟨stream, outcome⟩ := read
        cases hfills with
        | failed reads' log' => exact .failed (log.trans log') trivial
        | interrupted reads' log' length' =>
            exact .interrupted (reads.trans reads') (log.disturbed log')
              (torn_append (.inl rfl) length length')
        | done reads' log' length' =>
            have hpacket := isPacket_append length (Nat.le_of_not_lt hsmall)
              length'
            exact .whole (reads.trans reads') hpacket (log.trans log')
              fun error herror => IpPacket.decode_isContentError hpacket herror

/-- No await of the log since then was dropped. -/
def Undropped (stream next : Duplex AwaitPoint) : Prop :=
  ∃ entries, next.log = stream.log ++ entries ∧
    ∀ entry ∈ entries, ∀ moved, entry.2 ≠ .interrupted .dropped moved

inductive Receives (session : IpSession) : IpSession → Flow IpPacket → Prop
  | whole {stream : Duplex AwaitPoint} {bytes : Bytes}
      {result : Except IpError IpPacket}
      (reads : Duplex.Reads bytes session.stream stream)
      (packet : IsPacket bytes)
      (log : Duplex.Undisturbed session.stream stream) :
      Receives session { session with stream } (.returned result)
  | lost {stream : Duplex AwaitPoint} {error : IpError}
      (log : Undropped session.stream stream) :
      Receives session { session with stream, usable := false }
        (.returned (.error error))
  | interrupted {stream : Duplex AwaitPoint} {bytes : Bytes}
      {point : AwaitPoint} {interruption : Interruption} {moved : Nat}
      (reads : Duplex.Reads bytes session.stream stream)
      (log : Duplex.Disturbed point interruption moved session.stream stream)
      (torn : Torn point moved bytes)
      (outside : interruption ≠ .innerTimer) :
      Receives session { session with stream } (.interrupted interruption)

theorem undropped_of_undisturbed {stream next : Duplex AwaitPoint}
    (h : Duplex.Undisturbed stream next) : Undropped stream next := by
  obtain ⟨entries, hlog, hclear⟩ := h
  exact ⟨entries, hlog, fun entry hentry => hclear entry hentry .dropped⟩

theorem undropped_of_disturbed {point : AwaitPoint}
    {interruption : Interruption} {moved : Nat}
    {stream next : Duplex AwaitPoint}
    (h : Duplex.Disturbed point interruption moved stream next)
    (hdropped : interruption ≠ .dropped) : Undropped stream next := by
  obtain ⟨middle, ⟨entries, hmiddle, hclear⟩, hlog⟩ := h
  refine ⟨entries ++ [(point, .interrupted interruption moved)],
    by rw [hlog, hmiddle, List.append_assoc], ?_⟩
  refine List.forall_mem_append.mpr
    ⟨fun entry hentry => hclear entry hentry .dropped,
      List.forall_mem_singleton.mpr ?_⟩
  intro moved' heq
  injection heq with heq
  exact hdropped heq

theorem receives {session : IpSession} (husable : session.usable = true) :
    Receives session session.receive.1 session.receive.2 := by
  have hunbounded := session.receivesUnbounded
  rw [receive, if_neg (not_not.mpr husable)]
  generalize session.receiveUnbounded = received at hunbounded ⊢
  obtain ⟨next, flow⟩ := received
  cases hunbounded with
  | @whole stream bytes result reads packet log content =>
      cases result with
      | ok value => exact .whole reads packet log
      | error error =>
          have hcontent := content error rfl
          cases error <;> first | contradiction | exact .whole reads packet log
  | @failed stream error log framing =>
      have hlog := undropped_of_undisturbed log
      cases error <;> first | contradiction | exact .lost hlog
  | @interrupted stream bytes point interruption moved reads log torn =>
      cases interruption with
      | innerTimer => exact .lost (undropped_of_disturbed log (by decide))
      | outerTimer => exact .interrupted reads log torn (by decide)
      | dropped => exact .interrupted reads log torn (by decide)

/-! ## Sending -/

def outgoing (session : IpSession) (messageType : MessageType)
    (messageId : UInt8) (body : Bytes) : IpPacket :=
  { version := session.protocolVersion, messageType, messageId
    status := 0, sequence := session.nextSequence, body }

theorem encode_outgoing (session : IpSession) (messageType : MessageType)
    (messageId : UInt8) {body : Bytes}
    (hbody : body.length ≤ maximumIpBodyBytes) :
    (session.outgoing messageType messageId body).encode =
      .ok (session.outgoing messageType messageId body).encoding := by
  unfold maximumIpBodyBytes at hbody
  rw [IpPacket.encode, if_neg]
  show ¬ headerSize + body.length > 65535
  unfold headerSize at hbody ⊢
  omega

/-- How the transfer of a packet may end. -/
inductive WritesPacket (encoded : Bytes) (stream : Duplex AwaitPoint) :
    Duplex AwaitPoint → Outcome Unit → Prop
  | done {next : Duplex AwaitPoint} (writes : Duplex.Writes encoded stream next)
      (log : Duplex.Undisturbed stream next) :
      WritesPacket encoded stream next (.done ())
  | failed {next : Duplex AwaitPoint} {error : StreamError}
      (log : Duplex.Undisturbed stream next) :
      WritesPacket encoded stream next (.failed error)
  | interrupted {next : Duplex AwaitPoint} {point : AwaitPoint}
      {interruption : Interruption} {moved : Nat} {bytes : Bytes}
      (writes : Duplex.Writes bytes stream next)
      (log : Duplex.Disturbed point interruption moved stream next)
      (part : PartlyWritten encoded point moved bytes) :
      WritesPacket encoded stream next (.interrupted interruption)

theorem writesPacket (encoded : Bytes) (stream : Duplex AwaitPoint) :
    WritesPacket encoded stream (writePacket encoded stream).1
      (writePacket encoded stream).2 := by
  have hwrite := stream.sends_writeAll AwaitPoint.write encoded
  rw [writePacket]
  generalize stream.writeAll .write encoded = written at hwrite ⊢
  obtain ⟨middle, outcome⟩ := written
  cases hwrite with
  | failed writes log => exact .failed log
  | interrupted writes log length =>
      exact .interrupted writes log (.inr ⟨rfl, rfl, length⟩)
  | done writes log =>
      dsimp only
      have hflush := middle.sends_flush AwaitPoint.flush
      generalize middle.flush .flush = flushed at hflush ⊢
      obtain ⟨next, outcome⟩ := flushed
      cases hflush with
      | done writes' log' =>
          refine .done ?_ (log.trans log')
          exact List.append_nil encoded ▸ writes.trans writes'
      | failed writes' log' => exact .failed (log.trans log')
      | interrupted writes' log' length =>
          have hwrites := writes.trans writes'
          rw [List.take_nil, List.append_nil] at hwrites
          exact .interrupted hwrites (log.disturbed log') (.inl ⟨rfl, rfl⟩)

/-- How a send may end. -/
inductive SendsPacket (session : IpSession) (packet : IpPacket) :
    IpSession → Flow UInt16 → Prop
  | refused {error : IpError} :
      SendsPacket session packet session (.returned (.error error))
  | sent {stream : Duplex AwaitPoint} (usable : session.usable = true)
      (short : packet.body.length ≤ maximumIpBodyBytes)
      (writes : Duplex.Writes packet.encoding session.stream stream)
      (log : Duplex.Undisturbed session.stream stream) :
      SendsPacket session packet
        { session with stream, nextSequence := session.nextSequence + 1 }
        (.returned (.ok session.nextSequence))
  | lost {stream : Duplex AwaitPoint} {error : IpError}
      (log : Undropped session.stream stream) :
      SendsPacket session packet { session with stream, usable := false }
        (.returned (.error error))
  | interrupted {stream : Duplex AwaitPoint} {point : AwaitPoint}
      {interruption : Interruption} {moved : Nat} {bytes : Bytes}
      (usable : session.usable = true)
      (short : packet.body.length ≤ maximumIpBodyBytes)
      (writes : Duplex.Writes bytes session.stream stream)
      (log : Duplex.Disturbed point interruption moved session.stream stream)
      (part : PartlyWritten packet.encoding point moved bytes)
      (outside : interruption ≠ .innerTimer) :
      SendsPacket session packet { session with stream }
        (.interrupted interruption)

theorem sendsPacket (session : IpSession) (messageType : MessageType)
    (messageId : UInt8) (body : Bytes) :
    SendsPacket session (session.outgoing messageType messageId body)
      (session.send messageType messageId body).1
      (session.send messageType messageId body).2 := by
  rw [send]
  by_cases husable : session.usable = true
  swap
  · rw [if_pos husable]
    exact .refused
  rw [if_neg (not_not.mpr husable)]
  by_cases hlong : body.length > maximumIpBodyBytes
  · rw [if_pos hlong]
    exact .refused
  have hbody := Nat.le_of_not_lt hlong
  have hencode := session.encode_outgoing messageType messageId hbody
  unfold outgoing at hencode ⊢
  rw [if_neg hlong]
  dsimp only
  rw [hencode]
  dsimp only
  have hwrites := writesPacket (session.outgoing messageType messageId
    body).encoding session.stream
  unfold outgoing at hwrites
  generalize writePacket _ session.stream = written at hwrites ⊢
  obtain ⟨stream, outcome⟩ := written
  cases hwrites with
  | done writes log => exact .sent husable hbody writes log
  | failed log => exact .lost (undropped_of_undisturbed log)
  | @interrupted point interruption moved bytes writes log part =>
      cases interruption with
      | innerTimer => exact .lost (undropped_of_disturbed log (by decide))
      | outerTimer =>
          exact .interrupted husable hbody writes log part (by decide)
      | dropped =>
          exact .interrupted husable hbody writes log part (by decide)

/-! ## Calls -/

/-- Every call but a single transfer is refused or is an exchange. -/
inductive Exchanges (session : IpSession) : IpSession → Flow IpPacket → Prop
  | refused {error : IpError} :
      Exchanges session session (.returned (.error error))
  | exchanged {messageId : UInt8} {body : Bytes} {isOpen : Bool} :
      Exchanges session
        { (session.exchangeUnchecked messageId body).1 with isOpen }
        (session.exchangeUnchecked messageId body).2

theorem exchanges_opened (session : IpSession) (messageId : UInt8)
    (body : Bytes) (isOpen : Bool) :
    Exchanges session
      (opened isOpen (session.exchangeUnchecked messageId body)).1
      (opened isOpen (session.exchangeUnchecked messageId body)).2 := by
  have hopened : ∀ exchange : IpSession × Flow IpPacket, ∃ isOpen',
      opened isOpen exchange =
        ({ exchange.1 with isOpen := isOpen' }, exchange.2) := by
    intro exchange
    rcases exchange with ⟨next, ⟨_ | response⟩ | interruption⟩
    · exact ⟨next.isOpen, rfl⟩
    · exact ⟨isOpen, rfl⟩
    · exact ⟨next.isOpen, rfl⟩
  obtain ⟨isOpen', heq⟩ :=
    hopened (session.exchangeUnchecked messageId body)
  rw [heq]
  exact .exchanged

theorem exchanges_request (session : IpSession) (messageId : UInt8)
    (body : Bytes) :
    Exchanges session (session.request messageId body).1
      (session.request messageId body).2 := by
  rw [request]
  split_ifs
  · exact .exchanged
  · exact .refused

theorem exchanges_openSession (session : IpSession) (milliseconds : Nat) :
    Exchanges session (session.openSession milliseconds).1
      (session.openSession milliseconds).2 := by
  rw [openSession]
  split_ifs
  · exact .refused
  · exact .refused
  · exact exchanges_opened ..

theorem exchanges_closeSession (session : IpSession) :
    Exchanges session session.closeSession.1 session.closeSession.2 := by
  rw [closeSession]
  split_ifs
  · exact exchanges_opened ..
  · exact .refused

theorem act_cases (session : IpSession) (awaits : List Await) (call : Call) :
    (∃ messageType messageId body flow,
      call = .send messageType messageId body ∧
        SendsPacket (session.under (awaits.map withoutOuterTimer))
          (session.outgoing messageType messageId body)
          (session.act awaits call).1 flow) ∨
    (call = .receive ∧ (session.act awaits call).1 =
      (session.under (awaits.map withoutOuterTimer)).receive.1) ∨
    (¬ call.IsTransfer ∧ ∃ flow,
      Exchanges (session.under awaits) (session.act awaits call).1 flow ∧
        (session.act awaits call).2 = flow.map .packet) := by
  cases call with
  | send messageType messageId body =>
      exact .inl ⟨messageType, messageId, body, _, rfl, sendsPacket ..⟩
  | receive => exact .inr (.inl ⟨rfl, rfl⟩)
  | openSession milliseconds =>
      exact .inr (.inr ⟨not_false, _, exchanges_openSession .., rfl⟩)
  | request messageId body =>
      exact .inr (.inr ⟨not_false, _, exchanges_request .., rfl⟩)
  | keepAlive =>
      exact .inr (.inr ⟨not_false, _, exchanges_request .., rfl⟩)
  | tokenPassing body =>
      exact .inr (.inr ⟨not_false, _, exchanges_request .., rfl⟩)
  | closeSession =>
      exact .inr (.inr ⟨not_false, _, exchanges_closeSession .., rfl⟩)

end IpSession

end HartLink.Ip

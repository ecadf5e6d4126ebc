import HartLink.Ip.Session

/-!
# Packet by packet

Receive calls that are not interrupted take one packet each from the stream,
whatever the packet holds.  A header that declares too little, or the end of
the stream inside a packet, ends the session.
-/

namespace HartLink.Ip

open HartLink.Foundation
open HartLink.Operation

/-- Nothing that begins with a whole packet. -/
def Broken (bytes : Bytes) : Prop :=
  bytes.length < headerSize ∨ declaredLength bytes < headerSize ∨
    bytes.length < declaredLength bytes

instance (bytes : Bytes) : Decidable (Broken bytes) :=
  inferInstanceAs (Decidable (_ ∨ _))

def Call.IsTransfer : Call → Prop
  | .send .. | .receive => True
  | _ => False

instance (call : Call) : Decidable call.IsTransfer := by
  cases call <;> unfold Call.IsTransfer <;> infer_instance

namespace IpPacket

/-- An error that the decoder finds in the bytes of a whole packet. -/
def IsContentError : IpError → Prop
  | .bodyLimit _ | .reservedMessageBits _ | .messageType _ => True
  | _ => False

theorem tryFrom_isContentError {value : UInt8} {error : IpError}
    (h : MessageType.tryFrom value = .error error) : IsContentError error := by
  unfold MessageType.tryFrom at h
  split_ifs at h
  injection h with h
  subst h
  trivial

theorem decode_isContentError {bytes : Bytes} (h : IsPacket bytes)
    {maximumBody : Nat} {error : IpError}
    (herror : decode bytes maximumBody = .error error) :
    IsContentError error := by
  have hshort : ¬ bytes.length < headerSize := Nat.not_lt.mpr h.1
  rw [decode, if_neg hshort] at herror
  dsimp only at herror
  rw [if_neg h.not_malformed] at herror
  split_ifs at herror
  · injection herror with herror
    subst herror
    trivial
  · injection herror with herror
    subst herror
    trivial
  · cases htype : MessageType.tryFrom (bytes.getD 1 0 &&& 0x0f) with
    | ok messageType =>
        rw [htype] at herror
        contradiction
    | error other =>
        rw [htype] at herror
        injection herror with herror
        subst herror
        exact tryFrom_isContentError htype

theorem decode_oversized {bytes : Bytes} (h : IsPacket bytes)
    {maximumBody : Nat} (hbody : maximumBody < bytes.length - headerSize) :
    decode bytes maximumBody =
      .error (.bodyLimit (bytes.length - headerSize)) := by
  have hshort : ¬ bytes.length < headerSize := Nat.not_lt.mpr h.1
  rw [decode, if_neg hshort]
  dsimp only
  rw [if_neg h.not_malformed, h.2, if_pos hbody]

end IpPacket

namespace IpSession

structure Took (bytes : Bytes) (session next : IpSession) : Prop where
  reads : Duplex.Reads bytes session.stream next.stream
  awaits : next.stream.awaits = []
  rest : next = { session with stream := next.stream }

theorem Took.maximumBody {bytes : Bytes} {session next : IpSession}
    (h : Took bytes session next) : next.maximumBody = session.maximumBody :=
  (congrArg IpSession.maximumBody h.rest :)

theorem Took.usable {bytes : Bytes} {session next : IpSession}
    (h : Took bytes session next) : next.usable = session.usable :=
  (congrArg IpSession.usable h.rest :)

theorem Took.protocolVersion {bytes : Bytes} {session next : IpSession}
    (h : Took bytes session next) :
    next.protocolVersion = session.protocolVersion :=
  (congrArg IpSession.protocolVersion h.rest :)

theorem Took.maximumUnmatched {bytes : Bytes} {session next : IpSession}
    (h : Took bytes session next) :
    next.maximumUnmatched = session.maximumUnmatched :=
  (congrArg IpSession.maximumUnmatched h.rest :)

theorem Took.trans {first second : Bytes} {session middle next : IpSession}
    (h : Took first session middle) (h' : Took second middle next) :
    Took (first ++ second) session next := by
  refine ⟨h.reads.trans h'.reads, h'.awaits, ?_⟩
  have hmiddle := h.rest
  have hnext := h'.rest
  rw [hmiddle] at hnext
  exact hnext

/-! ## One packet -/

theorem awaited_done {α β : Type} {session : IpSession}
    {transfer : Duplex AwaitPoint × Outcome α} {value : α}
    (h : transfer.2 = .done value)
    (next : IpSession → α → IpSession × Flow β) :
    session.awaited transfer next =
      next { session with stream := transfer.1 } value := by
  rw [awaited, h]

theorem awaited_failed {α β : Type} {session : IpSession}
    {transfer : Duplex AwaitPoint × Outcome α} {error : StreamError}
    (h : transfer.2 = .failed error)
    (next : IpSession → α → IpSession × Flow β) :
    session.awaited transfer next =
      ({ session with stream := transfer.1 }, .returned (.error (.io error))) := by
  rw [awaited, h]

theorem took_readExact {session : IpSession}
    (hawaits : session.stream.awaits = []) (point : AwaitPoint)
    {bytes rest : Bytes} (hinput : session.stream.input = bytes ++ rest) :
    (session.stream.readExact point bytes.length).2 = .done bytes ∧
      Took bytes session { session with
        stream := (session.stream.readExact point bytes.length).1 } := by
  have hlength : bytes.length ≤ session.stream.input.length := by
    rw [hinput, List.length_append]
    omega
  have hready := Duplex.readExact_ready hawaits point hlength
  rw [hinput, List.take_left] at hready
  obtain ⟨hdone, hreads, hend⟩ := hready
  exact ⟨hdone, hreads, hend, rfl⟩

theorem took_discardExact {session : IpSession}
    (hawaits : session.stream.awaits = []) (point : AwaitPoint)
    {bytes rest : Bytes} (hinput : session.stream.input = bytes ++ rest) :
    (session.stream.discardExact point 1024 bytes.length).2 = .done () ∧
      Took bytes session { session with
        stream := (session.stream.discardExact point 1024 bytes.length).1 } := by
  have hlength : bytes.length ≤ session.stream.input.length := by
    rw [hinput, List.length_append]
    omega
  have hready := Duplex.discardExact_ready point (by decide : 0 < 1024)
    hawaits hlength
  rw [hinput, List.take_left] at hready
  obtain ⟨hdone, hreads, hend⟩ := hready
  exact ⟨hdone, hreads, hend, rfl⟩

theorem receiveUnbounded_packet {session : IpSession}
    (hawaits : session.stream.awaits = []) {packet rest : Bytes}
    (hpacket : IsPacket packet)
    (hinput : session.stream.input = packet ++ rest) :
    ∃ next, session.receiveUnbounded =
        (next, .returned (IpPacket.decode packet session.maximumBody)) ∧
      Took packet session next := by
  have hparts : packet.take headerSize ++ packet.drop headerSize = packet :=
    List.take_append_drop headerSize packet
  have hheader : (packet.take headerSize).length = headerSize :=
    List.length_take_of_le hpacket.1
  have hbody : (packet.drop headerSize).length =
      packet.length - headerSize := List.length_drop
  have hdeclared : declaredLength (packet.take headerSize) = packet.length :=
    (declaredLength_take (le_refl _) hpacket.1).trans hpacket.2
  have hsplit : session.stream.input =
      packet.take headerSize ++ (packet.drop headerSize ++ rest) := by
    rw [hinput, ← List.append_assoc, hparts]
  obtain ⟨hdone, htook⟩ := took_readExact hawaits .header hsplit
  rw [hheader] at hdone htook
  rw [receiveUnbounded, awaited_done hdone]
  generalize ({ session with
    stream := (session.stream.readExact .header headerSize).1 } : IpSession) =
      middle at htook ⊢
  dsimp only
  rw [hdeclared, if_neg (Nat.not_lt.mpr hpacket.1), ← hbody]
  have hrest : middle.stream.input = packet.drop headerSize ++ rest :=
    List.append_cancel_left (htook.reads.input.symm.trans hsplit)
  rw [htook.maximumBody]
  by_cases hlimit : session.maximumBody < (packet.drop headerSize).length
  · obtain ⟨hdone', htook'⟩ := took_discardExact htook.awaits .discard hrest
    rw [if_pos hlimit, awaited_done hdone']
    refine ⟨_, ?_, hparts ▸ htook.trans htook'⟩
    rw [IpPacket.decode_oversized hpacket (by omega), hbody]
  · obtain ⟨hdone', htook'⟩ := took_readExact htook.awaits .body hrest
    rw [if_neg hlimit, awaited_done hdone', hparts]
    exact ⟨_, by rw [← htook.maximumBody], hparts ▸ htook.trans htook'⟩

theorem receive_packet {session : IpSession} (husable : session.usable = true)
    (hawaits : session.stream.awaits = []) {packet rest : Bytes}
    (hpacket : IsPacket packet)
    (hinput : session.stream.input = packet ++ rest) :
    session.receive.2 =
        .returned (IpPacket.decode packet session.maximumBody) ∧
      Took packet session session.receive.1 := by
  obtain ⟨next, hreceive, htook⟩ :=
    receiveUnbounded_packet hawaits hpacket hinput
  rw [receive, if_neg (not_not.mpr husable), hreceive]
  cases hdecode : IpPacket.decode packet session.maximumBody with
  | ok received => exact ⟨rfl, htook⟩
  | error error =>
      have hcontent := IpPacket.decode_isContentError hpacket hdecode
      cases error <;> first | contradiction | exact ⟨rfl, htook⟩

/-! ## The end of the session -/

def IsFramingError : IpError → Prop
  | .io _ | .packetLength _ _ => True
  | _ => False

theorem receiveUnbounded_broken {session : IpSession}
    (hawaits : session.stream.awaits = [])
    (hbroken : Broken session.stream.input) :
    ∃ next error, session.receiveUnbounded =
      (next, .returned (.error error)) ∧ IsFramingError error := by
  rw [receiveUnbounded]
  by_cases hshort : session.stream.input.length < headerSize
  · rw [awaited_failed (Duplex.readExact_eof hawaits .header hshort)]
    exact ⟨_, _, rfl, trivial⟩
  have hheader := Nat.le_of_not_lt hshort
  have hready := Duplex.readExact_ready hawaits AwaitPoint.header hheader
  obtain ⟨hdone, hreads, hend⟩ := hready
  rw [awaited_done hdone]
  dsimp only
  rw [declaredLength_take (le_refl _) hheader]
  split_ifs with hsmall hlimit
  · exact ⟨_, _, rfl, trivial⟩
  · have hlength := congrArg List.length hreads.input
    rw [List.length_append, List.length_take_of_le hheader] at hlength
    have hmissing := (hbroken.resolve_left hshort).resolve_left hsmall
    have heof := Duplex.discardExact_eof AwaitPoint.discard
      (by decide : 0 < 1024) hend
      (by omega : _ < declaredLength session.stream.input - headerSize)
    rw [awaited_failed heof]
    exact ⟨_, _, rfl, trivial⟩
  · have hlength := congrArg List.length hreads.input
    rw [List.length_append, List.length_take_of_le hheader] at hlength
    have hmissing := (hbroken.resolve_left hshort).resolve_left hsmall
    have heof := Duplex.readExact_eof hend AwaitPoint.body
      (by omega : _ < declaredLength session.stream.input - headerSize)
    rw [awaited_failed heof]
    exact ⟨_, _, rfl, trivial⟩

theorem receive_broken {session : IpSession} (husable : session.usable = true)
    (hawaits : session.stream.awaits = [])
    (hbroken : Broken session.stream.input) :
    (∃ error, session.receive.2 = .returned (.error error)) ∧
      session.receive.1.usable = false := by
  obtain ⟨next, error, hreceive, herror⟩ :=
    receiveUnbounded_broken hawaits hbroken
  rw [receive, if_neg (not_not.mpr husable), hreceive]
  cases error <;> first | contradiction | exact ⟨⟨_, rfl⟩, rfl⟩

theorem perform_unusable {session : IpSession}
    (husable : session.usable = false) (hawaits : session.stream.awaits = [])
    {call : Call} (hcall : call.IsTransfer) (awaits : List Await) :
    session.perform (call, awaits) =
      (session, .returned (.error .streamUnusable)) := by
  have hunder : ∀ awaits : List Await, under [] (session.under awaits) =
      session := by
    intro awaits
    rw [under, under, Duplex.under, Duplex.under, ← hawaits]
  have hrefused : ∀ awaits : List Await,
      ¬ (session.under awaits).usable = true := by
    intro awaits
    simp [under, husable]
  cases call with
  | send messageType messageId body =>
      rw [perform, act, send, if_pos (hrefused _)]
      exact Prod.ext (hunder _) rfl
  | receive =>
      rw [perform, act, receive, if_pos (hrefused _)]
      exact Prod.ext (hunder _) rfl
  | _ => contradiction

/-! ## The stream as a whole -/

theorem Took.of_under {bytes : Bytes} {awaits : List Await}
    {session next : IpSession} (h : Took bytes (session.under awaits) next) :
    Took bytes session next :=
  ⟨⟨h.reads.input, h.reads.consumed, h.reads.written⟩, h.awaits, h.rest⟩

theorem Took.under {bytes : Bytes} {session next : IpSession}
    (h : Took bytes session next) : Took bytes session (next.under []) :=
  ⟨⟨h.reads.input, h.reads.consumed, h.reads.written⟩, rfl,
    (congrArg (IpSession.under []) h.rest :)⟩

theorem perform_receive_packet {session : IpSession}
    (husable : session.usable = true) {packet rest : Bytes}
    (hpacket : IsPacket packet)
    (hinput : session.stream.input = packet ++ rest) :
    (session.perform (.receive, [])).2 = .returned
        ((IpPacket.decode packet session.maximumBody).map .packet) ∧
      Took packet session (session.perform (.receive, [])).1 := by
  have hreceive := @receive_packet (session.under []) husable rfl packet rest
    hpacket hinput
  obtain ⟨hflow, htook⟩ := hreceive
  exact ⟨congrArg (Flow.map Answer.packet) hflow, htook.of_under.under⟩

theorem perform_receive_broken {session : IpSession}
    (husable : session.usable = true)
    (hbroken : Broken session.stream.input) :
    (∃ error, (session.perform (.receive, [])).2 =
        .returned (.error error)) ∧
      (session.perform (.receive, [])).1.usable = false := by
  have hreceive := @receive_broken (session.under []) husable rfl hbroken
  obtain ⟨⟨error, herror⟩, hunusable⟩ := hreceive
  exact ⟨⟨error, congrArg (Flow.map Answer.packet) herror⟩, hunusable⟩

theorem performs_receive_packets {session : IpSession}
    (husable : session.usable = true) {packets : List Bytes} {rest : Bytes}
    (hinput : session.stream.input = packets.flatten ++ rest)
    (hpackets : ∀ packet ∈ packets, IsPacket packet) :
    let run := session.performs (.replicate packets.length (.receive, []))
    run.2 = packets.map (fun packet => .returned
        ((IpPacket.decode packet session.maximumBody).map .packet)) ∧
      Duplex.Reads packets.flatten session.stream run.1.stream ∧
      run.1.usable = true := by
  induction packets generalizing session with
  | nil => exact ⟨rfl, .refl _, husable⟩
  | cons packet packets ih =>
      have hsplit : session.stream.input =
          packet ++ (packets.flatten ++ rest) := by
        rw [hinput, List.flatten_cons, List.append_assoc]
      have hpacket := hpackets packet List.mem_cons_self
      obtain ⟨hflow, htook⟩ := perform_receive_packet husable hpacket hsplit
      have hrest := List.append_cancel_left
        (htook.reads.input.symm.trans hsplit)
      have hothers : ∀ packet ∈ packets, IsPacket packet := fun other hother =>
        hpackets other (List.mem_cons_of_mem packet hother)
      obtain ⟨hflows, hreads, hend⟩ :=
        ih (htook.usable.trans husable) hrest hothers
      rw [htook.maximumBody] at hflows
      rw [List.length_cons, List.replicate_succ]
      refine ⟨?_, htook.reads.trans hreads, hend⟩
      exact congrArg₂ List.cons hflow hflows

theorem performs_unusable {session : IpSession}
    (husable : session.usable = false) (hawaits : session.stream.awaits = [])
    {calls : List (Call × List Await)}
    (hcalls : ∀ call ∈ calls, call.1.IsTransfer) :
    session.performs calls = (session,
      calls.map fun _ => .returned (.error .streamUnusable)) := by
  induction calls with
  | nil => rfl
  | cons call calls ih =>
      have hcall := hcalls call List.mem_cons_self
      have hothers := ih fun other hother =>
        hcalls other (List.mem_cons_of_mem call hother)
      rw [performs, perform_unusable husable hawaits hcall call.2]
      dsimp only
      rw [hothers]
      rfl

/--
Receive calls that neither time out nor are dropped return what the decoder
makes of each packet, and read just that packet; an oversized one is reported
as such.  Where no whole packet follows, the call fails and the session refuses
every later transfer without touching the stream.
-/
theorem performs_receive_framed (session : IpSession)
    (husable : session.usable = true) (packets : List Bytes) (rest : Bytes)
    (hinput : session.stream.input = packets.flatten ++ rest)
    (hpackets : ∀ packet ∈ packets, IsPacket packet) :
    (∀ count ≤ packets.length,
      let run := session.performs (.replicate count (.receive, []))
      run.2 = (packets.take count).map (fun packet => .returned
          ((IpPacket.decode packet session.maximumBody).map .packet)) ∧
        run.1.stream.consumed =
          session.stream.consumed ++ (packets.take count).flatten ∧
        run.1.stream.input = (packets.drop count).flatten ++ rest ∧
        run.1.stream.written = session.stream.written ∧
        run.1.usable = true) ∧
    (∀ packet ∈ packets, session.maximumBody < packet.length - headerSize →
      IpPacket.decode packet session.maximumBody =
        .error (.bodyLimit (packet.length - headerSize))) ∧
    (Broken rest →
      let run := session.performs (.replicate packets.length (.receive, []))
      let last := run.1.perform (.receive, [])
      (∃ error, last.2 = .returned (.error error)) ∧
        last.1.usable = false ∧
        ∀ calls : List (Call × List Await),
          (∀ call ∈ calls, call.1.IsTransfer) →
            last.1.performs calls = (last.1,
              calls.map fun _ => .returned (.error .streamUnusable))) := by
  refine ⟨?_, ?_, ?_⟩
  · intro count hcount
    have hlength : (packets.take count).length = count :=
      List.length_take_of_le hcount
    have hsplit : session.stream.input = (packets.take count).flatten ++
        ((packets.drop count).flatten ++ rest) := by
      rw [hinput, ← List.append_assoc, ← List.flatten_append,
        List.take_append_drop]
    have hrun := performs_receive_packets husable hsplit
      fun packet hpacket => hpackets packet (List.mem_of_mem_take hpacket)
    rw [hlength] at hrun
    obtain ⟨hflows, hreads, hend⟩ := hrun
    exact ⟨hflows, hreads.consumed,
      List.append_cancel_left (hreads.input.symm.trans hsplit),
      hreads.written, hend⟩
  · intro packet hpacket hbody
    exact IpPacket.decode_oversized (hpackets packet hpacket) hbody
  · intro hbroken
    obtain ⟨-, hreads, hend⟩ :=
      performs_receive_packets husable hinput hpackets
    have hrest := List.append_cancel_left (hreads.input.symm.trans hinput)
    generalize session.performs (.replicate packets.length (.receive, [])) = run
      at hend hrest ⊢
    obtain ⟨hfailed, hunusable⟩ :=
      perform_receive_broken hend (hrest ▸ hbroken)
    exact ⟨hfailed, hunusable,
      fun calls hcalls => performs_unusable hunusable rfl hcalls⟩

/-- An answer, an oversized packet and the beginning of a header. -/
theorem performs_receive_framed_oversized :
    let session : IpSession :=
      { stream :=
          { input := [1, 1, 2, 0, 0, 7, 0, 8, 1, 1, 3, 0, 0, 8, 0, 10, 5, 5, 1] }
        maximumBody := 1 }
    let run := session.performs (.replicate 2 (.receive, []))
    run.2 = [.returned (.ok (.packet ⟨1, .response, 2, 0, 7, []⟩)),
        .returned (.error (.bodyLimit 2))] ∧
      run.1.usable = true ∧
      (run.1.perform (.receive, [])).1.usable = false := by
  have hframed := performs_receive_framed
    { stream :=
        { input := [1, 1, 2, 0, 0, 7, 0, 8, 1, 1, 3, 0, 0, 8, 0, 10, 5, 5, 1] }
      maximumBody := 1 } rfl
    [[1, 1, 2, 0, 0, 7, 0, 8], [1, 1, 3, 0, 0, 8, 0, 10, 5, 5]] [1] rfl
    (by decide)
  obtain ⟨hflows, -, -, -, husable⟩ := hframed.1 2 (by decide)
  exact ⟨hflows, husable, (hframed.2.2 (by decide)).2.1⟩

end IpSession

end HartLink.Ip
